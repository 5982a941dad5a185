import CodexApi.Session.Protocol

/-!
# What the session protocol gives

`KeysApart` says what sessions may be relied on for, in every reachable state: turns of a key one
at a time, an actor for its own key only, no key busy for ever, and no actor that meddles with
its replacement. Where the process shuts down, an actor may end with a turn in its channel and
another actor take its place; `two_turns_queued` is such a run. The turn left behind is never run.
-/

namespace CodexApi

open Transition

/-! ### What the protocol gives -/

namespace Sessions

/-- A turn is at an actor: its caller is about to send it, or it is queued, or it runs. -/
def TurnAt (s : Sessions) (i c : Nat) : Prop :=
  (∃ caller, s.callers[c]? = some caller ∧ caller.phase = .handing i) ∨
    ∃ actor, s.actors[i]? = some actor ∧ ∃ job ∈ actor.pending, job.caller = c

/-- An actor of a key that has not removed its entry at its end. -/
def Live (s : Sessions) (i : Nat) (key : SessionKey) : Prop :=
  ∃ actor, s.actors[i]? = some actor ∧ actor.key = some key ∧ actor.phase.departed = false

/-- The actor of an entry and the caller that is about to send to it can release a key without
anybody else. -/
def Releasable (snapshotBytes : Snapshot → Nat) (s : Sessions) (key : SessionKey) (i : Nat) :
    Prop :=
  ∃ as t, SessionsRun snapshotBytes s as t ∧ (∀ a ∈ as, a.actor = some i ∨ ∃ c, a = .send c) ∧
    ∀ entry, (key, entry) ∈ t.cache.entries → entry.busy = false

end Sessions

/-- **The keys are kept apart.** -/
structure KeysApart (snapshotBytes : Snapshot → Nat) (s : Sessions) : Prop where
  /-- At most one turn of a key is on its way to a live actor, queued or running. -/
  one_turn : ∀ key i j c c', s.Live i key → s.Live j key → s.TurnAt i c → s.TurnAt j c' →
    i = j ∧ c = c'
  /-- An actor that has removed its entry at its end runs no turn any more. -/
  departed : ∀ as t (i : Nat) (actor : Actor), SessionsRun snapshotBytes s as t →
    s.actors[i]? = some actor → actor.phase.departed = true →
      ∃ actor' : Actor, t.actors[i]? = some actor' ∧ actor'.phase.departed = true ∧
        actor'.log = actor.log
  /-- The turns of an actor are from callers of its key. -/
  own_turns : ∀ (i : Nat) (actor : Actor), s.actors[i]? = some actor →
    ∀ job ∈ actor.pending ++ actor.log.map Prod.fst, ∃ caller,
      s.callers[job.caller]? = some caller ∧ caller.key = actor.key ∧ caller.turn = job.turn
  /-- The input it makes of a turn is of the turn and of turns it has had. -/
  own_history : ∀ (i : Nat) (actor : Actor), s.actors[i]? = some actor →
    ∀ turn plan, actor.session.plan turn = .ok plan → ∀ item ∈ plan.input,
      item ∈ frameInput turn.body ∨ ∃ e ∈ actor.log, item ∈ turnItems e.1.turn e.2
  /-- A busy entry has a live actor with a turn, -/
  busy_served : ∀ key entry, (key, entry) ∈ s.cache.entries → entry.busy = true →
    s.Live entry.id key ∧ ∃ c, s.TurnAt entry.id c
  /-- which can release it, -/
  busy_releasable : ∀ key entry, (key, entry) ∈ s.cache.entries → entry.busy = true →
    s.Releasable snapshotBytes key entry.id
  /-- and which alone can change or remove it. -/
  busy_kept : ∀ a t, sessionsStep snapshotBytes s a = some t → ∀ key entry,
    (key, entry) ∈ s.cache.entries → entry.busy = true → a.actor ≠ some entry.id →
      (key, entry) ∈ t.cache.entries
  /-- An actor does nothing to an entry of its key that is not its own. -/
  replacement_kept : ∀ a t i actor key entry, sessionsStep snapshotBytes s a = some t →
    a.actor = some i → s.actors[i]? = some actor → actor.key = some key →
    (key, entry) ∈ s.cache.entries → entry.id ≠ i → (key, entry) ∈ t.cache.entries

section

variable {s t : Sessions} {i : Nat} {actor : Actor} {key : SessionKey} {entry : Entry}
  {snapshotBytes : Snapshot → Nat} {a : SessionsAction}

namespace Protocol

/-- Whose turn is at an actor, has been given it. -/
theorem turn_of_turnAt (hs : Protocol s) {c : Nat} (hactor : s.actors[i]? = some actor)
    (hturn : s.TurnAt i c) : actor.turn = some c := by
  have hinv := hs.actors i actor hactor
  rcases hturn with ⟨caller, hc, hphase⟩ | ⟨actor', hactor', job, hjob, rfl⟩
  · exact (hinv.handing c caller hc hphase).2.1
  · rw [hactor] at hactor'
    obtain rfl := Option.some.inj hactor'
    exact hinv.owned job hjob

theorem one_turn (hs : Protocol s) {j c c' : Nat} (hi : s.Live i key) (hj : s.Live j key)
    (hc : s.TurnAt i c) (hc' : s.TurnAt j c') : i = j ∧ c = c' := by
  obtain ⟨actor, hactor, hkey, hlive⟩ := hi
  obtain ⟨actor', hactor', hkey', hlive'⟩ := hj
  have hturn := hs.turn_of_turnAt hactor hc
  have hturn' := hs.turn_of_turnAt hactor' hc'
  obtain ⟨entry, hmem, rfl, -⟩ := ((hs.actors i actor hactor).held c hturn hlive).2 key hkey
  obtain ⟨entry', hmem', rfl, -⟩ := ((hs.actors j actor' hactor').held c' hturn' hlive').2 key hkey'
  obtain rfl := hs.distinct.unique hmem hmem'
  rw [hactor] at hactor'
  obtain rfl := Option.some.inj hactor'
  rw [hturn] at hturn'
  exact ⟨rfl, Option.some.inj hturn'⟩

theorem own_history (hs : Protocol s) {turn : Turn} {plan : Plan} {item : Value}
    (hactor : s.actors[i]? = some actor) (hplan : actor.session.plan turn = .ok plan)
    (hitem : item ∈ plan.input) :
    item ∈ frameInput turn.body ∨ ∃ e ∈ actor.log, item ∈ turnItems e.1.turn e.2 := by
  rw [input_of_plan hplan] at hitem
  rcases mem_of_mem_logicalInput hitem with ⟨snapshot, hsnapshot, hold⟩ | hown
  · exact .inr ((hs.actors i actor hactor).history snapshot hsnapshot item hold)
  · exact .inl hown

theorem busy_served (hs : Protocol s) (hmem : (key, entry) ∈ s.cache.entries)
    (hbusy : entry.busy = true) : ∃ actor c, s.actors[entry.id]? = some actor ∧
      actor.key = some key ∧ actor.phase.departed = false ∧ actor.turn = some c ∧
        s.TurnAt entry.id c := by
  have hactor := List.getElem?_eq_getElem (hs.named key entry hmem)
  have hinv := hs.actors _ _ hactor
  obtain ⟨hkey, hlive, hturn⟩ := hinv.entry key entry hmem rfl
  obtain ⟨c, hc⟩ := Option.isSome_iff_exists.mp (hturn hbusy)
  refine ⟨_, c, hactor, hkey, hlive, hc, ?_⟩
  rcases (hinv.held c hc hlive).1 with hhanding | hpending
  · exact .inl hhanding
  · exact .inr ⟨_, hactor, hpending⟩

/-! ### What a step does to the cache -/

/-- What an actor does to the cache. -/
theorem cache_of_act (h : s.act snapshotBytes i actor a = some t) :
    t.cache = s.cache ∨
    ∃ key, actor.key = some key ∧
      ((∃ job now, actor.phase = .finished job ∧
          t.cache = s.cache.ready key i actor.session.bytes now) ∨
        t.cache = s.cache.removeOwn key i ∨
        (s.cache.removeIdle key i).2 = true ∧ t.cache = (s.cache.removeIdle key i).1) := by
  cases a with
  | receive =>
    simp only [Sessions.act] at h
    split at h
    · split_ifs at h
      cases h
      exact .inl rfl
    · cases h
  | hangUp | stop | deliver | message | close =>
    simp only [Sessions.act] at h
    split_ifs at h
    cases h
    exact .inl rfl
  | respond =>
    simp only [Sessions.act] at h
    split at h
    · cases h
      exact .inl rfl
    · cases h
  | ready _ now =>
    simp only [Sessions.act] at h
    split at h
    · next job hphase =>
      split at h
      · next key hkey =>
        cases h
        exact .inr ⟨key, hkey, .inl ⟨job, now, hphase, rfl⟩⟩
      · cases h
        exact .inl rfl
    · cases h
  | expire =>
    simp only [Sessions.act] at h
    split_ifs at h
    split at h
    · cases h
      exact .inl rfl
    · next key hkey =>
      split at h
      · cases h
        exact .inl rfl
      · next cache hends =>
        cases h
        exact .inr ⟨key, hkey, .inr (.inr ⟨by rw [hends], by rw [hends]⟩)⟩
  | leave =>
    simp only [Sessions.act] at h
    split_ifs at h
    split at h
    · next key hkey =>
      cases h
      exact .inr ⟨key, hkey, .inr (.inl rfl)⟩
    · cases h
      exact .inl rfl
  | call | send | disconnect | shutdown | rehash => cases h

/-- What a step does to the cache. -/
theorem cache_of_step (h : sessionsStep snapshotBytes s a = some t) :
    t.cache.entries.Perm s.cache.entries ∨
    (∃ key now, t.cache = s.cache.addActor key now) ∨
    (∃ key entry, (key, entry) ∈ s.cache.entries ∧ entry.busy = false ∧
      t.cache = s.cache.markBusy key) ∨
    ∃ i actor, a.actor = some i ∧ s.actors[i]? = some actor ∧
      s.act snapshotBytes i actor a = some t := by
  cases a with
  | call key turn requestKey now =>
    cases h
    cases key with
    | none => exact .inr (.inl ⟨none, now, rfl⟩)
    | some key =>
      simp only [Sessions.call]
      split
      · exact .inr (.inl ⟨some key, now, rfl⟩)
      · next entry hget =>
        split_ifs with hbusy
        · exact .inl (.refl _)
        · exact .inr (.inr (.inl ⟨key, entry, Entries.mem_of_get_eq_some hget,
            by simpa using hbusy, rfl⟩))
  | send c =>
    simp only [sessionsStep] at h
    split at h
    · cases h
    · split at h
      · obtain ⟨actor, -, rfl⟩ := Option.map_eq_some_iff.mp h
        unfold Sessions.send
        split_ifs <;> exact .inl (.refl _)
      · cases h
  | disconnect c =>
    simp only [sessionsStep] at h
    split at h
    · cases h
    · split at h
      · cases h
      · cases h
        exact .inl (.refl _)
  | shutdown =>
    cases h
    exact .inl (.refl _)
  | rehash entries =>
    simp only [sessionsStep] at h
    split_ifs at h with hperm
    cases h
    exact .inl hperm
  | receive i | hangUp i | stop i | respond i | ready i | deliver i | message i | expire i | leave i
  | close i =>
    simp only [sessionsStep, SessionsAction.actor, Option.bind_some] at h
    obtain ⟨actor, hactor, hact⟩ := Option.bind_eq_some_iff.mp h
    exact .inr (.inr (.inr ⟨i, actor, rfl, hactor, hact⟩))

/-- An actor leaves the entries of other actors alone while they are busy, and those under its
own key in any case. -/
theorem mem_of_act (hs : Protocol s) (hactor : s.actors[i]? = some actor)
    (h : s.act snapshotBytes i actor a = some t) (hmem : (key, entry) ∈ s.cache.entries)
    (hother : entry.id ≠ i) (hkept : entry.busy = true ∨ actor.key = some key) :
    (key, entry) ∈ t.cache.entries := by
  rcases cache_of_act h with hsame | ⟨own, hown, hready | hremoved | ⟨hends, hremoved⟩⟩
  · rw [hsame]
    exact hmem
  · obtain ⟨job, now, hphase, hcache⟩ := hready
    rw [hcache]
    refine (Cache.ready_spec hs.distinct _ _ _ _).2.2.1 key entry hmem ?_ fun hboth => hother hboth.2
    rcases hkept with hbusy | hkey
    · exact hbusy
    · -- An actor with a turn to release owns the entry of its key.
      have hinv := hs.actors i actor hactor
      have hturn := hinv.owned job (by rw [(pending_of_finished hinv hphase).1]; simp)
      obtain ⟨busy, hbusyMem, hid, -⟩ := (hinv.held _ hturn (by rw [hphase]; rfl)).2 key hkey
      rw [hs.distinct.unique hbusyMem hmem] at hid
      exact absurd hid hother
  · rw [hremoved]
    exact (Cache.mem_removeOwn hs.distinct).mpr ⟨hmem, fun hboth => hother hboth.2⟩
  · rw [hremoved]
    exact (Cache.mem_removeIdle hs.distinct hends).mpr ⟨hmem, fun hboth => hother hboth.2⟩

theorem busy_kept (hs : Protocol s) (h : sessionsStep snapshotBytes s a = some t)
    (hmem : (key, entry) ∈ s.cache.entries) (hbusy : entry.busy = true)
    (hother : a.actor ≠ some entry.id) : (key, entry) ∈ t.cache.entries := by
  rcases cache_of_step h with hperm | ⟨key', now, hcache⟩ | ⟨key', idle, hidle, hfree, hcache⟩ |
    ⟨i, actor, hi, hactor, hact⟩
  · exact hperm.mem_iff.mpr hmem
  · rw [hcache]
    exact Cache.mem_addActor.mpr (.inl hmem)
  · rw [hcache]
    refine Cache.mem_markBusy.mpr (.inl ⟨hmem, ?_⟩)
    rintro rfl
    rw [hs.distinct.unique hmem hidle, hfree] at hbusy
    cases hbusy
  · refine hs.mem_of_act hactor hact hmem (fun hid => hother ?_) (.inl hbusy)
    rw [hi, hid]

theorem replacement_kept (hs : Protocol s) (h : sessionsStep snapshotBytes s a = some t)
    (hi : a.actor = some i) (hactor : s.actors[i]? = some actor) (hkey : actor.key = some key)
    (hmem : (key, entry) ∈ s.cache.entries) (hother : entry.id ≠ i) :
    (key, entry) ∈ t.cache.entries := by
  have hact : s.act snapshotBytes i actor a = some t := by
    cases a with
    | receive | hangUp | stop | respond | ready | deliver | message | expire | leave | close =>
      cases hi
      simpa only [sessionsStep, SessionsAction.actor, Option.bind_some, hactor] using h
    | call | send | disconnect | shutdown | rehash => cases hi
  exact hs.mem_of_act hactor hact hmem hother (.inr hkey)

/-! ### Actors that have ended -/

/-- An actor that has ended only closes its channel. -/
theorem actors_of_act (h : s.act snapshotBytes i actor a = some t) :
    t.actors = s.actors ∨ ∃ actor', t.actors = s.actors.set i actor' ∧
      (actor.phase.departed = true → actor'.phase.departed = true ∧ actor'.log = actor.log) := by
  have hlive : ∀ {actor' : Actor} {phase : ActorPhase}, actor.phase = phase →
      phase.departed = false → actor.phase.departed = true →
        actor'.phase.departed = true ∧ actor'.log = actor.log := by
    rintro actor' phase rfl hfalse htrue
    rw [hfalse] at htrue
    cases htrue
  cases a with
  | receive =>
    simp only [Sessions.act] at h
    split at h
    · next hphase _ =>
      split_ifs at h
      cases h
      exact .inr ⟨_, rfl, hlive hphase rfl⟩
    · cases h
  | hangUp | stop | message =>
    simp only [Sessions.act] at h
    split_ifs at h with hguard
    cases h
    exact .inr ⟨_, rfl, hlive hguard.1 rfl⟩
  | deliver =>
    simp only [Sessions.act] at h
    split_ifs at h with hphase
    cases h
    exact .inr ⟨_, rfl, hlive hphase rfl⟩
  | respond =>
    simp only [Sessions.act] at h
    split at h
    · next hphase =>
      cases h
      exact .inr ⟨_, rfl, hlive hphase rfl⟩
    · cases h
  | ready =>
    simp only [Sessions.act] at h
    split at h
    · next hphase =>
      split at h
      · cases h
        exact .inr ⟨_, rfl, hlive hphase rfl⟩
      · cases h
        exact .inr ⟨_, rfl, hlive hphase rfl⟩
    · cases h
  | expire =>
    simp only [Sessions.act] at h
    split_ifs at h with hphase
    split at h
    · cases h
      exact .inr ⟨_, rfl, hlive hphase rfl⟩
    · split at h
      · cases h
        exact .inl rfl
      · cases h
        exact .inr ⟨_, rfl, hlive hphase rfl⟩
  | leave =>
    simp only [Sessions.act] at h
    split_ifs at h with hphase
    split at h
    · cases h
      exact .inr ⟨_, rfl, hlive hphase rfl⟩
    · cases h
      exact .inr ⟨_, rfl, hlive hphase rfl⟩
  | close =>
    simp only [Sessions.act] at h
    split_ifs at h with hphase
    cases h
    exact .inr ⟨_, rfl, fun _ => ⟨rfl, rfl⟩⟩
  | call | send | disconnect | shutdown | rehash => cases h

/-- A step leaves a departed actor as it is, but for its channel. -/
theorem departed_step (h : sessionsStep snapshotBytes s a = some t)
    (hactor : s.actors[i]? = some actor) (hdeparted : actor.phase.departed = true) :
    ∃ actor' : Actor, t.actors[i]? = some actor' ∧ actor'.phase.departed = true ∧
      actor'.log = actor.log := by
  have hset : ∀ (j : Nat) (old new : Actor), s.actors[j]? = some old →
      (j = i → new.phase.departed = true ∧ new.log = old.log) →
      ∃ actor' : Actor, (s.actors.set j new)[i]? = some actor' ∧
        actor'.phase.departed = true ∧ actor'.log = actor.log := by
    intro j old new hold hnew
    rcases eq_or_ne j i with rfl | hne
    · rw [hactor] at hold
      obtain rfl := Option.some.inj hold
      exact ⟨new, List.getElem?_set_self (List.getElem?_eq_some_iff.mp hactor).1, hnew rfl⟩
    · exact ⟨actor, by rw [List.getElem?_set_ne hne, hactor], hdeparted, rfl⟩
  have hsame : ∀ j old, s.actors[j]? = some old → j = i → old.phase.departed = true := by
    rintro j old hold rfl
    rw [hactor] at hold
    rw [← Option.some.inj hold]
    exact hdeparted
  cases a with
  | call key turn requestKey now =>
    cases h
    have happended : ∀ new : Actor, ∃ actor' : Actor, (s.actors ++ [new])[i]? = some actor' ∧
        actor'.phase.departed = true ∧ actor'.log = actor.log :=
      fun new => ⟨actor, getElem?_append_of_some _ hactor, hdeparted, rfl⟩
    cases key with
    | none => exact happended _
    | some key =>
      simp only [Sessions.call]
      split
      · exact happended _
      · next entry _ =>
        split_ifs
        · exact ⟨actor, hactor, hdeparted, rfl⟩
        · rcases eq_or_ne entry.id i with rfl | hne
          · exact ⟨{ actor with turn := some s.callers.length },
              by simp [Sessions.mark, hactor], hdeparted, rfl⟩
          · exact ⟨actor, by simp [Sessions.mark, hne, hactor], hdeparted, rfl⟩
  | send c =>
    simp only [sessionsStep] at h
    split at h
    · cases h
    · split at h
      · obtain ⟨old, hold, rfl⟩ := Option.map_eq_some_iff.mp h
        unfold Sessions.send
        split_ifs
        · exact ⟨actor, hactor, hdeparted, rfl⟩
        · exact hset _ old _ hold fun hi => ⟨hsame _ old hold hi, rfl⟩
      · cases h
  | disconnect c =>
    simp only [sessionsStep] at h
    split at h
    · cases h
    · split at h
      · cases h
      · cases h
        exact ⟨actor, hactor, hdeparted, rfl⟩
  | shutdown =>
    cases h
    exact ⟨actor, hactor, hdeparted, rfl⟩
  | rehash entries =>
    simp only [sessionsStep] at h
    split_ifs at h
    cases h
    exact ⟨actor, hactor, hdeparted, rfl⟩
  | receive j | hangUp j | stop j | respond j | ready j | deliver j | message j | expire j | leave j
  | close j =>
    simp only [sessionsStep, SessionsAction.actor, Option.bind_some] at h
    obtain ⟨old, hold, hact⟩ := Option.bind_eq_some_iff.mp h
    rcases actors_of_act hact with hactors | ⟨new, hactors, hnew⟩
    · exact ⟨actor, by rw [hactors, hactor], hdeparted, rfl⟩
    · rw [hactors]
      exact hset j old new hold fun hi => hnew (hsame j old hold hi)

/-- An actor that has ended runs no turn any more. -/
theorem departed_run {as : List SessionsAction} (h : SessionsRun snapshotBytes s as t)
    (hactor : s.actors[i]? = some actor) (hdeparted : actor.phase.departed = true) :
    ∃ actor' : Actor, t.actors[i]? = some actor' ∧ actor'.phase.departed = true ∧
      actor'.log = actor.log := by
  refine h.invariant (I := fun u => ∃ actor' : Actor, u.actors[i]? = some actor' ∧
    actor'.phase.departed = true ∧ actor'.log = actor.log) ?_ ⟨actor, hactor, hdeparted, rfl⟩
  rintro u a v ⟨actor', hactor', hdeparted', hlog⟩ hstep
  obtain ⟨next, hnext, hdeparted, hlog'⟩ := departed_step hstep hactor' hdeparted'
  exact ⟨next, hnext, hdeparted, hlog'.trans hlog⟩

/-! ### The release of a key -/

/-- Nothing is left to release once the entry of a key is idle or gone. -/
theorem releasable_of_idle (h : ∀ entry, (key, entry) ∈ s.cache.entries → entry.busy = false) :
    s.Releasable snapshotBytes key i :=
  ⟨[], s, .nil s, by simp, h⟩

/-- A step towards the release. -/
theorem releasable_of_step (hstep : sessionsStep snapshotBytes s a = some t)
    (ha : a.actor = some i ∨ ∃ c, a = .send c) (h : t.Releasable snapshotBytes key i) :
    s.Releasable snapshotBytes key i := by
  obtain ⟨as, u, hrun, has, hidle⟩ := h
  exact ⟨a :: as, u, .cons hstep hrun, List.forall_mem_cons.mpr ⟨ha, has⟩, hidle⟩

/-- A step of the actor towards the release. -/
theorem releasable_of_act (ha : a.actor = some i) (hactor : s.actors[i]? = some actor)
    (hact : s.act snapshotBytes i actor a = some t) (h : t.Releasable snapshotBytes key i) :
    s.Releasable snapshotBytes key i := by
  refine releasable_of_step (a := a) ?_ (.inl ha) h
  cases a with
  | receive | hangUp | stop | respond | ready | deliver | message | expire | leave | close =>
    cases ha
    simpa only [sessionsStep, SessionsAction.actor, Option.bind_some, hactor] using hact
  | call | send | disconnect | shutdown | rehash => cases ha

/-- An actor of a key whose entry, if there is one, is its own. -/
def Serves (s : Sessions) (key : SessionKey) (i : Nat) (actor : Actor) : Prop :=
  Protocol s ∧ s.actors[i]? = some actor ∧ actor.key = some key ∧
    ∀ entry, (key, entry) ∈ s.cache.entries → entry.id = i

/-- It still does when it has moved on. -/
theorem Serves.setActor {actor' : Actor} (h : Serves s key i actor)
    (hprotocol : Protocol (s.setActor i actor')) (hkey : actor'.key = actor.key) : Serves (s.setActor i actor') key i actor' :=
  ⟨hprotocol, List.getElem?_set_self (List.getElem?_eq_some_iff.mp h.2.1).1, hkey ▸ h.2.2.1, h.2.2.2⟩

theorem releasable_of_finished {job : Job} (h : Serves s key i actor)
    (hphase : actor.phase = .finished job) : s.Releasable snapshotBytes key i := by
  obtain ⟨hs, hactor, hkey, hown⟩ := h
  obtain ⟨-, hsub, -, hidle⟩ := Cache.ready_spec hs.distinct key i actor.session.bytes 0
  obtain ⟨t, hready, hcache⟩ : ∃ t, s.act snapshotBytes i actor (.ready i 0) = some t ∧
      t.cache = s.cache.ready key i actor.session.bytes 0 :=
    ⟨_, by simp only [Sessions.act, hphase, hkey]; rfl, rfl⟩
  refine releasable_of_act rfl hactor hready (releasable_of_idle fun entry hmem => ?_)
  rw [hcache] at hmem
  refine hidle entry hmem ?_
  rcases hsub key entry hmem with hold | ⟨-, hid, -⟩
  · exact hown entry hold
  · exact hid

/-- A turn that nothing happens to. -/
def noEvents : TurnEvents where
  prepare := none
  shutdown := false
  replied := false
  stream := none
  permit := false

theorem releasable_of_running {job : Job} (h : Serves s key i actor)
    (hphase : actor.phase = .running job) : s.Releasable snapshotBytes key i := by
  have hnext := h.setActor (h.1.respond snapshotBytes noEvents h.2.1 hphase) rfl
  exact releasable_of_act (a := .respond i noEvents) rfl h.2.1 (by simp only [Sessions.act, hphase])
    (releasable_of_finished hnext rfl)

theorem releasable_of_leaving (h : Serves s key i actor) (hphase : actor.phase = .leaving) :
    s.Releasable snapshotBytes key i := by
  obtain ⟨hs, hactor, hkey, hown⟩ := h
  obtain ⟨t, hleave, hcache⟩ : ∃ t, s.act snapshotBytes i actor (.leave i) = some t ∧
      t.cache = s.cache.removeOwn key i :=
    ⟨_, by simp only [Sessions.act, hphase, hkey, if_true]; rfl, rfl⟩
  refine releasable_of_act rfl hactor hleave (releasable_of_idle fun entry hmem => ?_)
  rw [hcache] at hmem
  obtain ⟨hold, hother⟩ := (Cache.mem_removeOwn hs.distinct).mp hmem
  exact absurd ⟨rfl, hown entry hold⟩ hother

theorem releasable_of_idle_actor {job : Job} (h : Serves s key i actor)
    (hphase : actor.phase = .idle) (hqueue : actor.queue = some job) :
    s.Releasable snapshotBytes key i := by
  obtain ⟨hs, hactor, hkey, hown⟩ := id h
  by_cases hshutdown : s.shutdown = true
  · have hstop : s.act snapshotBytes i actor (.stop i) =
        some (s.setActor i { actor with phase := .leaving }) := by
      simp only [Sessions.act, hphase, hshutdown, and_self, if_true]
    exact releasable_of_act rfl hactor hstop
      (releasable_of_leaving (h.setActor (hs.act hactor hstop) rfl) rfl)
  · have hreceive : s.act snapshotBytes i actor (.receive i) =
        some (s.setActor i { actor with phase := .running job, queue := none }) := by
      simp only [Sessions.act, hphase, hqueue, if_neg hshutdown]
    exact releasable_of_act rfl hactor hreceive
      (releasable_of_running (h.setActor (hs.act hactor hreceive) rfl) rfl)

/-- A turn that is queued or runs. -/
theorem releasable_of_pending (h : Serves s key i actor) (hlive : actor.phase.departed = false)
    (hpending : actor.pending ≠ []) : s.Releasable snapshotBytes key i := by
  obtain ⟨hs, hactor, hkey, hown⟩ := id h
  have hqueue : actor.phase.job = none → ∃ job, actor.queue = some job := by
    intro hwork
    refine Option.isSome_iff_exists.mp (Option.isSome_iff_ne_none.mpr fun hnone => hpending ?_)
    simp [Actor.pending, hnone, hwork]
  cases hphase : actor.phase with
  | idle =>
    obtain ⟨job, hjob⟩ := hqueue (by rw [hphase]; rfl)
    exact releasable_of_idle_actor h hphase hjob
  | running job => exact releasable_of_running h hphase
  | finished job => exact releasable_of_finished h hphase
  | delivering =>
    obtain ⟨job, hjob⟩ := hqueue (by rw [hphase]; rfl)
    have hdeliver : s.act snapshotBytes i actor (.deliver i) =
        some (s.setActor i { actor with phase := .idle }) := by
      simp only [Sessions.act, hphase, if_true]
    exact releasable_of_act rfl hactor hdeliver
      (releasable_of_idle_actor (h.setActor (hs.act hactor hdeliver) rfl) rfl hjob)
  | leaving => exact releasable_of_leaving h hphase
  | closing | gone =>
    rw [hphase] at hlive
    cases hlive

theorem busy_releasable (hs : Protocol s) (hmem : (key, entry) ∈ s.cache.entries)
    (hbusy : entry.busy = true) : s.Releasable snapshotBytes key entry.id := by
  obtain ⟨actor, c, hactor, hkey, hlive, hturn, hat⟩ := hs.busy_served hmem hbusy
  have hserves : Serves s key entry.id actor :=
    ⟨hs, hactor, hkey, fun entry' hmem' => congrArg Entry.id (hs.distinct.unique hmem' hmem)⟩
  rcases hat with ⟨caller, hc, hphase⟩ | ⟨actor', hactor', job, hjob, -⟩
  · -- The channel is open and empty, so the turn is queued.
    have hpending := ((hs.actors _ actor hactor).handing c caller hc hphase).2.2
    have hopen : ¬ (actor.phase = .gone ∨ actor.queue.isSome = true) := by
      rintro (hgone | hfull)
      · rw [hgone] at hlive
        cases hlive
      · have hnil := (List.append_eq_nil_iff.mp hpending).1
        simp only [Option.toList_eq_nil_iff] at hnil
        rw [hnil] at hfull
        cases hfull
    have hsend : sessionsStep snapshotBytes s (.send c) = some (s.send c caller entry.id actor) := by
      simp only [sessionsStep, hc, hphase, hactor, Option.map_some]
    refine releasable_of_step hsend (.inr ⟨c, rfl⟩) ?_
    have hsent := hs.step hsend
    rw [Sessions.send, if_neg hopen] at hsent ⊢
    have hqueued : Serves (s.setActor entry.id { actor with queue := some ⟨c, caller.turn⟩ }
        |>.setCaller c caller .waiting) key entry.id { actor with queue := some ⟨c, caller.turn⟩ } :=
      ⟨hsent, List.getElem?_set_self (List.getElem?_eq_some_iff.mp hactor).1, hkey, hserves.2.2.2⟩
    exact releasable_of_pending hqueued hlive (by simp [Actor.pending])
  · rw [hactor] at hactor'
    obtain rfl := Option.some.inj hactor'
    exact releasable_of_pending hserves hlive (List.ne_nil_of_mem hjob)

end Protocol

/-- **The session protocol.** In every state that calls, actors, disconnects, evictions, expiries
and a shutdown can lead to, in any order, the keys are kept apart. -/
theorem keysApart_of_run {as : List SessionsAction}
    (h : SessionsRun snapshotBytes .init as s) : KeysApart snapshotBytes s := by
  have hs := Protocol.of_run h
  exact {
    one_turn := fun key i j c c' => hs.one_turn
    departed := fun as t i actor hrun hactor => Protocol.departed_run hrun hactor
    own_turns := fun i actor hactor => (hs.actors i actor hactor).jobs
    own_history := fun i actor hactor turn plan hplan item => hs.own_history hactor hplan
    busy_served := fun key entry hmem hbusy => by
      obtain ⟨actor, c, hactor, hkey, hlive, -, hturn⟩ := hs.busy_served hmem hbusy
      exact ⟨⟨actor, hactor, hkey, hlive⟩, c, hturn⟩
    busy_releasable := fun key entry hmem hbusy => hs.busy_releasable hmem hbusy
    busy_kept := fun a t hstep key entry hmem hbusy => hs.busy_kept hstep hmem hbusy
    replacement_kept := fun a t i actor key entry hstep => hs.replacement_kept hstep }

end

/-! ### An actor replaced at the shutdown -/

/-- A session key for the runs below. -/
def exampleKey : SessionKey := ⟨"client", "thread_id", "thread"⟩

/-- A session is called and its actor has the turn in its channel when the shutdown comes. -/
def shutdownRun : List SessionsAction :=
  [.call (some exampleKey) (exampleTurn "a" []) "r1" 0, .send 0, .shutdown, .stop 0, .leave 0]

/-- Then another call finds no entry, and hands its turn to a new actor. -/
def replacedRun : List SessionsAction :=
  shutdownRun ++ [.call (some exampleKey) (exampleTurn "b" []) "r2" 1]

theorem keysApart_after_replacement : ∃ s, SessionsRun (fun _ => 0) .init replacedRun s ∧
    s.cache.entries = [(exampleKey, ⟨1, true, 1, 0⟩)] ∧ KeysApart (fun _ => 0) s :=
  by
  have hrun : ∃ s, SessionsRun (fun _ => 0) .init replacedRun s ∧
      s.cache.entries = [(exampleKey, ⟨1, true, 1, 0⟩)] :=
    ⟨_, run_ofFun_iff.mpr rfl, rfl⟩
  obtain ⟨s, hrun, hentries⟩ := hrun
  exact ⟨s, hrun, hentries, keysApart_of_run hrun⟩

/-- **Two turns of a key can be queued at once, and a busy entry can be without a queued turn.**
The first happens where the ended actor has not dropped its channel yet, the second while a
caller is about to send. -/
theorem two_turns_queued :
    (∃ s, SessionsRun (fun _ => 0) .init (replacedRun ++ [.send 1]) s ∧
      ∃ actor actor' : Actor, s.actors[0]? = some actor ∧ s.actors[1]? = some actor' ∧
        actor.key = some exampleKey ∧ actor'.key = some exampleKey ∧
        actor.queue = some ⟨0, exampleTurn "a" []⟩ ∧ actor'.queue = some ⟨1, exampleTurn "b" []⟩) ∧
    ∃ s, SessionsRun (fun _ => 0) .init replacedRun s ∧
      ∃ (entry : Entry) (actor : Actor), (exampleKey, entry) ∈ s.cache.entries ∧
        entry.busy = true ∧ s.actors[entry.id]? = some actor ∧ actor.pending = [] :=
  ⟨⟨_, run_ofFun_iff.mpr rfl, _, _, rfl, rfl, rfl, rfl, rfl, rfl⟩,
    ⟨_, run_ofFun_iff.mpr rfl, ⟨1, true, 1, 0⟩, _, List.mem_singleton_self _, rfl, rfl, rfl⟩⟩

end CodexApi
