import CodexApi.Session.Actor
import CodexApi.Session.Context
import CodexApi.Session.Continuation

/-!
# The session protocol keeps the keys apart

What the busy flags, the entry ids and the channels achieve together, in every interleaving: the
turns of a key are taken one at a time, by an actor of that key, from the history of that key;
a busy entry is owed a release by a live actor, which nobody else can give or forestall.

The invariant is stated one actor at a time. `ActorInv` relates an actor to the entries and the
callers that point at it; `ActorInv.frame` carries it over a step that concerns another actor, so
that each step is left with the actor it is about.
-/

namespace CodexApi

open Transition

/-! ### What a turn adds to the history -/

/-- The items of a turn: those its request supplied and those its response produced. -/
def turnItems (turn : Turn) (events : TurnEvents) : List Value :=
  frameInput turn.body ++
    ((events.stream.bind fun terminal =>
      (terminal.payload.pointer ["response", "output"]).bind Value.asArray).getD [])

/-- The input of a plan is from the snapshot or from the request. -/
theorem mem_of_mem_logicalInput {session : Session} {turn : Turn} {item : Value}
    (h : item ∈ session.logicalInput turn) :
    (∃ snapshot ∈ session.snapshot, item ∈ snapshot.input) ∨ item ∈ frameInput turn.body := by
  unfold Session.logicalInput at h
  split at h
  · rcases List.mem_append.mp h with hhistory | hitem
    · cases hsnapshot : session.snapshot with
      | none => simp [hsnapshot] at hhistory
      | some snapshot => exact .inl ⟨snapshot, rfl, by simpa [hsnapshot] using hhistory⟩
    · exact .inr hitem
  · exact .inr h

/-- **What a turn remembers.** The history after a turn is made of the history before it and the
items of the turn. -/
theorem mem_of_mem_respond {session : Session} {snapshotBytes : Snapshot → Nat} {turn : Turn}
    {events : TurnEvents} {snapshot : Snapshot} {item : Value}
    (h : snapshot ∈ (session.respond snapshotBytes turn events).1.snapshot)
    (hitem : item ∈ snapshot.input) :
    (∃ old ∈ session.snapshot, item ∈ old.input) ∨ item ∈ turnItems turn events := by
  have hprepared : (((events.prepare.map (session.prepare turn)).map (·.session)).getD
      session).snapshot = session.snapshot := by
    cases events.prepare with
    | none => rfl
    | some replies => exact snapshot_of_prepare.2
  have hkept : ∀ kept : Session, kept.snapshot = session.snapshot → snapshot ∈ kept.snapshot →
      (∃ old ∈ session.snapshot, item ∈ old.input) ∨ item ∈ turnItems turn events :=
    fun kept heq hmem => .inl ⟨snapshot, heq ▸ hmem, hitem⟩
  unfold Session.respond at h
  simp only at h
  split at h
  · exact hkept _ hprepared h
  · split_ifs at h
    · exact hkept _ hprepared h
    · exact hkept _ hprepared h
  · next input parameters hresult =>
    split at h
    · exact hkept _ hprepared h
    split at h
    · exact hkept _ hprepared h
    · next terminal hstream =>
      split at h
      · exact hkept _ hprepared h
      unfold Session.finishTurn at h
      simp only at h
      split at h
      · next output _ _ houtput =>
        obtain ⟨prepared, hprepared', hprepare⟩ := Option.bind_eq_some_iff.mp hresult
        obtain ⟨replies, -, rfl⟩ := Option.map_eq_some_iff.mp hprepared'
        obtain ⟨plan, -, hplan, rfl, -⟩ := generation_of_prepare hprepare
        obtain rfl := Option.some.inj h
        rcases List.mem_append.mp hitem with hinput | hnew
        · rw [input_of_plan hplan] at hinput
          rcases mem_of_mem_logicalInput hinput with hold | hown
          · exact .inl hold
          · exact .inr (List.mem_append_left _ hown)
        · refine .inr (List.mem_append_right _ ?_)
          simpa [hstream, houtput] using hnew
      · exact hkept _ hprepared h

/-! ### An actor and what points at it -/

/-- The turns an actor has not finished: the one in its channel and the one it works on. -/
def Actor.pending (actor : Actor) : List Job := actor.queue.toList ++ actor.phase.job.toList

/-- How an actor fits the entries and the callers that point at it. -/
structure ActorInv (entries : Entries) (callers : List Caller) (i : Nat) (actor : Actor) : Prop where
  /-- Its entry is under its key, only while it lives, and busy only while it has a turn. -/
  entry : ∀ key entry, (key, entry) ∈ entries → entry.id = i →
    actor.key = some key ∧ actor.phase.departed = false ∧
      (entry.busy = true → actor.turn.isSome = true)
  /-- A caller that is about to send has its key, owns its turn and finds the channel empty. -/
  handing : ∀ c caller, callers[c]? = some caller → caller.phase = .handing i →
    actor.key = caller.key ∧ actor.turn = some c ∧ actor.pending = []
  /-- It has at most one turn, the one it has been given. -/
  single : actor.pending.length ≤ 1
  owned : ∀ job ∈ actor.pending, actor.turn = some job.caller
  /-- A turn it has been given is on its way, queued or running, and keeps its entry busy. -/
  held : ∀ c, actor.turn = some c → actor.phase.departed = false →
    ((∃ caller, callers[c]? = some caller ∧ caller.phase = .handing i) ∨
      ∃ job ∈ actor.pending, job.caller = c) ∧
    ∀ key, actor.key = some key → ∃ entry, (key, entry) ∈ entries ∧ entry.id = i ∧ entry.busy = true
  /-- Its turns come from callers of its key. -/
  jobs : ∀ job ∈ actor.pending ++ actor.log.map Prod.fst,
    ∃ caller, callers[job.caller]? = some caller ∧ caller.key = actor.key ∧ caller.turn = job.turn
  /-- Its history is made of its turns. -/
  history : ∀ snapshot ∈ actor.session.snapshot, ∀ item ∈ snapshot.input,
    ∃ e ∈ actor.log, item ∈ turnItems e.1.turn e.2

/-- Callers may move on and new ones may come; key and turn stay. -/
def Follows (callers callers' : List Caller) : Prop :=
  ∀ (c : Nat) (caller : Caller), callers[c]? = some caller →
    ∃ phase, callers'[c]? = some { caller with phase }

theorem Follows.refl (callers : List Caller) : Follows callers callers :=
  fun _ caller h => ⟨caller.phase, h⟩

theorem Follows.append (callers new : List Caller) : Follows callers (callers ++ new) :=
  fun _ caller h => ⟨caller.phase, getElem?_append_of_some new h⟩

theorem Follows.set {callers : List Caller} {c : Nat} {caller : Caller}
    (h : callers[c]? = some caller)
    (phase : CallPhase) : Follows callers (callers.set c { caller with phase }) := by
  intro c' caller' h'
  rcases eq_or_ne c c' with rfl | hne
  · rw [h] at h'
    obtain rfl := Option.some.inj h'
    exact ⟨phase, List.getElem?_set_self (List.getElem?_eq_some_iff.mp h).1⟩
  · exact ⟨caller'.phase, by rw [List.getElem?_set_ne hne, h']⟩

namespace ActorInv

variable {entries entries' : Entries} {callers callers' : List Caller} {i : Nat}
  {actor actor' : Actor}

/-- **Frame.** A step keeps what holds of an actor if it gives it no entry and no caller, takes
no busy entry from it, and leaves its callers where they are. -/
theorem frame (h : ActorInv entries callers i actor)
    (hentries : ∀ key entry, (key, entry) ∈ entries' → entry.id = i → (key, entry) ∈ entries)
    (hbusy : ∀ key entry, (key, entry) ∈ entries → entry.busy = true → entry.id = i →
      (key, entry) ∈ entries')
    (hcallers : Follows callers callers')
    (hhanding : ∀ (c : Nat) (caller : Caller), caller.phase = .handing i →
      (callers'[c]? = some caller ↔ callers[c]? = some caller)) :
    ActorInv entries' callers' i actor where
  entry key entry hmem hid := h.entry key entry (hentries key entry hmem hid) hid
  handing c caller hc hphase := h.handing c caller ((hhanding c caller hphase).mp hc) hphase
  single := h.single
  owned := h.owned
  held c hturn hlive := by
    obtain ⟨hwhere, hentry⟩ := h.held c hturn hlive
    refine ⟨?_, fun key hkey => ?_⟩
    · rcases hwhere with ⟨caller, hc, hphase⟩ | hpending
      · exact .inl ⟨caller, (hhanding c caller hphase).mpr hc, hphase⟩
      · exact .inr hpending
    · obtain ⟨entry, hmem, hid, hb⟩ := hentry key hkey
      exact ⟨entry, hbusy key entry hmem hb hid, hid, hb⟩
  jobs job hjob := by
    obtain ⟨caller, hc, hkey, hturn⟩ := h.jobs job hjob
    obtain ⟨phase, hc'⟩ := hcallers _ _ hc
    exact ⟨_, hc', hkey, hturn⟩
  history := h.history

/-- An actor may move on as long as it keeps its turns and its entry. -/
theorem moveOn (h : ActorInv entries callers i actor) (hkey : actor'.key = actor.key)
    (hturn : actor'.turn = actor.turn) (hpending : actor'.pending = actor.pending)
    (hdeparted : actor'.phase.departed = actor.phase.departed) (hlog : actor'.log = actor.log)
    (hsnapshot : actor'.session.snapshot = actor.session.snapshot) :
    ActorInv entries callers i actor' := by
  obtain ⟨hentry, hhanding, hsingle, howned, hheld, hjobs, hhistory⟩ := h
  constructor
  all_goals simp only [hkey, hturn, hpending, hdeparted, hlog, hsnapshot]
  all_goals assumption

/-- The end of `respond`: the turn joins the log. -/
theorem respond {snapshotBytes : Snapshot → Nat} {job : Job} (events : TurnEvents)
    (h : ActorInv entries callers i actor) (hphase : actor.phase = .running job) :
    ActorInv entries callers i { actor with
      phase := .finished job
      session := (actor.session.respond snapshotBytes job.turn events).1
      log := actor.log ++ [(job, events)] } := by
  have hpending : actor.pending = actor.queue.toList ++ [job] := by simp [Actor.pending, hphase,
    ActorPhase.job]
  have hdeparted : actor.phase.departed = false := by rw [hphase]; rfl
  obtain ⟨hentry, hhanding, hsingle, howned, hheld, hjobs, hhistory⟩ := h
  rw [hpending] at hhanding hsingle howned hheld hjobs
  rw [hdeparted] at hentry hheld
  refine ⟨hentry, hhanding, hsingle, howned, hheld, fun job' hjob' => hjobs job' ?_, ?_⟩
  · simp only [List.map_append, List.mem_append] at hjob' ⊢
    rcases hjob' with hpending' | hlog | hnew
    · exact .inl (List.mem_append.mp hpending')
    · exact .inr hlog
    · exact .inl (.inr hnew)
  · intro snapshot hsnapshot item hitem
    rcases mem_of_mem_respond hsnapshot hitem with ⟨old, hold, hitem⟩ | hitem
    · obtain ⟨e, he, hitem⟩ := hhistory old hold item hitem
      exact ⟨e, List.mem_append_left _ he, hitem⟩
    · exact ⟨_, List.mem_append_right _ (List.mem_singleton_self _), hitem⟩

/-- An actor without a turn is out of every caller's and every entry's way. -/
theorem of_turn_none (hnone : actor.turn = none)
    (hentry : ∀ key entry, (key, entry) ∈ entries → entry.id = i →
      actor.key = some key ∧ actor.phase.departed = false ∧ entry.busy = false)
    (hhanding : ∀ (c : Nat) (caller : Caller), callers[c]? = some caller →
      caller.phase ≠ .handing i)
    (hpending : actor.pending = [])
    (hjobs : ∀ e ∈ actor.log, ∃ caller, callers[e.1.caller]? = some caller ∧
      caller.key = actor.key ∧ caller.turn = e.1.turn)
    (hhistory : ∀ snapshot ∈ actor.session.snapshot, ∀ item ∈ snapshot.input,
      ∃ e ∈ actor.log, item ∈ turnItems e.1.turn e.2) : ActorInv entries callers i actor where
  entry key entry hmem hid := by
    obtain ⟨hkey, hlive, hidle⟩ := hentry key entry hmem hid
    exact ⟨hkey, hlive, by simp [hidle]⟩
  handing c caller hc hphase := absurd hphase (hhanding c caller hc)
  single := by simp [hpending]
  owned := by simp [hpending]
  held c hturn := by simp [hnone] at hturn
  jobs job hjob := by
    rw [hpending, List.nil_append] at hjob
    obtain ⟨e, he, rfl⟩ := List.mem_map.mp hjob
    exact hjobs e he
  history := hhistory

/-- An actor whose entry is gone: it may only have a turn if it has departed. -/
theorem of_no_entry (h : ActorInv entries callers i actor) (hkey : actor'.key = actor.key)
    (hturn : actor'.turn = actor.turn) (hpending : actor'.pending.Sublist actor.pending)
    (hlog : actor'.log = actor.log) (hsession : actor'.session = actor.session)
    (hentry : ∀ key entry, (key, entry) ∈ entries' → entry.id = i → actor.key ≠ some key)
    (hentries : ∀ key entry, (key, entry) ∈ entries' → (key, entry) ∈ entries)
    (hheld : actor'.phase.departed = true ∨ actor.turn = none) :
    ActorInv entries' callers i actor' where
  entry key entry hmem hid := by
    have hkey := (h.entry key entry (hentries key entry hmem) hid).1
    exact absurd hkey (hentry key entry hmem hid)
  handing c caller hc hphase := by
    obtain ⟨hkey', hturn', hpending'⟩ := h.handing c caller hc hphase
    rw [hpending'] at hpending
    exact ⟨hkey ▸ hkey', hturn ▸ hturn', List.sublist_nil.mp hpending⟩
  single := hpending.length_le.trans h.single
  owned job hjob := hturn ▸ h.owned job (hpending.subset hjob)
  held c hc hlive := by
    rcases hheld with hdeparted | hnone
    · rw [hdeparted] at hlive
      cases hlive
    · rw [hturn, hnone] at hc
      cases hc
  jobs job hjob := by
    rw [hlog] at hjob
    rw [hkey]
    exact h.jobs job ((hpending.append_right _).subset hjob)
  history := by
    rw [hsession, hlog]
    exact h.history

end ActorInv

/-! ### The protocol -/

/-- What holds of all sessions at any time. -/
structure Protocol (s : Sessions) : Prop where
  distinct : s.cache.entries.Distinct
  fresh : s.cache.nextId = s.actors.length
  named : ∀ key entry, (key, entry) ∈ s.cache.entries → entry.id < s.actors.length
  handed : ∀ (c : Nat) (caller : Caller) i, s.callers[c]? = some caller →
    caller.phase = .handing i → i < s.actors.length
  actors : ∀ (i : Nat) (actor : Actor), s.actors[i]? = some actor →
    ActorInv s.cache.entries s.callers i actor

namespace Protocol

variable {s t : Sessions} {i : Nat} {actor actor' : Actor}

theorem init : Protocol .init where
  distinct := List.nodup_nil
  fresh := rfl
  named _ _ h := by cases h
  handed _ _ _ h := by cases h
  actors _ _ h := by cases h

/-- A step that concerns no actor. -/
theorem frame (hs : Protocol s) (hactors : t.actors = s.actors)
    (hnextId : t.cache.nextId = s.cache.nextId) (hentries : t.cache.entries.Perm s.cache.entries)
    (hcallers : Follows s.callers t.callers)
    (hhanding : ∀ (c : Nat) (caller : Caller) i, caller.phase = .handing i →
      (t.callers[c]? = some caller ↔ s.callers[c]? = some caller)) : Protocol t where
  distinct := (hentries.map Prod.fst).nodup_iff.mpr hs.distinct
  fresh := by rw [hnextId, hactors, hs.fresh]
  named key entry hmem := by
    rw [hactors]
    exact hs.named key entry (hentries.mem_iff.mp hmem)
  handed c caller i hc hphase := by
    rw [hactors]
    exact hs.handed c caller i ((hhanding c caller i hphase).mp hc) hphase
  actors i actor hactor := by
    rw [hactors] at hactor
    exact (hs.actors i actor hactor).frame (fun key entry hmem _ => hentries.mem_iff.mp hmem)
      (fun key entry hmem _ _ => hentries.mem_iff.mpr hmem) hcallers
      (fun c caller hphase => hhanding c caller i hphase)

/-- **A step of or for one actor.** Of the others it may only remove idle entries, so all that is
left to show is how the actor itself fits afterwards. -/
theorem actorStep (hs : Protocol s) (hlength : s.actors.length ≤ t.actors.length)
    (hfresh : t.cache.nextId = t.actors.length) (hdistinct : t.cache.entries.Distinct)
    (hothers : ∀ j, j ≠ i → t.actors[j]? = s.actors[j]?)
    (hentries : ∀ key entry, (key, entry) ∈ t.cache.entries → entry.id ≠ i →
      (key, entry) ∈ s.cache.entries)
    (hbusy : ∀ key entry, (key, entry) ∈ s.cache.entries → entry.busy = true → entry.id ≠ i →
      (key, entry) ∈ t.cache.entries)
    (hcallers : Follows s.callers t.callers)
    (hhanding : ∀ (c : Nat) (caller : Caller) j, caller.phase = .handing j → j ≠ i →
      (t.callers[c]? = some caller ↔ s.callers[c]? = some caller))
    (hactor : t.actors[i]? = some actor')
    (hinv : ActorInv t.cache.entries t.callers i actor') : Protocol t where
  distinct := hdistinct
  fresh := hfresh
  named key entry hmem := by
    rcases eq_or_ne entry.id i with hid | hne
    · rw [hid]
      exact (List.getElem?_eq_some_iff.mp hactor).1
    · exact (hs.named key entry (hentries key entry hmem hne)).trans_le hlength
  handed c caller j hc hphase := by
    rcases eq_or_ne j i with rfl | hne
    · exact (List.getElem?_eq_some_iff.mp hactor).1
    · exact (hs.handed c caller j ((hhanding c caller j hphase hne).mp hc) hphase).trans_le hlength
  actors j actor hj := by
    rcases eq_or_ne j i with rfl | hne
    · rw [hactor] at hj
      obtain rfl := Option.some.inj hj
      exact hinv
    · rw [hothers j hne] at hj
      exact (hs.actors j actor hj).frame
        (fun key entry hmem hid => hentries key entry hmem (hid ▸ hne))
        (fun key entry hmem hb hid => hbusy key entry hmem hb (hid ▸ hne)) hcallers
        (fun c caller hphase => hhanding c caller j hphase hne)

/-- A step of an actor that may change the cache, but no caller. -/
theorem setActor (hs : Protocol s) (hactor : s.actors[i]? = some actor) {cache : Cache}
    (hnextId : cache.nextId = s.cache.nextId) (hdistinct : cache.entries.Distinct)
    (hentries : ∀ key entry, (key, entry) ∈ cache.entries → entry.id ≠ i →
      (key, entry) ∈ s.cache.entries)
    (hbusy : ∀ key entry, (key, entry) ∈ s.cache.entries → entry.busy = true → entry.id ≠ i →
      (key, entry) ∈ cache.entries)
    (hinv : ActorInv cache.entries s.callers i actor') :
    Protocol { s.setActor i actor' with cache } :=
  hs.actorStep (List.length_set ..).ge (by simp [Sessions.setActor, hnextId, hs.fresh]) hdistinct
    (fun j hne => List.getElem?_set_ne hne.symm) hentries hbusy (.refl _) (fun _ _ _ _ _ => Iff.rfl)
    (List.getElem?_set_self (List.getElem?_eq_some_iff.mp hactor).1) hinv

/-- A step of an actor on its own. -/
theorem setActor_same (hs : Protocol s) (hactor : s.actors[i]? = some actor)
    (hinv : ActorInv s.cache.entries s.callers i actor') : Protocol (s.setActor i actor') :=
  hs.setActor hactor rfl hs.distinct (fun _ _ h _ => h) (fun _ _ h _ _ => h) hinv

/-- An actor whose entry is idle has no turn. -/
theorem turn_eq_none (hs : Protocol s) {key : SessionKey} {entry : Entry}
    (hmem : (key, entry) ∈ s.cache.entries) (hidle : entry.busy = false)
    (hactor : s.actors[entry.id]? = some actor) : actor.turn = none := by
  have hinv := hs.actors _ _ hactor
  obtain ⟨hkey, hlive, -⟩ := hinv.entry key entry hmem rfl
  cases hturn : actor.turn with
  | none => rfl
  | some c =>
    obtain ⟨busy, hbusyMem, -, hbusy⟩ := (hinv.held c hturn hlive).2 key hkey
    rw [hs.distinct.unique hbusyMem hmem, hidle] at hbusy
    cases hbusy

/-- An actor without a turn has none queued or running. -/
theorem pending_of_turn_none {entries : Entries} {callers : List Caller}
    (h : ActorInv entries callers i actor) (hturn : actor.turn = none) : actor.pending = [] := by
  refine List.eq_nil_iff_forall_not_mem.mpr fun job hjob => ?_
  have howned := h.owned job hjob
  rw [hturn] at howned
  cases howned

/-! ### Calls -/

/-- A call appends its caller. -/
theorem getElem?_append_caller {callers : List Caller} {new caller : Caller} {c : Nat}
    (hne : caller ≠ new) : (callers ++ [new])[c]? = some caller ↔ callers[c]? = some caller := by
  constructor
  · intro h
    rcases getElem?_append_singleton_cases h with hold | ⟨-, rfl⟩
    · exact hold
    · exact absurd rfl hne
  · exact getElem?_append_of_some _

theorem spawn (hs : Protocol s) {key : Option SessionKey} (turn : Turn) (requestKey : String)
    (now : Nat) (hkey : ∀ k, key = some k → s.cache.entries.get k = none) :
    Protocol (s.spawn key turn requestKey now) := by
  have hdistinct : (s.cache.addActor key now).entries.Distinct :=
    Cache.distinct_addActor hs.distinct hkey
  have hlt : ∀ (j : Nat) (caller : Caller), caller.phase = .handing j → j ≠ s.actors.length →
      caller ≠ ⟨key, turn, .handing s.cache.nextId⟩ := by
    rintro j caller hphase hne rfl
    exact hne ((CallPhase.handing.inj hphase).symm.trans hs.fresh)
  refine hs.actorStep (i := s.actors.length) (by simp [Sessions.spawn])
    (by simp [Sessions.spawn, Cache.addActor, hs.fresh]) hdistinct
    (fun j hne => ?_) (fun k entry hmem hne => ?_)
    (fun k entry hmem _ _ => Cache.mem_addActor.mpr (.inl hmem)) (.append _ _)
    (fun c caller j hphase hne => getElem?_append_caller (hlt j caller hphase hne))
    List.getElem?_concat_length ?_
  · rcases Nat.lt_or_gt_of_ne hne with hlt | hgt
    · exact List.getElem?_append_left hlt
    · simp only [Sessions.spawn]
      rw [List.getElem?_eq_none (by simp; omega), List.getElem?_eq_none (by omega)]
  · rcases Cache.mem_addActor.mp hmem with hold | ⟨-, rfl⟩
    · exact hold
    · exact absurd hs.fresh hne
  · constructor
    · intro k entry hmem hid
      rcases Cache.mem_addActor.mp hmem with hold | ⟨hk, -⟩
      · exact absurd hid (hs.named k entry hold).ne
      · exact ⟨hk, rfl, fun _ => rfl⟩
    · intro c caller hc hphase
      rcases getElem?_append_singleton_cases hc with hold | ⟨rfl, rfl⟩
      · exact absurd (hs.handed c caller _ hold hphase) (lt_irrefl _)
      · exact ⟨rfl, rfl, rfl⟩
    · exact Nat.zero_le _
    · intro job hjob
      cases hjob
    · rintro c ⟨⟩ -
      refine ⟨.inl ⟨_, List.getElem?_concat_length, by rw [hs.fresh]⟩, fun k hk => ?_⟩
      exact ⟨_, Cache.mem_addActor.mpr (.inr ⟨hk, rfl⟩), hs.fresh, rfl⟩
    · intro job hjob
      cases hjob
    · intro snapshot hsnapshot
      cases hsnapshot

theorem mark (hs : Protocol s) {key : SessionKey} {entry : Entry} (turn : Turn)
    (hmem : (key, entry) ∈ s.cache.entries) (hidle : entry.busy = false) :
    Protocol (s.mark key entry.id turn) := by
  obtain ⟨actor, hactor⟩ : ∃ actor, s.actors[entry.id]? = some actor :=
    ⟨_, List.getElem?_eq_getElem (hs.named key entry hmem)⟩
  have hinv := hs.actors _ _ hactor
  have hnone := hs.turn_eq_none hmem hidle hactor
  have hpending := pending_of_turn_none hinv hnone
  obtain ⟨hkey, hlive, -⟩ := hinv.entry key entry hmem rfl
  -- The other entries of the cache are those of the other keys.
  have hupdate : ∀ k e, (k, e) ∈ (s.cache.markBusy key).entries ↔
      (k, e) ∈ s.cache.entries ∧ k ≠ key ∨ k = key ∧ e = { entry with busy := true } := by
    intro k e
    rw [Cache.mem_markBusy]
    refine or_congr Iff.rfl ⟨?_, ?_⟩
    · rintro ⟨own, hown, hk, rfl⟩
      exact ⟨hk, by rw [hs.distinct.unique hown hmem]⟩
    · rintro ⟨hk, rfl⟩
      exact ⟨entry, hmem, hk, rfl⟩
  have hdistinct : (s.mark key entry.id turn).cache.entries.Distinct :=
    Entries.Distinct.update hs.distinct key fun entry => { entry with busy := true }
  have hmarked : (s.mark key entry.id turn).actors[entry.id]? =
      some { actor with turn := some s.callers.length } := by
    simp [Sessions.mark, hactor]
  refine hs.actorStep (i := entry.id) (List.length_modify ..).ge ?_ hdistinct (fun j hne => ?_)
    (fun k e he hne => ?_) (fun k e he hb hne => ?_) (.append _ _)
    (fun c caller j hphase hne => ?_) hmarked ?_
  · simp only [Sessions.mark, Cache.markBusy, List.length_modify]
    exact hs.fresh
  · exact List.getElem?_modify_ne _ _ hne.symm
  · rcases (hupdate k e).mp he with ⟨hold, -⟩ | ⟨-, rfl⟩
    · exact hold
    · exact absurd rfl hne
  · refine (hupdate k e).mpr (.inl ⟨he, ?_⟩)
    rintro rfl
    exact hne (congrArg Entry.id (hs.distinct.unique he hmem))
  · refine getElem?_append_caller ?_
    rintro rfl
    exact hne (CallPhase.handing.inj hphase).symm
  · constructor
    · intro k e he hid
      rcases (hupdate k e).mp he with ⟨hold, hne⟩ | ⟨rfl, -⟩
      · rw [(hinv.entry k e hold hid).1] at hkey
        exact absurd (Option.some.inj hkey) hne
      · exact ⟨hkey, hlive, fun _ => rfl⟩
    · intro c caller hc hphase
      rcases getElem?_append_singleton_cases hc with hold | ⟨rfl, rfl⟩
      · have hturn := (hinv.handing c caller hold hphase).2.1
        rw [hnone] at hturn
        cases hturn
      · exact ⟨hkey, rfl, hpending⟩
    · exact hinv.single
    · intro job hjob
      have hjob : job ∈ actor.pending := hjob
      rw [hpending] at hjob
      cases hjob
    · rintro c ⟨⟩ -
      refine ⟨.inl ⟨_, List.getElem?_concat_length, rfl⟩, fun k hk => ?_⟩
      rw [show actor.key = some k from hk] at hkey
      exact ⟨_, (hupdate k _).mpr (.inr ⟨Option.some.inj hkey, rfl⟩), rfl, rfl⟩
    · intro job hjob
      obtain ⟨caller, hc, hcaller⟩ := hinv.jobs job hjob
      exact ⟨caller, getElem?_append_of_some _ hc, hcaller⟩
    · exact hinv.history

theorem call (hs : Protocol s) (key : Option SessionKey) (turn : Turn) (requestKey : String)
    (now : Nat) : Protocol (s.call key turn requestKey now) := by
  cases key with
  | none => exact hs.spawn turn requestKey now (by simp)
  | some key =>
    simp only [Sessions.call]
    split
    · next hget => exact hs.spawn turn requestKey now (by simpa using hget)
    · next entry hget =>
      split_ifs with hbusy
      · refine hs.frame rfl rfl (.refl _) (.append _ _) fun c caller i hphase => ?_
        refine getElem?_append_caller ?_
        rintro rfl
        cases hphase
      · exact hs.mark turn (Entries.mem_of_get_eq_some hget) (by simpa using hbusy)

/-- A caller that moves on without handing anything over. -/
theorem getElem?_set_caller {callers : List Caller} {c c' i : Nat} {caller caller' : Caller}
    {phase : CallPhase} (hc : callers[c]? = some caller) (hphase : phase ≠ .handing i)
    (hother : caller.phase ≠ .handing i) (hhanding : caller'.phase = .handing i) :
    (callers.set c { caller with phase })[c']? = some caller' ↔ callers[c']? = some caller' := by
  rcases eq_or_ne c c' with rfl | hne
  · rw [List.getElem?_set_self (List.getElem?_eq_some_iff.mp hc).1, hc]
    constructor
    · rintro ⟨⟩
      exact absurd hhanding hphase
    · rintro ⟨⟩
      exact absurd hhanding hother
  · rw [List.getElem?_set_ne hne]

theorem disconnect (hs : Protocol s) {c : Nat} {caller : Caller} (hc : s.callers[c]? = some caller)
    (hphase : ∀ i, caller.phase ≠ .handing i) : Protocol (s.setCaller c caller .gone) :=
  hs.frame rfl rfl (.refl _) (.set hc _) fun _ _ i hhanding =>
    getElem?_set_caller hc CallPhase.noConfusion (hphase i) hhanding

/-- Whoever is about to send a turn is the only one who is to send to that actor. -/
theorem handing_unique {entries : Entries} {callers : List Caller} {c c' : Nat}
    {caller caller' : Caller} (h : ActorInv entries callers i actor)
    (hc : callers[c]? = some caller) (hphase : caller.phase = .handing i)
    (hc' : callers[c']? = some caller') (hphase' : caller'.phase = .handing i) : c' = c := by
  have hturn := (h.handing c caller hc hphase).2.1
  rw [(h.handing c' caller' hc' hphase').2.1] at hturn
  exact Option.some.inj hturn

/-- After a send nobody is to send to that actor. -/
theorem not_handing_of_set {entries : Entries} {callers : List Caller} {c c' : Nat}
    {caller caller' : Caller} {phase : CallPhase} (h : ActorInv entries callers i actor)
    (hc : callers[c]? = some caller) (hphase : caller.phase = .handing i)
    (hne : phase ≠ .handing i) (hc' : (callers.set c { caller with phase })[c']? = some caller') :
    caller'.phase ≠ .handing i := by
  intro hphase'
  rcases getElem?_set_cases hc' with ⟨rfl, rfl⟩ | ⟨hother, hold⟩
  · exact hne hphase'
  · exact hother (handing_unique h hc hphase hold hphase')

theorem send (hs : Protocol s) {c : Nat} {caller : Caller} (hc : s.callers[c]? = some caller)
    (hphase : caller.phase = .handing i) (hactor : s.actors[i]? = some actor) :
    Protocol (s.send c caller i actor) := by
  have hinv := hs.actors i actor hactor
  obtain ⟨hkey, hturn, hpending⟩ := hinv.handing c caller hc hphase
  have hother : ∀ j, j ≠ i → caller.phase ≠ .handing j := by
    intro j hne hj
    rw [hphase] at hj
    exact hne (CallPhase.handing.inj hj).symm
  obtain ⟨hqueue, hwork⟩ := List.append_eq_nil_iff.mp hpending
  have hqueue : actor.queue = none := by simpa using hqueue
  have hwork : actor.phase.job = none := by simpa using hwork
  unfold Sessions.send
  split_ifs with hclosed
  · obtain hgone : actor.phase = .gone := by simpa [hqueue] using hclosed
    refine hs.actorStep (i := i) le_rfl hs.fresh hs.distinct (fun _ _ => rfl) (fun _ _ h _ => h)
      (fun _ _ h _ _ => h) (.set hc _)
      (fun _ _ j hhanding hne => getElem?_set_caller hc CallPhase.noConfusion (hother j hne) hhanding)
      hactor ?_
    refine { hinv with
      handing := fun c' caller' hc' hphase' => ?_
      held := fun c' _ hlive => ?_
      jobs := fun job hjob => ?_ }
    · exact absurd hphase' (not_handing_of_set hinv hc hphase CallPhase.noConfusion hc')
    · rw [hgone] at hlive
      cases hlive
    · obtain ⟨caller', hc', hkey', hturn'⟩ := hinv.jobs job hjob
      obtain ⟨phase, hset⟩ := Follows.set hc .refused _ _ hc'
      exact ⟨_, hset, hkey', hturn'⟩
  · refine hs.actorStep (i := i) (List.length_set ..).ge ?_ hs.distinct
      (fun j hne => List.getElem?_set_ne hne.symm) (fun _ _ h _ => h) (fun _ _ h _ _ => h)
      (.set hc _)
      (fun _ _ j hhanding hne => getElem?_set_caller hc CallPhase.noConfusion (hother j hne) hhanding)
      (List.getElem?_set_self (List.getElem?_eq_some_iff.mp hactor).1) ?_
    · simp [Sessions.setActor, Sessions.setCaller, hs.fresh]
    have hpending' : ({ actor with queue := some ⟨c, caller.turn⟩ } : Actor).pending =
        [⟨c, caller.turn⟩] := by
      simp [Actor.pending, hwork]
    obtain ⟨hentry, -, -, -, hheld, hjobs, hhistory⟩ := hinv
    constructor
    · exact hentry
    · intro c' caller' hc' hphase'
      exact absurd hphase' (not_handing_of_set (hs.actors i actor hactor) hc hphase
        CallPhase.noConfusion hc')
    · rw [hpending']
      exact le_rfl
    · rw [hpending']
      simpa using hturn
    · intro c' hturn' hlive
      refine ⟨.inr ?_, (hheld c' hturn' hlive).2⟩
      rw [hpending']
      have hsame : some c = some c' := hturn.symm.trans hturn'
      exact ⟨_, List.mem_singleton_self _, Option.some.inj hsame⟩
    · rw [hpending']
      intro job hjob
      rcases List.mem_append.mp hjob with hnew | hlog
      · obtain rfl := List.mem_singleton.mp hnew
        obtain ⟨phase, hset⟩ := Follows.set hc .waiting _ _ hc
        exact ⟨_, hset, hkey.symm, rfl⟩
      · obtain ⟨caller', hc', hkey', hturn'⟩ := hjobs job (List.mem_append_right _ hlog)
        obtain ⟨phase, hset⟩ := Follows.set hc .waiting _ _ hc'
        exact ⟨_, hset, hkey', hturn'⟩
    · exact hhistory


/-! ### Steps of an actor -/

theorem respond (hs : Protocol s) (snapshotBytes : Snapshot → Nat) {job : Job}
    (events : TurnEvents) (hactor : s.actors[i]? = some actor) (hphase : actor.phase = .running job) :
    Protocol (s.setActor i { actor with
      phase := .finished job
      session := (actor.session.respond snapshotBytes job.turn events).1
      log := actor.log ++ [(job, events)] }) :=
  hs.setActor_same hactor ((hs.actors i actor hactor).respond events hphase)

/-- Who has finished a turn has no other. -/
theorem pending_of_finished {entries : Entries} {callers : List Caller} {job : Job}
    (h : ActorInv entries callers i actor) (hphase : actor.phase = .finished job) :
    actor.pending = [job] ∧ actor.queue = none := by
  have hsingle := h.single
  cases hqueue : actor.queue with
  | none => simp [Actor.pending, hqueue, hphase, ActorPhase.job]
  | some queued => simp [Actor.pending, hqueue, hphase, ActorPhase.job] at hsingle

/-- An actor that has released its turn. -/
theorem released {entries : Entries} {job : Job} (hs : Protocol s)
    (hactor : s.actors[i]? = some actor) (hphase : actor.phase = .finished job)
    (hentry : ∀ key entry, (key, entry) ∈ entries → entry.id = i →
      actor.key = some key ∧ entry.busy = false) :
    ActorInv entries s.callers i { actor with phase := .delivering, turn := none } := by
  have hinv := hs.actors i actor hactor
  obtain ⟨hpending, hqueue⟩ := pending_of_finished hinv hphase
  refine .of_turn_none rfl (fun key entry hmem hid => ?_) (fun c caller hc hhanding => ?_)
    (by simp [Actor.pending, hqueue, ActorPhase.job])
    (fun e he => hinv.jobs _ (List.mem_append_right _ (List.mem_map_of_mem he))) hinv.history
  · obtain ⟨hkey, hidle⟩ := hentry key entry hmem hid
    exact ⟨hkey, rfl, hidle⟩
  · have hnil := (hinv.handing c caller hc hhanding).2.2
    rw [hpending] at hnil
    cases hnil

theorem nextId_ready (cache : Cache) (key : SessionKey) (id bytes now : Nat) :
    (cache.ready key id bytes now).nextId = cache.nextId := by
  unfold Cache.ready
  split_ifs <;> rfl

theorem ready (hs : Protocol s) {key : SessionKey} {job : Job} (now : Nat)
    (hactor : s.actors[i]? = some actor) (hphase : actor.phase = .finished job)
    (hkey : actor.key = some key) :
    Protocol { s.setActor i { actor with phase := .delivering, turn := none } with
      cache := s.cache.ready key i actor.session.bytes now } := by
  have hinv := hs.actors i actor hactor
  obtain ⟨hdistinct, hsub, hbusy, hidle⟩ :=
    Cache.ready_spec hs.distinct key i actor.session.bytes now
  refine hs.setActor hactor (nextId_ready ..) hdistinct (fun k entry hmem hne => ?_)
    (fun k entry hmem hb hne => hbusy k entry hmem hb fun hown => hne hown.2)
    (hs.released hactor hphase fun k entry hmem hid => ?_)
  · rcases hsub k entry hmem with hold | ⟨-, hid, -⟩
    · exact hold
    · exact absurd hid hne
  · have hk : k = key := by
      rcases hsub k entry hmem with hold | ⟨hk, -⟩
      · have hk := (hinv.entry k entry hold hid).1
        rw [hkey] at hk
        exact (Option.some.inj hk).symm
      · exact hk
    subst hk
    exact ⟨hkey, hidle entry hmem hid⟩

/-- An actor removes its own entry and no other: its expiry with an idle entry, and its end. -/
theorem removeEntry (hs : Protocol s) {key : SessionKey} {phase : ActorPhase}
    (hactor : s.actors[i]? = some actor) (hkey : actor.key = some key)
    (hwork : phase.job = actor.phase.job) {cache : Cache} (hnextId : cache.nextId = s.cache.nextId)
    (hdistinct : cache.entries.Distinct)
    (hentries : ∀ k entry, (k, entry) ∈ cache.entries ↔
      (k, entry) ∈ s.cache.entries ∧ ¬ (k = key ∧ entry.id = i))
    (hheld : phase.departed = true ∨ actor.turn = none) :
    Protocol { s.setActor i { actor with phase } with cache } := by
  refine hs.setActor hactor hnextId hdistinct (fun k entry hmem _ => ((hentries k entry).mp hmem).1)
    (fun k entry hmem _ hne => (hentries k entry).mpr ⟨hmem, fun hown => hne hown.2⟩)
    ((hs.actors i actor hactor).of_no_entry rfl rfl ?_ rfl rfl (fun k entry hmem hid hk => ?_)
      (fun k entry hmem => ((hentries k entry).mp hmem).1) hheld)
  · simp [Actor.pending, hwork]
  · rw [hkey] at hk
    exact ((hentries k entry).mp hmem).2 ⟨(Option.some.inj hk).symm, hid⟩

theorem leave (hs : Protocol s) {key : SessionKey} (hactor : s.actors[i]? = some actor)
    (hphase : actor.phase = .leaving) (hkey : actor.key = some key) :
    Protocol { s.setActor i { actor with phase := .closing } with
      cache := s.cache.removeOwn key i } := by
  refine hs.removeEntry hactor hkey (by rw [hphase]; rfl) ?_ ?_
    (fun k entry => Cache.mem_removeOwn hs.distinct) (.inl rfl)
  · unfold Cache.removeOwn
    split_ifs <;> rfl
  · unfold Cache.removeOwn
    split_ifs
    · exact Entries.Distinct.remove hs.distinct key
    · exact hs.distinct

/-- The expiry of an actor that may end. -/
theorem expire (hs : Protocol s) {key : SessionKey} (hactor : s.actors[i]? = some actor)
    (hphase : actor.phase = .idle) (hkey : actor.key = some key)
    (hends : (s.cache.removeIdle key i).2 = true) :
    Protocol { s.setActor i { actor with phase := .leaving } with
      cache := (s.cache.removeIdle key i).1 } := by
  have hinv := hs.actors i actor hactor
  obtain ⟨hidle, hcache⟩ := (Cache.removeIdle_spec hs.distinct).2 hends
  have hnone : actor.turn = none := by
    cases hturn : actor.turn with
    | none => rfl
    | some c =>
      obtain ⟨entry, hmem, hid, hbusy⟩ :=
        (hinv.held c hturn (by rw [hphase]; rfl)).2 key hkey
      rw [hidle entry hmem hid] at hbusy
      cases hbusy
  refine hs.removeEntry hactor hkey (by rw [hphase]; rfl) ?_ ?_
    (fun k entry => Cache.mem_removeIdle hs.distinct hends) (.inr hnone)
  · rcases hcache with ⟨hsame, -⟩ | ⟨hremoved, -⟩
    · rw [hsame]
    · rw [hremoved]
  · rcases hcache with ⟨hsame, -⟩ | ⟨hremoved, -⟩
    · rw [hsame]
      exact hs.distinct
    · rw [hremoved]
      exact Entries.Distinct.remove hs.distinct key

theorem close (hs : Protocol s) (hactor : s.actors[i]? = some actor)
    (hphase : actor.phase = .closing) :
    Protocol (s.setActor i { actor with phase := .gone, queue := none }) := by
  have hinv := hs.actors i actor hactor
  refine hs.setActor_same hactor (hinv.of_no_entry rfl rfl (List.nil_sublist _) rfl rfl
    (fun key entry hmem hid _ => ?_) (fun _ _ h => h) (.inl rfl))
  have hlive := (hinv.entry key entry hmem hid).2.1
  rw [hphase] at hlive
  cases hlive

/-- An actor that moves on without touching its turns or its entry. -/
theorem moveOn (hs : Protocol s) (hactor : s.actors[i]? = some actor)
    (hkey : actor'.key = actor.key) (hturn : actor'.turn = actor.turn)
    (hpending : actor'.pending = actor.pending)
    (hdeparted : actor'.phase.departed = actor.phase.departed) (hlog : actor'.log = actor.log)
    (hsnapshot : actor'.session.snapshot = actor.session.snapshot) :
    Protocol (s.setActor i actor') :=
  hs.setActor_same hactor
    ((hs.actors i actor hactor).moveOn hkey hturn hpending hdeparted hlog hsnapshot)

/-- An actor that only changes its phase. -/
theorem setPhase (hs : Protocol s) {phase : ActorPhase} (hactor : s.actors[i]? = some actor)
    (hwork : phase.job = actor.phase.job) (hdeparted : phase.departed = actor.phase.departed) :
    Protocol (s.setActor i { actor with phase }) :=
  hs.moveOn hactor rfl rfl (congrArg (actor.queue.toList ++ Option.toList ·) hwork) hdeparted rfl rfl

/-- **Every step of an actor keeps the protocol.** -/
theorem act (hs : Protocol s) {snapshotBytes : Snapshot → Nat} {a : SessionsAction}
    (hactor : s.actors[i]? = some actor) (h : s.act snapshotBytes i actor a = some t) :
    Protocol t := by
  cases a with
  | receive =>
    simp only [Sessions.act] at h
    split at h
    · next job hphase hqueue =>
      split_ifs at h
      cases h
      refine hs.moveOn hactor rfl rfl ?_ ?_ rfl rfl
      · simp [Actor.pending, hphase, hqueue, ActorPhase.job]
      · rw [hphase]
        rfl
    · cases h
  | hangUp =>
    simp only [Sessions.act] at h
    split_ifs at h with hguard
    cases h
    exact hs.setPhase hactor (by rw [hguard.1]; rfl) (by rw [hguard.1]; rfl)
  | stop =>
    simp only [Sessions.act] at h
    split_ifs at h with hguard
    cases h
    exact hs.setPhase hactor (by rw [hguard.1]; rfl) (by rw [hguard.1]; rfl)
  | respond _ events =>
    simp only [Sessions.act] at h
    split at h
    · next job hphase =>
      cases h
      exact hs.respond snapshotBytes events hactor hphase
    · cases h
  | ready _ now =>
    simp only [Sessions.act] at h
    split at h
    · next job hphase =>
      split at h
      · next key hkey =>
        cases h
        exact hs.ready now hactor hphase hkey
      · next hkey =>
        cases h
        refine hs.setActor_same hactor (hs.released hactor hphase fun key entry hmem hid => ?_)
        have hown := ((hs.actors i actor hactor).entry key entry hmem hid).1
        rw [hkey] at hown
        cases hown
    · cases h
  | deliver =>
    simp only [Sessions.act] at h
    split_ifs at h with hphase
    cases h
    exact hs.setPhase hactor (by rw [hphase]; rfl) (by rw [hphase]; rfl)
  | message _ event =>
    simp only [Sessions.act] at h
    split_ifs at h with hguard
    cases h
    refine hs.moveOn hactor rfl rfl rfl rfl rfl ?_
    rcases idleMessage_cases actor.session event with hsame | hdropped
    · simp only [hsame]
    · simp only [hdropped]
      rfl
  | expire =>
    simp only [Sessions.act] at h
    split_ifs at h with hphase
    split at h
    · cases h
      exact hs.setPhase hactor (by rw [hphase]; rfl) (by rw [hphase]; rfl)
    · next key hkey =>
      split at h
      · cases h
        exact hs
      · next cache hends =>
        cases h
        have hexpire := hs.expire hactor hphase hkey (by rw [hends])
        rw [hends] at hexpire
        exact hexpire
  | leave =>
    simp only [Sessions.act] at h
    split_ifs at h with hphase
    split at h
    · next key hkey =>
      cases h
      exact hs.leave hactor hphase hkey
    · next hkey =>
      cases h
      have hinv := hs.actors i actor hactor
      refine hs.setActor_same hactor (hinv.of_no_entry rfl rfl ?_ rfl rfl
        (fun key entry _ _ hown => ?_) (fun _ _ h => h) (.inl rfl))
      · simp [Actor.pending, hphase, ActorPhase.job]
      · rw [hkey] at hown
        cases hown
  | close =>
    simp only [Sessions.act] at h
    split_ifs at h with hphase
    cases h
    exact hs.close hactor hphase
  | call | send | disconnect | shutdown | rehash => cases h

/-- **Every step keeps the protocol.** -/
theorem step (hs : Protocol s) {snapshotBytes : Snapshot → Nat} {a : SessionsAction}
    (h : sessionsStep snapshotBytes s a = some t) : Protocol t := by
  cases a with
  | call key turn requestKey now =>
    cases h
    exact hs.call key turn requestKey now
  | send c =>
    simp only [sessionsStep] at h
    split at h
    · cases h
    · next caller hc =>
      split at h
      · next i hphase =>
        obtain ⟨actor, hactor, rfl⟩ := Option.map_eq_some_iff.mp h
        exact hs.send hc hphase hactor
      · cases h
  | disconnect c =>
    simp only [sessionsStep] at h
    split at h
    · cases h
    · next caller hc =>
      split at h
      · cases h
      · next hphase =>
        cases h
        exact hs.disconnect hc hphase
  | shutdown =>
    cases h
    exact hs.frame rfl rfl (.refl _) (.refl _) fun _ _ _ _ => Iff.rfl
  | rehash entries =>
    simp only [sessionsStep] at h
    split_ifs at h with hperm
    cases h
    exact hs.frame rfl rfl hperm (.refl _) fun _ _ _ _ => Iff.rfl
  | receive | hangUp | stop | respond | ready | deliver | message | expire | leave | close =>
    simp only [sessionsStep, SessionsAction.actor, Option.bind_some] at h
    obtain ⟨actor, hactor, hact⟩ := Option.bind_eq_some_iff.mp h
    exact hs.act hactor hact

theorem of_run {snapshotBytes : Snapshot → Nat} {as : List SessionsAction}
    (h : SessionsRun snapshotBytes .init as s) : Protocol s :=
  h.invariant (fun _ _ _ hs hstep => hs.step hstep) .init

end Protocol

end CodexApi
