import CodexApi.Delivery.Invariant
import CodexApi.Relay.Wire

/-!
# Every admitted row is closed once

As long as the store works, an admitted row stays in somebody's care until it is finalized, and it is
finalized once. There is one exception: a handler that is dropped while it waits for the `INSERT` of
its own admission. The row is inserted all the same, and nobody knows of it.
-/

namespace CodexApi.Delivery

open Transition

/-! ### Conditions on steps -/

/-- The store fails to answer. -/
def Response.storeFails : Response → Bool
  | .fails => true
  | .inner response => response.storeFails
  | _ => false

/-- The store answers in a step. -/
def Action.storeWorks : Action → Bool
  | .part _ (.reply response) => !response.storeFails
  | .part _ (.finalizer now) => now.isSome
  | _ => true

/-- A handler waits for the `INSERT` that admits its request. -/
def Part.admitting (part : Part) : Bool :=
  match part.place, part.code with
  | .handler, some (.op (.insert insertion) _) => insertion.row.status = .started
  | _, _ => false

/-- No handler is dropped while it waits for the `INSERT` that admits its request. -/
def System.keepsAdmissions (s : System) : Action → Bool
  | .part index .disconnect => !s.parts[index]?.any Part.admitting
  | _ => true

/-! ### The care of a row -/

/-- The code of a part has neither ended nor been dropped. -/
def Part.running (part : Part) : Bool :=
  match part.code with
  | none | some (.pure _) => false
  | _ => true

/-- A task of the part is finalizing a row. -/
def Part.finalizing (part : Part) (id : RequestId) : Bool :=
  match part.custody with
  | .closing id' _ _ _ => id' = id
  | _ => false

/-- The finalizations of a row. -/
def Shared.finalizationsOf (sh : Shared) (id : RequestId) : List Finalization :=
  sh.finalized.filter (·.id = id)

/-- The part that has inserted a row still runs, or a task of it is finalizing the row. -/
def System.InCare (s : System) (id : RequestId) : Prop :=
  ∃ index part, s.shared.owners[id]? = some index ∧ s.parts[index]? = some part ∧
    (part.running = true ∨ part.finalizing id = true)

/-- A row that was started is still started and in somebody's care, or is closed by its only
finalization. -/
def System.Closes (s : System) (id : RequestId) : Prop :=
  (s.shared.Started id ∧ s.shared.finalizationsOf id = [] ∧ s.InCare id) ∨
    ∃ f row, s.shared.finalizationsOf id = [f] ∧ s.shared.ledger[id]? = some row ∧
      row.FinishedBy f.attempt

variable {sh sh' : Shared} {index parts : Nat} {part part' : Part} {id : RequestId}
  {config : Config} {isHttpDate : String → Bool} {s t : System}

/-! ### Parts without failures -/

/-- The store has not failed for a part, and no admitted row has got lost with its code. -/
structure Part.Whole (sh : Shared) (part : Part) : Prop where
  storeFailed : part.storeFailed = false
  orphaned : ∀ insertion, part.inserting = .orphaned insertion → insertion.row.status ≠ .started
  leaked : ∀ id, part.inserting = .leaked id → sh.Settled id

theorem Part.storeFailed_of_perform {effect : Effect} {reply : effect.Reply} {response : Response}
    (hworks : response.storeFails = false)
    (h : part.perform sh effect response = some (reply, sh', part')) :
    part'.storeFailed = part.storeFailed := by
  induction effect generalizing response with
  | select closable effect ih =>
    cases response with
    | inner inner =>
      simp only [Part.perform, Option.ite_none_right_eq_some, Option.map_eq_some_iff] at h
      obtain ⟨-, ⟨reply', sh'', part''⟩, hperform, heq⟩ := h
      cases heq
      have hworks : inner.storeFails = false := hworks
      exact ih hworks hperform
    | shutdown | closed =>
      simp only [Part.perform, Option.ite_none_right_eq_some] at h
      cases h.2
      rfl
    | _ => cases h
  | plan | dropPending | newPending | detach =>
    cases response <;> cases h <;> first | rfl | cases hworks
  | insert =>
    cases response <;> try cases h
    · simp only [Part.perform] at h
      split at h <;> cases h
      rfl
    · cases hworks
  | finalize =>
    cases response <;> try cases h
    · simp only [Part.perform] at h
      split at h <;> cases h <;> rfl
    · cases hworks
  | responseStarted | spawnFinalizer =>
    cases response <;> try cases h
    simp only [Part.perform] at h
    split at h <;> cases h
    rfl
  | callSession =>
    cases response <;> try cases h
    rename_i result
    cases result <;> simp only [Part.perform, Option.ite_none_right_eq_some] at h
    · cases h; rfl
    · cases h; rfl
    · cases h.2; rfl
  | takeJob =>
    cases response <;> try cases h
    simp only [Part.perform, Option.ite_none_right_eq_some] at h
    cases h.2
    rfl
  | _ =>
    rw [Part.perform_of_plain rfl, Option.map_eq_some_iff] at h
    obtain ⟨reply', -, heq⟩ := h
    cases heq
    rfl

theorem Part.storeFailed_of_finalizer {now : OffsetDateTime}
    (h : part.finalizer sh (some now) = some (sh', part')) :
    part'.storeFailed = part.storeFailed := by
  unfold Part.finalizer at h
  split at h
  · simp only [Option.isNone_some, Bool.false_eq_true, if_false] at h
    split at h <;> cases h <;> rfl
  · cases h

theorem Part.Whole.keeps (hw : part.Whole sh) (hs : part.Sound sh index)
    (h : sh.Keeps index sh') : part.Whole sh' where
  storeFailed := hw.storeFailed
  orphaned := hw.orphaned
  leaked := fun id hleaked => by
    obtain ⟨row, hrow, hsettled⟩ := hw.leaked id hleaked
    have howner := hs.tracks.owns id (.inr (by rw [hleaked]; rfl))
    exact ⟨row, (h.ledger id howner).trans hrow, hsettled⟩

theorem Part.Whole.execute (hw : part.Whole sh) (hs : part.Sound sh index) (hb : sh.Books parts)
    (h : part.execute sh index = some (sh', part')) : part'.Whole sh' := by
  unfold Part.execute at h
  split at h
  · rename_i insertion hinserting
    obtain ⟨-, hrow, rfl, -⟩ :=
      hs.tracks.insertInto hb (by rw [hinserting]; rfl) (fun _ => rfl) h
    refine ⟨hw.storeFailed, fun insertion h => (by cases h), fun id hleaked => ?_⟩
    cases hleaked
    exact ⟨insertion.row, hrow, hw.orphaned insertion hinserting⟩
  · rename_i insertion next hinserting hcode
    obtain ⟨-, -, rfl, -⟩ :=
      hs.tracks.insertInto hb (by rw [hinserting]; rfl) (fun _ => rfl) h
    exact ⟨hw.storeFailed, fun insertion h => (by cases h), fun id h => by cases h⟩
  · cases h

theorem Part.Whole.disconnect (hw : part.Whole sh) (hs : part.Sound sh index)
    (hkeeps : part.admitting = false) (h : part.disconnect sh = some part') : part'.Whole sh := by
  have hstays : part' = { part with connected := false } → part'.Whole sh := by
    rintro rfl
    exact ⟨hw.storeFailed, hw.orphaned, hw.leaked⟩
  unfold Part.disconnect at h
  split at h
  case h_1 | h_2 | h_3 | h_4 | h_5 => exact hstays (Option.some.inj h).symm
  case h_7 => cases h
  rename_i effect next hplace hcode hpath
  simp only [Option.ite_none_right_eq_some, Option.some.injEq] at h
  obtain ⟨-, rfl⟩ := h
  have hlost : ∀ insertion, effect = .insert insertion → insertion.row.status ≠ .started := by
    rintro insertion rfl
    simpa [Part.admitting, hplace, hcode] using hkeeps
  refine ⟨hw.storeFailed, fun insertion horphaned => ?_, fun id hleaked => ?_⟩
  · simp only [Part.dropHandler] at horphaned
    split at horphaned
    · cases horphaned
      exact hlost _ rfl
    · cases horphaned
    · exact hw.orphaned insertion horphaned
  · simp only [Part.dropHandler] at hleaked
    split at hleaked
    · cases hleaked
    · rename_i insertion id' hexecuted
      cases hleaked
      have hinserting := hs.inserting
      unfold InsertingIn at hinserting
      rw [hexecuted, hcode] at hinserting
      obtain ⟨insertion', next', heq, hrow⟩ := hinserting
      cases heq
      exact ⟨_, hrow, hlost _ rfl⟩
    · exact hw.leaked id hleaked

/-- **A step of a part with a working store** loses no admitted row. -/
theorem Part.Whole.step (hw : part.Whole sh) (hs : part.Sound sh index) (hb : sh.Books parts)
    {move : Move} (hworks : (Action.part index move).storeWorks = true)
    (hkeeps : move = .disconnect → part.admitting = false)
    (h : partStep config isHttpDate index sh part move = some (sh', part')) : part'.Whole sh' := by
  cases move with
  | reply response =>
    simp only [partStep] at h
    split at h
    · rename_i effect next hcode
      obtain ⟨⟨reply, sh'', part''⟩, hperform, heq⟩ := Option.bind_eq_some_iff.mp h
      cases heq
      have hidle : part''.inserting = .idle := (hs.perform hcode hperform).inserting
      refine ⟨?_, fun insertion h => ?_, fun id h => ?_⟩
      · exact (Part.storeFailed_of_perform (by simpa [Action.storeWorks] using hworks)
          hperform).trans hw.storeFailed
      · rw [show Part.inserting _ = _ from hidle] at h
        cases h
      · rw [show Part.inserting _ = _ from hidle] at h
        cases h
    · cases h
  | unfold =>
    simp only [partStep] at h
    split at h
    · cases h
      exact ⟨hw.storeFailed, hw.orphaned, hw.leaked⟩
    · cases h
  | execute => exact hw.execute hs hb h
  | disconnect =>
    obtain ⟨part'', hpart, heq⟩ := Option.map_eq_some_iff.mp h
    cases heq
    exact hw.disconnect hs (hkeeps rfl) hpart
  | finalizer now =>
    obtain ⟨hevolves, -⟩ := hs.tracks.finalizer h
    obtain ⟨custody, storeFailed, rfl, -⟩ := Part.finalizer_custody h
    refine ⟨?_, hw.orphaned, fun id hleaked =>
      (hevolves.grows [id]).settled id (List.mem_singleton_self id) (hw.leaked id hleaked)⟩
    cases now with
    | none => cases hworks
    | some now => exact (Part.storeFailed_of_finalizer h).trans hw.storeFailed

/-! ### The system -/

/-- A step with a working store that drops no admitting handler. -/
def System.Careful (s : System) (action : Action) : Prop :=
  action.storeWorks = true ∧ s.keepsAdmissions action = true

/-- No part has lost an admitted row. -/
structure System.Whole (s : System) : Prop where
  sound : s.Sound
  parts : ∀ (index : Nat) (part : Part), s.parts[index]? = some part → part.Whole s.shared

instance (s : System) (action : Action) : Decidable (s.Careful action) :=
  inferInstanceAs (Decidable (_ ∧ _))

/-- **Such steps lose no admitted row.** -/
theorem System.Whole.step {action : Action} (h : s.Whole) (hcareful : s.Careful action)
    (hstep : systemStep config isHttpDate s action = some t) : t.Whole := by
  refine ⟨h.sound.step hstep, ?_⟩
  obtain ⟨hs, hw⟩ := h
  rename' hstep => h
  cases action with
  | start request =>
    cases h
    intro index part hpart
    rcases getElem?_append_singleton_cases hpart with hpart | ⟨-, rfl⟩
    · exact hw index part hpart
    · cases request <;> exact ⟨rfl, fun _ h => (by cases h), fun _ h => by cases h⟩
  | shutdown =>
    cases h
    exact fun index part hpart => (hw index part hpart).keeps (hs.parts index part hpart)
      ⟨fun _ => .rfl, fun _ _ => rfl, fun _ _ => .rfl, fun _ => rfl⟩
  | part index move =>
    simp only [systemStep] at h
    obtain ⟨part, hpart, h⟩ := Option.bind_eq_some_iff.mp h
    obtain ⟨⟨sh', part'⟩, hstep, heq⟩ := Option.bind_eq_some_iff.mp h
    cases heq
    obtain ⟨hevolves, -⟩ := (hs.parts index part hpart).step config isHttpDate hs.books hstep
    intro index' part'' hpart'
    rcases getElem?_set_cases hpart' with ⟨rfl, rfl⟩ | ⟨hne, hpart'⟩
    · refine (hw _ part hpart).step (hs.parts _ part hpart) hs.books hcareful.1 ?_ hstep
      rintro rfl
      simpa [System.keepsAdmissions, hpart] using hcareful.2
    · exact (hw index' part'' hpart').keeps (hs.parts index' part'' hpart')
        (hevolves.keeps hs.books hne.symm)

/-- **A started row that its code has been told of** is in somebody's care, unless the store has
failed. -/
theorem Part.Sound.inCare (hs : part.Sound sh index) (hid : id ∈ (viewOf part.trace).ids)
    (hstarted : sh.Started id) (hstore : part.storeFailed = false) :
    part.running = true ∨ part.finalizing id = true := by
  obtain ⟨row, hrow, hstatus⟩ := hstarted
  have hnot : ¬ sh.Settled id := by
    rintro ⟨row', hrow', hsettled⟩
    rw [hrow] at hrow'
    cases hrow'
    exact hsettled hstatus
  have hnever : part.storeFailed ≠ true := fun h => by rw [hstore] at h; cases h
  by_contra hgone
  simp only [not_or, Bool.not_eq_true] at hgone
  obtain ⟨hstopped, hidle⟩ := hgone
  -- The code has ended or been dropped, so it holds no row and guards none.
  have hended : (viewOf part.trace).held = [] ∧
      ∀ id httpStatus, part.custody ≠ .guarded id httpStatus := by
    cases hcode : part.code with
    | none => exact hs.dropped hcode
    | some code =>
      cases code with
      | jump | op => simp [Part.running, hcode] at hstopped
      | pure value =>
        have hended : (viewOf part.trace).Ended := hs.respects _ hcode
        have hfailed : (viewOf part.trace).storeFailed = false := by
          rw [← Bool.not_eq_true]
          exact fun hfailed => hnever (hs.tracks.storeFailed hfailed)
        refine ⟨hended.held hfailed, fun id httpStatus hguarded => ?_⟩
        have hpending := hs.tracks.pending (by simp [hcode])
        unfold PendingIn at hpending
        cases hv : (viewOf part.trace).pending with
        | absent =>
          rw [hv] at hpending
          exact hpending id httpStatus hguarded
        | opened row started => exact hended.pending row started hv
        | closing row attempts =>
          rw [hv, hguarded] at hpending
          cases hpending with
          | running h | retrying h | succeeded h | retried h | failed h => cases h
  rcases hs.tracks.settled id hid with hsettled | hfailed | ⟨row', hrow', -⟩ | hcustody
  · exact hnot hsettled
  · exact hnever hfailed
  · rw [hended.1] at hrow'
    cases hrow'
  · have hin := hs.tracks.custody
    unfold CustodyIn at hin
    cases hpartCustody : part.custody with
    | free =>
      rw [hpartCustody] at hcustody
      cases hcustody
    | guarded id' httpStatus => exact hended.2 id' httpStatus hpartCustody
    | closing id' attempts retry word =>
      rw [hpartCustody] at hcustody
      cases hcustody
      simp [Part.finalizing, hpartCustody] at hidle
    | closed id' ok =>
      rw [hpartCustody] at hcustody hin
      cases hcustody
      exact hin.2.elim hnever hnot

/-- **A started row is in somebody's care** as long as no store has failed and no admission has been
dropped. -/
theorem System.Whole.inCare (h : s.Whole) (hstarted : s.shared.Started id) : s.InCare id := by
  obtain ⟨hs, hw⟩ := h
  obtain ⟨row, hrow, hstatus⟩ := hstarted
  obtain ⟨index, howner, hlt⟩ := hs.books.owner_of_row hrow
  obtain ⟨part, hpart⟩ : ∃ part, s.parts[index]? = some part := ⟨_, List.getElem?_eq_getElem hlt⟩
  have hsound := hs.parts index part hpart
  have hwhole := hw index part hpart
  refine ⟨index, part, howner, hpart, ?_⟩
  rcases hsound.tracks.owned id howner with hid | hid | hfailed
  · exact hsound.inCare hid ⟨row, hrow, hstatus⟩ hwhole.storeFailed
  · have hinserting := hsound.inserting
    unfold InsertingIn at hinserting
    cases hpartInserting : part.inserting with
    | idle | orphaned =>
      rw [hpartInserting] at hid
      cases hid
    | executed id' =>
      rw [hpartInserting] at hinserting
      obtain ⟨insertion, next, hcode, -⟩ := hinserting
      exact .inl (by simp [Part.running, hcode])
    | leaked id' =>
      rw [hpartInserting] at hid
      cases hid
      obtain ⟨row', hrow', hsettled⟩ := hwhole.leaked id hpartInserting
      rw [hrow] at hrow'
      cases hrow'
      exact absurd hstatus hsettled
  · rw [hwhole.storeFailed] at hfailed
    cases hfailed

/-- An attempt of a finalizing task closes its row, or leaves the next attempt to it. -/
theorem System.finalizer_step (config : Config) (isHttpDate : String → Bool)
    (hpart : s.parts[index]? = some part) {attempt : Attempt}
    {attempts : List Attempt} {retry : Bool} {word : Word}
    (hclosing : part.custody = .closing id (attempt :: attempts) retry word)
    (now : OffsetDateTime) :
    ∃ u, systemStep config isHttpDate s (.part index (.finalizer (some now))) = some u ∧
      ((∃ f ∈ u.shared.finalized, f.id = id) ∨
        (∃ error, finalizeRequest now s.shared.ledger id attempt.status attempt.httpStatus
          attempt.usage = .error error) ∧
        ∃ part', u.parts[index]? = some part' ∧ ∀ next rest, attempts = next :: rest →
          part'.custody = .closing id attempts true word) := by
  have hlt : index < s.parts.length := (List.getElem?_eq_some_iff.mp hpart).1
  cases hresult : finalizeRequest now s.shared.ledger id attempt.status attempt.httpStatus
      attempt.usage with
  | ok ledger =>
    have hfinalizer : part.finalizer s.shared (some now) = some
        ({ s.shared with
          ledger, finalized := s.shared.finalized ++ [⟨id, attempt, retry, word⟩] },
        { part with custody := .closed id !retry }) := by
      simp [Part.finalizer, hclosing, hresult, Except.toOption]
    refine ⟨_, systemStep_part hpart hfinalizer, .inl ?_⟩
    exact ⟨_, List.mem_append_right _ (List.mem_singleton_self _), rfl⟩
  | error error =>
    have hfinalizer : part.finalizer s.shared (some now) = some (s.shared, { part with
        custody :=
          if attempts.isEmpty then .closed id false else .closing id attempts true word }) := by
      simp [Part.finalizer, hclosing, hresult, Except.toOption]
    refine ⟨_, systemStep_part hpart hfinalizer, .inr ⟨⟨error, rfl⟩, _, List.getElem?_set_self hlt, ?_⟩⟩
    rintro next rest rfl
    rfl

/-- **A finalizing task needs nothing but the store**: its attempts close the row. -/
theorem System.task_closes (hs : s.Sound) (hpart : s.parts[index]? = some part)
    (hfinalizing : part.finalizing id = true) (now : OffsetDateTime) :
    ∃ n u, n ≤ 2 ∧ SystemRun config isHttpDate s
      (List.replicate n (.part index (.finalizer (some now)))) u ∧ u.shared.Settled id := by
  obtain ⟨attempts, retry, word, hclosing⟩ : ∃ attempts retry word,
      part.custody = .closing id attempts retry word := by
    unfold Part.finalizing at hfinalizing
    split at hfinalizing
    · rename_i id' attempts retry word hcustody
      rw [of_decide_eq_true hfinalizing] at hcustody
      exact ⟨_, _, _, hcustody⟩
    · cases hfinalizing
  -- An attempt without usage succeeds.
  have hlast : ∀ {s : System} {part : Part} {attempt : Attempt} {attempts : List Attempt}
      {retry : Bool}, s.Sound → s.parts[index]? = some part → attempt.usage = none →
      part.custody = .closing id (attempt :: attempts) retry word →
      ∃ u, systemStep config isHttpDate s (.part index (.finalizer (some now))) = some u ∧
        u.shared.Settled id := by
    intro s part attempt attempts retry hs hpart husage hclosing
    obtain ⟨u, hstep, ⟨f, hf, rfl⟩ | ⟨⟨error, herror⟩, -⟩⟩ :=
      System.finalizer_step config isHttpDate hpart hclosing now
    · exact ⟨u, hstep, (hs.step hstep).books.settled_of_mem hf⟩
    · have hin := (hs.parts index part hpart).tracks.custody
      unfold CustodyIn at hin
      rw [hclosing] at hin
      obtain ⟨-, ⟨row, hrow, hstarted⟩, -, -, rates, hjustified⟩ := hin
      obtain ⟨ledger, hledger⟩ := finalizeRequest_of_started now hrow hstarted husage
        (hjustified attempt List.mem_cons_self).httpStatus
      rw [herror] at hledger
      cases hledger
  have hin := (hs.parts index part hpart).tracks.custody
  unfold CustodyIn at hin
  rw [hclosing] at hin
  obtain ⟨-, -, hleft, -⟩ := hin
  cases hleft with
  | retry httpStatus =>
    obtain ⟨u, hstep, hsettled⟩ := hlast hs hpart rfl hclosing
    exact ⟨1, u, by decide, .single hstep, hsettled⟩
  | fresh hordered =>
    cases hordered with
    | single husage =>
      obtain ⟨u, hstep, hsettled⟩ := hlast hs hpart husage hclosing
      exact ⟨1, u, by decide, .single hstep, hsettled⟩
    | fallback attempt httpStatus =>
      obtain ⟨u, hstep, ⟨f, hf, rfl⟩ | ⟨-, part', hpart', hnext⟩⟩ :=
        System.finalizer_step config isHttpDate hpart hclosing now
      · exact ⟨1, u, by decide, .single hstep, (hs.step hstep).books.settled_of_mem hf⟩
      · obtain ⟨u', hstep', hsettled⟩ := hlast (hs.step hstep) hpart' rfl (hnext _ _ rfl)
        exact ⟨2, u', le_rfl, .cons hstep (.single hstep'), hsettled⟩

/-! ### Every admitted row is closed once -/

/-- A row has at most one finalization. -/
theorem Shared.Books.finalizationsOf (hb : sh.Books parts) {f : Finalization}
    (hf : f ∈ sh.finalized) : sh.finalizationsOf f.id = [f] :=
  filter_eq_singleton hb.nodup hf

theorem Shared.Books.finalizationsOf_started (hb : sh.Books parts) (hstarted : sh.Started id) :
    sh.finalizationsOf id = [] := by
  obtain ⟨row, hrow, hstatus⟩ := hstarted
  refine List.filter_eq_nil_iff.mpr fun f hf heq => hb.not_mem_of_started hrow hstatus ?_
  exact of_decide_eq_true heq ▸ List.mem_map_of_mem hf

/-- Runs that lose no admitted row. -/
abbrev CarefulRun (config : Config) (isHttpDate : String → Bool) :=
  Run (restrict (ofFun (systemStep config isHttpDate)) System.Careful)

theorem System.whole_of_run {actions : List Action}
    (h : CarefulRun config isHttpDate .init actions s) : s.Whole :=
  h.invariant (fun _ _ _ hs hstep => hs.step hstep.1 hstep.2)
    ⟨System.init_sound, fun _ _ h => by cases h⟩

/-- **Every admitted row is closed once.** While the store works and no handler is dropped in the
`INSERT` of its admission, a row that is started stays in somebody's care until it is closed by its
only finalization, and a finalizing task needs nothing but the store. -/
theorem ledger_closed {before after : List Action}
    (hbefore : CarefulRun config isHttpDate .init before s)
    (hafter : CarefulRun config isHttpDate s after t) (hstarted : s.shared.Started id) :
    t.Closes id ∧ (t.shared.finalized.map (·.id)).Nodup ∧
      ∀ (index : Nat) (part : Part), t.parts[index]? = some part → part.finalizing id = true →
        ∀ now, ∃ n u, n ≤ 2 ∧ SystemRun config isHttpDate t
          (List.replicate n (.part index (.finalizer (some now)))) u ∧ u.shared.Settled id := by
  have hs := (System.whole_of_run hbefore).sound
  have hwhole := System.whole_of_run (hbefore.append hafter)
  have ht := hwhole.sound
  refine ⟨?_, ht.books.nodup, fun index part hpart hfinalizing now =>
    System.task_closes ht hpart hfinalizing now⟩
  obtain ⟨row, hrow, hstatus⟩ := hstarted
  rcases hs.row_of_run hafter.of_restrict hrow with hrow | ⟨-, f, hf, rfl⟩
  · have hstarted : t.shared.Started id := ⟨row, hrow, hstatus⟩
    exact .inl ⟨hstarted, ht.books.finalizationsOf_started hstarted,
      hwhole.inCare hstarted⟩
  · obtain ⟨row', hrow', hfinished⟩ := ht.books.finished f hf
    exact .inr ⟨f, row', ht.books.finalizationsOf hf, hrow', hfinished⟩

/-! ### Runs -/

/-- A time. -/
def midnight : OffsetDateTime := .unixEpoch

/-- A client without limits. -/
def lowIdentity : ClientIdentity := ⟨"key", ⟨none, none⟩⟩

/-- A Responses request that is admitted. -/
def plainResponses : Value := json [("model", .string "gpt"), ("stream", .bool true)]

/-- The request is admitted, and its row is inserted. -/
def admitActions : List Action :=
  [.start (.responses lowIdentity [] (some plainResponses)), .part 0 (.reply (.time midnight)),
    .part 0 (.reply .done), .part 0 .execute]

/-- The handler takes the row over, is dropped in the model lookup, and leaves it to a task. -/
def abandonActions : List Action :=
  [.part 0 (.reply .done), .part 0 (.reply .done), .part 0 .disconnect,
    .part 0 (.finalizer (some midnight))]

/-- The rows, the finalizations of the first one, and whether a part still cares for it. -/
def System.summary (s : System) : List Status × List FinalStatus × List Bool :=
  (s.shared.ledger.map (·.status), (s.shared.finalizationsOf 0).map (·.attempt.status),
    s.parts.map fun part => part.running || part.finalizing 0)

theorem System.started_of_summary (h : s.summary.1 = [.started]) : s.shared.Started 0 := by
  obtain ⟨row, hrow, hstatus⟩ := List.map_eq_singleton_iff.mp h
  exact ⟨row, by rw [hrow]; rfl, hstatus⟩

/-- The row of a request whose client has left is canceled, once. -/
theorem ledger_closed_abandoned : ∃ s t,
    CarefulRun lowConfig (fun _ => false) .init admitActions s ∧
      CarefulRun lowConfig (fun _ => false) s abandonActions t ∧
      t.summary = ([.final .canceled], [.canceled], [false]) ∧ t.Closes 0 := by
  let step : System → Action → Option System := fun s action =>
    if s.Careful action then systemStep lowConfig (fun _ => false) s action else none
  have hevaluated : ((exec step .init admitActions).bind fun s =>
      (exec step s abandonActions).map fun t => (s.summary, t.summary)) =
        some (([.started], [], [true]), ([.final .canceled], [.canceled], [false])) := by
    decide +kernel
  obtain ⟨s, hs, hevaluated⟩ := Option.bind_eq_some_iff.mp hevaluated
  obtain ⟨t, ht, hsummary⟩ := Option.map_eq_some_iff.mp hevaluated
  obtain ⟨hsummary, hsummary'⟩ := Prod.mk.inj hsummary
  have hstarted : s.shared.Started 0 := System.started_of_summary (congrArg Prod.fst hsummary)
  exact ⟨s, t, .of_guarded hs, .of_guarded ht, hsummary',
    (ledger_closed (.of_guarded hs) (.of_guarded ht) hstarted).1⟩

/-- **A row can be lost**: the handler is dropped between its `INSERT` and the answer to it. -/
theorem admitted_row_leaks : ¬ ∀ (config : Config) (isHttpDate : String → Bool) (s : System)
    (actions : List Action),
    Run (restrict (ofFun (systemStep config isHttpDate)) fun _ action => action.storeWorks = true)
      .init actions s → ∀ id, s.shared.Started id → s.Closes id := by
  intro hall
  have hevaluated : ((exec (systemStep lowConfig fun _ => false) .init
      (admitActions ++ [.part 0 .disconnect])).map System.summary) =
        some ([.started], [], [false]) := by
    decide +kernel
  obtain ⟨s, hs, hsummary⟩ := Option.map_eq_some_iff.mp hevaluated
  have hnone : (s.shared.finalizationsOf 0).map (·.attempt.status) = [] :=
    congrArg (fun summary => summary.2.1) hsummary
  have hstopped : (s.parts.map fun part => part.running || part.finalizing 0) = [false] :=
    congrArg (fun summary => summary.2.2) hsummary
  have hworks : ∀ action ∈ admitActions ++ [.part 0 .disconnect], action.storeWorks = true := by
    decide
  have hrun := (run_ofFun_iff.mpr hs).restrict_of_forall hworks
  rcases hall lowConfig (fun _ => false) s _ hrun 0
    (System.started_of_summary (congrArg Prod.fst hsummary)) with
    ⟨-, -, index, part, -, hpart, hcare⟩ | ⟨f, row, hf, -⟩
  · have hmem := List.mem_map_of_mem (f := fun part : Part => part.running || part.finalizing 0)
      (List.mem_of_getElem? hpart)
    rw [hstopped, List.mem_singleton, Bool.or_eq_false_iff] at hmem
    rw [hmem.1, hmem.2] at hcare
    rcases hcare with h | h <;> cases h
  · rw [hf] at hnone
    cases hnone

end CodexApi.Delivery
