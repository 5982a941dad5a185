import CodexApi.Delivery.Tracks

/-!
# The steps about rows

What a part knows stays true through its own steps: when a row is inserted, taken over by a
`PendingRequest`, closed by the part itself or by a finalizing task, and when the code is dropped.
-/

namespace CodexApi.Delivery

variable {sh sh' : Shared} {index parts : Nat} {part : Part} {v : View} {id : RequestId}

/-- A view is only told apart by what is not about rows. -/
theorem View.cause_book {effect : Effect} {reply : effect.Reply} :
    (v.book effect reply).cause = v.cause := by
  induction effect with
  | select closable effect ih =>
    cases reply with
    | shutdown | closed => rfl
    | done reply => exact ih
  | insert insertion =>
    cases reply with
    | error error => rfl
    | ok id => cases hadmitted : insertion.admitted <;> simp only [View.book, hadmitted]
  | plan | prewarmReply | finalize => cases reply <;> rfl
  | newPending | responseStarted | spawnFinalizer | model =>
    simp only [View.book]
    split <;> rfl
  | join =>
    simp only [View.book]
    split
    · split <;> rfl
    · rfl
  | _ => rfl

/-! ### The task is done -/

/-- The code is told how its finalizing task has ended. -/
theorem Tracks.join (ht : Tracks sh index part v) (hcode : part.code.isSome = true) {row : Admitted}
    {attempts : List Attempt} {ok : Bool} (hclosing : v.pending = .closing row attempts)
    (hclosed : part.custody = .closed id ok) : Tracks sh index part (v.book .join ok) := by
  have hpending : Closing sh part.custody part.storeFailed row v.cause attempts := by
    have hpending := ht.pending hcode
    unfold PendingIn at hpending
    rwa [hclosing] at hpending
  have hid : row.id ∈ v.ids := hpending.mem_ids ht.custody
  have habsent : ∀ id httpStatus, part.custody ≠ .guarded id httpStatus := by
    intro id httpStatus h
    rw [hclosed] at h
    cases h
  cases hpending with
  | running h | retrying h =>
    rw [hclosed] at h
    cases h
  | succeeded h hbooked =>
    rw [hclosed] at h
    cases h
    simp only [View.book, hclosing, if_true]
    exact { ht with
      pending := fun _ => habsent
      custody := ht.custody.of_subset (List.Subset.refl _)
      closure := ⟨hid, hbooked⟩ }
  | retried h hrecorded =>
    rw [hclosed] at h
    cases h
    simp only [View.book, hclosing, Bool.false_eq_true, if_false]
    exact { ht with
      pending := fun _ => habsent
      custody := ht.custody.of_subset (List.Subset.refl _)
      closure := ⟨hid, hrecorded⟩
      storeFailed := fun h => ht.storeFailed (by simpa using h) }
  | failed h hfailed =>
    rw [hclosed] at h
    cases h
    simp only [View.book, hclosing, Bool.false_eq_true, if_false]
    exact { ht with
      pending := fun _ => habsent
      custody := ht.custody.of_subset (List.Subset.refl _)
      closure := ⟨hid, .inl hfailed⟩
      storeFailed := fun _ => hfailed }

/-! ### Insertions -/

section

variable {insertion : Insertion} (ht : Tracks sh index part v)
  (hexecuted : part.inserting = .executed id) (hrow : sh.ledger[id]? = some insertion.row)
  (hsound : insertion.Sound)

include ht hexecuted

theorem Tracks.owns_executed {id' : RequestId} (hid : id' ∈ v.ids ++ [id]) :
    sh.owners[id']? = some index := by
  refine ht.owns id' ?_
  rw [hexecuted]
  rcases List.mem_append.mp hid with hid | hid
  · exact .inl hid
  · exact .inr (by rw [List.mem_singleton.mp hid]; rfl)

theorem Tracks.owned_executed {id' : RequestId} (howner : sh.owners[id']? = some index) :
    id' ∈ v.ids ++ [id] ∨ part.storeFailed = true := by
  rcases ht.owned id' howner with hid | hid | hfailed
  · exact .inl (List.mem_append_left _ hid)
  · rw [hexecuted] at hid
    exact .inl (List.mem_append_right _ (List.mem_singleton.mpr (Option.some.inj hid).symm))
  · exact .inr hfailed

include hrow hsound

/-- The code is told that its rejection is recorded. -/
theorem Tracks.insert_rejected (hadmitted : insertion.admitted = none) :
    Tracks sh index { part with inserting := .idle } { v with
      ids := v.ids ++ [id]
      closure := some (.rejection id insertion.row.httpStatus) } := by
  have hrejected : sh.Rejected id insertion.row.httpStatus :=
    ⟨_, hrow, hsound.rejected hadmitted, rfl⟩
  have hsettled : sh.Settled id := by
    obtain ⟨row, hrow, hstatus, -⟩ := hrejected
    exact ⟨row, hrow, by rw [hstatus]; exact fun h => by cases h⟩
  have hids : v.ids ⊆ v.ids ++ [id] := List.subset_append_left _ _
  exact { ht with
    owns := fun id' hid => ht.owns_executed hexecuted (hid.resolve_right fun h => by cases h)
    owned := fun id' howner => (ht.owned_executed hexecuted howner).imp_right .inr
    fresh := fun id' h => by cases h
    pending := fun hcode => ht.pending hcode
    custody := ht.custody.of_subset hids
    closure := ⟨List.mem_append_right _ (List.mem_singleton_self id), hrejected⟩
    settled := fun id' hid => by
      rcases List.mem_append.mp hid with hid | hid
      · exact ht.settled id' hid
      · exact .inl (List.mem_singleton.mp hid ▸ hsettled)
    finalized := fun f hf howner => (ht.finalized f hf howner).imp_left fun h => hids h }

/-- The code is told that its request is admitted. -/
theorem Tracks.insert_admitted {model : EffectiveModel} (hadmitted : insertion.admitted = some model)
    (hfree : part.custody = .free) (dispatching : Bool) :
    Tracks sh index { part with inserting := .idle } { v with
      ids := v.ids ++ [id], held := v.held ++ [⟨id, model⟩], dispatching } := by
  have hstarted : sh.Started id := ⟨_, hrow, (hsound.started model hadmitted).1⟩
  have hids : v.ids ⊆ v.ids ++ [id] := List.subset_append_left _ _
  exact { ht with
    owns := fun id' hid => ht.owns_executed hexecuted (hid.resolve_right fun h => by cases h)
    owned := fun id' howner => (ht.owned_executed hexecuted howner).imp_right .inr
    fresh := fun id' h => by cases h
    held := fun row hrow => by
      rcases List.mem_append.mp hrow with hrow | hrow
      · exact ht.held row hrow
      · rw [List.mem_singleton.mp hrow]
        exact hstarted
    pending := fun hcode => ht.pending hcode
    custody := ht.custody.of_subset hids
    closure := ht.closure.of_subset hids rfl rfl
    settled := fun id' hid => by
      rcases List.mem_append.mp hid with hid | hid
      · refine (ht.settled id' hid).imp_right (Or.imp_right (Or.imp_left ?_))
        rintro ⟨row, hrow, hid⟩
        exact ⟨row, List.mem_append_left _ hrow, hid⟩
      · exact .inr (.inr (.inl ⟨_, List.mem_append_right _ (List.mem_singleton_self _),
          (List.mem_singleton.mp hid).symm⟩))
    apart := .inl hfree
    finalized := fun f hf howner => (ht.finalized f hf howner).imp_left fun h => hids h }

end

/-- The code is told that the store has failed to insert its row. -/
theorem Tracks.insert_failed (ht : Tracks sh index part v) :
    Tracks sh index { part.failStore with inserting := .idle }
      { v with spoiled := true, storeFailed := true } where
  owns := fun id' hid => ht.owns id' (.inl (hid.resolve_right fun h => by cases h))
  owned := fun _ _ => .inr (.inr rfl)
  fresh := fun id' h => by cases h
  held := ht.held
  pending := fun hcode => (ht.pending hcode).mono ht.custody (.refl _ _) rfl fun _ => rfl
  custody := ht.custody.mono (.refl _ _) (fun _ _ h => h) rfl rfl fun _ => rfl
  closure := ht.closure.mono (.refl _ _) fun _ => rfl
  storeFailed := fun _ => rfl
  settled := fun _ _ => .inr (.inl rfl)
  apart := ht.apart
  webSocket := ht.webSocket
  finalized := ht.finalized
  shutdown := ht.shutdown

/-- The custody of an HTTP operation without rows is free. -/
theorem Tracks.custody_free (ht : Tracks sh index part v) (hids : v.ids = []) :
    part.custody = .free := by
  have hnot : ∀ id, part.custody.row? ≠ some id := fun id h => by
    have := ht.custody.mem_ids h
    rw [hids] at this
    cases this
  cases hcustody : part.custody with
  | free => rfl
  | guarded id | closing id | closed id => exact absurd (by rw [hcustody]; rfl) (hnot id)

/-! ### The `PendingRequest` -/

/-- A `PendingRequest` takes a row over. -/
theorem Tracks.newPending (ht : Tracks sh index part v) (hv : v.Sound part.path) {row : Admitted}
    (hpath : part.path ≠ .webSocket) (hheld : v.held = [row]) :
    Tracks sh index { part with custody := .guarded row.id none }
      { v with held := [], pending := .opened row none } := by
  have hmem : row ∈ v.held := by simp [hheld]
  have hfree : part.custody = .free := ht.apart.resolve_right (by simp [hheld])
  exact { ht with
    held := fun row' h => by cases h
    pending := fun _ => rfl
    custody := ⟨hv.owned row hmem, ht.held row hmem, by simp⟩
    closure := ht.closure
    settled := fun id hid => by
      rcases ht.settled id hid with h | h | ⟨row', hrow', rfl⟩ | h
      · exact .inl h
      · exact .inr (.inl h)
      · rw [hheld] at hrow'
        rw [List.mem_singleton.mp hrow']
        exact .inr (.inr (.inr rfl))
      · rw [hfree] at h
        cases h
    apart := .inr rfl
    webSocket := fun h => absurd h hpath }

/-- Where the code has an open `PendingRequest`, that is the custody. -/
theorem Tracks.guarded (ht : Tracks sh index part v) (hcode : part.code.isSome = true)
    {row : Admitted} {started : Option Nat} (hopened : v.pending = .opened row started) :
    part.custody = .guarded row.id started := by
  have hpending := ht.pending hcode
  unfold PendingIn at hpending
  rwa [hopened] at hpending

/-- The response of an operation has started. -/
theorem Tracks.responseStarted (ht : Tracks sh index part v) (hcode : part.code.isSome = true)
    {row : Admitted} {started : Option Nat} {httpStatus : Nat}
    (hopened : v.pending = .opened row started) (hlow : 100 ≤ httpStatus) (hhigh : httpStatus ≤ 599) :
    Tracks sh index { part with custody := .guarded row.id (some httpStatus) }
      { v with pending := .opened row (some httpStatus) } := by
  have hguarded := ht.guarded hcode hopened
  have hcustody := ht.custody
  unfold CustodyIn at hcustody
  rw [hguarded] at hcustody
  exact { ht with
    pending := fun _ => rfl
    custody := ⟨hcustody.1, hcustody.2.1, by rintro status ⟨⟩; exact ⟨hlow, hhigh⟩⟩
    closure := ht.closure
    settled := fun id hid => (ht.settled id hid).imp_right (Or.imp_right (Or.imp_right fun h => by
      rw [hguarded] at h
      exact h))
    apart := .inr (ht.apart.resolve_left (by simp [hguarded]))
    webSocket := fun h => by
      rw [ht.webSocket h] at hguarded
      cases hguarded }

/-- A task takes a row over from its `PendingRequest`. -/
theorem Tracks.closing (ht : Tracks sh index part v) {httpStatus : Option Nat}
    {attempts : List Attempt} {word : Word} {pending : Pending} (code : Option (Code Unit))
    {inserting : Inserting} (connected : Bool) (hguarded : part.custody = .guarded id httpStatus)
    (hordered : Ordered attempts) (hword : word.Sound)
    (hjustified : ∃ rates, ∀ attempt ∈ attempts, Justified part.path word.cause rates attempt)
    (hinserting : inserting.row? = part.inserting.row?)
    (hpending : code.isSome = true → PendingIn sh
      { part with custody := .closing id attempts false word } { v with pending }) :
    Tracks sh index
      { part with custody := .closing id attempts false word, code, inserting, connected }
      { v with pending } := by
  have hcustody := ht.custody
  unfold CustodyIn at hcustody
  rw [hguarded] at hcustody
  exact { ht with
    owns := by rw [hinserting]; exact ht.owns
    owned := by rw [hinserting]; exact ht.owned
    fresh := by rw [hinserting]; exact ht.fresh
    pending := hpending
    custody := ⟨hcustody.1, hcustody.2.1, .fresh hordered, hword, hjustified⟩
    closure := ht.closure
    settled := fun id hid => (ht.settled id hid).imp_right (Or.imp_right (Or.imp_right fun h => by
      rw [hguarded] at h
      exact h))
    apart := .inr (ht.apart.resolve_left (by simp [hguarded]))
    webSocket := fun h => by
      rw [ht.webSocket h] at hguarded
      cases hguarded }

/-- The finalizing task of a request starts. -/
theorem Tracks.spawnFinalizer (ht : Tracks sh index part v) (hcode : part.code.isSome = true)
    {row : Admitted} {started : Option Nat} {attempts : List Attempt} {word : Word}
    (hopened : v.pending = .opened row started) (hordered : Ordered attempts) (hword : word.Sound)
    (hcause : word.cause = v.cause)
    (hjustified : ∀ attempt ∈ attempts, Justified part.path v.cause row.model.rates attempt) :
    Tracks sh index { part with custody := .closing row.id attempts false word }
      { v with pending := .closing row attempts } := by
  refine ht.closing part.code part.connected (ht.guarded hcode hopened) hordered hword
    ⟨_, hcause ▸ hjustified⟩ rfl fun _ => ?_
  cases hordered with
  | single | fallback => exact .running rfl fun terminal h => hcause.trans h

/-- The `PendingRequest` is dropped, by its scope or with the future of its handler. -/
theorem Tracks.orderDrop (ht : Tracks sh index part v) {word : Word} {pending : Pending}
    (code : Option (Code Unit)) {inserting : Inserting} (connected : Bool) (hword : word.Sound)
    (hjustified : ∀ id httpStatus, part.custody = .guarded id httpStatus →
      ∃ rates, Justified part.path word.cause rates ⟨.canceled, httpStatus, none⟩)
    (hinserting : inserting.row? = part.inserting.row?)
    (hpending : code.isSome = true → pending = .absent) :
    Tracks sh index { part with custody := part.orderDrop word, code, inserting, connected }
      { v with pending } := by
  by_cases hguarded : ∃ id httpStatus, part.custody = .guarded id httpStatus
  · obtain ⟨id, httpStatus, hguarded⟩ := hguarded
    have horder : part.orderDrop word = .closing id [⟨.canceled, httpStatus, none⟩] false word := by
      simp only [Part.orderDrop, hguarded]
    obtain ⟨rates, hrates⟩ := hjustified id httpStatus hguarded
    rw [horder]
    refine ht.closing code connected hguarded (.single rfl) hword ⟨rates, by simpa using hrates⟩
      hinserting fun hcode => ?_
    rw [hpending hcode]
    exact fun _ _ h => by cases h
  · have horder : part.orderDrop word = part.custody := by
      unfold Part.orderDrop
      split
      · exact absurd ⟨_, _, ‹_›⟩ hguarded
      · rfl
    rw [horder]
    exact { ht with
      owns := by rw [hinserting]; exact ht.owns
      owned := by rw [hinserting]; exact ht.owned
      fresh := by rw [hinserting]; exact ht.fresh
      pending := fun hcode => by
        rw [hpending hcode]
        exact fun id httpStatus h => hguarded ⟨id, httpStatus, h⟩
      custody := ht.custody
      closure := ht.closure }

/-! ### Finalizations -/

section

variable {f : Finalization} {row : Row}

theorem Shared.Started.finish (hs : sh.Started id) (hne : f.id ≠ id) : (sh.finish f row).Started id := by
  obtain ⟨row', hrow', hstarted⟩ := hs
  exact ⟨row', by simpa [List.getElem?_set_ne hne] using hrow', hstarted⟩

theorem Shared.Started.settled_finish (hs : sh.Started f.id) (hrow : row.FinishedBy f.attempt) :
    (sh.finish f row).Settled f.id := by
  obtain ⟨row', hrow', -⟩ := hs
  exact ⟨row, by
    simp [List.getElem?_set_self (List.getElem?_eq_some_iff.mp hrow').1],
    hrow.not_started⟩

/-- A row of a part is finalized. -/
theorem Shared.Started.evolves (hs : sh.Started f.id) (howner : sh.owners[f.id]? = some index)
    (hrow : row.FinishedBy f.attempt) : sh.Evolves index (sh.finish f row) := by
  obtain ⟨row', hrow', hstarted⟩ := hs
  exact .finalized f howner hrow' hstarted hrow

/-- The finalizations of a part after one more. -/
theorem Tracks.finalized_finish (ht : Tracks sh index part v) (hid : f.id ∈ v.ids)
    (hfits : f.Fits part.path) (f' : Finalization) (hf' : f' ∈ (sh.finish f row).finalized)
    (howner : (sh.finish f row).owners[f'.id]? = some index) :
    f'.id ∈ v.ids ∧ f'.Fits part.path := by
  rcases List.mem_append.mp hf' with hf' | hf'
  · exact ht.finalized f' hf' howner
  · rw [List.mem_singleton.mp hf']
    exact ⟨hid, hfits⟩

/-- **A WebSocket session finalizes a row that it holds.** -/
theorem Tracks.finalize (ht : Tracks sh index part v) (hv : v.Sound part.path)
    (hpath : part.path = .webSocket) {held : Admitted} (hheld : held ∈ v.held)
    (hid : held.id = f.id) (hfits : f.Fits part.path) (hcause : f.word.cause = v.cause)
    (hrow : row.FinishedBy f.attempt) :
    Tracks (sh.finish f row) index part (v.book (.finalize f.id f.attempt) (.ok ())) := by
  have hmem : f.id ∈ v.ids := hid ▸ hv.owned held hheld
  have hstarted : sh.Started f.id := hid ▸ ht.held held hheld
  have hgrows := (hstarted.evolves (ht.owner hmem) hrow).grows v.ids
  have hfree : part.custody = .free := ht.webSocket hpath
  exact {
    owns := ht.owns
    owned := ht.owned
    fresh := ht.fresh
    held := fun row' hrow' => by
      obtain ⟨hrow', hne⟩ := List.mem_filter.mp hrow'
      exact (ht.held row' hrow').finish fun h => by simp [h] at hne
    pending := fun _ => by
      unfold PendingIn
      rw [show (v.book (.finalize f.id f.attempt) (.ok ())).pending = v.pending from rfl,
        hv.webSocket hpath]
      exact fun id httpStatus h => by rw [hfree] at h; cases h
    custody := by
      unfold CustodyIn
      rw [hfree]
      trivial
    closure := by
      unfold ClosureIn
      simp only [View.book]
      cases hfind : v.held.find? (·.id = f.id) with
      | none => trivial
      | some row' =>
        have hid' : row'.id = f.id := by simpa using List.find?_some hfind
        refine ⟨hv.owned row' (List.mem_of_find?_eq_some hfind), f,
          List.mem_append_right _ (List.mem_singleton_self f), hid'.symm, rfl, ?_⟩
        exact fun terminal h => hcause.trans h
    storeFailed := ht.storeFailed
    settled := fun id hid => by
      by_cases heq : f.id = id
      · exact .inl (heq ▸ hstarted.settled_finish hrow)
      · refine (ht.settled id hid).imp (hgrows.settled id hid) (Or.imp_right (Or.imp_left ?_))
        rintro ⟨row', hrow', rfl⟩
        exact ⟨row', List.mem_filter.mpr ⟨hrow', by simpa using fun h => heq h.symm⟩, rfl⟩
    apart := .inl hfree
    webSocket := ht.webSocket
    finalized := ht.finalized_finish hmem hfits
    shutdown := ht.shutdown }

/-- **A finalizing task closes its row.** -/
theorem Tracks.task_succeeds (ht : Tracks sh index part v) {attempts : List Attempt}
    (hclosing : part.custody = .closing f.id (f.attempt :: attempts) f.retry f.word)
    (hrow : row.FinishedBy f.attempt) :
    f.Fits part.path ∧ sh.Evolves index (sh.finish f row) ∧
      Tracks (sh.finish f row) index { part with custody := .closed f.id !f.retry } v := by
  have hcustody := ht.custody
  unfold CustodyIn at hcustody
  rw [hclosing] at hcustody
  obtain ⟨hid, hstarted, hleft, hword, rates, hjustified⟩ := hcustody
  have hfits : f.Fits part.path := by
    refine ⟨hword, ⟨rates, hjustified _ List.mem_cons_self⟩, fun hretry => ?_⟩
    rw [hretry] at hleft
    generalize hall : f.attempt :: attempts = all at hleft
    cases hleft
    rw [(List.cons.inj hall).1]
    exact ⟨rfl, rfl⟩
  have hevolves := hstarted.evolves (ht.owner hid) hrow
  have hgrows := hevolves.grows v.ids
  have hheld : v.held = [] := ht.apart.resolve_left (by simp [hclosing])
  refine ⟨hfits, hevolves, { ht with
    held := fun row' hrow' => by rw [hheld] at hrow'; cases hrow'
    pending := fun hcode => ?_
    custody := ⟨hid, .inr (hstarted.settled_finish hrow)⟩
    closure := ht.closure.mono hgrows fun h => h
    settled := fun id hid => by
      refine (ht.settled id hid).imp (hgrows.settled id hid) (Or.imp_right (Or.imp_right fun h => ?_))
      rw [hclosing] at h
      exact h
    apart := .inr hheld
    webSocket := fun h => by rw [ht.webSocket h] at hclosing; cases hclosing
    finalized := ht.finalized_finish hid hfits }⟩
  have hf : f ∈ (sh.finish f row).finalized := List.mem_append_right _ (List.mem_singleton_self f)
  have hpending := ht.pending hcode
  unfold PendingIn at hpending ⊢
  cases hv : v.pending with
  | absent => exact fun _ _ h => by cases h
  | opened row' httpStatus =>
    rw [hv, hclosing] at hpending
    cases hpending
  | closing row' attempts' =>
    rw [hv, hclosing] at hpending
    simp only at hpending ⊢
    cases hpending with
    | running h hprecedes =>
      simp only [Custody.closing.injEq, List.cons.injEq] at h
      obtain ⟨hid, ⟨hattempt, -⟩, hretry, hword⟩ := h
      rw [hretry, hid]
      exact .succeeded rfl ⟨f, hf, hid, hattempt, hword ▸ hprecedes⟩
    | retrying h =>
      simp only [Custody.closing.injEq, List.cons.injEq] at h
      obtain ⟨hid, ⟨hattempt, -⟩, hretry, -⟩ := h
      rw [hretry, hid]
      exact .retried rfl (.inr ⟨f, hf, hid, hattempt⟩)
    | succeeded h | retried h | failed h => cases h

end

/-- A finalizing task has failed for the last time: the store has failed. -/
theorem Tracks.task_fails (ht : Tracks sh index part v) {attempt : Attempt} {retry : Bool}
    {word : Word} (hclosing : part.custody = .closing id [attempt] retry word) :
    Tracks sh index { part.failStore with custody := .closed id false } v := by
  have hcustody := ht.custody
  unfold CustodyIn at hcustody
  rw [hclosing] at hcustody
  exact {
    owns := ht.owns
    owned := fun id howner => (ht.owned id howner).imp_right (Or.imp_right fun _ => rfl)
    fresh := ht.fresh
    held := ht.held
    pending := fun hcode => by
      have hpending := ht.pending hcode
      unfold PendingIn at hpending ⊢
      cases hv : v.pending with
      | absent => exact fun _ _ h => by cases h
      | opened row' httpStatus =>
        rw [hv, hclosing] at hpending
        cases hpending
      | closing row' attempts' =>
        rw [hv, hclosing] at hpending
        simp only at hpending ⊢
        cases hpending with
        | running h =>
          cases h
          exact .failed rfl rfl
        | retrying h =>
          cases h
          exact .retried rfl (.inl rfl)
        | succeeded h | retried h | failed h => cases h
    custody := ⟨hcustody.1, .inl rfl⟩
    closure := ht.closure.mono (.refl _ _) fun _ => rfl
    storeFailed := fun _ => rfl
    settled := fun _ _ => .inr (.inl rfl)
    apart := .inr (ht.apart.resolve_left (by simp [hclosing]))
    webSocket := fun h => by rw [ht.webSocket h] at hclosing; cases hclosing
    finalized := ht.finalized
    shutdown := ht.shutdown }

/-- A finalizing task has failed once, and tries again. -/
theorem Tracks.task_retries (ht : Tracks sh index part v) {first second : Attempt}
    {attempts : List Attempt} {retry storeFailed : Bool} {word : Word}
    (hclosing : part.custody = .closing id (first :: second :: attempts) retry word)
    (hstore : part.storeFailed = true → storeFailed = true) :
    Tracks sh index
      { part with custody := .closing id (second :: attempts) true word, storeFailed } v := by
  have hcustody := ht.custody
  unfold CustodyIn at hcustody
  rw [hclosing] at hcustody
  obtain ⟨hid, hstarted, hleft, hword, rates, hjustified⟩ := hcustody
  obtain ⟨rfl, httpStatus, rfl, rfl⟩ : retry = false ∧ ∃ httpStatus,
      second = ⟨.upstreamError, some httpStatus, none⟩ ∧ attempts = [] := by
    cases hleft with
    | fresh hordered =>
      cases hordered with
      | fallback attempt httpStatus => exact ⟨rfl, httpStatus, rfl, rfl⟩
  exact {
    owns := ht.owns
    owned := fun id howner => (ht.owned id howner).imp_right (Or.imp_right hstore)
    fresh := ht.fresh
    held := ht.held
    pending := fun hcode => by
      have hpending := ht.pending hcode
      unfold PendingIn at hpending ⊢
      cases hv : v.pending with
      | absent => exact fun _ _ h => by cases h
      | opened row' httpStatus =>
        rw [hv, hclosing] at hpending
        cases hpending
      | closing row' attempts' =>
        rw [hv, hclosing] at hpending
        simp only at hpending ⊢
        cases hpending with
        | running h =>
          cases h
          exact .retrying rfl
        | retrying h => cases h
        | succeeded h | retried h | failed h => cases h
    custody := ⟨hid, hstarted, .retry httpStatus, hword, rates,
      fun attempt hattempt => hjustified attempt (List.mem_cons_of_mem _ hattempt)⟩
    closure := ht.closure.mono (.refl _ _) hstore
    storeFailed := fun h => hstore (ht.storeFailed h)
    settled := fun id hid => by
      refine (ht.settled id hid).imp_right (Or.imp hstore (Or.imp_right fun h => ?_))
      rw [hclosing] at h
      exact h
    apart := .inr (ht.apart.resolve_left (by simp [hclosing]))
    webSocket := fun h => by rw [ht.webSocket h] at hclosing; cases hclosing
    finalized := ht.finalized
    shutdown := ht.shutdown }

/-- **An attempt of a finalizing task.** -/
theorem Tracks.finalizer (ht : Tracks sh index part v) {now : Option OffsetDateTime} {part' : Part}
    (h : part.finalizer sh now = some (sh', part')) :
    sh.Evolves index sh' ∧ Tracks sh' index part' v := by
  unfold Part.finalizer at h
  split at h
  swap
  · cases h
  rename_i id attempt attempts retry word hclosing
  have hcustody := ht.custody
  unfold CustodyIn at hcustody
  rw [hclosing] at hcustody
  obtain ⟨-, hstarted, hleft, -, rates, hjustified⟩ := hcustody
  cases now with
  | none =>
    simp only [Option.isNone_none, if_true, Option.some.injEq, Prod.mk.injEq] at h
    obtain ⟨rfl, rfl⟩ := h
    refine ⟨.same, ?_⟩
    cases attempts with
    | nil => exact ht.task_fails hclosing
    | cons second attempts => exact ht.task_retries hclosing fun _ => rfl
  | some now =>
    simp only [Option.isNone_some, Bool.false_eq_true, if_false] at h
    cases hresult : finalizeRequest now sh.ledger id attempt.status attempt.httpStatus
        attempt.usage with
    | ok ledger =>
      simp only [hresult, Except.toOption, Option.some.injEq, Prod.mk.injEq] at h
      obtain ⟨rfl, rfl⟩ := h
      obtain ⟨row, row', -, -, hfinished, rfl⟩ := finishedBy_of_finalizeRequest hresult
      obtain ⟨-, hevolves, htracks⟩ :=
        ht.task_succeeds (f := ⟨id, attempt, retry, word⟩) hclosing hfinished
      exact ⟨hevolves, htracks⟩
    | error error =>
      simp only [hresult, Except.toOption, Option.some.injEq, Prod.mk.injEq] at h
      obtain ⟨rfl, rfl⟩ := h
      refine ⟨.same, ?_⟩
      cases attempts with
      | cons second attempts => exact ht.task_retries hclosing fun h => h
      | nil =>
        -- The only attempt left has no usage, so it cannot fail on a started row.
        have husage : attempt.usage = none := by
          cases hleft with
          | fresh hordered =>
            cases hordered with
            | single husage => exact husage
          | retry httpStatus => rfl
        obtain ⟨row, hrow, hrowStarted⟩ := hstarted
        obtain ⟨ledger, hledger⟩ := finalizeRequest_of_started now hrow hrowStarted husage
          (hjustified attempt (List.mem_singleton_self _)).httpStatus
        rw [hresult] at hledger
        cases hledger

/-! ### Executed insertions -/

/-- The database executes an `INSERT` of the part. -/
theorem Tracks.insertInto (ht : Tracks sh index part v) (hb : sh.Books parts)
    (hnew : part.inserting.row? = none) {row : Row} {inserting : RequestId → Inserting}
    (hrow : ∀ id, (inserting id).row? = some id) {part' : Part}
    (h : part.insertInto sh index row inserting = some (sh', part')) :
    sh.Evolves index sh' ∧ sh'.ledger[sh.ledger.length]? = some row ∧
      part' = { part with inserting := inserting sh.ledger.length } ∧ Tracks sh' index part' v := by
  unfold Part.insertInto at h
  cases hinsert : insertRow sh.ledger row with
  | error error =>
    rw [hinsert] at h
    cases h
  | ok ledger =>
    rw [hinsert] at h
    obtain ⟨-, rfl⟩ := insertRow_eq_ok.mp hinsert
    cases h
    have hevolves : sh.Evolves index
        { sh with ledger := sh.ledger ++ [row], owners := sh.owners ++ [index] } := .inserted row
    have hgrows := hevolves.grows v.ids
    have hstarted : ∀ id, sh.Started id → Shared.Started
        { sh with ledger := sh.ledger ++ [row], owners := sh.owners ++ [index] } id := by
      rintro id ⟨row', hrow', hs⟩
      exact ⟨row', getElem?_append_of_some _ hrow', hs⟩
    refine ⟨hevolves, by simp, rfl, ?_⟩
    exact {
      owns := fun id hid => by
        rcases hid with hid | hid
        · exact getElem?_append_of_some _ (ht.owner hid)
        · rw [hrow] at hid
          cases hid
          simp [← hb.length]
      owned := fun id howner => by
        rcases getElem?_append_singleton_cases howner with howner | ⟨rfl, -⟩
        · rcases ht.owned id howner with hid | hid | hfailed
          · exact .inl hid
          · rw [hnew] at hid
            cases hid
          · exact .inr (.inr hfailed)
        · exact .inr (.inl (by rw [hrow, hb.length]))
      fresh := fun id hid hmem => by
        rw [hrow] at hid
        cases hid
        exact lt_irrefl _ (hb.owner_lt (ht.owner hmem))
      held := fun row' hrow' => hstarted _ (ht.held row' hrow')
      pending := fun hcode => (ht.pending hcode).mono ht.custody hgrows rfl fun h => h
      custody := ht.custody.mono hgrows (fun id _ => hstarted id) rfl rfl fun h => h
      closure := ht.closure.mono hgrows fun h => h
      storeFailed := ht.storeFailed
      settled := fun id hid => (ht.settled id hid).imp_left (hgrows.settled id hid)
      apart := ht.apart
      webSocket := ht.webSocket
      finalized := fun f hf howner => by
        rcases getElem?_append_singleton_cases howner with howner | ⟨hid, -⟩
        · exact ht.finalized f hf howner
        · obtain ⟨row', hrow', -⟩ := hb.finished f hf
          rw [hid, hb.length] at hrow'
          simp at hrow'
      shutdown := ht.shutdown }

end CodexApi.Delivery
