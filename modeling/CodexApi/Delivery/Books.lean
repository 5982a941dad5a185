import CodexApi.Delivery.Machine
import CodexApi.Lib.List

/-!
# What a step does to the ledger

A step of a part leaves what all parts share as it is, appends a row of its own, or finalizes one of
its own rows that is still started (`Shared.Evolves`). From this, every finalization shows in its
row, no row is finalized twice, a row that is not started does not change any more, and a part sees
nothing of the steps of the others (`Shared.Keeps`).
-/

namespace CodexApi

/-- The row shows an attempt: its status, its HTTP status, and the charge of its usage. -/
structure Row.FinishedBy (row : Row) (attempt : Delivery.Attempt) : Prop where
  status : row.status = .final attempt.status
  httpStatus : row.httpStatus = attempt.httpStatus
  charged : ∃ charge, chargeOption attempt.usage = .ok charge ∧
    row.inputTokens = charge.map (·.inputTokens) ∧
    row.cachedInputTokens = charge.map (·.cachedInputTokens) ∧
    row.outputTokens = charge.map (·.outputTokens) ∧ row.costNanoUsd = charge.map (·.costNanoUsd)

theorem Row.FinishedBy.not_started {row : Row} {attempt : Delivery.Attempt}
    (h : row.FinishedBy attempt) : row.status ≠ .started := by
  rw [h.status]
  exact fun h => by cases h

namespace Delivery

section

variable {now : OffsetDateTime} {ledger ledger' : Ledger} {id : RequestId} {attempt : Attempt}

/-- A successful `finalize_request` replaces a started row by one that shows the attempt. -/
theorem finishedBy_of_finalizeRequest
    (h : finalizeRequest now ledger id attempt.status attempt.httpStatus attempt.usage =
      .ok ledger') :
    ∃ row row', ledger[id]? = some row ∧ row.status = .started ∧ row'.FinishedBy attempt ∧
      ledger' = ledger.set id row' := by
  obtain ⟨row, charge, hrow, hstarted, hcharge, -, rfl⟩ := finalizeRequest_eq_ok.mp h
  exact ⟨row, _, hrow, hstarted, ⟨rfl, rfl, charge, hcharge, rfl, rfl, rfl, rfl⟩, rfl⟩

/-- Without usage, a started row can be finalized. -/
theorem finalizeRequest_of_started (now : OffsetDateTime) {row : Row} (hrow : ledger[id]? = some row)
    (hstarted : row.status = .started) (husage : attempt.usage = none)
    (hstatus : ∀ status ∈ attempt.httpStatus, 100 ≤ status ∧ status ≤ 599) :
    ∃ ledger', finalizeRequest now ledger id attempt.status attempt.httpStatus attempt.usage =
      .ok ledger' := by
  refine ⟨_, finalizeRequest_eq_ok.mpr ⟨row, none, hrow, hstarted, by rw [husage]; rfl, ?_, rfl⟩⟩
  exact checks_finish.mpr ⟨le_max_right _ _, by simp, hstatus⟩

end

namespace Shared

/-- A row is finalized. -/
def finish (sh : Shared) (f : Finalization) (row : Row) : Shared :=
  { sh with ledger := sh.ledger.set f.id row, finalized := sh.finalized ++ [f] }

section

variable {sh : Shared} {f : Finalization} {row : Row}

@[simp]
theorem finish_ledger : (sh.finish f row).ledger = sh.ledger.set f.id row := rfl

@[simp]
theorem finish_owners : (sh.finish f row).owners = sh.owners := rfl

@[simp]
theorem finish_finalized : (sh.finish f row).finalized = sh.finalized ++ [f] := rfl

end

/-- What a step of a part does to what all parts share. -/
inductive Evolves (index : Nat) (sh : Shared) : Shared → Prop
  | same : Evolves index sh sh
  | inserted (row : Row) :
    Evolves index sh { sh with ledger := sh.ledger ++ [row], owners := sh.owners ++ [index] }
  | finalized (f : Finalization) {row row' : Row} (howner : sh.owners[f.id]? = some index)
    (hrow : sh.ledger[f.id]? = some row) (hstarted : row.status = .started)
    (hfinished : row'.FinishedBy f.attempt) : Evolves index sh (sh.finish f row')

/-- The books are in order: every row has an owner among the parts, and every finalization shows in
its row and is the only one of that row. -/
structure Books (sh : Shared) (parts : Nat) : Prop where
  length : sh.owners.length = sh.ledger.length
  owners : ∀ index ∈ sh.owners, index < parts
  finished : ∀ f ∈ sh.finalized, ∃ row, sh.ledger[f.id]? = some row ∧ row.FinishedBy f.attempt
  nodup : (sh.finalized.map (·.id)).Nodup

/-- The row is started. -/
def Started (sh : Shared) (id : RequestId) : Prop :=
  ∃ row, sh.ledger[id]? = some row ∧ row.status = .started

/-- The row is not started any more, or never was. -/
def Settled (sh : Shared) (id : RequestId) : Prop :=
  ∃ row, sh.ledger[id]? = some row ∧ row.status ≠ .started

/-- The row is rejected with an HTTP status. -/
def Rejected (sh : Shared) (id : RequestId) (httpStatus : Option Nat) : Prop :=
  ∃ row, sh.ledger[id]? = some row ∧ row.status = .final .rejected ∧ row.httpStatus = httpStatus

/-- The row is finalized by an attempt. -/
def Recorded (sh : Shared) (id : RequestId) (attempt : Attempt) : Prop :=
  ∃ f ∈ sh.finalized, f.id = id ∧ f.attempt = attempt

/-- What a part sees of the steps of the others: nothing but the shutdown. -/
structure Keeps (index : Nat) (sh sh' : Shared) : Prop where
  owners : ∀ id : RequestId, sh'.owners[id]? = some index ↔ sh.owners[id]? = some index
  ledger : ∀ id : RequestId, sh.owners[id]? = some index → sh'.ledger[id]? = sh.ledger[id]?
  finalized : ∀ f, sh.owners[f.id]? = some index → (f ∈ sh'.finalized ↔ f ∈ sh.finalized)
  shutdown : sh.shutdown = true → sh'.shutdown = true

variable {sh sh' : Shared} {index parts : Nat} {id : RequestId} {row : Row}

/-! ### The books -/

/-- A row that is not started is only in the books if it is finished. -/
theorem Books.not_mem_of_started (hb : sh.Books parts) (hrow : sh.ledger[id]? = some row)
    (hstarted : row.status = .started) : id ∉ sh.finalized.map (·.id) := by
  intro hmem
  obtain ⟨f, hf, rfl⟩ := List.mem_map.mp hmem
  obtain ⟨row', hrow', hfinished⟩ := hb.finished f hf
  rw [hrow] at hrow'
  cases hrow'
  exact hfinished.not_started hstarted

theorem Books.settled_of_mem (hb : sh.Books parts) {f : Finalization} (hf : f ∈ sh.finalized) :
    sh.Settled f.id := by
  obtain ⟨row, hrow, hfinished⟩ := hb.finished f hf
  exact ⟨row, hrow, hfinished.not_started⟩

theorem Books.owner_lt (hb : sh.Books parts) (howner : sh.owners[id]? = some index) :
    id < sh.ledger.length := by
  rw [← hb.length]
  exact (List.getElem?_eq_some_iff.mp howner).1

/-- The rows a part owns are there. -/
theorem Books.row_of_owner (hb : sh.Books parts) (howner : sh.owners[id]? = some index) :
    ∃ row, sh.ledger[id]? = some row :=
  ⟨_, List.getElem?_eq_getElem (hb.owner_lt howner)⟩

theorem Books.owner_of_row (hb : sh.Books parts) (hrow : sh.ledger[id]? = some row) :
    ∃ index, sh.owners[id]? = some index ∧ index < parts := by
  have hlt : id < sh.owners.length := by
    rw [hb.length]
    exact (List.getElem?_eq_some_iff.mp hrow).1
  exact ⟨_, List.getElem?_eq_getElem hlt, hb.owners _ (List.getElem_mem hlt)⟩

theorem Books.mono {parts' : Nat} (hb : sh.Books parts) (h : parts ≤ parts') : sh.Books parts' :=
  ⟨hb.length, fun index hindex => (hb.owners index hindex).trans_le h, hb.finished, hb.nodup⟩

/-- **A step keeps the books in order.** -/
theorem Evolves.books (h : sh.Evolves index sh') (hb : sh.Books parts) (hindex : index < parts) :
    sh'.Books parts := by
  cases h with
  | same => exact hb
  | inserted row =>
    refine ⟨by simp [hb.length], fun i hi => ?_, fun f hf => ?_, hb.nodup⟩
    · rcases List.mem_append.mp hi with hi | hi
      · exact hb.owners i hi
      · rw [List.mem_singleton.mp hi]
        exact hindex
    · obtain ⟨row', hrow', hfinished⟩ := hb.finished f hf
      exact ⟨row', getElem?_append_of_some _ hrow',
        hfinished⟩
  | @finalized f row row' howner hrow hstarted hfinished =>
    have hnew : f.id ∉ sh.finalized.map (·.id) := hb.not_mem_of_started hrow hstarted
    refine ⟨by simp [hb.length], hb.owners, fun f' hf' => ?_, ?_⟩
    · rcases List.mem_append.mp hf' with hf' | hf'
      · have hne : f.id ≠ f'.id := fun heq => hnew (heq ▸ List.mem_map_of_mem hf')
        obtain ⟨row'', hrow'', hfinished''⟩ := hb.finished f' hf'
        exact ⟨row'', by simpa [List.getElem?_set_ne hne] using hrow'', hfinished''⟩
      · rw [List.mem_singleton.mp hf']
        exact ⟨row', by simp [List.getElem?_set_self (List.getElem?_eq_some_iff.mp hrow).1],
          hfinished⟩
    · simp only [finish_finalized, List.map_append, List.map_cons, List.map_nil]
      exact List.nodup_append.mpr ⟨hb.nodup, by simp, fun id hid id' hid' heq => by
        rw [List.mem_singleton.mp hid'] at heq
        exact hnew (heq ▸ hid)⟩

/-- **A row changes only when it is finalized**, and then it was started. -/
theorem Evolves.row_or_finalized (h : sh.Evolves index sh') (hrow : sh.ledger[id]? = some row) :
    sh'.ledger[id]? = some row ∨ row.status = .started ∧ ∃ f ∈ sh'.finalized, f.id = id := by
  cases h with
  | same => exact .inl hrow
  | inserted row' =>
    exact .inl (getElem?_append_of_some _ hrow)
  | @finalized f row' _ _ hrow' hstarted _ =>
    by_cases heq : f.id = id
    · subst heq
      rw [hrow] at hrow'
      cases hrow'
      exact .inr ⟨hstarted, f, List.mem_append_right _ (List.mem_singleton_self f), rfl⟩
    · exact .inl (by simpa [List.getElem?_set_ne heq] using hrow)

theorem Evolves.finalized_subset (h : sh.Evolves index sh') : sh.finalized ⊆ sh'.finalized := by
  cases h with
  | same | inserted => exact List.Subset.refl _
  | finalized => exact List.subset_append_left _ _

/-- A row keeps its owner. -/
theorem Evolves.owner {owner : Nat} (h : sh.Evolves index sh')
    (howner : sh.owners[id]? = some owner) : sh'.owners[id]? = some owner := by
  cases h with
  | same | finalized => exact howner
  | inserted => exact getElem?_append_of_some _ howner

theorem Evolves.shutdown (h : sh.Evolves index sh') : sh'.shutdown = sh.shutdown := by
  cases h <;> rfl

/-! ### What the others see -/

/-- **The steps of other parts are not seen.** -/
theorem Evolves.keeps {other : Nat} (h : sh.Evolves other sh') (hb : sh.Books parts)
    (hother : other ≠ index) : sh.Keeps index sh' := by
  cases h with
  | same => exact ⟨fun _ => .rfl, fun _ _ => rfl, fun _ _ => .rfl, fun h => h⟩
  | inserted row =>
    have hold : ∀ id : RequestId,
        (sh.owners ++ [other])[id]? = some index ↔ sh.owners[id]? = some index := by
      intro id
      refine ⟨fun h => ?_, getElem?_append_of_some _⟩
      rcases getElem?_append_singleton_cases h with h | ⟨-, heq⟩
      · exact h
      · exact absurd heq.symm hother
    exact ⟨hold, fun id howner => List.getElem?_append_left (hb.owner_lt howner), fun _ _ => .rfl,
      fun h => h⟩
  | @finalized f row' _ howner _ _ _ =>
    have hne : ∀ id : RequestId, sh.owners[id]? = some index → f.id ≠ id := by
      rintro id hid rfl
      rw [howner] at hid
      exact hother (Option.some.inj hid)
    refine ⟨fun _ => .rfl, fun id hid => by simp [List.getElem?_set_ne (hne id hid)], fun f' hf' => ?_,
      fun h => h⟩
    simp only [finish_finalized, List.mem_append, List.mem_singleton, or_iff_left_iff_imp]
    rintro rfl
    exact absurd rfl (hne _ hf')

end Shared

end Delivery

end CodexApi
