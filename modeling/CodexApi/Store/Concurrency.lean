import CodexApi.Store.Quota
import CodexApi.Lib.Transition
import Mathlib.Algebra.BigOperators.Intervals
import Mathlib.Algebra.Order.BigOperators.Group.Finset

/-!
# Concurrent admission observes committed spend only

The store as a transition system: `begin_request` is two steps, the read of the week's spend and
the insert of the planned row, and `finalize_request` is another; steps of different requests
interleave freely and every step brings its own clock time. A request between its two steps is a
`PendingInsert`, which may also be abandoned (its future is dropped, or the process restarts).

Every read is numbered by a ghost `token`, and `tokens` records for each row the token of the
request it belongs to. So "the request had read its spend before state `s`" is
`token < s.nextToken`.

Committed spend only grows (`weekSpend_le_of_run`), and a row's week is the week its read looked
at, since both come from one clock time. Once a week's spend closes the key, every later read of
that week plans a rejection, and no rejection is ever charged (`Shut`). What a week spends beyond
its limit was therefore in flight when the limit was reached.
-/

namespace CodexApi

open Transition

/-! ### The transition system -/

/-- A request past its spend read whose row is not inserted yet. -/
structure PendingInsert where
  token : Nat
  insertion : Insertion
deriving DecidableEq

/-- The ledger with the requests that are about to insert a row. -/
structure StoreState where
  ledger : Ledger
  tokens : List Nat
  pending : List PendingInsert
  nextToken : Nat
deriving DecidableEq

/-- The empty database. -/
def StoreState.init : StoreState := ⟨[], [], [], 0⟩

/-- The statements of the store, with the clock time each one sees. -/
inductive StoreAction
  | read (now : OffsetDateTime) (context : RequestContext) (candidates : ModelCandidates)
  | insert (index : Nat)
  | abandon (index : Nat)
  | reject (now : OffsetDateTime) (context : RequestContext) (model : String)
      (reasoningEffort : Option String) (httpStatus : Option Nat)
  | finalize (now : OffsetDateTime) (id : RequestId) (status : FinalStatus)
      (httpStatus : Option Nat) (usage : Option BillableUsage)

section

variable (quotaOf : String → QuotaLimits) (hasFallback : Bool)

/-- The insertion a read plans, under the configured limits of the key. -/
def planRead (ledger : Ledger) (now : OffsetDateTime) (context : RequestContext)
    (candidates : ModelCandidates) : Except StoreError Insertion := do
  let spent ← currentWeekSpendNanoUsd ledger context.apiKeyId now
  planInsertion now context (quotaOf context.apiKeyId) candidates spent

/-- One statement. A statement that fails changes nothing and is no step. -/
def storeStep (s : StoreState) : StoreAction → Option StoreState
  | .read now context candidates =>
    if candidates.fallback.isSome = hasFallback then
      match planRead quotaOf s.ledger now context candidates with
      | .ok insertion =>
        some { s with
          pending := s.pending ++ [⟨s.nextToken, insertion⟩]
          nextToken := s.nextToken + 1 }
      | .error _ => none
    else none
  | .insert index =>
    match s.pending[index]? with
    | some p =>
      match insertRow s.ledger p.insertion.row with
      | .ok ledger =>
        some { s with
          ledger
          tokens := s.tokens ++ [p.token]
          pending := s.pending.eraseIdx index }
      | .error _ => none
    | none => none
  | .abandon index => some { s with pending := s.pending.eraseIdx index }
  | .reject now context model reasoningEffort httpStatus =>
    match recordRejection now s.ledger context model reasoningEffort httpStatus with
    | .ok ledger =>
      some { s with
        ledger
        tokens := s.tokens ++ [s.nextToken]
        nextToken := s.nextToken + 1 }
    | .error _ => none
  | .finalize now id status httpStatus usage =>
    match finalizeRequest now s.ledger id status httpStatus usage with
    | .ok ledger => some { s with ledger }
    | .error _ => none

/-- The interleavings of statements. -/
abbrev StoreRun := Run (ofFun (storeStep quotaOf hasFallback))

end

variable {quotaOf : String → QuotaLimits} {hasFallback : Bool}
variable {s t u : StoreState} {a : StoreAction} {as : List StoreAction}
variable {key : String} {week : Int}

/-! ### What a read plans -/

/-- The rows of admission carry the key and the time of the read, and no cost. -/
theorem row_of_planInsertion {now : OffsetDateTime} {context : RequestContext}
    {quota : QuotaLimits} {candidates : ModelCandidates} {spent : Decimal} {insertion : Insertion}
    (h : planInsertion now context quota candidates spent = .ok insertion) :
    insertion.row.apiKeyId = context.apiKeyId ∧ insertion.row.requestedAtMs = now.unixMillis ∧
      insertion.row.costNanoUsd = none := by
  obtain ⟨soft, hard, model, -, -, -, rfl⟩ := planInsertion_eq_ok.mp h
  exact ⟨rfl, rfl, rfl⟩

/-- A read that finds the hard limit reached, or the soft limit without a fallback, plans a
rejection. -/
theorem rejected_of_planInsertion {now : OffsetDateTime} {context : RequestContext}
    {quota : QuotaLimits} {candidates : ModelCandidates} {spent : Decimal} {n : Int}
    {insertion : Insertion} (hspent : spent.toRat = n)
    (h : planInsertion now context quota candidates spent = .ok insertion)
    (hclosed : Reached quota.hardLimitUsd n ∨
      candidates.fallback = none ∧ Reached quota.weeklyLimitUsd n) :
    insertion.row.status = .final .rejected := by
  obtain ⟨soft, hard, model, hsoft, hhard, -, rfl⟩ := planInsertion_eq_ok.mp h
  have hrejected : (hard || (soft && candidates.fallback.isNone)) = true := by
    rcases hclosed with hreached | ⟨hnone, hreached⟩
    · simp [(reached_of_spendMeetsLimit hspent hhard).mpr hreached]
    · simp [(reached_of_spendMeetsLimit hspent hsoft).mpr hreached, hnone]
  simp [admissionRow, hrejected]

/-- A read that finds the soft limit reached admits at most the fallback. -/
theorem admitted_of_planInsertion {now : OffsetDateTime} {context : RequestContext}
    {quota : QuotaLimits} {candidates : ModelCandidates} {spent : Decimal} {n : Int}
    {insertion : Insertion} (hspent : spent.toRat = n)
    (h : planInsertion now context quota candidates spent = .ok insertion)
    (hreached : Reached quota.weeklyLimitUsd n) :
    insertion.admitted = none ∨
      ∃ model, candidates.fallback = some model ∧ insertion.admitted = some model := by
  obtain ⟨soft, hard, model, hsoft, -, hmodel, rfl⟩ := planInsertion_eq_ok.mp h
  have hsoft_true : soft = true := (reached_of_spendMeetsLimit hspent hsoft).mpr hreached
  subst hsoft_true
  cases hrejected : (hard || (true && candidates.fallback.isNone)) with
  | true => exact .inl rfl
  | false =>
    rw [hrejected] at hmodel
    exact .inr ⟨model, hmodel, rfl⟩

/-! ### What a step does -/

/-- A row that belongs to a key and a week. -/
def Row.BelongsTo (row : Row) (key : String) (week : Int) : Prop :=
  row.apiKeyId = key ∧ weekOf row.requestedAtMs = week

instance {row : Row} : Decidable (row.BelongsTo key week) :=
  inferInstanceAs (Decidable (_ ∧ _))

/-- The five ways a statement changes the state, with what it checked. -/
inductive StoreEffect (quotaOf : String → QuotaLimits) (hasFallback : Bool) (s : StoreState) :
    StoreState → Prop
  | read (now : OffsetDateTime) (context : RequestContext) (candidates : ModelCandidates)
      (insertion : Insertion) (hfallback : candidates.fallback.isSome = hasFallback)
      (hplan : planRead quotaOf s.ledger now context candidates = .ok insertion) :
      StoreEffect quotaOf hasFallback s
        { s with
          pending := s.pending ++ [⟨s.nextToken, insertion⟩]
          nextToken := s.nextToken + 1 }
  | insert (index : Nat) (p : PendingInsert) (hp : s.pending[index]? = some p)
      (hchecks : p.insertion.row.checks = true) :
      StoreEffect quotaOf hasFallback s
        { s with
          ledger := s.ledger ++ [p.insertion.row]
          tokens := s.tokens ++ [p.token]
          pending := s.pending.eraseIdx index }
  | abandon (index : Nat) :
      StoreEffect quotaOf hasFallback s { s with pending := s.pending.eraseIdx index }
  | reject (row : Row) (hchecks : row.checks = true) (hcost : row.costNanoUsd = none)
      (hfinished : row.status ≠ .started) :
      StoreEffect quotaOf hasFallback s
        { s with
          ledger := s.ledger ++ [row]
          tokens := s.tokens ++ [s.nextToken]
          nextToken := s.nextToken + 1 }
  | finalize (id : RequestId) (row row' : Row) (hrow : s.ledger[id]? = some row)
      (hstarted : row.status = .started) (hchecks : row'.checks = true)
      (hfinished : row'.status ≠ .started) (hkey : row'.apiKeyId = row.apiKeyId)
      (htime : row'.requestedAtMs = row.requestedAtMs) :
      StoreEffect quotaOf hasFallback s { s with ledger := s.ledger.set id row' }

/-- **Step lemma.** -/
theorem storeEffect_of_step (h : storeStep quotaOf hasFallback s a = some t) :
    StoreEffect quotaOf hasFallback s t := by
  cases a with
  | read now context candidates =>
    simp only [storeStep] at h
    split at h
    case isFalse => cases h
    case isTrue hfallback =>
      split at h
      case h_2 => cases h
      case h_1 insertion hplan =>
        cases h
        exact .read now context candidates insertion hfallback hplan
  | insert index =>
    simp only [storeStep] at h
    split at h
    case h_2 => cases h
    case h_1 p hp =>
      split at h
      case h_2 => cases h
      case h_1 ledger hinsert =>
        cases h
        obtain ⟨hchecks, rfl⟩ := insertRow_eq_ok.mp hinsert
        exact .insert index p hp hchecks
  | abandon index =>
    cases h
    exact .abandon index
  | reject now context model reasoningEffort httpStatus =>
    simp only [storeStep] at h
    split at h
    case h_2 => cases h
    case h_1 ledger hreject =>
      cases h
      simp only [recordRejection, rejectionRow, timestampMs_eq, ok_bind] at hreject
      obtain ⟨hchecks, rfl⟩ := insertRow_eq_ok.mp hreject
      exact .reject _ hchecks rfl (by simp)
  | finalize now id status httpStatus usage =>
    simp only [storeStep] at h
    split at h
    case h_2 => cases h
    case h_1 ledger hfinalize =>
      cases h
      obtain ⟨row, charge, hrow, hstarted, -, hchecks, rfl⟩ := finalizeRequest_eq_ok.mp hfinalize
      exact .finalize id row _ hrow hstarted hchecks (by simp [Row.finish]) rfl rfl

/-! ### Well-formed states -/

/-- What holds of every state the store reaches: one token per row, only tokens already handed
out, rows that pass the table's checks, and no cost before a row is finished. -/
structure StoreState.WellFormed (s : StoreState) : Prop where
  tokens_length : s.tokens.length = s.ledger.length
  tokens_lt : ∀ token ∈ s.tokens, token < s.nextToken
  pending_lt : ∀ p ∈ s.pending, p.token < s.nextToken
  checks : ∀ row ∈ s.ledger, row.checks = true
  cost_of_started : ∀ row ∈ s.ledger, row.status = .started → row.costNanoUsd = none
  pending_cost : ∀ p ∈ s.pending, p.insertion.row.costNanoUsd = none

theorem StoreState.wellFormed_init : StoreState.init.WellFormed :=
  ⟨rfl, by simp [StoreState.init], by simp [StoreState.init], by simp [StoreState.init],
    by simp [StoreState.init], by simp [StoreState.init]⟩

theorem cost_of_planRead {ledger : Ledger} {now : OffsetDateTime} {context : RequestContext}
    {candidates : ModelCandidates} {insertion : Insertion}
    (h : planRead quotaOf ledger now context candidates = .ok insertion) :
    insertion.row.apiKeyId = context.apiKeyId ∧ insertion.row.requestedAtMs = now.unixMillis ∧
      insertion.row.costNanoUsd = none := by
  obtain ⟨spent, -, hplan⟩ := bind_eq_ok.mp h
  exact row_of_planInsertion hplan

/-- Every step keeps well-formedness. -/
theorem StoreState.WellFormed.step (hs : s.WellFormed)
    (h : storeStep quotaOf hasFallback s a = some t) : t.WellFormed := by
  obtain ⟨hlength, htokens, hpendingLt, hchecks, hcost, hpending⟩ := hs
  cases storeEffect_of_step h with
  | read now context candidates insertion _ hplan =>
    refine ⟨hlength, fun token hmem => (htokens token hmem).trans (Nat.lt_succ_self _),
      fun p hp => ?_, hchecks, hcost, fun p hp => ?_⟩
    · rcases List.mem_append.mp hp with hp | hp
      · exact (hpendingLt p hp).trans (Nat.lt_succ_self _)
      · rw [List.mem_singleton.mp hp]
        exact Nat.lt_succ_self _
    · rcases List.mem_append.mp hp with hp | hp
      · exact hpending p hp
      · rw [List.mem_singleton.mp hp]
        exact (cost_of_planRead hplan).2.2
  | insert index p hp hrow =>
    have hmem : p ∈ s.pending := List.mem_of_getElem? hp
    refine ⟨by simp [hlength], fun token htoken => ?_,
      fun q hq => hpendingLt q (List.mem_of_mem_eraseIdx hq), fun row hrow' => ?_,
      fun row hrow' hstarted => ?_, fun q hq => hpending q (List.mem_of_mem_eraseIdx hq)⟩
    · rcases List.mem_append.mp htoken with hold | hnew
      · exact htokens token hold
      · exact List.mem_singleton.mp hnew ▸ hpendingLt p hmem
    · rcases List.mem_append.mp hrow' with hold | hnew
      · exact hchecks row hold
      · exact List.mem_singleton.mp hnew ▸ hrow
    · rcases List.mem_append.mp hrow' with hold | hnew
      · exact hcost row hold hstarted
      · exact List.mem_singleton.mp hnew ▸ hpending p hmem
  | abandon index =>
    exact ⟨hlength, htokens, fun q hq => hpendingLt q (List.mem_of_mem_eraseIdx hq), hchecks,
      hcost, fun q hq => hpending q (List.mem_of_mem_eraseIdx hq)⟩
  | reject new hnew hnone hfinished =>
    refine ⟨by simp [hlength], fun token htoken => ?_,
      fun p hp => (hpendingLt p hp).trans (Nat.lt_succ_self _), fun row hmem => ?_,
      fun row hmem hstarted => ?_, hpending⟩
    · rcases List.mem_append.mp htoken with hold | hmem
      · exact (htokens token hold).trans (Nat.lt_succ_self _)
      · rw [List.mem_singleton.mp hmem]
        exact Nat.lt_succ_self _
    · rcases List.mem_append.mp hmem with hold | hmem
      · exact hchecks row hold
      · exact List.mem_singleton.mp hmem ▸ hnew
    · rcases List.mem_append.mp hmem with hold | hmem
      · exact hcost row hold hstarted
      · exact List.mem_singleton.mp hmem ▸ hnone
  | finalize id old new hold _ hnew hfinished =>
    refine ⟨by simp [hlength], htokens, hpendingLt, fun row hmem => ?_,
      fun row hmem hstarted => ?_, hpending⟩
    · rcases List.mem_or_eq_of_mem_set hmem with hmem | rfl
      · exact hchecks row hmem
      · exact hnew
    · rcases List.mem_or_eq_of_mem_set hmem with hmem | rfl
      · exact hcost row hmem hstarted
      · exact absurd hstarted hfinished

theorem StoreState.WellFormed.run (hs : s.WellFormed) (h : StoreRun quotaOf hasFallback s as t) :
    t.WellFormed :=
  h.invariant (fun _ _ _ hs hstep => hs.step hstep) hs

/-! ### The committed spend of a week -/

/-- What row `i` adds to the spend of a key in a week. -/
def contribution (ledger : Ledger) (key : String) (week : Int) (i : Nat) : Int :=
  match ledger[i]? with
  | some row => if row.BelongsTo key week then row.costNanoUsd.getD 0 else 0
  | none => 0

/-- The spend of a week is the sum of the contributions of its rows. -/
theorem weekSpend_eq_sum (ledger : Ledger) (key : String) (week : Int) {n : Nat}
    (h : ledger.length ≤ n) :
    weekSpend ledger key week = ∑ i ∈ Finset.range n, contribution ledger key week i := by
  induction ledger generalizing n with
  | nil => simp [weekSpend, weekCosts, contribution]
  | cons row ledger ih =>
    cases n with
    | zero => simp at h
    | succ n =>
      have htail : ∀ i, contribution (row :: ledger) key week (i + 1) =
          contribution ledger key week i := fun i => by simp [contribution]
      have hhead : weekSpend (row :: ledger) key week =
          weekSpend ledger key week + contribution (row :: ledger) key week 0 := by
        simp only [weekSpend, weekCosts, contribution, List.filterMap_cons,
          List.getElem?_cons_zero]
        by_cases hrow : row.apiKeyId = key ∧ weekOf row.requestedAtMs = week
        · rw [if_pos hrow, if_pos (show row.BelongsTo key week from hrow)]
          cases row.costNanoUsd with
          | none => simp
          | some cost => simp [add_comm]
        · rw [if_neg hrow, if_neg (show ¬ row.BelongsTo key week from hrow), add_zero]
      rw [hhead, ih (Nat.le_of_succ_le_succ h), Finset.sum_range_succ']
      simp only [htail]

/-- Whether the row at position `i` has left `started`. -/
def isFinished (ledger : Ledger) (i : Nat) : Bool :=
  (ledger[i]?).any (·.status ≠ .started)

theorem isFinished_iff {ledger : Ledger} {i : Nat} :
    isFinished ledger i = true ↔ ∃ row, ledger[i]? = some row ∧ row.status ≠ .started := by
  cases h : ledger[i]? <;> simp [isFinished, h]

/-- A finished row never changes again. -/
theorem getElem?_step_of_finished {i : Nat} {row : Row}
    (h : storeStep quotaOf hasFallback s a = some t) (hrow : s.ledger[i]? = some row)
    (hfinished : row.status ≠ .started) : t.ledger[i]? = some row := by
  have hlt : i < s.ledger.length := (List.getElem?_eq_some_iff.mp hrow).1
  cases storeEffect_of_step h with
  | read | abandon => exact hrow
  | insert | reject => rw [List.getElem?_append_left hlt, hrow]
  | finalize id old new hold hstarted =>
    rw [List.getElem?_set_ne, hrow]
    rintro rfl
    rw [hold] at hrow
    cases hrow
    exact hfinished hstarted

theorem getElem?_run_of_finished {i : Nat} {row : Row} (h : StoreRun quotaOf hasFallback s as t)
    (hrow : s.ledger[i]? = some row) (hfinished : row.status ≠ .started) :
    t.ledger[i]? = some row :=
  h.invariant (I := fun s => s.ledger[i]? = some row)
    (fun _ _ _ hrow hstep => getElem?_step_of_finished hstep hrow hfinished) hrow

/-- A row that is not finished contributes nothing. -/
theorem contribution_of_not_finished (hs : s.WellFormed) {i : Nat} (h : ¬ isFinished s.ledger i) :
    contribution s.ledger key week i = 0 := by
  unfold contribution
  cases hrow : s.ledger[i]? with
  | none => rfl
  | some row =>
    have hstarted : row.status = .started := by
      by_contra hne
      exact h (isFinished_iff.mpr ⟨row, hrow, hne⟩)
    simp [hs.cost_of_started row (List.mem_of_getElem? hrow) hstarted]

/-- No contribution is negative. -/
theorem contribution_nonneg (hs : s.WellFormed) (i : Nat) :
    0 ≤ contribution s.ledger key week i := by
  unfold contribution
  cases hrow : s.ledger[i]? with
  | none => exact le_rfl
  | some row =>
    have hchecks := hs.checks row (List.mem_of_getElem? hrow)
    simp only
    split_ifs
    · cases hcost : row.costNanoUsd with
      | none => exact le_rfl
      | some cost =>
        simp only [Row.checks, hcost, Bool.and_eq_true, Option.all_some, decide_eq_true_eq] at hchecks
        exact hchecks.1.1.2
    · exact le_rfl

/-- Contributions of finished rows are settled. -/
theorem contribution_run_of_finished {i : Nat} (h : StoreRun quotaOf hasFallback s as t)
    (hfinished : isFinished s.ledger i) :
    contribution t.ledger key week i = contribution s.ledger key week i := by
  obtain ⟨row, hrow, hne⟩ := isFinished_iff.mp hfinished
  simp only [contribution, hrow, getElem?_run_of_finished h hrow hne]

/-- **Committed spend only grows.** -/
theorem weekSpend_le_of_run (hs : s.WellFormed) (h : StoreRun quotaOf hasFallback s as t) :
    weekSpend s.ledger key week ≤ weekSpend t.ledger key week := by
  rw [weekSpend_eq_sum s.ledger key week (le_max_left _ t.ledger.length),
    weekSpend_eq_sum t.ledger key week (le_max_right s.ledger.length _)]
  refine Finset.sum_le_sum fun i _ => ?_
  by_cases hfinished : isFinished s.ledger i
  · rw [contribution_run_of_finished h hfinished]
  · rw [contribution_of_not_finished hs hfinished]
    exact contribution_nonneg (hs.run h) i

theorem Reached.mono {limitUsd : Option Decimal} {m n : Int} (h : Reached limitUsd m)
    (hle : m ≤ n) : Reached limitUsd n := by
  obtain ⟨limit, hlimit, hreached⟩ := h
  exact ⟨limit, hlimit, hreached.trans (by exact_mod_cast hle)⟩

/-! ### After the key is closed -/

/-- Whether the committed spend of the week closes the key: the hard limit is reached, or the
soft limit is and there is no fallback. -/
def Closed (quotaOf : String → QuotaLimits) (hasFallback : Bool) (ledger : Ledger) (key : String)
    (week : Int) : Prop :=
  Reached (quotaOf key).hardLimitUsd (weekSpend ledger key week) ∨
    hasFallback = false ∧ Reached (quotaOf key).weeklyLimitUsd (weekSpend ledger key week)

/-- A closed key stays closed for the week. -/
theorem Closed.run (hs : s.WellFormed) (h : StoreRun quotaOf hasFallback s as t)
    (hclosed : Closed quotaOf hasFallback s.ledger key week) :
    Closed quotaOf hasFallback t.ledger key week := by
  have hle : weekSpend s.ledger key week ≤ weekSpend t.ledger key week :=
    weekSpend_le_of_run hs h
  exact hclosed.imp (fun hreached => hreached.mono hle) (And.imp_right fun hreached =>
    hreached.mono hle)

/-- What a read of a key's own week sees is the committed spend. -/
theorem planRead_spent {ledger : Ledger} {now : OffsetDateTime} {context : RequestContext}
    {candidates : ModelCandidates} {insertion : Insertion}
    (h : planRead quotaOf ledger now context candidates = .ok insertion) :
    ∃ spent : Decimal,
      spent.toRat = (weekSpend ledger context.apiKeyId (weekOf now.unixMillis) : Int) ∧
      planInsertion now context (quotaOf context.apiKeyId) candidates spent = .ok insertion := by
  obtain ⟨spent, hspent, hplan⟩ := bind_eq_ok.mp h
  rw [currentWeekSpend_eq] at hspent
  exact ⟨spent, toRat_of_decimalOfSum hspent, hplan⟩

/-- The requests that read the spend of the week at token `from` or later are rejected ones. -/
structure Shut (s : StoreState) (first : Nat) (key : String) (week : Int) : Prop where
  pending : ∀ p ∈ s.pending, first ≤ p.token → p.insertion.row.BelongsTo key week →
    p.insertion.row.status ≠ .started
  rows : ∀ (i : Nat) (row : Row) (token : Nat), s.ledger[i]? = some row →
    s.tokens[i]? = some token → first ≤ token → row.BelongsTo key week →
    row.status ≠ .started ∧ row.costNanoUsd = none

/-- Nothing has read at the token that comes next. -/
theorem StoreState.WellFormed.shut (hs : s.WellFormed) : Shut s s.nextToken key week where
  pending p hp hle := absurd (hs.pending_lt p hp) (Nat.not_lt.mpr hle)
  rows _ _ token _ htoken hle :=
    absurd (hs.tokens_lt token (List.mem_of_getElem? htoken)) (Nat.not_lt.mpr hle)

/-- A new last row of a ledger and the tokens beside it. -/
private theorem getElem?_append_pair {ledger : Ledger} {tokens : List Nat} {new row : Row}
    {token newToken i : Nat} (hlength : tokens.length = ledger.length)
    (hrow : (ledger ++ [new])[i]? = some row)
    (htoken : (tokens ++ [newToken])[i]? = some token) :
    (ledger[i]? = some row ∧ tokens[i]? = some token) ∨ (new = row ∧ newToken = token) := by
  rcases Nat.lt_or_ge i ledger.length with hlt | hge
  · rw [List.getElem?_append_left hlt] at hrow
    rw [List.getElem?_append_left (hlength ▸ hlt)] at htoken
    exact .inl ⟨hrow, htoken⟩
  · rw [List.getElem?_append_right hge, List.getElem?_singleton] at hrow
    rw [List.getElem?_append_right (hlength ▸ hge), List.getElem?_singleton] at htoken
    split_ifs at hrow htoken
    exact .inr ⟨Option.some.inj hrow, Option.some.inj htoken⟩

/-- **While the key is closed, every step keeps it shut.** -/
theorem Shut.step {first : Nat} (hshut : Shut s first key week) (hs : s.WellFormed)
    (hclosed : Closed quotaOf hasFallback s.ledger key week)
    (h : storeStep quotaOf hasFallback s a = some t) : Shut t first key week := by
  cases storeEffect_of_step h with
  | read now context candidates insertion hfallback hplan =>
    refine ⟨fun p hp hle hbelongs => ?_, hshut.rows⟩
    rcases List.mem_append.mp hp with hp | hp
    · exact hshut.pending p hp hle hbelongs
    · rw [List.mem_singleton.mp hp] at hbelongs ⊢
      -- The row's key and week are those of the read, so the read saw the closing spend.
      obtain ⟨hkey, htime, -⟩ := cost_of_planRead hplan
      obtain ⟨rfl, rfl⟩ : context.apiKeyId = key ∧ weekOf now.unixMillis = week := by
        rw [← hkey, ← htime]
        exact hbelongs
      obtain ⟨spent, hspent, hinsertion⟩ := planRead_spent hplan
      have hrejected := rejected_of_planInsertion hspent hinsertion
        (hclosed.imp_right (And.imp_left fun hnone => by
          rw [hnone] at hfallback
          exact Option.not_isSome_iff_eq_none.mp (by simp [hfallback])))
      simp [hrejected]
  | insert index p hp hchecks =>
    have hmem : p ∈ s.pending := List.mem_of_getElem? hp
    refine ⟨fun q hq => hshut.pending q (List.mem_of_mem_eraseIdx hq),
      fun i row token hrow htoken hle hbelongs => ?_⟩
    rcases getElem?_append_pair hs.tokens_length hrow htoken with ⟨hrow, htoken⟩ | ⟨rfl, rfl⟩
    · exact hshut.rows i row token hrow htoken hle hbelongs
    · exact ⟨hshut.pending p hmem hle hbelongs, hs.pending_cost p hmem⟩
  | abandon index =>
    exact ⟨fun q hq => hshut.pending q (List.mem_of_mem_eraseIdx hq), hshut.rows⟩
  | reject new hchecks hcost hfinished =>
    refine ⟨hshut.pending, fun i row token hrow htoken hle hbelongs => ?_⟩
    rcases getElem?_append_pair hs.tokens_length hrow htoken with ⟨hrow, htoken⟩ | ⟨rfl, rfl⟩
    · exact hshut.rows i row token hrow htoken hle hbelongs
    · exact ⟨hfinished, hcost⟩
  | finalize id old new hold hstarted hchecks hfinished hkey htime =>
    refine ⟨hshut.pending, fun i row token hrow htoken hle hbelongs => ?_⟩
    rcases eq_or_ne id i with rfl | hne
    · -- The finalized row was `started`, so it is none of those that read late.
      have hlt : id < s.ledger.length := (List.getElem?_eq_some_iff.mp hold).1
      rw [List.getElem?_set_self hlt] at hrow
      cases hrow
      rw [Row.BelongsTo, hkey, htime] at hbelongs
      exact absurd hstarted (hshut.rows id old token hold htoken hle hbelongs).1
    · rw [List.getElem?_set_ne hne] at hrow
      exact hshut.rows i row token hrow htoken hle hbelongs

/-- From a closed key on, the requests that read later are rejected ones. -/
theorem shut_of_run (hs : s.WellFormed) (hclosed : Closed quotaOf hasFallback s.ledger key week)
    (h : StoreRun quotaOf hasFallback s as t) : Shut t s.nextToken key week := by
  have hfirst : s.WellFormed ∧ Closed quotaOf hasFallback s.ledger key week ∧
      Shut s s.nextToken key week := ⟨hs, hclosed, hs.shut⟩
  refine (h.invariant (I := fun t => t.WellFormed ∧
    Closed quotaOf hasFallback t.ledger key week ∧ Shut t s.nextToken key week)
    (fun u a v hu hstep => ?_) hfirst).2.2
  obtain ⟨hwell, hclosed, hshut⟩ := hu
  have hrun : StoreRun quotaOf hasFallback u [a] v := Run.single hstep
  exact ⟨hwell.step hstep, hclosed.run hwell hrun, hshut.step hwell hclosed hstep⟩

/-! ### The overshoot of a week -/

/-- Whether the request of row `i` of `t` had read its spend before `s` and was not finished in
`s`. -/
def inFlight (s t : StoreState) (i : Nat) : Bool :=
  (t.tokens[i]?).any (· < s.nextToken) && !isFinished s.ledger i

/-- What the requests in flight in `s` have cost a key in a week by `t`. -/
def inFlightCosts (s t : StoreState) (key : String) (week : Int) : Int :=
  ∑ i ∈ Finset.range t.ledger.length,
    if inFlight s t i then contribution t.ledger key week i else 0

/-- Rows are never removed. -/
theorem length_le_of_run (h : StoreRun quotaOf hasFallback s as t) :
    s.ledger.length ≤ t.ledger.length := by
  refine h.monotone (f := fun s => s.ledger.length) fun s a t hstep => ?_
  cases storeEffect_of_step hstep <;> simp

/-- The spend of a week after a run is what was spent before, and the costs of the rows that were
not finished then. -/
theorem weekSpend_split (hs : s.WellFormed) (h : StoreRun quotaOf hasFallback s as t) :
    weekSpend t.ledger key week = weekSpend s.ledger key week +
      ∑ i ∈ Finset.range t.ledger.length,
        if isFinished s.ledger i then 0
        else contribution t.ledger key week i := by
  rw [weekSpend_eq_sum s.ledger key week (length_le_of_run h),
    weekSpend_eq_sum t.ledger key week le_rfl, ← Finset.sum_add_distrib]
  refine Finset.sum_congr rfl fun i _ => ?_
  by_cases hfinished : isFinished s.ledger i
  · rw [contribution_run_of_finished h hfinished, if_pos hfinished, add_zero]
  · rw [contribution_of_not_finished hs hfinished, if_neg hfinished, zero_add]

/-- A contribution that is not zero is a cost of a row of the key and the week. -/
theorem cost_of_contribution_ne_zero {ledger : Ledger} {i : Nat}
    (h : contribution ledger key week i ≠ 0) :
    ∃ row, ledger[i]? = some row ∧ row.BelongsTo key week ∧ row.costNanoUsd ≠ none := by
  unfold contribution at h
  cases hrow : ledger[i]? with
  | none => simp [hrow] at h
  | some row =>
    simp only [hrow] at h
    split_ifs at h with hbelongs
    · refine ⟨row, rfl, hbelongs, fun hnone => h ?_⟩
      rw [hnone]
      rfl
    · exact absurd rfl h

/-- After the key is closed, every cost of the week belongs to an earlier read. -/
theorem token_lt_of_cost (hs : s.WellFormed)
    (hclosed : Closed quotaOf hasFallback s.ledger key week)
    (h : StoreRun quotaOf hasFallback s as t) {i token : Nat} {row : Row}
    (hrow : t.ledger[i]? = some row) (htoken : t.tokens[i]? = some token)
    (hbelongs : row.BelongsTo key week) (hcost : row.costNanoUsd ≠ none) :
    token < s.nextToken := by
  by_contra hge
  exact hcost ((shut_of_run hs hclosed h).rows i row token hrow htoken (Nat.not_lt.mp hge)
    hbelongs).2

/-- From a closed key on, a week spends no more than its requests in flight cost. -/
theorem weekSpend_le_add_inFlight {s₀ : StoreState} {bs : List StoreAction}
    (hs₀ : s₀.WellFormed) (hs : s.WellFormed) (htoken : s.nextToken = s₀.nextToken)
    (hclosed : Closed quotaOf hasFallback s.ledger key week)
    (h₀ : StoreRun quotaOf hasFallback s₀ bs t) (h : StoreRun quotaOf hasFallback s as t) :
    weekSpend t.ledger key week ≤ weekSpend s₀.ledger key week + inFlightCosts s₀ t key week := by
  have ht : t.WellFormed := hs.run h
  rw [weekSpend_split hs₀ h₀, inFlightCosts]
  refine Int.add_le_add_left (Finset.sum_le_sum fun i hi => ?_) _
  by_cases hfinished : isFinished s₀.ledger i = true
  · simp [hfinished, inFlight]
  by_cases hzero : contribution t.ledger key week i = 0
  · simp [hzero]
  · obtain ⟨row, hrow, hbelongs, hcost⟩ := cost_of_contribution_ne_zero hzero
    have hlt : i < t.tokens.length := ht.tokens_length ▸ Finset.mem_range.mp hi
    have hearly := token_lt_of_cost hs hclosed h hrow (List.getElem?_eq_getElem hlt) hbelongs hcost
    have hflight : inFlight s₀ t i = true := by
      rw [htoken] at hearly
      simp [inFlight, List.getElem?_eq_getElem hlt, hearly, hfinished]
    rw [if_neg hfinished, if_pos hflight]

/-- A step that commits a cost begins no request. -/
theorem nextToken_or_weekSpend_of_step (h : storeStep quotaOf hasFallback s a = some t) :
    t.nextToken = s.nextToken ∨ weekSpend t.ledger key week = weekSpend s.ledger key week := by
  cases storeEffect_of_step h with
  | read => exact .inr rfl
  | insert | abandon | finalize => exact .inl rfl
  | reject new hchecks hcost => exact .inr (by simp [weekSpend, weekCosts, hcost])

/-- A limit that closes the key when it is reached. -/
def ClosingLimit (quota : QuotaLimits) (hasFallback : Bool) (limit : Decimal) : Prop :=
  quota.hardLimitUsd = some limit ∨ hasFallback = false ∧ quota.weeklyLimitUsd = some limit

theorem ClosingLimit.closed {ledger : Ledger} {limit : Decimal}
    (h : ClosingLimit (quotaOf key) hasFallback limit)
    (hle : limit.toRat * 1000000000 ≤ weekSpend ledger key week) :
    Closed quotaOf hasFallback ledger key week :=
  h.imp (fun hlimit => ⟨limit, hlimit, hle⟩) (And.imp_right fun hlimit => ⟨limit, hlimit, hle⟩)

/-- The step that reaches a closing limit starts from a spend below it, so what the week
spends in the end exceeds the limit by at most the costs of the requests in flight then. -/
theorem weekSpend_le_limit_add_inFlight {s₀ : StoreState} {limit : Decimal} {bs : List StoreAction}
    (hs₀ : s₀.WellFormed) (hlimit : ClosingLimit (quotaOf key) hasFallback limit)
    (hbelow : (weekSpend s₀.ledger key week : ℚ) ≤ limit.toRat * 1000000000)
    (hcross : StoreRun quotaOf hasFallback s₀ bs s) (hone : bs.length ≤ 1)
    (hreached : limit.toRat * 1000000000 ≤ weekSpend s.ledger key week)
    (h : StoreRun quotaOf hasFallback s as t) :
    (weekSpend t.ledger key week : ℚ) ≤
      limit.toRat * 1000000000 + inFlightCosts s₀ t key week := by
  have hbound : weekSpend t.ledger key week ≤
      weekSpend s₀.ledger key week + inFlightCosts s₀ t key week := by
    have hclosed : Closed quotaOf hasFallback s.ledger key week := hlimit.closed hreached
    cases bs with
    | nil =>
      obtain rfl := run_nil_iff.mp hcross
      exact weekSpend_le_add_inFlight hs₀ hs₀ rfl hclosed h h
    | cons b bs =>
      obtain rfl : bs = [] := List.length_eq_zero_iff.mp (Nat.le_zero.mp (Nat.le_of_succ_le_succ hone))
      obtain ⟨v, hstep, hnil⟩ := run_cons_iff.mp hcross
      obtain rfl := run_nil_iff.mp hnil
      have hrun : StoreRun quotaOf hasFallback s₀ (b :: as) t := Run.cons hstep h
      rcases nextToken_or_weekSpend_of_step hstep with heq | heq
      · exact weekSpend_le_add_inFlight hs₀ (hs₀.step hstep) heq hclosed hrun h
      · rw [heq] at hreached
        exact weekSpend_le_add_inFlight hs₀ hs₀ rfl (hlimit.closed hreached) hrun hrun
  calc (weekSpend t.ledger key week : ℚ)
      ≤ weekSpend s₀.ledger key week + inFlightCosts s₀ t key week := by exact_mod_cast hbound
    _ ≤ limit.toRat * 1000000000 + inFlightCosts s₀ t key week := by gcongr

/-- **Bounded overshoot.** Let the store reach `s` and run on to `t`, whatever the interleaving and
the clock. If the committed spend of a week closes the key in `s`, then every cost the week has
in `t` belongs to a request that read its spend before `s`. If that spend has just reached a
closing limit, at most one step after it was no higher than the limit, then in `t` it exceeds
the limit by at most the costs of the requests that were in flight. And if the spend has reached
the soft limit in `s`, then every later read of that week admits the fallback or nothing. -/
theorem overshoot_bounded {pre : List StoreAction} {as : List StoreAction} {s t : StoreState}
    (hs : StoreRun quotaOf hasFallback .init pre s) (h : StoreRun quotaOf hasFallback s as t)
    (key : String) (week : Int) :
    (Closed quotaOf hasFallback s.ledger key week →
      ∀ (i token : Nat) (row : Row), t.ledger[i]? = some row → t.tokens[i]? = some token →
        row.BelongsTo key week → row.costNanoUsd ≠ none → token < s.nextToken) ∧
    (∀ (pre₀ bs : List StoreAction) (s₀ : StoreState) (limit : Decimal),
      StoreRun quotaOf hasFallback .init pre₀ s₀ → StoreRun quotaOf hasFallback s₀ bs s →
      bs.length ≤ 1 → ClosingLimit (quotaOf key) hasFallback limit →
      (weekSpend s₀.ledger key week : ℚ) ≤ limit.toRat * 1000000000 →
      limit.toRat * 1000000000 ≤ weekSpend s.ledger key week →
      (weekSpend t.ledger key week : ℚ) ≤
        limit.toRat * 1000000000 + inFlightCosts s₀ t key week) ∧
    (Reached (quotaOf key).weeklyLimitUsd (weekSpend s.ledger key week) →
      ∀ (now : OffsetDateTime) (context : RequestContext) (candidates : ModelCandidates)
        (insertion : Insertion), context.apiKeyId = key → weekOf now.unixMillis = week →
        planRead quotaOf t.ledger now context candidates = .ok insertion →
        insertion.admitted = none ∨
          ∃ model, candidates.fallback = some model ∧ insertion.admitted = some model) := by
  have hwell : s.WellFormed := StoreState.wellFormed_init.run hs
  refine ⟨fun hclosed i token row hrow htoken => token_lt_of_cost hwell hclosed h hrow htoken,
    fun pre₀ bs s₀ limit hs₀ hcross hone hlimit hbelow hreached =>
      weekSpend_le_limit_add_inFlight (StoreState.wellFormed_init.run hs₀) hlimit hbelow hcross
        hone hreached h, ?_⟩
  rintro hreached now context candidates insertion rfl rfl hplan
  obtain ⟨spent, hspent, hinsertion⟩ := planRead_spent hplan
  exact admitted_of_planInsertion hspent hinsertion (hreached.mono (weekSpend_le_of_run hwell h))

/-- Two requests read an unspent week and insert their rows. -/
def twoReads : List StoreAction :=
  let context : RequestContext := ⟨"key", .responses, .httpSse⟩
  let candidates : ModelCandidates := ⟨flatModel "large", some (flatModel "small")⟩
  [.read epochNoon context candidates, .read epochNoon context candidates, .insert 0, .insert 0]

/-- Finalizes a request that used `inputTokens` tokens of the large model. -/
def spend (id : RequestId) (inputTokens : UInt64) : StoreAction :=
  .finalize epochNoon id .completed (some 200)
    (some ⟨inputTokens, 0, 0, (flatModel "large").rates⟩)

/-- The state after a list of statements. -/
def stateAfter (as : List StoreAction) : StoreState :=
  (exec (storeStep (fun _ => smallQuota) true) .init as).getD .init

/-- The week ends a third above its hard limit, by the cost of the second request. -/
theorem overshoot_bounded_two_reads :
    (weekSpend (stateAfter (twoReads ++ [spend 0 3000, spend 1 1000])).ledger "key"
        (weekOf epochNoon.unixMillis) : ℚ) ≤
      (milliUsd 3).toRat * 1000000000 +
        inFlightCosts (stateAfter twoReads)
          (stateAfter (twoReads ++ [spend 0 3000, spend 1 1000])) "key"
          (weekOf epochNoon.unixMillis) ∧
    weekSpend (stateAfter (twoReads ++ [spend 0 3000, spend 1 1000])).ledger "key"
        (weekOf epochNoon.unixMillis) = 4000000 := by
  have hreads : StoreRun (fun _ => smallQuota) true .init twoReads (stateAfter twoReads) :=
    run_ofFun_iff.mpr (by decide)
  have hfirst : StoreRun (fun _ => smallQuota) true (stateAfter twoReads) [spend 0 3000]
      (stateAfter (twoReads ++ [spend 0 3000])) := run_ofFun_iff.mpr (by decide)
  have hsecond : StoreRun (fun _ => smallQuota) true (stateAfter (twoReads ++ [spend 0 3000]))
      [spend 1 1000] (stateAfter (twoReads ++ [spend 0 3000, spend 1 1000])) :=
    run_ofFun_iff.mpr (by decide)
  have hlimit : (milliUsd 3).toRat * 1000000000 = 3000000 := by
    norm_num [Decimal.toRat, milliUsd]
  have hbefore : weekSpend (stateAfter twoReads).ledger "key" (weekOf epochNoon.unixMillis) = 0 := by
    decide
  have hafter : weekSpend (stateAfter (twoReads ++ [spend 0 3000])).ledger "key"
      (weekOf epochNoon.unixMillis) = 3000000 := by
    decide
  refine ⟨(overshoot_bounded (hreads.append hfirst) hsecond "key" _).2.1 twoReads _ _ (milliUsd 3)
    hreads hfirst le_rfl (.inl rfl) ?_ ?_, by decide⟩
  · rw [hbefore, hlimit]
    norm_num
  · rw [hafter, hlimit]
    norm_num

end CodexApi
