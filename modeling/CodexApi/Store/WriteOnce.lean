import CodexApi.Config
import CodexApi.Lib.List
import CodexApi.Lib.Transition
import CodexApi.Store.Quota

/-!
# Ledger rows are written once

Any number of calls of `begin_request`, `record_rejection` and `finalize_request` on one ledger,
interleaved statement by statement. A row that is bound to an `INSERT` waits in `pending`; a call
of `finalize_request` first selects the `started` row and then updates it under the same condition.
Between two statements anything can happen: another statement, a failure of the database, the end
of the caller. Every step reads its own clock.

A row changes only in the update that finishes it (`Row.Evolves`), and the call whose update this is
is the only one for the row that can be told so (`LedgerState.Accounts`).
-/

namespace CodexApi

open Transition

/-! ### Statements -/

/-- How far a call of `finalize_request` has come. -/
inductive FinalizePhase
  | selecting
  | updating (requestedAtMs : Int)
  | returned (result : Except StoreError Unit)
  | dropped

/-- A call of `finalize_request`. -/
structure FinalizeCall where
  id : RequestId
  status : FinalStatus
  httpStatus : Option Nat
  usage : Option BillableUsage
  phase : FinalizePhase

/-- The ledger, the rows bound to an `INSERT`, and the calls of `finalize_request`. -/
structure LedgerState where
  ledger : Ledger
  pending : List Row
  calls : List FinalizeCall

/-- An empty ledger. -/
def LedgerState.init : LedgerState := ⟨[], [], []⟩

/-- What becomes of the answer of an executed statement: the caller hears it, the connection fails
first, or the caller is gone. -/
inductive Answer
  | heard
  | failed
  | dropped

/-- The phase of a call that would go on to `phase` had it heard the answer. -/
def Answer.phase : Answer → FinalizePhase → FinalizePhase
  | .heard, phase => phase
  | .failed, _ => .returned (.error .database)
  | .dropped, _ => .dropped

/-- A statement, or the end of a call that waits for one. -/
inductive LedgerAction
  /-- The read of `begin_request`, which binds a row. -/
  | plan (now : OffsetDateTime) (context : RequestContext) (quota : QuotaLimits)
      (candidates : ModelCandidates)
  /-- `record_rejection` binds a row. -/
  | reject (now : OffsetDateTime) (context : RequestContext) (model : String)
      (reasoningEffort : Option String) (httpStatus : Option Nat)
  /-- A bound row is inserted. -/
  | insert (index : Nat)
  /-- A bound row is not inserted: its statement fails or its caller is gone. -/
  | abandon (index : Nat)
  /-- `finalize_request` is called. -/
  | finalize (id : RequestId) (status : FinalStatus) (httpStatus : Option Nat)
      (usage : Option BillableUsage)
  /-- The first statement of a call. -/
  | select (call : Nat) (answer : Answer)
  /-- The second statement of a call. -/
  | update (call : Nat) (now : OffsetDateTime) (answer : Answer)
  /-- A statement of a call is not executed and fails. -/
  | fail (call : Nat)
  /-- A call is dropped before its statement is executed. -/
  | drop (call : Nat)

/-- The call of `finalize_request` that an action is a statement of. -/
def LedgerAction.call : LedgerAction → Option Nat
  | .select call _ | .update call _ _ | .fail call | .drop call => some call
  | _ => none

/-- The read of `begin_request` and the row it binds. -/
def planRow (ledger : Ledger) (now : OffsetDateTime) (context : RequestContext)
    (quota : QuotaLimits) (candidates : ModelCandidates) : Except StoreError Row := do
  let spent ← currentWeekSpendNanoUsd ledger context.apiKeyId now
  let insertion ← planInsertion now context quota candidates spent
  return insertion.row

/-- The phase after the first statement of a call. -/
def FinalizeCall.select (call : FinalizeCall) (ledger : Ledger) : FinalizePhase :=
  match selectStarted ledger call.id with
  | .ok requestedAtMs => .updating requestedAtMs
  | .error error => .returned (.error error)

/-- The second statement of a call that selected `requestedAtMs`. -/
def FinalizeCall.update (call : FinalizeCall) (ledger : Ledger) (requestedAtMs : Int)
    (now : OffsetDateTime) : Except StoreError Ledger :=
  finalizeUpdate now ledger call.id requestedAtMs call.status call.httpStatus call.usage

/-- The row that the second statement of a call writes. -/
def FinalizeCall.finish (call : FinalizeCall) (row : Row) (requestedAtMs : Int)
    (now : OffsetDateTime) (charge : Option Charge) : Row :=
  row.finish now.unixMillis (max (saturatingSub now.unixMillis requestedAtMs) 0) charge call.status
    call.httpStatus

/-- A call goes on to another phase. -/
def LedgerState.setPhase (s : LedgerState) (i : Nat) (phase : FinalizePhase) : LedgerState :=
  { s with calls := s.calls.modify i fun call => { call with phase } }

/-- A row is bound, or the computation of it failed. -/
def LedgerState.bindRow (s : LedgerState) : Except StoreError Row → LedgerState
  | .ok row => { s with pending := s.pending ++ [row] }
  | .error _ => s

/-- A call that awaits a statement. -/
def FinalizePhase.awaits : FinalizePhase → Bool
  | .selecting | .updating _ => true
  | .returned _ | .dropped => false

/-- One statement on the ledger. -/
def ledgerStep (s : LedgerState) : LedgerAction → Option LedgerState
  | .plan now context quota candidates =>
    some (s.bindRow (planRow s.ledger now context quota candidates))
  | .reject now context model reasoningEffort httpStatus =>
    some (s.bindRow (rejectionRow now context model reasoningEffort httpStatus))
  | .insert index =>
    match s.pending[index]? with
    | none => none
    | some row =>
      match insertRow s.ledger row with
      | .ok ledger => some { s with ledger, pending := s.pending.eraseIdx index }
      | .error _ => some { s with pending := s.pending.eraseIdx index }
  | .abandon index => some { s with pending := s.pending.eraseIdx index }
  | .finalize id status httpStatus usage =>
    some { s with calls := s.calls ++ [⟨id, status, httpStatus, usage, .selecting⟩] }
  | .select i answer =>
    match s.calls[i]? with
    | none => none
    | some call =>
      match call.phase with
      | .selecting => some (s.setPhase i (answer.phase (call.select s.ledger)))
      | _ => none
  | .update i now answer =>
    match s.calls[i]? with
    | none => none
    | some call =>
      match call.phase with
      | .updating requestedAtMs =>
        match call.update s.ledger requestedAtMs now with
        | .ok ledger => some ({ s with ledger }.setPhase i (answer.phase (.returned (.ok ()))))
        | .error error => some (s.setPhase i (answer.phase (.returned (.error error))))
      | _ => none
  | .fail i =>
    match s.calls[i]? with
    | none => none
    | some call => if call.phase.awaits then some (s.setPhase i (.returned (.error .database))) else none
  | .drop i =>
    match s.calls[i]? with
    | none => none
    | some call => if call.phase.awaits then some (s.setPhase i .dropped) else none

/-- A sequence of statements, in some interleaving. -/
abbrev LedgerRun : LedgerState → List LedgerAction → LedgerState → Prop :=
  Run (ofFun ledgerStep)

/-! ### What a statement does -/

section

variable {s t : LedgerState} {a : LedgerAction}

/-- The ways a statement changes the state, with what it checked. -/
inductive LedgerEffect (s : LedgerState) : LedgerAction → LedgerState → Prop
  | plan {now : OffsetDateTime} {context : RequestContext} {quota : QuotaLimits}
      {candidates : ModelCandidates} {row : Row}
      (hrow : planRow s.ledger now context quota candidates = .ok row) :
      LedgerEffect s (.plan now context quota candidates) { s with pending := s.pending ++ [row] }
  | reject {now : OffsetDateTime} {context : RequestContext} {model : String}
      {reasoningEffort : Option String} {httpStatus : Option Nat} {row : Row}
      (hrow : rejectionRow now context model reasoningEffort httpStatus = .ok row) :
      LedgerEffect s (.reject now context model reasoningEffort httpStatus)
        { s with pending := s.pending ++ [row] }
  | refuse {a : LedgerAction} (hcall : a.call = none) : LedgerEffect s a s
  | insert {index : Nat} {row : Row} (hrow : s.pending[index]? = some row)
      (hchecks : row.checks = true) :
      LedgerEffect s (.insert index)
        { s with ledger := s.ledger ++ [row], pending := s.pending.eraseIdx index }
  | abandon {a : LedgerAction} (index : Nat) (hcall : a.call = none) :
      LedgerEffect s a { s with pending := s.pending.eraseIdx index }
  | finalize {id : RequestId} {status : FinalStatus} {httpStatus : Option Nat}
      {usage : Option BillableUsage} :
      LedgerEffect s (.finalize id status httpStatus usage)
        { s with calls := s.calls ++ [⟨id, status, httpStatus, usage, .selecting⟩] }
  | quiet {a : LedgerAction} {i : Nat} {call : FinalizeCall} {phase : FinalizePhase}
      (ha : a.call = some i) (hcall : s.calls[i]? = some call)
      (hawaits : call.phase.awaits = true) (hphase : phase ≠ .returned (.ok ())) :
      LedgerEffect s a (s.setPhase i phase)
  | update {i : Nat} {now : OffsetDateTime} {answer : Answer} {call : FinalizeCall}
      {requestedAtMs : Int} {row : Row} {charge : Option Charge}
      (hcall : s.calls[i]? = some call) (hphase : call.phase = .updating requestedAtMs)
      (hrow : s.ledger[call.id]? = some row) (hstarted : row.status = .started)
      (hchecks : (call.finish row requestedAtMs now charge).checks = true) :
      LedgerEffect s (.update i now answer)
        (({ s with
          ledger := s.ledger.set call.id (call.finish row requestedAtMs now charge) } :
          LedgerState).setPhase i (answer.phase (.returned (.ok ()))))

theorem Answer.phase_ne_ok {answer : Answer} {phase : FinalizePhase}
    (h : phase ≠ .returned (.ok ())) : answer.phase phase ≠ .returned (.ok ()) := by
  cases answer with
  | heard => exact h
  | failed => exact fun heq => by cases heq
  | dropped => exact fun heq => by cases heq

theorem FinalizeCall.select_ne_ok {call : FinalizeCall} {ledger : Ledger} :
    call.select ledger ≠ .returned (.ok ()) := by
  unfold FinalizeCall.select
  split <;> exact fun heq => by cases heq

/-- **What the second statement does.** It finishes a row that is still `started`. -/
theorem FinalizeCall.update_eq_ok {call : FinalizeCall} {ledger ledger' : Ledger}
    {requestedAtMs : Int} {now : OffsetDateTime} :
    call.update ledger requestedAtMs now = .ok ledger' ↔
      ∃ charge row, chargeOption call.usage = .ok charge ∧ ledger[call.id]? = some row ∧
        row.status = .started ∧ (call.finish row requestedAtMs now charge).checks = true ∧
        ledger' = ledger.set call.id (call.finish row requestedAtMs now charge) := by
  simp only [FinalizeCall.update, finalizeUpdate, timestampMs_eq, ok_bind, bind_eq_ok,
    updateStarted_eq_ok, exists_and_left, FinalizeCall.finish]

/-- **Step lemma.** -/
theorem ledgerEffect_of_step (h : ledgerStep s a = some t) : LedgerEffect s a t := by
  cases a with
  | plan now context quota candidates =>
    cases h
    cases hrow : planRow s.ledger now context quota candidates with
    | ok row => exact .plan hrow
    | error error => exact .refuse rfl
  | reject now context model reasoningEffort httpStatus =>
    cases h
    cases hrow : rejectionRow now context model reasoningEffort httpStatus with
    | ok row => exact .reject hrow
    | error error => exact .refuse rfl
  | insert index =>
    simp only [ledgerStep] at h
    split at h
    case h_1 => cases h
    case h_2 row hrow =>
      split at h
      case h_1 ledger hinsert =>
        cases h
        obtain ⟨hchecks, rfl⟩ := insertRow_eq_ok.mp hinsert
        exact .insert hrow hchecks
      case h_2 =>
        cases h
        exact .abandon index rfl
  | abandon index =>
    cases h
    exact .abandon index rfl
  | finalize id status httpStatus usage =>
    cases h
    exact .finalize
  | select i answer =>
    simp only [ledgerStep] at h
    split at h
    case h_1 => cases h
    case h_2 call hcall =>
      split at h
      case h_2 => cases h
      case h_1 hphase =>
        cases h
        exact .quiet rfl hcall (by rw [hphase]; rfl) (Answer.phase_ne_ok FinalizeCall.select_ne_ok)
  | update i now answer =>
    simp only [ledgerStep] at h
    split at h
    case h_1 => cases h
    case h_2 call hcall =>
      split at h
      case h_2 => cases h
      case h_1 requestedAtMs hphase =>
        split at h
        case h_1 ledger hupdate =>
          cases h
          obtain ⟨charge, row, -, hrow, hstarted, hchecks, rfl⟩ :=
            FinalizeCall.update_eq_ok.mp hupdate
          exact .update hcall hphase hrow hstarted hchecks
        case h_2 error _ =>
          cases h
          exact .quiet rfl hcall (by rw [hphase]; rfl)
            (Answer.phase_ne_ok fun heq => by cases heq)
  | fail i =>
    simp only [ledgerStep] at h
    split at h
    case h_1 => cases h
    case h_2 call hcall =>
      split_ifs at h with hawaits
      cases h
      exact .quiet rfl hcall hawaits fun heq => by cases heq
  | drop i =>
    simp only [ledgerStep] at h
    split at h
    case h_1 => cases h
    case h_2 call hcall =>
      split_ifs at h with hawaits
      cases h
      exact .quiet rfl hcall hawaits fun heq => by cases heq

@[simp]
theorem LedgerState.setPhase_ledger {i : Nat} {phase : FinalizePhase} :
    (s.setPhase i phase).ledger = s.ledger := rfl

@[simp]
theorem LedgerState.setPhase_pending {i : Nat} {phase : FinalizePhase} :
    (s.setPhase i phase).pending = s.pending := rfl

/-- A call after another one, or itself, went on to another phase. -/
theorem getElem?_setPhase_cases {i j : Nat} {phase : FinalizePhase} {call' : FinalizeCall}
    (h : (s.setPhase i phase).calls[j]? = some call') :
    (j = i ∧ ∃ call, s.calls[j]? = some call ∧ call' = { call with phase }) ∨
      (j ≠ i ∧ s.calls[j]? = some call') :=
  getElem?_modify_cases h

theorem getElem?_setPhase_self {i : Nat} {phase : FinalizePhase} {call : FinalizeCall}
    (h : s.calls[i]? = some call) :
    (s.setPhase i phase).calls[i]? = some { call with phase } := by
  simp [LedgerState.setPhase, h]

theorem getElem?_setPhase_of_ne {i j : Nat} {phase : FinalizePhase} (h : j ≠ i) :
    (s.setPhase i phase).calls[j]? = s.calls[j]? := by
  simp [LedgerState.setPhase, h.symm]

/-! ### Rows change once -/

/-- How a row may change: not at all, or by leaving `started`. -/
def Row.Evolves (row row' : Row) : Prop :=
  row' = row ∨ row.status = .started ∧ row'.status ≠ .started

theorem Row.Evolves.trans {row row' row'' : Row} (h : row.Evolves row') (h' : row'.Evolves row'') :
    row.Evolves row'' := by
  rcases h with rfl | ⟨hstarted, hfinished⟩
  · exact h'
  · rcases h' with rfl | ⟨hstarted', -⟩
    · exact .inr ⟨hstarted, hfinished⟩
    · exact absurd hstarted' hfinished

theorem FinalizeCall.status_finish {call : FinalizeCall} {row : Row} {requestedAtMs : Int}
    {now : OffsetDateTime} {charge : Option Charge} :
    (call.finish row requestedAtMs now charge).status ≠ .started := by
  simp [FinalizeCall.finish, Row.finish]

/-- A statement leaves every row or finishes it. -/
theorem evolves_of_effect (h : LedgerEffect s a t) {id : RequestId} {row : Row}
    (hrow : s.ledger[id]? = some row) :
    ∃ row', t.ledger[id]? = some row' ∧ row.Evolves row' := by
  cases h with
  | plan | reject | refuse | abandon | finalize | quiet => exact ⟨row, hrow, .inl rfl⟩
  | insert => exact ⟨row, getElem?_append_of_some _ hrow, .inl rfl⟩
  | @update i now answer call requestedAtMs old charge _ _ hold hstarted =>
    rcases eq_or_ne call.id id with rfl | hne
    · rw [hold] at hrow
      cases hrow
      exact ⟨_, List.getElem?_set_self (List.getElem?_eq_some_iff.mp hold).1,
        .inr ⟨hstarted, FinalizeCall.status_finish⟩⟩
    · exact ⟨row, by simpa [List.getElem?_set_ne hne] using hrow, .inl rfl⟩

/-- **Rows change once.** From any state on, a row either stays as it is or has left `started`. -/
theorem evolves_of_run {as : List LedgerAction} (h : LedgerRun s as t) {id : RequestId} {row : Row}
    (hrow : s.ledger[id]? = some row) :
    ∃ row', t.ledger[id]? = some row' ∧ row.Evolves row' := by
  refine h.invariant (I := fun u => ∃ row', u.ledger[id]? = some row' ∧ row.Evolves row')
    (fun u a v hu hstep => ?_) ⟨row, hrow, .inl rfl⟩
  obtain ⟨row', hrow', hevolves⟩ := hu
  obtain ⟨row'', hrow'', hevolves'⟩ := evolves_of_effect (ledgerEffect_of_step hstep) hrow'
  exact ⟨row'', hrow'', hevolves.trans hevolves'⟩

/-! ### Calls that ended -/

/-- A call that ended stays as it is. -/
theorem ended_of_effect (h : LedgerEffect s a t) {i : Nat} {call : FinalizeCall}
    (hcall : s.calls[i]? = some call) (hended : call.phase.awaits = false) :
    t.calls[i]? = some call := by
  cases h with
  | plan | reject | refuse | abandon | insert => exact hcall
  | finalize => exact getElem?_append_of_some _ hcall
  | @quiet _ j call' phase _ hcall' hawaits =>
    rw [getElem?_setPhase_of_ne, hcall]
    rintro rfl
    rw [hcall] at hcall'
    cases hcall'
    rw [hended] at hawaits
    cases hawaits
  | @update j now answer call' requestedAtMs row charge hcall' hphase =>
    rw [getElem?_setPhase_of_ne]
    · exact hcall
    · rintro rfl
      rw [hcall] at hcall'
      cases hcall'
      rw [hphase] at hended
      cases hended

theorem ended_of_run {as : List LedgerAction} (h : LedgerRun s as t) {i : Nat}
    {call : FinalizeCall} (hcall : s.calls[i]? = some call)
    (hended : call.phase.awaits = false) : t.calls[i]? = some call :=
  h.invariant (I := fun u => u.calls[i]? = some call)
    (fun _ _ _ hu hstep => ended_of_effect (ledgerEffect_of_step hstep) hu hended) hcall

/-- A call whose statement changed the ledger has ended, and was told of success or of nothing
about its statement. -/
theorem told_of_effect (h : LedgerEffect s a t) {i : Nat} (ha : a.call = some i)
    (hledger : t.ledger ≠ s.ledger) :
    ∃ call, t.calls[i]? = some call ∧
      (call.phase = .returned (.ok ()) ∨ call.phase = .returned (.error .database) ∨
        call.phase = .dropped) := by
  cases h with
  | plan | reject | refuse | abandon | finalize | quiet => exact absurd rfl hledger
  | insert => cases ha
  | @update j now answer call requestedAtMs row charge hcall =>
    cases ha
    refine ⟨_, getElem?_setPhase_self hcall, ?_⟩
    cases answer with
    | heard => exact .inl rfl
    | failed => exact .inr (.inl rfl)
    | dropped => exact .inr (.inr rfl)

/-! ### Settled rows and unique answers -/

/-- What a row that left `started` shows: a duration, and token counts with a cost or neither. -/
def Row.Settled (row : Row) : Prop :=
  (∃ durationMs, row.durationMs = some durationMs ∧ 0 ≤ durationMs) ∧
    ∃ charge : Option Charge,
      row.inputTokens = charge.map (·.inputTokens) ∧
      row.cachedInputTokens = charge.map (·.cachedInputTokens) ∧
      row.outputTokens = charge.map (·.outputTokens) ∧
      row.costNanoUsd = charge.map (·.costNanoUsd) ∧ ∀ c ∈ charge, c.Sound

theorem settled_of_planRow {ledger : Ledger} {now : OffsetDateTime} {context : RequestContext}
    {quota : QuotaLimits} {candidates : ModelCandidates} {row : Row}
    (h : planRow ledger now context quota candidates = .ok row) :
    row.checks = true ∧ (row.status ≠ .started → row.Settled) := by
  obtain ⟨spent, -, h⟩ := bind_eq_ok.mp h
  obtain ⟨insertion, hplan, h⟩ := bind_eq_ok.mp h
  cases h
  obtain ⟨soft, hard, model, -, -, -, rfl⟩ := planInsertion_eq_ok.mp hplan
  refine ⟨checks_admissionRow, fun hfinished => ?_⟩
  cases hrejected : (hard || (soft && candidates.fallback.isNone)) with
  | false => simp [admissionRow, hrejected] at hfinished
  | true => exact ⟨⟨0, rfl, le_rfl⟩, none, rfl, rfl, rfl, rfl, by simp⟩

theorem settled_of_rejectionRow {now : OffsetDateTime} {context : RequestContext} {model : String}
    {reasoningEffort : Option String} {httpStatus : Option Nat} {row : Row}
    (h : rejectionRow now context model reasoningEffort httpStatus = .ok row) : row.Settled := by
  simp only [rejectionRow, timestampMs_eq, ok_bind] at h
  cases h
  exact ⟨⟨0, rfl, le_rfl⟩, none, rfl, rfl, rfl, rfl, by simp⟩

theorem FinalizeCall.settled_finish {call : FinalizeCall} {row : Row} {requestedAtMs : Int}
    {now : OffsetDateTime} {charge : Option Charge}
    (h : (call.finish row requestedAtMs now charge).checks = true) :
    (call.finish row requestedAtMs now charge).Settled := by
  obtain ⟨hduration, hsound, -⟩ := checks_finish.mp h
  exact ⟨⟨_, rfl, hduration⟩, charge, rfl, rfl, rfl, rfl, hsound⟩

/-- What holds of every state the store reaches. -/
structure LedgerState.Accounts (s : LedgerState) : Prop where
  settled : ∀ row ∈ s.ledger, row.status ≠ .started → row.Settled
  bound : ∀ row ∈ s.pending, row.status ≠ .started → row.Settled
  finished : ∀ (i : Nat) (call : FinalizeCall), s.calls[i]? = some call →
    call.phase = .returned (.ok ()) → ∃ row, s.ledger[call.id]? = some row ∧ row.status ≠ .started
  unique : ∀ (i j : Nat) (call call' : FinalizeCall), s.calls[i]? = some call →
    s.calls[j]? = some call' → call.id = call'.id → call.phase = .returned (.ok ()) →
      call'.phase = .returned (.ok ()) → i = j

theorem LedgerState.accounts_init : LedgerState.init.Accounts :=
  ⟨by simp [LedgerState.init], by simp [LedgerState.init], by simp [LedgerState.init],
    by simp [LedgerState.init]⟩

/-- A call that succeeded stands for a finished row, whatever the next statement is. -/
theorem finished_of_effect (h : LedgerEffect s a t) {id : RequestId}
    (hfinished : ∃ row, s.ledger[id]? = some row ∧ row.status ≠ .started) :
    ∃ row, t.ledger[id]? = some row ∧ row.status ≠ .started := by
  obtain ⟨row, hrow, hstatus⟩ := hfinished
  obtain ⟨row', hrow', rfl | ⟨hstarted, -⟩⟩ := evolves_of_effect h hrow
  · exact ⟨row', hrow', hstatus⟩
  · exact absurd hstarted hstatus

/-- The calls that have succeeded after a statement. The one whose update it was is the first for
its row. -/
theorem succeeded_of_effect (h : LedgerEffect s a t) {i : Nat} {call : FinalizeCall}
    (hcall : t.calls[i]? = some call) (hok : call.phase = .returned (.ok ())) :
    s.calls[i]? = some call ∨
      a.call = some i ∧ (∃ row, s.ledger[call.id]? = some row ∧ row.status = .started) ∧
        ∃ row, t.ledger[call.id]? = some row ∧ row.status ≠ .started := by
  cases h with
  | plan | reject | refuse | abandon | insert => exact .inl hcall
  | finalize =>
    rcases getElem?_append_singleton_cases hcall with hcall | ⟨-, rfl⟩
    · exact .inl hcall
    · cases hok
  | quiet ha hcall' hawaits hphase =>
    rcases getElem?_setPhase_cases hcall with ⟨-, old, -, rfl⟩ | ⟨-, hold⟩
    · exact absurd hok hphase
    · exact .inl hold
  | @update j now answer call' requestedAtMs row charge hcall' hphase hrow hstarted =>
    rcases getElem?_setPhase_cases hcall with ⟨rfl, old, hold, rfl⟩ | ⟨-, hold⟩
    · rw [show s.calls[i]? = some old from hold] at hcall'
      cases hcall'
      exact .inr ⟨rfl, ⟨row, hrow, hstarted⟩, _,
        List.getElem?_set_self (List.getElem?_eq_some_iff.mp hrow).1, FinalizeCall.status_finish⟩
    · exact .inl hold

theorem LedgerState.Accounts.step (hs : s.Accounts) (h : LedgerEffect s a t) : t.Accounts := by
  have hunique : ∀ (i j : Nat) (call call' : FinalizeCall), t.calls[i]? = some call →
      t.calls[j]? = some call' → call.id = call'.id → call.phase = .returned (.ok ()) →
        call'.phase = .returned (.ok ()) → i = j := by
    intro i j call call' hcall hcall' hid hok hok'
    rcases succeeded_of_effect h hcall hok with hold | ⟨ha, ⟨row, hrow, hstarted⟩, -⟩ <;>
      rcases succeeded_of_effect h hcall' hok' with hold' | ⟨ha', ⟨row', hrow', hstarted'⟩, -⟩
    · exact hs.unique i j call call' hold hold' hid hok hok'
    · -- The row of a call that has succeeded is no longer `started`.
      obtain ⟨row, hrow, hfinished⟩ := hs.finished i call hold hok
      rw [hid, hrow'] at hrow
      cases hrow
      exact absurd hstarted' hfinished
    · obtain ⟨row', hrow', hfinished⟩ := hs.finished j call' hold' hok'
      rw [← hid, hrow] at hrow'
      cases hrow'
      exact absurd hstarted hfinished
    · exact Option.some.inj (ha.symm.trans ha')
  have hfinished : ∀ (i : Nat) (call : FinalizeCall), t.calls[i]? = some call →
      call.phase = .returned (.ok ()) → ∃ row, t.ledger[call.id]? = some row ∧ row.status ≠ .started := by
    intro i call hcall hok
    rcases succeeded_of_effect h hcall hok with hold | ⟨-, -, hrow⟩
    · exact finished_of_effect h (hs.finished i call hold hok)
    · exact hrow
  refine ⟨?_, ?_, hfinished, hunique⟩
  · intro row hrow hstatus
    cases h with
    | plan | reject | refuse | abandon | finalize | quiet => exact hs.settled row hrow hstatus
    | @insert index new hnew =>
      rcases List.mem_append.mp hrow with hold | hmem
      · exact hs.settled row hold hstatus
      · rw [List.mem_singleton.mp hmem] at hstatus ⊢
        exact hs.bound new (List.mem_of_getElem? hnew) hstatus
    | update _ _ _ _ hchecks =>
      rcases List.mem_or_eq_of_mem_set hrow with hold | rfl
      · exact hs.settled row hold hstatus
      · exact FinalizeCall.settled_finish hchecks
  · intro row hrow hstatus
    cases h with
    | plan hplan =>
      rcases List.mem_append.mp hrow with hold | hmem
      · exact hs.bound row hold hstatus
      · rw [List.mem_singleton.mp hmem] at hstatus ⊢
        exact (settled_of_planRow hplan).2 hstatus
    | reject hreject =>
      rcases List.mem_append.mp hrow with hold | hmem
      · exact hs.bound row hold hstatus
      · rw [List.mem_singleton.mp hmem]
        exact settled_of_rejectionRow hreject
    | insert | abandon => exact hs.bound row (List.mem_of_mem_eraseIdx hrow) hstatus
    | refuse | finalize | quiet | update => exact hs.bound row hrow hstatus

theorem LedgerState.Accounts.run {as : List LedgerAction} (hs : s.Accounts)
    (h : LedgerRun s as t) : t.Accounts :=
  h.invariant (fun _ _ _ hs hstep => hs.step (ledgerEffect_of_step hstep)) hs

/-! ### Statements that callers can issue -/

/-- A status that a caller writes is one of HTTP. -/
def StatusInRange (httpStatus : Option Nat) : Prop :=
  ∀ status ∈ httpStatus, 100 ≤ status ∧ status ≤ 599

/-- A usage that a caller books is priced by the configuration. -/
def BillableUsage.PricedBy (usage : BillableUsage) (config : Config) : Prop :=
  ∃ model reasoningEffort effectiveModel,
    config.effectiveModel model reasoningEffort = some effectiveModel ∧
      usage.rates = effectiveModel.rates

/-- The calls that the handlers make under a configuration. -/
def LedgerAction.FromCallers (config : Config) : LedgerAction → Prop
  | .reject _ _ _ _ httpStatus => StatusInRange httpStatus
  | .finalize _ _ httpStatus usage =>
    StatusInRange httpStatus ∧ ∀ u ∈ usage, u.PricedBy config
  | _ => True

/-- What such calls leave: bound rows pass the checks, and so does whatever a call writes. -/
structure LedgerState.Lawful (s : LedgerState) : Prop where
  pending : ∀ row ∈ s.pending, row.checks = true
  status : ∀ call ∈ s.calls, StatusInRange call.httpStatus
  rates : ∀ call ∈ s.calls, ∀ usage ∈ call.usage, usage.rates.Nonneg

theorem LedgerState.lawful_init : LedgerState.init.Lawful :=
  ⟨by simp [LedgerState.init], by simp [LedgerState.init], by simp [LedgerState.init]⟩

/-- A call after a statement has the arguments it was made with. -/
theorem call_of_effect (h : LedgerEffect s a t) {call : FinalizeCall} (hcall : call ∈ t.calls) :
    (∃ call' ∈ s.calls, call.httpStatus = call'.httpStatus ∧ call.usage = call'.usage) ∨
      ∃ id status, a = .finalize id status call.httpStatus call.usage := by
  obtain ⟨i, hcall⟩ := List.mem_iff_getElem?.mp hcall
  cases h with
  | plan | reject | refuse | abandon | insert =>
    exact .inl ⟨call, List.mem_of_getElem? hcall, rfl, rfl⟩
  | @finalize id status =>
    rcases getElem?_append_singleton_cases hcall with hold | ⟨-, rfl⟩
    · exact .inl ⟨call, List.mem_of_getElem? hold, rfl, rfl⟩
    · exact .inr ⟨id, status, rfl⟩
  | quiet | update =>
    rcases getElem?_setPhase_cases hcall with ⟨-, old, hold, rfl⟩ | ⟨-, hold⟩
    · exact .inl ⟨old, List.mem_of_getElem? hold, rfl, rfl⟩
    · exact .inl ⟨call, List.mem_of_getElem? hold, rfl, rfl⟩

theorem LedgerState.Lawful.step {config : Config} (hs : s.Lawful)
    (hconfig : config.validate = .ok ()) (ha : a.FromCallers config) (h : LedgerEffect s a t) :
    t.Lawful := by
  refine ⟨?_, ?_, ?_⟩
  · intro row hrow
    cases h with
    | plan hplan =>
      rcases List.mem_append.mp hrow with hold | hmem
      · exact hs.pending row hold
      · rw [List.mem_singleton.mp hmem]
        exact (settled_of_planRow hplan).1
    | reject hreject =>
      rcases List.mem_append.mp hrow with hold | hmem
      · exact hs.pending row hold
      · rw [List.mem_singleton.mp hmem]
        exact checks_of_rejectionRow ha hreject
    | insert | abandon => exact hs.pending row (List.mem_of_mem_eraseIdx hrow)
    | refuse | finalize | quiet | update => exact hs.pending row hrow
  · intro call hcall
    rcases call_of_effect h hcall with ⟨call', hmem, hstatus, -⟩ | ⟨id, status, rfl⟩
    · rw [hstatus]
      exact hs.status call' hmem
    · exact ha.1
  · intro call hcall usage husage
    rcases call_of_effect h hcall with ⟨call', hmem, -, hcall'⟩ | ⟨id, status, rfl⟩
    · exact hs.rates call' hmem usage (hcall' ▸ husage)
    · obtain ⟨model, reasoningEffort, effectiveModel, heffective, hrates⟩ := ha.2 usage husage
      rw [hrates]
      exact config.validated_rates hconfig heffective

theorem LedgerState.Lawful.run {config : Config} {as : List LedgerAction} (hs : s.Lawful)
    (hconfig : config.validate = .ok ()) (has : ∀ a ∈ as, a.FromCallers config)
    (h : LedgerRun s as t) : t.Lawful :=
  (h.restrict_of_forall has).invariant
    (fun _ _ _ hs hstep => hs.step hconfig hstep.1 (ledgerEffect_of_step hstep.2)) hs

theorem insertRow_ne_database {ledger : Ledger} {row : Row} (h : row.checks = true) :
    insertRow ledger row ≠ .error .database := by
  simp [insertRow, h]

theorem charge_ne_database {usage : BillableUsage} : charge usage ≠ .error .database := by
  have hcount : ∀ value : UInt64, FailsWith (· ≠ .database) (tokenCount value) := by
    intro value
    unfold tokenCount
    split_ifs
    · exact .ok _
    · exact .error (by decide)
  have hcost : FailsWith (· ≠ .database) (calculateCostNanoUsd usage) := by
    simp only [calculateCostNanoUsd]
    split
    · exact .error (by decide)
    · split
      · exact .error (by decide)
      · split_ifs
        · exact .ok _
        · exact .error (by decide)
  have hcharge : FailsWith (· ≠ .database) (charge usage) :=
    (hcount _).bind fun _ => (hcount _).bind fun _ => (hcount _).bind fun _ =>
      hcost.bind fun _ => .ok _
  exact fun h => hcharge _ h rfl

/-- The charge of an optional usage fails only where that of the usage does. -/
theorem chargeOption_ne_database {usage : Option BillableUsage} :
    chargeOption usage ≠ .error .database := by
  intro h
  cases usage with
  | none => cases h
  | some usage =>
    rw [chargeOption] at h
    cases hcharge : charge usage with
    | ok c =>
      rw [hcharge] at h
      cases h
    | error error =>
      rw [hcharge] at h
      cases h
      exact charge_ne_database hcharge

theorem sound_of_chargeOption {usage : Option BillableUsage} {c : Option Charge}
    (hrates : ∀ u ∈ usage, u.rates.Nonneg) (h : chargeOption usage = .ok c) :
    ∀ x ∈ c, x.Sound := by
  cases usage with
  | none =>
    cases h
    simp
  | some usage =>
    rw [chargeOption] at h
    cases hcharge : charge usage with
    | error error =>
      rw [hcharge] at h
      cases h
    | ok x =>
      rw [hcharge] at h
      cases h
      rintro _ ⟨⟩
      exact sound_of_charge (hrates usage rfl) hcharge

/-- **No check fails.** The update of a call with lawful arguments never violates a constraint. -/
theorem FinalizeCall.update_ne_database {call : FinalizeCall} {ledger : Ledger}
    {requestedAtMs : Int} {now : OffsetDateTime} (hstatus : StatusInRange call.httpStatus)
    (hrates : ∀ usage ∈ call.usage, usage.rates.Nonneg) :
    call.update ledger requestedAtMs now ≠ .error .database := by
  intro h
  simp only [FinalizeCall.update, finalizeUpdate, timestampMs_eq, ok_bind, bind_eq_error] at h
  rcases h with h | ⟨c, hcharge, h⟩
  · exact chargeOption_ne_database h
  · have hsound := sound_of_chargeOption hrates hcharge
    unfold updateStarted at h
    cases hrow : ledger[call.id]? with
    | none => simp [hrow] at h
    | some row =>
      rw [hrow] at h
      simp only at h
      split_ifs at h with hstarted hchecks
      · exact hchecks (checks_finish.mpr ⟨le_max_right _ _, hsound, hstatus⟩)
      · cases h

end

/-! ### Write-once -/

/-- **Ledger rows are written once.** After any sequence of statements a row that has left
`started` never changes and one that has not is as it was inserted; of the calls for one row at
most one has succeeded; the statements of a call that returned an error have not changed the
ledger, unless it is the database's own, in which case the caller cannot tell; rows that left
`started` are settled. If the callers price by a validated configuration and write HTTP statuses,
no statement, issued or yet to be issued, violates a constraint of the table. -/
theorem ledger_writeOnce {as : List LedgerAction} {s : LedgerState}
    (h : LedgerRun .init as s) :
    (∀ (bs : List LedgerAction) (t : LedgerState), LedgerRun s bs t →
      ∀ (id : RequestId) (row : Row), s.ledger[id]? = some row →
        ∃ row', t.ledger[id]? = some row' ∧ (row.status ≠ .started → row' = row) ∧
          (row'.status = .started → row' = row)) ∧
    (∀ (i j : Nat) (call call' : FinalizeCall), s.calls[i]? = some call →
      s.calls[j]? = some call' → call.id = call'.id → call.phase = .returned (.ok ()) →
        call'.phase = .returned (.ok ()) → i = j) ∧
    (∀ (i : Nat) (call : FinalizeCall) (error : StoreError), s.calls[i]? = some call →
      call.phase = .returned (.error error) → error ≠ .database →
        ∀ (pre post : List LedgerAction) (a : LedgerAction) (u v : LedgerState),
          as = pre ++ a :: post → LedgerRun .init pre u → ledgerStep u a = some v →
            a.call = some i → v.ledger = u.ledger) ∧
    (∀ row ∈ s.ledger, row.status ≠ .started → row.Settled) ∧
    ∀ config : Config, config.validate = .ok () → (∀ a ∈ as, a.FromCallers config) →
      (∀ row ∈ s.pending, insertRow s.ledger row ≠ .error .database) ∧
        ∀ call ∈ s.calls, ∀ (requestedAtMs : Int) (now : OffsetDateTime),
          call.update s.ledger requestedAtMs now ≠ .error .database := by
  have haccounts : s.Accounts := LedgerState.accounts_init.run h
  refine ⟨fun bs t hrun id row hrow => ?_, haccounts.unique,
    fun i call error hcall hphase herror pre post a u v has hpre hstep ha => ?_,
    haccounts.settled, fun config hconfig hcallers => ?_⟩
  · obtain ⟨row', hrow', rfl | ⟨hstarted, hfinished⟩⟩ := evolves_of_run hrun hrow
    · exact ⟨row', hrow', fun _ => rfl, fun _ => rfl⟩
    · exact ⟨row', hrow', fun hne => absurd hstarted hne, fun heq => absurd heq hfinished⟩
  · by_contra hledger
    obtain ⟨told, htold, hend⟩ := told_of_effect (ledgerEffect_of_step hstep) ha hledger
    have hended : told.phase.awaits = false := by
      rcases hend with hend | hend | hend <;> rw [hend] <;> rfl
    subst has
    obtain ⟨u', hpre', hrest⟩ := run_append_iff.mp h
    obtain ⟨v', hstep', hpost⟩ := run_cons_iff.mp hrest
    cases hpre'.eq_of_ofFun hpre
    cases Option.some.inj ((show ledgerStep u a = some v' from hstep').symm.trans hstep)
    cases Option.some.inj (hcall.symm.trans (ended_of_run hpost htold hended))
    rw [hphase] at hend
    rcases hend with hend | hend | hend <;> cases hend
    exact herror rfl
  · have hlawful := LedgerState.lawful_init.run hconfig hcallers h
    exact ⟨fun row hrow => insertRow_ne_database (hlawful.pending row hrow),
      fun call hcall _ _ =>
        FinalizeCall.update_ne_database (hlawful.status call hcall) (hlawful.rates call hcall)⟩

/-- A request at noon is finished twice at midnight before it: by the terminal event and by the
client's leaving. Both calls find it `started`; the first update wins. -/
def racingFinalizers : List LedgerAction :=
  [.plan epochNoon ⟨"key", .responses, .httpSse⟩ smallQuota ⟨flatModel "large", none⟩, .insert 0,
    .finalize 0 .completed (some 200) (some ⟨2000, 0, 0, (flatModel "large").rates⟩),
    .finalize 0 .canceled none none, .select 0 .heard, .select 1 .heard,
    .update 0 .unixEpoch .heard, .update 1 .unixEpoch .heard]

/-- The state they leave. -/
def afterRace : LedgerState :=
  (exec ledgerStep .init racingFinalizers).getD .init

theorem ledger_writeOnce_race :
    (afterRace.ledger.map fun row => (row.status, row.durationMs, row.costNanoUsd)) =
        [(.final .completed, some 0, some 2000000)] ∧
      (∃ call call', afterRace.calls = [call, call'] ∧ call.phase = .returned (.ok ()) ∧
        call'.phase = .returned (.error (.requestNotStarted 0))) ∧
      (∀ row ∈ afterRace.ledger, row.status ≠ .started → row.Settled) ∧
      ∀ (bs : List LedgerAction) (t : LedgerState), LedgerRun afterRace bs t →
        ∃ row, t.ledger[0]? = some row ∧ row.status = .final .completed := by
  have hrun : LedgerRun .init racingFinalizers afterRace := run_ofFun_iff.mpr rfl
  obtain ⟨honce, -, -, hsettled, -⟩ := ledger_writeOnce hrun
  refine ⟨by decide, ⟨_, _, rfl, rfl, rfl⟩, hsettled, fun bs t ht => ?_⟩
  obtain ⟨row, hrow, hsame, -⟩ := honce bs t ht 0 _ rfl
  exact ⟨row, hrow, by rw [hsame (by decide)]; rfl⟩

end CodexApi
