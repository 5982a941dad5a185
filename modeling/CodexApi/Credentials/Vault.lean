import CodexApi.Credentials.SingleFlight

/-!
# Credentials in memory and in the store

The credential manager together with the `credentials` table. A task that saves holds the write
lock of the state; the transaction it waits for commits in a step of its own (`commit`), so that
the states in which the table is ahead of the memory are states of the system. A transaction that
reports an error has written nothing.

`CallerMove` and `TaskMove` say once what the steps of callers and tasks do to the credentials, the
generation and the outcomes. From them `credentials_consistent` collects what every run keeps.
-/

namespace CodexApi

open Transition

/-! ### The system -/

/-- The manager of a running process and the table. -/
structure Vault where
  manager : ManagerState
  stored : Option CredentialsRow
  /-- The transaction of the task that saves has committed. -/
  committed : Bool
deriving DecidableEq

/-- A step of the manager, or of the transaction that a task waits for. -/
inductive VaultAction
  | manager (action : ManagerAction)
  | commit (task : Nat)
deriving DecidableEq

/-- Whether the action is the return of `save_credentials`, and how it returns. -/
def ManagerAction.saveResult : ManagerAction → Option Bool
  | .task _ (.save (.ok _)) => some true
  | .task _ (.save (.error _)) => some false
  | _ => none

/-- A process that has just loaded its credentials. -/
def Vault.loaded (credential : Credential) (row : CredentialsRow) : Vault :=
  ⟨.init credential, some row, false⟩

/-- One step. `save_credentials` returns `Ok` after its transaction has committed, and an error
only if it has not. -/
def vaultStep (jwt : JwtDecoder) (v : Vault) : VaultAction → Option Vault
  | .manager action =>
    if ∀ ok ∈ action.saveResult, v.committed = ok then
      (managerStep jwt v.manager action).map fun manager =>
        { v with manager, committed := v.committed && action.saveResult.isNone }
    else none
  | .commit index => do
    let task ← v.manager.tasks[index]?
    match task.phase, v.committed with
    | .saving _ updated, false =>
      match saveCredentials updated v.stored with
      | .ok row => some { v with stored := some row, committed := true }
      | .error _ => none
    | _, _ => none

/-- The interleavings of callers, tasks and transactions. -/
abbrev VaultRun (jwt : JwtDecoder) := Run (ofFun (vaultStep jwt))

/-! ### What callers do -/

/-- How a caller moves on without starting a task. -/
inductive CallerMove (s : ManagerState) : CallerPhase → CallerPhase → Prop
  | gone (phase : CallerPhase) : CallerMove s phase .gone
  | refresh : CallerMove s .checking (.locking s.generation .proactive)
  | fresh : CallerMove s .checking .snapshotting
  | snapshot (hfree : s.writer = none) :
      CallerMove s .snapshotting (.returned (.ok s.snapshot))
  | lock (expectedGeneration : Nat) (reason : RefreshReason) :
      CallerMove s (.locking expectedGeneration reason) (.locked expectedGeneration reason)
  | current (expectedGeneration : Nat) (reason : RefreshReason) (hfree : s.writer = none)
      (hreason : s.generation ≠ expectedGeneration ∨ reason = .proactive) :
      CallerMove s (.locked expectedGeneration reason) (.returned (.ok s.snapshot))
  | join (flight : RefreshFlight) (reason : RefreshReason) (hflight : s.flight = some flight) :
      CallerMove s (.locked flight.generation reason) (.waiting flight.outcome)
  | finish (index : Nat) (task : RefreshTask) (outcome : RefreshOutcome)
      (htask : s.tasks[index]? = some task) (hpublished : task.published = some outcome) :
      CallerMove s (.waiting index) (.returned (outcome.mapError .sharedRefresh))

/-- The part of the state that callers only read. -/
def ManagerState.shared (s : ManagerState) : Credential × Nat × Option Nat :=
  (s.credential, s.generation, s.writer)

/-- What the step of a caller does. -/
inductive CallerStep (s : ManagerState) (index : Nat) (phase : CallerPhase) : ManagerState → Prop
  | move (t : ManagerState) (phase' : CallerPhase) (hmove : CallerMove s phase phase')
      (hshared : t.shared = s.shared) (hflight : t.flight = s.flight) (htasks : t.tasks = s.tasks)
      (hcallers : t.callers = s.callers.set index phase') : CallerStep s index phase t
  | spawn (t : ManagerState) (reason : RefreshReason)
      (hphase : phase = .locked s.generation reason) (hshared : t.shared = s.shared)
      (hflight : t.flight = some ⟨s.generation, s.tasks.length⟩)
      (htasks : t.tasks = s.tasks ++ [⟨s.generation, .reading, none⟩])
      (hcallers : t.callers = s.callers.set index (.waiting s.tasks.length)) :
      CallerStep s index phase t

section

variable {jwt : JwtDecoder} {s t : ManagerState}

theorem callerStep_of_pollCaller {index : Nat} {now : OffsetDateTime} {phase : CallerPhase}
    (h : s.pollCaller index now phase = some t) : CallerStep s index phase t := by
  cases phase with
  | checking =>
    simp only [ManagerState.pollCaller] at h
    split_ifs at h
    split at h <;> cases h
    · exact .move _ _ (.gone _) rfl rfl rfl rfl
    · exact .move _ _ .refresh rfl rfl rfl rfl
    · exact .move _ _ .fresh rfl rfl rfl rfl
  | snapshotting =>
    simp only [ManagerState.pollCaller] at h
    split_ifs at h with hfree
    cases h
    exact .move _ _ (.snapshot hfree) rfl rfl rfl rfl
  | locking =>
    simp only [ManagerState.pollCaller] at h
    split_ifs at h
    cases h
    exact .move _ _ (.lock _ _) rfl rfl rfl rfl
  | locked expectedGeneration reason =>
    simp only [ManagerState.pollCaller] at h
    split_ifs at h with hfree
    cases h
    simp only [ManagerState.joinFlight]
    split_ifs with hstale
    · exact .move _ _ (.current _ _ hfree (.inl hstale)) rfl rfl rfl rfl
    obtain rfl : s.generation = expectedGeneration := not_not.mp hstale
    split
    · exact .move _ _ (.gone _) rfl rfl rfl rfl
    · next hwanted =>
      refine .move _ _ (.current _ _ hfree (.inr ?_)) rfl rfl rfl rfl
      cases reason with
      | proactive => rfl
      | unauthorized => cases hwanted
    split
    · next flight hflight =>
      obtain ⟨hflight, hgeneration⟩ := Option.filter_eq_some_iff.mp hflight
      have hgeneration : flight.generation = s.generation := of_decide_eq_true hgeneration
      refine .move _ _ ?_ rfl rfl rfl rfl
      rw [← hgeneration]
      exact .join flight reason hflight
    · exact .spawn _ reason rfl rfl rfl rfl rfl
  | waiting task =>
    simp only [ManagerState.pollCaller] at h
    split at h <;> cases h
    next outcome houtcome =>
    obtain ⟨found, hfound, hpublished⟩ := Option.bind_eq_some_iff.mp houtcome
    exact .move _ _ (.finish task found outcome hfound hpublished) rfl rfl rfl rfl
  | returned => cases h
  | gone => cases h

/-! ### What tasks do -/

/-- The outcome a task is about to publish. -/
def TaskPhase.outcome : TaskPhase → Option RefreshOutcome
  | .clearing outcome | .publishing outcome => some outcome
  | _ => none

/-- Whether a task waits for `save_credentials`, and with which credentials. -/
def TaskPhase.updated : TaskPhase → Option Credential
  | .saving _ updated => some updated
  | _ => none

@[simp]
theorem outcome_afterOutcome (outcome : RefreshOutcome) :
    (ManagerState.afterOutcome outcome).outcome = some outcome := by
  unfold ManagerState.afterOutcome
  split
  · split_ifs <;> rfl
  · rfl

@[simp]
theorem updated_afterOutcome (outcome : RefreshOutcome) :
    (ManagerState.afterOutcome outcome).updated = none := by
  unfold ManagerState.afterOutcome
  split
  · split_ifs <;> rfl
  · rfl

/-- Whether a task is before its save. -/
def TaskPhase.pending : TaskPhase → Bool
  | .reading | .sending _ | .receiving _ | .acquiring _ _ => true
  | _ => false

/-- A task has its outcome. -/
def RefreshTask.conclude (task : RefreshTask) (outcome : RefreshOutcome) : RefreshTask :=
  { task with phase := ManagerState.afterOutcome outcome }

@[simp]
theorem updated_conclude (task : RefreshTask) (outcome : RefreshOutcome) :
    (task.conclude outcome).phase.updated = none :=
  updated_afterOutcome outcome

@[simp]
theorem outcome_conclude (task : RefreshTask) (outcome : RefreshOutcome) :
    (task.conclude outcome).phase.outcome = some outcome :=
  outcome_afterOutcome outcome

/-- What the step of a task does: the new phase and outcome of the task, and the part of the state
that callers only read. -/
inductive TaskMove (jwt : JwtDecoder) (s : ManagerState) (index : Nat) (task : RefreshTask) :
    TaskEvent → RefreshTask → Credential × Nat × Option Nat → Prop
  /-- A request is sent, or its status read. -/
  | request {event : TaskEvent} (phase : TaskPhase) (hsave : ∀ result, event ≠ .save result)
      (hwas : task.phase.pending = true) (hpending : phase.pending = true)
      (hsilent : ∀ exchange refreshed, phase ≠ .acquiring exchange refreshed) :
      TaskMove jwt s index task event { task with phase } s.shared
  /-- The response arrives. -/
  | respond (exchange : Nat) (refreshed : RefreshResponse)
      (hwas : task.phase = .receiving exchange) :
      TaskMove jwt s index task (.body (some refreshed))
        { task with phase := .acquiring exchange refreshed } s.shared
  /-- The write lock is taken for a save. -/
  | acquire (exchange : Nat) (refreshed : RefreshResponse) (now : OffsetDateTime)
      (updated : Credential) (hwas : task.phase = .acquiring exchange refreshed)
      (hfree : s.writer = none)
      (hupdated : refreshedCredential jwt s.credential refreshed now = .ok updated) :
      TaskMove jwt s index task (.poll now) { task with phase := .saving exchange updated }
        (s.credential, s.generation, some index)
  /-- Another refresh was first. -/
  | superseded {event : TaskEvent} (hsave : ∀ result, event ≠ .save result)
      (hwas : task.phase.pending = true) (hfree : s.writer = none)
      (hgeneration : s.generation ≠ task.expectedGeneration) :
      TaskMove jwt s index task event (task.conclude (.ok s.snapshot)) s.shared
  /-- The refresh fails before it saves. -/
  | fail {event : TaskEvent} (error : CredentialError) (hsave : ∀ result, event ≠ .save result)
      (hwas : task.phase.pending = true) :
      TaskMove jwt s index task event (task.conclude (.error error)) s.shared
  /-- The save fails. -/
  | unsaved (exchange : Nat) (error : StoreError) (updated : Credential)
      (hwas : task.phase = .saving exchange updated) :
      TaskMove jwt s index task (.save (.error error)) (task.conclude (.error (.store error)))
        (s.credential, s.generation, none)
  /-- The save succeeds and is published to the callers. -/
  | saved (exchange : Nat) (updated : Credential) (hwas : task.phase = .saving exchange updated) :
      TaskMove jwt s index task (.save (.ok ()))
        (task.conclude (.ok ⟨updated.accessToken, updated.accountId, s.generation + 1⟩))
        (updated, s.generation + 1, none)
  /-- The slot is cleared before the outcome is published. -/
  | clear (now : OffsetDateTime) (outcome : RefreshOutcome)
      (hwas : task.phase = .clearing outcome) :
      TaskMove jwt s index task (.poll now) { task with phase := .publishing outcome } s.shared
  | publish (now : OffsetDateTime) (outcome : RefreshOutcome)
      (hwas : task.phase = .publishing outcome) :
      TaskMove jwt s index task (.poll now) ⟨task.expectedGeneration, .finished, some outcome⟩
        s.shared

theorem taskMove_of_pollTask {index : Nat} {task : RefreshTask} {event : TaskEvent}
    (h : s.pollTask jwt index task task.phase event = some t) :
    ∃ task', TaskMove jwt s index task event task' t.shared ∧
      t.tasks = s.tasks.set index task' ∧ t.callers = s.callers ∧
      (t.flight = s.flight ∨ t.flight = none) := by
  cases hphase : task.phase with
  | reading =>
    have hwas : task.phase.pending = true := by rw [hphase]; rfl
    cases event <;> simp only [hphase, ManagerState.pollTask, reduceCtorEq] at h
    split_ifs at h with hfree hstale
    · cases h
      exact ⟨_, .superseded (by simp) hwas hfree hstale, rfl, rfl, .inl rfl⟩
    · cases h
      exact ⟨_, .request _ (by simp) hwas rfl (by simp), rfl, rfl, .inl rfl⟩
  | sending exchange =>
    have hwas : task.phase.pending = true := by rw [hphase]; rfl
    cases event <;> simp only [hphase, ManagerState.pollTask, reduceCtorEq] at h
    case transportFailure =>
      cases h
      exact ⟨_, .fail _ (by simp) hwas, rfl, rfl, .inl rfl⟩
    case status code =>
      split_ifs at h
      · cases h
        exact ⟨_, .request _ (by simp) hwas rfl (by simp), rfl, rfl, .inl rfl⟩
      · cases h
        exact ⟨_, .fail _ (by simp) hwas, rfl, rfl, .inl rfl⟩
  | receiving exchange =>
    have hwas : task.phase.pending = true := by rw [hphase]; rfl
    cases event <;> simp only [hphase, ManagerState.pollTask, reduceCtorEq] at h
    case body refreshed =>
      cases refreshed with
      | none =>
        cases h
        exact ⟨_, .fail _ (by simp) hwas, rfl, rfl, .inl rfl⟩
      | some refreshed =>
        cases h
        exact ⟨_, .respond exchange refreshed hphase, rfl, rfl, .inl rfl⟩
  | acquiring exchange refreshed =>
    have hwas : task.phase.pending = true := by rw [hphase]; rfl
    cases event <;> simp only [hphase, ManagerState.pollTask, reduceCtorEq] at h
    split_ifs at h with hfree hstale
    · cases h
      exact ⟨_, .superseded (by simp) hwas hfree hstale, rfl, rfl, .inl rfl⟩
    · split at h
      · cases h
        exact ⟨_, .fail _ (by simp) hwas, rfl, rfl, .inl rfl⟩
      · next updated hupdated =>
        cases h
        exact ⟨_, .acquire exchange refreshed _ updated hphase hfree hupdated, rfl, rfl, .inl rfl⟩
  | saving exchange updated =>
    cases event <;> simp only [hphase, ManagerState.pollTask, reduceCtorEq] at h
    case save result =>
      cases result with
      | error error =>
        cases h
        exact ⟨_, .unsaved exchange error updated hphase, rfl, rfl, .inl rfl⟩
      | ok u =>
        cases h
        exact ⟨_, .saved exchange updated hphase, rfl, rfl, .inl rfl⟩
  | clearing outcome =>
    cases event <;> simp only [hphase, ManagerState.pollTask, reduceCtorEq] at h
    split at h <;> cases h
    refine ⟨_, .clear _ outcome hphase, rfl, rfl, ?_⟩
    split
    · exact .inr rfl
    · exact .inl rfl
  | publishing outcome =>
    cases event <;> simp only [hphase, ManagerState.pollTask, reduceCtorEq] at h
    cases h
    exact ⟨_, .publish _ outcome hphase, rfl, rfl, .inl rfl⟩
  | finished => simp [hphase, ManagerState.pollTask] at h

/-! ### What the manager does -/

/-- What an action of the manager does to tasks and to what callers read. -/
inductive ManagerMove (jwt : JwtDecoder) (s : ManagerState) :
    ManagerAction → ManagerState → Prop
  /-- Only callers and the flight lock change. -/
  | frame {action : ManagerAction} {t : ManagerState} (hsave : action.saveResult = none)
      (hshared : t.shared = s.shared) (hflight : t.flight = s.flight) (htasks : t.tasks = s.tasks) :
      ManagerMove jwt s action t
  | spawn {action : ManagerAction} {t : ManagerState} (hsave : action.saveResult = none)
      (hshared : t.shared = s.shared) (hflight : t.flight = some ⟨s.generation, s.tasks.length⟩)
      (htasks : t.tasks = s.tasks ++ [⟨s.generation, .reading, none⟩]) :
      ManagerMove jwt s action t
  | task (index : Nat) (event : TaskEvent) (task task' : RefreshTask) {t : ManagerState}
      (htask : s.tasks[index]? = some task) (hmove : TaskMove jwt s index task event task' t.shared)
      (hflight : t.flight = s.flight ∨ t.flight = none)
      (htasks : t.tasks = s.tasks.set index task') : ManagerMove jwt s (.task index event) t

theorem managerMove_of_step {action : ManagerAction} (h : managerStep jwt s action = some t) :
    ManagerMove jwt s action t := by
  cases action with
  | credentials =>
    cases h
    exact .frame rfl rfl rfl rfl
  | refreshAfterUnauthorized failedGeneration =>
    cases h
    exact .frame rfl rfl rfl rfl
  | caller index now =>
    obtain ⟨phase, -, h⟩ := Option.bind_eq_some_iff.mp h
    cases callerStep_of_pollCaller h with
    | move phase' _ hshared hflight htasks => exact .frame rfl hshared hflight htasks
    | spawn reason _ hshared hflight htasks => exact .spawn rfl hshared hflight htasks
  | cancel index =>
    cases h
    exact .frame rfl rfl rfl rfl
  | task index event =>
    obtain ⟨task, htask, h⟩ := Option.bind_eq_some_iff.mp h
    obtain ⟨task', hmove, htasks, -, hflight⟩ := taskMove_of_pollTask h
    exact .task index event task task' htask hmove hflight htasks

/-- Where a caller is after an action: where it was, one move on, at its start, or at a new task. -/
theorem caller_of_step {action : ManagerAction} (h : managerStep jwt s action = some t)
    {index : Nat} {phase' : CallerPhase} (hcaller : t.callers[index]? = some phase') :
    s.callers[index]? = some phase' ∨
    (∃ phase, s.callers[index]? = some phase ∧ (CallerMove s phase phase' ∨
      ∃ reason, phase = .locked s.generation reason ∧ phase' = .waiting s.tasks.length ∧
        t.tasks = s.tasks ++ [⟨s.generation, .reading, none⟩])) ∨
    (index = s.callers.length ∧ (phase' = .checking ∨
      ∃ failedGeneration, action = .refreshAfterUnauthorized failedGeneration ∧
        phase' = .locking failedGeneration .unauthorized)) := by
  cases action with
  | credentials =>
    cases h
    rcases getElem?_append_singleton_cases hcaller with hold | ⟨hindex, hnew⟩
    · exact .inl hold
    · exact .inr (.inr ⟨hindex, .inl hnew⟩)
  | refreshAfterUnauthorized failedGeneration =>
    cases h
    rcases getElem?_append_singleton_cases hcaller with hold | ⟨hindex, hnew⟩
    · exact .inl hold
    · exact .inr (.inr ⟨hindex, .inr ⟨failedGeneration, rfl, hnew⟩⟩)
  | caller moved now =>
    obtain ⟨phase, hphase, h⟩ := Option.bind_eq_some_iff.mp h
    cases callerStep_of_pollCaller h with
    | move phase'' hmove _ _ _ hcallers =>
      rw [hcallers] at hcaller
      rcases getElem?_set_cases hcaller with ⟨rfl, rfl⟩ | ⟨-, hold⟩
      · exact .inr (.inl ⟨phase, hphase, .inl hmove⟩)
      · exact .inl hold
    | spawn reason hlocked _ _ htasks hcallers =>
      rw [hcallers] at hcaller
      rcases getElem?_set_cases hcaller with ⟨rfl, rfl⟩ | ⟨-, hold⟩
      · exact .inr (.inl ⟨phase, hphase, .inr ⟨reason, hlocked, rfl, htasks⟩⟩)
      · exact .inl hold
  | cancel canceled =>
    cases h
    rcases getElem?_set_cases hcaller with ⟨rfl, rfl⟩ | ⟨-, hold⟩
    · have hlt : index < s.callers.length := by
        have hlt := (List.getElem?_eq_some_iff.mp hcaller).1
        simpa [ManagerState.setCaller, ManagerState.unlock] using hlt
      exact .inr (.inl ⟨_, List.getElem?_eq_getElem hlt, .inl (.gone _)⟩)
    · exact .inl hold
  | task moved event =>
    obtain ⟨task, -, h⟩ := Option.bind_eq_some_iff.mp h
    obtain ⟨task', -, -, hcallers, -⟩ := taskMove_of_pollTask h
    rw [hcallers] at hcaller
    exact .inl hcaller

end

end CodexApi
