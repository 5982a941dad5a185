import CodexApi.Credentials.Refresh
import CodexApi.Lib.List

/-!
# Single-flight token rotation

`refresh_generation` and the task it spawns as a transition system. A caller passes through the
await points of `credentials` and `refresh_after_unauthorized`; a task passes through those of
`perform_refresh` and of publishing its outcome. What happens between two await points is one
step. Locks are explicit: a caller that awaits the state while it holds the flight lock keeps
every other one out, and a task keeps the write lock of the state while it saves. A caller may be
canceled wherever it waits; tasks are detached and run on.

`exchanges` lists every request sent to the OAuth endpoint with what became of it. The invariant
`SingleFlight` says that a task that may still send or save is the one in the flight slot, and
that an exchange that failed for good leaves the slot taken (`Latched`).
-/

namespace CodexApi

open Transition

/-! ### Callers, tasks and exchanges -/

/-- What a request to the upstream authenticates with. -/
structure CredentialSnapshot where
  accessToken : String
  accountId : String
  generation : Nat
deriving DecidableEq

/-- `SharedRefreshOutcome`. -/
abbrev RefreshOutcome := Except CredentialError CredentialSnapshot

/-- Why a generation is refreshed. -/
inductive RefreshReason
  | proactive
  | unauthorized
deriving DecidableEq

/-- The await points of a caller, with what it holds across them. -/
inductive CallerPhase
  /-- `credentials` reads the state. -/
  | checking
  /-- `credentials` found no need to refresh and reads the state again. -/
  | snapshotting
  /-- `refresh_generation` waits for the flight lock. -/
  | locking (expectedGeneration : Nat) (reason : RefreshReason)
  /-- It holds the flight lock and reads the state. -/
  | locked (expectedGeneration : Nat) (reason : RefreshReason)
  /-- It waits for the outcome of a task. -/
  | waiting (task : Nat)
  | returned (result : RefreshOutcome)
  /-- The caller was canceled, or its time arithmetic panicked. -/
  | gone
deriving DecidableEq

/-- The await points of a refresh task. From `sending` to `saving` it is busy with one exchange. -/
inductive TaskPhase
  | reading
  | sending (exchange : Nat)
  | receiving (exchange : Nat)
  | acquiring (exchange : Nat) (refreshed : RefreshResponse)
  | saving (exchange : Nat) (updated : Credential)
  /-- A server error waits for the flight lock to clear the slot. -/
  | clearing (outcome : RefreshOutcome)
  | publishing (outcome : RefreshOutcome)
  | finished
deriving DecidableEq

/-- A spawned refresh with the channel it publishes its outcome on. -/
structure RefreshTask where
  expectedGeneration : Nat
  phase : TaskPhase
  published : Option RefreshOutcome
deriving DecidableEq

/-- The flight slot: the generation being refreshed and the task whose outcome is shared. -/
structure RefreshFlight where
  generation : Nat
  outcome : Nat
deriving DecidableEq

/-- What became of an exchange. -/
inductive ExchangeEnd
  | transportFailure
  | httpError (status : Nat)
  | malformedBody
  /-- A successful response whose tokens were not accepted. -/
  | refused
  /-- Accepted tokens that could not be saved. -/
  | unsaved
  | saved
  /-- The generation had changed when the response arrived. -/
  | superseded
deriving DecidableEq

/-- A request to the OAuth endpoint; it has no `result` until its tokens are saved or given
up. -/
structure Exchange where
  generation : Nat
  refreshToken : String
  result : Option ExchangeEnd
deriving DecidableEq

/-- The credential manager with its callers and tasks. -/
structure ManagerState where
  credential : Credential
  generation : Nat
  flight : Option RefreshFlight
  /-- The caller that holds the flight lock. -/
  flightHolder : Option Nat
  /-- The task that holds the write lock of the state. -/
  writer : Option Nat
  callers : List CallerPhase
  tasks : List RefreshTask
  exchanges : List Exchange
deriving DecidableEq

/-- `CredentialManager::load`. -/
def ManagerState.init (credential : Credential) : ManagerState :=
  ⟨credential, 0, none, none, none, [], [], []⟩

/-- `snapshot_from_state`. -/
def ManagerState.snapshot (s : ManagerState) : CredentialSnapshot :=
  ⟨s.credential.accessToken, s.credential.accountId, s.generation⟩

/-- What a task waits for. -/
inductive TaskEvent
  /-- A lock, or nothing; the clock shows `now`. -/
  | poll (now : OffsetDateTime)
  | transportFailure
  | status (code : Nat)
  /-- The body of a successful response, if it is well formed. -/
  | body (refreshed : Option RefreshResponse)
  | save (result : Except StoreError Unit)
deriving DecidableEq

/-- One step of the manager. -/
inductive ManagerAction
  | credentials
  | refreshAfterUnauthorized (failedGeneration : Nat)
  | caller (index : Nat) (now : OffsetDateTime)
  | cancel (index : Nat)
  | task (index : Nat) (event : TaskEvent)
deriving DecidableEq

/-! ### Steps -/

namespace ManagerState

/-- A caller moves on. -/
def setCaller (s : ManagerState) (index : Nat) (phase : CallerPhase) : ManagerState :=
  { s with callers := s.callers.set index phase }

/-- A task moves on. -/
def setTask (s : ManagerState) (index : Nat) (task : RefreshTask) (phase : TaskPhase) :
    ManagerState :=
  { s with tasks := s.tasks.set index { task with phase } }

/-- An exchange ends. -/
def endExchange (s : ManagerState) (exchange : Nat) (result : ExchangeEnd) : ManagerState :=
  { s with exchanges := s.exchanges.modify exchange fun e => { e with result := some result } }

/-- A caller drops the flight lock if it holds it. -/
def unlock (s : ManagerState) (index : Nat) : ManagerState :=
  { s with flightHolder := if s.flightHolder = some index then none else s.flightHolder }

/-- Whether a credential of the expected generation is to be refreshed; `none` is a panic. -/
def refreshWanted (credential : Credential) (now : OffsetDateTime) : RefreshReason → Option Bool
  | .proactive => credentialNeedsRefresh credential now
  | .unauthorized => some true

/-- `refresh_generation` once it holds the flight lock and the state. -/
def joinFlight (s : ManagerState) (index : Nat) (expectedGeneration : Nat) (reason : RefreshReason)
    (now : OffsetDateTime) : ManagerState :=
  let s := s.unlock index
  if s.generation ≠ expectedGeneration then s.setCaller index (.returned (.ok s.snapshot))
  else
    match refreshWanted s.credential now reason with
    | none => s.setCaller index .gone
    | some false => s.setCaller index (.returned (.ok s.snapshot))
    | some true =>
      match s.flight.filter (·.generation = expectedGeneration) with
      | some existing => s.setCaller index (.waiting existing.outcome)
      | none =>
        { s with
          flight := some ⟨expectedGeneration, s.tasks.length⟩
          tasks := s.tasks ++ [⟨expectedGeneration, .reading, none⟩]
          callers := s.callers.set index (.waiting s.tasks.length) }

/-- A caller whose await point is ready. -/
def pollCaller (s : ManagerState) (index : Nat) (now : OffsetDateTime) :
    CallerPhase → Option ManagerState
  | .checking =>
    if s.writer = none then
      match credentialNeedsRefresh s.credential now with
      | none => some (s.setCaller index .gone)
      | some true => some (s.setCaller index (.locking s.generation .proactive))
      | some false => some (s.setCaller index .snapshotting)
    else none
  | .snapshotting =>
    if s.writer = none then some (s.setCaller index (.returned (.ok s.snapshot))) else none
  | .locking expectedGeneration reason =>
    if s.flightHolder = none then
      some { s.setCaller index (.locked expectedGeneration reason) with
        flightHolder := some index }
    else none
  | .locked expectedGeneration reason =>
    if s.writer = none then some (s.joinFlight index expectedGeneration reason now) else none
  | .waiting task =>
    match (s.tasks[task]?).bind (·.published) with
    | some outcome => some (s.setCaller index (.returned (outcome.mapError .sharedRefresh)))
    | none => none
  | .returned _ | .gone => none

/-- Where a task goes with the outcome of `perform_refresh`. -/
def afterOutcome (outcome : RefreshOutcome) : TaskPhase :=
  match outcome with
  | .error (.oauthRejected status) =>
    if 500 ≤ status ∧ status ≤ 599 then .clearing outcome else .publishing outcome
  | _ => .publishing outcome

/-- An exchange fails, and with it the task. -/
def failExchange (s : ManagerState) (index : Nat) (task : RefreshTask) (exchange : Nat)
    (result : ExchangeEnd) (error : CredentialError) : ManagerState :=
  (s.endExchange exchange result).setTask index task (afterOutcome (.error error))

/-- A task whose await point is ready. -/
def pollTask (jwt : JwtDecoder) (s : ManagerState) (index : Nat) (task : RefreshTask) :
    TaskPhase → TaskEvent → Option ManagerState
  | .reading, .poll _ =>
    if s.writer = none then
      if s.generation ≠ task.expectedGeneration then
        some (s.setTask index task (afterOutcome (.ok s.snapshot)))
      else
        some { s.setTask index task (.sending s.exchanges.length) with
          exchanges := s.exchanges ++ [⟨task.expectedGeneration, s.credential.refreshToken, none⟩] }
    else none
  | .sending exchange, .transportFailure =>
    some (s.failExchange index task exchange .transportFailure .oauthRequest)
  | .sending exchange, .status code =>
    if 200 ≤ code ∧ code ≤ 299 then some (s.setTask index task (.receiving exchange))
    else some (s.failExchange index task exchange (.httpError code) (.oauthRejected code))
  | .receiving exchange, .body none =>
    some (s.failExchange index task exchange .malformedBody .oauthResponse)
  | .receiving exchange, .body (some refreshed) =>
    some (s.setTask index task (.acquiring exchange refreshed))
  | .acquiring exchange refreshed, .poll now =>
    if s.writer = none then
      if s.generation ≠ task.expectedGeneration then
        some ((s.endExchange exchange .superseded).setTask index task
          (afterOutcome (.ok s.snapshot)))
      else
        match refreshedCredential jwt s.credential refreshed now with
        | .error error => some (s.failExchange index task exchange .refused error)
        | .ok updated =>
          some { s.setTask index task (.saving exchange updated) with writer := some index }
    else none
  | .saving exchange updated, .save (.ok ()) =>
    let s := { s with credential := updated, generation := s.generation + 1, writer := none }
    some ((s.endExchange exchange .saved).setTask index task (afterOutcome (.ok s.snapshot)))
  | .saving exchange _, .save (.error error) =>
    some (({ s with writer := none } : ManagerState).failExchange index task exchange .unsaved (.store error))
  | .clearing outcome, .poll _ =>
    if s.flightHolder = none then
      let flight :=
        if s.flight.any (·.generation = task.expectedGeneration) then none else s.flight
      some { s.setTask index task (.publishing outcome) with flight }
    else none
  | .publishing outcome, .poll _ =>
    let finished := { task with phase := .finished, published := some outcome }
    some { s with tasks := s.tasks.set index finished }
  | _, _ => none

end ManagerState

/-- One step; `none` where the action is not possible. -/
def managerStep (jwt : JwtDecoder) (s : ManagerState) : ManagerAction → Option ManagerState
  | .credentials => some { s with callers := s.callers ++ [.checking] }
  | .refreshAfterUnauthorized failedGeneration =>
    some { s with callers := s.callers ++ [.locking failedGeneration .unauthorized] }
  | .caller index now => do s.pollCaller index now (← s.callers[index]?)
  | .cancel index => some ((s.unlock index).setCaller index .gone)
  | .task index event => do
    let task ← s.tasks[index]?
    s.pollTask jwt index task task.phase event

/-- The interleavings of callers and tasks. -/
abbrev ManagerRun (jwt : JwtDecoder) := Run (ofFun (managerStep jwt))

/-! ### What a step does -/

/-- Whether a task may still send an exchange, or is busy with one, or is about to clear the
slot. -/
def TaskPhase.active : TaskPhase → Bool
  | .publishing _ | .finished => false
  | _ => true

/-- The exchange a task is busy with. -/
def TaskPhase.exchange : TaskPhase → Option Nat
  | .sending exchange | .receiving exchange | .acquiring exchange _ | .saving exchange _ =>
    some exchange
  | _ => none

/-- Whether an exchange ended in an HTTP 5xx. -/
def ExchangeEnd.serverError : ExchangeEnd → Bool
  | .httpError status => decide (500 ≤ status ∧ status ≤ 599)
  | _ => false

/-- Whether an exchange ended without new credentials, and not in a 5xx. -/
def ExchangeEnd.failedForGood : ExchangeEnd → Bool
  | .saved | .superseded => false
  | result => !result.serverError

/-- What a step changes, as far as flights and exchanges are concerned. -/
inductive FlightEffect (s : ManagerState) : ManagerState → Prop
  /-- Only callers, locks and channels change. -/
  | frame (t : ManagerState) (hgeneration : t.generation = s.generation)
      (hflight : t.flight = s.flight) (hexchanges : t.exchanges = s.exchanges)
      (htasks : t.tasks = s.tasks) : FlightEffect s t
  | spawn (t : ManagerState) (hgeneration : t.generation = s.generation)
      (hfree : ∀ flight, s.flight = some flight → flight.generation ≠ s.generation)
      (hflight : t.flight = some ⟨s.generation, s.tasks.length⟩)
      (hexchanges : t.exchanges = s.exchanges)
      (htasks : t.tasks = s.tasks ++ [⟨s.generation, .reading, none⟩]) : FlightEffect s t
  /-- A task moves on with its exchange, or with none. -/
  | move (t : ManagerState) (index : Nat) (task : RefreshTask) (phase : TaskPhase)
      (published : Option RefreshOutcome) (htask : s.tasks[index]? = some task)
      (hexchange : phase.exchange = task.phase.exchange)
      (hactive : phase.active = true → task.phase.active = true)
      (hgeneration : t.generation = s.generation)
      (hflight : t.flight = s.flight ∨
        t.flight = none ∧ task.phase.active = true ∧ phase.active = false)
      (hexchanges : t.exchanges = s.exchanges)
      (htasks : t.tasks = s.tasks.set index { task with phase, published }) : FlightEffect s t
  | send (t : ManagerState) (index : Nat) (task : RefreshTask)
      (htask : s.tasks[index]? = some task) (hphase : task.phase = .reading)
      (hcurrent : task.expectedGeneration = s.generation)
      (hgeneration : t.generation = s.generation) (hflight : t.flight = s.flight)
      (hexchanges : t.exchanges = s.exchanges ++ [⟨s.generation, s.credential.refreshToken, none⟩])
      (htasks : t.tasks = s.tasks.set index { task with phase := .sending s.exchanges.length }) :
      FlightEffect s t
  /-- An exchange ends. The generation moves on exactly when it is saved. -/
  | finish (t : ManagerState) (index : Nat) (task : RefreshTask) (exchange : Nat)
      (result : ExchangeEnd) (phase : TaskPhase) (htask : s.tasks[index]? = some task)
      (hexchange : task.phase.exchange = some exchange)
      (hphase : phase.exchange = none)
      (hactive : phase.active = true → result.serverError = true)
      (hsuperseded : result = .superseded → s.generation ≠ task.expectedGeneration)
      (hgeneration : t.generation = s.generation + if result = .saved then 1 else 0)
      (hflight : t.flight = s.flight)
      (hexchanges : t.exchanges =
        s.exchanges.modify exchange fun e => { e with result := some result })
      (htasks : t.tasks = s.tasks.set index { task with phase }) : FlightEffect s t

section

variable {jwt : JwtDecoder} {s t : ManagerState} {a : ManagerAction} {as : List ManagerAction}

theorem active_of_exchange {phase : TaskPhase} {exchange : Nat}
    (h : phase.exchange = some exchange) : phase.active = true := by
  cases phase <;> first | rfl | cases h

/-- Where a task goes next is no exchange, and only a 5xx keeps it active. -/
theorem afterOutcome_spec (outcome : RefreshOutcome) :
    (ManagerState.afterOutcome outcome).exchange = none ∧
      ((ManagerState.afterOutcome outcome).active = true →
        ∃ status, outcome = .error (.oauthRejected status) ∧ 500 ≤ status ∧ status ≤ 599) := by
  unfold ManagerState.afterOutcome
  split
  · split_ifs with hserver
    · exact ⟨rfl, fun _ => ⟨_, rfl, hserver⟩⟩
    · exact ⟨rfl, fun h => by cases h⟩
  · exact ⟨rfl, fun h => by cases h⟩

/-- Callers change no exchange; at most they spawn a task for a free slot. -/
theorem flightEffect_of_pollCaller {index : Nat} {now : OffsetDateTime} {phase : CallerPhase}
    (h : s.pollCaller index now phase = some t) : FlightEffect s t := by
  cases phase with
  | checking =>
    simp only [ManagerState.pollCaller] at h
    split_ifs at h
    split at h <;> cases h <;> exact .frame _ rfl rfl rfl rfl
  | snapshotting =>
    simp only [ManagerState.pollCaller] at h
    split_ifs at h
    cases h
    exact .frame _ rfl rfl rfl rfl
  | locking =>
    simp only [ManagerState.pollCaller] at h
    split_ifs at h
    cases h
    exact .frame _ rfl rfl rfl rfl
  | locked expectedGeneration reason =>
    simp only [ManagerState.pollCaller] at h
    split_ifs at h
    cases h
    simp only [ManagerState.joinFlight]
    split_ifs with hstale
    · exact .frame _ rfl rfl rfl rfl
    split
    · exact .frame _ rfl rfl rfl rfl
    · exact .frame _ rfl rfl rfl rfl
    split
    · exact .frame _ rfl rfl rfl rfl
    · next hfree =>
      obtain rfl : s.generation = expectedGeneration := not_not.mp hstale
      refine .spawn _ rfl (fun flight hflight heq => ?_) rfl rfl rfl
      have hslot : s.flight.filter (·.generation = s.generation) = none := hfree
      rw [hflight] at hslot
      simp [heq] at hslot
  | waiting task =>
    simp only [ManagerState.pollCaller] at h
    split at h <;> cases h
    exact .frame _ rfl rfl rfl rfl
  | returned => cases h
  | gone => cases h

/-- An exchange that fails. -/
theorem flightEffect_of_failExchange {index exchange : Nat} {task : RefreshTask}
    {result : ExchangeEnd} {error : CredentialError} (htask : s.tasks[index]? = some task)
    (hexchange : task.phase.exchange = some exchange)
    (hresult : result ≠ .saved ∧ result ≠ .superseded)
    (herror : ∀ status, error = .oauthRejected status → result = .httpError status)
    (hgeneration : t.generation = s.generation) (hflight : t.flight = s.flight)
    (hexchanges : t.exchanges = s.exchanges) (htasks : t.tasks = s.tasks) :
    FlightEffect s (t.failExchange index task exchange result error) := by
  obtain ⟨hnone, hactive⟩ := afterOutcome_spec (.error error)
  refine .finish _ index task exchange result _ htask hexchange hnone (fun h => ?_)
    (fun h => absurd h hresult.2) ?_ hflight ?_ ?_
  · obtain ⟨status, herr, hserver⟩ := hactive h
    rw [herror status (by simpa using herr)]
    simpa [ExchangeEnd.serverError] using hserver
  · rw [if_neg hresult.1]
    exact hgeneration
  · rw [← hexchanges]
    rfl
  · rw [← htasks]
    rfl

/-- The steps of a task. -/
theorem flightEffect_of_pollTask {index : Nat} {task : RefreshTask} {event : TaskEvent}
    (htask : s.tasks[index]? = some task)
    (h : s.pollTask jwt index task task.phase event = some t) : FlightEffect s t := by
  cases hphase : task.phase with
  | reading =>
    cases event <;> simp only [hphase, ManagerState.pollTask, reduceCtorEq] at h
    split_ifs at h with hwriter hstale
    · cases h
      refine .move _ index task _ task.published htask ?_ (fun _ => by rw [hphase]; rfl) rfl
        (.inl rfl) rfl rfl
      rw [(afterOutcome_spec _).1, hphase]
      rfl
    · cases h
      have hcurrent : task.expectedGeneration = s.generation := (not_not.mp hstale).symm
      refine .send _ index task htask hphase hcurrent rfl rfl ?_ rfl
      rw [← hcurrent]
  | sending exchange =>
    have hexchange : task.phase.exchange = some exchange := by rw [hphase]; rfl
    cases event <;> simp only [hphase, ManagerState.pollTask, reduceCtorEq] at h
    case transportFailure =>
      cases h
      exact flightEffect_of_failExchange htask hexchange (by simp) (by simp) rfl rfl rfl rfl
    case status code =>
      split_ifs at h
      · cases h
        exact .move _ index task _ task.published htask (by rw [hphase]; rfl)
          (fun _ => by rw [hphase]; rfl) rfl (.inl rfl) rfl rfl
      · cases h
        exact flightEffect_of_failExchange htask hexchange (by simp) (by simp) rfl rfl rfl rfl
  | receiving exchange =>
    have hexchange : task.phase.exchange = some exchange := by rw [hphase]; rfl
    cases event <;> simp only [hphase, ManagerState.pollTask, reduceCtorEq] at h
    case body refreshed =>
      cases refreshed with
      | none =>
        cases h
        exact flightEffect_of_failExchange htask hexchange (by simp) (by simp) rfl rfl rfl rfl
      | some refreshed =>
        cases h
        exact .move _ index task _ task.published htask (by rw [hphase]; rfl)
          (fun _ => by rw [hphase]; rfl) rfl (.inl rfl) rfl rfl
  | acquiring exchange refreshed =>
    have hexchange : task.phase.exchange = some exchange := by rw [hphase]; rfl
    cases event <;> simp only [hphase, ManagerState.pollTask, reduceCtorEq] at h
    split_ifs at h with hwriter hstale
    · cases h
      obtain ⟨hnone, hactive⟩ := afterOutcome_spec (.ok s.snapshot)
      refine .finish _ index task exchange .superseded _ htask hexchange hnone (fun h => ?_)
        (fun _ => hstale) rfl rfl rfl rfl
      obtain ⟨status, hok, -⟩ := hactive h
      cases hok
    · split at h
      · next error hrefused =>
        cases h
        obtain rfl := refreshedCredential_eq_error hrefused
        exact flightEffect_of_failExchange htask hexchange (by simp) (by simp) rfl rfl rfl rfl
      · cases h
        exact .move _ index task _ task.published htask (by rw [hphase]; rfl)
          (fun _ => by rw [hphase]; rfl) rfl (.inl rfl) rfl rfl
  | saving exchange updated =>
    have hexchange : task.phase.exchange = some exchange := by rw [hphase]; rfl
    cases event <;> simp only [hphase, ManagerState.pollTask, reduceCtorEq] at h
    case save result =>
      cases result with
      | error error =>
        cases h
        exact flightEffect_of_failExchange htask hexchange (by simp) (by simp) rfl rfl rfl rfl
      | ok u =>
        cases h
        obtain ⟨hnone, hactive⟩ := afterOutcome_spec
          (.ok ⟨updated.accessToken, updated.accountId, s.generation + 1⟩)
        refine .finish _ index task exchange .saved _ htask hexchange hnone (fun h => ?_)
          (fun h => by cases h) rfl rfl rfl rfl
        obtain ⟨status, hok, -⟩ := hactive h
        cases hok
  | clearing outcome =>
    cases event <;> simp only [hphase, ManagerState.pollTask, reduceCtorEq] at h
    split at h <;> cases h
    refine .move _ index task (.publishing outcome) task.published htask (by rw [hphase]; rfl)
      (fun h => by cases h) rfl ?_ rfl rfl
    split
    · exact .inr ⟨rfl, by rw [hphase]; rfl, rfl⟩
    · exact .inl rfl
  | publishing outcome =>
    cases event <;> simp only [hphase, ManagerState.pollTask, reduceCtorEq] at h
    cases h
    exact .move _ index task .finished (some outcome) htask (by rw [hphase]; rfl)
      (fun h => by cases h) rfl (.inl rfl) rfl rfl
  | finished => simp [hphase, ManagerState.pollTask] at h

/-- **Step lemma.** -/
theorem flightEffect_of_step (h : managerStep jwt s a = some t) : FlightEffect s t := by
  cases a with
  | credentials =>
    cases h
    exact .frame _ rfl rfl rfl rfl
  | refreshAfterUnauthorized failedGeneration =>
    cases h
    exact .frame _ rfl rfl rfl rfl
  | caller index now =>
    obtain ⟨phase, -, hpoll⟩ := Option.bind_eq_some_iff.mp h
    exact flightEffect_of_pollCaller hpoll
  | cancel index =>
    cases h
    exact .frame _ rfl rfl rfl rfl
  | task index event =>
    obtain ⟨task, htask, hpoll⟩ := Option.bind_eq_some_iff.mp h
    exact flightEffect_of_pollTask htask hpoll

/-! ### The invariant -/

/-- The slot is taken for the current generation, and no task will clear it or send again. -/
structure Latched (s : ManagerState) : Prop where
  taken : ∃ flight, s.flight = some flight ∧ flight.generation = s.generation
  idle : ∀ (i : Nat) (task : RefreshTask), s.tasks[i]? = some task → task.phase.active = false

/-- What holds in every reachable state. -/
structure SingleFlight (s : ManagerState) : Prop where
  active_current : ∀ (i : Nat) (task : RefreshTask), s.tasks[i]? = some task →
    task.phase.active = true →
      task.expectedGeneration = s.generation ∧ s.flight = some ⟨s.generation, i⟩
  busy : ∀ (i k : Nat) (task : RefreshTask), s.tasks[i]? = some task →
    task.phase.exchange = some k →
      ∃ e, s.exchanges[k]? = some e ∧ e.result = none ∧ e.generation = s.generation
  unfinished : ∀ (k : Nat) (e : Exchange), s.exchanges[k]? = some e → e.result = none →
    ∃ (i : Nat) (task : RefreshTask), s.tasks[i]? = some task ∧ task.phase.exchange = some k
  generation_le : ∀ (k : Nat) (e : Exchange), s.exchanges[k]? = some e →
    e.generation ≤ s.generation
  saved_lt : ∀ (k : Nat) (e : Exchange), s.exchanges[k]? = some e → e.result = some .saved →
    e.generation < s.generation
  not_superseded : ∀ (k : Nat) (e : Exchange), s.exchanges[k]? = some e →
    e.result ≠ some .superseded
  latched : ∀ (k : Nat) (e : Exchange) (result : ExchangeEnd), s.exchanges[k]? = some e →
    e.result = some result → result.failedForGood = true → Latched s ∧ e.generation = s.generation
  ordered : ∀ (i j : Nat) (e e' : Exchange), i < j → s.exchanges[i]? = some e →
    s.exchanges[j]? = some e' → e.generation ≤ e'.generation ∧
      (e.generation = e'.generation → ∃ result, e.result = some result ∧ result.serverError = true)

theorem singleFlight_init (credential : Credential) : SingleFlight (.init credential) := by
  constructor <;> simp [ManagerState.init]

/-- At most one task is active. -/
theorem SingleFlight.active_unique (hs : SingleFlight s) {i j : Nat} {task task' : RefreshTask}
    (hi : s.tasks[i]? = some task) (hj : s.tasks[j]? = some task')
    (hactive : task.phase.active = true) (hactive' : task'.phase.active = true) : i = j := by
  have hfirst := (hs.active_current i task hi hactive).2
  have hsecond := (hs.active_current j task' hj hactive').2
  rw [hfirst] at hsecond
  simpa using hsecond

/-- While a task is active, every exchange of its generation that has ended did so in a 5xx. -/
theorem SingleFlight.serverError_of_reading (hs : SingleFlight s) {i k : Nat} {task : RefreshTask}
    {e : Exchange} (hi : s.tasks[i]? = some task) (hphase : task.phase = .reading)
    (hk : s.exchanges[k]? = some e) (hgeneration : e.generation = s.generation) :
    ∃ result, e.result = some result ∧ result.serverError = true := by
  have hactive : task.phase.active = true := by
    rw [hphase]
    rfl
  cases hresult : e.result with
  | none =>
    obtain ⟨j, task', hj, hexchange⟩ := hs.unfinished k e hk hresult
    obtain rfl := hs.active_unique hi hj hactive (active_of_exchange hexchange)
    rw [hi] at hj
    cases hj
    rw [hphase] at hexchange
    cases hexchange
  | some result =>
    refine ⟨result, rfl, ?_⟩
    by_contra hserver
    rw [Bool.not_eq_true] at hserver
    have hgood : result.failedForGood = false := by
      by_contra hfailed
      have hlatched := (hs.latched k e result hk hresult (by simpa using hfailed)).1
      rw [hlatched.idle i task hi] at hactive
      cases hactive
    cases result with
    | saved => exact absurd hgeneration (hs.saved_lt k e hk hresult).ne
    | superseded => exact hs.not_superseded k e hk hresult
    | _ => simp [ExchangeEnd.failedForGood, hserver] at hgood

/-- The invariant depends on generation, slot, tasks and exchanges only. -/
theorem SingleFlight.frame (hs : SingleFlight s) (hgeneration : t.generation = s.generation)
    (hflight : t.flight = s.flight) (hexchanges : t.exchanges = s.exchanges)
    (htasks : t.tasks = s.tasks) : SingleFlight t where
  active_current := by
    rw [htasks, hgeneration, hflight]
    exact hs.active_current
  busy := by
    rw [htasks, hexchanges, hgeneration]
    exact hs.busy
  unfinished := by
    rw [htasks, hexchanges]
    exact hs.unfinished
  generation_le := by
    rw [hexchanges, hgeneration]
    exact hs.generation_le
  saved_lt := by
    rw [hexchanges, hgeneration]
    exact hs.saved_lt
  not_superseded := by
    rw [hexchanges]
    exact hs.not_superseded
  latched := by
    rw [hexchanges, hgeneration]
    intro k e result hk hresult hfailed
    obtain ⟨⟨htaken, hidle⟩, he⟩ := hs.latched k e result hk hresult hfailed
    refine ⟨⟨?_, ?_⟩, he⟩
    · rw [hflight, hgeneration]
      exact htaken
    · rw [htasks]
      exact hidle
  ordered := by
    rw [hexchanges]
    exact hs.ordered

/-- A task is spawned only into a free slot, where none is active. -/
theorem SingleFlight.spawn (hs : SingleFlight s)
    (hgeneration : t.generation = s.generation)
    (hfree : ∀ flight, s.flight = some flight → flight.generation ≠ s.generation)
    (hflight : t.flight = some ⟨s.generation, s.tasks.length⟩)
    (hexchanges : t.exchanges = s.exchanges)
    (htasks : t.tasks = s.tasks ++ [⟨s.generation, .reading, none⟩]) : SingleFlight t where
  active_current := by
    rw [htasks, hgeneration, hflight]
    intro i task hi hactive
    rcases getElem?_append_singleton_cases hi with hi | ⟨rfl, rfl⟩
    · exact absurd rfl (hfree _ (hs.active_current i task hi hactive).2)
    · exact ⟨rfl, rfl⟩
  busy := by
    rw [htasks, hexchanges, hgeneration]
    intro i k task hi hexchange
    rcases getElem?_append_singleton_cases hi with hi | ⟨rfl, rfl⟩
    · exact hs.busy i k task hi hexchange
    · cases hexchange
  unfinished := by
    rw [htasks, hexchanges]
    intro k e hk hresult
    obtain ⟨i, task, hi, hexchange⟩ := hs.unfinished k e hk hresult
    exact ⟨i, task, getElem?_append_of_some _ hi, hexchange⟩
  generation_le := by
    rw [hexchanges, hgeneration]
    exact hs.generation_le
  saved_lt := by
    rw [hexchanges, hgeneration]
    exact hs.saved_lt
  not_superseded := by
    rw [hexchanges]
    exact hs.not_superseded
  latched := by
    rw [hexchanges]
    intro k e result hk hresult hfailed
    obtain ⟨flight, hslot, htaken⟩ := (hs.latched k e result hk hresult hfailed).1.taken
    exact absurd htaken (hfree flight hslot)
  ordered := by
    rw [hexchanges]
    exact hs.ordered

/-- A task that moves on with its exchange keeps the invariant, as does one that clears the slot
it held. -/
theorem SingleFlight.move (hs : SingleFlight s) {index : Nat} {task : RefreshTask}
    {phase : TaskPhase} {published : Option RefreshOutcome} (htask : s.tasks[index]? = some task)
    (hexchange : phase.exchange = task.phase.exchange)
    (hactive : phase.active = true → task.phase.active = true)
    (hgeneration : t.generation = s.generation)
    (hflight : t.flight = s.flight ∨
      t.flight = none ∧ task.phase.active = true ∧ phase.active = false)
    (hexchanges : t.exchanges = s.exchanges)
    (htasks : t.tasks = s.tasks.set index { task with phase, published }) : SingleFlight t where
  active_current := by
    rw [htasks, hgeneration]
    intro i task' hi hactive'
    rcases getElem?_set_cases hi with ⟨rfl, rfl⟩ | ⟨hne, hi⟩
    · rcases hflight with hflight | ⟨-, -, hinactive⟩
      · rw [hflight]
        exact hs.active_current i task htask (hactive hactive')
      · rw [hinactive] at hactive'
        cases hactive'
    · rcases hflight with hflight | ⟨-, hwas, -⟩
      · rw [hflight]
        exact hs.active_current i task' hi hactive'
      · exact absurd (hs.active_unique hi htask hactive' hwas) hne
  busy := by
    rw [htasks, hexchanges, hgeneration]
    intro i k task' hi hbusy
    rcases getElem?_set_cases hi with ⟨rfl, rfl⟩ | ⟨-, hi⟩
    · exact hs.busy i k task htask (hexchange ▸ hbusy)
    · exact hs.busy i k task' hi hbusy
  unfinished := by
    rw [htasks, hexchanges]
    intro k e hk hresult
    obtain ⟨i, task', hi, hbusy⟩ := hs.unfinished k e hk hresult
    rcases eq_or_ne index i with rfl | hne
    · rw [htask] at hi
      cases hi
      exact ⟨index, _, List.getElem?_set_self (List.getElem?_eq_some_iff.mp htask).1,
        hexchange.trans hbusy⟩
    · exact ⟨i, task', by rw [List.getElem?_set_ne hne, hi], hbusy⟩
  generation_le := by
    rw [hexchanges, hgeneration]
    exact hs.generation_le
  saved_lt := by
    rw [hexchanges, hgeneration]
    exact hs.saved_lt
  not_superseded := by
    rw [hexchanges]
    exact hs.not_superseded
  latched := by
    rw [hexchanges, hgeneration]
    intro k e result hk hresult hfailed
    obtain ⟨⟨htaken, hidle⟩, he⟩ := hs.latched k e result hk hresult hfailed
    have hwas : task.phase.active = false := hidle index task htask
    refine ⟨⟨?_, ?_⟩, he⟩
    · rcases hflight with hflight | ⟨-, hactive', -⟩
      · rw [hflight, hgeneration]
        exact htaken
      · rw [hwas] at hactive'
        cases hactive'
    · rw [htasks]
      intro i task' hi
      rcases getElem?_set_cases hi with ⟨rfl, rfl⟩ | ⟨-, hi⟩
      · exact Bool.not_eq_true _ ▸ fun h => by simp [hactive h] at hwas
      · exact hidle i task' hi
  ordered := by
    rw [hexchanges]
    exact hs.ordered

/-- An exchange is sent only when every earlier one of its generation ended in a 5xx. -/
theorem SingleFlight.send (hs : SingleFlight s) {index : Nat} {task : RefreshTask} {token : String}
    (htask : s.tasks[index]? = some task) (hphase : task.phase = .reading)
    (hgeneration : t.generation = s.generation) (hflight : t.flight = s.flight)
    (hexchanges : t.exchanges = s.exchanges ++ [⟨s.generation, token, none⟩])
    (htasks : t.tasks = s.tasks.set index { task with phase := .sending s.exchanges.length }) :
    SingleFlight t where
  active_current := by
    rw [htasks, hgeneration, hflight]
    intro i task' hi hactive'
    rcases getElem?_set_cases hi with ⟨rfl, rfl⟩ | ⟨-, hi⟩
    · exact hs.active_current i task htask (by rw [hphase]; rfl)
    · exact hs.active_current i task' hi hactive'
  busy := by
    rw [htasks, hexchanges, hgeneration]
    intro i k task' hi hbusy
    rcases getElem?_set_cases hi with ⟨rfl, rfl⟩ | ⟨-, hi⟩
    · cases hbusy
      exact ⟨⟨s.generation, token, none⟩, by simp, rfl, rfl⟩
    · obtain ⟨e, hk, he⟩ := hs.busy i k task' hi hbusy
      exact ⟨e, getElem?_append_of_some _ hk, he⟩
  unfinished := by
    rw [htasks, hexchanges]
    intro k e hk hresult
    have hlt : index < s.tasks.length := (List.getElem?_eq_some_iff.mp htask).1
    rcases getElem?_append_singleton_cases hk with hk | ⟨rfl, rfl⟩
    · obtain ⟨i, task', hi, hbusy⟩ := hs.unfinished k e hk hresult
      rcases eq_or_ne index i with rfl | hne
      · rw [htask] at hi
        cases hi
        rw [hphase] at hbusy
        cases hbusy
      · exact ⟨i, task', by rw [List.getElem?_set_ne hne, hi], hbusy⟩
    · exact ⟨index, _, List.getElem?_set_self hlt, rfl⟩
  generation_le := by
    rw [hexchanges, hgeneration]
    intro k e hk
    rcases getElem?_append_singleton_cases hk with hk | ⟨rfl, rfl⟩
    · exact hs.generation_le k e hk
    · exact le_rfl
  saved_lt := by
    rw [hexchanges, hgeneration]
    intro k e hk hresult
    rcases getElem?_append_singleton_cases hk with hk | ⟨rfl, rfl⟩
    · exact hs.saved_lt k e hk hresult
    · cases hresult
  not_superseded := by
    rw [hexchanges]
    intro k e hk
    rcases getElem?_append_singleton_cases hk with hk | ⟨rfl, rfl⟩
    · exact hs.not_superseded k e hk
    · simp
  latched := by
    rw [hexchanges]
    intro k e result hk hresult hfailed
    rcases getElem?_append_singleton_cases hk with hk | ⟨rfl, rfl⟩
    · have hidle := (hs.latched k e result hk hresult hfailed).1.idle index task htask
      rw [hphase] at hidle
      cases hidle
    · cases hresult
  ordered := by
    rw [hexchanges]
    intro i j e e' hij hi hj
    rcases getElem?_append_singleton_cases hj with hj | ⟨rfl, rfl⟩
    · rcases getElem?_append_singleton_cases hi with hi | ⟨rfl, -⟩
      · exact hs.ordered i j e e' hij hi hj
      · exact absurd (List.getElem?_eq_some_iff.mp hj).1 (Nat.not_lt.mpr hij.le)
    · rcases getElem?_append_singleton_cases hi with hi | ⟨rfl, -⟩
      · exact ⟨hs.generation_le i e hi, hs.serverError_of_reading htask hphase hi⟩
      · exact absurd hij (lt_irrefl _)

/-- An exchange that ends is the one of the active task; a failure for good leaves the slot
latched. -/
theorem SingleFlight.finish (hs : SingleFlight s) {index exchange : Nat} {task : RefreshTask}
    {result : ExchangeEnd} {phase : TaskPhase} (htask : s.tasks[index]? = some task)
    (hexchange : task.phase.exchange = some exchange) (hphase : phase.exchange = none)
    (hactive : phase.active = true → result.serverError = true)
    (hsuperseded : result = .superseded → s.generation ≠ task.expectedGeneration)
    (hgeneration : t.generation = s.generation + if result = .saved then 1 else 0)
    (hflight : t.flight = s.flight)
    (hexchanges : t.exchanges =
      s.exchanges.modify exchange fun e => { e with result := some result })
    (htasks : t.tasks = s.tasks.set index { task with phase }) : SingleFlight t := by
  have hwas : task.phase.active = true := active_of_exchange hexchange
  obtain ⟨hcurrent, hslot⟩ := hs.active_current index task htask hwas
  -- Every other task is idle.
  have hothers : ∀ i task', t.tasks[i]? = some task' → task'.phase.active = true →
      i = index ∧ result.serverError = true := by
    rw [htasks]
    intro i task' hi hactive'
    rcases getElem?_set_cases hi with ⟨rfl, rfl⟩ | ⟨hne, hi⟩
    · exact ⟨rfl, hactive hactive'⟩
    · exact absurd (hs.active_unique hi htask hactive' hwas) hne
  have hgeneration_le : s.generation ≤ t.generation := by
    rw [hgeneration]
    exact Nat.le_add_right _ _
  refine ⟨?_, ?_, ?_, ?_, ?_, ?_, ?_, ?_⟩
  · intro i task' hi hactive'
    obtain ⟨rfl, hserver⟩ := hothers i task' hi hactive'
    have hsaved : result ≠ .saved := by
      rintro rfl
      cases hserver
    rw [hflight, hgeneration, if_neg hsaved, Nat.add_zero]
    rw [htasks] at hi
    rcases getElem?_set_cases hi with ⟨-, rfl⟩ | ⟨hne, -⟩
    · exact ⟨hcurrent, hslot⟩
    · exact absurd rfl hne
  · intro i k task' hi hbusy
    obtain ⟨rfl, -⟩ := hothers i task' hi (active_of_exchange hbusy)
    rw [htasks] at hi
    rcases getElem?_set_cases hi with ⟨-, rfl⟩ | ⟨hne, -⟩
    · rw [hphase] at hbusy
      cases hbusy
    · exact absurd rfl hne
  · rw [hexchanges]
    intro k e hk hresult
    rcases getElem?_modify_cases hk with ⟨rfl, old, -, rfl⟩ | ⟨hne, hk⟩
    · cases hresult
    · obtain ⟨i, task', hi, hbusy⟩ := hs.unfinished k e hk hresult
      obtain rfl := hs.active_unique hi htask (active_of_exchange hbusy) hwas
      rw [htask] at hi
      cases hi
      rw [hexchange] at hbusy
      exact absurd (Option.some.inj hbusy).symm hne
  · rw [hexchanges]
    intro k e hk
    rcases getElem?_modify_cases hk with ⟨rfl, old, hold, rfl⟩ | ⟨-, hk⟩
    · exact (hs.generation_le k old hold).trans hgeneration_le
    · exact (hs.generation_le k e hk).trans hgeneration_le
  · rw [hexchanges]
    intro k e hk hresult
    rcases getElem?_modify_cases hk with ⟨rfl, old, hold, rfl⟩ | ⟨-, hk⟩
    · cases hresult
      rw [hgeneration, if_pos rfl]
      exact Nat.lt_succ_of_le (hs.generation_le k old hold)
    · exact (hs.saved_lt k e hk hresult).trans_le hgeneration_le
  · rw [hexchanges]
    intro k e hk
    rcases getElem?_modify_cases hk with ⟨rfl, old, hold, rfl⟩ | ⟨-, hk⟩
    · rintro ⟨⟩
      exact hsuperseded rfl hcurrent.symm
    · exact hs.not_superseded k e hk
  · rw [hexchanges]
    intro k e result' hk hresult hfailed
    rcases getElem?_modify_cases hk with ⟨rfl, old, hold, rfl⟩ | ⟨-, hk⟩
    · cases hresult
      have hsaved : result ≠ .saved := by
        rintro rfl
        cases hfailed
      have hserver : result.serverError = false := by
        cases result <;> simp_all [ExchangeEnd.failedForGood]
      obtain ⟨e, he, -, hegen⟩ := hs.busy index k task htask hexchange
      rw [hold] at he
      cases he
      rw [hgeneration, if_neg hsaved, Nat.add_zero]
      refine ⟨⟨⟨_, hflight.trans hslot, ?_⟩, fun i task' hi => ?_⟩, hegen⟩
      · rw [hgeneration, if_neg hsaved, Nat.add_zero]
      · by_contra hcontra
        have htrue := (hothers i task' hi (by simpa using hcontra)).2
        rw [hserver] at htrue
        cases htrue
    · have hidle := (hs.latched k e result' hk hresult hfailed).1.idle index task htask
      rw [hwas] at hidle
      cases hidle
  · rw [hexchanges]
    intro i j e e' hij hi hj
    obtain ⟨old', hj', hgen'⟩ : ∃ old', s.exchanges[j]? = some old' ∧
        e'.generation = old'.generation := by
      rcases getElem?_modify_cases hj with ⟨-, old', hold', rfl⟩ | ⟨-, hj⟩
      · exact ⟨old', hold', rfl⟩
      · exact ⟨e', hj, rfl⟩
    rcases getElem?_modify_cases hi with ⟨rfl, old, hold, rfl⟩ | ⟨-, hi⟩
    · -- The exchange had no result, so nothing of its generation was sent after it.
      obtain ⟨hle, hserver⟩ := hs.ordered i j old old' hij hold hj'
      refine ⟨hgen' ▸ hle, fun heq => ?_⟩
      obtain ⟨result', hresult, -⟩ := hserver (heq.trans hgen')
      obtain ⟨e, he, hnone, -⟩ := hs.busy index i task htask hexchange
      rw [hold] at he
      cases he
      rw [hnone] at hresult
      cases hresult
    · rw [hgen']
      exact hs.ordered i j e old' hij hi hj'

/-- Every step keeps the invariant. -/
theorem SingleFlight.step (hs : SingleFlight s) (h : managerStep jwt s a = some t) :
    SingleFlight t := by
  cases flightEffect_of_step h with
  | frame hgeneration hflight hexchanges htasks =>
    exact hs.frame hgeneration hflight hexchanges htasks
  | spawn hgeneration hfree hflight hexchanges htasks =>
    exact hs.spawn hgeneration hfree hflight hexchanges htasks
  | move index task phase published htask hexchange hactive hgeneration hflight hexchanges htasks =>
    exact hs.move htask hexchange hactive hgeneration hflight hexchanges htasks
  | send index task htask hphase hcurrent hgeneration hflight hexchanges htasks =>
    exact hs.send htask hphase hgeneration hflight hexchanges htasks
  | finish index task exchange result phase htask hexchange hphase hactive hsuperseded hgeneration
      hflight hexchanges htasks =>
    exact hs.finish htask hexchange hphase hactive hsuperseded hgeneration hflight hexchanges htasks

theorem SingleFlight.run (hs : SingleFlight s) (h : ManagerRun jwt s as t) : SingleFlight t :=
  h.invariant (fun _ _ _ hs hstep => hs.step hstep) hs

/-- An exchange that has ended is settled. -/
theorem SingleFlight.getElem?_step_of_ended (hs : SingleFlight s)
    (h : managerStep jwt s a = some t) {k : Nat} {e : Exchange} (hk : s.exchanges[k]? = some e)
    (hended : e.result ≠ none) : t.exchanges[k]? = some e := by
  cases flightEffect_of_step h with
  | frame _ _ hexchanges => rw [hexchanges, hk]
  | spawn _ _ _ hexchanges => rw [hexchanges, hk]
  | move _ _ _ _ _ _ _ _ _ hexchanges => rw [hexchanges, hk]
  | send _ _ _ _ _ _ _ hexchanges =>
    rw [hexchanges]
    exact getElem?_append_of_some _ hk
  | finish index task exchange result phase htask hexchange _ _ _ _ _ hexchanges =>
    obtain ⟨e', he', hnone, -⟩ := hs.busy index exchange task htask hexchange
    have hne : exchange ≠ k := by
      rintro rfl
      rw [hk] at he'
      cases he'
      exact hended hnone
    rw [hexchanges, List.getElem?_modify]
    simp [hne, hk]

theorem SingleFlight.getElem?_run_of_ended (hs : SingleFlight s) (h : ManagerRun jwt s as t)
    {k : Nat} {e : Exchange} (hk : s.exchanges[k]? = some e) (hended : e.result ≠ none) :
    t.exchanges[k]? = some e := by
  have hfirst : SingleFlight s ∧ s.exchanges[k]? = some e := ⟨hs, hk⟩
  refine (h.invariant (I := fun s => SingleFlight s ∧ s.exchanges[k]? = some e)
    (fun u a v hu hstep => ?_) hfirst).2
  exact ⟨hu.1.step hstep, hu.1.getElem?_step_of_ended hstep hu.2 hended⟩

/-- After an exchange that failed for good, nothing is sent. -/
theorem SingleFlight.last_of_failedForGood (hs : SingleFlight s) {i j : Nat} {e e' : Exchange}
    {result : ExchangeEnd} (hi : s.exchanges[i]? = some e) (hresult : e.result = some result)
    (hfailed : result.failedForGood = true) (hj : s.exchanges[j]? = some e') : j ≤ i := by
  by_contra hlt
  obtain ⟨hle, hserver⟩ := hs.ordered i j e e' (Nat.not_le.mp hlt) hi hj
  have hcurrent : e.generation = s.generation := (hs.latched i e result hi hresult hfailed).2
  have hsame : e.generation = e'.generation :=
    Nat.le_antisymm hle (hcurrent ▸ hs.generation_le j e' hj)
  obtain ⟨result', hresult', htrue⟩ := hserver hsame
  rw [hresult] at hresult'
  cases hresult'
  cases result <;> simp_all [ExchangeEnd.failedForGood, ExchangeEnd.serverError]

/-- **Single-flight token rotation.** In every state that callers and tasks reach, in whatever
interleaving and whatever the OAuth endpoint answers: at most one exchange is without a result;
an exchange is sent only when every earlier one of its generation ended in a 5xx; and once an
exchange has failed in any other way, no exchange at all is sent in any continuation, so
neither is its refresh token. -/
theorem refresh_single_flight (jwt : JwtDecoder) (credential : Credential)
    {as : List ManagerAction} {s : ManagerState}
    (h : ManagerRun jwt (.init credential) as s) :
    (∀ (i j : Nat) (e e' : Exchange), s.exchanges[i]? = some e → s.exchanges[j]? = some e' →
      e.result = none → e'.result = none → i = j) ∧
    (∀ (i j : Nat) (e e' : Exchange), i < j → s.exchanges[i]? = some e →
      s.exchanges[j]? = some e' → e.generation = e'.generation →
        ∃ result, e.result = some result ∧ result.serverError = true) ∧
    (∀ (i : Nat) (e : Exchange) (result : ExchangeEnd), s.exchanges[i]? = some e →
      e.result = some result → result.failedForGood = true →
        ∀ (bs : List ManagerAction) (t : ManagerState), ManagerRun jwt s bs t →
          ∀ j, i < j → t.exchanges[j]? = none) := by
  have hs : SingleFlight s := (singleFlight_init credential).run h
  refine ⟨fun i j e e' hi hj hnone hnone' => ?_, fun i j e e' hij hi hj => ?_,
    fun i e result hi hresult hfailed bs t hrun j hij => ?_⟩
  · obtain ⟨k, task, hk, hbusy⟩ := hs.unfinished i e hi hnone
    obtain ⟨k', task', hk', hbusy'⟩ := hs.unfinished j e' hj hnone'
    obtain rfl := hs.active_unique hk hk' (active_of_exchange hbusy) (active_of_exchange hbusy')
    rw [hk] at hk'
    cases hk'
    exact Option.some.inj (hbusy.symm.trans hbusy')
  · exact (hs.ordered i j e e' hij hi hj).2
  · have hi' : t.exchanges[i]? = some e := hs.getElem?_run_of_ended hrun hi (by simp [hresult])
    cases hj : t.exchanges[j]? with
    | none => rfl
    | some e' =>
      exact absurd ((hs.run hrun).last_of_failedForGood hi' hresult hfailed hj)
        (Nat.not_le.mpr hij)

end

/-- Two callers after a 401, of which the first starts a refresh and is canceled; the transport
fails. -/
def failedRefresh : List ManagerAction :=
  let now := secondsAfterEpoch 0
  [.refreshAfterUnauthorized 0, .refreshAfterUnauthorized 0, .caller 0 now, .caller 0 now,
    .cancel 0, .task 0 (.poll now), .caller 1 now, .caller 1 now, .task 0 .transportFailure,
    .task 0 (.poll now), .caller 1 now]

/-- The state after a list of actions. -/
def managerAfter (as : List ManagerAction) : ManagerState :=
  (exec (managerStep opaqueTokens) (.init (.ofSeed lateSeed)) as).getD (.init (.ofSeed lateSeed))

/-- After the failed refresh, no run sends a second exchange. -/
theorem refresh_single_flight_latched :
    (managerAfter failedRefresh).exchanges = [⟨0, "refresh", some .transportFailure⟩] ∧
    ∀ (bs : List ManagerAction) (t : ManagerState),
      ManagerRun opaqueTokens (managerAfter failedRefresh) bs t →
        ∀ j, 0 < j → t.exchanges[j]? = none := by
  have hrun : ManagerRun opaqueTokens (.init (.ofSeed lateSeed)) failedRefresh
      (managerAfter failedRefresh) := run_ofFun_iff.mpr (by decide)
  have hlog : (managerAfter failedRefresh).exchanges = [⟨0, "refresh", some .transportFailure⟩] := by
    decide
  refine ⟨hlog, (refresh_single_flight opaqueTokens (.ofSeed lateSeed) hrun).2.2 0
    ⟨0, "refresh", some .transportFailure⟩ .transportFailure ?_ rfl rfl⟩
  rw [hlog]
  rfl

end CodexApi
