import CodexApi.Delivery.Contract

/-!
# The handlers respect the contract

The rules of the contract, and one specification for each function that the HTTP handlers share: what
it may assume of the view, and what the view is when it returns.
-/

namespace CodexApi.Delivery

open Program (Safe bind_op perform safe_pure)

variable {path : ApiPath} {v : View} {α β : Type}

/-! ### Rules -/

/-- An effect and what comes after it. -/
theorem respects_await {R : View → β → Prop} {effect : Effect} {f : effect.Reply → Code β}
    (hneeds : v.Needs path effect) (hholds : v.Holds path effect)
    (hdispatching : v.dispatching = true → effect.dispatches = true)
    (hf : ∀ reply, (contract path).may v effect reply →
      Safe (contract path) R (f reply) (v.after effect reply)) :
    Safe (contract path) R (await effect >>= f) v :=
  Safe.perform_bind ⟨hneeds, hholds, hdispatching⟩ hf

/-- An effect of code that holds no row and dispatches nothing. -/
theorem respects_idle {R : View → β → Prop} {effect : Effect} {f : effect.Reply → Code β}
    (hidle : v.dispatching = false) (hheld : path ≠ .webSocket → v.held = [])
    (hneeds : v.Needs path effect)
    (hf : ∀ reply, (contract path).may v effect reply →
      Safe (contract path) R (f reply) (v.after effect reply)) :
    Safe (contract path) R (await effect >>= f) v :=
  respects_await hneeds (fun hpath _ => hheld hpath) (by simp [hidle]) hf

/-- An effect in the last place. -/
theorem respects_last {effect : Effect} {Q : View → effect.Reply → Prop}
    (hneeds : v.Needs path effect) (hholds : v.Holds path effect)
    (hdispatching : v.dispatching = true → effect.dispatches = true)
    (hQ : ∀ reply, (contract path).may v effect reply → Q (v.after effect reply) reply) :
    Safe (contract path) Q (await effect) v :=
  ⟨⟨hneeds, hholds, hdispatching⟩, hQ⟩

/-- A `select!` around a program is one around each of its parts. -/
theorem interruptible_bind (closable : Bool) (program : Code α) (f : α → Code β) :
    interruptible closable (program >>= f) =
      interruptible closable program >>= fun (selected : Selected α) =>
        match selected with
        | .shutdown => pure .shutdown
        | .closed => pure .closed
        | .done value => interruptible closable (f value) := by
  induction program with
  | pure value => rfl
  | jump loop => rfl
  | op effect next ih =>
    simp only [bind_op, interruptible]
    split
    · simp only [bind_op]
      congr 1
      funext reply
      cases reply with
      | shutdown => rfl
      | closed => rfl
      | done reply => exact ih reply
    · simp only [bind_op, ih]

@[simp]
theorem interruptible_pure (closable : Bool) (value : α) :
    interruptible closable (pure value : Code α) = pure (.done value) := rfl

theorem interruptible_await {closable : Bool} {effect : Effect} (h : effect.awaits = true) :
    interruptible closable (await effect) = await (.select closable effect) := by
  simp only [await, perform, interruptible, h, if_true]
  congr 1
  funext reply
  cases reply <;> rfl

theorem interruptible_await_of_not {closable : Bool} {effect : Effect}
    (h : effect.awaits = false) :
    interruptible closable (await effect) = await effect >>= fun reply => pure (.done reply) := by
  simp only [await, perform, interruptible, h, Bool.false_eq_true, if_false]
  rfl

/-- A wait inside a `select!`. -/
theorem interruptible_op_respects {Q : View → Selected α → Prop} {closable : Bool}
    {effect : Effect} {next : effect.Reply → Code α} (hawaits : effect.awaits = true)
    (hpath : path ≠ .webSocket) (hheld : v.held = []) (hwaits : v.Waits effect)
    (hshutdown : Q (v.after (.select closable effect) .shutdown) .shutdown)
    (hclosed : closable = true → Q (v.after (.select closable effect) .closed) .closed)
    (hdone : ∀ reply, Safe (contract path) Q (interruptible closable (next reply))
      (v.after (.select closable effect) (.done reply))) :
    Safe (contract path) Q (interruptible closable (.op effect next)) v := by
  rw [interruptible, if_pos hawaits]
  refine ⟨⟨⟨hpath, hwaits⟩, fun _ _ => hheld, fun _ => rfl⟩, fun selected hselected => ?_⟩
  cases selected with
  | shutdown => exact hshutdown
  | closed => exact hclosed hselected
  | done reply => exact hdone reply

/-- A `select!` around one program after another. -/
theorem interruptible_bind_respects {Q : View → Selected α → Prop} {R : View → Selected β → Prop}
    {closable : Bool} {program : Code α} {f : α → Code β}
    (h : Safe (contract path) Q (interruptible closable program) v)
    (hshutdown : ∀ v, Q v .shutdown → R v .shutdown) (hclosed : ∀ v, Q v .closed → R v .closed)
    (hdone : ∀ v value, Q v (.done value) →
      Safe (contract path) R (interruptible closable (f value)) v) :
    Safe (contract path) R (interruptible closable (program >>= f)) v := by
  rw [interruptible_bind]
  refine h.bind fun v selected hselected => ?_
  cases selected with
  | shutdown => exact hshutdown v hselected
  | closed => exact hclosed v hselected
  | done value => exact hdone v value hselected

/-- An effect inside a `select!` at which the code does not wait. -/
theorem interruptible_op_respects_of_not {Q : View → Selected α → Prop} {closable : Bool}
    {effect : Effect} {next : effect.Reply → Code α} (hawaits : effect.awaits = false)
    (hidle : v.dispatching = false) (hheld : path ≠ .webSocket → v.held = [])
    (hneeds : v.Needs path effect)
    (hnext : ∀ reply, (contract path).may v effect reply →
      Safe (contract path) Q (interruptible closable (next reply)) (v.after effect reply)) :
    Safe (contract path) Q (interruptible closable (.op effect next)) v := by
  rw [interruptible, if_neg (by simp [hawaits])]
  exact ⟨⟨hneeds, fun hpath _ => hheld hpath, by simp [hidle]⟩, hnext⟩

/-- A `select!` whose last branch is a program. -/
theorem race_respects {Q : View → Selected α → Prop} {closable : Bool} {program : Code α}
    (hpath : path ≠ .webSocket) (hheld : v.held = [])
    (hshutdown : Q (v.after (.select closable .ready) .shutdown) .shutdown)
    (hclosed : closable = true → Q (v.after (.select closable .ready) .closed) .closed)
    (hdone : Safe (contract path) Q (interruptible closable program)
      (v.after (.select closable .ready) (.done ()))) :
    Safe (contract path) Q (race closable program) v := by
  refine respects_await ⟨hpath, trivial⟩ (fun _ _ => hheld) (fun _ => rfl)
    fun selected hselected => ?_
  cases selected with
  | shutdown => exact hshutdown
  | closed => exact hclosed hselected
  | done reply => exact hdone

/-! ### The store -/

theorem sound_of_planInsertion {now : OffsetDateTime} {context : RequestContext}
    {quota : QuotaLimits} {candidates : ModelCandidates} {spent : Decimal} {insertion : Insertion}
    (h : planInsertion now context quota candidates spent = .ok insertion) :
    insertion.Sound ∧ (insertion.admitted = none →
      insertion.row.httpStatus = if context.transport = .httpSse then some 429 else none) := by
  obtain ⟨soft, hard, model, -, -, -, rfl⟩ := planInsertion_eq_ok.mp h
  cases hrejected : (hard || (soft && candidates.fallback.isNone)) with
  | false =>
    refine ⟨⟨checks_admissionRow, fun admitted hadmitted => ?_, fun hnone => ?_⟩, fun hnone => ?_⟩
    · cases hadmitted
      exact ⟨rfl, rfl⟩
    · cases hnone
    · cases hnone
  | true =>
    refine ⟨⟨checks_admissionRow, fun admitted hadmitted => ?_, fun _ => rfl⟩, fun _ => ?_⟩
    · cases hadmitted
    · cases htransport : context.transport <;> simp [admissionRow, htransport]

theorem sound_of_rejectionRow {now : OffsetDateTime} {context : RequestContext} {model : String}
    {reasoningEffort : Option String} {httpStatus : Option Nat} {row : Row}
    (hstatus : ∀ status ∈ httpStatus, 100 ≤ status ∧ status ≤ 599)
    (h : rejectionRow now context model reasoningEffort httpStatus = .ok row) :
    (⟨row, none⟩ : Insertion).Sound ∧ row.httpStatus = httpStatus := by
  have hchecks := checks_of_rejectionRow hstatus h
  simp only [rejectionRow, timestampMs_eq, ok_bind] at h
  cases h
  exact ⟨⟨hchecks, fun admitted hadmitted => (by cases hadmitted), fun _ => rfl⟩, rfl⟩

/-- A call of the store may be made. -/
structure View.Ready (path : ApiPath) (v : View) : Prop where
  notDispatching : v.dispatching = false
  http : path ≠ .webSocket → v.held = [] ∧ v.ids = [] ∧ v.pending = .absent

/-- What `begin_request` leaves. -/
def View.AfterBegin (v v' : View) (transport : Transport) : Except StoreError Admission → Prop
  | .error _ => ∃ storeFailed, v' = { v with spoiled := true, storeFailed }
  | .ok .weeklyQuotaExceeded => ∃ id, v' = { v with
      ids := v.ids ++ [id]
      closure := some (.rejection id (if transport = .httpSse then some 429 else none)) }
  | .ok (.admitted id model) => id ∉ v.ids ∧ v' = { v with
      ids := v.ids ++ [id], held := v.held ++ [⟨id, model⟩], dispatching := !v.relaying }

theorem beginRequest_respects (hv : v.Ready path) (context : RequestContext) (quota : QuotaLimits)
    (candidates : ModelCandidates) :
    Safe (contract path) (fun v' result => v.AfterBegin v' context.transport result)
      (beginRequest context quota candidates) v := by
  have hheld : path ≠ .webSocket → v.held = [] := fun hpath => (hv.http hpath).1
  refine respects_idle hv.notDispatching hheld trivial fun now _ => ?_
  refine respects_idle hv.notDispatching hheld trivial fun planned hplanned => ?_
  cases planned with
  | error error => exact ⟨v.storeFailed, rfl⟩
  | ok insertion =>
    obtain ⟨spent, hplan⟩ := hplanned
    obtain ⟨hsound, hstatus⟩ := sound_of_planInsertion hplan
    refine respects_idle hv.notDispatching hheld ⟨hsound, fun hpath => (hv.http hpath).2⟩
      fun inserted hinserted => ?_
    cases inserted with
    | error error => exact ⟨true, rfl⟩
    | ok id =>
      cases hadmitted : insertion.admitted with
      | none =>
        simp only [Insertion.admission, hadmitted, safe_pure]
        refine ⟨id, ?_⟩
        simp only [View.after, View.book, hadmitted, Effect.observe, Cause.hear, hstatus hadmitted]
      | some model =>
        simp only [Insertion.admission, hadmitted, safe_pure]
        refine ⟨hinserted, ?_⟩
        simp only [View.after, View.book, hadmitted, Effect.observe, Cause.hear]

/-- What `record_rejection` leaves. -/
def View.AfterRejection (v v' : View) (httpStatus : Option Nat) : Except StoreError Unit → Prop
  | .error _ => ∃ storeFailed, v' = { v with spoiled := true, storeFailed }
  | .ok () => ∃ id, v' = { v with
      ids := v.ids ++ [id], closure := some (.rejection id httpStatus) }

theorem recordRejection_respects (hv : v.Ready path) (context : RequestContext) (model : String)
    (reasoningEffort : Option String) {httpStatus : Option Nat}
    (hstatus : ∀ status ∈ httpStatus, 100 ≤ status ∧ status ≤ 599) :
    Safe (contract path) (fun v' result => v.AfterRejection v' httpStatus result)
      (recordRejection context model reasoningEffort httpStatus) v := by
  have hheld : path ≠ .webSocket → v.held = [] := fun hpath => (hv.http hpath).1
  refine respects_idle hv.notDispatching hheld trivial fun now _ => ?_
  cases hrow : rejectionRow now context model reasoningEffort httpStatus with
  | error error => simp [rejectionRow] at hrow
  | ok row =>
    obtain ⟨hsound, hhttp⟩ := sound_of_rejectionRow hstatus hrow
    refine respects_idle hv.notDispatching hheld ⟨hsound, fun hpath => (hv.http hpath).2⟩
      fun inserted hinserted => ?_
    cases inserted with
    | error error => exact ⟨true, rfl⟩
    | ok id =>
      refine ⟨id, ?_⟩
      rw [← hhttp]
      rfl

/-! ### The pending request -/

/-- The row of an HTTP operation, in the care of its `PendingRequest`. -/
structure View.Guards (path : ApiPath) (v : View) (row : Admitted) (httpStatus : Option Nat) :
    Prop where
  http : path ≠ .webSocket
  held : v.held = []
  notDispatching : v.dispatching = false
  opened : v.pending = .opened row httpStatus

/-- What `finish` leaves. -/
def View.AfterFinish (v v' : View) (row : Admitted) (attempt : Attempt) :
    Except ApiError Unit → Prop
  | .ok () => v' = { v with pending := .absent, closure := some (.committed row attempt) }
  | .error error => error = .internal ∧ v' = { v with
      pending := .absent, closure := some (.retried row attempt), spoiled := true,
      storeFailed := true }

/-- What `finish_terminal` leaves. -/
def View.AfterTerminal (v v' : View) (row : Admitted) (first second : Attempt) : Bool → Prop
  | true => v' = { v with pending := .absent, closure := some (.committed row first) }
  | false => v' = { v with
      pending := .absent, closure := some (.retried row second), spoiled := true }

section

variable {row : Admitted} {started : Option Nat} {attempt : Attempt} {attempts : List Attempt}

theorem after_spawnFinalizer (h : v.pending = .opened row started) :
    v.after (.spawnFinalizer attempts) () = { v with pending := .closing row attempts } := by
  simp only [View.after, View.book, h, Effect.observe, Cause.hear]

theorem after_join_true (h : v.pending = .closing row (attempt :: attempts)) :
    v.after .join true =
      { v with pending := .absent, closure := some (.committed row attempt) } := by
  simp only [View.after, View.book, h, Effect.observe, Cause.hear, if_true]

theorem after_join_false (h : v.pending = .closing row (attempt :: attempts)) :
    v.after .join false = { v with
      pending := .absent
      closure := some (.retried row (attempts.getLastD attempt))
      spoiled := true
      storeFailed := v.storeFailed || attempts.isEmpty } := by
  simp only [View.after, View.book, h, Effect.observe, Cause.hear, Bool.false_eq_true, if_false]

theorem finish_respects (hv : v.Guards path row started) {status : FinalStatus}
    {httpStatus : Option Nat} (hstatus : status ≠ .internalError)
    (hjustified : Justified path v.cause row.model.rates ⟨status, httpStatus, none⟩) :
    Safe (contract path)
      (fun v' result => v.AfterFinish v' row ⟨status, httpStatus, none⟩ result)
      (finish status httpStatus none) v := by
  refine respects_idle hv.notDispatching (fun _ => hv.held) ?_ fun _ _ => ?_
  · exact ⟨row, started, hv.opened, .single rfl, by simpa using ⟨hstatus, hjustified⟩⟩
  · rw [after_spawnFinalizer hv.opened]
    refine respects_idle hv.notDispatching (fun _ => hv.held) ⟨row, _, rfl⟩ fun ok _ => ?_
    cases ok with
    | true => exact after_join_true rfl
    | false =>
      rw [after_join_false rfl]
      exact ⟨rfl, by simp⟩

theorem finishTerminal_respects (hv : v.Guards path row started) {status : FinalStatus}
    {httpStatus fallback : Nat} {usage : Option BillableUsage} (hstatus : status ≠ .internalError)
    (hfirst : Justified path v.cause row.model.rates ⟨status, some httpStatus, usage⟩)
    (hsecond : Justified path v.cause row.model.rates ⟨.upstreamError, some fallback, none⟩) :
    Safe (contract path)
      (fun v' ok => v.AfterTerminal v' row ⟨status, some httpStatus, usage⟩
        ⟨.upstreamError, some fallback, none⟩ ok)
      (finishTerminal status httpStatus fallback usage) v := by
  refine respects_idle hv.notDispatching (fun _ => hv.held) ?_ fun _ _ => ?_
  · exact ⟨row, started, hv.opened, .fallback _ _, by simpa using ⟨⟨hstatus, hfirst⟩, hsecond⟩⟩
  · rw [after_spawnFinalizer hv.opened]
    refine respects_last ⟨row, _, rfl⟩ (fun _ _ => hv.held) (by simp [hv.notDispatching])
      fun ok _ => ?_
    cases ok with
    | true => exact after_join_true rfl
    | false =>
      rw [after_join_false rfl]
      simp [View.AfterTerminal]

end

/-! ### Attempts -/

section

variable {cause : Cause} {rates : ModelRates} {httpStatus : Option Nat}

/-- A canceled attempt after an interruption, or after a failure that a Responses operation does not
record. -/
theorem justified_canceled (hcause : cause.cancels path)
    (hstatus : ∀ status ∈ httpStatus, 100 ≤ status ∧ status ≤ 599) :
    Justified path cause rates ⟨.canceled, httpStatus, none⟩ where
  httpStatus := hstatus
  canceled := fun _ => hcause
  interrupted := fun h => absurd rfl h
  failed := fun h => absurd rfl h
  completed := fun h => by rcases h with h | h <;> cases h
  usage := fun h => absurd rfl h

/-- An upstream error that no interruption came before. -/
theorem justified_upstreamError (hcause : ∀ interruption, cause ≠ .interrupted interruption)
    (hstatus : ∀ status ∈ httpStatus, 100 ≤ status ∧ status ≤ 599) :
    Justified path cause rates ⟨.upstreamError, httpStatus, none⟩ where
  httpStatus := hstatus
  canceled := fun h => by cases h
  interrupted := fun _ => hcause
  failed := fun _ _ _ => rfl
  completed := fun h => by rcases h with h | h <;> cases h
  usage := fun h => absurd rfl h

/-- A rejection, or an error of our own, before anything has been told. -/
theorem justified_clear {status : FinalStatus}
    (hlocal : status = .rejected ∨ status = .internalError)
    (hstatus : ∀ status ∈ httpStatus, 100 ≤ status ∧ status ≤ 599) :
    Justified path .clear rates ⟨status, httpStatus, none⟩ where
  httpStatus := hstatus
  canceled := fun h => by rcases hlocal with rfl | rfl <;> cases h
  interrupted := fun _ _ h => by cases h
  failed := fun _ _ h => by cases h
  completed := fun h => by rcases hlocal with rfl | rfl <;> rcases h with h | h <;> cases h
  usage := fun h => absurd rfl h

/-- The HTTP status of a stream. -/
theorem streamStatus_inRange : ∀ status ∈ some 200, 100 ≤ status ∧ status ≤ 599 := by
  rintro status ⟨⟩
  decide

/-- No terminal event stands for an error of our own. -/
theorem finalStatus_ne_internalError (kind : TerminalKind) :
    kind.finalStatus ≠ .internalError := by
  cases kind <;> decide

/-- A terminal event that is not passed on as a success. -/
theorem justified_refused {terminal : TerminalEvent}
    (hstatus : ∀ status ∈ httpStatus, 100 ≤ status ∧ status ≤ 599) :
    Justified path (.terminal terminal) rates
      ⟨.upstreamError, httpStatus, terminalUsage terminal rates⟩ where
  httpStatus := hstatus
  canceled := fun h => by cases h
  interrupted := fun _ _ h => by cases h
  failed := fun _ _ h => by cases h
  completed := fun h => by rcases h with h | h <;> cases h
  usage := fun _ => ⟨terminal, rfl, rfl⟩

/-- What a terminal event says of itself. -/
theorem justified_terminal {terminal : TerminalEvent}
    (hstatus : ∀ status ∈ httpStatus, 100 ≤ status ∧ status ≤ 599) :
    Justified path (.terminal terminal) rates
      ⟨terminal.kind.finalStatus, httpStatus, terminalUsage terminal rates⟩ where
  httpStatus := hstatus
  canceled := fun h => by cases hkind : terminal.kind <;> rw [hkind] at h <;> cases h
  interrupted := fun _ _ h => by cases h
  failed := fun _ _ h => by cases h
  completed := fun _ => ⟨terminal, rfl, rfl⟩
  usage := fun _ => ⟨terminal, rfl, rfl⟩

end

/-! ### The end of an operation -/

/-- The operation can end here, as canceled if its row is still open. -/
structure View.Droppable (path : ApiPath) (v : View) : Prop where
  held : v.held = []
  notDispatching : v.dispatching = false
  dropped : ∀ row httpStatus, v.pending = .opened row httpStatus →
    Justified path v.cause row.model.rates ⟨.canceled, httpStatus, none⟩

theorem View.Droppable.ended (hv : v.Droppable path) : View.Ended { v with pending := .absent } :=
  ⟨fun _ => hv.held, hv.notDispatching, fun _ _ h => by cases h⟩

/-- The row of an operation is closed, or a task is about to close it. -/
structure View.Closed (v : View) : Prop where
  held : v.held = []
  notDispatching : v.dispatching = false
  closed : ∀ row httpStatus, v.pending ≠ .opened row httpStatus

theorem View.Closed.droppable (hv : v.Closed) : v.Droppable path :=
  ⟨hv.held, hv.notDispatching, fun row httpStatus h => absurd h (hv.closed row httpStatus)⟩

theorem answerWith_respects (hv : v.Droppable path) {answer : Answer} (hanswer : v.Answers answer) :
    (answerWith answer).Respects path v := by
  refine respects_idle hv.notDispatching (fun _ => hv.held) hv.dropped fun _ _ => ?_
  refine respects_last ?_ (fun _ _ => hv.held) (by simp [View.after, View.book, hv.notDispatching])
    fun _ _ => hv.ended
  cases answer with
  | error error => exact hanswer
  | stream => trivial
  | completion terminal body => exact hanswer

/-- The item or the error that a turn ends with may be given to the client. -/
def View.EndsWith (v : View) : SessionEnd → Prop
  | .error error => v.Answered error
  | .terminal item => v.Sends item
  | .canceled => True

theorem endTurn_respects (hv : v.Droppable path) {sessionEnd : SessionEnd}
    (hend : v.EndsWith sessionEnd) : (endTurn sessionEnd).Respects path v := by
  refine respects_idle hv.notDispatching (fun _ => hv.held) hv.dropped fun _ _ => ?_
  cases sessionEnd with
  | error error =>
    exact respects_last hend (fun _ _ => hv.held)
      (by simp [View.after, View.book, hv.notDispatching]) fun _ _ => hv.ended
  | terminal item =>
    exact respects_last hend (fun _ _ => hv.held)
      (by simp [View.after, View.book, hv.notDispatching]) fun _ _ => hv.ended
  | canceled => exact hv.ended

/-! ### Code that may answer with an error -/

/-- What code returns that may answer with an error instead: the operation can end with that
answer. -/
def View.Returns (path : ApiPath) (Q : View → α → Prop) (v : View) : Except ApiError α → Prop
  | .error error => v.Droppable path ∧ v.Answered error
  | .ok value => Q v value

/-- An error status that no row has to show. -/
theorem View.answered_of_not_mem {error : ApiError} (h : error.status ∉ recordedErrors) :
    v.Answered error :=
  fun hmem => absurd hmem h

section

variable {Q : View → α → Prop} {row : Admitted} {started : Option Nat} {cause : Cause}

/-- A guarding view is one of code that holds no row and dispatches nothing. -/
theorem View.guards_guarding (hpath : path ≠ .webSocket) :
    (View.guarding row started cause).Guards path row started :=
  ⟨hpath, rfl, rfl, rfl⟩

theorem View.droppable_of_absent (hheld : v.held = []) (hidle : v.dispatching = false)
    (hpending : v.pending = .absent) : v.Droppable path :=
  ⟨hheld, hidle, fun row httpStatus h => by rw [hpending] at h; cases h⟩

/-- An operation that client or shutdown has ended is canceled where its `PendingRequest` is
dropped. -/
theorem droppable_interrupted {interruption : Interruption}
    (hstarted : ∀ status ∈ started, 100 ≤ status ∧ status ≤ 599) :
    (View.guarding row started (.interrupted interruption)).Droppable path := by
  refine ⟨rfl, rfl, ?_⟩
  rintro row' httpStatus ⟨⟩
  exact justified_canceled trivial hstarted

/-- What a finished row has to do with the error that the client gets. -/
def Attempt.Shows (attempt : Attempt) (cause : Cause) (error : ApiError) : Prop :=
  error.status ∈ recordedErrors → cause.excuses = true ∨
    attempt.status = statusOfError error.status ∧ attempt.httpStatus = some error.status

theorem View.AfterFinish.ended {v : View} {attempt : Attempt} {error : ApiError}
    {result : Except ApiError Unit}
    (h : (View.guarding row started cause).AfterFinish v row attempt result)
    (hshows : attempt.Shows cause error) : v.Droppable path ∧ v.Answered error := by
  cases result with
  | error internal =>
    obtain ⟨-, rfl⟩ := h
    exact ⟨View.droppable_of_absent rfl rfl rfl, fun _ => .inl rfl⟩
  | ok =>
    rw [View.AfterFinish] at h
    subst h
    refine ⟨View.droppable_of_absent rfl rfl rfl, fun hmem => ?_⟩
    rcases hshows hmem with hexcuses | ⟨hstatus, hhttp⟩
    · exact .inr (.inl hexcuses)
    · exact .inr (.inr ⟨row.id, _, rfl, rfl, by rw [Closure.ends, hstatus, hhttp]⟩)

/-- The row is finished, and the client gets an error that agrees with it. -/
theorem finishWith_respects (hpath : path ≠ .webSocket) {status : FinalStatus}
    {httpStatus : Option Nat} {error : ApiError} (hstatus : status ≠ .internalError)
    (hjustified : Justified path cause row.model.rates ⟨status, httpStatus, none⟩)
    (hshows : Attempt.Shows ⟨status, httpStatus, none⟩ cause error) :
    Safe (contract path) (View.Returns path Q) (finishWith status httpStatus error)
      (.guarding row started cause) := by
  refine (finish_respects (View.guards_guarding hpath) hstatus hjustified).bind
    fun v result hresult => ?_
  obtain ⟨hdroppable, hanswered⟩ := hresult.ended hshows
  cases result with
  | error internal =>
    obtain ⟨rfl, rfl⟩ := hresult
    exact ⟨hdroppable, View.answered_of_not_mem (by decide)⟩
  | ok => exact ⟨hdroppable, hanswered⟩

/-- A request that is refused before its admission. -/
theorem rejectRequest_respects (identity : ClientIdentity) (apiProtocol : ApiProtocol)
    (model : String) (reasoningEffort : Option String) {error : ApiError}
    (herror : error.status = 400 ∨ error = .internal) :
    Safe (contract path) (View.Returns path Q)
      (rejectRequest identity apiProtocol model reasoningEffort error) .start := by
  have hready : View.start.Ready path := ⟨rfl, fun _ => ⟨rfl, rfl, rfl⟩⟩
  have hrange : ∀ status ∈ some 400, 100 ≤ status ∧ status ≤ 599 := by
    rintro status ⟨⟩
    decide
  refine (recordRejection_respects hready _ model reasoningEffort hrange).bind
    fun v result hresult => ?_
  cases result with
  | error =>
    obtain ⟨storeFailed, rfl⟩ := hresult
    exact ⟨View.droppable_of_absent rfl rfl rfl, View.answered_of_not_mem (by decide)⟩
  | ok =>
    obtain ⟨id, rfl⟩ := hresult
    refine ⟨View.droppable_of_absent rfl rfl rfl, fun hmem => ?_⟩
    rcases herror with herror | rfl
    · exact .inr (.inr ⟨id, _, rfl, rfl, by rw [herror]; rfl⟩)
    · exact absurd hmem (by decide)

/-- A row that is admitted and has no `PendingRequest` yet. -/
def View.admitted (row : Admitted) : View :=
  ⟨[row.id], [row], .absent, none, false, false, .clear, true, false, []⟩

theorem admitRequest_respects (identity : ClientIdentity) (candidates : ModelCandidates)
    (apiProtocol : ApiProtocol) :
    Safe (contract path)
      (View.Returns path fun v (admitted : RequestId × EffectiveModel) =>
        v = .admitted ⟨admitted.1, admitted.2⟩)
      (admitRequest identity candidates apiProtocol) .start := by
  have hready : View.start.Ready path := ⟨rfl, fun _ => ⟨rfl, rfl, rfl⟩⟩
  refine (beginRequest_respects hready _ _ candidates).bind fun v result hresult => ?_
  cases result with
  | error =>
    obtain ⟨storeFailed, rfl⟩ := hresult
    exact ⟨View.droppable_of_absent rfl rfl rfl, View.answered_of_not_mem (by decide)⟩
  | ok admission =>
    cases admission with
    | admitted requestId effectiveModel =>
      obtain ⟨-, rfl⟩ := hresult
      rfl
    | weeklyQuotaExceeded =>
      obtain ⟨id, rfl⟩ := hresult
      exact ⟨View.droppable_of_absent rfl rfl rfl, fun _ => .inr (.inr ⟨id, _, rfl, rfl, rfl⟩)⟩

/-- The `PendingRequest` takes the row over. -/
theorem newPending_respects {R : View → β → Prop} (hpath : path ≠ .webSocket) {f : Unit → Code β}
    (hf : Safe (contract path) R (f ()) { View.guarding row none .clear with dispatching := true }) :
    Safe (contract path) R (await (.newPending row.id) >>= f) (.admitted row) := by
  refine respects_await ⟨hpath, rfl, row, rfl, rfl⟩ (fun _ h => by cases h) (fun _ => rfl)
    fun _ _ => ?_
  have hafter : (View.admitted row).after (.newPending row.id) () =
      { View.guarding row none .clear with dispatching := true } := by
    simp [View.after, View.book, View.admitted, View.guarding, Effect.observe, Cause.hear]
  rw [hafter]
  exact hf

end

end CodexApi.Delivery
