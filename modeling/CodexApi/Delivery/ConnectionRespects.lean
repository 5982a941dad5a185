import CodexApi.Delivery.HandlersRespect

/-!
# The WebSocket sessions respect the contract

A round of `run` starts and ends `View.Between` two events, or it leaves the connection to be finished
(`View.Finishing`). The row of an admitted request is held by the session itself from its `INSERT` on,
first on its way to the upstream and then as the active one.
-/

namespace CodexApi.Delivery

open Program (Safe bind_op perform safe_pure)

variable {v : View} {row : Admitted} {active : Option InFlight} {cause : Cause}

/-! ### The end of a connection -/

/-- The active request of a connection that ends, and the row of one on its way to the upstream. -/
def View.HoldsActive (v : View) : Option InFlight → Prop
  | none => v.storeFailed = false → v.held = []
  | some active => ∃ row ∈ v.held, row.id = active.requestId ∧ row.model.rates = active.rates ∧
      row.id ∉ v.failed ∧ (v.storeFailed = false → v.held = [row])

/-- Why a connection ends has been told. -/
def View.EndsBy (v : View) (active : Option InFlight) : ConnectionEnd → Prop
  | .shutdown | .clientDisconnect _ | .clientProtocolError =>
    ∃ interruption, v.cause = .interrupted interruption
  | .upstreamFailure | .upstreamClosed _ => ∀ interruption, v.cause ≠ .interrupted interruption
  | .internalFailure => v.spoiled = true ∧ v.cause = .clear
  | .accountingFailure => active = none

/-- A connection that is to be finished. -/
structure View.Finishing (v : View) (active : Option InFlight) (ending : ConnectionEnd) :
    Prop where
  pending : v.pending = .absent
  notDispatching : v.dispatching = false
  holds : v.HoldsActive active
  endsBy : v.EndsBy active ending

/-- What `finalize_active` leaves: nothing to finalize, unless the store has failed. -/
structure View.Finished (v : View) : Prop where
  pending : v.pending = .absent
  notDispatching : v.dispatching = false
  held : v.storeFailed = false → v.held = []

theorem View.Finished.ended (hv : v.Finished) : v.Ended :=
  ⟨hv.held, hv.notDispatching, fun row httpStatus h => by rw [hv.pending] at h; cases h⟩

theorem finalizeActive_respects {ending : ConnectionEnd} {status : FinalStatus}
    (hv : v.Finishing active ending) (hinternal : status = .internalError → v.spoiled = true)
    (hjustified : ∀ rates, Justified .webSocket v.cause rates ⟨status, none, none⟩) :
    Safe (contract .webSocket) (fun v _ => v.Finished) (finalizeActive active status) v := by
  cases active with
  | none => exact ⟨hv.pending, hv.notDispatching, hv.holds⟩
  | some active =>
    obtain ⟨row, hrow, hid, -, hnew, honly⟩ := hv.holds
    refine respects_await ⟨rfl, hinternal, fun h => absurd (hid ▸ h) hnew, row, hrow, hid, hjustified _⟩
      (fun h => absurd rfl h) (by simp [hv.notDispatching]) fun result _ => ?_
    cases result with
    | ok =>
      refine ⟨hv.pending, rfl, fun hstore => ?_⟩
      have hheld : v.held = [row] := honly hstore
      simp [View.after, View.book, hheld, hid]
    | error error =>
      exact ⟨hv.pending, rfl, fun hstore => by simp [View.after, View.book] at hstore⟩

theorem closeUpstream_respects (hv : v.Finished) (frame : Option CloseFrame) :
    Safe (contract .webSocket) (fun v _ => v.Finished) (closeUpstream frame) v :=
  respects_await rfl (fun h => absurd rfl h) (by simp [hv.notDispatching]) fun _ _ =>
    ⟨hv.pending, hv.notDispatching, hv.held⟩

theorem sendClose_respects (hv : v.Finished) (frame : Option CloseFrame) :
    Safe (contract .webSocket) (fun v _ => v.Finished)
      (await (.send (.close frame)) >>= fun _ => pure ()) v :=
  respects_await (fun _ h => by cases h) (fun h => absurd rfl h) (by simp [hv.notDispatching])
    fun _ _ => ⟨hv.pending, hv.notDispatching, hv.held⟩

theorem finishConnection_respects {ending : ConnectionEnd} (hv : v.Finishing active ending) :
    (finishConnection active ending).Respects .webSocket v := by
  have hcanceled : (∃ interruption, v.cause = .interrupted interruption) →
      Safe (contract .webSocket) (fun v _ => v.Finished) (finalizeActive active .canceled) v := by
    rintro ⟨interruption, hcause⟩
    exact finalizeActive_respects hv (fun h => by cases h) fun rates =>
      justified_canceled (by rw [hcause]; trivial) (by simp)
  have hupstream : (∀ interruption, v.cause ≠ .interrupted interruption) →
      Safe (contract .webSocket) (fun v _ => v.Finished)
        (finalizeActive active .upstreamError) v := fun hcause =>
    finalizeActive_respects hv (fun h => by cases h) fun rates =>
      justified_upstreamError hcause (by simp)
  cases ending with
  | shutdown =>
    refine (hcanceled hv.endsBy).bind fun v _ hv => ?_
    refine (closeUpstream_respects hv _).bind fun v _ hv => ?_
    exact (sendClose_respects hv _).mono fun v _ hv => hv.ended
  | clientDisconnect frame =>
    refine (hcanceled hv.endsBy).bind fun v _ hv => ?_
    exact (closeUpstream_respects hv _).mono fun v _ hv => hv.ended
  | clientProtocolError =>
    refine (hcanceled hv.endsBy).bind fun v _ hv => ?_
    refine (closeUpstream_respects hv _).bind fun v _ hv => ?_
    exact (sendClose_respects hv _).mono fun v _ hv => hv.ended
  | upstreamFailure =>
    refine (hupstream hv.endsBy).bind fun v _ hv => ?_
    exact (sendClose_respects hv _).mono fun v _ hv => hv.ended
  | upstreamClosed frame =>
    simp only [finishConnection]
    split
    · refine (hupstream hv.endsBy).bind fun v _ hv => ?_
      exact (sendClose_respects hv _).mono fun v _ hv => hv.ended
    case isFalse hactive =>
      cases active with
      | some active => simp at hactive
      | none =>
        have hfinished : v.Finished := ⟨hv.pending, hv.notDispatching, hv.holds⟩
        exact (sendClose_respects hfinished _).mono fun v _ hv => hv.ended
  | internalFailure =>
    obtain ⟨hspoiled, hcause⟩ := hv.endsBy
    have hinternal : Safe (contract .webSocket) (fun v _ => v.Finished)
        (finalizeActive active .internalError) v := by
      refine finalizeActive_respects hv (fun _ => hspoiled) fun rates => ?_
      rw [hcause]
      exact justified_clear (.inr rfl) (by simp)
    refine hinternal.bind fun v _ hv => ?_
    refine (closeUpstream_respects hv _).bind fun v _ hv => ?_
    exact (sendClose_respects hv _).mono fun v _ hv => hv.ended
  | accountingFailure =>
    obtain rfl : active = none := hv.endsBy
    have hfinished : v.Finished := ⟨hv.pending, hv.notDispatching, hv.holds⟩
    refine (sendClose_respects hfinished _).bind fun v _ hv => ?_
    exact (closeUpstream_respects hv _).mono fun v _ hv => hv.ended

/-! ### Between two events -/

/-- What the handling of an event leads to. -/
def View.Goes (v : View) : Ending × Option InFlight → Prop
  | (none, active) => v.Between active
  | (some ending, active) => v.Finishing active ending

theorem hear_of_not_failed {overtaken : Bool} {heard : Cause}
    (h : ∀ failure, cause ≠ .failed failure) : cause.hear overtaken (some heard) = heard := by
  cases cause with
  | failed failure => exact absurd rfl (h failure)
  | clear | interrupted | terminal => rfl

theorem View.Between.holdsActive (hv : v.Between active) : v.HoldsActive active := by
  have hheld := hv.held
  cases active with
  | none => exact fun _ => hheld
  | some active =>
    obtain ⟨row, hheld, hid, hrates⟩ := hheld
    exact ⟨row, by simp [hheld], hid, hrates, by simp [hv.failed], fun _ => hheld⟩

/-- A message to the client, which may be gone. -/
theorem sendDownstream_respects {item : Item} (hv : v.Between active) (hsends : v.Sends item) :
    Safe (contract .webSocket) (fun v ending => v.Goes (ending, active)) (sendDownstream item) v := by
  refine respects_await hsends (fun h => absurd rfl h) (by simp [hv.notDispatching])
    fun ok _ => ?_
  cases ok with
  | true => exact hv
  | false =>
    exact ⟨hv.pending, hv.notDispatching, hv.holdsActive, .clientGone, hear_of_not_failed hv.clear⟩

/-- A message to the upstream, which may be gone. -/
theorem relayUpstream_respects {message : UpstreamMessage} (hv : v.Between active) :
    Safe (contract .webSocket) (fun v ending => v.Goes (ending, active)) (relayUpstream message)
      v := by
  refine respects_await rfl (fun h => absurd rfl h) (by simp [hv.notDispatching]) fun ok _ => ?_
  cases ok with
  | true => exact hv
  | false =>
    refine ⟨hv.pending, hv.notDispatching, hv.holdsActive, fun interruption => ?_⟩
    rw [show (v.after (.sendUpstream message) false).cause = .failed .other from
      hear_of_not_failed hv.clear]
    exact fun h => by cases h

/-- An error event, for a session that goes on. -/
theorem sendError_respects {error : Value} (hv : v.Between active) :
    Safe (contract .webSocket) (fun v ending => v.Goes (ending, active)) (sendError error) v :=
  sendDownstream_respects hv fun _ h => by cases h

/-- The store has failed a session that was told nothing. -/
theorem finishing_of_spoiled {storeFailed : Bool} (hv : v.Between active)
    (hcause : v.cause = .clear) :
    View.Finishing { v with spoiled := true, storeFailed } active .internalFailure := by
  refine ⟨hv.pending, hv.notDispatching, ?_, rfl, hcause⟩
  have hheld := hv.held
  cases active with
  | none => exact fun _ => hheld
  | some active =>
    obtain ⟨row, hheld, hid, hrates⟩ := hheld
    exact ⟨row, by simp [hheld], hid, hrates, by simp [hv.failed], fun _ => hheld⟩

/-- One more row that is closed already. -/
theorem View.Between.closed {id : RequestId} {closure : Option Closure} (hv : v.Between active) :
    View.Between { v with ids := v.ids ++ [id], closure } active :=
  ⟨hv.pending, hv.notDispatching, hv.unspoiled, hv.failed, hv.clear, hv.relaying,
    fun row hrow => List.mem_append_left _ (hv.owned row hrow), hv.held⟩

theorem reject_respects (identity : ClientIdentity) (value error : Value) (hv : v.Between active)
    (hcause : v.cause = .clear) :
    Safe (contract .webSocket) (fun v ending => v.Goes (ending, active))
      (reject identity value error) v := by
  have hready : v.Ready .webSocket := ⟨hv.notDispatching, fun h => absurd rfl h⟩
  refine (recordRejection_respects hready _ _ _ (by simp)).bind fun v' result hresult => ?_
  cases result with
  | error =>
    obtain ⟨storeFailed, rfl⟩ := hresult
    exact finishing_of_spoiled hv hcause
  | ok =>
    obtain ⟨id, rfl⟩ := hresult
    exact sendError_respects hv.closed

/-! ### A `response.create` -/

/-- A session with a request on its way to the upstream. -/
structure View.Carries (v : View) (row : Admitted) : Prop where
  pending : v.pending = .absent
  held : v.held = [row]
  owned : ∀ row ∈ v.held, row.id ∈ v.ids
  unspoiled : v.spoiled = false
  failed : v.failed = []
  relaying : v.relaying = false

theorem failCreate_respects (hv : v.Carries row)
    (hcause : ∀ interruption, v.cause ≠ .interrupted interruption) :
    Safe (contract .webSocket) View.Goes (failCreate row.id) v := by
  refine respects_await ⟨rfl, fun h => (by cases h), by simp [hv.failed], row, by simp [hv.held], rfl,
    justified_upstreamError hcause (by simp)⟩ (fun h => absurd rfl h) (fun _ => rfl)
    fun result _ => ?_
  cases result with
  | ok => exact ⟨hv.pending, rfl, fun _ => by simp [View.after, View.book, hv.held], hcause⟩
  | error error =>
    exact ⟨hv.pending, rfl, fun hstore => by simp [View.after, View.book] at hstore, hcause⟩

/-- What the prewarm of a request leaves. -/
def View.Prewarmed (row : Admitted) (v : View) (result : Except UpstreamWebSocketError Object) :
    Prop :=
  v.Carries row ∧ match result with
    | .ok _ => v.dispatching = true ∧ v.cause = .clear
    | .error _ => ∀ interruption, v.cause ≠ .interrupted interruption

theorem prepareResponsesLite_respects (payload : Object) (model : Value) (requestKey : String)
    (hv : v.Carries row) (hdispatching : v.dispatching = true) (hcause : v.cause = .clear) :
    Safe (contract .webSocket) (View.Prewarmed row)
      (prepareResponsesLite payload model requestKey) v := by
  have hheard : ∀ (effect : Effect) (reply : effect.Reply),
      effect.observe reply = some (.failed .other) → (v.after effect reply).cause = .failed .other :=
    fun effect reply hobserved => by simp only [View.after, hobserved, hcause]; rfl
  unfold prepareResponsesLite
  cases responsesLitePrewarm payload model requestKey with
  | error error => exact ⟨hv, by rw [hcause]; exact fun _ h => by cases h⟩
  | ok prepared =>
    obtain ⟨payload, prewarm⟩ := prepared
    refine respects_await hdispatching (fun h => absurd rfl h) (fun _ => rfl) fun ok _ => ?_
    cases ok with
    | false =>
      refine ⟨⟨hv.pending, hv.held, hv.owned, hv.unspoiled, hv.failed, ?_⟩, ?_⟩
      · simp [View.after, View.book, hv.relaying]
      · rw [hheard _ _ rfl]
        exact fun _ h => by cases h
    | true =>
      have hsent : v.after (.sendCreate false prewarm) true = v := by
        simp [View.after, View.book, Effect.observe, Cause.ofUpstream, Cause.hear]
      rw [hsent]
      refine respects_await hdispatching (fun h => absurd rfl h) (fun _ => rfl) fun reply _ => ?_
      cases reply with
      | error error =>
        refine ⟨⟨hv.pending, hv.held, hv.owned, hv.unspoiled, hv.failed, hv.relaying⟩, ?_⟩
        rw [hheard _ _ rfl]
        exact fun _ h => by cases h
      | ok responseId =>
        exact ⟨⟨hv.pending, hv.held, hv.owned, hv.unspoiled, hv.failed, hv.relaying⟩, hdispatching, hcause⟩

theorem dispatchCreate_respects (payload : Object) (hv : v.Carries row)
    (hdispatching : v.dispatching = true) (hcause : v.cause = .clear) :
    Safe (contract .webSocket) View.Goes (dispatchCreate row.id row.model payload) v := by
  refine respects_await ⟨by decide, hdispatching⟩ (fun h => absurd rfl h) (fun _ => rfl)
    fun found _ => ?_
  have hafter : v.after (.model row.model.model) found = { v with
      dispatching := (liteModel found).isSome
      cause := if (liteModel found).isSome then .clear else .failed .lookup } := by
    cases hlite : (liteModel found).isSome <;>
      simp [View.after, View.book, hv.pending, hdispatching, hcause, hlite, Effect.observe,
        Cause.hear]
  rw [hafter]
  cases hlite : liteModel found with
  | none =>
    exact failCreate_respects ⟨hv.pending, hv.held, hv.owned, hv.unspoiled, hv.failed, hv.relaying⟩
      fun _ h => by cases h
  | some model =>
    have hfound : ({ v with
        dispatching := (some model).isSome
        cause := if (some model).isSome then .clear else .failed .lookup } : View) = v := by
      rw [← hcause]
      simp [← hdispatching]
    rw [hfound]
    refine (prepareResponsesLite_respects payload model _ hv hdispatching hcause).bind
      fun v result hresult => ?_
    obtain ⟨hv, hresult⟩ := hresult
    cases result with
    | error error => exact failCreate_respects hv hresult
    | ok payload =>
      obtain ⟨hdispatching, hcause⟩ := hresult
      refine respects_await hdispatching (fun h => absurd rfl h) (fun _ => rfl) fun ok _ => ?_
      have hheard : (v.after (.sendCreate true payload) ok).cause =
          if ok then .clear else .failed .other := by
        cases ok <;> simp [View.after, hcause, Effect.observe, Cause.ofUpstream, Cause.hear]
      cases ok with
      | true =>
        refine ⟨hv.pending, ?_, hv.unspoiled, hv.failed, fun failure => ?_, ?_, hv.owned, row, hv.held,
          rfl, rfl⟩
        · simp [View.after, View.book]
        · rw [hheard]
          exact fun h => by cases h
        · simp [View.after, View.book]
      | false =>
        refine failCreate_respects ⟨hv.pending, hv.held, hv.owned, hv.unspoiled, hv.failed, ?_⟩
          fun interruption => ?_
        · simp [View.after, View.book, hv.relaying]
        · rw [hheard]
          exact fun h => by cases h

/-- A second row is closed while another request is active. -/
theorem refuseCreate_respects {request : InFlight} (new : Admitted)
    (hv : v.Between (some request)) (hcause : v.cause = .clear) (hnew : new.id ∉ v.ids) :
    Safe (contract .webSocket) (fun v ending => v.Goes (ending, some request))
      (refuseCreate new.id)
      { v with ids := v.ids ++ [new.id], held := v.held ++ [new], dispatching := !v.relaying } := by
  obtain ⟨row, hheld, hid, hrates⟩ := hv.held
  have howned : row.id ∈ v.ids := hv.owned row (by simp [hheld])
  have hne : row.id ≠ new.id := fun heq => hnew (heq ▸ howned)
  refine respects_await ⟨rfl, fun h => (by cases h), by simp [hv.failed], new, by simp, rfl, ?_⟩
    (fun h => absurd rfl h) (by simp [hv.relaying]) fun result _ => ?_
  · exact hcause ▸ justified_clear (.inl rfl) (by simp)
  cases result with
  | ok =>
    have hleft : (v.held ++ [new]).filter (·.id ≠ new.id) = [row] := by
      simp [hheld, hne]
    refine sendError_respects ⟨hv.pending, rfl, hv.unspoiled, hv.failed, hv.clear, hv.relaying, ?_, row,
      hleft, hid, hrates⟩
    intro row' hrow'
    have hmem : row' ∈ (v.held ++ [new]).filter (·.id ≠ new.id) := hrow'
    rw [hleft, List.mem_singleton] at hmem
    rw [hmem]
    exact List.mem_append_left _ howned
  | error error =>
    refine ⟨hv.pending, rfl, ⟨row, ?_, hid, hrates, ?_, fun hstore => ?_⟩, rfl, hcause⟩
    · simp [View.after, View.book, hheld]
    · simp [View.after, View.book, hv.failed, hne]
    · simp [View.after, View.book] at hstore

theorem handleCreate_respects (config : Config) (identity : ClientIdentity) (frame : TextFrame)
    (hv : v.Between active) (hcause : v.cause = .clear) :
    Safe (contract .webSocket) View.Goes (handleCreate config identity active frame) v := by
  have hrejected : ∀ value error, Safe (contract .webSocket) View.Goes
      (reject identity value error >>= fun ending => pure (ending, active)) v :=
    fun value error => (reject_respects identity value error hv hcause).bind fun _ _ h => h
  unfold handleCreate
  cases frame.event with
  | none => exact hrejected _ _
  | some value =>
    simp only
    cases prepareRequest config value with
    | error error => exact hrejected _ _
    | ok accepted =>
      have hready : v.Ready .webSocket := ⟨hv.notDispatching, fun h => absurd rfl h⟩
      refine (beginRequest_respects hready _ _ accepted.candidates).bind fun v' result hresult => ?_
      cases result with
      | error =>
        obtain ⟨storeFailed, rfl⟩ := hresult
        exact finishing_of_spoiled hv hcause
      | ok admission =>
        cases admission with
        | weeklyQuotaExceeded =>
          obtain ⟨id, rfl⟩ := hresult
          exact (sendError_respects hv.closed).bind fun _ _ h => h
        | admitted requestId effectiveModel =>
          obtain ⟨hnew, rfl⟩ := hresult
          cases active with
          | some request =>
            exact (refuseCreate_respects ⟨requestId, effectiveModel⟩ hv hcause hnew).bind
              fun _ _ h => h
          | none =>
            have hheld : v.held = [] := hv.held
            have hrelaying : v.relaying = false := hv.relaying
            have hcarries : View.Carries
                { v with
                  ids := v.ids ++ [requestId], held := v.held ++ [⟨requestId, effectiveModel⟩]
                  dispatching := !v.relaying }
                ⟨requestId, effectiveModel⟩ :=
              ⟨hv.pending, by simp [hheld], by simp [hheld], hv.unspoiled, hv.failed, hrelaying⟩
            exact dispatchCreate_respects _ hcarries (by simp [hrelaying]) hcause

/-! ### Events -/

/-- A session that has received an event. -/
def View.told (v : View) (event : ConnectionEvent) : View :=
  { v with
    relaying := v.relaying && !event.cause.isTerminal
    closure := if event.cause.isTerminal then none else v.closure
    cause := event.cause }

theorem handleDownstream_respects (config : Config) (identity : ClientIdentity)
    (message : DownstreamMessage) (hv : v.Between active) :
    Safe (contract .webSocket) View.Goes (handleDownstream config identity active message)
      (v.told (.downstream message)) := by
  have hclear : ConnectionEvent.cause (.downstream message) = .clear →
      (v.told (.downstream message)).Between active := by
    intro hcause
    refine ⟨hv.pending, hv.notDispatching, hv.unspoiled, hv.failed, ?_, ?_, hv.owned, hv.held⟩
    · intro failure
      simp [View.told, hcause]
    · simp [View.told, hcause, Cause.isTerminal, hv.relaying]
  cases message with
  | text frame => exact handleCreate_respects config identity frame (hclear rfl) rfl
  | ping payload | pong payload =>
    exact (relayUpstream_respects (hclear rfl)).bind fun _ _ h => h
  | binary => exact ⟨hv.pending, hv.notDispatching, hv.holdsActive, _, rfl⟩
  | close frame =>
    exact respects_await trivial (fun h => absurd rfl h)
      (fun h => by simp [View.told, hv.notDispatching] at h)
      fun _ _ => ⟨hv.pending, hv.notDispatching, hv.holdsActive, _, rfl⟩

/-- What the booking of a terminal event leaves. -/
def View.BookedTerminal (terminal : TerminalEvent) (v : View) : Bool → Prop
  | true => v.Between none ∧ v.Covers terminal
  | false => v.Finishing none .accountingFailure

theorem bookTerminal_respects {request : InFlight} {terminal : TerminalEvent}
    (hv : v.Between (some request)) (hcause : v.cause = .terminal terminal) :
    Safe (contract .webSocket) (View.BookedTerminal terminal) (bookTerminal request terminal)
      { v with relaying := false, closure := none } := by
  obtain ⟨row, hheld, hid, hrates⟩ := hv.held
  have hbooked : Justified .webSocket v.cause row.model.rates
      ⟨terminal.kind.finalStatus, none, terminalUsage terminal request.rates⟩ := by
    rw [hcause, ← hrates]
    exact justified_terminal (by simp)
  refine respects_await ⟨rfl, fun h => ?_, by simp [hv.failed], row, by simp [hheld], hid, hbooked⟩
    (fun h => absurd rfl h) (by simp [hv.notDispatching]) fun result _ => ?_
  · exact absurd h (finalStatus_ne_internalError _)
  cases result with
  | ok =>
    have hfind : v.held.find? (·.id = request.requestId) = some row := by simp [hheld, hid]
    have hleft : v.held.filter (·.id ≠ request.requestId) = [] := by simp [hheld, hid]
    refine ⟨⟨hv.pending, rfl, hv.unspoiled, hv.failed, hv.clear, rfl, ?_, hleft⟩, hv.unspoiled, hcause, row,
      ⟨terminal.kind.finalStatus, none, terminalUsage terminal request.rates⟩, ?_, rfl,
      by rw [hrates]⟩
    · intro row' hrow'
      have hmem : row' ∈ v.held.filter (·.id ≠ request.requestId) := hrow'
      rw [hleft] at hmem
      cases hmem
    · simp only [View.after, View.book, hfind, Option.map_some]
  | error error =>
    refine respects_await ⟨rfl, fun h => (by cases h), fun _ => rfl, row,
      by simp [View.after, View.book, hheld], hid, ?_⟩ (fun h => absurd rfl h) (fun h => by cases h) fun result _ => ?_
    · have hsame : (View.after { v with relaying := false, closure := none } (.finalize request.requestId
          ⟨terminal.kind.finalStatus, none, terminalUsage terminal request.rates⟩)
          (.error error)).cause = .terminal terminal := hcause
      rw [hsame]
      exact justified_upstreamError (fun _ h => by cases h) (by simp)
    cases result with
    | ok =>
      exact ⟨hv.pending, rfl, fun _ => by simp [View.after, View.book, hheld, hid], rfl⟩
    | error error =>
      exact ⟨hv.pending, rfl, fun hstore => by simp [View.after, View.book] at hstore, rfl⟩

theorem handleUpstreamText_respects (isHttpDate : String → Bool) (frame : TextFrame)
    (hv : v.Between active) :
    Safe (contract .webSocket) View.Goes (handleUpstreamText isHttpDate active frame)
      (v.told (.upstream (.text frame))) := by
  have hfailed : frame.cause = .failed .other → View.Goes (v.told (.upstream (.text frame)))
      (some .upstreamFailure, active) := by
    intro hcause
    refine ⟨hv.pending, hv.notDispatching, hv.holdsActive, fun interruption h => ?_⟩
    rw [show (v.told (.upstream (.text frame))).cause = frame.cause from rfl, hcause] at h
    cases h
  unfold handleUpstreamText
  cases hevent : frame.event.filter fun event => (eventType event).isSome with
  | none => exact hfailed (by rw [TextFrame.cause, hevent])
  | some event =>
    simp only
    cases hparse : parseTerminalPayload event with
    | error error => exact hfailed (by rw [TextFrame.cause, hevent]; simp only [hparse])
    | ok parsed =>
      have hcause : frame.cause = match parsed with
          | none => .clear
          | some terminal => .terminal terminal := by
        rw [TextFrame.cause, hevent]
        simp only [hparse]
        cases parsed <;> rfl
      have htold : v.told (.upstream (.text frame)) = { v with
          relaying := v.relaying && !frame.cause.isTerminal
          closure := if frame.cause.isTerminal then none else v.closure
          cause := frame.cause } := rfl
      cases parsed with
      | none =>
        have hbetween : (v.told (.upstream (.text frame))).Between active := by
          rw [htold, hcause]
          exact ⟨hv.pending, hv.notDispatching, hv.unspoiled, hv.failed, fun _ h => (by cases h),
            by simp [Cause.isTerminal, hv.relaying], hv.owned, hv.held⟩
        exact (sendDownstream_respects hbetween fun _ h => by cases h).bind fun _ _ h => h
      | some terminal =>
        cases active with
        | none =>
          rw [htold, hcause]
          exact ⟨hv.pending, hv.notDispatching, fun _ => hv.held, fun _ h => by cases h⟩
        | some request =>
          have hbetween : View.Between { v with cause := .terminal terminal } (some request) :=
            ⟨hv.pending, hv.notDispatching, hv.unspoiled, hv.failed, fun _ h => (by cases h),
              hv.relaying, hv.owned, hv.held⟩
          rw [htold, hcause, show (v.relaying && !Cause.isTerminal (.terminal terminal)) = false by
            simp [Cause.isTerminal], if_pos (show Cause.isTerminal (.terminal terminal) = true from rfl)]
          refine (bookTerminal_respects hbetween rfl).bind fun v ok hbooked => ?_
          cases ok with
          | false => exact hbooked
          | true =>
            obtain ⟨hbetween, hcovers⟩ := hbooked
            refine (sendDownstream_respects hbetween ?_).bind fun _ _ h => h
            intro terminal' hterminal _
            cases hterminal
            exact hcovers

theorem handleUpstream_respects (isHttpDate : String → Bool) (message : UpstreamMessage)
    (hv : v.Between active) :
    Safe (contract .webSocket) View.Goes (handleUpstream isHttpDate active message)
      (v.told (.upstream message)) := by
  have hpassed : ConnectionEvent.cause (.upstream message) = .clear →
      (v.told (.upstream message)).Between active := by
    intro hcause
    refine ⟨hv.pending, hv.notDispatching, hv.unspoiled, hv.failed, ?_, ?_, hv.owned, hv.held⟩
    · intro failure
      simp [View.told, hcause]
    · simp [View.told, hcause, Cause.isTerminal, hv.relaying]
  cases message with
  | text frame => exact handleUpstreamText_respects isHttpDate frame hv
  | ping payload | pong payload =>
    exact (sendDownstream_respects (hpassed rfl) fun _ h => by cases h).bind fun _ _ h => h
  | binary | frame =>
    exact ⟨hv.pending, hv.notDispatching, hv.holdsActive, fun _ h => by cases h⟩
  | close frame =>
    exact respects_await trivial (fun h => absurd rfl h)
      (fun h => by simp [View.told, hv.notDispatching] at h)
      fun _ _ => ⟨hv.pending, hv.notDispatching, hv.holdsActive, fun _ h => by cases h⟩

theorem handleEvent_respects (config : Config) (isHttpDate : String → Bool)
    (identity : ClientIdentity) (event : ConnectionEvent) (hv : v.Between active) :
    Safe (contract .webSocket) View.Goes (handleEvent config isHttpDate identity active event)
      (v.told event) := by
  cases event with
  | shutdown | clientGone => exact ⟨hv.pending, hv.notDispatching, hv.holdsActive, _, rfl⟩
  | downstream message => exact handleDownstream_respects config identity message hv
  | upstreamGone => exact ⟨hv.pending, hv.notDispatching, hv.holdsActive, fun _ h => by cases h⟩
  | upstream message => exact handleUpstream_respects isHttpDate message hv

/-- **A WebSocket session respects the contract.** -/
theorem connection_respects (config : Config) (isHttpDate : String → Bool)
    {identity : ClientIdentity} (hv : v.AtLoop .webSocket (.connection identity active)) :
    (connection config isHttpDate identity active).Respects .webSocket v := by
  obtain ⟨-, hv⟩ := hv
  refine respects_await rfl (fun h => absurd rfl h) (by simp [hv.notDispatching])
    fun event _ => ?_
  have htold : v.after .receive event = v.told event := by
    simp only [View.after, View.book, Effect.observe, hear_of_not_failed hv.clear, View.told]
  rw [htold]
  refine (handleEvent_respects config isHttpDate identity event hv).bind fun v result hresult => ?_
  obtain ⟨ending, active'⟩ := result
  cases ending with
  | none => exact ⟨rfl, hresult⟩
  | some ending => exact finishConnection_respects hresult

end CodexApi.Delivery
