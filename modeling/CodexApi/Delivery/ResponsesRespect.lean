import CodexApi.Delivery.HandlersRespect

/-!
# The Responses handler respects the contract

`POST /v1/responses` from its admission to the end of its stream (`responses_respects`,
`forward_respects`), across the hand-over to a session. All waits of a session are interruptible, so
each function has one specification for the code that runs inside the `select!`.
-/

namespace CodexApi.Delivery

open Program (Safe bind_op perform safe_pure)

variable {v : View} {α β : Type} {row : Admitted} {started : Option Nat} {rates : ModelRates}

/-! ### The handler -/

theorem model_respects {R : View → β → Prop} {slug : String}
    {f : Option (Option Value) → Code β}
    (hf : ∀ found, Safe (contract .responses) R (f found)
      (.guarding row none (if (liteModel found).isSome then .clear else .failed .lookup))) :
    Safe (contract .responses) R (await (.model slug) >>= f)
      { View.guarding row none .clear with dispatching := true } := by
  refine respects_await ⟨by decide, rfl⟩ (fun _ _ => rfl) (fun _ => rfl) fun found _ => ?_
  have hafter : View.after { View.guarding row none .clear with dispatching := true }
      (.model slug) found =
        .guarding row none (if (liteModel found).isSome then .clear else .failed .lookup) := by
    cases hlite : (liteModel found).isSome <;>
      simp [View.after, View.book, View.guarding, Effect.observe, hlite, Cause.hear]
  rw [hafter]
  exact hf found

theorem prepareTurn_respects (config : Config) (identity : ClientIdentity) (headers : HeaderMap)
    (body : Option Value) :
    Safe (contract .responses)
      (View.Returns .responses fun v (prepared : Turn × ModelRates) =>
        ∃ row, v = .guarding row none .clear ∧ row.model.rates = prepared.2)
      (prepareTurn config identity headers body) .start := by
  unfold prepareTurn
  cases body with
  | none => exact rejectRequest_respects _ _ _ _ (.inl rfl)
  | some parsed =>
    simp only
    cases hrequest : responsesRequest config parsed with
    | error error =>
      exact rejectRequest_respects _ _ _ _ (.inl (responsesRequest_failsWith _ _ _ hrequest))
    | ok accepted =>
      simp only
      cases hkey : SessionKey.fromHeaders identity.id headers with
      | error error =>
        exact rejectRequest_respects _ _ _ _
          (.inl (SessionKey.fromHeaders_failsWith _ _ _ hkey))
      | ok key =>
        refine (admitRequest_respects identity accepted.candidates .responses).bind
          fun v result hresult => ?_
        cases result with
        | error error => exact hresult
        | ok admitted =>
          obtain rfl : v = _ := hresult
          refine newPending_respects (by decide) (model_respects fun found => ?_)
          cases hlite : liteModel found with
          | none =>
            refine ⟨⟨rfl, rfl, ?_⟩, fun _ => .inr (.inl rfl)⟩
            rintro row httpStatus ⟨⟩
            exact justified_canceled ⟨rfl, rfl⟩ (by simp)
          | some model =>
            have hclear : View.guarding ⟨admitted.1, admitted.2⟩ none
                (if (some model).isSome then .clear else .failed .lookup) =
                .guarding ⟨admitted.1, admitted.2⟩ none .clear := rfl
            rw [hclear]
            refine respects_idle rfl (fun _ => rfl) trivial fun called _ => ?_
            cases called with
            | busy =>
              exact finishWith_respects (by decide) (by decide) (justified_clear (.inl rfl) (by decide))
                fun _ => .inr ⟨rfl, rfl⟩
            | closed =>
              exact finishWith_respects (by decide) (by decide)
                (justified_canceled trivial (by decide)) fun h => absurd h (by decide)
            | queued => exact ⟨⟨admitted.1, admitted.2⟩, rfl, rfl⟩

/-! ### The session -/

/-- What `prepare` leaves inside its `select!`. -/
def View.Prepared (row : Admitted) (started : Option Nat) (v : View) :
    Selected (Except ApiError Unit) → Prop
  | .shutdown => v = .guarding row started (.interrupted .shutdown)
  | .closed => v = .guarding row started (.interrupted .clientGone)
  | .done (.ok ()) => v = .guarding row started .clear
  | .done (.error error) => (error.status = 400 ∨ error.status = 502) ∧
      v = .guarding row started .clear ∨
    error.status = 502 ∧ v = .guarding row started (.failed .other)

theorem sendGeneration_respects (plan : Plan) (previousId : String) (input : List Value) :
    Safe (contract .responses) (View.Prepared row started)
      (interruptible true (sendGeneration plan previousId input))
      (.guarding row started .clear) := by
  refine interruptible_op_respects rfl (by decide) rfl trivial rfl (fun _ => rfl) fun ok => ?_
  cases ok with
  | true => exact rfl
  | false => exact .inr ⟨rfl, rfl⟩

theorem sendTurn_respects (session : Session) (plan : Plan) :
    Safe (contract .responses) (View.Prepared row started)
      (interruptible true (sendTurn session plan)) (.guarding row started .clear) := by
  unfold sendTurn
  cases session.incremental plan with
  | some snapshot => exact sendGeneration_respects plan _ _
  | none =>
    refine interruptible_op_respects rfl (by decide) rfl trivial rfl (fun _ => rfl) fun ok => ?_
    cases ok with
    | false => exact .inr ⟨rfl, rfl⟩
    | true =>
      refine interruptible_op_respects rfl (by decide) rfl trivial rfl (fun _ => rfl)
        fun reply => ?_
      cases reply with
      | error error => exact .inr ⟨rfl, rfl⟩
      | ok responseId => exact sendGeneration_respects plan _ _

theorem prepare_respects (session : Session) (turn : Turn) :
    Safe (contract .responses) (View.Prepared row started)
      (interruptible true (prepare session turn)) (.guarding row started .clear) := by
  unfold prepare
  cases hplan : session.plan turn with
  | error error => exact .inl ⟨session.plan_failsWith turn error hplan, rfl⟩
  | ok plan =>
    simp only
    split
    · exact sendTurn_respects session plan
    · refine interruptible_op_respects rfl (by decide) rfl trivial rfl (fun _ => rfl) fun ok => ?_
      cases ok with
      | true => exact sendTurn_respects _ plan
      | false => exact .inr ⟨rfl, rfl⟩

/-- A turn is finished, and its client gets an error that agrees with the row. -/
theorem endWithError_respects {cause : Cause} {status : FinalStatus} {httpStatus : Option Nat}
    {error : ApiError} (hstatus : status ≠ .internalError)
    (hjustified : Justified .responses cause row.model.rates ⟨status, httpStatus, none⟩)
    (hshows : Attempt.Shows ⟨status, httpStatus, none⟩ cause error) :
    Code.Respects .responses (finish status httpStatus none >>= fun _ => endTurn (.error error))
      (.guarding row started cause) := by
  refine (finish_respects (View.guards_guarding (by decide)) hstatus hjustified).bind
    fun v result hresult => ?_
  obtain ⟨hdroppable, hanswered⟩ := hresult.ended hshows
  exact endTurn_respects hdroppable hanswered

/-- What `failTurn` may be told. -/
def FailsTurn (cause : Cause) (error : ApiError) : Prop :=
  (error.status = 400 ∨ error.status = 502) ∧ cause = .clear ∨
    error.status = 502 ∧ cause = .failed .other ∨
    error.status = 503 ∧ cause = .interrupted .shutdown

theorem failTurn_respects {cause : Cause} {error : ApiError} (h : FailsTurn cause error) :
    (failTurn error).Respects .responses (.guarding row started cause) := by
  have hrange : ∀ status ∈ some error.status, 100 ≤ status ∧ status ≤ 599 := by
    rintro status ⟨⟩
    rcases h with ⟨h | h, -⟩ | ⟨h, -⟩ | ⟨h, -⟩ <;> rw [h] <;> decide
  unfold failTurn
  by_cases hrejected : error.status = 400
  · have hclear : cause = .clear := by
      rcases h with ⟨-, h⟩ | ⟨h, -⟩ | ⟨h, -⟩
      · exact h
      · rw [hrejected] at h
        cases h
      · rw [hrejected] at h
        cases h
    subst hclear
    simp only [hrejected, if_true] at hrange ⊢
    refine endWithError_respects (by decide) (justified_clear (.inl rfl) hrange) fun _ => .inr ?_
    rw [hrejected]
    exact ⟨rfl, rfl⟩
  · simp only [hrejected, if_false]
    refine respects_idle rfl (fun _ => rfl) trivial fun seen hseen => ?_
    cases seen with
    | true =>
      refine endWithError_respects (by decide) (justified_canceled ?_ hrange) ?_
      · rcases h with ⟨-, rfl⟩ | ⟨-, rfl⟩ | ⟨-, rfl⟩
        · trivial
        · exact ⟨rfl, rfl⟩
        · trivial
      · intro _
        rcases h with ⟨-, rfl⟩ | ⟨-, rfl⟩ | ⟨-, rfl⟩ <;> exact .inl rfl
    | false =>
      have hstatus : error.status = 502 := by
        rcases h with ⟨h | h, -⟩ | ⟨h, -⟩ | ⟨-, rfl⟩
        · exact absurd h hrejected
        · exact h
        · exact h
        · cases hseen rfl
      refine endWithError_respects (by decide) (justified_upstreamError ?_ hrange) fun _ => .inr ?_
      · intro interruption
        rcases h with ⟨-, rfl⟩ | ⟨-, rfl⟩ | ⟨-, rfl⟩
        · exact fun h => by cases h
        · exact fun h => by cases h
        · cases hseen rfl
      · rw [hstatus]
        exact ⟨rfl, rfl⟩

theorem respond_respects (session : Session) (turn : Turn) :
    (respond session turn row.model.rates).Respects .responses (.guarding row none .clear) := by
  have hprepared : Safe (contract .responses) (View.Prepared row none)
      (race true (prepare session turn)) (.guarding row none .clear) :=
    race_respects (by decide) rfl rfl (fun _ => rfl) (prepare_respects session turn)
  refine hprepared.bind fun v selected hselected => ?_
  cases selected with
  | shutdown =>
    obtain rfl : v = _ := hselected
    exact failTurn_respects (.inr (.inr ⟨rfl, rfl⟩))
  | closed =>
    obtain rfl : v = _ := hselected
    exact endTurn_respects (droppable_interrupted (by simp)) trivial
  | done prepared =>
    cases prepared with
    | error error =>
      rcases hselected with ⟨hstatus, rfl⟩ | ⟨hstatus, rfl⟩
      · exact failTurn_respects (.inl ⟨hstatus, rfl⟩)
      · exact failTurn_respects (.inr (.inl ⟨hstatus, rfl⟩))
    | ok =>
      obtain rfl : v = _ := hselected
      refine respects_idle rfl (fun _ => rfl) ⟨by decide, by decide, row, none, rfl⟩
        fun _ _ => ?_
      refine respects_idle rfl (fun _ => rfl) trivial fun ok _ => ?_
      cases ok with
      | true =>
        refine respects_idle rfl (fun _ => rfl) trivial fun _ _ => ?_
        exact ⟨rfl, by decide, row, some 200, rfl, rfl, streamStatus_inRange⟩
      | false =>
        have hcanceled : View.EndsWith (.guarding row (some 200) (.interrupted .clientGone))
            .canceled := trivial
        exact endTurn_respects (droppable_interrupted streamStatus_inRange) hcanceled

theorem runJob_respects (turn : Turn) :
    (runJob turn row.model.rates).Respects .responses (.guarding row none .clear) := by
  refine respects_idle rfl (fun _ => rfl) trivial fun received _ => ?_
  cases received with
  | none =>
    exact answerWith_respects (droppable_interrupted (by simp))
      (View.answered_of_not_mem (by decide))
  | some session => exact respond_respects session turn

/-- **`POST /v1/responses` respects the contract.** -/
theorem responses_respects (config : Config) (identity : ClientIdentity) (headers : HeaderMap)
    (body : Option Value) :
    (responses config identity headers body).Respects .responses .start := by
  refine (prepareTurn_respects config identity headers body).bind fun v result hresult => ?_
  cases result with
  | error error => exact answerWith_respects hresult.1 hresult.2
  | ok prepared =>
    obtain ⟨row, rfl, hrates⟩ := hresult
    simp only
    rw [← hrates]
    exact runJob_respects prepared.1

/-! ### The stream -/

theorem interruptible_finish_respects {cause : Cause} {status : FinalStatus}
    {httpStatus : Option Nat} (hstatus : status ≠ .internalError)
    (hjustified : Justified .responses cause row.model.rates ⟨status, httpStatus, none⟩) :
    Safe (contract .responses) (fun v _ => v.Closed)
      (interruptible true (finish status httpStatus none)) (.guarding row started cause) := by
  refine interruptible_op_respects_of_not rfl rfl (fun _ => rfl)
    ⟨row, started, rfl, .single rfl, by simpa using ⟨hstatus, hjustified⟩⟩ fun _ _ => ?_
  refine interruptible_op_respects rfl (by decide) rfl ⟨row, _, rfl⟩
    ⟨rfl, rfl, fun _ _ h => by cases h⟩ (fun _ => ⟨rfl, rfl, fun _ _ h => by cases h⟩) fun ok => ?_
  cases ok with
  | true => exact ⟨rfl, rfl, fun _ _ h => by cases h⟩
  | false => exact ⟨rfl, rfl, fun _ _ h => by cases h⟩

/-- What `finish_terminal` leaves inside a `select!`: if its first attempt succeeded, that is the
closure. -/
def View.Booked (row : Admitted) (cause : Cause) (attempt : Attempt) (v : View)
    (selected : Selected Bool) : Prop :=
  v.Closed ∧ (selected = .done true →
    v.spoiled = false ∧ v.cause = cause ∧ v.closure = some (.committed row attempt))

theorem interruptible_finishTerminal_respects {cause : Cause} {status : FinalStatus}
    {httpStatus fallback : Nat} {usage : Option BillableUsage} (hstatus : status ≠ .internalError)
    (hfirst : Justified .responses cause row.model.rates ⟨status, some httpStatus, usage⟩)
    (hsecond : Justified .responses cause row.model.rates ⟨.upstreamError, some fallback, none⟩) :
    Safe (contract .responses) (View.Booked row cause ⟨status, some httpStatus, usage⟩)
      (interruptible true (finishTerminal status httpStatus fallback usage))
      (.guarding row started cause) := by
  refine interruptible_op_respects_of_not rfl rfl (fun _ => rfl)
    ⟨row, started, rfl, .fallback _ _, by simpa using ⟨⟨hstatus, hfirst⟩, hsecond⟩⟩ fun _ _ => ?_
  refine interruptible_op_respects rfl (by decide) rfl ⟨row, _, rfl⟩
    ⟨⟨rfl, rfl, fun _ _ h => by cases h⟩, fun h => by cases h⟩
    (fun _ => ⟨⟨rfl, rfl, fun _ _ h => by cases h⟩, fun h => by cases h⟩) fun ok => ?_
  cases ok with
  | true => exact ⟨⟨rfl, rfl, fun _ _ h => by cases h⟩, fun _ => ⟨rfl, rfl, rfl⟩⟩
  | false => exact ⟨⟨rfl, rfl, fun _ _ h => by cases h⟩, fun h => by cases h⟩

/-- What a round of the stream leaves inside its `select!`. -/
def View.Forwarded (row : Admitted) (started : Option Nat) (v : View) :
    Selected (Round Unit (Option Item)) → Prop
  | .done (.again ()) => v = .guarding row started .clear
  | .done (.finished (some item)) => v.Closed ∧ v.Sends item
  | .done (.finished none) => v.Closed
  | .shutdown | .closed => v.Droppable .responses

theorem failStream_respects {cause : Cause} {status : FinalStatus} (hstatus : status ≠ .internalError)
    (hjustified : Justified .responses cause row.model.rates ⟨status, some 200, none⟩) :
    Safe (contract .responses) (View.Forwarded row started)
      (interruptible true (failStream status)) (.guarding row started cause) :=
  interruptible_bind_respects (interruptible_finish_respects hstatus hjustified)
    (fun _ hv => hv.droppable) (fun _ hv => hv.droppable) fun _ _ hv => hv

/-- A frame without a type is a failure. -/
theorem TextFrame.cause_of_untyped {frame : TextFrame}
    (h : (frame.event.bind fun event => (eventType event).map (event, ·)) = none) :
    frame.cause = .failed .other := by
  have hnone : (frame.event.filter fun event => (eventType event).isSome) = none := by
    cases hframe : frame.event with
    | none => rfl
    | some event =>
      cases htype : eventType event with
      | none => simp [htype]
      | some name => simp [hframe, htype] at h
  rw [TextFrame.cause, hnone]

/-- The event of a frame with a type. -/
theorem TextFrame.filter_of_typed {frame : TextFrame} {event : Value} {eventName : String}
    (h : (frame.event.bind fun event => (eventType event).map (event, ·)) = some (event, eventName)) :
    (frame.event.filter fun event => (eventType event).isSome) = some event := by
  obtain ⟨event', hframe, htype⟩ := Option.bind_eq_some_iff.mp h
  obtain ⟨name, hname, heq⟩ := Option.map_eq_some_iff.mp htype
  cases heq
  simp [hframe, hname]

theorem forwardText_respects (isHttpDate : String → Bool) (frame : TextFrame)
    (hstarted : ∀ status ∈ started, 100 ≤ status ∧ status ≤ 599) :
    Safe (contract .responses) (View.Forwarded row started)
      (interruptible true (forwardText isHttpDate row.model.rates frame))
      (.guarding row started frame.cause) := by
  unfold forwardText
  cases hevent : frame.event.bind fun event => (eventType event).map (event, ·) with
  | none =>
    rw [TextFrame.cause_of_untyped hevent]
    exact failStream_respects (by decide)
      (justified_upstreamError (fun _ h => by cases h) streamStatus_inRange)
  | some found =>
    obtain ⟨event, eventName⟩ := found
    simp only [TextFrame.cause, TextFrame.filter_of_typed hevent]
    cases hparse : parseTerminalPayload event with
    | error error =>
      exact failStream_respects (by decide)
        (justified_upstreamError (fun _ h => by cases h) streamStatus_inRange)
    | ok parsed =>
      cases parsed with
      | none =>
        refine interruptible_op_respects rfl (by decide) rfl (fun terminal h => by cases h)
          (droppable_interrupted hstarted) (fun _ => droppable_interrupted hstarted) fun ok => ?_
        cases ok with
        | true => exact rfl
        | false =>
          exact failStream_respects (by decide) (justified_canceled trivial streamStatus_inRange)
      | some terminal =>
        refine interruptible_bind_respects (interruptible_finishTerminal_respects
          (finalStatus_ne_internalError _) (justified_terminal streamStatus_inRange)
          (justified_upstreamError (fun _ h => by cases h) streamStatus_inRange))
          (fun _ hv => hv.1.droppable) (fun _ hv => hv.1.droppable) fun v ok hv => ?_
        obtain ⟨hclosed, hbooked⟩ := hv
        cases ok with
        | true =>
          obtain ⟨hunspoiled, htold, hclosure⟩ := hbooked rfl
          refine ⟨hclosed, fun terminal' hterminal _ => ?_⟩
          cases hterminal
          exact ⟨hunspoiled, htold, row, _, hclosure, rfl, rfl⟩
        | false => exact hclosed

theorem forwardRound_respects (isHttpDate : String → Bool)
    (hstarted : ∀ status ∈ started, 100 ≤ status ∧ status ≤ 599) :
    Safe (contract .responses) (View.Forwarded row started)
      (interruptible true (forwardRound isHttpDate row.model.rates))
      (.guarding row started .clear) := by
  have hcanceled : ∀ cause : Cause, cause.cancels .responses →
      Safe (contract .responses) (View.Forwarded row started)
        (interruptible true (failStream .canceled)) (.guarding row started cause) :=
    fun cause hcause =>
      failStream_respects (by decide) (justified_canceled hcause streamStatus_inRange)
  refine interruptible_op_respects rfl (by decide) rfl ⟨rfl, row, started, rfl⟩
    (droppable_interrupted hstarted) (fun _ => droppable_interrupted hstarted) fun reply => ?_
  cases reply with
  | shutdown => exact hcanceled _ trivial
  | closed => exact hcanceled _ trivial
  | done next =>
    cases next with
    | broken => exact hcanceled _ ⟨rfl, rfl⟩
    | ended => exact hcanceled _ ⟨rfl, rfl⟩
    | message message =>
      cases message with
      | text frame => exact forwardText_respects isHttpDate frame hstarted
      | pong => exact rfl
      | ping payload =>
        refine interruptible_op_respects rfl (by decide) rfl trivial
          (droppable_interrupted hstarted) (fun _ => droppable_interrupted hstarted) fun ok => ?_
        cases ok with
        | true => exact rfl
        | false =>
          exact failStream_respects (by decide)
            (justified_upstreamError (fun _ h => by cases h) streamStatus_inRange)
      | close | binary | frame =>
        exact failStream_respects (by decide)
          (justified_upstreamError (fun _ h => by cases h) streamStatus_inRange)

/-- **The stream of a turn respects the contract.** -/
theorem forward_respects (isHttpDate : String → Bool) (hv : v.AtLoop .responses (.forward rates)) :
    (forward isHttpDate rates).Respects .responses v := by
  obtain ⟨-, -, row, started, rfl, rfl, hstarted⟩ := hv
  refine (forwardRound_respects isHttpDate hstarted).bind fun v selected hselected => ?_
  cases selected with
  | shutdown => exact endTurn_respects hselected trivial
  | closed => exact endTurn_respects hselected trivial
  | done round =>
    cases round with
    | again =>
      obtain rfl : v = _ := hselected
      exact ⟨rfl, by decide, row, started, rfl, rfl, hstarted⟩
    | finished item =>
      cases item with
      | none => exact endTurn_respects hselected.droppable trivial
      | some item =>
        obtain ⟨hclosed, hsends⟩ := hselected
        refine respects_await ⟨by decide, trivial⟩ (fun _ _ => hclosed.held) (fun _ => rfl)
          fun reserved hreserved => ?_
        have hdroppable : (v.after (.select false .reserve) reserved).Droppable .responses := by
          cases reserved <;> exact View.Closed.droppable ⟨hclosed.held, rfl, hclosed.closed⟩
        cases reserved with
        | shutdown => exact endTurn_respects hdroppable trivial
        | closed => cases hreserved
        | done ok =>
          cases ok with
          | true => exact endTurn_respects hdroppable hsends
          | false => exact endTurn_respects hdroppable trivial

end CodexApi.Delivery
