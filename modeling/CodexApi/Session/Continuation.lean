import CodexApi.Session.Context

/-!
# Two ways to continue a session

A client continues the latest response of a session either by resending its history in front of
the new items, or by naming the response and sending the new items alone. `prepare` merges the
history in the second case, but decides from the request's own items whether the turn has inline
tools (`hasInlineTools`). So the two ways can differ in `tool_choice`: the second one disables
tools that only the history brings. `continuations_agree_iff` says when they do.
-/

namespace CodexApi

/-! ### The two requests -/

/-- What the client sends in full: history and new items. -/
def fullTurn (body : Object) (model : Value) (headers : HeaderMap) (history items : List Value) :
    Turn where
  body := body.insert "input" (.array (history ++ items))
  model
  headers

/-- What the client sends to continue a response: its id and the new items. -/
def deltaTurn (body : Object) (model : Value) (headers : HeaderMap) (responseId : String)
    (items : List Value) : Turn where
  body := (body.insert "input" (.array items)).insert "previous_response_id" (.string responseId)
  model
  headers

/-- What the upstream is sent and what `prepare` returns. -/
def Prepared.outcome (prepared : Prepared) :
    Option Object × Option Object × Option (Except ApiError (List Value × Value)) :=
  (prepared.prewarm, prepared.generation, prepared.result)

/-- What holds of the snapshot of every session: it has a nonempty response id, and only a keyed
session has one. -/
def Session.WellFormed (session : Session) : Prop :=
  ∀ snapshot ∈ session.snapshot, session.keyed = true ∧ snapshot.responseId ≠ ""

/-- `prepare` leaves key and snapshot alone. -/
theorem snapshot_of_prepare {session : Session} {turn : Turn} {replies : PrepareReplies} :
    (session.prepare turn replies).session.keyed = session.keyed ∧
      (session.prepare turn replies).session.snapshot = session.snapshot :=
  ⟨(sameHistory_prepare session turn replies).keyed,
    (sameHistory_prepare session turn replies).snapshot⟩

theorem Session.WellFormed.finishTurn {session : Session} {snapshotBytes : Snapshot → Nat}
    {input : List Value} {parameters : Value} {terminal : StreamEnd} (hsession : session.WellFormed) :
    (session.finishTurn snapshotBytes input parameters terminal).WellFormed := by
  unfold Session.finishTurn
  simp only
  split
  · next responseId output hkeyed hid houtput =>
    rintro snapshot ⟨⟩
    refine ⟨(Bool.and_eq_true _ _ ▸ hkeyed).1, ?_⟩
    simpa using (Option.filter_eq_some_iff.mp hid).2
  · exact hsession

/-- **Every session is well formed.** -/
theorem wellFormed_of_run {snapshotBytes : Snapshot → Nat} {keyed : Bool} {requestKey : String}
    {as : List SessionAction} {w : SessionWorld}
    (h : SessionRun snapshotBytes ⟨.new keyed requestKey, []⟩ as w) : w.session.WellFormed := by
  refine h.invariant (I := fun w => w.session.WellFormed) (fun v a w hv hstep => ?_) ?_
  · subst hstep
    cases a with
    | idle event =>
      simp only [sessionStep]
      unfold Session.idleMessage
      split
      · exact hv
      · exact hv
      · split <;> exact hv
      · exact hv
    | turn turn events =>
      have hprepared : ∀ replies, (v.session.prepare turn replies).session.WellFormed := by
        intro replies
        rw [Session.WellFormed, snapshot_of_prepare.1, snapshot_of_prepare.2]
        exact hv
      simp only [sessionStep, Session.respond]
      cases events.prepare with
      | none => exact hv
      | some replies =>
        simp only [Option.map_some, Option.getD_some, Option.bind_some]
        split
        · exact hprepared replies
        · split <;> exact hprepared replies
        · split
          · exact hprepared replies
          split
          · exact hprepared replies
          split
          · exact hprepared replies
          · exact (hprepared replies).finishTurn
  · rintro snapshot ⟨⟩

section

variable {session : Session} {snapshot : Snapshot} {body : Object} {model : Value}
  {headers : HeaderMap} {items : List Value} {value : Value} {replies : PrepareReplies}

/-! ### The plan of a request by its own items -/

/-- Of a body, only metadata and prompt cache key decide how its headers are routed. -/
theorem routeMetadata_insert_input :
    routeMetadata headers (body.insert "input" value) =
      (routeMetadata headers body).map fun routed => (routed.1, routed.2.insert "input" value) := by
  have hmetadata : clientMetadata (body.insert "input" value) = clientMetadata body := by
    rw [clientMetadata, OrdMap.get_insert_of_ne (by decide), clientMetadata]
  have hheaders : codexRequestHeaders headers (body.insert "input" value) =
      codexRequestHeaders headers body :=
    codexRequestHeaders_congr (OrdMap.get_insert_of_ne (by decide))
  rw [routeMetadata, routeMetadata, hmetadata, hheaders]
  cases clientMetadata body with
  | error error => rfl
  | ok metadata =>
    simp only [ok_bind]
    cases moveHeaders metadataHeaderNames (codexRequestHeaders headers body, metadata) with
    | error error => rfl
    | ok routed =>
      simp only [ok_bind, pure, Except.pure, Except.map]
      rw [OrdMap.insert_comm (by decide)]

/-- Routing metadata sets the client metadata of the body. -/
theorem routeMetadata_eq_ok {routed : UpstreamHeaders × Object}
    (h : routeMetadata headers body = .ok routed) :
    ∃ metadata, routed.2 = body.insert "client_metadata" metadata := by
  obtain ⟨metadata, -, h⟩ := bind_eq_ok.mp h
  obtain ⟨⟨headers', metadata'⟩, -, h⟩ := bind_eq_ok.mp h
  cases h
  exact ⟨metadata', rfl⟩

/-- The body that is sent upstream, apart from its input: metadata routed, tools and instructions
taken out, fields normalized. -/
def sentBody (routed : Object) (requestKey : String) (disableTools : Bool) : Object :=
  normalizeResponsesLiteFields ((routed.erase "tools").erase "instructions") requestKey disableTools

/-- The prewarm input of a routed body. -/
def routedPrewarmInput (routed : Object) (baseInstructions : String) : Value :=
  .array (prewarmInput ((requestTools routed).getD routeMarkerTools) baseInstructions
    ((routed.get "instructions").bind Value.asStr))

/-- A body with an input is split as the body without it, except that its own items decide
whether tools are disabled. -/
theorem responsesLitePrewarm_insert_input {requestKey baseInstructions : String}
    (hbase : (model.get "base_instructions").bind Value.asStr = some baseInstructions) :
    responsesLitePrewarm (body.insert "input" (.array items)) model requestKey =
      let disableTools := (requestTools body).isNone && !hasInlineTools (some (.array items))
      .ok ((sentBody body requestKey disableTools).insert "input" (.array items),
        (((sentBody body requestKey disableTools).insert "input"
          (routedPrewarmInput body baseInstructions)).insert "generate" (.bool false)).insert
            "tool_choice" (.string "auto")) := by
  have htools : requestTools (body.insert "input" (.array items)) = requestTools body := by
    rw [requestTools, OrdMap.get_insert_of_ne (by decide), requestTools]
  refine responsesLitePrewarm_eq_ok.mpr ⟨baseInstructions, hbase, ?_, ?_⟩
  · rw [htools, OrdMap.get_insert_self, OrdMap.erase_insert_comm (by decide),
      OrdMap.erase_insert_comm (by decide), normalize_insert (by decide), sentBody]
  · rw [htools, OrdMap.get_insert_of_ne (by decide), OrdMap.insert_insert_self,
      routedPrewarmInput]

/-- The plan of a turn once its full input is known; `own` are the items of its body. -/
def Session.planOf (session : Session) (body : Object) (model : Value) (headers : HeaderMap)
    (input own : List Value) : Except ApiError Plan :=
  match routeMetadata headers body, (model.get "base_instructions").bind Value.asStr with
  | .error error, _ => .error error
  | .ok _, none => .error (.gateway "Failed to prepare the upstream Responses session")
  | .ok (headers, routed), some baseInstructions =>
    let sent := sentBody routed session.requestKey
      ((requestTools routed).isNone && !hasInlineTools (some (.array own)))
    .ok {
      input
      headers
      body := sent.insert "input" (.array own)
      prewarm := ((sent.insert "input" (routedPrewarmInput routed baseInstructions)).insert
        "generate" (.bool false)).insert "tool_choice" (.string "auto")
      parameters := .array [Object.toValue ((sent.erase "input").erase "client_metadata"),
        routedPrewarmInput routed baseInstructions] }

/-- The part of `plan` after the full input. -/
theorem plan_tail_eq_planOf {input own : List Value} :
    (do
      let (headers, body) ← routeMetadata headers (body.insert "input" (.array own))
      let (body, prewarm) ← (responsesLitePrewarm body model session.requestKey).mapError
        fun _ => .gateway "Failed to prepare the upstream Responses session"
      return { input, headers, body, prewarm, parameters := planParameters body prewarm } :
        Except ApiError Plan) = session.planOf body model headers input own := by
  rw [routeMetadata_insert_input, Session.planOf]
  cases hroute : routeMetadata headers body with
  | error error => rfl
  | ok routed =>
    obtain ⟨headers', routed⟩ := routed
    simp only [Except.map, ok_bind]
    cases hbase : (model.get "base_instructions").bind Value.asStr with
    | none =>
      have hfails : responsesLitePrewarm (routed.insert "input" (.array own)) model
          session.requestKey = .error .request := by
        simp [responsesLitePrewarm, hbase, throw, throwThe, MonadExceptOf.throw]
      rw [hfails]
      rfl
    | some baseInstructions =>
      rw [responsesLitePrewarm_insert_input hbase]
      simp only [Except.mapError, ok_bind, planParameters, OrdMap.erase_insert_self, pure,
        Except.pure]
      rw [OrdMap.get_insert_of_ne (by decide), OrdMap.get_insert_of_ne (by decide),
        OrdMap.get_insert_self, Option.getD_some]

/-- The request in full is planned by all its items. -/
theorem plan_fullTurn (hid : body.get "previous_response_id" = none) {history : List Value} :
    session.plan (fullTurn body model headers history items) =
      session.planOf body model headers (history ++ items) (history ++ items) := by
  have hprevious : (fullTurn body model headers history items).body.get "previous_response_id" =
      none := by
    rw [fullTurn, OrdMap.get_insert_of_ne (by decide), hid]
  rw [Session.plan, previousResponseId, hprevious, inputItems]
  simp only [fullTurn, OrdMap.get_insert_self, ok_bind, Session.fullInput]
  rw [OrdMap.erase_insert_comm (by decide), OrdMap.erase_eq_self hid]
  exact plan_tail_eq_planOf

/-- The continuation is planned by its new items. -/
theorem plan_deltaTurn (hid : body.get "previous_response_id" = none)
    (hsession : session.WellFormed) (hsnapshot : session.snapshot = some snapshot) :
    session.plan (deltaTurn body model headers snapshot.responseId items) =
      session.planOf body model headers (snapshot.input ++ items) items := by
  obtain ⟨hkeyed, hnonempty⟩ := hsession snapshot hsnapshot
  rw [Session.plan, previousResponseId]
  simp only [deltaTurn, OrdMap.get_insert_self, if_pos hnonempty, ok_bind, inputItems]
  rw [OrdMap.get_insert_of_ne (by decide), OrdMap.get_insert_self]
  simp only [ok_bind, Session.fullInput, hkeyed, Bool.not_true, Bool.false_eq_true, if_false,
    hsnapshot, Option.filter_some, decide_true, if_true]
  rw [OrdMap.erase_insert_self, OrdMap.erase_insert_comm (by decide), OrdMap.erase_eq_self hid]
  exact plan_tail_eq_planOf

/-! ### When the two plans agree -/

/-- Of a body, only what the request overrides can differ: the input. -/
theorem carryOut_congr {plan plan' : Plan} (hinput : plan.input = plan'.input)
    (hheaders : plan.headers = plan'.headers) (hprewarm : plan.prewarm = plan'.prewarm)
    (hparameters : plan.parameters = plan'.parameters)
    (hbody : plan.body.erase "input" = plan'.body.erase "input") :
    session.carryOut plan replies = session.carryOut plan' replies := by
  obtain ⟨input, headers, body, prewarm, parameters⟩ := plan
  obtain ⟨input', headers', body', prewarm', parameters'⟩ := plan'
  subst hinput hheaders hprewarm hparameters
  have hframe : ∀ (id : Value) (own : Value),
      (body.insert "previous_response_id" id).insert "input" own =
        (body'.insert "previous_response_id" id).insert "input" own := by
    intro id own
    rw [OrdMap.insert_comm (by decide), OrdMap.insert_congr hbody, OrdMap.insert_comm (by decide)]
  have hsend : ∀ (session : Session) opened prewarm' warmed id own sent,
      session.sendGeneration opened prewarm' warmed ⟨input, headers, body, prewarm, parameters⟩ id
          own sent =
        session.sendGeneration opened prewarm' warmed ⟨input, headers, body', prewarm, parameters⟩
          id own sent := by
    intro session opened prewarm' warmed id own sent
    simp only [Session.sendGeneration, hframe]
  have hturn : ∀ (session : Session) opened,
      session.sendTurn opened ⟨input, headers, body, prewarm, parameters⟩ replies =
        session.sendTurn opened ⟨input, headers, body', prewarm, parameters⟩ replies := by
    intro session opened
    simp only [Session.sendTurn, hsend]
    rfl
  simp only [Session.carryOut, hturn]
  rfl

/-- Disabling the tools changes a body unless it already chooses none. -/
theorem sentBody_of_toolChoice {requestKey : String}
    (hchoice : body.get "tool_choice" = some (.string "none")) :
    sentBody body requestKey true = sentBody body requestKey false := by
  rw [sentBody, normalize_disabled, sentBody]
  refine OrdMap.insert_eq_self ?_
  rw [toolChoice_of_normalize, OrdMap.get_erase_of_ne (by decide),
    OrdMap.get_erase_of_ne (by decide), hchoice]

/-- The tool choice of a sent body. -/
theorem toolChoice_of_sentBody {requestKey : String} (disableTools : Bool) :
    (sentBody body requestKey disableTools).get "tool_choice" =
      if disableTools then some (.string "none") else body.get "tool_choice" := by
  cases disableTools with
  | false =>
    rw [sentBody, toolChoice_of_normalize, OrdMap.get_erase_of_ne (by decide),
      OrdMap.get_erase_of_ne (by decide)]
    rfl
  | true =>
    rw [sentBody, normalize_disabled, OrdMap.get_insert_self]
    rfl

/-- Only the history has inline tools, nothing else enables tools, the request chooses some,
and no check stops the turn before it is normalized. -/
def LosesHistoryTools (snapshot : Snapshot) (body : Object) (model : Value) (headers : HeaderMap)
    (items : List Value) : Prop :=
  hasInlineTools (some (.array snapshot.input)) = true ∧
    hasInlineTools (some (.array items)) = false ∧ requestTools body = none ∧
    body.get "tool_choice" ≠ some (.string "none") ∧
    (∃ routed, routeMetadata headers body = .ok routed) ∧
    ∃ baseInstructions, (model.get "base_instructions").bind Value.asStr = some baseInstructions

theorem hasInlineTools_append (history items : List Value) :
    hasInlineTools (some (.array (history ++ items))) =
      (hasInlineTools (some (.array history)) || hasInlineTools (some (.array items))) := by
  simp [hasInlineTools, Value.asArray]

/-- Unless tools are lost, both plans send one body. -/
theorem sentBody_eq (hagree : ¬ LosesHistoryTools snapshot body model headers items)
    {routed : UpstreamHeaders × Object} (hroute : routeMetadata headers body = .ok routed)
    {baseInstructions : String}
    (hbase : (model.get "base_instructions").bind Value.asStr = some baseInstructions) :
    sentBody routed.2 session.requestKey ((requestTools routed.2).isNone &&
        !hasInlineTools (some (.array (snapshot.input ++ items)))) =
      sentBody routed.2 session.requestKey ((requestTools routed.2).isNone &&
        !hasInlineTools (some (.array items))) := by
  obtain ⟨metadata, hrouted⟩ := routeMetadata_eq_ok hroute
  have htools : requestTools routed.2 = requestTools body := by
    rw [hrouted, requestTools, OrdMap.get_insert_of_ne (by decide), requestTools]
  rw [hasInlineTools_append, htools]
  by_cases hchoice : body.get "tool_choice" = some (.string "none")
  · have hsame : ∀ disableTools, sentBody routed.2 session.requestKey disableTools =
        sentBody routed.2 session.requestKey false := by
      intro disableTools
      cases disableTools with
      | false => rfl
      | true =>
        refine sentBody_of_toolChoice ?_
        rw [hrouted, OrdMap.get_insert_of_ne (by decide), hchoice]
    rw [hsame, hsame ((requestTools body).isNone && _)]
  · cases htools' : requestTools body with
    | some tools => rfl
    | none =>
      cases hhistory : hasInlineTools (some (.array snapshot.input)) with
      | false => rfl
      | true =>
        cases hitems : hasInlineTools (some (.array items)) with
        | true => rfl
        | false =>
          exact absurd ⟨hhistory, hitems, htools', hchoice, ⟨routed, hroute⟩, _, hbase⟩ hagree

/-- A prompt upstream lets a planned turn through. -/
theorem result_of_promptReplies (plan : Plan) :
    (session.carryOut plan promptReplies).result = some (.ok (plan.input, plan.parameters)) := by
  have hsend : ∀ (session : Session) opened,
      (session.sendTurn opened plan promptReplies).result =
        some (.ok (plan.input, plan.parameters)) := by
    intro session opened
    unfold Session.sendTurn
    split
    · rfl
    · have hwarm : sendResponsesPrewarm promptReplies.prewarmSent promptReplies.prewarmEvents =
          some (.ok "warm") := by
        decide
      rw [hwarm]
      rfl
  unfold Session.carryOut
  split
  · exact hsend _ _
  · exact hsend _ _

end

/-- **When the two ways to continue a session agree.** In every state that a session reaches with a
snapshot, and for every body without input and previous response id, the full resend and the
continuation send the same frames and return the same result, whatever the upstream replies, if
and only if the continuation does not lose tools that only the history brings. -/
theorem continuations_agree_iff {snapshotBytes : Snapshot → Nat} {keyed : Bool}
    {requestKey : String} {as : List SessionAction} {w : SessionWorld}
    (h : SessionRun snapshotBytes ⟨.new keyed requestKey, []⟩ as w) (snapshot : Snapshot)
    (hsnapshot : w.session.snapshot = some snapshot) (body : Object) (model : Value)
    (headers : HeaderMap) (items : List Value) (hid : body.get "previous_response_id" = none) :
    (∀ replies : PrepareReplies,
      (w.session.prepare (fullTurn body model headers snapshot.input items) replies).outcome =
        (w.session.prepare (deltaTurn body model headers snapshot.responseId items)
          replies).outcome) ↔
      ¬ LosesHistoryTools snapshot body model headers items := by
  have hfull : w.session.plan (fullTurn body model headers snapshot.input items) =
      w.session.planOf body model headers (snapshot.input ++ items) (snapshot.input ++ items) :=
    plan_fullTurn hid
  have hdelta : w.session.plan (deltaTurn body model headers snapshot.responseId items) =
      w.session.planOf body model headers (snapshot.input ++ items) items :=
    plan_deltaTurn hid (wellFormed_of_run h) hsnapshot
  constructor
  · rintro hagree ⟨hhistory, hitems, htools, hchoice, ⟨routed, hroute⟩, baseInstructions, hbase⟩
    have hresult := congrArg (·.2.2) (hagree promptReplies)
    obtain ⟨metadata, hrouted⟩ := routeMetadata_eq_ok hroute
    have htools' : requestTools routed.2 = none := by
      rw [hrouted, requestTools, OrdMap.get_insert_of_ne (by decide)]
      exact htools
    -- With a prompt upstream, both return their parameters, which differ in the tool choice.
    simp only [Prepared.outcome, Session.prepare, hfull, hdelta, Session.planOf, hroute, hbase,
      result_of_promptReplies, Option.some.injEq, Except.ok.injEq, Prod.mk.injEq, true_and,
      Value.array.injEq, List.cons.injEq, Object.toValue_inj, and_true] at hresult
    have hget := congrArg (fun object : Object => object.get "tool_choice") hresult
    simp only [OrdMap.get_erase_of_ne (show "tool_choice" ≠ "client_metadata" by decide),
      OrdMap.get_erase_of_ne (show "tool_choice" ≠ "input" by decide), toolChoice_of_sentBody,
      htools', hasInlineTools_append, hhistory, hitems, Option.isNone_none, Bool.or_false,
      Bool.not_true, Bool.and_false, Bool.not_false, Bool.and_true, Bool.false_eq_true, if_false,
      if_true] at hget
    rw [hrouted, OrdMap.get_insert_of_ne (by decide)] at hget
    exact hchoice hget
  · intro hagree replies
    rw [Session.prepare, Session.prepare, hfull, hdelta, Session.planOf, Session.planOf]
    cases hroute : routeMetadata headers body with
    | error error => rfl
    | ok routed =>
      cases hbase : (model.get "base_instructions").bind Value.asStr with
      | none => rfl
      | some baseInstructions =>
        have hsent : sentBody routed.2 w.session.requestKey ((requestTools routed.2).isNone &&
              !hasInlineTools (some (.array (snapshot.input ++ items)))) =
            sentBody routed.2 w.session.requestKey ((requestTools routed.2).isNone &&
              !hasInlineTools (some (.array items))) :=
          sentBody_eq hagree hroute hbase
        simp only [hsent]
        exact congrArg Prepared.outcome (carryOut_congr rfl rfl rfl rfl
          (by rw [OrdMap.erase_insert_self, OrdMap.erase_insert_self]))

/-- The parameters that the first turn ran with. -/
def firstParameters : Value :=
  (afterFirstTurn.session.snapshot.map (·.parameters)).getD .null

/-- A turn without inline tools can be continued either way. -/
theorem continuations_agree_iff_plain_turn :
    afterFirstTurn.session.snapshot =
      some ⟨"r", [.string "first", .string "answer"], firstParameters⟩ ∧
    ∀ replies : PrepareReplies,
      (afterFirstTurn.session.prepare (fullTurn .empty (exampleTurn "" []).model []
          [.string "first", .string "answer"] [.string "second"]) replies).outcome =
        (afterFirstTurn.session.prepare (deltaTurn .empty (exampleTurn "" []).model [] "r"
          [.string "second"]) replies).outcome := by
  have hsnapshot : afterFirstTurn.session.snapshot =
      some ⟨"r", [.string "first", .string "answer"], firstParameters⟩ := by
    decide
  have hrun : SessionRun (fun _ => 0) ⟨.new true "key", []⟩
      [.turn (exampleTurn "first" []) (completedTurn "r")] afterFirstTurn := .single rfl
  refine ⟨hsnapshot, (continuations_agree_iff hrun _ hsnapshot .empty _ _ _ rfl).mpr ?_⟩
  rintro ⟨hhistory, -⟩
  revert hhistory
  decide

/-- A history item that brings a tool. -/
def toolsItem : Value :=
  json [("type", .string "additional_tools"), ("tools", .array [json [("name", .string "tool")]])]

/-- The session after a first turn with inline tools. -/
def afterToolsTurn : SessionWorld :=
  sessionStep (fun _ => 0) ⟨.new true "key", []⟩
    (.turn { exampleTurn "" [] with body := .ofList [("input", .array [toolsItem])] }
      (completedTurn "r"))

/-- **The two ways can differ.** After a turn with inline tools, the full resend keeps the tools
and the continuation disables them. -/
theorem continuations_disagree_after_tools_turn :
    afterToolsTurn.session.snapshot.map (fun snapshot => (snapshot.responseId, snapshot.input)) =
        some ("r", [toolsItem, .string "answer"]) ∧
      ¬ ∀ replies : PrepareReplies,
        (afterToolsTurn.session.prepare (fullTurn .empty (exampleTurn "" []).model []
            [toolsItem, .string "answer"] [.string "second"]) replies).outcome =
          (afterToolsTurn.session.prepare (deltaTurn .empty (exampleTurn "" []).model [] "r"
            [.string "second"]) replies).outcome :=
  ⟨by decide, fun hagree => absurd (hagree promptReplies) (by decide)⟩

end CodexApi
