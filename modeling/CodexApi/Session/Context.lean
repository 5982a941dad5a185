import CodexApi.Session.Prepare
import CodexApi.Lib.Transition

/-!
# Incremental context equals full resend

The upstream remembers a context for every response id it gave out on a socket: the input of a
prewarm, and for a completed response the context it continued, its own input and its output.
`Remote` is this memory. It starts empty with every socket.

A generating request denotes the context of the response it continues followed by its own input
(`denotes`). The plain path denotes the prewarm of the turn and its full logical input. The two
agree in every run of a session, because a snapshot that a turn may continue from describes the
context remembered under its response id (`Described`).
-/

namespace CodexApi

open Transition

/-! ### The memory of the upstream -/

/-- Contexts by response id, latest first. -/
abbrev Remote := List (String × List Value)

/-- The items of an `input` field. -/
def frameInput (frame : Object) : List Value :=
  ((frame.get "input").bind Value.asArray).getD []

/-- The response a request continues. -/
def framePrevious (frame : Object) : Option String :=
  (frame.get "previous_response_id").bind Value.asStr

/-- The context that a generating request denotes: that of the response it continues, then its
own input. -/
def Remote.denotes (remote : Remote) (frame : Object) : Option (List Value) :=
  (framePrevious frame).bind fun id => (remote.lookup id).map (· ++ frameInput frame)

/-- The memory when `prepare` has come as far as it did. -/
def Remote.afterPrepare (remote : Remote) (prepared : Prepared) : Remote :=
  let remote := if prepared.opened then [] else remote
  match prepared.prewarm, prepared.warmed with
  | some prewarm, some id => (id, frameInput prewarm) :: remote
  | _, _ => remote

/-- The memory after a stream: a completed response has the context of its request and its
output. -/
def Remote.afterStream (remote : Remote) (prepared : Prepared) (stream : Option StreamEnd) :
    Remote :=
  match prepared.generation, stream with
  | some frame, some terminal =>
    match remote.denotes frame, (terminal.payload.pointer ["response", "id"]).bind Value.asStr with
    | some context, some id =>
      (id, context ++
        ((terminal.payload.pointer ["response", "output"]).bind Value.asArray).getD []) :: remote
    | _, _ => remote
  | _, _ => remote

/-! ### Runs of a session -/

/-- A session and the memory of the upstream behind its socket. -/
structure SessionWorld where
  session : Session
  remote : Remote

/-- What a session does between its creation and its end. -/
inductive SessionAction
  | idle (event : UpstreamEvent)
  | turn (turn : Turn) (events : TurnEvents)

/-- One action of a session. -/
def sessionStep (snapshotBytes : Snapshot → Nat) (w : SessionWorld) : SessionAction → SessionWorld
  | .idle event => { w with session := w.session.idleMessage event }
  | .turn turn events =>
    { session := (w.session.respond snapshotBytes turn events).1
      remote :=
        match events.prepare with
        | none => w.remote
        | some replies =>
          let prepared := w.session.prepare turn replies
          (w.remote.afterPrepare prepared).afterStream prepared events.stream }

/-- The runs of a session. -/
abbrev SessionRun (snapshotBytes : Snapshot → Nat) :=
  Run fun w a w' => sessionStep snapshotBytes w a = w'

/-- The logical input of a turn: the snapshot history, when it continues a response, and its own
items. -/
def Session.logicalInput (session : Session) (turn : Turn) : List Value :=
  let items := frameInput turn.body
  match framePrevious turn.body with
  | some _ => ((session.snapshot.map (·.input)).getD []) ++ items
  | none => items

/-- The prewarm that `responses_lite_prewarm` builds for a turn. -/
def Session.turnPrewarm (session : Session) (turn : Turn) : Option Object :=
  (session.plan turn).toOption.map (·.prewarm)

/-- The context of the plain path, which opens a fresh context for every turn and sends
everything. -/
def Session.plainContext (session : Session) (turn : Turn) : Option (List Value) :=
  (session.turnPrewarm turn).map fun prewarm => frameInput prewarm ++ session.logicalInput turn

/-! ### What `plan` computes -/

variable {session : Session} {turn : Turn} {plan : Plan} {replies : PrepareReplies}
  {remote : Remote} {frame : Object} {snapshotBytes : Snapshot → Nat}

/-- The items and the previous id that a plan is made of. -/
theorem plan_eq_ok (h : session.plan turn = .ok plan) :
    ∃ previousId input body, previousResponseId turn.body = .ok previousId ∧
      inputItems turn.body = .ok input ∧ session.fullInput previousId input = .ok plan.input ∧
      routeMetadata turn.headers (turn.body.erase "previous_response_id") =
        .ok (plan.headers, body) ∧
      responsesLitePrewarm body turn.model session.requestKey = .ok (plan.body, plan.prewarm) ∧
      plan.parameters = planParameters plan.body plan.prewarm := by
  simp only [Session.plan, bind_eq_ok] at h
  obtain ⟨previousId, hprevious, input, hinput, full, hfull, ⟨headers, body⟩, hmetadata,
    ⟨body', prewarm⟩, hprewarm, h⟩ := h
  cases h
  refine ⟨previousId, input, body, hprevious, hinput, hfull, hmetadata, ?_, rfl⟩
  cases hresult : responsesLitePrewarm body turn.model session.requestKey with
  | error error =>
    rw [hresult] at hprewarm
    cases hprewarm
  | ok result =>
    rw [hresult] at hprewarm
    cases hprewarm
    rfl

/-- The input of a plan is the logical input of its turn. -/
theorem input_of_plan (h : session.plan turn = .ok plan) :
    plan.input = session.logicalInput turn := by
  obtain ⟨previousId, input, body, hprevious, hinput, hfull, -⟩ := plan_eq_ok h
  have hitems : frameInput turn.body = input := by
    unfold inputItems at hinput
    unfold frameInput
    split at hinput
    · simp_all
    · simp_all [Value.asArray]
    · cases hinput
  have hid : framePrevious turn.body = previousId := by
    unfold previousResponseId at hprevious
    unfold framePrevious
    split at hprevious
    · simp_all
    · simp_all [Value.asStr]
    · split_ifs at hprevious
      simp_all [Value.asStr]
    · cases hprevious
  unfold Session.logicalInput
  rw [hitems, hid]
  cases previousId with
  | none => exact (Except.ok.inj hfull).symm
  | some id =>
    simp only [Session.fullInput] at hfull
    split_ifs at hfull
    split at hfull
    · cases hfull
    · next snapshot hsnapshot =>
      have hsome : session.snapshot = some snapshot := Option.eq_some_of_filter_eq_some hsnapshot
      rw [← Except.ok.inj hfull]
      simp [hsome]

/-- The prewarm of a plan has an input, which is part of the parameters. -/
theorem prewarm_of_plan (h : session.plan turn = .ok plan) :
    ∃ base properties, plan.prewarm.get "input" = some (.array base) ∧
      plan.parameters = .array [properties, .array base] := by
  obtain ⟨-, -, body, -, -, -, -, hprewarm, hparameters⟩ := plan_eq_ok h
  obtain ⟨baseInstructions, -, -, hprewarm⟩ := responsesLitePrewarm_eq_ok.mp hprewarm
  have hinput : plan.prewarm.get "input" = some (.array (prewarmInput
      ((requestTools body).getD routeMarkerTools) baseInstructions
      ((body.get "instructions").bind Value.asStr))) := by
    rw [hprewarm, OrdMap.get_insert_of_ne (by decide), OrdMap.get_insert_of_ne (by decide),
      OrdMap.get_insert_self]
  refine ⟨_, Object.toValue ((plan.body.erase "input").erase "client_metadata"), hinput, ?_⟩
  rw [hparameters, planParameters, hinput]
  rfl

/-- The plain context of a planned turn. -/
theorem plainContext_of_plan {base : List Value} (h : session.plan turn = .ok plan)
    (hbase : plan.prewarm.get "input" = some (.array base)) :
    session.plainContext turn = some (base ++ plan.input) := by
  rw [Session.plainContext, Session.turnPrewarm, h, input_of_plan h]
  simp [Except.toOption, frameInput, hbase, Value.asArray]

/-! ### The invariant -/

/-- The snapshot that a turn may continue from describes what the upstream remembers: the context
of its response is the prewarm input it ran with and its history. -/
def Described (w : SessionWorld) : Prop :=
  ∀ snapshot, w.session.upstream = true → w.session.snapshot = some snapshot →
    w.session.upstreamResponseId = some snapshot.responseId →
      ∃ base properties, snapshot.parameters = .array [properties, .array base] ∧
        w.remote.lookup snapshot.responseId = some (base ++ snapshot.input)

/-- Without a socket there is nothing to describe. -/
theorem described_disconnect (session : Session) (remote : Remote) :
    Described ⟨session.disconnect, remote⟩ := by
  intro snapshot hupstream
  cases hupstream

@[simp]
theorem frameInput_generation {body : Object} {id : String} {input : List Value} :
    frameInput ((body.insert "previous_response_id" (.string id)).insert "input" (.array input)) =
      input := by
  simp [frameInput, Value.asArray]

@[simp]
theorem framePrevious_generation {body : Object} {id : String} {input : List Value} :
    framePrevious ((body.insert "previous_response_id" (.string id)).insert "input"
      (.array input)) = some id := by
  rw [framePrevious, OrdMap.get_insert_of_ne (by decide), OrdMap.get_insert_self]
  rfl

theorem afterPrepare_incremental {opened : Bool} {id : String} {input : List Value}
    {sent : Option Bool} :
    remote.afterPrepare (session.sendGeneration opened none none plan id input sent) =
      if opened then [] else remote := rfl

theorem afterPrepare_prewarmed {opened : Bool} {prewarm : Object} {id : String}
    {input : List Value} {sent : Option Bool} :
    remote.afterPrepare (session.sendGeneration opened (some prewarm) (some id) plan id input sent) =
      (id, frameInput prewarm) :: if opened then [] else remote := rfl

/-- The frame of `sendTurn` denotes the prewarm input and the full input of the plan. -/
theorem denotes_of_sendTurn {base : List Value} {properties : Value} {opened : Bool}
    (hbase : plan.prewarm.get "input" = some (.array base))
    (hparameters : plan.parameters = .array [properties, .array base])
    (hdescribed : Described ⟨session, if opened then [] else remote⟩)
    (hupstream : session.upstream = true)
    (hframe : (session.sendTurn opened plan replies).generation = some frame) :
    (remote.afterPrepare (session.sendTurn opened plan replies)).denotes frame =
      some (base ++ plan.input) := by
  unfold Session.sendTurn at hframe ⊢
  split at hframe
  · next snapshot hincremental =>
    -- Only the new items are sent; the snapshot describes the rest.
    cases hframe
    obtain ⟨hsnapshot, hmatch⟩ := Option.filter_eq_some_iff.mp hincremental
    obtain ⟨hid, hsame, hprefix⟩ := of_decide_eq_true hmatch
    obtain ⟨base', properties', hparameters', hlookup⟩ :=
      hdescribed snapshot hupstream hsnapshot hid
    obtain ⟨-, rfl⟩ : properties' = properties ∧ base' = base := by
      rw [hparameters', hparameters] at hsame
      simpa using hsame
    have hsplit : snapshot.input ++ plan.input.drop snapshot.input.length = plan.input :=
      List.prefix_iff_eq_append.mp (List.isPrefixOf_iff_prefix.mp hprefix)
    rw [afterPrepare_incremental, Remote.denotes, framePrevious_generation, Option.bind_some,
      frameInput_generation, hlookup, Option.map_some, List.append_assoc, hsplit]
  · next hincremental =>
    split at hframe
    · cases hframe
    · cases hframe
    · next responseId hwarmed =>
      cases hframe
      have hprewarm : frameInput (plan.prewarm.erase "previous_response_id") = base := by
        rw [frameInput, OrdMap.get_erase_of_ne (by decide), hbase]
        rfl
      rw [afterPrepare_prewarmed, Remote.denotes, framePrevious_generation, Option.bind_some,
        frameInput_generation, List.lookup_cons_self, Option.map_some, hprewarm]

/-- **A generating request denotes the plain context.** -/
theorem denotes_of_prepare (hdescribed : Described ⟨session, remote⟩)
    (hframe : (session.prepare turn replies).generation = some frame) :
    (∃ context, session.plainContext turn = some context) ∧
    (remote.afterPrepare (session.prepare turn replies)).denotes frame =
      session.plainContext turn := by
  unfold Session.prepare at hframe ⊢
  split at hframe
  · cases hframe
  · next plan hplan =>
    obtain ⟨base, properties, hbase, hparameters⟩ := prewarm_of_plan hplan
    rw [plainContext_of_plan hplan hbase]
    refine ⟨⟨_, rfl⟩, ?_⟩
    unfold Session.carryOut at hframe ⊢
    split at hframe
    · next hreused =>
      have hupstream : session.upstream = true := (Bool.and_eq_true _ _ ▸ hreused).1
      rw [if_pos hreused]
      exact denotes_of_sendTurn hbase hparameters hdescribed hupstream hframe
    · next hreused =>
      split at hframe
      · cases hframe
      · cases hframe
      · rw [if_neg hreused]
        refine denotes_of_sendTurn hbase hparameters ?_ rfl hframe
        rintro snapshot - - ⟨⟩

/-! ### Every turn keeps the invariant -/

/-- Once the plan is made, an error is an error of the upstream. -/
theorem status_of_carryOut {error : ApiError}
    (h : (session.carryOut plan replies).result = some (.error error)) : error.status = 502 := by
  have hsend : ∀ (session : Session) (opened : Bool),
      (session.sendTurn opened plan replies).result = some (.error error) → error.status = 502 := by
    intro session opened h
    have hgeneration : ∀ (session : Session) prewarm warmed id input,
        (session.sendGeneration opened prewarm warmed plan id input replies.generationSent).result =
          some (.error error) → error.status = 502 := by
      intro session prewarm warmed id input h
      simp only [Session.sendGeneration] at h
      split at h
      · cases h
      · cases h
      · cases h
        rfl
    unfold Session.sendTurn at h
    split at h
    · exact hgeneration _ _ _ _ _ h
    · split at h
      · cases h
      · cases h
        rfl
      · exact hgeneration _ _ _ _ _ h
  unfold Session.carryOut at h
  split at h
  · exact hsend _ _ h
  · split at h
    · cases h
    · cases h
      rfl
    · exact hsend _ _ h

/-- A bad request is found before the upstream is told anything. -/
theorem prepare_of_badRequest {error : ApiError}
    (h : (session.prepare turn replies).result = some (.error error))
    (hstatus : error.status = 400) :
    session.prepare turn replies =
      ⟨session, false, none, none, none, some (.error error)⟩ := by
  unfold Session.prepare at h ⊢
  split at h
  · cases h
    rfl
  · rw [status_of_carryOut h] at hstatus
    cases hstatus

/-- A result of `prepare` comes with the plan and the request sent for it. -/
theorem generation_of_prepare {input : List Value} {parameters : Value}
    (h : (session.prepare turn replies).result = some (.ok (input, parameters))) :
    ∃ plan frame, session.plan turn = .ok plan ∧ input = plan.input ∧
      parameters = plan.parameters ∧ (session.prepare turn replies).generation = some frame := by
  have hgeneration : ∀ (session : Session) opened prewarm warmed (plan : Plan) id items,
      (session.sendGeneration opened prewarm warmed plan id items replies.generationSent).result =
          some (.ok (input, parameters)) →
        input = plan.input ∧ parameters = plan.parameters := by
    intro session opened prewarm warmed plan id items h
    simp only [Session.sendGeneration] at h
    split at h <;> simp_all
  have hsend : ∀ (session : Session) opened (plan : Plan),
      (session.sendTurn opened plan replies).result = some (.ok (input, parameters)) →
        ∃ frame, input = plan.input ∧ parameters = plan.parameters ∧
          (session.sendTurn opened plan replies).generation = some frame := by
    intro session opened plan h
    unfold Session.sendTurn at h ⊢
    split at h
    · obtain ⟨hinput, hparameters⟩ := hgeneration _ _ _ _ _ _ _ h
      exact ⟨_, hinput, hparameters, rfl⟩
    · split at h
      · cases h
      · cases h
      · obtain ⟨hinput, hparameters⟩ := hgeneration _ _ _ _ _ _ _ h
        exact ⟨_, hinput, hparameters, rfl⟩
  unfold Session.prepare at h ⊢
  split at h
  · cases h
  · next plan hplan =>
    refine ⟨plan, ?_⟩
    unfold Session.carryOut at h ⊢
    split at h
    · next hreused =>
      obtain ⟨frame, hinput, hparameters, hframe⟩ := hsend _ _ _ h
      rw [if_pos hreused]
      exact ⟨frame, hplan, hinput, hparameters, hframe⟩
    · next hreused =>
      split at h
      · cases h
      · cases h
      · obtain ⟨frame, hinput, hparameters, hframe⟩ := hsend _ _ _ h
        rw [if_neg hreused]
        exact ⟨frame, hplan, hinput, hparameters, hframe⟩

/-- A completed turn leaves a snapshot that describes the context of its response. -/
theorem described_finishTurn {prepared : Prepared} {terminal : StreamEnd} {base input : List Value}
    {properties : Value} (hframe : prepared.generation = some frame)
    (hdenotes : remote.denotes frame = some (base ++ input)) :
    Described ⟨session.finishTurn snapshotBytes input (.array [properties, .array base]) terminal,
      remote.afterStream prepared (some terminal)⟩ := by
  unfold Session.finishTurn
  simp only
  split
  · next responseId output hkeyed hid houtput =>
    rintro snapshot - ⟨⟩ -
    refine ⟨base, properties, rfl, ?_⟩
    have hpayload : (terminal.payload.pointer ["response", "id"]).bind Value.asStr =
        some responseId := Option.eq_some_of_filter_eq_some hid
    simp [Remote.afterStream, hframe, hdenotes, hpayload, houtput]
  · exact described_disconnect _ _

/-- An idle message drops the socket or changes nothing. -/
theorem idleMessage_cases (session : Session) (event : UpstreamEvent) :
    session.idleMessage event = session ∨ session.idleMessage event = session.disconnect := by
  unfold Session.idleMessage
  split
  · exact .inl rfl
  · exact .inl rfl
  · split_ifs
    · exact .inl rfl
    · exact .inr rfl
  · exact .inr rfl

theorem described_step {w w' : SessionWorld} {a : SessionAction} (hw : Described w)
    (h : sessionStep snapshotBytes w a = w') : Described w' := by
  subst h
  cases a with
  | idle event =>
    rcases idleMessage_cases w.session event with hsame | hdropped
    · simpa only [sessionStep, hsame] using hw
    · simp only [sessionStep, hdropped]
      exact described_disconnect _ _
  | turn turn events =>
    cases hprepare : events.prepare with
    | none =>
      simp only [sessionStep, Session.respond, hprepare, Option.map_none, Option.bind_none]
      exact described_disconnect _ _
    | some replies =>
      simp only [sessionStep, Session.respond, hprepare, Option.map_some, Option.bind_some,
        Option.getD_some]
      split
      · exact described_disconnect _ _
      · next error hresult =>
        split_ifs with hstatus
        · rw [prepare_of_badRequest hresult hstatus]
          exact hw
        · exact described_disconnect _ _
      · next input parameters hresult =>
        split
        · exact described_disconnect _ _
        split
        · exact described_disconnect _ _
        · next terminal hstream =>
          split
          · exact described_disconnect _ _
          obtain ⟨plan, frame, hplan, rfl, rfl, hframe⟩ := generation_of_prepare hresult
          obtain ⟨base, properties, hbase, hparameters⟩ := prewarm_of_plan hplan
          have hdescribed : Described ⟨w.session, w.remote⟩ := hw
          have hdenotes := (denotes_of_prepare hdescribed hframe).2
          rw [plainContext_of_plan hplan hbase] at hdenotes
          rw [hstream, hparameters]
          exact described_finishTurn hframe hdenotes

/-- **Incremental context equals full resend.** In every run of a session, whatever turns,
interruptions, failures and idle messages it is made of, every generating request that a turn
sends denotes, in the memory of the upstream, the prewarm input of this very turn followed by its
full logical input. -/
theorem generation_denotes_plainContext (snapshotBytes : Snapshot → Nat) (requestKey : String)
    {as : List SessionAction} {w : SessionWorld}
    (h : SessionRun snapshotBytes ⟨.new true requestKey, []⟩ as w)
    (turn : Turn) (replies : PrepareReplies) (frame : Object)
    (hframe : (w.session.prepare turn replies).generation = some frame) :
    ∃ prewarm, w.session.turnPrewarm turn = some prewarm ∧
      (w.remote.afterPrepare (w.session.prepare turn replies)).denotes frame =
        some (frameInput prewarm ++ w.session.logicalInput turn) := by
  have hw : Described w := by
    refine h.invariant (fun _ _ _ hw hstep => described_step hw hstep) ?_
    rintro snapshot ⟨⟩
  obtain ⟨⟨context, hcontext⟩, hdenotes⟩ := denotes_of_prepare hw hframe
  rw [hcontext] at hdenotes
  obtain ⟨prewarm, hprewarm, rfl⟩ := Option.map_eq_some_iff.mp hcontext
  exact ⟨prewarm, hprewarm, hdenotes⟩

/-! ### Two turns -/

/-- A turn of one user item on a model with base instructions. -/
def exampleTurn (item : String) (fields : List (String × Value)) : Turn where
  body := .ofList (("input", .array [.string item]) :: fields)
  model := json [("base_instructions", .string "base")]
  headers := [("thread_id", .text "thread")]

/-- An upstream that answers everything. -/
def promptReplies : PrepareReplies where
  connect := some true
  prewarmSent := some true
  prewarmEvents := [.text (some (json [("type", .string "response.completed"),
    ("response", json [("id", .string "warm")])]))]
  generationSent := some true

/-- A turn that runs to a completed response. -/
def completedTurn (responseId : String) : TurnEvents where
  prepare := some promptReplies
  shutdown := false
  replied := true
  stream := some ⟨true, json [("response", json [("id", .string responseId),
    ("output", .array [.string "answer"])])]⟩
  permit := true

/-- The session after a first turn. -/
def afterFirstTurn : SessionWorld :=
  sessionStep (fun _ => 0) ⟨.new true "key", []⟩ (.turn (exampleTurn "first" []) (completedTurn "r"))

/-- The request that a second turn sends. -/
def secondFrame : Object :=
  ((afterFirstTurn.session.prepare
    (exampleTurn "second" [("previous_response_id", .string "r")]) promptReplies).generation).getD
    .empty

/-- The second turn sends its own item only, and denotes the whole conversation. -/
theorem generation_denotes_plainContext_second_turn :
    (framePrevious secondFrame = some "r" ∧ frameInput secondFrame = [.string "second"]) ∧
    ∃ prewarm, afterFirstTurn.session.turnPrewarm
        (exampleTurn "second" [("previous_response_id", .string "r")]) = some prewarm ∧
      (afterFirstTurn.remote.afterPrepare (afterFirstTurn.session.prepare
          (exampleTurn "second" [("previous_response_id", .string "r")]) promptReplies)).denotes
          secondFrame =
        some (frameInput prewarm ++ afterFirstTurn.session.logicalInput
          (exampleTurn "second" [("previous_response_id", .string "r")])) := by
  have hrun : SessionRun (fun _ => 0) ⟨.new true "key", []⟩
      [.turn (exampleTurn "first" []) (completedTurn "r")] afterFirstTurn := .single rfl
  exact ⟨by decide, generation_denotes_plainContext (fun _ => 0) "key" hrun
    (exampleTurn "second" [("previous_response_id", .string "r")]) promptReplies secondFrame
    (by decide)⟩

end CodexApi
