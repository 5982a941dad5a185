import CodexApi.Delivery.LedgerClosure
import CodexApi.Delivery.Serving
import CodexApi.Delivery.Traces

/-!
# What the client of an HTTP operation gets

Whatever the rest of the process does, the client of an HTTP operation gets what its upstream has said,
as its request asks for it: in order, each message once, nothing missing when the operation waits for
its upstream or has ended without having been told to stop (`answered_in_order`). So a Chat stream
that gets to `[DONE]`, and a single Chat answer, are the conversions of the records that have been read
(`chat_converted`).
-/

namespace CodexApi.Delivery

open Transition
open Program (Safe)

/-! ### Traces of HTTP operations -/

/-- What the upstream says in a reply. -/
def Effect.said : (effect : Effect) → effect.Reply → Option Said
  | .select _ effect, .done reply => effect.said reply
  | .next, .message (.text frame) => some (.frame frame)
  | .nextRecord, .record record => some (.record record)
  | _, _ => none

/-- What has been passed on to the client, or to the channel of its response. -/
def Effect.passed : (effect : Effect) → effect.Reply → Option Output
  | .select _ effect, .done reply => effect.passed reply
  | .send item, ok => if ok then some (.item item) else none
  | .deliver item, () => some (.item item)
  | .answer (.completion terminal body), () => some (.completion terminal body)
  | _, _ => none

/-- The code is told to stop: by the shutdown, by a client that has left, or by a failed booking. -/
def Effect.halts : (effect : Effect) → effect.Reply → Bool
  | .select _ effect, .done reply => effect.halts reply
  | .select _ _, _ => true
  | .send _, ok | .join, ok | .reserve, ok | .replyStream, ok => !ok
  | _, _ => false

/-- What the upstream has said. -/
def saids (trace : List Entry) : List Said :=
  trace.filterMap fun entry => entry.effect.said entry.reply

/-- What the client has got. -/
def passed (trace : List Entry) : List Output :=
  trace.filterMap fun entry => entry.effect.passed entry.reply

/-- Nothing has told the code to stop. -/
def Undisturbed (trace : List Entry) : Prop :=
  ∀ entry ∈ trace, entry.effect.halts entry.reply = false

instance (trace : List Entry) : Decidable (Undisturbed trace) :=
  inferInstanceAs (Decidable (∀ entry ∈ trace, entry.effect.halts entry.reply = false))

/-- How a request is answered. -/
def Request.mode (config : Config) : Request → Mode
  | .responses _ _ _ => .responses
  | .chatCompletions _ body => chatMode config body
  | .webSocket _ => .closed

variable {isHttpDate : String → Bool} {config : Config} {mode : Mode} {trace : List Entry}
  {entry : Entry} {g : Serving} {sh sh' : Shared} {index : Nat} {part part' : Part} {s : System}
  {request : Request}

/-! ### One reply -/

/-- **What a reply does to an answer**: what the upstream says is owed, and what is passed on was owed
next. -/
theorem Serving.after_spec (isHttpDate : String → Bool) {effect : Effect} (reply : effect.Reply)
    (hpermits : g.Permits effect) :
    (g.after isHttpDate effect reply).mode =
        g.mode.after isHttpDate (effect.said reply).toList ∧
      g.owed ++ g.mode.outputs isHttpDate (effect.said reply).toList =
        (effect.passed reply).toList ++ (g.after isHttpDate effect reply).owed ∧
      ((g.after isHttpDate effect reply).halted = (g.halted || effect.halts reply)) := by
  have hcheck : ∀ ok, (g.check ok).mode = g.mode ∧ (g.check ok).owed = g.owed ∧
      (g.check ok).halted = (g.halted || !ok) := by
    intro ok
    cases ok <;> simp [Serving.check]
  have hpass : ∀ {output : Output}, g.Owes output → ∀ ok, (g.pass ok).mode = g.mode ∧
      g.owed = (if ok then some output else none).toList ++ (g.pass ok).owed ∧
      (g.pass ok).halted = (g.halted || !ok) := by
    rintro output ⟨rest, howed⟩ ok
    cases ok <;> simp [Serving.pass, howed]
  induction effect with
  | select closable effect ih =>
    cases reply with
    | shutdown | closed => exact ⟨rfl, by simp [Effect.said, Effect.passed, Serving.after,
        Mode.outputs], by simp [Serving.after, Effect.halts]⟩
    | done reply => exact ih reply hpermits
  | next =>
    cases reply with
    | message message =>
      cases message with
      | text frame =>
        exact ⟨rfl, by simp [Effect.said, Effect.passed, Serving.after, Serving.hear,
          Mode.outputs], by simp [Serving.after, Serving.hear, Effect.halts]⟩
      | _ => exact ⟨rfl, List.append_nil _, (Bool.or_false _).symm⟩
    | broken | ended => exact ⟨rfl, List.append_nil _, (Bool.or_false _).symm⟩
  | nextRecord =>
    cases reply with
    | record record =>
      exact ⟨rfl, by simp [Effect.said, Effect.passed, Serving.after, Serving.hear,
        Mode.outputs], by simp [Serving.after, Serving.hear, Effect.halts]⟩
    | eof | broken => exact ⟨rfl, List.append_nil _, (Bool.or_false _).symm⟩
  | send item =>
    obtain ⟨hmode, howed, hhalted⟩ := hpass hpermits reply
    exact ⟨hmode, (List.append_nil _).trans howed, hhalted⟩
  | deliver item =>
    obtain ⟨hmode, howed, hhalted⟩ := hpass hpermits true
    exact ⟨hmode, (List.append_nil _).trans howed, hhalted⟩
  | answer answer =>
    cases answer with
    | completion terminal body =>
      obtain ⟨hmode, howed, hhalted⟩ := hpass hpermits true
      exact ⟨hmode, (List.append_nil _).trans howed, hhalted⟩
    | error | stream => exact ⟨rfl, List.append_nil _, (Bool.or_false _).symm⟩
  | join | reserve | replyStream =>
    obtain ⟨hmode, howed, hhalted⟩ := hcheck reply
    exact ⟨hmode, (List.append_nil _).trans howed.symm, hhalted⟩
  | _ => exact ⟨rfl, List.append_nil _, (Bool.or_false _).symm⟩

/-- What is allowed is permitted. -/
theorem Serving.Allows.permits {effect : Effect} (h : g.Allows effect) : g.Permits effect := by
  cases effect with
  | spawnFinalizer => trivial
  | _ => exact h.2

/-! ### Whole traces -/

theorem saids_append (trace : List Entry) (entry : Entry) :
    saids (trace ++ [entry]) = saids trace ++ (entry.effect.said entry.reply).toList := by
  rw [saids, List.filterMap_append]
  cases h : entry.effect.said entry.reply <;> simp [h, saids]

theorem passed_append (trace : List Entry) (entry : Entry) :
    passed (trace ++ [entry]) = passed trace ++ (entry.effect.passed entry.reply).toList := by
  rw [passed, List.filterMap_append]
  cases h : entry.effect.passed entry.reply <;> simp [h, passed]

/-- An answer after a trace of code that serves its client. -/
structure Answering (isHttpDate : String → Bool) (first : Mode) (trace : List Entry) (g : Serving) :
    Prop where
  mode : g.mode = first.after isHttpDate (saids trace)
  outputs : first.outputs isHttpDate (saids trace) = passed trace ++ g.owed
  halted : Undisturbed trace → g.halted = false

/-- **What has come is what has been passed on, and what is owed.** -/
theorem answering_of_kept (h : Kept (serve isHttpDate) (.start mode) trace) :
    Answering isHttpDate mode trace (ghostOf (serve isHttpDate) (.start mode) trace) := by
  refine h.induction (P := fun trace =>
    Answering isHttpDate mode trace (ghostOf (serve isHttpDate) (.start mode) trace))
    ⟨rfl, rfl, fun _ => rfl⟩ fun trace entry _ hallows ih => ?_
  obtain ⟨hmode, houtputs, hhalted⟩ := ih
  obtain ⟨hmode', houtputs', hhalted'⟩ := Serving.after_spec isHttpDate entry.reply
    (Serving.Allows.permits hallows)
  rw [ghostOf_append]
  refine ⟨?_, ?_, fun hundisturbed => ?_⟩
  · rw [saids_append, Mode.after_append, ← hmode]
    exact hmode'
  · rw [saids_append, passed_append, Mode.outputs_append, ← hmode, houtputs, List.append_assoc,
      List.append_assoc, houtputs']
    rfl
  · have hnot := hundisturbed entry (List.mem_append_right _ (List.mem_singleton_self entry))
    have hearlier := hhalted fun earlier h => hundisturbed earlier (List.mem_append_left _ h)
    refine hhalted'.trans ?_
    rw [hearlier, hnot]
    rfl

/-! ### Parts -/

/-- The part of a request is on its path, and serves its client unless it is a WebSocket session. -/
structure Request.Served (config : Config) (isHttpDate : String → Bool) (request : Request)
    (part : Part) : Prop where
  path : part.path = (request.part config).path
  keeps : part.path ≠ .webSocket →
    part.Keeps (serve isHttpDate) (.start (request.mode config)) Serving.Over

theorem Request.served_part (config : Config) (isHttpDate : String → Bool) (request : Request) :
    request.Served config isHttpDate (request.part config) := by
  refine ⟨rfl, fun hpath => ?_⟩
  cases request with
  | responses identity headers body =>
    refine ⟨fun code hcode => ?_, .nil⟩
    cases hcode
    exact responses_serves config identity headers body
  | chatCompletions identity body =>
    refine ⟨fun code hcode => ?_, .nil⟩
    cases hcode
    exact chatCompletions_serves config identity body
  | webSocket identity => exact absurd rfl hpath

theorem Request.Served.step (hserved : request.Served config isHttpDate part) {move : Move}
    (h : partStep config isHttpDate index sh part move = some (sh', part')) :
    request.Served config isHttpDate part' := by
  have hpath := (goes_of_partStep h).1
  refine ⟨hpath.trans hserved.path, fun hhttp => ?_⟩
  have hkeeps := hserved.keeps fun hsocket => hhttp (hpath.trans hsocket)
  exact hkeeps.step (fun _ _ _ => trivial) (fun _ _ hentry => loop_serves config hentry) h

/-- **The parts of a run serve their clients.** -/
theorem System.served_of_run {actions : List Action}
    (h : SystemRun config isHttpDate .init actions s) (hpart : s.parts[index]? = some part) :
    ∃ request, (actions.filterMap Action.request?)[index]? = some request ∧
      request.Served config isHttpDate part := by
  exact System.requested_of_run (Request.served_part config isHttpDate)
    (fun _ _ _ _ _ _ _ _ hserved hstep => hserved.step hstep) h hpart

/-- A part is about to listen to its upstream. -/
def Part.listening (part : Part) : Bool :=
  match part.code with
  | some (.op effect _) => effect.listens
  | _ => false

/-- The code of a part has come to its end. -/
def Part.ended (part : Part) : Bool :=
  match part.code with
  | some (.pure _) => true
  | _ => false

theorem Serving.Permits.owed {effect : Effect} (h : g.Permits effect)
    (hlistens : effect.listens = true) : g.owed = [] := by
  induction effect with
  | select closable effect ih => exact ih h hlistens
  | next | nextRecord => exact h
  | receive => exact h.elim
  | _ => cases hlistens

/-- **Answers are in order.** In every reachable state, whatever all parts of the process have done, the
client of an HTTP operation has got what its request makes of the messages of the upstream, in the
order in which they came, each once. Something is missing at most at the end, and nothing is when the
operation listens to the upstream, or has ended without having been told to stop. -/
theorem answered_in_order {actions : List Action}
    (hrun : SystemRun config isHttpDate .init actions s) (hpart : s.parts[index]? = some part)
    (hpath : part.path ≠ .webSocket) :
    ∃ request, (actions.filterMap Action.request?)[index]? = some request ∧
      ∃ missing, (request.mode config).outputs isHttpDate (saids part.trace) =
          passed part.trace ++ missing ∧
        (part.listening = true → missing = []) ∧
        (part.ended = true → Undisturbed part.trace → missing = []) := by
  obtain ⟨request, hrequest, hserved⟩ := System.served_of_run hrun hpart
  have hkeeps := hserved.keeps hpath
  have hanswering := answering_of_kept hkeeps.kept
  refine ⟨request, hrequest, _, hanswering.outputs, fun hlistening => ?_,
    fun hended hundisturbed => ?_⟩
  · unfold Part.listening at hlistening
    split at hlistening
    · rename_i effect next hcode
      obtain ⟨hallows, -⟩ := hkeeps.code _ hcode
      exact hallows.permits.owed hlistening
    · cases hlistening
  · unfold Part.ended at hended
    split at hended
    · rename_i hcode
      have hover : Serving.Over _ := hkeeps.code _ hcode
      refine hover.owed.resolve_right fun hhalted => ?_
      rw [hanswering.halted hundisturbed] at hhalted
      cases hhalted
    · cases hended

/-! ### A Chat stream -/

/-- A Chat request for a stream with its usage. -/
def streamedChat : Value :=
  json [("model", .string "gpt"), ("stream", .bool true),
    ("stream_options", json [("include_usage", .bool true)]),
    ("messages", .array [json [("role", .string "user"), ("content", .string "Hello")]])]

/-- The records of a short answer. -/
def shortAnswer : List SseRecord := [createdRecord, deltaRecord "Hi", completedRecord textPart]

/-- The request is admitted and sent, its answer comes in three records, and its row is finalized. -/
def streamActions : List Action :=
  [.start (.chatCompletions lowIdentity (some streamedChat)), .part 0 (.reply (.time midnight)),
    .part 0 (.reply .done), .part 0 .execute, .part 0 (.reply .done), .part 0 (.reply .done),
    .part 0 (.reply (.inner (.post (some true)))), .part 0 (.reply .done), .part 0 (.reply .done),
    .part 0 (.reply .done), .part 0 .unfold,
    .part 0 (.reply (.inner (.read (.record createdRecord)))), .part 0 (.reply (.bool true)),
    .part 0 .unfold, .part 0 (.reply (.inner (.read (.record (deltaRecord "Hi"))))),
    .part 0 (.reply (.bool true)), .part 0 .unfold,
    .part 0 (.reply (.inner (.read (.record (completedRecord textPart))))), .part 0 (.reply .done),
    .part 0 (.finalizer (some midnight)), .part 0 (.reply .done), .part 0 (.reply (.bool true)),
    .part 0 (.reply (.bool true)), .part 0 (.reply (.bool true)), .part 0 (.reply .done)]

/-- The part of the stream at its end. -/
def Part.streamed (part : Part) : Prop :=
  part.path ≠ .webSocket ∧ part.ended = true ∧ Undisturbed part.trace ∧
    (saids part.trace).filterMap Said.record? = shortAnswer ∧
    (passed part.trace).any Output.isDone = true ∧ (passed part.trace).length = 5

instance (part : Part) : Decidable part.streamed :=
  inferInstanceAs (Decidable (_ ∧ _))

/-- There is a run of the stream to its end. -/
theorem exists_streamed : ∃ s part, SystemRun lowConfig (fun _ => false) .init streamActions s ∧
    s.parts = [part] ∧ part.streamed := by
  have hevaluated : (exec (systemStep lowConfig fun _ => false) .init streamActions).map
      (fun s => s.parts.map fun part => decide part.streamed) = some [true] := by
    decide +kernel
  obtain ⟨s, hs, hparts⟩ := Option.map_eq_some_iff.mp hevaluated
  obtain ⟨part, hpart, hstreamed⟩ := List.map_eq_singleton_iff.mp hparts
  exact ⟨s, part, run_ofFun_iff.mpr hs, hpart, of_decide_eq_true hstreamed⟩

/-- The request of the stream is accepted. -/
theorem exists_accepted_stream : ∃ accepted converted,
    chatRequest lowConfig streamedChat = .ok (accepted, converted) ∧ converted.stream = true ∧
      converted.includeUsage = true := by
  have hevaluated : ((chatRequest lowConfig streamedChat).toOption.map fun accepted =>
      (accepted.2.stream, accepted.2.includeUsage)) = some (true, true) := by
    decide +kernel
  obtain ⟨⟨accepted, converted⟩, haccepted, heq⟩ := Option.map_eq_some_iff.mp hevaluated
  obtain ⟨hstream, husage⟩ := Prod.mk.inj heq
  exact ⟨accepted, converted, toOption_eq_some.mp haccepted, hstream, husage⟩

/-- The client of a stream gets everything: four chunks and `[DONE]`. -/
theorem answered_in_order_stream : ∃ s part,
    SystemRun lowConfig (fun _ => false) .init streamActions s ∧ s.parts = [part] ∧
      (chatMode lowConfig (some streamedChat)).outputs (fun _ => false) (saids part.trace) =
        passed part.trace := by
  obtain ⟨s, part, hrun, hpart, hpath, hended, hundisturbed, -⟩ := exists_streamed
  obtain ⟨request, hrequest, missing, houtputs, -, hcomplete⟩ :=
    answered_in_order hrun (show s.parts[0]? = some part by rw [hpart]; rfl) hpath
  cases hrequest
  rw [hcomplete hended hundisturbed, List.append_nil] at houtputs
  exact ⟨s, part, hrun, hpart, houtputs⟩

/-! ### Chat -/

/-- What a Chat operation has passed on begins what its records are converted to. -/
theorem exists_owed {actions : List Action} {identity : ClientIdentity} {parsed : Value}
    {accepted : AcceptedRequest} {converted : ConvertedRequest}
    (hrun : SystemRun config isHttpDate .init actions s) (hpart : s.parts[index]? = some part)
    (hrequest : (actions.filterMap Action.request?)[index]? =
      some (.chatCompletions identity (some parsed)))
    (haccepted : chatRequest config parsed = .ok (accepted, converted)) :
    ∃ owed, (modeOf converted).outputs isHttpDate (saids part.trace) =
      passed part.trace ++ owed := by
  obtain ⟨request, hrequest', hserved⟩ := System.served_of_run hrun hpart
  obtain rfl := Option.some.inj (hrequest.symm.trans hrequest')
  have hpath : part.path ≠ .webSocket := fun h => by cases hserved.path.symm.trans h
  have hanswering := answering_of_kept (hserved.keeps hpath).kept
  have hmode : Request.mode config (.chatCompletions identity (some parsed)) =
      modeOf converted := by
    simp only [Request.mode, chatMode, haccepted]
  exact ⟨_, hmode ▸ hanswering.outputs⟩

/-- A stream that has got to `[DONE]` is complete, and the conversion of its records. -/
theorem conversion_of_done {converter : ChatStreamConverter} {messages : List Said}
    {outputs owed : List Output}
    (h : (Mode.chatStream converter).outputs isHttpDate messages = outputs ++ owed)
    (hdone : outputs.any Output.isDone = true) :
    owed = [] ∧ forwardChatStream converter (messages.filterMap Said.record?) =
      some (outputs.filterMap Output.chunk?) := by
  obtain ⟨chunks, hchunks, hends⟩ := endsWith_of_done (by
    rw [h, List.any_append, hdone]
    rfl)
  rw [h] at hends
  obtain ⟨howed, hsent⟩ := hends.eq_of_append hdone
  exact ⟨howed, by rw [hchunks, hsent]⟩

/-- **Chat answers are conversions.** A Chat stream that gets to `[DONE]` has sent the chunks that
`forwardChatStream` makes of the records read, and a single answer is the completion that
`readChatTerminal` makes of them. -/
theorem chat_converted {actions : List Action} {identity : ClientIdentity} {parsed : Value}
    {accepted : AcceptedRequest} {converted : ConvertedRequest}
    (hrun : SystemRun config isHttpDate .init actions s) (hpart : s.parts[index]? = some part)
    (hrequest : (actions.filterMap Action.request?)[index]? =
      some (.chatCompletions identity (some parsed)))
    (haccepted : chatRequest config parsed = .ok (accepted, converted)) :
    (converted.stream = true → (passed part.trace).any Output.isDone = true →
      forwardChatStream (.new converted.includeUsage)
          ((saids part.trace).filterMap Said.record?) =
        some ((passed part.trace).filterMap Output.chunk?)) ∧
    (converted.stream = false → ∀ terminal body, .completion terminal body ∈ passed part.trace →
      ∃ completion, readChatTerminal [] ((saids part.trace).filterMap Said.record?) =
          some completion ∧ completion.chatCompletion = body) := by
  obtain ⟨owed, houtputs⟩ := exists_owed hrun hpart hrequest haccepted
  rw [modeOf] at houtputs
  refine ⟨fun hstream hdone => ?_, fun hstream terminal body hmem => ?_⟩
  · rw [if_pos hstream] at houtputs
    exact (conversion_of_done houtputs hdone).2
  · rw [hstream] at houtputs
    exact completion_of_mem (houtputs ▸ List.mem_append_left _ hmem)

/-- The chunks of the stream are those of `forwardChatStream`. -/
theorem chat_converted_stream : ∃ s part,
    SystemRun lowConfig (fun _ => false) .init streamActions s ∧ s.parts = [part] ∧
      forwardChatStream (.new true) shortAnswer =
        some ((passed part.trace).filterMap Output.chunk?) := by
  obtain ⟨s, part, hrun, hpart, -, -, -, hrecords, hdone, -⟩ := exists_streamed
  obtain ⟨accepted, converted, haccepted, hstream, husage⟩ := exists_accepted_stream
  have hchunks := (chat_converted hrun (show s.parts[0]? = some part by rw [hpart]; rfl) rfl
    haccepted).1 hstream hdone
  rw [hrecords, husage] at hchunks
  exact ⟨s, part, hrun, hpart, hchunks⟩

end CodexApi.Delivery
