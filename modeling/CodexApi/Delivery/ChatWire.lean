import CodexApi.Chat.Format
import CodexApi.Delivery.Answers
import CodexApi.Upstream.Recognition

/-!
# What a Chat client reads

The answers of Chat operations, down to the bytes. Whatever a Chat stream has sent, its client can
decode and parse: one event for each part that was sent, in order, saying what was sent. If it reads
`[DONE]`, it has read the chunks that the conversion of the upstream's records gives, and nothing
else (`chat_read_back`). The text of a single answer is read back too. All this is about records
whose data has been parsed from a text.
-/

namespace CodexApi

open JsonText

/-- The data of a record is what has been parsed from a text, if it is JSON. -/
def SseRecord.Parsed (floats : FloatText) (record : SseRecord) : Prop :=
  ∀ value, record.data = some value → ∃ text, fromStr floats text = some value

namespace Delivery

open Transition

/-! ### Parts -/

/-- The part of a Chat stream that an output is. -/
def Output.part? : Output → Option ChatPart
  | item (.chunk value _) => some (.data value)
  | item (.error body) => some (.data body)
  | item (.done _) => some .done
  | _ => none

/-- The bytes of a Chat stream. -/
def streamBytes (floats : FloatText) (outputs : List Output) : List Char :=
  (outputs.filterMap Output.part?).flatMap (·.bytes floats)

variable {isHttpDate : String → Bool} {floats : FloatText} {messages : List Said}

/-- The outputs of a Chat stream are parts that can be read, and those of a stream that gets to
`[DONE]` are its chunks and `[DONE]`. -/
structure StreamOutputs (floats : FloatText) (outputs : List Output) : Prop where
  shown : ∀ output ∈ outputs, output.part?.isSome = true
  legible : ∀ output ∈ outputs, ∀ value, output.part? = some (.data value) → value.Legible floats
  ends : outputs.any Output.isDone = true →
    outputs.filterMap Output.part? = (outputs.filterMap Output.chunk?).map .data ++ [.done]

theorem StreamOutputs.nil : StreamOutputs floats [] :=
  ⟨by simp, by simp, fun hdone => by cases hdone⟩

/-- Chunks before the rest of a stream. -/
theorem StreamOutputs.chunks {chunks : List Value} {terminal : Option TerminalEvent}
    {outputs : List Output} (hchunks : ∀ chunk ∈ chunks, chunk.Legible floats)
    (h : StreamOutputs floats outputs) :
    StreamOutputs floats (chunks.map (fun chunk => .item (.chunk chunk terminal)) ++ outputs) := by
  have hparts : (chunks.map fun chunk => Output.item (.chunk chunk terminal)).filterMap
      Output.part? = chunks.map .data := by
    rw [List.filterMap_map]
    exact congrFun (List.filterMap_eq_map (f := ChatPart.data)) chunks
  have hvalues : (chunks.map fun chunk => Output.item (.chunk chunk terminal)).filterMap
      Output.chunk? = chunks := by
    simp [List.filterMap_map, Function.comp_def, Output.chunk?]
  refine ⟨fun output houtput => ?_, fun output houtput value hvalue => ?_, fun hdone => ?_⟩
  · rcases List.mem_append.mp houtput with houtput | houtput
    · obtain ⟨chunk, -, rfl⟩ := List.mem_map.mp houtput
      rfl
    · exact h.shown output houtput
  · rcases List.mem_append.mp houtput with houtput | houtput
    · obtain ⟨chunk, hchunk, rfl⟩ := List.mem_map.mp houtput
      cases hvalue
      exact hchunks _ hchunk
    · exact h.legible output houtput value hvalue
  · have hrest : outputs.any Output.isDone = true := by
      simpa [List.any_append, List.any_map, Function.comp_def, Output.isDone] using hdone
    rw [List.filterMap_append, List.filterMap_append, hparts, hvalues, h.ends hrest,
      List.map_append, List.append_assoc]

/-- An error is the last that a stream says. -/
theorem StreamOutputs.error (error : ApiError) :
    StreamOutputs floats [.item (.error error.body)] := by
  refine ⟨by simp [Output.part?], fun output houtput value hvalue => ?_,
    fun hdone => by cases hdone⟩
  obtain rfl := List.mem_singleton.mp houtput
  cases hvalue
  have hbody : error.body.Fits (Number.Legible floats) (0 + 2) := error.fits_body
  exact hbody.mono (by decide)

theorem StreamOutputs.done (terminal : TerminalEvent) :
    StreamOutputs floats [.item (.done terminal)] := by
  refine ⟨by simp [Output.part?], fun output houtput value hvalue => ?_, fun _ => rfl⟩
  obtain rfl := List.mem_singleton.mp houtput
  cases hvalue

/-! ### Conversions of what has been parsed -/

/-- A terminal event whose record has been parsed. -/
theorem fits_payload {record : SseRecord} {terminal : TerminalEvent}
    (hparsed : record.Parsed floats) (h : validateEvent record = .ok (some terminal)) :
    terminal.payload.Fits Number.InRange maxDepth := by
  obtain ⟨⟨payload, hdata, hparse⟩, -⟩ := validateEvent_eq_ok_some h
  obtain ⟨text, htext⟩ := hparsed payload hdata
  rw [(terminal_of_parse hparse).1]
  exact fits_fromStr htext

/-- The end of a Chat stream. -/
theorem streamOutputs_terminal {converter : ChatStreamConverter} {terminal : TerminalEvent}
    (hfits : terminal.payload.Fits Number.InRange maxDepth) :
    StreamOutputs floats (terminalOutputs converter terminal) := by
  unfold terminalOutputs
  cases terminal.upstreamError with
  | some error => exact .error _
  | none =>
    cases hconverted : converter.convertTerminal terminal with
    | error error => exact .nil
    | ok converted =>
      exact .chunks (legible_of_convertTerminal hfits hconverted) (.done terminal)

/-- **A Chat stream can be read.** The induction is on what the upstream says. -/
theorem streamOutputs_chatStream {converter : ChatStreamConverter} (hrange : converter.InRange)
    (hparsed : ∀ record ∈ messages.filterMap Said.record?, record.Parsed floats) :
    StreamOutputs floats ((Mode.chatStream converter).outputs isHttpDate messages) := by
  induction messages generalizing converter with
  | nil => exact .nil
  | cons said messages ih =>
    cases said with
    | frame frame =>
      rw [Mode.outputs_frame fun h => by cases h]
      exact .nil
    | record record =>
      have hrecord : (Said.record record :: messages).filterMap Said.record? =
          record :: messages.filterMap Said.record? := rfl
      rw [hrecord] at hparsed
      obtain ⟨hhead, htail⟩ := List.forall_mem_cons.mp hparsed
      simp only [Mode.outputs, Mode.step, streamStep]
      cases hvalid : validateEvent record with
      | error error =>
        simp only [Mode.outputs_closed, List.append_nil]
        exact .nil
      | ok validated =>
        cases validated with
        | some terminal =>
          simp only [Mode.outputs_closed, List.append_nil]
          exact streamOutputs_terminal (fits_payload hhead hvalid)
        | none =>
          cases hdata : record.data with
          | none => exact ih hrange htail
          | some value =>
            obtain ⟨text, htext⟩ := hhead value hdata
            simp only [eventStep]
            cases hconverted : converter.convertEvent value with
            | error error =>
              simp only [Mode.outputs_closed, List.append_nil]
              exact .nil
            | ok converted =>
              obtain ⟨converter', chunk⟩ := converted
              obtain ⟨hrange', hchunk⟩ := hrange.convertEvent (fits_fromStr htext) hconverted
              have hrest := ih hrange' htail
              cases chunk with
              | none => exact hrest
              | some chunk =>
                exact .chunks (List.forall_mem_singleton.mpr (hchunk chunk rfl)) hrest

/-- **A single answer can be read.** The induction is on the records. -/
theorem legible_of_readChatTerminal {records : List SseRecord} {items : List Value}
    {completion : ConvertedTerminal} (hparsed : ∀ record ∈ records, record.Parsed floats)
    (h : readChatTerminal items records = some completion) :
    completion.chatCompletion.Legible floats := by
  induction records generalizing items with
  | nil => cases h
  | cons record records ih =>
    obtain ⟨hhead, htail⟩ := List.forall_mem_cons.mp hparsed
    unfold readChatTerminal at h
    cases hvalid : validateEvent record with
    | error error => simp [hvalid] at h
    | ok validated =>
      cases validated with
      | none =>
        rw [hvalid] at h
        exact ih htail h
      | some terminal =>
        rw [hvalid] at h
        simp only at h
        split at h
        · cases h
        · exact legible_of_convertTerminalEvent (fits_payload hhead hvalid) (toOption_eq_some.mp h)

/-! ### What the client reads -/

/-- The parts of a stream are read back from its bytes. -/
theorem StreamOutputs.read {outputs : List Output} (h : StreamOutputs floats outputs) :
    readChatStream floats (streamBytes floats outputs) =
      some (outputs.filterMap Output.part?) := by
  refine readChatStream_bytes fun value hvalue => ?_
  obtain ⟨output, houtput, hpart⟩ := List.mem_filterMap.mp hvalue
  exact h.legible output houtput value hpart

/-- A stream up to some point. -/
theorem StreamOutputs.of_append {earlier later : List Output}
    (h : StreamOutputs floats (earlier ++ later))
    (hlater : earlier.any Output.isDone = true → later = []) : StreamOutputs floats earlier := by
  refine ⟨fun output houtput => h.shown output (List.mem_append_left _ houtput),
    fun output houtput => h.legible output (List.mem_append_left _ houtput), fun hdone => ?_⟩
  have hends := h.ends (by rw [List.any_append, hdone]; rfl)
  rwa [hlater hdone, List.append_nil] at hends

/-- Each output is a part of the stream. -/
theorem StreamOutputs.map_part {outputs : List Output} (h : StreamOutputs floats outputs) :
    outputs.map Output.part? = (outputs.filterMap Output.part?).map some := by
  have hshown := h.shown
  clear h
  induction outputs with
  | nil => rfl
  | cons output outputs ih =>
    obtain ⟨hhead, htail⟩ := List.forall_mem_cons.mp hshown
    obtain ⟨part, hpart⟩ := Option.isSome_iff_exists.mp hhead
    rw [List.map_cons, List.filterMap_cons_some hpart, List.map_cons, hpart, ih htail]

theorem any_isDone_of_mem {outputs : List Output}
    (h : .done ∈ outputs.filterMap Output.part?) : outputs.any Output.isDone = true := by
  obtain ⟨output, houtput, hpart⟩ := List.mem_filterMap.mp h
  refine List.any_eq_true.mpr ⟨output, houtput, ?_⟩
  unfold Output.part? at hpart
  split at hpart
  · cases hpart
  · cases hpart
  · rfl
  · cases hpart

variable {config : Config} {s : System} {part : Part} {index : Nat}

/-- **Chat answers are read back.** In every reachable state, the client of a Chat stream can decode
and parse what it has been sent, and reads the parts that were sent, one event each; if it reads
`[DONE]`, it has read the chunks of `forwardChatStream` before it and nothing else. The text of a
single answer is read as the completion that `readChatTerminal` makes. -/
theorem chat_read_back {actions : List Action} {identity : ClientIdentity} {parsed : Value}
    {accepted : AcceptedRequest} {converted : ConvertedRequest}
    (hrun : SystemRun config isHttpDate .init actions s) (hpart : s.parts[index]? = some part)
    (hrequest : (actions.filterMap Action.request?)[index]? =
      some (.chatCompletions identity (some parsed)))
    (haccepted : chatRequest config parsed = .ok (accepted, converted))
    (hparsed : ∀ record ∈ (saids part.trace).filterMap Said.record?, record.Parsed floats) :
    (converted.stream = true → ∃ parts,
      readChatStream floats (streamBytes floats (passed part.trace)) = some parts ∧
        (passed part.trace).map Output.part? = parts.map some ∧
        (.done ∈ parts → ∃ chunks,
          forwardChatStream (.new converted.includeUsage)
              ((saids part.trace).filterMap Said.record?) = some chunks ∧
            parts = chunks.map .data ++ [.done])) ∧
    (converted.stream = false → ∀ terminal body, .completion terminal body ∈ passed part.trace →
      fromStr floats (body.print floats) = some body ∧
        ∃ completion, readChatTerminal [] ((saids part.trace).filterMap Said.record?) =
            some completion ∧ completion.chatCompletion = body) := by
  obtain ⟨owed, houtputs⟩ := exists_owed hrun hpart hrequest haccepted
  rw [modeOf] at houtputs
  refine ⟨fun hstream => ?_, fun hstream terminal body hmem => ?_⟩
  · rw [if_pos hstream] at houtputs
    have hrange : (ChatStreamConverter.new converted.includeUsage).InRange :=
      fun _ hnone => by cases hnone
    have hall : StreamOutputs floats ((Mode.chatStream (.new converted.includeUsage)).outputs
        isHttpDate (saids part.trace)) := streamOutputs_chatStream hrange hparsed
    rw [houtputs] at hall
    have hpassed := hall.of_append fun hdone => (conversion_of_done houtputs hdone).1
    refine ⟨_, hpassed.read, hpassed.map_part, fun hmem => ?_⟩
    -- What has got to `[DONE]` is complete, and the conversion of the records.
    have hdone := any_isDone_of_mem hmem
    exact ⟨_, (conversion_of_done houtputs hdone).2, hpassed.ends hdone⟩
  · rw [hstream] at houtputs
    obtain ⟨completion, hread, hbody⟩ :=
      completion_of_mem (houtputs ▸ List.mem_append_left _ hmem)
    have hlegible := legible_of_readChatTerminal hparsed hread
    rw [hbody] at hlegible
    exact ⟨fromStr_print hlegible, completion, hread, hbody⟩

/-- The client of the stream reads four chunks and `[DONE]`. -/
theorem chat_read_back_stream : ∃ s part parts,
    SystemRun lowConfig (fun _ => false) .init streamActions s ∧ s.parts = [part] ∧
      readChatStream noFloats (streamBytes noFloats (passed part.trace)) = some parts ∧
      parts.length = 5 ∧ ∃ chunks, forwardChatStream (.new true) shortAnswer = some chunks ∧
        parts = chunks.map .data ++ [.done] := by
  have hprinted : (shortAnswer.all fun record => record.data.all fun value =>
      decide (fromStr noFloats (value.print noFloats) = some value)) = true := by
    decide +kernel
  have hparsed : ∀ record ∈ shortAnswer, record.Parsed noFloats := by
    intro record hrecord value hvalue
    have hall := List.all_eq_true.mp hprinted record hrecord
    rw [hvalue] at hall
    exact ⟨_, of_decide_eq_true hall⟩
  obtain ⟨s, part, hrun, hpart, -, -, -, hrecords, hdone, hlength⟩ := exists_streamed
  obtain ⟨accepted, converted, haccepted, hstream, husage⟩ := exists_accepted_stream
  obtain ⟨parts, hread, hsent, hends⟩ :=
    (chat_read_back hrun (show s.parts[0]? = some part by rw [hpart]; rfl) rfl haccepted
      (hrecords ▸ hparsed)).1 hstream
  have hmem : .done ∈ parts := by
    obtain ⟨output, houtput, houtputDone⟩ := List.any_eq_true.mp hdone
    have hshown : output.part? = some .done := by
      unfold Output.isDone at houtputDone
      split at houtputDone
      · rfl
      · cases houtputDone
    have hmapped := List.mem_map_of_mem (f := Output.part?) houtput
    rw [hsent, hshown] at hmapped
    obtain ⟨last, hlast, heq⟩ := List.mem_map.mp hmapped
    exact Option.some.inj heq ▸ hlast
  have hcount : parts.length = 5 := by
    have hlengths := congrArg List.length hsent
    rw [List.length_map, List.length_map, hlength] at hlengths
    exact hlengths.symm
  obtain ⟨chunks, hchunks, hchunksEnd⟩ := hends hmem
  rw [hrecords, husage] at hchunks
  exact ⟨s, part, parts, hrun, hpart, hread, hcount, chunks, hchunks, hchunksEnd⟩

end Delivery

end CodexApi
