import CodexApi.Chat.Completion
import CodexApi.Error
import CodexApi.JsonRoundTrip
import CodexApi.Lib.Sse

/-!
# The format of Chat answers

A Chat stream is written as events without names: a printed value each, and `[DONE]` at the end. A
client decodes the events and parses their data. It gets back what was written
(`readChatStream_bytes`) if the values are read back, which chunks, completions and errors are:
they nest seven containers at most, and their numbers are token counts, indices and the `created` of
the upstream, which is an `i64` in whatever has been parsed.
-/

namespace CodexApi

open JsonText

/-! ### Streams -/

/-- What an event of a Chat stream says. -/
inductive ChatPart
  | data (value : Value)
  | done
deriving DecidableEq

section

variable (floats : FloatText)

/-- `chat_sse_bytes`. -/
def chatSseBytes (value : Value) : List Char :=
  "data: ".toList ++ value.print floats ++ "\n\n".toList

/-- What is sent for a part of a stream. -/
def ChatPart.bytes : ChatPart → List Char
  | data value => chatSseBytes floats value
  | done => "data: [DONE]\n\n".toList

/-- What a client makes of an event. -/
def readChatEvent (event : Sse.Event) : Option ChatPart :=
  if event.data = "[DONE]".toList then some .done
  else (fromStr floats event.data).map .data

/-- What a client makes of a stream: the parts of its events, if all of them can be read. -/
def readChatStream (bytes : List Char) : Option (List ChatPart) :=
  (Sse.decode bytes).mapM (readChatEvent floats)

end

/-- A value is read back from its text. -/
abbrev Value.Legible (floats : FloatText) (value : Value) : Prop :=
  value.Fits (Number.Legible floats) maxDepth

variable {floats : FloatText} {depth : Nat}

/-- The data of an event. -/
def ChatPart.text (floats : FloatText) : ChatPart → List Char
  | data value => value.print floats
  | done => "[DONE]".toList

theorem ChatPart.bytes_eq (part : ChatPart) :
    part.bytes floats = Sse.dataEvent (part.text floats) := by
  cases part with
  | data value =>
    have hbytes : (data value).bytes floats =
        "data: ".toList ++ value.print floats ++ "\n\n".toList := rfl
    have hname : "data: ".toList = "data".toList ++ [':', ' '] := by decide
    have hend : "\n\n".toList = ['\n', '\n'] := by decide
    rw [hbytes, hname, hend]
    rfl
  | done =>
    have hbytes : done.bytes floats = "data: [DONE]\n\n".toList := rfl
    have hdone : "data: [DONE]\n\n".toList =
        "data".toList ++ [':', ' '] ++ "[DONE]".toList ++ ['\n', '\n'] := by decide
    rw [hbytes, hdone]
    rfl

theorem ChatPart.text_not_isBreak (part : ChatPart) :
    ∀ c ∈ part.text floats, Sse.isBreak c = false := by
  cases part with
  | data value =>
    intro c hc
    obtain ⟨hlf, hcr⟩ := value.print_inLine c hc
    simp [Sse.isBreak, hlf, hcr]
  | done =>
    have hall : ("[DONE]".toList.all fun c => decide (Sse.isBreak c = false)) = true := by decide
    exact List.all_iff_forall_prop.mp hall

/-- An event says what it was written for; no value is printed as `[DONE]`. -/
theorem readChatEvent_text {part : ChatPart}
    (h : ∀ value, part = .data value → value.Legible floats) :
    readChatEvent floats ⟨Sse.defaultName, part.text floats⟩ = some part := by
  cases part with
  | data value =>
    have hread := fromStr_print (h value rfl)
    have hnot : value.print floats ≠ "[DONE]".toList := by
      intro hdone
      rw [hdone] at hread
      cases hread
    rw [readChatEvent, ChatPart.text, if_neg hnot, hread, Option.map_some]
  | done => rfl

/-- **A Chat stream is read back.** -/
theorem readChatStream_bytes {parts : List ChatPart}
    (h : ∀ value, .data value ∈ parts → value.Legible floats) :
    readChatStream floats (parts.flatMap (·.bytes floats)) = some parts := by
  have hbytes : parts.flatMap (·.bytes floats) =
      (parts.map (·.text floats)).flatMap Sse.dataEvent := by
    rw [List.flatMap_map]
    exact List.flatMap_congr fun part _ => part.bytes_eq
  have hdata : ∀ data ∈ parts.map (·.text floats), ∀ c ∈ data, Sse.isBreak c = false := by
    intro data hdata
    obtain ⟨part, -, rfl⟩ := List.mem_map.mp hdata
    exact part.text_not_isBreak
  rw [readChatStream, hbytes, Sse.decode_dataEvents hdata, List.map_map]
  clear hbytes hdata
  induction parts with
  | nil => rfl
  | cons part parts ih =>
    have hpart : readChatEvent floats ⟨Sse.defaultName, part.text floats⟩ = some part :=
      readChatEvent_text fun value hvalue => h value (hvalue ▸ List.mem_cons_self)
    have hrest := ih fun value hvalue => h value (List.mem_cons_of_mem _ hvalue)
    rw [List.map_cons, List.mapM_cons, hrest]
    simp [hpart]

/-! ### Values -/

theorem fits_jsonInt {n : Int} (h : -2 ^ 63 ≤ n) :
    (jsonInt n).Fits (Number.Legible floats) depth := by
  unfold jsonInt
  refine .number ?_
  split
  · exact Number.legible_posInt _
  · exact Number.legible_negInt (by omega)

theorem fits_jsonOption (s : Option String) :
    (jsonOption s).Fits (Number.Legible floats) depth := by
  cases s with
  | none => exact .null
  | some s => exact .string s

theorem fits_chatUsage (usage : Usage) :
    (chatUsage usage).Fits (Number.Legible floats) (depth + 2) := by
  have hcount : ∀ {depth : Nat} (n : UInt64),
      (Value.number (.posInt n)).Fits (Number.Legible floats) depth := fun n =>
    .number (Number.legible_posInt n)
  refine Value.fits_json ?_
  simp only [List.forall_mem_cons]
  refine ⟨hcount _, Value.fits_json ?_, hcount _, Value.fits_json ?_, hcount _,
    List.forall_mem_nil _⟩
  · exact List.forall_mem_singleton.mpr (hcount _)
  · exact List.forall_mem_singleton.mpr (hcount _)

/-- The time of a response is an `i64`. -/
def ChatMetadata.InRange (metadata : ChatMetadata) : Prop := -2 ^ 63 ≤ metadata.created

variable {metadata : ChatMetadata}

theorem fits_chunkJson {delta : Value} {finishReason : Option String} (h : metadata.InRange)
    (hdelta : delta.Fits (Number.Legible floats) depth) :
    (chunkJson metadata delta finishReason).Fits (Number.Legible floats) (depth + 3) := by
  refine Value.fits_json ?_
  simp only [List.forall_mem_cons]
  refine ⟨.string _, .string _, fits_jsonInt h, .string _, .array ?_, List.forall_mem_nil _⟩
  refine List.forall_mem_singleton.mpr (Value.fits_json ?_)
  simp only [List.forall_mem_cons]
  exact ⟨fits_jsonInt (by decide), hdelta, .null, fits_jsonOption _, List.forall_mem_nil _⟩

theorem fits_usageChunkJson {usage : Usage} (h : metadata.InRange) :
    (usageChunkJson metadata usage).Fits (Number.Legible floats) (depth + 3) := by
  refine Value.fits_json ?_
  simp only [List.forall_mem_cons]
  exact ⟨.string _, .string _, fits_jsonInt h, .string _, .array (List.forall_mem_nil _),
    fits_chatUsage usage, List.forall_mem_nil _⟩

theorem fits_toolCall (call : FunctionCall) :
    call.toolCall.Fits (Number.Legible floats) (depth + 2) := by
  refine Value.fits_json ?_
  simp only [List.forall_mem_cons]
  refine ⟨.string _, .string _, Value.fits_json ?_, List.forall_mem_nil _⟩
  simp only [List.forall_mem_cons]
  exact ⟨.string _, .string _, List.forall_mem_nil _⟩

/-- The message of a completion, whose calls are those of the output. -/
theorem fits_chatMessage {output : List Value} {converted : ConvertedOutput}
    (h : convertOutput output = .ok converted) :
    (chatMessage converted).toValue.Fits (Number.Legible floats) (depth + 4) := by
  have hcalls : ∀ call ∈ converted.toolCalls, call.Fits (Number.Legible floats) (depth + 2) := by
    rw [convertOutput_eq h]
    intro call hcall
    obtain ⟨call, -, rfl⟩ := List.mem_map.mp hcall
    exact fits_toolCall call
  refine .object (chatMessage converted).ordered ?_
  have hmessage : ∀ field ∈ (OrdMap.ofList [("role", Value.string "assistant"),
      ("content", jsonOption converted.text), ("refusal", jsonOption converted.refusal)]).entries,
      field.2.Fits (Number.Legible floats) (depth + 3) := by
    refine OrdMap.forall_mem_ofList ?_
    simp only [List.forall_mem_cons]
    exact ⟨.string _, fits_jsonOption _, fits_jsonOption _, List.forall_mem_nil _⟩
  unfold chatMessage
  split
  · exact hmessage
  · exact Assoc.forall_mem_insert (.array hcalls) hmessage

theorem fits_completionJson {output : List Value} {converted : ConvertedOutput}
    {finishReason : String} {usage : Usage} (hcreated : metadata.InRange)
    (h : convertOutput output = .ok converted) :
    (completionJson metadata converted finishReason usage).Fits (Number.Legible floats)
      (depth + 7) := by
  refine Value.fits_json ?_
  simp only [List.forall_mem_cons]
  refine ⟨.string _, .string _, fits_jsonInt hcreated, .string _, .array ?_, fits_chatUsage usage,
    List.forall_mem_nil _⟩
  refine List.forall_mem_singleton.mpr (Value.fits_json ?_)
  simp only [List.forall_mem_cons]
  exact ⟨fits_jsonInt (by decide), fits_chatMessage h, .null, .string _, List.forall_mem_nil _⟩

theorem ApiError.fits_body (error : ApiError) :
    error.body.Fits (Number.Legible floats) (depth + 2) := by
  have hparam : ((error.param.map Value.string).getD .null).Fits (Number.Legible floats) depth :=
    fits_jsonOption error.param
  refine Value.fits_json (List.forall_mem_singleton.mpr (Value.fits_json ?_))
  simp only [List.forall_mem_cons]
  exact ⟨.string _, .string _, hparam, .string _, List.forall_mem_nil _⟩

/-! ### What has been parsed -/

/-- A number that has been parsed, read as an `i64`. -/
theorem Value.Fits.asI64 {value : Value} {n : Int} (h : value.Fits Number.InRange depth)
    (hn : value.asI64 = some n) : -2 ^ 63 ≤ n := by
  cases h with
  | @number _ number hnumber =>
    cases number with
    | posInt m =>
      simp only [Value.asI64, Option.ite_none_right_eq_some, Option.some.injEq] at hn
      omega
    | negInt m =>
      simp only [Value.asI64, Option.some.injEq] at hn
      simp only [Number.InRange] at hnumber
      omega
    | float q => cases hn
  | null | bool | string | array | object => cases hn

/-- The metadata of a response that has been parsed. -/
theorem HasMetadata.inRange {event : Value} (h : HasMetadata event metadata)
    (hfits : event.Fits Number.InRange depth) : metadata.InRange := by
  obtain ⟨created, hfield, hcreated⟩ := Option.bind_eq_some_iff.mp h.created
  obtain ⟨response, hresponse, -, hget⟩ := responseField_eq_some.mp hfield
  exact ((hfits.get hresponse).get hget).asI64 hcreated

/-- The metadata that a converter has come from what has been parsed. -/
def ChatStreamConverter.InRange (converter : ChatStreamConverter) : Prop :=
  ∀ metadata, converter.metadata = some metadata → metadata.InRange

variable {converter converter' : ChatStreamConverter} {event : Value}

theorem ChatStreamConverter.InRange.chunk {delta chunk : Value} {finishReason : Option String}
    (h : converter.InRange) (hdelta : delta.Fits (Number.Legible floats) depth)
    (hchunk : converter.chunk delta finishReason = .ok chunk) :
    chunk.Fits (Number.Legible floats) (depth + 3) := by
  unfold ChatStreamConverter.chunk ChatStreamConverter.getMetadata at hchunk
  cases hmetadata : converter.metadata with
  | none =>
    rw [hmetadata] at hchunk
    cases hchunk
  | some metadata =>
    rw [hmetadata] at hchunk
    cases hchunk
    exact fits_chunkJson (h metadata hmetadata) hdelta

/-- **An event that has been parsed** gives a chunk that is read back. -/
theorem ChatStreamConverter.InRange.convertEvent {chunk : Option Value} (h : converter.InRange)
    (hfits : event.Fits Number.InRange maxDepth)
    (hconvert : converter.convertEvent event = .ok (converter', chunk)) :
    converter'.InRange ∧ ∀ value, chunk = some value → value.Legible floats := by
  have hrole : (json [("role", .string "assistant"), ("content", .string "")]).Fits
      (Number.Legible floats) (0 + 1) := by
    refine Value.fits_json ?_
    simp only [List.forall_mem_cons]
    exact ⟨.string _, .string _, List.forall_mem_nil _⟩
  have hcontent : ∀ delta, (json [("content", .string delta)]).Fits
      (Number.Legible floats) (0 + 1) := fun delta =>
    Value.fits_json (List.forall_mem_singleton.mpr (.string delta))
  unfold ChatStreamConverter.convertEvent at hconvert
  simp only at hconvert
  split_ifs at hconvert with hcreated hdelta
  · simp only [bind_eq_ok, okOr_eq_ok, Option.filter_eq_some_iff] at hconvert
    obtain ⟨response, ⟨hresponse, -⟩, captured, hcapture, value, hvalue, hresult⟩ := hconvert
    cases hresult
    obtain ⟨metadata, hmetadata, rfl⟩ := (captureMetadata_eq_ok hresponse).mp hcapture
    have hinRange : ChatStreamConverter.InRange ⟨some metadata, converter.includeUsage⟩ := by
      rintro _ ⟨⟩
      exact hmetadata.inRange hfits
    refine ⟨hinRange, ?_⟩
    rintro _ ⟨⟩
    exact (hinRange.chunk hrole hvalue).mono (by decide)
  · simp only [bind_eq_ok, okOr_eq_ok] at hconvert
    obtain ⟨delta, -, value, hvalue, hresult⟩ := hconvert
    cases hresult
    refine ⟨h, ?_⟩
    rintro _ ⟨⟩
    exact (h.chunk (hcontent delta) hvalue).mono (by decide)
  · cases hconvert
    exact ⟨h, fun _ hnone => by cases hnone⟩

/-- **A terminal event that has been parsed** gives chunks that are read back. -/
theorem legible_of_convertTerminal {terminal : TerminalEvent} {converted : ConvertedStreamTerminal}
    (hfits : terminal.payload.Fits Number.InRange maxDepth)
    (hconvert : converter.convertTerminal terminal = .ok converted) :
    ∀ chunk ∈ converted.chunks, chunk.Legible floats := by
  obtain ⟨status, response, metadata, usage, finishReason, -, -, hmetadata, -, -, rfl⟩ :=
    convertTerminal_eq_ok.mp hconvert
  have hcreated := hmetadata.inRange hfits
  have hempty : (json []).Fits (Number.Legible floats) (0 + 1) :=
    Value.fits_json (List.forall_mem_nil _)
  refine List.forall_mem_cons.mpr ⟨(fits_chunkJson hcreated hempty).mono (by decide), ?_⟩
  split
  · have husage : (usageChunkJson metadata usage).Fits (Number.Legible floats) (0 + 3) :=
      fits_usageChunkJson hcreated
    exact List.forall_mem_singleton.mpr (husage.mono (by decide))
  · exact List.forall_mem_nil _

/-- **A single answer** to a terminal event that has been parsed is read back. -/
theorem legible_of_convertTerminalEvent {terminal : TerminalEvent} {items : List Value}
    {completion : ConvertedTerminal} (hfits : terminal.payload.Fits Number.InRange maxDepth)
    (hconvert : convertTerminalEvent (terminal.withOutputItems items) = .ok completion) :
    completion.chatCompletion.Legible floats := by
  obtain ⟨status, response, metadata, usage, output, converted, finishReason, -, hresponse, -, -,
    hid, -, hmodel, -, hcreated, -, -, houtput, -, rfl⟩ := convertTerminalEvent_eq_ok.mp hconvert
  have hmetadata : HasMetadata (terminal.withOutputItems items).payload metadata :=
    ⟨by rw [responseField, hresponse]; exact hid, by rw [responseField, hresponse]; exact hcreated,
      by rw [responseField, hresponse]; exact hmodel⟩
  have hinRange := (TerminalEvent.hasMetadata_withOutputItems.mp hmetadata).inRange hfits
  have hcompletion : (completionJson metadata converted finishReason usage).Fits
      (Number.Legible floats) (0 + 7) := fits_completionJson hinRange houtput
  exact hcompletion.mono (by decide)

end CodexApi
