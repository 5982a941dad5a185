import CodexApi.JsonText
import CodexApi.Lib.Sse
import CodexApi.Upstream.Terminal
import Mathlib.Data.List.TakeWhile

/-!
# Frames as events

`forward_websocket_responses_stream` turns the text frames of the upstream connection into
server-sent events: the `type` of the frame becomes the name of the event, and the text of the frame
its data, as it stands. A capacity failure is rewritten and printed.

The event of a frame that is not rewritten is read back as the frame if and only if its type is a
nonempty line and nothing but white space follows the first line break in its text
(`reframe_iff`): JSON may break a line wherever white space may stand, and the format of the stream
ends a field there.
-/

namespace CodexApi

open JsonText

/-! ### The forwarded frames -/

/-- A text frame that the forwarding loop accepts, with what it reads from it. -/
structure AcceptedFrame where
  text : String
  event : Value
  eventName : String
  terminal : Option TerminalEvent
deriving DecidableEq

section

variable (floats : FloatText) (isHttpDate : String → Bool)

/-- The checks of a text frame: it is JSON, with a string `type`, and well formed if it is
terminal. -/
def acceptFrame (text : String) : Option AcceptedFrame := do
  let event ← fromStr floats text.toList
  let eventName ← (event.get "type").bind Value.asStr
  let terminal ← (parseTerminalPayload event).toOption
  return ⟨text, event, eventName, terminal⟩

/-- The frames that are forwarded: until one is not accepted, or is terminal. -/
def acceptedFrames : List String → List AcceptedFrame
  | [] => []
  | text :: texts =>
    match acceptFrame floats text with
    | none => []
    | some frame => frame :: if frame.terminal.isSome then [] else acceptedFrames texts

/-- The payload of a capacity failure. -/
def AcceptedFrame.rewritten (frame : AcceptedFrame) : Option Value :=
  frame.terminal.bind (·.retryableCapacityPayload isHttpDate)

/-- The event that is written for a name and a text. -/
def eventBytes (name text : List Char) : List Char :=
  Sse.fieldText "id".toList [] ++ ['\n'] ++ (Sse.fieldText "event".toList name ++ ['\n']) ++
    (Sse.fieldText "data".toList text ++ ['\n', '\n'])

example : eventBytes "error".toList "{}".toList = "id: \nevent: error\ndata: {}\n\n".toList := by
  decide

/-- What is sent for a frame. -/
def AcceptedFrame.bytes (frame : AcceptedFrame) : List Char :=
  match frame.rewritten isHttpDate with
  | some payload => eventBytes "response.failed".toList (payload.print floats)
  | none => eventBytes frame.eventName.toList frame.text.toList

/-- The event is the frame: its name and its value, or the rewritten payload. -/
def AcceptedFrame.IsEvent (frame : AcceptedFrame) (event : Sse.Event) : Prop :=
  match frame.rewritten isHttpDate with
  | some payload => event = ⟨"response.failed".toList, payload.print floats⟩
  | none => event.name = frame.eventName.toList ∧ fromStr floats event.data = some frame.event

/-- The decoded events are the forwarded frames, one for one. -/
def Reframed (texts : List String) : Prop :=
  List.Forall₂ (AcceptedFrame.IsEvent floats isHttpDate) (acceptedFrames floats texts)
    (Sse.decode ((acceptedFrames floats texts).flatMap (·.bytes floats isHttpDate)))

/-- The type is a nonempty line, and only white space follows the first line of the text. -/
def AcceptedFrame.OneLine (frame : AcceptedFrame) : Prop :=
  frame.eventName ≠ "" ∧ (∀ c ∈ frame.eventName.toList, InLine c) ∧
    ∀ c ∈ frame.text.toList.dropWhile fun c => decide (InLine c), isSpace c = true

end

/-! ### One event -/

section

variable {floats : FloatText} {isHttpDate : String → Bool} {name text : List Char}

theorem isBreak_eq_false_iff {c : Char} : Sse.isBreak c = false ↔ InLine c := by
  simp [Sse.isBreak, InLine]

/-- The reader before the data of an event. -/
def dataReader (name : List Char) : Sse.Reader :=
  Sse.Reader.init.run
    (Sse.fieldText "id".toList [] ++ ['\n'] ++ (Sse.fieldText "event".toList name ++ ['\n']))

theorem run_eventBytes : Sse.Reader.init.run (eventBytes name text) =
    (dataReader name).run (Sse.fieldText "data".toList text ++ ['\n', '\n']) := by
  rw [eventBytes, Sse.Reader.run_append, dataReader]

theorem init_wf : Sse.Reader.init.Wf := fun h => by cases h

/-- An event ends clean. -/
theorem clean_eventBytes : (Sse.Reader.init.run (eventBytes name text)).Clean := by
  rw [run_eventBytes, Sse.Reader.run_append]
  exact ((init_wf.run _).run _).clean

/-- The data begins at the start of a line. -/
theorem dataReader_line : (dataReader name).line = [] ∧ (dataReader name).afterCr = false := by
  rw [dataReader, ← List.append_assoc, Sse.Reader.run_append]
  exact (init_wf.run _).step_lf

/-- The first line of a text, with the break that ends it. -/
theorem exists_firstLine (text : List Char) : ∃ c rest,
    text ++ ['\n', '\n'] = text.takeWhile (fun c => decide (InLine c)) ++ c :: rest ∧
      Sse.isBreak c = true := by
  cases hrest : text.dropWhile fun c => decide (InLine c) with
  | nil =>
    refine ⟨'\n', ['\n'], ?_, rfl⟩
    have hall := List.takeWhile_append_dropWhile (p := fun c => decide (InLine c)) (l := text)
    rw [hrest, List.append_nil] at hall
    rw [hall]
  | cons c rest =>
    refine ⟨c, rest ++ ['\n', '\n'], ?_, ?_⟩
    · conv_lhs => rw [← List.takeWhile_append_dropWhile (p := fun c => decide (InLine c)) (l := text),
        hrest]
      simp
    · have hc : ¬ InLine c := by
        have hhead := List.head?_dropWhile_not (fun c => decide (InLine c)) text
        rw [hrest] at hhead
        simpa using hhead
      by_contra hbreak
      exact hc (isBreak_eq_false_iff.mp (by simpa using hbreak))

theorem takeWhile_isLine (text : List Char) :
    ∀ c ∈ text.takeWhile fun c => decide (InLine c), Sse.isBreak c = false := by
  intro c hc
  have hinLine := List.mem_takeWhile_imp hc
  exact isBreak_eq_false_iff.mpr (by simpa using hinLine)

/-- The reader after the first line of the data. -/
theorem run_firstLine {c : Char} (hc : Sse.isBreak c = true) (line : List Char)
    (hline : ∀ c ∈ line, Sse.isBreak c = false) :
    (dataReader name).run (Sse.fieldText "data".toList line ++ [c]) =
      { dataReader name with
        data := (dataReader name).data ++ line ++ ['\n'], afterCr := decide (c = '\r') } := by
  obtain ⟨hstart, hcr⟩ : (dataReader name).line = [] ∧ (dataReader name).afterCr = false :=
    dataReader_line
  have hkey : ∀ c ∈ "data".toList, Sse.isBreak c = false ∧ c ≠ ':' :=
    List.all_iff_forall_prop.mp (by decide)
  rw [Sse.Reader.run_field hstart hcr hkey hline hc, Sse.Reader.field, if_neg (by decide),
    if_pos rfl, ← hstart]

/-- The data of an event, line by line. -/
theorem exists_dataText (text : List Char) : ∃ c rest,
    Sse.fieldText "data".toList text ++ ['\n', '\n'] = (Sse.fieldText "data".toList
      (text.takeWhile fun c => decide (InLine c)) ++ [c]) ++ rest ∧ Sse.isBreak c = true ∧
    text ++ ['\n', '\n'] = text.takeWhile (fun c => decide (InLine c)) ++ c :: rest := by
  obtain ⟨c, rest, hshape, hc⟩ := exists_firstLine text
  refine ⟨c, rest, ?_, hc, hshape⟩
  rw [Sse.fieldText, List.append_assoc, hshape, Sse.fieldText]
  simp only [List.append_assoc, List.cons_append, List.nil_append]

/-- Every event is read, at least once. -/
theorem length_decode_eventBytes : 1 ≤ (Sse.decode (eventBytes name text)).length := by
  obtain ⟨c, rest, hshape, hc, -⟩ := exists_dataText text
  have hclean : (Sse.Reader.init.run (eventBytes name text)).Clean := clean_eventBytes
  rw [Sse.decode]
  rw [run_eventBytes, hshape, Sse.Reader.run_append,
    run_firstLine hc _ (takeWhile_isLine text)] at hclean ⊢
  exact Nat.lt_of_le_of_lt (Nat.zero_le _) (Sse.Reader.length_lt_of_run (by simp) hclean.data)

/-- The reader before the data of an event whose name is a line. -/
theorem dataReader_of_line (hname : ∀ c ∈ name, InLine c) :
    dataReader name = ⟨[], false, name, [], []⟩ := by
  have hline : ∀ c ∈ name, Sse.isBreak c = false := fun c hc => isBreak_eq_false_iff.mpr (hname c hc)
  have hkey : ∀ c ∈ "event".toList, Sse.isBreak c = false ∧ c ≠ ':' :=
    List.all_iff_forall_prop.mp (by decide)
  have hid : Sse.Reader.init.run (Sse.fieldText "id".toList [] ++ ['\n']) = .init := by decide
  rw [dataReader, Sse.Reader.run_append, hid,
    Sse.Reader.run_field (c := '\n') rfl rfl hkey hline rfl]
  rfl

/-- No line of the text but the first begins with a `d` or an `e`. -/
def NoFieldAfterBreak (text : List Char) : Prop :=
  ∀ pre c d post, text = pre ++ c :: d :: post → Sse.isBreak c = true → d ≠ 'd' ∧ d ≠ 'e'

theorem NoFieldAfterBreak.append_breaks (h : NoFieldAfterBreak text) :
    NoFieldAfterBreak (text ++ ['\n', '\n']) := by
  intro pre c d post hshape hc
  have hsplit : text ++ ['\n', '\n'] = (pre ++ [c, d]) ++ post := by simp [hshape]
  rcases List.append_eq_append_iff.mp hsplit with ⟨extra, hleft, hright⟩ | ⟨extra, hleft, -⟩
  · -- The letter is one of the line breaks, or the last of the text.
    rcases extra with _ | ⟨b, _ | ⟨b', extra⟩⟩
    · exact h pre c d [] (by simpa using hleft.symm) hc
    · obtain rfl : d = b := by
        have hlast := congrArg List.getLast? hleft
        simpa using hlast
      have hd : d = '\n' := by simpa using (List.cons.inj hright).1.symm
      subst hd
      decide
    · have hlast := congrArg List.getLast? hleft
      simp only [List.cons_append, List.cons.injEq] at hright
      obtain ⟨rfl, rfl, hnil⟩ := hright
      obtain ⟨rfl, -⟩ := List.append_eq_nil_iff.mp hnil.symm
      obtain rfl : d = '\n' := by simpa using hlast
      decide
  · exact h pre c d extra (by simpa using hleft) hc

/-- **What an event is read as.** -/
theorem decode_eventBytes (hname : ∀ c ∈ name, InLine c) (hne : name ≠ [])
    (htext : NoFieldAfterBreak text) :
    Sse.decode (eventBytes name text) =
      [⟨name, text.takeWhile fun c => decide (InLine c)⟩] := by
  obtain ⟨c, rest, hshape, hc, hbreak⟩ := exists_dataText text
  have hclean : (Sse.Reader.init.run (eventBytes name text)).Clean := clean_eventBytes
  rw [Sse.decode, ← hclean.settled, run_eventBytes, hshape, Sse.Reader.run_append,
    run_firstLine hc _ (takeWhile_isLine text), dataReader_of_line hname]
  -- The lines that follow are no fields of the event.
  have hall := htext.append_breaks
  rw [hbreak] at hall
  rw [Sse.Reader.Quiet.run]
  · simp [Sse.Reader.settled, Sse.Reader.dispatch, hne]
  · refine ⟨by simp, fun _ d hd => ?_, fun pre c' d post hrest => ?_⟩
    · cases rest with
      | nil => cases hd
      | cons d' rest =>
        obtain rfl : d' = d := by simpa using hd
        exact hall _ c d' rest rfl hc
    · refine hall (text.takeWhile (fun c => decide (InLine c)) ++ c :: pre) c' d post ?_
      simp [hrest]

end

/-! ### Frames and events -/

section

variable {floats : FloatText} {isHttpDate : String → Bool} {text : String} {frame : AcceptedFrame}

theorem acceptFrame_eq_some (h : acceptFrame floats text = some frame) :
    fromStr floats frame.text.toList = some frame.event := by
  obtain ⟨event, hevent, h⟩ := Option.bind_eq_some_iff.mp h
  obtain ⟨name, -, h⟩ := Option.bind_eq_some_iff.mp h
  obtain ⟨terminal, -, h⟩ := Option.bind_eq_some_iff.mp h
  cases h
  exact hevent

/-- A text that is JSON has no line that is a field. -/
theorem noFieldAfterBreak_of_fromStr {text : List Char} {value : Value}
    (h : fromStr floats text = some value) : NoFieldAfterBreak text := by
  rintro pre c d post rfl hc
  exact not_letter_after_break h (by simpa [Sse.isBreak] using hc)

theorem noFieldAfterBreak_of_inLine {text : List Char} (h : ∀ c ∈ text, InLine c) :
    NoFieldAfterBreak text := by
  rintro pre c d post rfl hc
  have hline := isBreak_eq_false_iff.mpr (h c (by simp))
  rw [hc] at hline
  cases hline

theorem takeWhile_of_inLine {text : List Char} (h : ∀ c ∈ text, InLine c) :
    (text.takeWhile fun c => decide (InLine c)) = text := by
  rw [List.takeWhile_eq_self_iff]
  simpa using h

/-- The first line of a JSON text is the text, to a reader of JSON, exactly if only white space
follows it. -/
theorem fromStr_firstLine_iff {text : List Char} {value : Value}
    (h : fromStr floats text = some value) :
    fromStr floats (text.takeWhile fun c => decide (InLine c)) = some value ↔
      ∀ c ∈ text.dropWhile fun c => decide (InLine c), isSpace c = true := by
  have hsplit := List.takeWhile_append_dropWhile (p := fun c => decide (InLine c)) (l := text)
  constructor
  · intro hline
    cases hrest : text.dropWhile fun c => decide (InLine c) with
    | nil => simp
    | cons c rest =>
      have hc : isSpace c = true := by
        have hhead := List.head?_dropWhile_not (fun c => decide (InLine c)) text
        rw [hrest] at hhead
        have hbreak : ¬ InLine c := by simpa using hhead
        simp only [InLine, not_and_or, not_not] at hbreak
        rcases hbreak with rfl | rfl <;> rfl
      rw [hrest] at hsplit
      rw [← hsplit] at h
      intro d hd
      rcases List.mem_cons.mp hd with rfl | hd
      · exact hc
      · exact space_of_complete hline hc h d hd
  · intro hspace
    rw [← fromStr_append_space hspace, hsplit, h]

/-- **One frame.** The event of a frame is read back as the frame, and as nothing else, if and only
if the frame is rewritten or is one line. -/
theorem decode_frame_iff (h : acceptFrame floats text = some frame) :
    (∃ event, Sse.decode (frame.bytes floats isHttpDate) = [event] ∧
        frame.IsEvent floats isHttpDate event) ↔
      (frame.rewritten isHttpDate).isSome = true ∨ frame.OneLine := by
  have hevent := acceptFrame_eq_some h
  unfold AcceptedFrame.bytes AcceptedFrame.IsEvent AcceptedFrame.OneLine
  cases hrewritten : frame.rewritten isHttpDate with
  | some payload =>
    have hprint : ∀ c ∈ payload.print floats, InLine c := payload.print_inLine
    simp only [Option.isSome_some, true_or, iff_true]
    have hname : ∀ c ∈ "response.failed".toList, InLine c :=
      List.all_iff_forall_prop.mp (by decide)
    rw [decode_eventBytes hname (by decide) (noFieldAfterBreak_of_inLine hprint),
      takeWhile_of_inLine hprint]
    exact ⟨_, rfl, rfl⟩
  | none =>
    have hquiet := noFieldAfterBreak_of_fromStr hevent
    simp only [Option.isSome_none, Bool.false_eq_true, false_or]
    constructor
    · rintro ⟨event, hdecode, hname, hdata⟩
      have hmem : event ∈ Sse.decode (eventBytes frame.eventName.toList frame.text.toList) := by
        simp [hdecode]
      obtain ⟨hne, hline⟩ := Sse.name_of_mem_decode hmem
      rw [hname] at hne hline
      have hinLine : ∀ c ∈ frame.eventName.toList, InLine c := fun c hc =>
        isBreak_eq_false_iff.mp (hline c hc)
      rw [decode_eventBytes hinLine hne hquiet] at hdecode
      cases hdecode
      exact ⟨by simpa using hne, hinLine, (fromStr_firstLine_iff hevent).mp hdata⟩
    · rintro ⟨hne, hinLine, hspace⟩
      refine ⟨_, decode_eventBytes hinLine (by simpa using hne) hquiet, rfl, ?_⟩
      exact (fromStr_firstLine_iff hevent).mpr hspace

theorem clean_bytes : (Sse.Reader.init.run (frame.bytes floats isHttpDate)).Clean := by
  unfold AcceptedFrame.bytes
  split <;> exact clean_eventBytes

theorem length_decode_bytes : 1 ≤ (Sse.decode (frame.bytes floats isHttpDate)).length := by
  unfold AcceptedFrame.bytes
  split <;> exact length_decode_eventBytes

/-- The frames that are forwarded were accepted. -/
theorem accepted_of_mem {texts : List String} (h : frame ∈ acceptedFrames floats texts) :
    ∃ text, acceptFrame floats text = some frame := by
  induction texts with
  | nil => cases h
  | cons text texts ih =>
    simp only [acceptedFrames] at h
    split at h
    · cases h
    · next first hfirst =>
      rcases List.mem_cons.mp h with rfl | h
      · exact ⟨text, hfirst⟩
      · split_ifs at h
        · cases h
        · exact ih h

/-- The stream of the frames is read frame by frame. -/
theorem decode_flatMap (frames : List AcceptedFrame) :
    Sse.decode (frames.flatMap (·.bytes floats isHttpDate)) =
      frames.flatMap fun frame => Sse.decode (frame.bytes floats isHttpDate) := by
  induction frames with
  | nil => rfl
  | cons frame frames ih =>
    rw [List.flatMap_cons, Sse.decode_append clean_bytes, ih, List.flatMap_cons]

end

/-- A relation that pairs a list with blocks, none of them empty, pairs each entry with its
block. -/
theorem forall₂_flatMap_iff {α β : Type*} {R : α → β → Prop} {f : α → List β} {l : List α}
    (hf : ∀ a ∈ l, 1 ≤ (f a).length) :
    List.Forall₂ R l (l.flatMap f) ↔ ∀ a ∈ l, ∃ b, f a = [b] ∧ R a b := by
  induction l with
  | nil => simp
  | cons a l ih =>
    have hrest := ih fun b hb => hf b (List.mem_cons_of_mem _ hb)
    obtain ⟨b, bs, hblock⟩ : ∃ b bs, f a = b :: bs :=
      List.exists_cons_of_length_pos (hf a List.mem_cons_self)
    rw [List.flatMap_cons, hblock, List.cons_append, List.forall₂_cons, List.forall_mem_cons, hblock]
    constructor
    · rintro ⟨hb, hpaired⟩
      have hle : l.length ≤ (l.flatMap f).length := by
        have hsum : ∀ (l : List α), (∀ a ∈ l, 1 ≤ (f a).length) →
            l.length ≤ (l.flatMap f).length := by
          intro l
          induction l with
          | nil => simp
          | cons a l ih =>
            intro h
            have := ih fun b hb => h b (List.mem_cons_of_mem _ hb)
            have := h a List.mem_cons_self
            simp only [List.flatMap_cons, List.length_append, List.length_cons]
            omega
        exact hsum l fun b hb => hf b (List.mem_cons_of_mem _ hb)
      have hlength := hpaired.length_eq
      rw [List.length_append] at hlength
      obtain rfl : bs = [] := List.eq_nil_of_length_eq_zero (by omega)
      exact ⟨⟨b, rfl, hb⟩, hrest.mp hpaired⟩
    · rintro ⟨⟨b', hsingle, hb⟩, hall⟩
      cases hsingle
      exact ⟨hb, hrest.mpr hall⟩

/-- **When re-framing is lossless.** Whatever texts arrive, the decoded events are the forwarded
frames, one for one and in order, if and only if every forwarded frame is a rewritten capacity
failure or has a type that is a nonempty line and nothing but white space after its first line. -/
theorem reframed_iff (floats : FloatText) (isHttpDate : String → Bool) (texts : List String) :
    Reframed floats isHttpDate texts ↔
      ∀ frame ∈ acceptedFrames floats texts,
        (frame.rewritten isHttpDate).isSome = true ∨ frame.OneLine := by
  rw [Reframed, decode_flatMap, forall₂_flatMap_iff fun frame _ => length_decode_bytes]
  refine forall₂_congr fun frame hframe => ?_
  obtain ⟨text, htext⟩ := accepted_of_mem hframe
  exact decode_frame_iff htext

/-- A frame with a line break between two fields. -/
def brokenFrame : String := "\x7b\"type\":\"response.created\",\n\"response\":\x7b\x7d\x7d"

/-- **A frame is lost.** The client reads one event, whose data is the first line of the frame and
no JSON. -/
theorem not_reframed_brokenFrame :
    Sse.decode ((acceptedFrames noFloats [brokenFrame]).flatMap
        (·.bytes noFloats fun _ => false)) =
      [⟨"response.created".toList, "\x7b\"type\":\"response.created\",".toList⟩] ∧
    ¬ Reframed noFloats (fun _ => false) [brokenFrame] := by
  have hframes : acceptedFrames noFloats [brokenFrame] = [⟨brokenFrame,
      json [("type", .string "response.created"), ("response", json [])], "response.created",
      none⟩] := by decide +kernel
  have hdecode : Sse.decode ((acceptedFrames noFloats [brokenFrame]).flatMap
      (·.bytes noFloats fun _ => false)) =
      [⟨"response.created".toList, "\x7b\"type\":\"response.created\",".toList⟩] := by decide +kernel
  refine ⟨hdecode, fun h => ?_⟩
  rw [Reframed, hdecode, hframes, List.forall₂_cons] at h
  obtain ⟨-, hdata⟩ := h.1
  have hnone : fromStr noFloats "\x7b\"type\":\"response.created\",".toList = none := by decide +kernel
  rw [hnone] at hdata
  cases hdata

end CodexApi
