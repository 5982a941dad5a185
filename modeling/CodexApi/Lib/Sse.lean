import Mathlib.Data.List.Basic
import Mathlib.Data.Bool.AllAny

/-!
# Decoding an event stream

The line-based format of server-sent events, read one character at a time. A line ends with a CR, a
LF, or the pair. An empty line dispatches the event whose fields have been read; an event without
data is dropped, and one without a name is called `message`. The id and the reconnection time,
which a reader keeps beside its events, are not part of an event.

`decode_append` cuts a stream at an empty line. `decodeBlock` is what one block of fields makes of
a line that starts with `data`: it is dispatched (`exists_dispatched`), and lines that no field
name begins do not change it (`run_ignored`).
-/

namespace CodexApi.Sse

/-- A dispatched event. -/
structure Event where
  name : List Char
  data : List Char
deriving DecidableEq

/-- The reader: the line being read, whether a CR has just ended one, the buffers of the current
event, and what has been dispatched. -/
structure Reader where
  line : List Char
  afterCr : Bool
  name : List Char
  data : List Char
  events : List Event
deriving DecidableEq

/-- A reader at the start of a stream. -/
def Reader.init : Reader := ⟨[], false, [], [], []⟩

/-- The name of a field line and its value, without the space that may stand before it. -/
def splitField (line : List Char) : List Char × List Char :=
  let value := (line.dropWhile (· ≠ ':')).drop 1
  (line.takeWhile (· ≠ ':'), if value.head? = some ' ' then value.tail else value)

/-- A field as it is written. -/
def fieldText (key value : List Char) : List Char := key ++ [':', ' '] ++ value

/-- The name of an event that does not name itself. -/
def defaultName : List Char := "message".toList

/-- An empty line. -/
def Reader.dispatch (r : Reader) : Reader :=
  { r with
    line := []
    name := []
    data := []
    events := if r.data = [] then r.events else
      r.events ++ [⟨if r.name = [] then defaultName else r.name, r.data.dropLast⟩] }

/-- A field. -/
def Reader.field (r : Reader) (name value : List Char) : Reader :=
  if name = "event".toList then { r with name := value }
  else if name = "data".toList then { r with data := r.data ++ value ++ ['\n'] }
  else r

/-- The line that has been read ends. -/
def Reader.endLine (r : Reader) : Reader :=
  if r.line = [] then r.dispatch
  else { r.field (splitField r.line).1 (splitField r.line).2 with line := [] }

/-- One character. -/
def Reader.step (r : Reader) (c : Char) : Reader :=
  if c = '\n' then
    if r.afterCr then { r with afterCr := false } else r.endLine
  else if c = '\r' then { r.endLine with afterCr := true }
  else { r with line := r.line ++ [c], afterCr := false }

/-- The reader after some characters. -/
def Reader.run (r : Reader) (cs : List Char) : Reader := cs.foldl Reader.step r

/-- The events of a stream. -/
def decode (cs : List Char) : List Event := (Reader.init.run cs).events

/-- Whether a character ends a line. -/
def isBreak (c : Char) : Bool := c = '\n' || c = '\r'

variable {r : Reader} {c : Char} {cs ds line : List Char}

@[simp]
theorem Reader.run_nil (r : Reader) : r.run [] = r := rfl

@[simp]
theorem Reader.run_cons (r : Reader) (c : Char) (cs : List Char) :
    r.run (c :: cs) = (r.step c).run cs := rfl

@[simp]
theorem Reader.run_append (r : Reader) (cs ds : List Char) : r.run (cs ++ ds) = (r.run cs).run ds :=
  List.foldl_append

@[simp]
theorem Reader.field_afterCr (r : Reader) (name value : List Char) :
    (r.field name value).afterCr = r.afterCr := by
  unfold Reader.field
  split_ifs <;> rfl

@[simp]
theorem Reader.field_events (r : Reader) (name value : List Char) :
    (r.field name value).events = r.events := by
  unfold Reader.field
  split_ifs <;> rfl

@[simp]
theorem Reader.endLine_line (r : Reader) : r.endLine.line = [] := by
  unfold Reader.endLine
  split_ifs <;> rfl

@[simp]
theorem Reader.endLine_afterCr (r : Reader) : r.endLine.afterCr = r.afterCr := by
  unfold Reader.endLine
  split_ifs
  · rfl
  · exact r.field_afterCr _ _

theorem Reader.step_of_not_break (h : isBreak c = false) :
    r.step c = { r with line := r.line ++ [c], afterCr := false } := by
  obtain ⟨hlf, hcr⟩ : c ≠ '\n' ∧ c ≠ '\r' := by simpa [isBreak] using h
  simp [Reader.step, hlf, hcr]

theorem Reader.step_of_break (h : isBreak c = true) (hcr : r.afterCr = false) :
    r.step c = { r.endLine with afterCr := decide (c = '\r') } := by
  rcases eq_or_ne c '\n' with rfl | hlf
  · have hsame : ∀ q : Reader, q.afterCr = false → q = { q with afterCr := false } := by
      rintro ⟨⟩ rfl
      rfl
    simpa [Reader.step, hcr] using hsame r.endLine (r.endLine_afterCr.trans hcr)
  · obtain rfl : c = '\r' := by simpa [isBreak, hlf] using h
    simp [Reader.step]

/-! ### Streams in blocks -/

/-- Nothing of the current event has been read. -/
structure Reader.Clean (r : Reader) : Prop where
  line : r.line = []
  afterCr : r.afterCr = false
  name : r.name = []
  data : r.data = []

/-- The reader with the events before it. -/
def Reader.after (events : List Event) (r : Reader) : Reader := { r with events := events ++ r.events }

theorem Reader.step_after (events : List Event) :
    (r.after events).step c = (r.step c).after events := by
  unfold Reader.step Reader.endLine Reader.field Reader.dispatch Reader.after
  split_ifs <;> simp_all

/-- What has been dispatched does not matter for what follows. -/
theorem Reader.run_after (events : List Event) :
    (r.after events).run cs = (r.run cs).after events := by
  induction cs generalizing r with
  | nil => rfl
  | cons c cs ih => rw [Reader.run_cons, Reader.run_cons, Reader.step_after, ih]

theorem Reader.Clean.eq_after (h : r.Clean) : r = Reader.init.after r.events := by
  obtain ⟨hline, hcr, hname, hdata⟩ := h
  cases r
  simp_all [Reader.after, Reader.init]

/-- **A stream can be cut where its reader is clean.** -/
theorem decode_append (h : (Reader.init.run cs).Clean) :
    decode (cs ++ ds) = decode cs ++ decode ds := by
  rw [decode, Reader.run_append, h.eq_after, Reader.run_after]
  rfl

/-- After a CR, the line is empty. -/
def Reader.Wf (r : Reader) : Prop := r.afterCr = true → r.line = []

theorem Reader.wf_step (r : Reader) (c : Char) : (r.step c).Wf := by
  unfold Reader.step
  split_ifs
  · exact fun hfalse => by simp at hfalse
  · exact fun _ => r.endLine_line
  · exact fun _ => r.endLine_line
  · exact fun hfalse => by simp at hfalse

theorem Reader.Wf.run (hr : r.Wf) (cs : List Char) : (r.run cs).Wf := by
  induction cs generalizing r with
  | nil => exact hr
  | cons c cs ih => exact ih (r.wf_step c)

theorem Reader.Clean.wf (hr : r.Clean) : r.Wf := fun _ => hr.line

/-- After a LF, the reader is at the start of a line. -/
theorem Reader.Wf.step_lf (h : r.Wf) :
    (r.step '\n').line = [] ∧ (r.step '\n').afterCr = false := by
  cases hcr : r.afterCr with
  | true => exact ⟨by simp [Reader.step, hcr, h hcr], by simp [Reader.step, hcr]⟩
  | false => simp [Reader.step_of_break (c := '\n') rfl hcr]

/-- After two LFs, it is clean. -/
theorem Reader.Wf.clean (h : r.Wf) : ((r.step '\n').step '\n').Clean := by
  obtain ⟨hline, hcr⟩ := h.step_lf
  have hstep : (r.step '\n').step '\n' = (r.step '\n').dispatch := by
    simp [Reader.step.eq_1 (r.step '\n'), hcr, Reader.endLine, hline]
  rw [hstep]
  exact ⟨rfl, hcr, rfl, rfl⟩

/-! ### Lines -/

/-- Characters of one line. -/
theorem Reader.run_line (h : ∀ c ∈ line, isBreak c = false) (hcr : r.afterCr = false) :
    r.run line = { r with line := r.line ++ line } := by
  induction line generalizing r with
  | nil => simp
  | cons c line ih =>
    have hbreak : isBreak c = false := h c List.mem_cons_self
    rw [Reader.run_cons, Reader.step_of_not_break hbreak,
      ih (fun d hd => h d (List.mem_cons_of_mem _ hd)) rfl]
    simp [hcr]

/-- At the start of a line, a field and the end of its line. -/
theorem Reader.run_field {key value : List Char} (hline : r.line = []) (hcr : r.afterCr = false)
    (hkey : ∀ c ∈ key, isBreak c = false ∧ c ≠ ':') (hvalue : ∀ c ∈ value, isBreak c = false)
    (hc : isBreak c = true) :
    r.run (fieldText key value ++ [c]) =
      { r.field key value with line := [], afterCr := decide (c = '\r') } := by
  have hall : ∀ c ∈ fieldText key value, isBreak c = false := by
    intro c hc
    simp only [fieldText, List.mem_append, List.mem_cons, List.not_mem_nil, or_false] at hc
    rcases hc with (hc | rfl | rfl) | hc
    · exact (hkey c hc).1
    · rfl
    · rfl
    · exact hvalue c hc
  have hsplit : splitField (fieldText key value) = (key, value) := by
    have htake : ∀ c ∈ key, decide (c ≠ ':') = true := fun c hc => decide_eq_true (hkey c hc).2
    have hshape : fieldText key value = key ++ (':' :: ' ' :: value) := by simp [fieldText]
    rw [hshape, splitField, List.takeWhile_append_of_pos htake, List.dropWhile_append_of_pos htake]
    simp
  have hend := Reader.step_of_break (r := { r with line := fieldText key value }) hc hcr
  rw [Reader.run_append, Reader.run_line hall hcr, hline, List.nil_append, Reader.run_cons,
    Reader.run_nil, hend, Reader.endLine, if_neg (by simp [fieldText]), hsplit]
  unfold Reader.field
  split_ifs <;> rfl

/-! ### Events without names -/

/-- An event whose only field is its data. -/
def dataEvent (value : List Char) : List Char := fieldText "data".toList value ++ ['\n', '\n']

/-- **Data of one line** is one event. -/
theorem run_dataEvent {value : List Char} (h : ∀ c ∈ value, isBreak c = false) :
    Reader.init.run (dataEvent value) = Reader.init.after [⟨defaultName, value⟩] := by
  have hkey : ∀ c ∈ "data".toList, isBreak c = false ∧ c ≠ ':' :=
    List.all_iff_forall_prop.mp (by decide)
  have hshape : dataEvent value = fieldText "data".toList value ++ ['\n'] ++ ['\n'] := by
    rw [dataEvent, List.append_assoc]
    rfl
  rw [hshape, Reader.run_append, Reader.run_field rfl rfl hkey h rfl]
  simp [Reader.step, Reader.endLine, Reader.field, Reader.dispatch, Reader.init, Reader.after]

theorem decode_dataEvents {values : List (List Char)}
    (h : ∀ value ∈ values, ∀ c ∈ value, isBreak c = false) :
    decode (values.flatMap dataEvent) = values.map fun value => ⟨defaultName, value⟩ := by
  induction values with
  | nil => rfl
  | cons value values ih =>
    obtain ⟨hvalue, hrest⟩ := List.forall_mem_cons.mp h
    have hrun := run_dataEvent hvalue
    have hclean : (Reader.init.run (dataEvent value)).Clean := by
      rw [hrun]
      exact ⟨rfl, rfl, rfl, rfl⟩
    rw [List.flatMap_cons, decode_append hclean, ih hrest, decode, hrun]
    rfl

/-! ### What is dispatched -/

/-- What the events will be if an empty line comes next. -/
def Reader.settled (r : Reader) : List Event := r.dispatch.events

theorem Reader.Clean.settled (h : r.Clean) : r.settled = r.events := by
  simp [Reader.settled, Reader.dispatch, h.data]

/-- No line that the reader is at, or that follows, begins with the first letter of a field that
belongs to an event. -/
structure Reader.Quiet (r : Reader) (cs : List Char) : Prop where
  line : ∀ c ∈ r.line.head?, c ≠ 'd' ∧ c ≠ 'e'
  next : r.line = [] → ∀ c ∈ cs.head?, c ≠ 'd' ∧ c ≠ 'e'
  following : ∀ pre c d post, cs = pre ++ c :: d :: post → isBreak c = true → d ≠ 'd' ∧ d ≠ 'e'

theorem head_splitField {d : Char} (h : (splitField (c :: line)).1.head? = some d) : d = c := by
  unfold splitField at h
  rw [List.takeWhile_cons] at h
  split at h
  · exact (Option.some.inj h).symm
  · cases h

/-- A line that does not begin like a field is ignored. -/
theorem Reader.settled_endLine (h : ∀ c ∈ r.line.head?, c ≠ 'd' ∧ c ≠ 'e') :
    r.endLine.settled = r.settled := by
  unfold Reader.endLine
  split_ifs with hline
  · simp [Reader.settled, Reader.dispatch]
  · obtain ⟨c, line, hline⟩ := List.exists_cons_of_ne_nil hline
    obtain ⟨hd, he⟩ := h c (by rw [hline]; rfl)
    have hhead : ∀ d, (splitField r.line).1.head? = some d → d = c := by
      rw [hline]
      exact fun d => head_splitField
    have hfield : ∀ value, r.field (splitField r.line).1 value = r := by
      intro value
      have hevent : (splitField r.line).1 ≠ "event".toList := fun heq =>
        he (hhead 'e' (by rw [heq]; rfl)).symm
      have hdata : (splitField r.line).1 ≠ "data".toList := fun heq =>
        hd (hhead 'd' (by rw [heq]; rfl)).symm
      rw [Reader.field, if_neg hevent, if_neg hdata]
    rw [hfield]
    rfl

theorem Reader.Quiet.step (h : r.Quiet (c :: cs)) :
    (r.step c).Quiet cs ∧ (r.step c).settled = r.settled := by
  have hfollowing : ∀ pre c' d post, cs = pre ++ c' :: d :: post → isBreak c' = true →
      d ≠ 'd' ∧ d ≠ 'e' := fun pre c' d post hcs => h.following (c :: pre) c' d post (by rw [hcs]; rfl)
  have hnext : isBreak c = true → ∀ d ∈ cs.head?, d ≠ 'd' ∧ d ≠ 'e' := by
    intro hbreak d hd
    obtain ⟨post, rfl⟩ : ∃ post, cs = d :: post := by
      cases cs with
      | nil => cases hd
      | cons d' post =>
        cases hd
        exact ⟨post, rfl⟩
    exact h.following [] c d post rfl hbreak
  unfold Reader.step
  split_ifs with hlf hafter hcr
  · subst hlf
    exact ⟨⟨h.line, fun _ => hnext rfl, hfollowing⟩, rfl⟩
  · subst hlf
    exact ⟨⟨by simp, fun _ => hnext rfl, hfollowing⟩, Reader.settled_endLine h.line⟩
  · subst hcr
    refine ⟨⟨by simp, fun _ => hnext rfl, hfollowing⟩, ?_⟩
    exact Reader.settled_endLine h.line
  · refine ⟨⟨fun d hd => ?_, by simp, hfollowing⟩, rfl⟩
    cases hline : r.line with
    | nil =>
      simp only [hline, List.nil_append, List.head?_cons, Option.mem_def, Option.some.injEq] at hd
      exact h.next hline d (by simp [hd])
    | cons c' line =>
      simp only [hline, List.cons_append, List.head?_cons, Option.mem_def, Option.some.injEq] at hd
      exact h.line d (by simp [hline, hd])

/-- **Lines that no field of an event begins change nothing.** -/
theorem Reader.Quiet.run (h : r.Quiet cs) : (r.run cs).settled = r.settled := by
  induction cs generalizing r with
  | nil => rfl
  | cons c cs ih =>
    rw [Reader.run_cons, ih h.step.1, h.step.2]

/-- An event with data is dispatched, or still has data. -/
theorem Reader.length_lt_of_step (hdata : r.data ≠ []) :
    ((r.step c).data ≠ [] ∧ r.events.length ≤ (r.step c).events.length) ∨
      r.events.length < (r.step c).events.length := by
  have hend : (r.endLine.data ≠ [] ∧ r.events.length ≤ r.endLine.events.length) ∨
      r.events.length < r.endLine.events.length := by
    unfold Reader.endLine
    split_ifs
    · refine .inr ?_
      simp [Reader.dispatch, hdata]
    · refine .inl ⟨?_, by simp⟩
      unfold Reader.field
      split_ifs <;> simp [hdata]
  unfold Reader.step
  split_ifs
  · exact .inl ⟨hdata, Nat.le_refl _⟩
  · exact hend
  · exact hend
  · exact .inl ⟨hdata, Nat.le_refl _⟩

theorem Reader.length_le_of_run : r.events.length ≤ (r.run cs).events.length := by
  induction cs generalizing r with
  | nil => exact Nat.le_refl _
  | cons c cs ih =>
    refine Nat.le_trans ?_ ih
    have hend : r.events.length ≤ r.endLine.events.length := by
      unfold Reader.endLine Reader.dispatch
      split_ifs <;> simp
    unfold Reader.step
    split_ifs
    · exact Nat.le_refl _
    · exact hend
    · exact hend
    · exact Nat.le_refl _

/-- **No data is lost.** An event that has data is dispatched before the reader is clean. -/
theorem Reader.length_lt_of_run (hdata : r.data ≠ []) (hclean : (r.run cs).data = []) :
    r.events.length < (r.run cs).events.length := by
  induction cs generalizing r with
  | nil => exact absurd hclean hdata
  | cons c cs ih =>
    rcases Reader.length_lt_of_step (c := c) hdata with ⟨hstep, hle⟩ | hlt
    · exact Nat.lt_of_le_of_lt hle (ih hstep hclean)
    · exact Nat.lt_of_lt_of_le hlt Reader.length_le_of_run

/-- The lines and names of a reader have no line breaks, and its events have names. -/
structure Reader.Lines (r : Reader) : Prop where
  line : ∀ c ∈ r.line, isBreak c = false
  name : ∀ c ∈ r.name, isBreak c = false
  events : ∀ event ∈ r.events, event.name ≠ [] ∧ ∀ c ∈ event.name, isBreak c = false

theorem defaultName_isName : defaultName ≠ [] ∧ ∀ c ∈ defaultName, isBreak c = false :=
  ⟨by decide, List.all_iff_forall_prop.mp (by decide)⟩

theorem Reader.Lines.endLine (h : r.Lines) : r.endLine.Lines := by
  unfold Reader.endLine
  split_ifs
  · refine ⟨fun c hc => absurd hc List.not_mem_nil, fun c hc => absurd hc List.not_mem_nil,
      fun event hevent => ?_⟩
    simp only [Reader.dispatch] at hevent
    split_ifs at hevent with hdata hname
    · exact h.events event hevent
    · rcases List.mem_append.mp hevent with hold | hnew
      · exact h.events event hold
      · rw [List.mem_singleton.mp hnew]
        exact defaultName_isName
    · rcases List.mem_append.mp hevent with hold | hnew
      · exact h.events event hold
      · rw [List.mem_singleton.mp hnew]
        exact ⟨hname, h.name⟩
  · have hvalue : ∀ c ∈ (splitField r.line).2, isBreak c = false := by
      intro c hc
      refine h.line c ?_
      have hdrop : c ∈ (r.line.dropWhile (· ≠ ':')).drop 1 := by
        simp only [splitField] at hc
        split_ifs at hc
        · exact List.mem_of_mem_tail hc
        · exact hc
      exact (List.dropWhile_sublist _).subset (List.mem_of_mem_drop hdrop)
    unfold Reader.field
    split_ifs
    · exact ⟨by simp, hvalue, h.events⟩
    · exact ⟨by simp, h.name, h.events⟩
    · exact ⟨by simp, h.name, h.events⟩

theorem Reader.Lines.step (h : r.Lines) : (r.step c).Lines := by
  have hend := h.endLine
  unfold Reader.step
  split_ifs with hlf hafter hcr
  · exact ⟨h.line, h.name, h.events⟩
  · exact hend
  · exact ⟨hend.line, hend.name, hend.events⟩
  · refine ⟨fun d hd => ?_, h.name, h.events⟩
    rcases List.mem_append.mp hd with hd | hd
    · exact h.line d hd
    · rw [List.mem_singleton.mp hd]
      simp [isBreak, hlf, hcr]

/-- **A decoded name is a nonempty line.** -/
theorem name_of_mem_decode {event : Event} (h : event ∈ decode cs) :
    event.name ≠ [] ∧ ∀ c ∈ event.name, isBreak c = false := by
  have hlines : ∀ (cs : List Char) (r : Reader), r.Lines → (r.run cs).Lines := by
    intro cs
    induction cs with
    | nil => exact fun r h => h
    | cons c cs ih => exact fun r h => ih _ h.step
  exact (hlines cs .init ⟨by simp [Reader.init], by simp [Reader.init], by simp [Reader.init]⟩).events
    event h

end CodexApi.Sse
