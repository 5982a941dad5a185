import CodexApi.Json
import Mathlib.Data.Bool.AllAny

/-!
# JSON text

`fromStr` reads a JSON text as `serde_json::from_str` does: one character at a time, with the
containers that are open on a stack. Numbers are converted when they end; how a literal that is no
64-bit integer becomes a finite float, and how a float is printed, are parameters (`FloatText`). A
repeated key keeps its last value, raw control characters and lone surrogates are refused in
strings, and at most 127 containers may be open.

What is read binds no key of an object twice (`keyed_fromStr`). Three facts about line breaks follow: white space at the end of a text does not matter
(`fromStr_append_space`); a text that goes on after white space goes on with no letter but those of
a literal (`letter_after_space`); and a text that is complete before a line break is complete
(`space_of_complete`). `Value.print` is the compact text of a value; it has no line breaks.
-/

namespace CodexApi

/-- How floats are read and printed. A literal out of range is refused. -/
structure FloatText where
  read : List Char → Option ℚ
  print : ℚ → List Char
  print_line : ∀ (q : ℚ), ∀ c ∈ print q, c ≠ '\n' ∧ c ≠ '\r'

/-- A reader for texts without floats. -/
def noFloats : FloatText :=
  ⟨fun _ => none, fun _ => ['0'], fun _ => List.all_iff_forall_prop.mp (by decide)⟩

namespace JsonText

/-! ### The reader -/

/-- White space. -/
def isSpace (c : Char) : Bool := c = ' ' || c = '\n' || c = '\t' || c = '\r'

/-- Whether a character may belong to a number. -/
def isNumberChar (c : Char) : Bool :=
  c.isDigit || c = '-' || c = '+' || c = '.' || c = 'e' || c = 'E'

/-- The value of a hexadecimal digit. -/
def hexDigit (c : Char) : Option Nat :=
  if c.isDigit then some (c.toNat - 48)
  else if 'a' ≤ c ∧ c ≤ 'f' then some (c.toNat - 87)
  else if 'A' ≤ c ∧ c ≤ 'F' then some (c.toNat - 55)
  else none

/-- Where an escape sequence of a string is: after a backslash, before the remaining digits of
`\u`, or before the second half of a surrogate pair. -/
inductive Escape
  | none
  | backslash
  | unicode (digits code : Nat) (high : Option Nat)
  | lowBackslash (high : Nat)
  | lowU (high : Nat)
deriving DecidableEq

/-- A container that is open: its items, or its fields and the key whose value is read. -/
inductive Frame
  | array (items : List Value)
  | object (fields : List (String × Value))
  | member (fields : List (String × Value)) (key : String)

/-- The literal names. -/
inductive Literal
  | trueName
  | falseName
  | nullName

/-- How a literal is spelled. -/
def Literal.text : Literal → List Char
  | trueName => "true".toList
  | falseName => "false".toList
  | nullName => "null".toList

/-- What a literal denotes. -/
def Literal.value : Literal → Value
  | trueName => .bool true
  | falseName => .bool false
  | nullName => .null

/-- What the reader is at. `closing` says that an empty container may end here. -/
inductive Mode
  | value (closing : Bool)
  | key (closing : Bool)
  | colon (key : String)
  | literal (name : Literal) (read : Nat)
  | number (lexeme : List Char)
  | string (isKey : Bool) (chars : List Char) (escape : Escape)
  | after (value : Value)

/-- The reader. -/
structure Reader where
  stack : List Frame
  mode : Mode

/-- The number of open containers that is refused. -/
def recursionLimit : Nat := 128

section

variable (floats : FloatText)

/-- A number whose sign, digits and rest are known. -/
def numberOf (lexeme : List Char) (negative : Bool) (digits rest : List Char) : Option Number :=
  if digits = [] ∨ (digits.head? = some '0' ∧ digits ≠ ['0']) then none
  else
    let magnitude := digits.foldl (fun n c => 10 * n + (c.toNat - 48)) 0
    if rest = [] then
      if negative then
        if 0 < magnitude ∧ magnitude ≤ 2 ^ 63 then some (.negInt (magnitude - 1))
        else (floats.read lexeme).map .float
      else if magnitude < 2 ^ 64 then some (.posInt (.ofNat magnitude))
      else (floats.read lexeme).map .float
    else
      let (fraction, exponent) := match rest with
        | '.' :: rest => (some (rest.takeWhile Char.isDigit), rest.dropWhile Char.isDigit)
        | rest => (none, rest)
      let exponentOk := match exponent with
        | [] => true
        | e :: exponent =>
          let digits := match exponent with
            | '+' :: digits | '-' :: digits => digits
            | digits => digits
          (e = 'e' || e = 'E') && digits ≠ [] && digits.all Char.isDigit
      if fraction ≠ some [] ∧ exponentOk then (floats.read lexeme).map .float else none

/-- The number a literal denotes. -/
def number (lexeme : List Char) : Option Number :=
  let unsigned := if lexeme.head? = some '-' then lexeme.tail else lexeme
  numberOf floats lexeme (lexeme.head? = some '-') (unsigned.takeWhile Char.isDigit)
    (unsigned.dropWhile Char.isDigit)

/-- A container opens. -/
def push (r : Reader) (frame : Frame) (mode : Mode) : Option Reader :=
  if r.stack.length + 1 < recursionLimit then some ⟨frame :: r.stack, mode⟩ else none

/-- The first character of a value. -/
def stepValue (r : Reader) (closing : Bool) (c : Char) : Option Reader :=
  if isSpace c then some r
  else if c = '{' then push r (.object []) (.key true)
  else if c = '[' then push r (.array []) (.value true)
  else if c = '"' then some { r with mode := .string false [] .none }
  else if c.isDigit || c = '-' then some { r with mode := .number [c] }
  else if c = 't' then some { r with mode := .literal .trueName 1 }
  else if c = 'f' then some { r with mode := .literal .falseName 1 }
  else if c = 'n' then some { r with mode := .literal .nullName 1 }
  else
    match r.stack, closing, decide (c = ']') with
    | .array items :: stack, true, true => some ⟨stack, .after (.array items)⟩
    | _, _, _ => none

/-- The first character of a key. -/
def stepKey (r : Reader) (closing : Bool) (c : Char) : Option Reader :=
  if isSpace c then some r
  else if c = '"' then some { r with mode := .string true [] .none }
  else
    match r.stack, closing, decide (c = '}') with
    | .object fields :: stack, true, true => some ⟨stack, .after (.object fields)⟩
    | _, _, _ => none

/-- A character between a key and its value. -/
def stepColon (r : Reader) (key : String) (c : Char) : Option Reader :=
  if isSpace c then some r
  else
    match r.stack, decide (c = ':') with
    | .object fields :: stack, true => some ⟨.member fields key :: stack, .value false⟩
    | _, _ => none

/-- A character after a value. -/
def stepAfter (r : Reader) (value : Value) (c : Char) : Option Reader :=
  if isSpace c then some r
  else
    match r.stack with
    | .array items :: stack =>
      if c = ',' then some ⟨.array (items ++ [value]) :: stack, .value false⟩
      else if c = ']' then some ⟨stack, .after (.array (items ++ [value]))⟩
      else none
    | .member fields key :: stack =>
      if c = ',' then some ⟨.object (Assoc.insert key value fields) :: stack, .key false⟩
      else if c = '}' then some ⟨stack, .after (.object (Assoc.insert key value fields))⟩
      else none
    | _ => none

/-- A string ends. -/
def closeString (r : Reader) (isKey : Bool) (chars : List Char) : Reader :=
  let s := String.ofList chars
  { r with mode := if isKey then .colon s else .after (.string s) }

/-- The character of a code point, unless it is a surrogate. -/
def charOf (code : Nat) : Option Char :=
  if h : code.isValidChar then some (Char.ofNatAux code h) else none

/-- A `\u` escape is complete. -/
def unicodeMode (isKey : Bool) (chars : List Char) (code : Nat) : Option Nat → Option Mode
  | none =>
    if 0xD800 ≤ code ∧ code ≤ 0xDBFF then some (.string isKey chars (.lowBackslash code))
    else (charOf code).map fun c => .string isKey (chars ++ [c]) .none
  | some high =>
    if 0xDC00 ≤ code ∧ code ≤ 0xDFFF then
      (charOf (0x10000 + (high - 0xD800) * 0x400 + (code - 0xDC00))).map fun c =>
        .string isKey (chars ++ [c]) .none
    else none

/-- The character an escape letter stands for. -/
def escapeLetter (c : Char) : Option Char :=
  if c = '"' ∨ c = '\\' ∨ c = '/' then some c
  else if c = 'b' then some '\x08'
  else if c = 'f' then some '\x0c'
  else if c = 'n' then some '\n'
  else if c = 'r' then some '\r'
  else if c = 't' then some '\t'
  else none

/-- A character of a string. -/
def stepString (r : Reader) (isKey : Bool) (chars : List Char) (escape : Escape) (c : Char) :
    Option Reader :=
  match escape with
  | .none =>
    if c = '"' then some (closeString r isKey chars)
    else if c = '\\' then some { r with mode := .string isKey chars .backslash }
    else if c.toNat < 32 then none
    else some { r with mode := .string isKey (chars ++ [c]) .none }
  | .backslash =>
    if c = 'u' then some { r with mode := .string isKey chars (.unicode 4 0 .none) }
    else (escapeLetter c).map fun c => { r with mode := .string isKey (chars ++ [c]) .none }
  | .unicode digits code high =>
    match hexDigit c with
    | .none => none
    | some d =>
      if digits = 1 then
        (unicodeMode isKey chars (16 * code + d) high).map fun mode => { r with mode }
      else some { r with mode := .string isKey chars (.unicode (digits - 1) (16 * code + d) high) }
  | .lowBackslash high =>
    if c = '\\' then some { r with mode := .string isKey chars (.lowU high) } else none
  | .lowU high =>
    if c = 'u' then some { r with mode := .string isKey chars (.unicode 4 0 (some high)) } else none

/-- One character. -/
def step (r : Reader) (c : Char) : Option Reader :=
  match r.mode with
  | .value closing => stepValue r closing c
  | .key closing => stepKey r closing c
  | .colon key => stepColon r key c
  | .literal name read =>
    if name.text[read]? = some c then
      let mode := if read + 1 = name.text.length then .after name.value else .literal name (read + 1)
      some { r with mode }
    else none
  | .number lexeme =>
    if isNumberChar c then some { r with mode := .number (lexeme ++ [c]) }
    else
      match number floats lexeme with
      | some n => stepAfter { r with mode := .after (.number n) } (.number n) c
      | none => none
  | .string isKey chars escape => stepString r isKey chars escape c
  | .after value => stepAfter r value c

/-- The reader after some characters. -/
def run (r : Reader) (cs : List Char) : Option Reader := cs.foldlM (step floats) r

/-- The value of a text that ends here. -/
def finish (r : Reader) : Option Value :=
  match r.stack, r.mode with
  | [], .after value => some value
  | [], .number lexeme => (number floats lexeme).map .number
  | _, _ => none

/-- A reader at the start of a text. -/
def init : Reader := ⟨[], .value false⟩

/-- `serde_json::from_str`. -/
def fromStr (cs : List Char) : Option Value := (run floats init cs).bind (finish floats)

end

example : fromStr noFloats
    " \x7b\"b\": [-2, true], \"a\": \"\\u00e9\\ud83d\\ude00\\n\", \"b\": null\x7d\n".toList =
    some (json [("a", .string "é😀\n"), ("b", .null)]) := by decide +kernel

/-! ### Objects -/

/-- What a container has read binds no key twice. -/
def Frame.Keyed : Frame → Prop
  | .array _ => True
  | .object fields | .member fields _ => Assoc.Ordered fields

/-- What a reader has read binds no key twice. -/
structure Reader.Keyed (r : Reader) : Prop where
  stack : ∀ frame ∈ r.stack, frame.Keyed
  value : ∀ value, r.mode = .after value → value.Keyed

section

variable {floats : FloatText} {r s : Reader} {c : Char}

/-- A reader in a mode that is no complete value. -/
theorem Reader.Keyed.enter {mode : Mode} (hr : r.Keyed) (h : ∀ value, mode ≠ .after value) :
    Reader.Keyed { r with mode } :=
  ⟨hr.stack, fun value hvalue => absurd hvalue (h value)⟩

theorem keyed_push {mode : Mode} (frame : Frame) (hr : r.Keyed) (hframe : frame.Keyed)
    (hmode : ∀ value, mode ≠ .after value) (h : push r frame mode = some s) : s.Keyed := by
  unfold push at h
  split at h
  · cases h
    refine ⟨fun inner hinner => ?_, fun value hvalue => absurd hvalue (hmode value)⟩
    rcases List.mem_cons.mp hinner with rfl | hinner
    · exact hframe
    · exact hr.stack inner hinner
  · cases h

theorem keyed_stepValue {closing : Bool} (hr : r.Keyed) (h : stepValue r closing c = some s) :
    s.Keyed := by
  unfold stepValue at h
  split_ifs at h
  · cases h
    exact hr
  · exact keyed_push (.object []) hr Assoc.ordered_nil (by simp) h
  · exact keyed_push (.array []) hr trivial (by simp) h
  all_goals try (cases h; exact hr.enter (by simp))
  split at h
  · next items stack hstack _ =>
    cases h
    refine ⟨fun frame hframe => hr.stack frame (hstack ▸ List.mem_cons_of_mem _ hframe), ?_⟩
    rintro value ⟨⟩
    exact Value.keyed_of_isObject rfl
  · cases h

theorem keyed_stepKey {closing : Bool} (hr : r.Keyed) (h : stepKey r closing c = some s) :
    s.Keyed := by
  unfold stepKey at h
  split_ifs at h
  · cases h
    exact hr
  · cases h
    exact hr.enter (by simp)
  split at h
  · next fields stack hstack _ =>
    cases h
    refine ⟨fun frame hframe => hr.stack frame (hstack ▸ List.mem_cons_of_mem _ hframe), ?_⟩
    rintro value ⟨⟩
    exact Value.keyed_object.mpr (hr.stack (.object fields) (hstack ▸ List.mem_cons_self))
  · cases h

theorem keyed_stepColon {key : String} (hr : r.Keyed) (h : stepColon r key c = some s) :
    s.Keyed := by
  unfold stepColon at h
  split at h
  · cases h
    exact hr
  split at h
  · next fields stack hstack _ =>
    cases h
    refine ⟨fun frame hframe => ?_, by simp⟩
    rcases List.mem_cons.mp hframe with rfl | hframe
    · exact hr.stack (.object fields) (hstack ▸ List.mem_cons_self)
    · exact hr.stack frame (hstack ▸ List.mem_cons_of_mem _ hframe)
  · cases h

theorem keyed_stepAfter {value : Value} (hr : r.Keyed) (h : stepAfter r value c = some s) :
    s.Keyed := by
  unfold stepAfter at h
  split at h
  · cases h
    exact hr
  split at h
  · next items stack hstack =>
    have hrest : ∀ frame ∈ stack, frame.Keyed := fun frame hframe =>
      hr.stack frame (hstack ▸ List.mem_cons_of_mem _ hframe)
    split_ifs at h
    · cases h
      refine ⟨fun frame hframe => ?_, by simp⟩
      rcases List.mem_cons.mp hframe with rfl | hframe
      · trivial
      · exact hrest frame hframe
    · cases h
      refine ⟨hrest, ?_⟩
      rintro value ⟨⟩
      exact Value.keyed_of_isObject rfl
  · next fields key stack hstack =>
    have hrest : ∀ frame ∈ stack, frame.Keyed := fun frame hframe =>
      hr.stack frame (hstack ▸ List.mem_cons_of_mem _ hframe)
    have hfields : Assoc.Ordered fields :=
      hr.stack (.member fields key) (hstack ▸ List.mem_cons_self)
    split_ifs at h
    · cases h
      refine ⟨fun frame hframe => ?_, by simp⟩
      rcases List.mem_cons.mp hframe with rfl | hframe
      · exact hfields.insert
      · exact hrest frame hframe
    · cases h
      refine ⟨hrest, ?_⟩
      rintro value ⟨⟩
      exact Value.keyed_object.mpr hfields.insert
  · cases h

theorem keyed_stepString {isKey : Bool} {chars : List Char} {escape : Escape} (hr : r.Keyed)
    (h : stepString r isKey chars escape c = some s) : s.Keyed := by
  unfold stepString at h
  split at h
  · split_ifs at h
    · cases h
      refine ⟨hr.stack, fun value hvalue => ?_⟩
      cases isKey with
      | true => cases hvalue
      | false =>
        cases hvalue
        exact Value.keyed_of_isObject rfl
    · cases h
      exact hr.enter (by simp)
    · cases h
      exact hr.enter (by simp)
  · split_ifs at h
    · cases h
      exact hr.enter (by simp)
    · obtain ⟨letter, -, rfl⟩ := Option.map_eq_some_iff.mp h
      exact hr.enter (by simp)
  · split at h
    · cases h
    · split_ifs at h
      · obtain ⟨mode, hmode, rfl⟩ := Option.map_eq_some_iff.mp h
        refine hr.enter fun value hvalue => ?_
        subst hvalue
        unfold unicodeMode at hmode
        split at hmode <;> split_ifs at hmode <;> simp at hmode
      · cases h
        exact hr.enter (by simp)
  · split_ifs at h
    cases h
    exact hr.enter (by simp)
  · split_ifs at h
    cases h
    exact hr.enter (by simp)

/-- **A character keeps the keys apart.** -/
theorem keyed_step (hr : r.Keyed) (h : step floats r c = some s) : s.Keyed := by
  obtain ⟨stack, mode⟩ := r
  cases mode with
  | value closing => exact keyed_stepValue hr h
  | key closing => exact keyed_stepKey hr h
  | colon key => exact keyed_stepColon hr h
  | literal name read =>
    simp only [step] at h
    split at h
    · cases h
      refine ⟨hr.stack, fun value hvalue => ?_⟩
      simp only at hvalue
      split at hvalue
      · cases hvalue
        cases name <;> exact Value.keyed_of_isObject rfl
      · cases hvalue
    · cases h
  | number lexeme =>
    simp only [step] at h
    split at h
    · cases h
      exact hr.enter (by simp)
    · split at h
      · next n _ =>
        refine keyed_stepAfter (r := ⟨stack, .after (.number n)⟩) ⟨hr.stack, ?_⟩ h
        rintro value ⟨⟩
        exact Value.keyed_of_isObject rfl
      · cases h
  | string isKey chars escape => exact keyed_stepString hr h
  | after value => exact keyed_stepAfter hr h

theorem keyed_run {cs : List Char} (hr : r.Keyed) (h : run floats r cs = some s) : s.Keyed := by
  induction cs generalizing r with
  | nil =>
    cases h
    exact hr
  | cons c cs ih =>
    rw [run, List.foldlM_cons] at h
    obtain ⟨t, ht, hrest⟩ := Option.bind_eq_some_iff.mp h
    exact ih (keyed_step hr ht) hrest

/-- **A text is read as a value whose keys are apart.** -/
theorem keyed_fromStr {cs : List Char} {value : Value} (h : fromStr floats cs = some value) :
    value.Keyed := by
  obtain ⟨t, ht, hfinish⟩ := Option.bind_eq_some_iff.mp h
  have hinit : init.Keyed :=
    ⟨fun _ hframe => absurd hframe List.not_mem_nil, fun _ hvalue => by cases hvalue⟩
  have hkeyed := keyed_run hinit ht
  obtain ⟨stack, mode⟩ := t
  unfold finish at hfinish
  split at hfinish
  · next hstack hmode =>
    cases hfinish
    exact hkeyed.value _ hmode
  · obtain ⟨n, -, rfl⟩ := Option.map_eq_some_iff.mp hfinish
    exact Value.keyed_of_isObject rfl
  · cases hfinish

end

/-! ### White space and line breaks -/

section

variable {floats : FloatText} {r s : Reader} {c d : Char} {cs ds : List Char}

theorem run_append : run floats r (cs ++ ds) = (run floats r cs).bind fun s => run floats s ds :=
  List.foldlM_append

theorem run_cons : run floats r (c :: cs) = (step floats r c).bind fun s => run floats s cs :=
  List.foldlM_cons

/-- The reader is between two tokens. -/
def Reader.Between (r : Reader) : Prop :=
  match r.mode with
  | .value _ | .key _ | .colon _ | .after _ => True
  | _ => False

theorem Literal.not_isSpace (name : Literal) : ∀ c ∈ name.text, isSpace c = false := by
  cases name <;> exact List.all_iff_forall_prop.mp (by decide)

theorem Literal.getElem?_ne_of_isSpace {name : Literal} {read : Nat} (hc : isSpace c = true) :
    name.text[read]? ≠ some c := by
  intro h
  have hspace := name.not_isSpace c (List.mem_of_getElem? h)
  rw [hc] at hspace
  exact absurd hspace (by simp)

theorem plain_of_isSpace (hc : isSpace c = true) : c ≠ '"' ∧ c ≠ '\\' ∧ c ≠ 'u' ∧
    hexDigit c = none ∧ escapeLetter c = none ∧ isNumberChar c = false := by
  simp only [isSpace, Bool.or_eq_true, decide_eq_true_eq] at hc
  rcases hc with ((rfl | rfl) | rfl) | rfl <;> decide

theorem stepAfter_space {value : Value} (hc : isSpace c = true) :
    stepAfter r value c = some r := by
  rw [stepAfter, if_pos hc]

/-- **Trailing white space is insignificant.** -/
theorem finish_step_space (hc : isSpace c = true) :
    (step floats r c).bind (finish floats) = finish floats r := by
  obtain ⟨hquote, hbackslash, hu, hhex, hescape, hnumber⟩ := plain_of_isSpace hc
  obtain ⟨stack, mode⟩ := r
  cases mode with
  | value closing => simp [step, stepValue, hc]
  | key closing => simp [step, stepKey, hc]
  | colon key => simp [step, stepColon, hc]
  | after value => simp [step, stepAfter_space hc]
  | literal name read =>
    cases stack <;> simp [step, Literal.getElem?_ne_of_isSpace hc, finish]
  | number lexeme =>
    cases hn : number floats lexeme with
    | none => cases stack <;> simp [step, hnumber, hn, finish]
    | some n => cases stack <;> simp [step, hnumber, hn, stepAfter_space hc, finish]
  | string isKey chars escape =>
    -- Neither before nor after the character is the string at its end.
    have hopen : ∀ (stack : List Frame) (escape : Escape) (chars : List Char),
        finish floats ⟨stack, .string isKey chars escape⟩ = none := by
      intro stack _ _
      cases stack <;> rfl
    rw [hopen]
    cases escape with
    | none =>
      simp only [step, stepString, if_neg hquote, if_neg hbackslash]
      split_ifs
      · rfl
      · exact hopen _ _ _
    | backslash => simp [step, stepString, if_neg hu, hescape]
    | unicode digits code high => simp [step, stepString, hhex]
    | lowBackslash high => simp [step, stepString, if_neg hbackslash]
    | lowU high => simp [step, stepString, if_neg hu]

theorem finish_run_space (h : ∀ c ∈ ds, isSpace c = true) :
    (run floats r ds).bind (finish floats) = finish floats r := by
  induction ds generalizing r with
  | nil => rfl
  | cons c ds ih =>
    rw [run_cons, ← finish_step_space (h c List.mem_cons_self)]
    cases step floats r c with
    | none => rfl
    | some s => exact ih fun d hd => h d (List.mem_cons_of_mem _ hd)

theorem fromStr_append_space (h : ∀ c ∈ ds, isSpace c = true) :
    fromStr floats (cs ++ ds) = fromStr floats cs := by
  rw [fromStr, fromStr, run_append]
  cases run floats init cs with
  | none => rfl
  | some r => exact finish_run_space h

/-- A line break stands between two tokens. -/
theorem between_of_break (hc : c = '\n' ∨ c = '\r') (h : step floats r c = some s) : s.Between := by
  have hspace : isSpace c = true := by rcases hc with rfl | rfl <;> rfl
  have hcontrol : c.toNat < 32 := by rcases hc with rfl | rfl <;> decide
  obtain ⟨hquote, hbackslash, hu, hhex, hescape, hnumber⟩ := plain_of_isSpace hspace
  obtain ⟨stack, mode⟩ := r
  cases mode with
  | value closing =>
    simp only [step, stepValue, hspace, if_true] at h
    cases h
    trivial
  | key closing =>
    simp only [step, stepKey, hspace, if_true] at h
    cases h
    trivial
  | colon key =>
    simp only [step, stepColon, hspace, if_true] at h
    cases h
    trivial
  | after value =>
    simp only [step, stepAfter_space hspace] at h
    cases h
    trivial
  | literal name read =>
    simp [step, Literal.getElem?_ne_of_isSpace hspace] at h
  | number lexeme =>
    simp only [step, hnumber, Bool.false_eq_true, if_false] at h
    split at h
    · rw [stepAfter_space hspace] at h
      cases h
      trivial
    · cases h
  | string isKey chars escape =>
    exfalso
    cases escape with
    | none => simp [step, stepString, hquote, hbackslash, hcontrol] at h
    | backslash => simp [step, stepString, hu, hescape] at h
    | unicode digits code high => simp [step, stepString, hhex] at h
    | lowBackslash high => simp [step, stepString, hbackslash] at h
    | lowU high => simp [step, stepString, hu] at h

/-- No token begins with a `d` or an `e`. -/
theorem step_between (hr : r.Between) (hd : d = 'd' ∨ d = 'e') : step floats r d = none := by
  obtain ⟨stack, mode⟩ := r
  cases mode with
  | value closing => rcases hd with rfl | rfl <;> simp [step, stepValue, isSpace]
  | key closing => rcases hd with rfl | rfl <;> simp [step, stepKey, isSpace]
  | colon key => rcases hd with rfl | rfl <;> simp [step, stepColon, isSpace]
  | after value => rcases hd with rfl | rfl <;> simp [step, stepAfter, isSpace] <;> split <;> rfl
  | literal name read => exact hr.elim
  | number lexeme => exact hr.elim
  | string isKey chars escape => exact hr.elim

/-- **After a line break, no `d` or `e`.** -/
theorem not_letter_after_break {pre post : List Char} {value : Value}
    (h : fromStr floats (pre ++ c :: d :: post) = some value) (hc : c = '\n' ∨ c = '\r') :
    d ≠ 'd' ∧ d ≠ 'e' := by
  obtain ⟨t, ht, -⟩ := Option.bind_eq_some_iff.mp h
  rw [run_append] at ht
  obtain ⟨r, -, hr⟩ := Option.bind_eq_some_iff.mp ht
  rw [run_cons] at hr
  obtain ⟨s, hs, hr⟩ := Option.bind_eq_some_iff.mp hr
  rw [run_cons] at hr
  obtain ⟨u, hu, -⟩ := Option.bind_eq_some_iff.mp hr
  have hbetween := between_of_break hc hs
  constructor
  · rintro rfl
    rw [step_between hbetween (.inl rfl)] at hu
    cases hu
  · rintro rfl
    rw [step_between hbetween (.inr rfl)] at hu
    cases hu

/-- **Nothing but white space follows a complete text.** -/
theorem space_of_complete {value value' : Value} (hcs : fromStr floats cs = some value)
    (hc : isSpace c = true) (h : fromStr floats (cs ++ c :: ds) = some value') :
    ∀ d ∈ ds, isSpace d = true := by
  obtain ⟨r, hr, hfinish⟩ := Option.bind_eq_some_iff.mp hcs
  obtain ⟨t, ht, -⟩ := Option.bind_eq_some_iff.mp h
  rw [run_append, hr, Option.bind_some, run_cons] at ht
  obtain ⟨s, hs, hrest⟩ := Option.bind_eq_some_iff.mp ht
  -- The white space completes a number; nothing is open.
  obtain ⟨value'', rfl⟩ : ∃ value'', s = ⟨[], .after value''⟩ := by
    obtain ⟨stack, mode⟩ := r
    unfold finish at hfinish
    split at hfinish
    · next value'' hstack hmode =>
      simp only at hstack hmode
      subst hstack hmode
      simp only [step, stepAfter_space hc] at hs
      cases hs
      exact ⟨_, rfl⟩
    · next lexeme hstack hmode =>
      simp only at hstack hmode
      subst hstack hmode
      simp only [step, (plain_of_isSpace hc).2.2.2.2.2, Bool.false_eq_true, if_false] at hs
      split at hs
      · rw [stepAfter_space hc] at hs
        cases hs
        exact ⟨_, rfl⟩
      · cases hs
    · cases hfinish
  clear hs ht h
  induction ds with
  | nil => simp
  | cons d ds ih =>
    rw [run_cons] at hrest
    obtain ⟨u, hu, hrest⟩ := Option.bind_eq_some_iff.mp hrest
    have hspace : isSpace d = true := by
      by_contra hd
      simp [step, stepAfter, hd] at hu
    simp only [step, stepAfter_space hspace] at hu
    cases hu
    intro e he
    rcases List.mem_cons.mp he with rfl | he
    · exact hspace
    · exact ih hrest e he

end

end JsonText

/-! ### The printer -/

/-- A hexadecimal digit. -/
def hexChar (n : Nat) : Char := if n < 10 then Char.ofNat (48 + n) else Char.ofNat (87 + n)

/-- A character of a string, as the compact formatter writes it. -/
def escapeChar (c : Char) : List Char :=
  if c = '"' then ['\\', '"']
  else if c = '\\' then ['\\', '\\']
  else if c = '\x08' then ['\\', 'b']
  else if c = '\x0c' then ['\\', 'f']
  else if c = '\n' then ['\\', 'n']
  else if c = '\r' then ['\\', 'r']
  else if c = '\t' then ['\\', 't']
  else if c.toNat < 32 then
    ['\\', 'u', '0', '0', hexChar (c.toNat / 16), hexChar (c.toNat % 16)]
  else [c]

/-- A string in quotes. -/
def printString (s : String) : List Char := '"' :: s.toList.flatMap escapeChar ++ ['"']

/-- A number. -/
def Number.print (floats : FloatText) : Number → List Char
  | .posInt n => Nat.toDigits 10 n.toNat
  | .negInt n => '-' :: Nat.toDigits 10 (n + 1)
  | .float q => floats.print q

mutual

/-- `Value::to_string`. -/
def Value.print (floats : FloatText) : Value → List Char
  | .null => "null".toList
  | .bool b => if b then "true".toList else "false".toList
  | .number n => n.print floats
  | .string s => printString s
  | .array items => '[' :: printItems floats items
  | .object fields => '{' :: printFields floats fields

/-- The items of an array and its end. -/
def printItems (floats : FloatText) : List Value → List Char
  | [] => [']']
  | [item] => item.print floats ++ [']']
  | item :: items => item.print floats ++ ',' :: printItems floats items

/-- The fields of an object and its end. -/
def printFields (floats : FloatText) : List (String × Value) → List Char
  | [] => ['}']
  | [(key, value)] => printString key ++ ':' :: value.print floats ++ ['}']
  | (key, value) :: fields =>
    printString key ++ ':' :: value.print floats ++ ',' :: printFields floats fields

end

/-- Whether a character stands within a line. -/
def InLine (c : Char) : Prop := c ≠ '\n' ∧ c ≠ '\r'

instance : DecidablePred InLine := fun c => inferInstanceAs (Decidable (c ≠ '\n' ∧ c ≠ '\r'))

section

variable {floats : FloatText}

theorem inLine_of_toNat {c : Char} (h : 32 ≤ c.toNat) : InLine c := by
  constructor <;> rintro rfl <;> revert h <;> decide

theorem hexChar_inLine (n : Nat) (h : n < 16) : InLine (hexChar n) := by
  apply inLine_of_toNat
  revert n
  decide

theorem escapeChar_inLine (c : Char) : ∀ d ∈ escapeChar c, InLine d := by
  unfold escapeChar
  split_ifs with _ _ _ _ hlf hcr _ hcontrol
  iterate 7 exact List.all_iff_forall_prop.mp (by decide)
  · simp only [List.mem_cons, List.not_mem_nil, or_false]
    rintro d (rfl | rfl | rfl | rfl | rfl | rfl)
    · decide
    · decide
    · decide
    · decide
    · exact hexChar_inLine _ (by omega)
    · exact hexChar_inLine _ (by omega)
  · simp only [List.mem_singleton]
    rintro d rfl
    exact ⟨hlf, hcr⟩

theorem printString_inLine (s : String) : ∀ c ∈ printString s, InLine c := by
  intro c hc
  simp only [printString, List.cons_append, List.mem_cons, List.mem_append, List.mem_flatMap,
    List.not_mem_nil, or_false] at hc
  rcases hc with rfl | ⟨d, -, hd⟩ | rfl
  · decide
  · exact escapeChar_inLine d c hd
  · decide

theorem toDigits_inLine (n : Nat) : ∀ c ∈ Nat.toDigits 10 n, InLine c := by
  intro c hc
  have hdigit : c.isDigit = true := Nat.isDigit_of_mem_toDigits (by decide) (by decide) hc
  constructor <;> rintro rfl <;> cases hdigit

theorem Number.print_inLine (n : Number) : ∀ c ∈ n.print floats, InLine c := by
  cases n with
  | posInt n => exact toDigits_inLine _
  | negInt n =>
    intro c hc
    rcases List.mem_cons.mp hc with rfl | hc
    · decide
    · exact toDigits_inLine _ c hc
  | float q => exact floats.print_line q

mutual

/-- **A printed value has no line breaks.** -/
theorem Value.print_inLine : ∀ (value : Value), ∀ c ∈ value.print floats, InLine c
  | .null => by simp [Value.print, InLine]
  | .bool b => by cases b <;> simp [Value.print, InLine]
  | .number n => by simpa only [Value.print] using n.print_inLine
  | .string s => by simpa only [Value.print] using printString_inLine s
  | .array items => by
    intro c hc
    rw [Value.print] at hc
    rcases List.mem_cons.mp hc with rfl | hc
    · decide
    · exact printItems_inLine items c hc
  | .object fields => by
    intro c hc
    rw [Value.print] at hc
    rcases List.mem_cons.mp hc with rfl | hc
    · decide
    · exact printFields_inLine fields c hc

theorem printItems_inLine : ∀ (items : List Value), ∀ c ∈ printItems floats items, InLine c
  | [] => by simp [printItems, InLine]
  | [item] => by
    intro c hc
    rw [printItems] at hc
    rcases List.mem_append.mp hc with hc | hc
    · exact item.print_inLine c hc
    · rw [List.mem_singleton.mp hc]
      decide
  | item :: item' :: items => by
    intro c hc
    rw [printItems] at hc
    · rcases List.mem_append.mp hc with hc | hc
      · exact item.print_inLine c hc
      rcases List.mem_cons.mp hc with rfl | hc
      · decide
      · exact printItems_inLine (item' :: items) c hc
    · simp

theorem printFields_inLine : ∀ (fields : List (String × Value)),
    ∀ c ∈ printFields floats fields, InLine c
  | [] => by simp [printFields, InLine]
  | [(key, value)] => by
    intro c hc
    rw [printFields] at hc
    simp only [List.append_assoc, List.cons_append, List.mem_append, List.mem_cons,
      List.not_mem_nil, or_false] at hc
    rcases hc with hc | rfl | hc | rfl
    · exact printString_inLine key c hc
    · decide
    · exact value.print_inLine c hc
    · decide
  | (key, value) :: field :: fields => by
    intro c hc
    rw [printFields] at hc
    · simp only [List.append_assoc, List.cons_append, List.mem_append, List.mem_cons] at hc
      rcases hc with hc | rfl | hc | rfl | hc
      · exact printString_inLine key c hc
      · decide
      · exact value.print_inLine c hc
      · decide
      · exact printFields_inLine (field :: fields) c hc
    · simp

end

end

end CodexApi
