import CodexApi.JsonText
import Mathlib.Data.List.TakeWhile

/-!
# Reading JSON texts back

What `fromStr` reads is well formed: at most 127 containers are nested, objects are in key order
all the way down, and integers are in the range of their type (`fits_fromStr`). A well-formed value
is read back from its compact text, provided that its numbers are (`fromStr_print`). Integers always
are; a float is when the parser finds the same float in what the printer has written, which depends
on the two.
-/

namespace CodexApi

open JsonText

/-! ### Well-formed values -/

/-- At most `depth` containers are nested in a value, the keys of its objects are in order, and its
numbers satisfy `P`. -/
inductive Value.Fits (P : Number → Prop) : Nat → Value → Prop
  | null {depth} : Fits P depth .null
  | bool {depth} (b : Bool) : Fits P depth (.bool b)
  | string {depth} (s : String) : Fits P depth (.string s)
  | number {depth} {n : Number} (hn : P n) : Fits P depth (.number n)
  | array {depth} {items : List Value} (hitems : ∀ item ∈ items, Fits P depth item) :
      Fits P (depth + 1) (.array items)
  | object {depth} {fields : List (String × Value)} (hordered : Assoc.Ordered fields)
      (hfields : ∀ field ∈ fields, Fits P depth field.2) : Fits P (depth + 1) (.object fields)

/-- An integer is in the range of its type. -/
def Number.InRange : Number → Prop
  | .negInt n => n < 2 ^ 63
  | .posInt _ | .float _ => True

section

variable {P Q : Number → Prop} {depth deeper : Nat} {value inner : Value} {key : String}

theorem Value.Fits.mono (h : value.Fits P depth) (hdepth : depth ≤ deeper) :
    value.Fits P deeper := by
  induction h generalizing deeper with
  | null => exact .null
  | bool b => exact .bool b
  | string s => exact .string s
  | number hn => exact .number hn
  | array hitems ih =>
    obtain ⟨deeper, rfl⟩ := Nat.exists_eq_add_one_of_ne_zero (Nat.ne_zero_of_lt hdepth)
    exact .array fun item hitem => ih item hitem (Nat.le_of_succ_le_succ hdepth)
  | object hordered hfields ih =>
    obtain ⟨deeper, rfl⟩ := Nat.exists_eq_add_one_of_ne_zero (Nat.ne_zero_of_lt hdepth)
    exact .object hordered fun field hfield => ih field hfield (Nat.le_of_succ_le_succ hdepth)

/-- A field of a well-formed value. -/
theorem Value.Fits.get (h : value.Fits P depth) (hget : value.get key = some inner) :
    inner.Fits P depth := by
  cases h with
  | object hordered hfields =>
    exact (hfields _ (Assoc.mem_of_get hget)).mono (Nat.le_succ _)
  | null | bool b | string s | number hn | array hitems => cases hget

/-- The object of some well-formed fields. -/
theorem Value.fits_json {fields : List (String × Value)}
    (h : ∀ field ∈ fields, field.2.Fits P depth) : (json fields).Fits P (depth + 1) :=
  .object (OrdMap.ofList fields).ordered (OrdMap.forall_mem_ofList h)

end

/-! ### What is read is well formed -/

namespace JsonText

variable {floats : FloatText} {r s : Reader} {c : Char}

/-- The containers that may be opened inside a container. -/
abbrev maxDepth : Nat := 127

/-- What a container has read is well formed, where `depth` containers may be nested in it. -/
def Frame.Fits (depth : Nat) : Frame → Prop
  | .array items => ∀ item ∈ items, item.Fits Number.InRange depth
  | .object fields | .member fields _ =>
    Assoc.Ordered fields ∧ ∀ field ∈ fields, field.2.Fits Number.InRange depth

/-- What the open containers have read is well formed; no more are open than may be. -/
def FitStack : List Frame → Prop
  | [] => True
  | frame :: stack => stack.length + 1 ≤ maxDepth ∧
      frame.Fits (maxDepth - (stack.length + 1)) ∧ FitStack stack

/-- What a reader has read is well formed. -/
structure Reader.Fits (r : Reader) : Prop where
  stack : FitStack r.stack
  value : ∀ value, r.mode = .after value →
    value.Fits Number.InRange (maxDepth - r.stack.length)

theorem numberOf_inRange {lexeme digits rest : List Char} {negative : Bool} {n : Number}
    (h : numberOf floats lexeme negative digits rest = some n) : n.InRange := by
  unfold numberOf at h
  split at h
  · cases h
  have hfloat : ∀ {m : Number}, (floats.read lexeme).map Number.float = some m → m.InRange := by
    intro m hm
    obtain ⟨q, -, rfl⟩ := Option.map_eq_some_iff.mp hm
    trivial
  simp only at h
  split at h
  · split at h
    · split at h
      · next hrange =>
        cases h
        exact Nat.lt_of_lt_of_le (Nat.sub_one_lt hrange.1.ne') hrange.2
      · exact hfloat h
    · split at h
      · cases h
        trivial
      · exact hfloat h
  · split at h
    · exact hfloat (Option.ite_none_right_eq_some.mp h).2
    · exact hfloat (Option.ite_none_right_eq_some.mp h).2

/-- The array that ends. -/
theorem FitStack.array {items : List Value} {stack : List Frame}
    (h : FitStack (.array items :: stack)) :
    (Value.array items).Fits Number.InRange (maxDepth - stack.length) := by
  obtain ⟨hlength, hitems, -⟩ := h
  have hdepth : maxDepth - stack.length = maxDepth - (stack.length + 1) + 1 := by omega
  rw [hdepth]
  exact .array hitems

/-- The object that ends. -/
theorem FitStack.object {fields : List (String × Value)} {stack : List Frame}
    (h : FitStack (.object fields :: stack)) :
    (Value.object fields).Fits Number.InRange (maxDepth - stack.length) := by
  obtain ⟨hlength, ⟨hordered, hfields⟩, -⟩ := h
  have hdepth : maxDepth - stack.length = maxDepth - (stack.length + 1) + 1 := by omega
  rw [hdepth]
  exact .object hordered hfields

/-- An item is complete. -/
theorem FitStack.item {items : List Value} {value : Value} {stack : List Frame}
    (h : FitStack (.array items :: stack))
    (hvalue : value.Fits Number.InRange (maxDepth - (stack.length + 1))) :
    FitStack (.array (items ++ [value]) :: stack) := by
  obtain ⟨hlength, hitems, hstack⟩ := h
  refine ⟨hlength, fun item hitem => ?_, hstack⟩
  rcases List.mem_append.mp hitem with hitem | hitem
  · exact hitems item hitem
  · rw [List.mem_singleton.mp hitem]
    exact hvalue

/-- The value of a field is complete. -/
theorem FitStack.field {fields : List (String × Value)} {key : String} {value : Value}
    {stack : List Frame} (h : FitStack (.member fields key :: stack))
    (hvalue : value.Fits Number.InRange (maxDepth - (stack.length + 1))) :
    FitStack (.object (Assoc.insert key value fields) :: stack) := by
  obtain ⟨hlength, ⟨hordered, hfields⟩, hstack⟩ := h
  exact ⟨hlength, ⟨hordered.insert, Assoc.forall_mem_insert hvalue hfields⟩, hstack⟩

/-- A reader in a mode that is no complete value. -/
theorem Reader.Fits.enter {mode : Mode} (hr : r.Fits) (h : ∀ value, mode ≠ .after value) :
    Reader.Fits { r with mode } :=
  ⟨hr.stack, fun value hvalue => absurd hvalue (h value)⟩

theorem fits_push {mode : Mode} (frame : Frame) (hr : r.Fits)
    (hframe : frame.Fits (maxDepth - (r.stack.length + 1))) (hmode : ∀ value, mode ≠ .after value)
    (h : push r frame mode = some s) : s.Fits := by
  unfold push at h
  split at h
  · next hlength =>
    cases h
    exact ⟨⟨Nat.le_of_lt_succ hlength, hframe, hr.stack⟩,
      fun value hvalue => absurd hvalue (hmode value)⟩
  · cases h

theorem fits_stepValue {closing : Bool} (hr : r.Fits) (h : stepValue r closing c = some s) :
    s.Fits := by
  unfold stepValue at h
  split_ifs at h
  · cases h
    exact hr
  · exact fits_push (.object []) hr ⟨Assoc.ordered_nil, fun _ h => absurd h List.not_mem_nil⟩
      (by simp) h
  · exact fits_push (.array []) hr (fun _ h => absurd h List.not_mem_nil) (by simp) h
  all_goals try (cases h; exact hr.enter (by simp))
  split at h
  · next items stack hstack _ =>
    cases h
    have hfit : FitStack (.array items :: stack) := hstack ▸ hr.stack
    refine ⟨hfit.2.2, ?_⟩
    rintro value ⟨⟩
    exact hfit.array
  · cases h

theorem fits_stepKey {closing : Bool} (hr : r.Fits) (h : stepKey r closing c = some s) :
    s.Fits := by
  unfold stepKey at h
  split_ifs at h
  · cases h
    exact hr
  · cases h
    exact hr.enter (by simp)
  split at h
  · next fields stack hstack _ =>
    cases h
    have hfit : FitStack (.object fields :: stack) := hstack ▸ hr.stack
    refine ⟨hfit.2.2, ?_⟩
    rintro value ⟨⟩
    exact hfit.object
  · cases h

theorem fits_stepColon {key : String} (hr : r.Fits) (h : stepColon r key c = some s) :
    s.Fits := by
  unfold stepColon at h
  split at h
  · cases h
    exact hr
  split at h
  · next fields stack hstack _ =>
    cases h
    have hfit : FitStack (.object fields :: stack) := hstack ▸ hr.stack
    exact ⟨hfit, by simp⟩
  · cases h

theorem fits_stepAfter {value : Value} (hr : r.Fits) (hmode : r.mode = .after value)
    (h : stepAfter r value c = some s) : s.Fits := by
  have hvalue := hr.value value hmode
  unfold stepAfter at h
  split at h
  · cases h
    exact hr
  split at h
  · next items stack hstack =>
    have hfit : FitStack (.array items :: stack) := hstack ▸ hr.stack
    rw [hstack] at hvalue
    split_ifs at h
    · cases h
      exact ⟨hfit.item hvalue, by simp⟩
    · cases h
      refine ⟨hfit.2.2, ?_⟩
      rintro value ⟨⟩
      exact (hfit.item hvalue).array
  · next fields key stack hstack =>
    have hfit : FitStack (.member fields key :: stack) := hstack ▸ hr.stack
    rw [hstack] at hvalue
    split_ifs at h
    · cases h
      exact ⟨hfit.field hvalue, by simp⟩
    · cases h
      refine ⟨hfit.2.2, ?_⟩
      rintro value ⟨⟩
      exact (hfit.field hvalue).object
  · cases h

theorem fits_stepString {isKey : Bool} {chars : List Char} {escape : Escape} (hr : r.Fits)
    (h : stepString r isKey chars escape c = some s) : s.Fits := by
  unfold stepString at h
  split at h
  · split_ifs at h
    · cases h
      refine ⟨hr.stack, fun value hvalue => ?_⟩
      cases isKey with
      | true => cases hvalue
      | false =>
        cases hvalue
        exact .string _
    · cases h
      exact hr.enter (by simp)
    · cases h
      exact hr.enter (by simp)
  · split_ifs at h
    · cases h
      exact hr.enter (by simp)
    · obtain ⟨letter, -, rfl⟩ := Option.map_eq_some_iff.mp h
      exact hr.enter (by simp)
  · split at h
    · cases h
    · split_ifs at h
      · obtain ⟨mode, hmode, rfl⟩ := Option.map_eq_some_iff.mp h
        refine hr.enter fun value hvalue => ?_
        subst hvalue
        unfold unicodeMode at hmode
        split at hmode <;> split_ifs at hmode <;> simp at hmode
      · cases h
        exact hr.enter (by simp)
  · split_ifs at h
    cases h
    exact hr.enter (by simp)
  · split_ifs at h
    cases h
    exact hr.enter (by simp)

/-- **A character keeps what is read well formed.** -/
theorem fits_step (hr : r.Fits) (h : step floats r c = some s) : s.Fits := by
  obtain ⟨stack, mode⟩ := r
  cases mode with
  | value closing => exact fits_stepValue hr h
  | key closing => exact fits_stepKey hr h
  | colon key => exact fits_stepColon hr h
  | literal name read =>
    simp only [step] at h
    split at h
    · cases h
      refine ⟨hr.stack, fun value hvalue => ?_⟩
      simp only at hvalue
      split at hvalue
      · cases hvalue
        cases name with
        | trueName | falseName => exact .bool _
        | nullName => exact .null
      · cases hvalue
    · cases h
  | number lexeme =>
    simp only [step] at h
    split at h
    · cases h
      exact hr.enter (by simp)
    · split at h
      · next n hn =>
        refine fits_stepAfter (r := ⟨stack, .after (.number n)⟩) ⟨hr.stack, ?_⟩ rfl h
        rintro value ⟨⟩
        exact .number (numberOf_inRange hn)
      · cases h
  | string isKey chars escape => exact fits_stepString hr h
  | after value => exact fits_stepAfter hr rfl h

theorem fits_run {cs : List Char} (hr : r.Fits) (h : run floats r cs = some s) : s.Fits := by
  induction cs generalizing r with
  | nil =>
    cases h
    exact hr
  | cons c cs ih =>
    rw [run_cons] at h
    obtain ⟨t, ht, hrest⟩ := Option.bind_eq_some_iff.mp h
    exact ih (fits_step hr ht) hrest

/-- **What is read is well formed.** -/
theorem fits_fromStr {cs : List Char} {value : Value} (h : fromStr floats cs = some value) :
    value.Fits Number.InRange maxDepth := by
  obtain ⟨t, ht, hfinish⟩ := Option.bind_eq_some_iff.mp h
  have hinit : init.Fits := ⟨trivial, fun _ hvalue => by cases hvalue⟩
  have hfits := fits_run hinit ht
  obtain ⟨stack, mode⟩ := t
  unfold finish at hfinish
  split at hfinish
  · next hstack hmode =>
    cases hfinish
    have hvalue := hfits.value _ hmode
    simp only at hstack
    rwa [hstack] at hvalue
  · obtain ⟨n, hn, rfl⟩ := Option.map_eq_some_iff.mp hfinish
    exact .number (numberOf_inRange hn)
  · cases hfinish

end JsonText

/-! ### Numbers are read back -/

section

variable {floats : FloatText}

/-- A number is printed as a literal that denotes it. -/
structure Number.Legible (floats : FloatText) (n : Number) : Prop where
  chars : ∃ c cs, n.print floats = c :: cs ∧ (c.isDigit || c = '-') = true ∧
    ∀ d ∈ cs, isNumberChar d = true
  number : number floats (n.print floats) = some n

theorem isDigit_of_mem_toDigits {n : Nat} : ∀ c ∈ Nat.toDigits 10 n, c.isDigit = true :=
  fun _ hc => Nat.isDigit_of_mem_toDigits (by decide) (by decide) hc

/-- The decimal digits of a number, put together again. -/
theorem foldl_toDigits (n : Nat) :
    (Nat.toDigits 10 n).foldl (fun n c => 10 * n + (c.toNat - 48)) 0 = n := by
  have h := Nat.ofDigitChars_ten_toDigits (n := n)
  rwa [Nat.ofDigitChars_eq_foldl] at h

/-- Only zero starts with a zero. -/
theorem eq_zero_of_head_toDigits (n : Nat) (h : (Nat.toDigits 10 n).head? = some '0') : n = 0 := by
  induction n using Nat.strong_induction_on with
  | _ n ih =>
    rw [Nat.toDigits_eq_if (by decide)] at h
    split at h
    · next hlt =>
      have hsmall : ∀ m < 10, [Nat.digitChar m].head? = some '0' → m = 0 := by decide
      exact hsmall n hlt h
    · rw [List.head?_append_of_ne_nil _ Nat.toDigits_ne_nil] at h
      have := ih (n / 10) (by omega) h
      omega

/-- The digits of a number are accepted as the integer part of a literal. -/
theorem toDigits_accepted (n : Nat) : ¬(Nat.toDigits 10 n = [] ∨
    ((Nat.toDigits 10 n).head? = some '0' ∧ Nat.toDigits 10 n ≠ ['0'])) := by
  rintro (h | ⟨hhead, hne⟩)
  · exact Nat.toDigits_ne_nil h
  · obtain rfl := eq_zero_of_head_toDigits n hhead
    exact hne rfl

theorem takeWhile_toDigits (n : Nat) :
    (Nat.toDigits 10 n).takeWhile Char.isDigit = Nat.toDigits 10 n :=
  List.takeWhile_eq_self_iff.mpr isDigit_of_mem_toDigits

theorem dropWhile_toDigits (n : Nat) : (Nat.toDigits 10 n).dropWhile Char.isDigit = [] :=
  List.dropWhile_eq_nil_iff.mpr isDigit_of_mem_toDigits

theorem head_toDigits_ne_minus (n : Nat) : (Nat.toDigits 10 n).head? ≠ some '-' := by
  intro h
  cases isDigit_of_mem_toDigits _ (List.mem_of_head? h)

/-- **Unsigned integers are read back.** -/
theorem Number.legible_posInt (n : UInt64) : (Number.posInt n).Legible floats where
  chars := by
    obtain ⟨c, cs, hdigits⟩ :=
      List.exists_cons_of_ne_nil (Nat.toDigits_ne_nil (n := n.toNat) (b := 10))
    have hall := isDigit_of_mem_toDigits (n := n.toNat)
    rw [hdigits] at hall
    obtain ⟨hc, hcs⟩ := List.forall_mem_cons.mp hall
    exact ⟨c, cs, hdigits, by simp [hc], fun d hd => by simp [isNumberChar, hcs d hd]⟩
  number := by
    rw [Number.print, JsonText.number, if_neg (head_toDigits_ne_minus _), takeWhile_toDigits,
      dropWhile_toDigits, numberOf, if_neg (toDigits_accepted _), foldl_toDigits]
    simp [head_toDigits_ne_minus, n.toNat_lt]

/-- **Negative integers in range are read back.** -/
theorem Number.legible_negInt {n : Nat} (h : n < 2 ^ 63) : (Number.negInt n).Legible floats where
  chars := by
    refine ⟨'-', Nat.toDigits 10 (n + 1), rfl, rfl, fun d hd => ?_⟩
    simp [isNumberChar, isDigit_of_mem_toDigits d hd]
  number := by
    have hrange : 0 < n + 1 ∧ n + 1 ≤ 2 ^ 63 := ⟨Nat.succ_pos _, h⟩
    rw [Number.print, JsonText.number, List.head?_cons, if_pos rfl, List.tail_cons,
      takeWhile_toDigits, dropWhile_toDigits, numberOf, if_neg (toDigits_accepted _),
      foldl_toDigits]
    simp only [decide_true, if_true, if_pos hrange, Nat.add_sub_cancel]

/-! ### Strings are read back -/

theorem hexDigit_hexChar (n : Nat) (h : n < 16) : hexDigit (hexChar n) = some n := by
  revert n
  decide

theorem charOf_toNat (c : Char) : charOf c.toNat = some c := by
  have hvalid : c.toNat.isValidChar := c.valid
  rw [charOf, dif_pos hvalid]
  rfl

/-- One character of a string. -/
theorem run_escapeChar {stack : List Frame} {isKey : Bool} {chars : List Char} (c : Char) :
    run floats ⟨stack, .string isKey chars .none⟩ (escapeChar c) =
      some ⟨stack, .string isKey (chars ++ [c]) .none⟩ := by
  unfold escapeChar
  split_ifs with hquote hbackslash hb hf hn hr ht hcontrol
  · subst hquote
    rfl
  · subst hbackslash
    rfl
  · subst hb
    rfl
  · subst hf
    rfl
  · subst hn
    rfl
  · subst hr
    rfl
  · subst ht
    rfl
  · -- The escape has the two hexadecimal digits of the code.
    have hhigh := hexDigit_hexChar (c.toNat / 16) (by omega)
    have hlow := hexDigit_hexChar (c.toNat % 16) (by omega)
    have hzero : hexDigit '0' = some 0 := rfl
    have hcode : 16 * (c.toNat / 16) + c.toNat % 16 = c.toNat := Nat.div_add_mod ..
    have hplain : ¬(0xD800 ≤ c.toNat ∧ c.toNat ≤ 0xDBFF) := by omega
    simp [run, step, stepString, hzero, hhigh, hlow, unicodeMode, hcode, hplain, charOf_toNat]
  · simp [run, step, stepString, hquote, hbackslash, hcontrol]

theorem run_flatMap_escapeChar {stack : List Frame} {isKey : Bool} {chars : List Char}
    (cs : List Char) :
    run floats ⟨stack, .string isKey chars .none⟩ (cs.flatMap escapeChar) =
      some ⟨stack, .string isKey (chars ++ cs) .none⟩ := by
  induction cs generalizing chars with
  | nil => rw [List.flatMap_nil, List.append_nil]; rfl
  | cons c cs ih =>
    rw [List.flatMap_cons, run_append, run_escapeChar, Option.bind_some, ih, List.append_assoc,
      List.singleton_append]

/-- A string that has been opened. -/
theorem run_string {stack : List Frame} {isKey : Bool} (s : String) :
    run floats ⟨stack, .string isKey [] .none⟩ (s.toList.flatMap escapeChar ++ ['"']) =
      some (closeString ⟨stack, .string isKey s.toList .none⟩ isKey s.toList) := by
  rw [run_append, run_flatMap_escapeChar, Option.bind_some, List.nil_append]
  rfl

/-! ### Values are read back -/

/-- The reader has read a value, up to the end of a number. -/
inductive Reader.Has (floats : FloatText) (stack : List Frame) : Value → Reader → Prop
  | after (value : Value) : Has floats stack value ⟨stack, .after value⟩
  | number {lexeme : List Char} {n : Number} (hn : JsonText.number floats lexeme = some n) :
      Has floats stack (.number n) ⟨stack, .number lexeme⟩

/-- The text of a value is read as the value, inside of some containers. -/
def Value.ReadsBack (floats : FloatText) (depth : Nat) (value : Value) : Prop :=
  ∀ (stack : List Frame) (closing : Bool), stack.length + depth ≤ maxDepth →
    ∃ r, run floats ⟨stack, .value closing⟩ (value.print floats) = some r ∧
      Reader.Has floats stack value r

/-- What ends a value: a character that cannot belong to a number ends that, too. -/
theorem Reader.Has.step {stack : List Frame} {value : Value} {r : Reader} {c : Char}
    (h : Reader.Has floats stack value r) (hc : isNumberChar c = false) :
    step floats r c = stepAfter ⟨stack, .after value⟩ value c := by
  cases h with
  | after => rfl
  | number hn => simp only [JsonText.step, hc, hn, Bool.false_eq_true, if_false]

theorem Reader.Has.finish {value : Value} {r : Reader} (h : Reader.Has floats [] value r) :
    finish floats r = some value := by
  cases h with
  | after => rfl
  | number hn => simp only [JsonText.finish, hn, Option.map_some]

/-- A literal number is read to its end. -/
theorem run_lexeme {stack : List Frame} {lexeme cs : List Char}
    (h : ∀ d ∈ cs, isNumberChar d = true) :
    run floats ⟨stack, .number lexeme⟩ cs = some ⟨stack, .number (lexeme ++ cs)⟩ := by
  induction cs generalizing lexeme with
  | nil => rw [List.append_nil]; rfl
  | cons c cs ih =>
    obtain ⟨hc, hcs⟩ := List.forall_mem_cons.mp h
    have hstep : step floats ⟨stack, .number lexeme⟩ c = some ⟨stack, .number (lexeme ++ [c])⟩ := by
      simp only [step, hc, if_true]
    rw [run_cons, hstep, Option.bind_some, ih hcs, List.append_assoc, List.singleton_append]

theorem stepValue_number {r : Reader} {closing : Bool} {c : Char}
    (h : (c.isDigit || c = '-') = true) :
    stepValue r closing c = some { r with mode := .number [c] } := by
  have hother : isSpace c = false ∧ c ≠ '\x7b' ∧ c ≠ '[' ∧ c ≠ '"' := by
    refine ⟨Bool.eq_false_iff.mpr fun hspace => ?_, ?_, ?_, ?_⟩
    · simp only [isSpace, Bool.or_eq_true, decide_eq_true_eq] at hspace
      rcases hspace with ((rfl | rfl) | rfl) | rfl <;> cases h
    · rintro rfl
      cases h
    · rintro rfl
      cases h
    · rintro rfl
      cases h
  unfold stepValue
  rw [if_neg (by simp [hother.1]), if_neg hother.2.1, if_neg hother.2.2.1, if_neg hother.2.2.2,
    if_pos h]

theorem Number.Legible.readsBack {depth : Nat} {n : Number} (h : n.Legible floats) :
    (Value.number n).ReadsBack floats depth := by
  intro stack closing _
  obtain ⟨c, cs, hprint, hc, hcs⟩ := h.chars
  have hstep : step floats ⟨stack, .value closing⟩ c = some ⟨stack, .number [c]⟩ :=
    stepValue_number hc
  refine ⟨⟨stack, .number (c :: cs)⟩, ?_, .number (hprint ▸ h.number)⟩
  rw [Value.print, hprint, run_cons, hstep, Option.bind_some, run_lexeme hcs,
    List.singleton_append]

theorem readsBack_string {depth : Nat} (s : String) :
    (Value.string s).ReadsBack floats depth := by
  intro stack closing _
  have hstep : step floats ⟨stack, .value closing⟩ '"' = some ⟨stack, .string false [] .none⟩ := rfl
  refine ⟨⟨stack, .after (.string s)⟩, ?_, .after _⟩
  rw [Value.print, printString, List.cons_append, run_cons, hstep, Option.bind_some, run_string,
    closeString, String.ofList_toList]
  rfl

theorem readsBack_literal {depth : Nat} (name : Literal) {value : Value}
    (hvalue : name.value = value) (hprint : value.print floats = name.text) :
    value.ReadsBack floats depth := by
  intro stack closing _
  refine ⟨⟨stack, .after value⟩, ?_, .after _⟩
  subst hvalue
  rw [hprint]
  cases name <;> rfl

/-- The items of an array are read one after the other. -/
theorem run_printItems {depth : Nat} {items : List Value}
    (hitems : ∀ item ∈ items, item.ReadsBack floats depth) (done : List Value)
    (stack : List Frame) (closing : Bool) (hclosing : closing = true ∨ items ≠ [])
    (hdepth : stack.length + 1 + depth ≤ maxDepth) :
    run floats ⟨.array done :: stack, .value closing⟩ (printItems floats items) =
      some ⟨stack, .after (.array (done ++ items))⟩ := by
  induction items generalizing done closing with
  | nil =>
    -- Only an array without items ends here, and its bracket may stand where an item may.
    obtain rfl : closing = true := hclosing.resolve_right (not_not.mpr rfl)
    rw [List.append_nil]
    rfl
  | cons item items ih =>
    obtain ⟨hitem, hrest⟩ := List.forall_mem_cons.mp hitems
    obtain ⟨r, hrun, hhas⟩ := hitem (.array done :: stack) closing hdepth
    cases items with
    | nil =>
      rw [printItems, run_append, hrun, Option.bind_some, run_cons, hhas.step rfl]
      rfl
    | cons item' items =>
      have hcomma : step floats r ',' = some ⟨.array (done ++ [item]) :: stack, .value false⟩ :=
        hhas.step rfl
      rw [printItems, run_append, hrun, Option.bind_some, run_cons, hcomma, Option.bind_some,
        ih hrest _ false (.inr (List.cons_ne_nil _ _)), List.append_assoc, List.singleton_append]
      simp

/-- A key and its value, whatever follows. -/
theorem run_printField {depth : Nat} {value : Value} (hvalue : value.ReadsBack floats depth)
    (key : String) (done : List (String × Value)) (stack : List Frame) (closing : Bool)
    (hdepth : stack.length + 1 + depth ≤ maxDepth) :
    ∃ r, Reader.Has floats (.member done key :: stack) value r ∧ ∀ rest,
      run floats ⟨.object done :: stack, .key closing⟩
          (printString key ++ ':' :: (value.print floats ++ rest)) = run floats r rest := by
  have hkey : run floats ⟨.object done :: stack, .key closing⟩ (printString key) =
      some ⟨.object done :: stack, .colon key⟩ := by
    have hquote : step floats ⟨.object done :: stack, .key closing⟩ '"' =
        some ⟨.object done :: stack, .string true [] .none⟩ := rfl
    rw [printString, List.cons_append, run_cons, hquote, Option.bind_some, run_string,
      closeString, String.ofList_toList]
    rfl
  have hcolon : step floats ⟨.object done :: stack, .colon key⟩ ':' =
      some ⟨.member done key :: stack, .value false⟩ := rfl
  obtain ⟨r, hrun, hhas⟩ := hvalue (.member done key :: stack) false hdepth
  refine ⟨r, hhas, fun rest => ?_⟩
  rw [run_append, hkey, Option.bind_some, run_cons, hcolon, Option.bind_some, run_append, hrun,
    Option.bind_some]

/-- The fields of an object are read one after the other. -/
theorem run_printFields {depth : Nat} {fields : List (String × Value)}
    (hfields : ∀ field ∈ fields, field.2.ReadsBack floats depth) (done : List (String × Value))
    (stack : List Frame) (closing : Bool) (hclosing : closing = true ∨ fields ≠ [])
    (hordered : Assoc.Ordered (done ++ fields)) (hdepth : stack.length + 1 + depth ≤ maxDepth) :
    run floats ⟨.object done :: stack, .key closing⟩ (printFields floats fields) =
      some ⟨stack, .after (.object (done ++ fields))⟩ := by
  induction fields generalizing done closing with
  | nil =>
    -- Only an object without fields ends here, and its brace may stand where a key may.
    obtain rfl : closing = true := hclosing.resolve_right (not_not.mpr rfl)
    rw [List.append_nil]
    rfl
  | cons field fields ih =>
    obtain ⟨key, value⟩ := field
    obtain ⟨hvalue, hrest⟩ := List.forall_mem_cons.mp hfields
    obtain ⟨r, hhas, hrun⟩ := run_printField hvalue key done stack closing hdepth
    -- The key comes after those that have been read.
    have hlast : Assoc.insert key value done = done ++ [(key, value)] :=
      Assoc.insert_of_lt fun e he =>
        (List.pairwise_append.mp hordered).2.2 e he (key, value) List.mem_cons_self
    cases fields with
    | nil =>
      have hbrace : step floats r '\x7d' =
          some ⟨stack, .after (.object (Assoc.insert key value done))⟩ := hhas.step rfl
      rw [printFields, List.append_assoc, List.cons_append, hrun, run_cons, hbrace, hlast]
      rfl
    | cons field' fields =>
      have hcomma : step floats r ',' =
          some ⟨.object (Assoc.insert key value done) :: stack, .key false⟩ := hhas.step rfl
      have hordered' : Assoc.Ordered (done ++ [(key, value)] ++ field' :: fields) := by
        rwa [List.append_assoc, List.singleton_append]
      have hfollowing := ih hrest (done ++ [(key, value)]) false (.inr (List.cons_ne_nil _ _))
        hordered'
      rw [printFields, List.append_assoc, List.cons_append, hrun, run_cons, hcomma, hlast,
        Option.bind_some, hfollowing, List.append_assoc, List.singleton_append]
      simp

theorem push_of_lt {stack : List Frame} {frame : Frame} {mode mode' : Mode}
    (h : stack.length < maxDepth) : push ⟨stack, mode⟩ frame mode' = some ⟨frame :: stack, mode'⟩ :=
  if_pos (Nat.succ_lt_succ h)

/-- **A well-formed value is read back**, inside of any containers. -/
theorem Value.Fits.readsBack {depth : Nat} {value : Value}
    (h : value.Fits (Number.Legible floats) depth) : value.ReadsBack floats depth := by
  induction h with
  | null => exact readsBack_literal .nullName rfl rfl
  | bool b =>
    cases b with
    | false => exact readsBack_literal .falseName rfl rfl
    | true => exact readsBack_literal .trueName rfl rfl
  | string s => exact readsBack_string s
  | number hn => exact hn.readsBack
  | @array depth items hitems ih =>
    intro stack closing hdepth
    -- The depth of the items leaves room for one more container.
    have hopen : step floats ⟨stack, .value closing⟩ '[' =
        some ⟨.array [] :: stack, .value true⟩ := push_of_lt (by omega)
    refine ⟨⟨stack, .after (.array items)⟩, ?_, .after _⟩
    rw [Value.print, run_cons, hopen, Option.bind_some,
      run_printItems ih [] stack true (.inl rfl) (by omega), List.nil_append]
  | @object depth fields hordered hfields ih =>
    intro stack closing hdepth
    have hopen : step floats ⟨stack, .value closing⟩ '\x7b' =
        some ⟨.object [] :: stack, .key true⟩ := push_of_lt (by omega)
    refine ⟨⟨stack, .after (.object fields)⟩, ?_, .after _⟩
    rw [Value.print, run_cons, hopen, Option.bind_some,
      run_printFields ih [] stack true (.inl rfl) hordered (by omega), List.nil_append]

/-- **A well-formed value is read back from its text.** -/
theorem fromStr_print {value : Value} (h : value.Fits (Number.Legible floats) maxDepth) :
    fromStr floats (value.print floats) = some value := by
  obtain ⟨r, hrun, hhas⟩ := h.readsBack [] false (Nat.zero_add _).le
  rw [fromStr, init, hrun, Option.bind_some, hhas.finish]

end

end CodexApi
