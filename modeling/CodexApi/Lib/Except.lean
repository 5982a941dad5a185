import Mathlib.Init

/-!
# Chains of fallible steps

The facts that take a `do` block in `Except` apart: a block succeeds exactly when its first
step does and its rest does with the step's result; a step whose result is known disappears; and
a check succeeds when its condition allows it.
-/

namespace CodexApi

universe u v

variable {ε : Type u} {α β : Type v}

/-- A step followed by the rest succeeds when both do. -/
theorem bind_eq_ok {x : Except ε α} {f : α → Except ε β} {b : β} :
    (x >>= f) = .ok b ↔ ∃ a, x = .ok a ∧ f a = .ok b := by
  cases x <;> simp [bind, Except.bind]

/-- A step followed by the rest fails when one of them does. -/
theorem bind_eq_error {x : Except ε α} {f : α → Except ε β} {e : ε} :
    (x >>= f) = .error e ↔ x = .error e ∨ ∃ a, x = .ok a ∧ f a = .error e := by
  cases x <;> simp [bind, Except.bind]

@[simp]
theorem ok_bind (a : α) (f : α → Except ε β) : (Except.ok a >>= f) = f a := rfl

@[simp]
theorem error_bind (e : ε) (f : α → Except ε β) : (Except.error e >>= f) = .error e := rfl

theorem toOption_eq_some {x : Except ε α} {a : α} : x.toOption = some a ↔ x = .ok a := by
  cases x <;> simp [Except.toOption]

/-! ### Checks -/

/-- Fails if a condition holds. -/
def failIf (condition : Prop) [Decidable condition] (error : ε) : Except ε Unit :=
  if condition then .error error else .ok ()

/-- `ok_or`. -/
def okOr (value : Option α) (error : ε) : Except ε α :=
  match value with
  | some value => .ok value
  | none => .error error

@[simp]
theorem failIf_eq_ok {condition : Prop} [Decidable condition] {error : ε} {u : Unit} :
    failIf condition error = .ok u ↔ ¬ condition := by
  by_cases h : condition <;> simp [failIf, h]

@[simp]
theorem okOr_eq_ok {value : Option α} {error : ε} {a : α} :
    okOr value error = .ok a ↔ value = some a := by
  cases value <;> simp [okOr]

/-! ### Errors -/

/-- Whatever error a step fails with has a property. -/
def FailsWith (P : ε → Prop) (x : Except ε α) : Prop := ∀ e, x = .error e → P e

section

variable {P : ε → Prop}

theorem FailsWith.bind {x : Except ε α} {f : α → Except ε β} (hx : FailsWith P x)
    (hf : ∀ a, FailsWith P (f a)) : FailsWith P (x >>= f) := by
  intro e he
  rcases bind_eq_error.mp he with h | ⟨a, -, h⟩
  · exact hx e h
  · exact hf a e h

theorem FailsWith.ok (a : α) : FailsWith P (.ok a : Except ε α) := by
  intro e he
  cases he

theorem FailsWith.error {e : ε} (h : P e) : FailsWith P (.error e : Except ε α) := by
  intro e' he
  cases he
  exact h

theorem FailsWith.failIf {condition : Prop} [Decidable condition] {e : ε} (h : P e) :
    FailsWith P (failIf condition e) := by
  unfold CodexApi.failIf
  split
  · exact .error h
  · exact .ok ()

theorem FailsWith.okOr {value : Option α} {e : ε} (h : P e) : FailsWith P (okOr value e) := by
  cases value with
  | none => exact .error h
  | some a => exact .ok a

end

end CodexApi
