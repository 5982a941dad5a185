import CodexApi.Lib.Except

/-!
# Functions that may panic

A panic unwinds through every caller, whereas an error is a value that a caller looks at. So a
function that may do both is a `Panicking` computation: `Except Panic` is the outer layer, and the
`Result` the function returns is the inner one.

`Returns program result` says that a program does not panic and returns `result`. Its rules follow
a program step by step, so that a program whose panics are never reached is compared with a function
that has none.
-/

namespace CodexApi

/-- A panic, with its message. -/
structure Panic where
  message : String
deriving DecidableEq

/-- A function that returns a `Result` and may panic. -/
abbrev Panicking (ε α : Type) := ExceptT ε (Except Panic) α

variable {ε α β : Type}

/-- `expect`. -/
def expect (value : Option α) (message : String) : Except Panic α :=
  match value with
  | some value => .ok value
  | none => .error ⟨message⟩

/-- A call of a function that returns a `Result` and does not panic. -/
def call (result : Except ε α) : Panicking ε α := ExceptT.mk (.ok result)

/-- A call of a function that may panic and returns no `Result`. -/
def evaluate (step : Except Panic α) : Panicking ε α := ExceptT.lift step

/-- **A program that does not panic** and returns a result. -/
def Returns (program : Panicking ε α) (result : Except ε α) : Prop := program.run = .ok result

@[simp]
theorem expect_eq_ok {value : Option α} {message : String} {a : α} :
    expect value message = .ok a ↔ value = some a := by
  cases value <;> simp [expect]

namespace Returns

theorem pure (a : α) : Returns (Pure.pure a : Panicking ε α) (.ok a) := rfl

theorem throw (error : ε) : Returns (MonadExcept.throw error : Panicking ε α) (.error error) := rfl

theorem call (result : Except ε α) : Returns (CodexApi.call result) result := rfl

/-- One step after another. The second one may rely on what the first one has returned. -/
theorem bind {program : Panicking ε α} {result : Except ε α} {next : α → Panicking ε β}
    {next' : α → Except ε β} (h : Returns program result)
    (hnext : ∀ a, result = .ok a → Returns (next a) (next' a)) :
    Returns (program >>= next) (result >>= next') := by
  unfold Returns at *
  rw [ExceptT.run_bind, h]
  cases result with
  | error error => rfl
  | ok a => exact hnext a rfl

/-- A step whose result is known. -/
theorem bind_ok {program : Panicking ε α} {a : α} {next : α → Panicking ε β} {result : Except ε β}
    (h : Returns program (.ok a)) (hnext : Returns (next a) result) :
    Returns (program >>= next) result := by
  have hbind : Returns (program >>= next) ((.ok a : Except ε α) >>= fun _ => result) :=
    bind h fun _ heq => by cases heq; exact hnext
  exact hbind

/-- A step whose error ends the program. -/
theorem bind_error {program : Panicking ε α} {error : ε} {next : α → Panicking ε β}
    (h : Returns program (.error error)) : Returns (program >>= next) (.error error) := by
  have hbind : Returns (program >>= next)
      ((.error error : Except ε α) >>= fun _ => (.error error : Except ε β)) :=
    bind h fun _ heq => by cases heq
  exact hbind

/-- A step that has no errors, and does not panic. -/
theorem evaluate {step : Except Panic α} {a : α} (h : step = .ok a) :
    Returns (CodexApi.evaluate step : Panicking ε α) (.ok a) := by
  rw [h]
  rfl

end Returns

end CodexApi
