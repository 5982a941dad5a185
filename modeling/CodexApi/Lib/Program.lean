import Mathlib.Init

/-!
# Programs that wait for replies

A `Program` does operations one after another, each of which gets a reply, and ends with a value.
Operations are abstract, so a program has no effects of its own: a system runs it by answering its
operations, and between two of them the rest of the system may move. A loop is a jump to a label
that the system unfolds.

`Safe` is the logic of one program in such a system. The part of the state that a program may rely
on is a ghost state that only its own operations change; a `Contract` says what must hold when an
operation is begun, which replies it may get, and what it does to the ghost state. A safe
program begins its operations only where the contract lets it, whatever the replies.
-/

namespace CodexApi

/-- A program over operations `Op` with the replies `Reply` and the labels `Label`. -/
inductive Program (Op : Type) (Reply : Op → Type) (Label : Type) (α : Type)
  | pure (value : α)
  | jump (label : Label)
  | op (operation : Op) (next : Reply operation → Program Op Reply Label α)

namespace Program

variable {Op : Type} {Reply : Op → Type} {Label : Type} {α β : Type}

/-- A program followed by another. A jump does not come back. -/
def bind : Program Op Reply Label α → (α → Program Op Reply Label β) → Program Op Reply Label β
  | pure value, f => f value
  | jump label, _ => jump label
  | op operation next, f => op operation fun reply => (next reply).bind f

instance : Monad (Program Op Reply Label) where
  pure := pure
  bind := bind

/-- A single operation. -/
def perform (operation : Op) : Program Op Reply Label (Reply operation) := op operation pure

@[simp]
theorem bind_pure_left (value : α) (f : α → Program Op Reply Label β) :
    (Pure.pure value : Program Op Reply Label α) >>= f = f value := rfl

@[simp]
theorem bind_jump (label : Label) (f : α → Program Op Reply Label β) :
    (jump label : Program Op Reply Label α) >>= f = jump label := rfl

@[simp]
theorem bind_op (operation : Op) (next : Reply operation → Program Op Reply Label α)
    (f : α → Program Op Reply Label β) :
    op operation next >>= f = op operation fun reply => next reply >>= f := rfl

@[simp]
theorem bind_perform (operation : Op) (f : Reply operation → Program Op Reply Label β) :
    perform operation >>= f = op operation f := rfl

/-! ### Runs -/

/-- A run of a program to its end: the operations it does with the replies it gets, and its value. -/
inductive Runs : Program Op Reply Label α → List (Sigma Reply) → α → Prop
  | pure (value : α) : Runs (.pure value) [] value
  | op {operation : Op} {next : Reply operation → Program Op Reply Label α}
      {trace : List (Sigma Reply)} {value : α} (reply : Reply operation)
      (rest : Runs (next reply) trace value) :
      Runs (.op operation next) (⟨operation, reply⟩ :: trace) value

@[simp]
theorem runs_pure {trace : List (Sigma Reply)} {value value' : α} :
    Runs (Pure.pure value : Program Op Reply Label α) trace value' ↔ trace = [] ∧ value' = value := by
  constructor
  · intro h
    cases h
    exact ⟨rfl, rfl⟩
  · rintro ⟨rfl, rfl⟩
    exact .pure value'

@[simp]
theorem runs_op {operation : Op} {next : Reply operation → Program Op Reply Label α}
    {trace : List (Sigma Reply)} {value : α} :
    Runs (op operation next) trace value ↔
      ∃ reply rest, trace = ⟨operation, reply⟩ :: rest ∧ Runs (next reply) rest value := by
  constructor
  · intro h
    cases h with
    | op reply rest => exact ⟨reply, _, rfl, rest⟩
  · rintro ⟨reply, rest, rfl, h⟩
    exact .op reply h

theorem runs_op_cons {operation : Op} {next : Reply operation → Program Op Reply Label α}
    {reply : Reply operation} {trace : List (Sigma Reply)} {value : α} :
    Runs (op operation next) (⟨operation, reply⟩ :: trace) value ↔
      Runs (next reply) trace value := by
  constructor
  · intro h
    cases h with
    | op reply rest => exact rest
  · exact .op reply

/-! ### The logic of one program -/

/-- What a program must respect: when it may begin an operation, which replies it may get, what
an operation with a reply does to the ghost state, and when it may jump. -/
structure Contract (Op : Type) (Reply : Op → Type) (Label : Type) (σ : Type) where
  pre : σ → Op → Prop
  may : σ → (operation : Op) → Reply operation → Prop
  after : σ → (operation : Op) → Reply operation → σ
  entry : Label → σ → Prop

variable {σ : Type} {C : Contract Op Reply Label σ} {s : σ}
  {program : Program Op Reply Label α} {f : α → Program Op Reply Label β}
  {Q Q' : σ → α → Prop} {R : σ → β → Prop}

/-- A program respects a contract from a ghost state on, and ends where `Q` holds. -/
def Safe (C : Contract Op Reply Label σ) (Q : σ → α → Prop) :
    Program Op Reply Label α → σ → Prop
  | pure value, s => Q s value
  | jump label, s => C.entry label s
  | op operation next, s => C.pre s operation ∧
      ∀ reply, C.may s operation reply → Safe C Q (next reply) (C.after s operation reply)

@[simp]
theorem safe_pure {value : α} : Safe C Q (Pure.pure value) s ↔ Q s value := Iff.rfl

@[simp]
theorem safe_jump {label : Label} : Safe C Q (jump label) s ↔ C.entry label s := Iff.rfl

theorem safe_op {operation : Op} {next : Reply operation → Program Op Reply Label α} :
    Safe C Q (op operation next) s ↔ C.pre s operation ∧
      ∀ reply, C.may s operation reply → Safe C Q (next reply) (C.after s operation reply) :=
  Iff.rfl

/-- **Consequence.** -/
theorem Safe.mono (h : Safe C Q program s) (hQ : ∀ s value, Q s value → Q' s value) :
    Safe C Q' program s := by
  induction program generalizing s with
  | pure value => exact hQ s value h
  | jump label => exact h
  | op operation next ih => exact ⟨h.1, fun reply hreply => ih reply (h.2 reply hreply)⟩

/-- **Sequence.** -/
theorem Safe.bind (h : Safe C Q program s) (hf : ∀ s value, Q s value → Safe C R (f value) s) :
    Safe C R (program >>= f) s := by
  induction program generalizing s with
  | pure value => exact hf s value h
  | jump label => exact h
  | op operation next ih => exact ⟨h.1, fun reply hreply => ih reply (h.2 reply hreply)⟩

/-- An operation and what comes after it. -/
theorem Safe.perform_bind {operation : Op} {f : Reply operation → Program Op Reply Label β}
    (hpre : C.pre s operation)
    (hf : ∀ reply, C.may s operation reply → Safe C R (f reply) (C.after s operation reply)) :
    Safe C R (perform operation >>= f) s :=
  ⟨hpre, hf⟩

end Program

end CodexApi
