import Mathlib.Data.List.Basic
import Mathlib.Data.List.Induction
import Mathlib.Order.Basic

/-!
# Runs of labelled transition systems

A transition system is a relation `step : σ → α → σ → Prop`: in state `s`, the label `a` may
lead to `t`. Labels carry every choice that is not the system's own (which component moves,
what the environment answers, what a clock shows), so a list of labels is one interleaving
and `Run step s as t` says that this interleaving leads from `s` to `t`.

Three things are done once here. An invariant that a step keeps is kept by a run
(`Run.invariant`), also when only the steps meeting a condition are taken
(`restrict`), or when it speaks of the labels taken so far (`Run.history`). A quantity that
no step lowers is not lowered by a run (`Run.monotone`). A property that fails at the start of
a run and holds at its end is crossed by one of its steps (`Run.exists_crossing`).
-/

namespace CodexApi.Transition

variable {σ α : Type*}

/-- `Run step s as t`: the labels `as`, taken in order, lead from `s` to `t`. -/
inductive Run (step : σ → α → σ → Prop) : σ → List α → σ → Prop
  | nil (s : σ) : Run step s [] s
  | cons {s t u : σ} {a : α} {as : List α} :
      step s a t → Run step t as u → Run step s (a :: as) u

/-- The steps of `step` whose state and label meet the condition `ok`. -/
def restrict (step : σ → α → σ → Prop) (ok : σ → α → Prop) : σ → α → σ → Prop :=
  fun s a t => ok s a ∧ step s a t

/-- The transition relation of a partial step function. -/
def ofFun (f : σ → α → Option σ) : σ → α → σ → Prop :=
  fun s a t => f s a = some t

/-- Runs a partial step function along a list of labels. -/
def exec (f : σ → α → Option σ) : σ → List α → Option σ
  | s, [] => some s
  | s, a :: as => (f s a).bind fun t => exec f t as

variable {step : σ → α → σ → Prop} {s t u : σ} {a : α} {as bs : List α}

/-! ### Composing and splitting runs -/

@[simp]
theorem run_nil_iff : Run step s [] t ↔ s = t := by
  constructor
  · intro h
    cases h
    rfl
  · rintro rfl
    exact .nil s

theorem run_cons_iff : Run step s (a :: as) u ↔ ∃ t, step s a t ∧ Run step t as u := by
  constructor
  · intro h
    cases h with
    | cons hstep hrun => exact ⟨_, hstep, hrun⟩
  · rintro ⟨t, hstep, hrun⟩
    exact .cons hstep hrun

/-- A single step is a run. -/
theorem Run.single (h : step s a t) : Run step s [a] t :=
  .cons h (.nil t)

/-- Runs compose. -/
theorem Run.append (h₁ : Run step s as t) (h₂ : Run step t bs u) : Run step s (as ++ bs) u := by
  induction h₁ with
  | nil => exact h₂
  | cons hstep _ ih => exact .cons hstep (ih h₂)

/-- A run over `as ++ bs` passes through a middle state. -/
theorem run_append_iff : Run step s (as ++ bs) u ↔ ∃ t, Run step s as t ∧ Run step t bs u := by
  constructor
  · induction as generalizing s with
    | nil => exact fun h => ⟨s, .nil s, h⟩
    | cons a as ih =>
      intro h
      obtain ⟨v, hstep, hrun⟩ := run_cons_iff.mp h
      obtain ⟨t, hleft, hright⟩ := ih hrun
      exact ⟨t, .cons hstep hleft, hright⟩
  · rintro ⟨t, hleft, hright⟩
    exact hleft.append hright

/-- Dropping the condition of a restricted run. -/
theorem Run.of_restrict {ok : σ → α → Prop} (h : Run (restrict step ok) s as t) :
    Run step s as t := by
  induction h with
  | nil s => exact .nil s
  | cons hstep _ ih => exact .cons hstep.2 ih

/-- A run whose labels all meet a condition is a restricted run. -/
theorem Run.restrict_of_forall {ok : α → Prop} (h : Run step s as t) (hok : ∀ a ∈ as, ok a) :
    Run (restrict step fun _ => ok) s as t := by
  induction h with
  | nil s => exact .nil s
  | cons hstep _ ih =>
    exact .cons ⟨hok _ List.mem_cons_self, hstep⟩
      (ih fun b hb => hok b (List.mem_cons_of_mem _ hb))

/-! ### What a run keeps -/

/-- **Invariants.** What every step keeps, every run keeps. -/
theorem Run.invariant {I : σ → Prop} (hstep : ∀ s a t, I s → step s a t → I t)
    (h : Run step s as t) (hs : I s) : I t := by
  induction h with
  | nil => exact hs
  | cons hst _ ih => exact ih (hstep _ _ _ hs hst)

/-- **Monotone quantities.** What no step lowers, no run lowers. -/
theorem Run.monotone {β : Type*} [Preorder β] {f : σ → β}
    (hstep : ∀ s a t, step s a t → f s ≤ f t) (h : Run step s as t) : f s ≤ f t := by
  induction h with
  | nil => exact le_rfl
  | cons hst _ ih => exact (hstep _ _ _ hst).trans ih

/-- As `Run.monotone`, for steps taken from states that satisfy an invariant. -/
theorem Run.monotone_of_invariant {β : Type*} [Preorder β] {I : σ → Prop} {f : σ → β}
    (hinv : ∀ s a t, I s → step s a t → I t)
    (hstep : ∀ s a t, I s → step s a t → f s ≤ f t) (h : Run step s as t) (hs : I s) :
    f s ≤ f t := by
  induction h with
  | nil => exact le_rfl
  | cons hst _ ih => exact (hstep _ _ _ hs hst).trans (ih (hinv _ _ _ hs hst))

/-- **Invariants with a history.** What holds before any step and is kept by a step that extends
the labels holds of every run and its labels. -/
theorem Run.history {P : List α → σ → Prop} (hs : P [] s)
    (hstep : ∀ as u a t, Run step s as u → P as u → step u a t → P (as ++ [a]) t)
    (h : Run step s as t) : P as t := by
  induction as using List.reverseRecOn generalizing t with
  | nil =>
    cases h
    exact hs
  | append_singleton as a ih =>
    obtain ⟨u, hrun, hlast⟩ := run_append_iff.mp h
    obtain ⟨v, hlast, hnil⟩ := run_cons_iff.mp hlast
    rw [← run_nil_iff.mp hnil]
    exact hstep as u a v hrun (ih hrun) hlast

/-- **Crossing.** A property that fails before a run and holds after it starts to hold at one
of its steps. -/
theorem Run.exists_crossing {P : σ → Prop} (h : Run step s as u) (hs : ¬ P s) (hu : P u) :
    ∃ pre a post v w, as = pre ++ a :: post ∧ Run step s pre v ∧ ¬ P v ∧ step v a w ∧ P w ∧
      Run step w post u := by
  induction h with
  | nil => exact absurd hu hs
  | @cons s t u a as hst hrun ih =>
    by_cases ht : P t
    · exact ⟨[], a, as, s, t, rfl, .nil s, hs, hst, ht, hrun⟩
    · obtain ⟨pre, b, post, v, w, rfl, hpre, hv, hvw, hw, hpost⟩ := ih ht hu
      exact ⟨a :: pre, b, post, v, w, rfl, .cons hst hpre, hv, hvw, hw, hpost⟩

/-! ### Step functions -/

/-- Running a step function is the run relation of its graph. -/
theorem run_ofFun_iff {f : σ → α → Option σ} :
    Run (ofFun f) s as t ↔ exec f s as = some t := by
  induction as generalizing s with
  | nil => simp [exec]
  | cons a as ih =>
    rw [run_cons_iff, exec, Option.bind_eq_some_iff]
    exact exists_congr fun v => and_congr Iff.rfl ih

/-- Running a step function that checks a condition takes steps that meet it. -/
theorem Run.of_guarded {f : σ → α → Option σ} {ok : σ → α → Prop} [∀ s a, Decidable (ok s a)]
    (h : exec (fun s a => if ok s a then f s a else none) s as = some t) :
    Run (restrict (ofFun f) ok) s as t := by
  have hrun := run_ofFun_iff.mpr h
  clear h
  induction hrun with
  | nil s => exact .nil s
  | cons hstep _ ih =>
    obtain ⟨hok, hstep⟩ := Option.ite_none_right_eq_some.mp hstep
    exact .cons ⟨hok, hstep⟩ ih

/-- The labels of a step function determine where a run ends. -/
theorem Run.eq_of_ofFun {f : σ → α → Option σ} (h : Run (ofFun f) s as t)
    (h' : Run (ofFun f) s as u) : t = u :=
  Option.some.inj ((run_ofFun_iff.mp h).symm.trans (run_ofFun_iff.mp h'))

end CodexApi.Transition
