import CodexApi.Delivery.Logs

/-!
# Contracts along traces

What the code of a part respects, its trace shows. For a contract whose replies are all allowed, the
ghost state follows the trace (`ghostOf`), and every effect of the trace was allowed when it began
(`Kept`). A part that starts with code that respects the contract keeps to it (`Part.Keeps.step`).
What every step keeps holds of all parts (`System.forall_parts_step`), and of the parts of a run
together with the requests that they were started for (`System.requested_of_run`).
-/

namespace CodexApi.Delivery

open Transition
open Program (Contract Safe)

section

variable {σ : Type} (C : Contract Effect Effect.Reply Loop σ) (start : σ)

/-- The ghost state after a trace. -/
def ghostOf (trace : List Entry) : σ :=
  trace.foldl (fun ghost entry => C.after ghost entry.effect entry.reply) start

/-- Every effect of a trace was allowed when it began. -/
def Kept (trace : List Entry) : Prop :=
  ∀ before entry after, trace = before ++ entry :: after →
    C.pre (ghostOf C start before) entry.effect

/-- The code of a part respects a contract, and has respected it. -/
structure Part.Keeps (Q : σ → Prop) (part : Part) : Prop where
  code : ∀ code, part.code = some code →
    Safe C (fun ghost _ => Q ghost) code (ghostOf C start part.trace)
  kept : Kept C start part.trace

end

variable {σ : Type} {C : Contract Effect Effect.Reply Loop σ} {start : σ} {Q : σ → Prop}
  {trace before after : List Entry} {entry : Entry} {sh sh' : Shared} {index : Nat}
  {part part' : Part} {config : Config} {isHttpDate : String → Bool} {s t : System}

/-! ### Traces -/

theorem ghostOf_append (trace : List Entry) (entry : Entry) :
    ghostOf C start (trace ++ [entry]) = C.after (ghostOf C start trace) entry.effect entry.reply := by
  rw [ghostOf, List.foldl_append]
  rfl

theorem Kept.nil : Kept C start [] := fun _ _ _ h => by simp at h

theorem Kept.append (h : Kept C start trace) (hpre : C.pre (ghostOf C start trace) entry.effect) :
    Kept C start (trace ++ [entry]) := by
  intro before entry' after heq
  rcases append_singleton_eq_append_cons heq with ⟨rfl, rfl, -⟩ | ⟨after', -, htail⟩
  · exact hpre
  · exact h before entry' after' htail

/-- An initial part of a trace, and the effect after it. -/
theorem Kept.init (h : Kept C start (trace ++ entry :: after)) : Kept C start trace :=
  fun before entry' after' heq => h before entry' (after' ++ entry :: after) (by rw [heq]; simp)

/-- **Induction along a trace.** What holds at the start and is kept by every effect that is allowed
holds of every trace. -/
theorem Kept.induction {P : List Entry → Prop} (h : Kept C start trace) (hnil : P [])
    (hstep : ∀ trace entry, Kept C start trace → C.pre (ghostOf C start trace) entry.effect →
      P trace → P (trace ++ [entry])) : P trace := by
  induction trace using List.reverseRecOn with
  | nil => exact hnil
  | append_singleton trace entry ih =>
    exact hstep trace entry h.init (h trace entry [] rfl) (ih h.init)

/-! ### Parts -/

/-- **A step of a part** keeps its code to the contract. -/
theorem Part.Keeps.step (hk : part.Keeps C start Q)
    (hmay : ∀ (ghost : σ) (effect : Effect) (reply : effect.Reply), C.may ghost effect reply)
    (hloops : ∀ (ghost : σ) (loop : Loop), C.entry loop ghost →
      Safe C (fun ghost _ => Q ghost) (loop.code config isHttpDate) ghost)
    {move : Move} (h : partStep config isHttpDate index sh part move = some (sh', part')) :
    part'.Keeps C start Q := by
  obtain ⟨-, -, -, hgoes⟩ := goes_of_partStep h
  cases hgoes with
  | stays htrace hcode =>
    refine ⟨fun code hcode' => ?_, htrace ▸ hk.kept⟩
    rcases hcode with hcode | hcode
    · exact htrace ▸ hk.code code (hcode ▸ hcode')
    · rw [hcode] at hcode'
      cases hcode'
  | unfolds htrace hjump hcode =>
    refine ⟨fun code hcode' => ?_, htrace ▸ hk.kept⟩
    rw [hcode] at hcode'
    cases hcode'
    rw [htrace]
    exact hloops _ _ (hk.code _ hjump)
  | replies hop hperform hcode htrace =>
    obtain ⟨hpre, hnext⟩ := hk.code _ hop
    refine ⟨fun code hcode' => ?_, htrace ▸ hk.kept.append hpre⟩
    rw [hcode] at hcode'
    cases hcode'
    rw [htrace, ghostOf_append]
    exact hnext _ (hmay _ _ _)

/-! ### All parts -/

/-- **What holds of all parts.** A property of a part and of what all parts share holds of all parts
after a step if it outlasts what a step does to the shared state, holds of a new part, and is kept by
the part that takes the step. -/
theorem System.forall_parts_step {P : Shared → Part → Prop} {action : Action}
    (h : systemStep config isHttpDate s action = some t)
    (hshared : ∀ part, P s.shared part → P t.shared part)
    (hstart : ∀ request, P t.shared (Request.part config request))
    (hmove : ∀ index part move part', s.parts[index]? = some part →
      partStep config isHttpDate index s.shared part move = some (t.shared, part') →
      P t.shared part → P t.shared part')
    (hall : ∀ part ∈ s.parts, P s.shared part) : ∀ part ∈ t.parts, P t.shared part := by
  cases action with
  | start request =>
    cases h
    intro part hpart
    rcases List.mem_append.mp hpart with hpart | hpart
    · exact hshared part (hall part hpart)
    · rw [List.mem_singleton.mp hpart]
      exact hstart request
  | shutdown =>
    cases h
    exact fun part hpart => hshared part (hall part hpart)
  | part index move =>
    simp only [systemStep] at h
    obtain ⟨part, hpart, h⟩ := Option.bind_eq_some_iff.mp h
    obtain ⟨⟨sh', part'⟩, hstep, heq⟩ := Option.bind_eq_some_iff.mp h
    cases heq
    intro part'' hpart''
    rcases List.mem_or_eq_of_mem_set hpart'' with hpart'' | rfl
    · exact hshared part'' (hall part'' hpart'')
    · exact hmove index part move _ hpart hstep (hshared part (hall part (List.mem_of_getElem? hpart)))

/-! ### Requests -/

/-- The request that an action starts. -/
def Action.request? : Action → Option Request
  | .start request => some request
  | _ => none

/-- **Parts and their requests.** What holds of the part of every request, and is kept by every step
of a sound part, holds of every part of a run and the request that it was started for. -/
theorem System.requested_of_run {P : Request → Part → Prop} {actions : List Action}
    (hstart : ∀ request, P request (request.part config))
    (hstep : ∀ request index sh part move sh' part', part.Sound sh index → P request part →
      partStep config isHttpDate index sh part move = some (sh', part') → P request part')
    (h : SystemRun config isHttpDate .init actions s) {index : Nat} {part : Part}
    (hpart : s.parts[index]? = some part) :
    ∃ request, (actions.filterMap Action.request?)[index]? = some request ∧ P request part := by
  suffices hall : s.parts.length = (actions.filterMap Action.request?).length ∧
      ∀ (index : Nat) (part : Part), s.parts[index]? = some part → ∃ request,
        (actions.filterMap Action.request?)[index]? = some request ∧ P request part from
    hall.2 index part hpart
  refine h.history (P := fun actions (s : System) =>
    s.parts.length = (actions.filterMap Action.request?).length ∧
      ∀ (index : Nat) (part : Part), s.parts[index]? = some part → ∃ request,
        (actions.filterMap Action.request?)[index]? = some request ∧ P request part)
    ⟨rfl, fun _ _ h => by cases h⟩ fun actions u action t hrun hu hstep' => ?_
  obtain ⟨hlength, hparts⟩ := hu
  rw [List.filterMap_append]
  cases action with
  | start request =>
    cases hstep'
    refine ⟨by simp [hlength, Action.request?], fun index part hpart => ?_⟩
    rcases getElem?_append_singleton_cases hpart with hpart | ⟨rfl, rfl⟩
    · obtain ⟨request', hrequest, hP⟩ := hparts index part hpart
      exact ⟨request', getElem?_append_of_some _ hrequest, hP⟩
    · exact ⟨request, by rw [hlength]; simp [Action.request?], hstart request⟩
  | shutdown =>
    cases hstep'
    have hnone : [Action.shutdown].filterMap Action.request? = [] := rfl
    rw [hnone, List.append_nil]
    exact ⟨hlength, hparts⟩
  | part index move =>
    have hnone : [Action.part index move].filterMap Action.request? = [] := rfl
    rw [hnone, List.append_nil]
    obtain ⟨part, hpart, hstep'⟩ := Option.bind_eq_some_iff.mp hstep'
    obtain ⟨⟨sh', part'⟩, hmove, heq⟩ := Option.bind_eq_some_iff.mp hstep'
    cases heq
    refine ⟨by simpa using hlength, fun index' part'' hpart' => ?_⟩
    rcases getElem?_set_cases hpart' with ⟨rfl, rfl⟩ | ⟨-, hpart'⟩
    · obtain ⟨request, hrequest, hP⟩ := hparts _ part hpart
      have hsound := (System.sound_of_run hrun).parts _ part hpart
      exact ⟨request, hrequest, hstep request _ _ part move _ _ hsound hP hmove⟩
    · exact hparts index' part'' hpart'

end CodexApi.Delivery
