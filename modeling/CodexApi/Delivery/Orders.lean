import CodexApi.Delivery.Logs

/-!
# How finalizations are ordered

A finalization of a row is ordered in four ways: a WebSocket session awaits it, `finish` or
`finish_terminal` spawns a task for it, and a `PendingRequest` cancels its row when it is dropped at
the end of its scope or with its handler (`Part.Orders`). The attempts of a task and the
finalizations in the books all go back to such an order, so what holds of every order holds of them
(`System.AllOrdered.step`).
-/

namespace CodexApi.Delivery

open Transition

variable {sh sh' : Shared} {index : Nat} {part part' : Part} {response : Response}
  {config : Config} {isHttpDate : String → Bool} {s t : System} {id : RequestId}
  {attempts : List Attempt} {attempt : Attempt} {retry : Bool} {word : Word}

/-- A part orders the attempts to finalize a row, with the last word on its operation. -/
inductive Part.Orders (sh : Shared) (part : Part) (id : RequestId) : List Attempt → Word → Prop
  | finalize {attempt : Attempt} {next : Except StoreError Unit → Code Unit}
    (hcode : part.code = some (.op (.finalize id attempt) next)) :
    Orders sh part id [attempt] (wordOf part.trace)
  | spawn {attempts : List Attempt} {next : Unit → Code Unit} {httpStatus : Option Nat}
    (hcode : part.code = some (.op (.spawnFinalizer attempts) next))
    (hguarded : part.custody = .guarded id httpStatus) :
    Orders sh part id attempts (wordOf part.trace)
  | drop {next : Unit → Code Unit} {httpStatus : Option Nat}
    (hcode : part.code = some (.op .dropPending next))
    (hguarded : part.custody = .guarded id httpStatus) :
    Orders sh part id [⟨.canceled, httpStatus, none⟩] (wordOf part.trace)
  | leave {effect : Effect} {next : effect.Reply → Code Unit} {httpStatus : Option Nat}
    (hpath : part.path ≠ .webSocket) (hcode : part.code = some (.op effect next))
    (hawaits : effect.awaits = true) (hguarded : part.custody = .guarded id httpStatus) :
    Orders sh part id [⟨.canceled, httpStatus, none⟩] ⟨.interrupted .clientGone, false, sh.shutdown⟩

/-- Where the finalizations and the attempts after a step of a part come from. -/
structure Part.Stems (sh : Shared) (part : Part) (sh' : Shared) (part' : Part) : Prop where
  finalized : ∀ f ∈ sh'.finalized, f ∈ sh.finalized ∨ part.Orders sh f.id [f.attempt] f.word ∨
    ∃ attempts retry, part.custody = .closing f.id attempts retry f.word ∧ f.attempt ∈ attempts
  closing : ∀ id attempts retry word, part'.custody = .closing id attempts retry word →
    part.Orders sh id attempts word ∨
      ∃ earlier retry', part.custody = .closing id earlier retry' word ∧ attempts ⊆ earlier

/-- A step that orders nothing. -/
theorem Part.Stems.of_same (hfinalized : sh'.finalized = sh.finalized)
    (hcustody : ∀ id attempts retry word, part'.custody = .closing id attempts retry word →
      part.custody = .closing id attempts retry word) : part.Stems sh sh' part' :=
  ⟨fun _ hf => .inl (hfinalized ▸ hf),
    fun id attempts retry word h => .inr ⟨attempts, retry, hcustody id attempts retry word h,
      List.Subset.refl _⟩⟩

theorem Part.stems_of_minor {effect : Effect} {reply : effect.Reply}
    (hminor : effect.minor = true)
    (h : part.perform sh effect response = some (reply, sh', part')) : part.Stems sh sh' part' := by
  obtain ⟨rfl, halike⟩ := Part.alike_of_perform hminor h
  exact .of_same rfl fun id attempts retry word hclosing => halike.custody ▸ hclosing

theorem Part.stems_of_perform {effect : Effect} {next : effect.Reply → Code Unit}
    {reply : effect.Reply} (hs : part.Sound sh index) (hcode : part.code = some (.op effect next))
    (h : part.perform sh effect response = some (reply, sh', part')) : part.Stems sh sh' part' := by
  cases hminor : effect.minor with
  | true => exact Part.stems_of_minor hminor h
  | false =>
    cases effect with
    | insert insertion =>
      cases response <;> try cases h
      · simp only [Part.perform] at h
        split at h <;> cases h
        exact .of_same rfl fun id attempts retry word h => h
      · exact .of_same rfl fun id attempts retry word h => h
    | finalize id attempt =>
      cases response <;> try cases h
      · simp only [Part.perform] at h
        split at h <;> cases h
        · refine ⟨fun f hf => ?_, fun id attempts retry word h =>
            .inr ⟨attempts, retry, h, List.Subset.refl _⟩⟩
          rcases List.mem_append.mp hf with hf | hf
          · exact .inl hf
          · rw [List.mem_singleton.mp hf]
            exact .inr (.inl (.finalize hcode))
        · exact .of_same rfl fun id attempts retry word h => h
      · exact .of_same rfl fun id attempts retry word h => h
    | newPending id =>
      cases response <;> cases h
      exact .of_same rfl fun id attempts retry word h => by cases h
    | responseStarted httpStatus =>
      cases response <;> try cases h
      simp only [Part.perform] at h
      split at h <;> cases h
      exact .of_same rfl fun id attempts retry word h => by cases h
    | spawnFinalizer attempts =>
      cases response <;> try cases h
      simp only [Part.perform] at h
      split at h <;> cases h
      rename_i hguarded
      refine ⟨fun f hf => .inl hf, fun id attempts retry word h => ?_⟩
      cases h
      exact .inl (.spawn hcode hguarded)
    | join =>
      rw [Part.perform_of_plain rfl, Option.map_eq_some_iff] at h
      obtain ⟨reply', -, heq⟩ := h
      cases heq
      exact .of_same rfl fun id attempts retry word h => h
    | dropPending =>
      cases response <;> cases h
      refine ⟨fun f hf => .inl hf, fun id attempts retry word h => ?_⟩
      simp only [Part.orderDrop] at h
      split at h
      · rename_i hguarded
        cases h
        exact .inl (.drop hcode hguarded)
      · exact .inr ⟨attempts, retry, h, List.Subset.refl _⟩
    | select closable effect =>
      -- A `select!` only waits for a task; it orders nothing.
      rcases Part.perform_select h with ⟨-, -, rfl, rfl⟩ | ⟨-, -, -, rfl, rfl⟩ |
        ⟨inner, reply, rfl, hperform, -⟩
      · exact .of_same rfl fun id attempts retry word h => h
      · exact .of_same rfl fun id attempts retry word h => h
      · obtain ⟨⟨-, hwaits⟩, -⟩ := hs.pre hcode
        cases effect with
        | join =>
          rw [Part.perform_of_plain rfl, Option.map_eq_some_iff] at hperform
          obtain ⟨reply', -, heq⟩ := hperform
          cases heq
          exact .of_same rfl fun id attempts retry word h => h
        | select closable effect =>
          cases effect with
          | next => cases hminor
          | _ => exact hwaits.elim
        | insert | finalize | newPending | responseStarted | spawnFinalizer | dropPending =>
          exact hwaits.elim
        | _ => cases hminor
    | _ => cases hminor

/-- **What a step orders.** -/
theorem stems_of_partStep (hs : part.Sound sh index) {move : Move}
    (h : partStep config isHttpDate index sh part move = some (sh', part')) :
    part.Stems sh sh' part' := by
  cases move with
  | reply response =>
    simp only [partStep] at h
    split at h
    · rename_i effect next hcode
      obtain ⟨⟨reply, sh'', part''⟩, hperform, heq⟩ := Option.bind_eq_some_iff.mp h
      cases heq
      obtain ⟨hfinalized, hclosing⟩ := Part.stems_of_perform hs hcode hperform
      exact ⟨hfinalized, hclosing⟩
    · cases h
  | unfold =>
    simp only [partStep] at h
    split at h
    · cases h
      exact .of_same rfl fun id attempts retry word h => h
    · cases h
  | execute =>
    simp only [partStep, Part.execute, Part.insertInto] at h
    split at h
    · split at h <;> cases h
      exact .of_same rfl fun id attempts retry word h => h
    · split at h <;> cases h
      exact .of_same rfl fun id attempts retry word h => h
    · cases h
  | disconnect =>
    obtain ⟨part'', hpart, heq⟩ := Option.map_eq_some_iff.mp h
    cases heq
    unfold Part.disconnect at hpart
    split at hpart
    case h_1 | h_2 | h_3 | h_4 | h_5 =>
      cases hpart
      exact .of_same rfl fun id attempts retry word h => h
    case h_7 => cases hpart
    rename_i effect next hplace hcode hpath
    simp only [Option.ite_none_right_eq_some, Option.some.injEq] at hpart
    obtain ⟨hawaits, rfl⟩ := hpart
    refine ⟨fun f hf => .inl hf, fun id attempts retry word h => ?_⟩
    simp only [Part.dropHandler, Part.orderDrop] at h
    split at h
    · rename_i hguarded
      cases h
      exact .inl (.leave hpath hcode hawaits hguarded)
    · exact .inr ⟨attempts, retry, h, List.Subset.refl _⟩
  | finalizer now =>
    simp only [partStep, Part.finalizer] at h
    split at h
    · rename_i id attempt attempts retry word hclosing
      split at h
      · cases h
        refine ⟨fun f hf => ?_, fun id attempts retry word h => by cases h⟩
        rcases List.mem_append.mp hf with hf | hf
        · exact .inl hf
        · rw [List.mem_singleton.mp hf]
          exact .inr (.inr ⟨_, _, hclosing, List.mem_cons_self⟩)
      · cases h
        refine ⟨fun f hf => .inl hf, fun id' attempts' retry' word' h => ?_⟩
        simp only at h
        split_ifs at h
        cases h
        exact .inr ⟨_, _, hclosing, List.subset_cons_self _ _⟩
    · cases h

/-! ### What all orders have in common -/

/-- What is to hold of the attempts of a part, given what the part has done. -/
abbrev OnAttempts := Part → RequestId → Attempt → Word → Prop

variable {P : OnAttempts}

/-- All attempts that are ordered, and all finalizations, have a property. -/
def System.AllOrdered (P : OnAttempts) (s : System) : Prop :=
  ∀ (index : Nat) (part : Part), s.parts[index]? = some part →
    (∀ id attempts retry word, part.custody = .closing id attempts retry word →
      ∀ attempt ∈ attempts, P part id attempt word) ∧
    ∀ f ∈ s.shared.finalized, s.shared.owners[f.id]? = some index → P part f.id f.attempt f.word

/-- The property depends on the path and the trace of a part only, and once it holds, it keeps
holding. -/
def OnAttempts.Lasting (P : OnAttempts) : Prop :=
  ∀ (part part' : Part) (id : RequestId) (attempt : Attempt) (word : Word),
    part'.path = part.path → part.trace <+: part'.trace → P part id attempt word →
      P part' id attempt word

/-- Every order of a part has the property. -/
def Part.Obeys (P : OnAttempts) (sh : Shared) (part : Part) : Prop :=
  ∀ id attempts word, part.Orders sh id attempts word → ∀ attempt ∈ attempts, P part id attempt word

theorem System.AllOrdered.init : System.init.AllOrdered P := fun _ _ h => by cases h

/-- A step of a part upholds a property of orders: what it orders has the property afterwards, and what
has been ordered before keeps it. -/
structure Part.Upholds (P : OnAttempts) (index : Nat) (sh : Shared) (part : Part) (sh' : Shared)
    (part' : Part) : Prop where
  ordered : ∀ id attempts word, part.Orders sh id attempts word →
    (∃ retry, part'.custody = .closing id attempts retry word) ∨
      (∃ f ∈ sh'.finalized, f.id = id ∧ attempts = [f.attempt] ∧ f.word = word) →
    ∀ attempt ∈ attempts, P part' id attempt word
  kept : ∀ id attempt word, (∃ attempts retry word, part.custody = .closing id attempts retry word) ∨
      (∃ f ∈ sh.finalized, f.id = id ∧ sh.owners[id]? = some index) →
    P part id attempt word → P part' id attempt word

/-- **What every step upholds** holds of all attempts and finalizations. -/
theorem System.AllOrdered.step_of (ho : s.AllOrdered P) (hs : s.Sound) {action : Action}
    (h : systemStep config isHttpDate s action = some t)
    (hupholds : ∀ (index : Nat) (part : Part) (move : Move) (sh' : Shared) (part' : Part),
      s.parts[index]? = some part →
      partStep config isHttpDate index s.shared part move = some (sh', part') →
      part.Upholds P index s.shared sh' part') : t.AllOrdered P := by
  cases action with
  | start request =>
    cases h
    intro index part hpart
    rcases getElem?_append_singleton_cases hpart with hpart | ⟨rfl, rfl⟩
    · exact ho index part hpart
    · refine ⟨fun id attempts retry word h => (by cases request <;> cases h), fun f hf howner => ?_⟩
      exact absurd (hs.books.owners _ (List.mem_of_getElem? howner)) (lt_irrefl _)
  | shutdown =>
    cases h
    exact ho
  | part index move =>
    simp only [systemStep] at h
    obtain ⟨part, hpart, h⟩ := Option.bind_eq_some_iff.mp h
    obtain ⟨⟨sh', part'⟩, hstep, heq⟩ := Option.bind_eq_some_iff.mp h
    cases heq
    have hsound := hs.parts index part hpart
    obtain ⟨hevolves, -⟩ := hsound.step config isHttpDate hs.books hstep
    obtain ⟨hfinalized, hclosing⟩ := stems_of_partStep hsound hstep
    obtain ⟨hordered, hkept⟩ := hupholds index part move sh' part' hpart hstep
    intro index' part'' hpart'
    rcases getElem?_set_cases hpart' with ⟨rfl, rfl⟩ | ⟨hne, hpart'⟩
    · refine ⟨fun id attempts retry word h attempt hattempt => ?_, fun f hf howner => ?_⟩
      · rcases hclosing id attempts retry word h with horders | ⟨earlier, retry', hearlier, hsubset⟩
        · exact hordered id attempts word horders (.inl ⟨retry, h⟩) attempt hattempt
        · exact hkept id attempt word (.inl ⟨earlier, retry', word, hearlier⟩)
            ((ho _ part hpart).1 id earlier retry' word hearlier attempt (hsubset hattempt))
      · rcases hfinalized f hf with hf | horders | ⟨attempts, retry, h, hattempt⟩
        · have howner' : s.shared.owners[f.id]? = some index' := by
            obtain ⟨row, hrow, -⟩ := hs.books.finished f hf
            obtain ⟨owner, howner', -⟩ := hs.books.owner_of_row hrow
            rw [hevolves.owner howner'] at howner
            rwa [← Option.some.inj howner]
          exact hkept f.id f.attempt f.word (.inr ⟨f, hf, rfl, howner'⟩)
            ((ho _ part hpart).2 f hf howner')
        · exact hordered f.id _ f.word horders (.inr ⟨f, hf, rfl, rfl, rfl⟩) _
            (List.mem_singleton_self _)
        · exact hkept f.id f.attempt f.word (.inl ⟨attempts, retry, f.word, h⟩)
            ((ho _ part hpart).1 f.id attempts retry f.word h f.attempt hattempt)
    · have hkeeps := hevolves.keeps hs.books hne.symm
      refine ⟨(ho index' part'' hpart').1, fun f hf howner => ?_⟩
      have howner' := (hkeeps.owners f.id).mp howner
      exact (ho index' part'' hpart').2 f ((hkeeps.finalized f howner').mp hf) howner'

/-- **A property of all orders** is one of all attempts and finalizations. -/
theorem System.AllOrdered.step (ho : s.AllOrdered P) (hlasting : P.Lasting) (hs : s.Sound)
    (hobeys : ∀ (index : Nat) (part : Part), s.parts[index]? = some part → part.Obeys P s.shared)
    {action : Action} (h : systemStep config isHttpDate s action = some t) : t.AllOrdered P := by
  refine ho.step_of hs h fun index part move sh' part' hpart hstep => ?_
  obtain ⟨hpath, -, -, hgoes⟩ := goes_of_partStep hstep
  exact ⟨fun id attempts word horders _ attempt hattempt =>
      hlasting _ _ id attempt word hpath hgoes.extends_trace
        (hobeys index part hpart id attempts word horders attempt hattempt),
    fun id attempt word _ h => hlasting _ _ id attempt word hpath hgoes.extends_trace h⟩

end CodexApi.Delivery
