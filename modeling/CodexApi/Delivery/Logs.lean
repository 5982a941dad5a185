import CodexApi.Delivery.Invariant

/-!
# What the trace of a part tells

Every entry of a trace was made where the contract let its effect begin, and its reply revealed how
things stood (`Entry.Made`). Whoever has left stays away, and the shutdown stays signalled, so the
entries of a trace also tell of the present (`Part.Logged`). A word that is not clear comes from
an entry.
-/

namespace CodexApi.Delivery

open Transition

variable {sh sh' : Shared} {index : Nat} {part part' : Part} {response : Response}
  {config : Config} {isHttpDate : String → Bool} {s t : System} {trace : List Entry}

/-! ### What a step does to a trace -/

/-- What a reply leaves alone. -/
structure Part.Frame (sh : Shared) (part : Part) (sh' : Shared) (part' : Part) : Prop where
  path : part'.path = part.path
  code : part'.code = part.code
  connected : part'.connected = part.connected
  trace : part'.trace = part.trace
  shutdown : sh'.shutdown = sh.shutdown

theorem Part.Frame.refl (sh : Shared) (part : Part) : Part.Frame sh part sh part :=
  ⟨rfl, rfl, rfl, rfl, rfl⟩

theorem Part.frame_of_perform {effect : Effect} {reply : effect.Reply}
    (h : part.perform sh effect response = some (reply, sh', part')) :
    part.Frame sh sh' part' := by
  cases hminor : effect.minor with
  | true =>
    obtain ⟨rfl, halike⟩ := Part.alike_of_perform hminor h
    exact ⟨halike.path, halike.code, halike.connected, halike.trace, rfl⟩
  | false =>
    induction effect generalizing response with
    | select closable effect ih =>
      rcases Part.perform_select h with ⟨-, -, rfl, rfl⟩ | ⟨-, -, -, rfl, rfl⟩ |
        ⟨inner, reply, rfl, hperform, -⟩
      · exact .refl _ _
      · exact .refl _ _
      · exact ih hperform hminor
    | insert insertion =>
      cases response <;> try cases h
      · simp only [Part.perform] at h
        split at h <;> cases h
        exact ⟨rfl, rfl, rfl, rfl, rfl⟩
      · exact ⟨rfl, rfl, rfl, rfl, rfl⟩
    | finalize id attempt =>
      cases response <;> try cases h
      · simp only [Part.perform] at h
        split at h <;> cases h <;> exact ⟨rfl, rfl, rfl, rfl, rfl⟩
      · exact ⟨rfl, rfl, rfl, rfl, rfl⟩
    | newPending | dropPending =>
      cases response <;> cases h
      exact ⟨rfl, rfl, rfl, rfl, rfl⟩
    | responseStarted | spawnFinalizer =>
      cases response <;> try cases h
      simp only [Part.perform] at h
      split at h <;> cases h
      exact ⟨rfl, rfl, rfl, rfl, rfl⟩
    | join =>
      rw [Part.perform_of_plain rfl, Option.map_eq_some_iff] at h
      obtain ⟨reply', -, heq⟩ := h
      cases heq
      exact .refl _ _
    | _ => cases hminor

/-- What a step of a part does to its trace and its code. -/
inductive Part.Goes (config : Config) (isHttpDate : String → Bool) (sh : Shared) (part : Part) :
    Move → Part → Prop
  /-- The trace stays, and the code stays or is dropped. -/
  | stays {move : Move} {part' : Part} (htrace : part'.trace = part.trace)
    (hcode : part'.code = part.code ∨ part'.code = none) : Goes config isHttpDate sh part move part'
  | unfolds {loop : Loop} {part' : Part} (htrace : part'.trace = part.trace)
    (hjump : part.code = some (.jump loop))
    (hcode : part'.code = some (loop.code config isHttpDate)) :
    Goes config isHttpDate sh part .unfold part'
  /-- The code is told a reply. -/
  | replies {effect : Effect} {next : effect.Reply → Code Unit} {reply : effect.Reply}
    {response : Response} {shared : Shared} {performed part' : Part}
    (hop : part.code = some (.op effect next))
    (hperform : part.perform sh effect response = some (reply, shared, performed))
    (hcode : part'.code = some (next reply))
    (htrace : part'.trace = part.trace ++ [⟨effect, reply, part.connected, sh.shutdown⟩]) :
    Goes config isHttpDate sh part (.reply response) part'

/-- **What a step does to a part**, apart from its rows. -/
theorem goes_of_partStep {move : Move}
    (h : partStep config isHttpDate index sh part move = some (sh', part')) :
    part'.path = part.path ∧ sh'.shutdown = sh.shutdown ∧
      (part.connected = false → part'.connected = false) ∧
      part.Goes config isHttpDate sh move part' := by
  cases move with
  | reply response =>
    simp only [partStep] at h
    split at h
    · rename_i effect next hcode
      obtain ⟨⟨reply, sh'', part''⟩, hperform, heq⟩ := Option.bind_eq_some_iff.mp h
      cases heq
      have hframe := Part.frame_of_perform hperform
      exact ⟨hframe.path, hframe.shutdown, fun hgone => hframe.connected.trans hgone,
        .replies hcode hperform rfl rfl⟩
    · cases h
  | unfold =>
    simp only [partStep] at h
    split at h
    · rename_i loop hcode
      cases h
      exact ⟨rfl, rfl, fun hgone => hgone, .unfolds rfl hcode rfl⟩
    · cases h
  | execute =>
    simp only [partStep, Part.execute, Part.insertInto] at h
    split at h
    · split at h <;> cases h
      exact ⟨rfl, rfl, fun hgone => hgone, .stays rfl (.inl rfl)⟩
    · split at h <;> cases h
      exact ⟨rfl, rfl, fun hgone => hgone, .stays rfl (.inl rfl)⟩
    · cases h
  | disconnect =>
    obtain ⟨part'', hpart, heq⟩ := Option.map_eq_some_iff.mp h
    cases heq
    unfold Part.disconnect at hpart
    split at hpart
    case h_1 | h_2 | h_3 | h_4 | h_5 =>
      cases hpart
      exact ⟨rfl, rfl, fun _ => rfl, .stays rfl (.inl rfl)⟩
    case h_7 => cases hpart
    simp only [Option.ite_none_right_eq_some, Option.some.injEq] at hpart
    obtain ⟨-, rfl⟩ := hpart
    exact ⟨rfl, rfl, fun _ => rfl, .stays rfl (.inr rfl)⟩
  | finalizer now =>
    have hshutdown : sh'.shutdown = sh.shutdown := by
      simp only [partStep, Part.finalizer] at h
      split at h
      · split at h <;> cases h <;> rfl
      · cases h
    obtain ⟨custody, storeFailed, rfl, -⟩ := Part.finalizer_custody h
    exact ⟨rfl, hshutdown, fun hgone => hgone, .stays rfl (.inl rfl)⟩

/-- A step adds at most one entry to a trace. -/
theorem Part.Goes.extends_trace {move : Move} (h : part.Goes config isHttpDate sh move part') :
    part.trace <+: part'.trace := by
  cases h with
  | stays htrace | unfolds htrace => rw [htrace]
  | replies _ _ _ htrace =>
    rw [htrace]
    exact List.prefix_append _ _

/-! ### Entries -/

/-- The state in which an entry was made, after a trace. -/
structure Entry.Made (path : ApiPath) (before : List Entry) (entry : Entry) : Prop where
  pre : (contract path).pre (viewOf before) entry.effect
  told : ∃ (sh : Shared) (part : Part), sh.shutdown = entry.shutdown ∧
    part.connected = entry.connected ∧ part.Told sh entry.effect entry.reply

/-- What the trace of a part tells. -/
structure Part.Logged (sh : Shared) (part : Part) : Prop where
  made : ∀ (before : List Entry) (entry : Entry) (after : List Entry),
    part.trace = before ++ entry :: after → entry.Made part.path before
  connected : ∀ entry ∈ part.trace, entry.connected = false → part.connected = false
  shutdown : ∀ entry ∈ part.trace, entry.shutdown = true → sh.shutdown = true
  ordered : part.trace.Pairwise fun earlier later =>
    earlier.shutdown = true → later.shutdown = true

theorem Part.Logged.of_shutdown (hl : part.Logged sh)
    (h : sh.shutdown = true → sh'.shutdown = true) : part.Logged sh' :=
  ⟨hl.made, hl.connected, fun entry hentry hshutdown => h (hl.shutdown entry hentry hshutdown),
    hl.ordered⟩

/-- **A step of a part** keeps what its trace tells. -/
theorem Part.Logged.step (hl : part.Logged sh) (hs : part.Sound sh index) {move : Move}
    (h : partStep config isHttpDate index sh part move = some (sh', part')) : part'.Logged sh' := by
  obtain ⟨hpath, hshutdown, hconnected, hgoes⟩ := goes_of_partStep h
  cases hgoes with
  | stays htrace | unfolds htrace =>
    exact {
      made := fun before entry after heq => hpath ▸ hl.made before entry after (htrace ▸ heq)
      connected := fun entry hentry hgone =>
        hconnected (hl.connected entry (htrace ▸ hentry) hgone)
      shutdown := fun entry hentry hseen =>
        hshutdown.trans (hl.shutdown entry (htrace ▸ hentry) hseen)
      ordered := htrace ▸ hl.ordered }
  | replies hcode hperform _ htrace =>
    refine {
      made := fun before entry after heq => ?_
      connected := fun entry hentry hgone => ?_
      shutdown := fun entry hentry hseen => ?_
      ordered := ?_ }
    · rw [hpath]
      rcases append_singleton_eq_append_cons (htrace.symm.trans heq) with
        ⟨rfl, rfl, -⟩ | ⟨after', -, htail⟩
      · exact ⟨hs.pre hcode, sh, part, rfl, rfl, Part.told_of_perform hperform⟩
      · exact hl.made before entry after' htail
    · rw [htrace, List.mem_append, List.mem_singleton] at hentry
      refine hconnected ?_
      rcases hentry with hentry | rfl
      · exact hl.connected entry hentry hgone
      · exact hgone
    · rw [htrace, List.mem_append, List.mem_singleton] at hentry
      rcases hentry with hentry | rfl
      · exact hshutdown.trans (hl.shutdown entry hentry hseen)
      · exact hshutdown.trans hseen
    · rw [htrace, List.pairwise_append]
      refine ⟨hl.ordered, List.pairwise_singleton _ _, fun earlier hearlier later hlater hseen => ?_⟩
      rw [List.mem_singleton.mp hlater]
      exact hl.shutdown earlier hearlier hseen

/-- The traces of all parts tell what has happened. -/
def System.Logged (s : System) : Prop :=
  ∀ (index : Nat) (part : Part), s.parts[index]? = some part → part.Logged s.shared

theorem Request.trace_part (config : Config) (request : Request) :
    (request.part config).trace = [] := by
  cases request <;> rfl

theorem System.Logged.step (hl : s.Logged) (hs : s.Sound) {action : Action}
    (h : systemStep config isHttpDate s action = some t) : t.Logged := by
  cases action with
  | start request =>
    cases h
    intro index part hpart
    rcases getElem?_append_singleton_cases hpart with hpart | ⟨-, rfl⟩
    · exact hl index part hpart
    · have hnil := request.trace_part config
      exact ⟨fun before entry after heq => by simp [hnil] at heq, fun entry hentry => by
        simp [hnil] at hentry, fun entry hentry => by simp [hnil] at hentry, by simp [hnil]⟩
  | shutdown =>
    cases h
    exact fun index part hpart => (hl index part hpart).of_shutdown fun _ => rfl
  | part index move =>
    simp only [systemStep] at h
    obtain ⟨part, hpart, h⟩ := Option.bind_eq_some_iff.mp h
    obtain ⟨⟨sh', part'⟩, hstep, heq⟩ := Option.bind_eq_some_iff.mp h
    cases heq
    have hshutdown : s.shared.shutdown = true → sh'.shutdown = true :=
      (goes_of_partStep hstep).2.1.trans
    intro index' part'' hpart'
    rcases getElem?_set_cases hpart' with ⟨rfl, rfl⟩ | ⟨-, hpart'⟩
    · exact (hl _ part hpart).step (hs.parts _ part hpart) hstep
    · exact (hl index' part'' hpart').of_shutdown hshutdown

/-- **In every reachable state**, traces tell what has happened. -/
theorem System.logged_of_run {actions : List Action}
    (h : SystemRun config isHttpDate .init actions s) : s.Logged :=
  (h.invariant (I := fun s => s.Sound ∧ s.Logged)
    (fun _ _ _ hs hstep => ⟨hs.1.step hstep, hs.2.step hs.1 hstep⟩)
    ⟨System.init_sound, fun _ _ h => by cases h⟩).2

/-! ### Words come from entries -/

/-- A word that is not clear was heard, or a shutdown has overtaken it. -/
theorem exists_entry_of_cause (h : (viewOf trace).cause ≠ .clear) :
    (∃ entry ∈ trace, entry.effect.observe entry.reply = some (viewOf trace).cause) ∨
      (viewOf trace).cause = .failed .overtaken ∧
        ∃ entry ∈ trace, entry.effect.seesShutdown entry.reply = true := by
  induction trace using List.reverseRecOn with
  | nil => exact absurd rfl h
  | append_singleton trace entry ih =>
    have hlast : entry ∈ trace ++ [entry] := List.mem_append_right _ (List.mem_singleton_self _)
    have hbefore : (viewOf trace).cause ≠ .clear →
        (viewOf (trace ++ [entry])).cause = (viewOf trace).cause →
        (∃ entry' ∈ trace ++ [entry], entry'.effect.observe entry'.reply =
          some (viewOf (trace ++ [entry])).cause) ∨
        (viewOf (trace ++ [entry])).cause = .failed .overtaken ∧
          ∃ entry' ∈ trace ++ [entry], entry'.effect.seesShutdown entry'.reply = true := by
      intro hclear heq
      rw [heq]
      refine (ih hclear).imp ?_ (And.imp_right ?_) <;>
        exact fun ⟨entry', hentry', h⟩ => ⟨entry', List.mem_append_left _ hentry', h⟩
    rw [viewOf_append] at h hbefore ⊢
    have hcause : ((viewOf trace).after entry.effect entry.reply).cause =
        (viewOf trace).cause.hear (entry.effect.seesShutdown entry.reply)
          (entry.effect.observe entry.reply) := rfl
    rw [hcause] at h hbefore ⊢
    cases hheard : entry.effect.observe entry.reply with
    | none =>
      rw [hheard] at h hbefore
      exact hbefore h rfl
    | some heard =>
      cases hold : (viewOf trace).cause with
      | failed failure =>
        cases hseen : entry.effect.seesShutdown entry.reply with
        | true => exact .inr ⟨rfl, entry, hlast, hseen⟩
        | false =>
          rw [hheard, hold, hseen] at hbefore
          exact hbefore (fun h => by cases h) rfl
      | clear | interrupted | terminal => exact .inl ⟨entry, hlast, hheard⟩

end CodexApi.Delivery
