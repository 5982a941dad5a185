import CodexApi.Delivery.Prompt
import CodexApi.Delivery.Shutdown

/-!
# What a canceled row says

A row is open from the reply to its `INSERT` until its code lets go of it (`OpenIn`), and an operation
meets an outcome of the upstream if it is told of a terminal event or a failure while its row is open
(`Meets`). Since all code acts on an outcome at once, a row whose operation meets a terminal event is
not canceled any more, and one whose operation meets a failure becomes an upstream error. A canceled
row says that the client has left or the shutdown came first.

The exceptions are failures that a Responses operation does not record (`Word.Unrecorded`): a model
lookup that fails, a stream of a session that ends or breaks, and a failure that the shutdown overtakes
while it is being classified.
-/

namespace CodexApi.Delivery

open Transition
open Program (Safe)

variable {v : View} {effect : Effect} {reply : effect.Reply} {trace : List Entry} {entry : Entry}
  {id : RequestId} {outcome : Outcome} {path : ApiPath}

/-! ### Open rows -/

/-- An effect takes a row out of the hands of its code. -/
def Effect.releases (id : RequestId) : Effect → Bool
  | finalize id' _ => id' = id
  | spawnFinalizer _ | dropPending => true
  | _ => false

/-- The code has been told of its admitted row, and has not let go of it. -/
def OpenIn (id : RequestId) (trace : List Entry) : Prop :=
  ∃ before entry after row, trace = before ++ entry :: after ∧
    entry.effect.admits entry.reply = some row ∧ row.id = id ∧
    ∀ later ∈ after, later.effect.releases id = false

/-- An outcome of the upstream has come while the row was open. -/
def Meets (outcome : Outcome) (id : RequestId) (trace : List Entry) : Prop :=
  ∃ before entry after, trace = before ++ entry :: after ∧ OpenIn id before ∧
    entry.effect.outcome entry.reply = some outcome

/-- The row that a `PendingRequest` guards. -/
def Pending.guarded : Pending → List Admitted
  | opened row _ => [row]
  | absent | closing _ _ => []

/-- The started rows in the care of the code. -/
def View.care (v : View) : List Admitted := v.held ++ v.pending.guarded

theorem View.mem_care {row : Admitted} :
    row ∈ v.care ↔ row ∈ v.held ∨ row ∈ v.pending.guarded := by
  simp [View.care]

/-- A `PendingRequest` guards a row that the code has held. -/
theorem View.mem_guarded_book {row : Admitted} (h : row ∈ (v.book effect reply).pending.guarded) :
    row ∈ v.care := by
  rw [View.mem_care]
  induction effect generalizing v with
  | select closable effect ih =>
    cases reply with
    | shutdown | closed => exact .inr h
    | done reply => exact ih h
  | insert insertion =>
    cases reply with
    | error error => exact .inr h
    | ok id =>
      simp only [View.book] at h
      split at h <;> exact .inr h
  | newPending id =>
    simp only [View.book] at h
    split at h
    · rename_i found hfound
      rw [List.mem_singleton.mp h]
      exact .inl (List.mem_of_find?_eq_some hfound)
    · exact .inr h
  | responseStarted =>
    simp only [View.book] at h
    split at h
    · rename_i hpending
      exact .inr (hpending ▸ h)
    · exact .inr h
  | spawnFinalizer =>
    simp only [View.book] at h
    split at h
    · cases h
    · exact .inr h
  | join =>
    simp only [View.book] at h
    split at h
    · split at h <;> cases h
    · exact .inr h
  | dropPending => cases h
  | model =>
    simp only [View.book] at h
    exact .inr (by split at h <;> exact h)
  | finalize | plan | prewarmReply => cases reply <;> exact .inr h
  | _ => exact .inr h

/-- Rows come into the care of code by admissions only. -/
theorem View.mem_care_book {row : Admitted} (h : row ∈ (v.book effect reply).care) :
    row ∈ v.care ∨ effect.admits reply = some row := by
  rcases View.mem_care.mp h with h | h
  · exact (View.mem_held_book h).imp_left fun h => View.mem_care.mpr (.inl h)
  · exact .inl (View.mem_guarded_book h)

/-- Code lets go of a row by releasing it only. -/
theorem View.mem_care_of_keeps {row : Admitted} (hpre : (contract path).pre v effect)
    (hrow : row ∈ v.care) (hkeeps : effect.releases row.id = false) :
    row ∈ (v.book effect reply).care := by
  rw [View.mem_care] at hrow ⊢
  by_cases hminor : effect.minor = true
  · obtain ⟨-, hheld, hpending, -⟩ := View.book_of_minor v reply hminor
    rwa [hheld, hpending]
  cases effect with
  | insert insertion =>
    cases reply with
    | error error => exact hrow
    | ok id =>
      cases hadmitted : insertion.admitted with
      | none => simpa [View.book, hadmitted] using hrow
      | some model =>
        simp only [View.book, hadmitted, List.mem_append]
        exact hrow.imp_left .inl
  | finalize id attempt =>
    cases reply with
    | error error => exact hrow
    | ok =>
      refine hrow.imp_left fun hrow => List.mem_filter.mpr ⟨hrow, ?_⟩
      have hne : id ≠ row.id := of_decide_eq_false hkeeps
      exact decide_eq_true hne.symm
  | newPending id =>
    obtain ⟨⟨-, hpending, held, hheld, hid⟩, -⟩ := hpre
    rw [hheld, hpending] at hrow
    rcases hrow with hrow | hrow
    · rw [List.mem_singleton.mp hrow]
      simp [View.book, hheld, hid, Pending.guarded]
    · cases hrow
  | responseStarted httpStatus =>
    obtain ⟨⟨-, -, guarded, started, hopened⟩, -⟩ := hpre
    rw [hopened] at hrow
    simpa only [View.book, hopened, Pending.guarded] using hrow
  | join =>
    obtain ⟨⟨closing, attempts, hclosing⟩, -⟩ := hpre
    rw [hclosing] at hrow
    rw [held_after_join]
    exact .inl (hrow.resolve_right fun h => by cases h)
  | select closable effect =>
    obtain ⟨⟨-, hwaits⟩, -⟩ := hpre
    cases effect with
    | join =>
      cases reply with
      | shutdown | closed => exact hrow
      | done ok =>
        obtain ⟨closing, attempts, hclosing⟩ := hwaits
        rw [hclosing] at hrow
        refine .inl ?_
        show row ∈ (v.book .join ok).held
        rw [held_after_join]
        exact hrow.resolve_right fun h => by cases h
    | select closable effect =>
      cases effect <;> first | exact hwaits.elim | exact absurd rfl hminor
    | _ => first | exact hwaits.elim | exact absurd rfl hminor
  | spawnFinalizer | dropPending => cases hkeeps
  | _ => exact absurd rfl hminor

theorem viewOf_append_care (trace : List Entry) (entry : Entry) :
    (viewOf (trace ++ [entry])).care = ((viewOf trace).book entry.effect entry.reply).care := by
  rw [viewOf_append]
  rfl

/-! ### Meeting an outcome -/

/-- What has been told stays told. -/
theorem Meets.mono {trace' : List Entry} (h : Meets outcome id trace) (hupto : trace <+: trace') :
    Meets outcome id trace' := by
  obtain ⟨before, entry, after, rfl, hopen, houtcome⟩ := h
  obtain ⟨rest, rfl⟩ := hupto
  exact ⟨before, entry, after ++ rest, by simp, hopen, houtcome⟩

/-- An outcome is met by the last entry, or has been met before. -/
theorem Meets.of_append (h : Meets outcome id (trace ++ [entry])) :
    Meets outcome id trace ∨ OpenIn id trace ∧ entry.effect.outcome entry.reply = some outcome := by
  obtain ⟨before, entry', after, heq, hopen, houtcome⟩ := h
  rcases append_singleton_eq_append_cons heq with ⟨rfl, rfl, -⟩ | ⟨after', -, hbefore⟩
  · exact .inr ⟨hopen, houtcome⟩
  · exact .inl ⟨before, entry', after', hbefore, hopen, houtcome⟩

/-- An open row has been admitted. -/
theorem OpenIn.exists_admits (h : OpenIn id trace) :
    ∃ entry ∈ trace, ∃ row, entry.effect.admits entry.reply = some row ∧ row.id = id := by
  obtain ⟨before, entry, after, row, rfl, hadmits, hid, -⟩ := h
  exact ⟨entry, List.mem_append_right _ List.mem_cons_self, row, hadmits, hid⟩

theorem View.mem_held_of_admits {row : Admitted} (h : effect.admits reply = some row) :
    row ∈ (v.book effect reply).held := by
  induction effect with
  | select closable effect ih =>
    cases reply with
    | shutdown | closed => cases h
    | done reply => exact ih h
  | insert insertion =>
    cases reply with
    | error error => cases h
    | ok id =>
      obtain ⟨model, hadmitted, rfl⟩ := Option.map_eq_some_iff.mp h
      simp [View.book, hadmitted]
  | _ => cases h

theorem Meets.mem_ids (h : Meets outcome id trace) : id ∈ (viewOf trace).ids := by
  obtain ⟨before, entry, after, rfl, hopen, -⟩ := h
  obtain ⟨entry', hentry, row, hadmits, rfl⟩ := hopen.exists_admits
  exact mem_ids_of_admits (List.mem_append_left _ hentry) hadmits

/-- **An open row is in the care of the code**, if the code has respected the contract. -/
theorem OpenIn.mem_care (h : OpenIn id trace)
    (hmade : ∀ before entry after, trace = before ++ entry :: after →
      (contract path).pre (viewOf before) entry.effect) :
    ∃ row ∈ (viewOf trace).care, row.id = id := by
  obtain ⟨before, entry, after, row, rfl, hadmits, hid, hkept⟩ := h
  refine ⟨row, ?_, hid⟩
  induction after using List.reverseRecOn with
  | nil =>
    rw [viewOf_append_care]
    exact View.mem_care.mpr (.inl (View.mem_held_of_admits hadmits))
  | append_singleton after last ih =>
    have hsplit : before ++ entry :: (after ++ [last]) = (before ++ entry :: after) ++ [last] := by
      simp
    have hpre : (contract path).pre (viewOf (before ++ entry :: after)) last.effect :=
      hmade _ last [] hsplit
    rw [hsplit, viewOf_append_care]
    refine View.mem_care_of_keeps hpre (ih (fun before' entry' after' heq => ?_)
      fun later hlater => hkept later (List.mem_append_left _ hlater)) ?_
    · exact hmade before' entry' (after' ++ [last]) (by rw [hsplit, heq]; simp)
    · rw [hid]
      exact hkept last (List.mem_append_right _ (List.mem_singleton_self _))

/-! ### Code that acts at once -/

/-- What the stage of a part says about the rows in its care. -/
def Stage.Holds (part : Part) : Stage → Prop
  | waiting => ∀ row ∈ (viewOf part.trace).care, ¬ Meets .terminal row.id part.trace ∧
      (part.path ≠ .webSocket → ¬ Meets .failure row.id part.trace)
  | failed => ∀ row ∈ (viewOf part.trace).care, ¬ Meets .terminal row.id part.trace
  | answered => True
  | settled => part.path ≠ .webSocket ∧ (viewOf part.trace).ids ≠ [] ∧ (viewOf part.trace).care = []

/-- The code of a part acts on an outcome at once. -/
def Part.Prompt (part : Part) : Prop :=
  ∀ code, part.code = some code →
    ∃ stage : Stage, Safe (prompt part.path) (fun _ _ => True) code stage ∧ stage.Holds part

variable {sh sh' : Shared} {index : Nat} {part part' : Part} {config : Config}
  {isHttpDate : String → Bool} {s t : System}

/-- An entry without the outcome adds no meeting of a row in the care of the code. -/
theorem not_meets_append {row : Admitted}
    (h : ∀ row ∈ (viewOf trace).care, ¬ Meets outcome row.id trace)
    (hfresh : ∀ row, entry.effect.admits entry.reply = some row → row.id ∉ (viewOf trace).ids)
    (houtcome : entry.effect.outcome entry.reply ≠ some outcome)
    (hrow : row ∈ (viewOf (trace ++ [entry])).care) : ¬ Meets outcome row.id (trace ++ [entry]) := by
  intro hmeets
  have hbefore : Meets outcome row.id trace :=
    hmeets.of_append.resolve_right fun hlast => houtcome hlast.2
  rw [viewOf_append_care] at hrow
  rcases View.mem_care_book hrow with hrow | hadmits
  · exact h row hrow hbefore
  · exact hfresh row hadmits hbefore.mem_ids

/-- An admitted row is new, and of an `INSERT`. -/
theorem new_of_admits {row : Admitted} (hpre : (contract path).pre v effect)
    (hmay : (contract path).may v effect reply) (h : effect.admits reply = some row) :
    row.id ∉ v.ids ∧ (path ≠ .webSocket → v.ids = []) := by
  cases effect with
  | insert insertion =>
    cases reply with
    | error error => cases h
    | ok id =>
      obtain ⟨model, -, rfl⟩ := Option.map_eq_some_iff.mp h
      exact ⟨hmay, fun hpath => (hpre.1.2 hpath).1⟩
  | select closable effect =>
    obtain ⟨⟨-, hwaits⟩, -⟩ := hpre
    cases reply with
    | shutdown | closed => cases h
    | done reply =>
      cases effect with
      | select closable effect =>
        cases effect with
        | next => cases reply <;> cases h
        | _ => exact hwaits.elim
      | insert => exact hwaits.elim
      | _ => cases h
  | _ => cases h

/-- An HTTP operation admits a single row: once it has let go of it, it has no other in its care. -/
theorem View.settled_book (hpath : path ≠ .webSocket) (hpre : (contract path).pre v effect)
    (hmay : (contract path).may v effect reply) (hids : v.ids ≠ []) (hcare : v.care = []) :
    (v.book effect reply).ids ≠ [] ∧ (v.book effect reply).care = [] := by
  refine ⟨fun h => hids (List.eq_nil_of_subset_nil (h ▸ View.ids_subset_book)),
    List.eq_nil_iff_forall_not_mem.mpr fun row hrow => ?_⟩
  rcases View.mem_care_book hrow with hrow | hadmits
  · rw [hcare] at hrow
    cases hrow
  · exact hids ((new_of_admits hpre hmay hadmits).2 hpath)

/-- A spawned task leaves nothing in the care of the code. -/
theorem Part.Sound.settled_of_spawn (hs : part.Sound sh index) {attempts : List Attempt}
    {next : Unit → Code Unit} (hcode : part.code = some (.op (.spawnFinalizer attempts) next)) :
    part.path ≠ .webSocket ∧ (viewOf part.trace).ids ≠ [] ∧
      ((viewOf part.trace).book (.spawnFinalizer attempts) ()).care = [] := by
  obtain ⟨row, started, hopened, -⟩ := (hs.pre hcode).1
  have hguarded : part.custody = .guarded row.id started := by
    have hpending := hs.tracks.pending (by simp [hcode])
    unfold PendingIn at hpending
    rwa [hopened] at hpending
  have hcustody := hs.tracks.custody
  unfold CustodyIn at hcustody
  rw [hguarded] at hcustody
  have hheld : (viewOf part.trace).held = [] :=
    hs.tracks.apart.resolve_left fun hfree => by rw [hguarded] at hfree; cases hfree
  refine ⟨fun hpath => ?_, List.ne_nil_of_mem hcustody.1, ?_⟩
  · rw [hs.view.webSocket hpath] at hopened
    cases hopened
  · simp [View.care, View.book, hopened, hheld, Pending.guarded]

/-- The code has been told a reply. -/
theorem Part.Prompt.replied (hp : part.Prompt) (hs : part.Sound sh index) {effect : Effect}
    {next : effect.Reply → Code Unit} {reply : effect.Reply} {response : Response}
    {shared : Shared} {performed : Part} (hop : part.code = some (.op effect next))
    (hperform : part.perform sh effect response = some (reply, shared, performed))
    (hpath : part'.path = part.path) (hcode : part'.code = some (next reply))
    (htrace : part'.trace = part.trace ++ [⟨effect, reply, part.connected, sh.shutdown⟩]) :
    part'.Prompt := by
  intro code hcode'
  obtain rfl : next reply = code := Option.some.inj (hcode.symm.trans hcode')
  obtain ⟨stage, hsafe, hholds⟩ := hp _ hop
  refine ⟨stage.after part.path effect reply, hpath ▸ hsafe.2 reply trivial, ?_⟩
  have hpre := hs.pre hop
  have hmay := hs.may hop hperform
  have hnew : ∀ row, effect.admits reply = some row → row.id ∉ (viewOf part.trace).ids ∧
      (part.path ≠ .webSocket → (viewOf part.trace).ids = []) :=
    fun row hadmits => new_of_admits hpre hmay hadmits
  have hkept : ∀ outcome, (∀ row ∈ (viewOf part.trace).care, ¬ Meets outcome row.id part.trace) →
      effect.outcome reply ≠ some outcome →
      ∀ row ∈ (viewOf part'.trace).care, ¬ Meets outcome row.id part'.trace := by
    intro outcome h houtcome row hrow
    rw [htrace] at hrow ⊢
    exact not_meets_append h (fun row hadmits => (hnew row hadmits).1) houtcome hrow
  by_cases hspawn : ∃ attempts, effect = .spawnFinalizer attempts
  · obtain ⟨attempts, rfl⟩ := hspawn
    obtain ⟨hhttp, hids, hcare⟩ := hs.settled_of_spawn hop
    rw [Stage.after_spawnFinalizer]
    refine ⟨hpath ▸ hhttp, ?_, ?_⟩
    · rw [htrace, viewOf_append]
      exact fun h => hids (List.eq_nil_of_subset_nil (h ▸ View.ids_subset_book))
    · rw [htrace, viewOf_append_care]
      exact hcare
  cases stage with
  | answered =>
    rw [Stage.answered_after hspawn]
    trivial
  | settled =>
    obtain ⟨hhttp, hids, hcare⟩ := hholds
    obtain ⟨hids', hcare'⟩ := View.settled_book hhttp hpre hmay hids hcare
    rw [Stage.settled_after]
    refine ⟨hpath ▸ hhttp, ?_, ?_⟩
    · rw [htrace, viewOf_append]
      exact hids'
    · rw [htrace, viewOf_append_care]
      exact hcare'
  | failed =>
    rw [Stage.after_eq_hear hspawn (.inr rfl)]
    cases houtcome : effect.outcome reply with
    | none => exact hkept .terminal hholds (by simp [houtcome])
    | some outcome =>
      cases outcome with
      | terminal => trivial
      | failure =>
        simp only [Stage.hear]
        split <;> exact hkept .terminal hholds (by simp [houtcome])
  | waiting =>
    rw [Stage.after_eq_hear hspawn (.inl rfl)]
    cases houtcome : effect.outcome reply with
    | none =>
      exact fun row hrow => ⟨hkept .terminal (fun row hrow => (hholds row hrow).1)
        (by simp [houtcome]) row hrow, fun hhttp => hkept .failure
        (fun row hrow => (hholds row hrow).2 (hpath ▸ hhttp)) (by simp [houtcome]) row hrow⟩
    | some outcome =>
      have hterminal := hkept .terminal fun row hrow => (hholds row hrow).1
      cases outcome with
      | terminal => trivial
      | failure =>
        simp only [Stage.hear]
        split
        · rename_i hsocket
          exact fun row hrow => ⟨hterminal (by simp [houtcome]) row hrow,
            fun hhttp => absurd (hpath.trans hsocket) hhttp⟩
        · exact hterminal (by simp [houtcome])

theorem Stage.Holds.of_trace {stage : Stage} (h : stage.Holds part) (hpath : part'.path = part.path)
    (htrace : part'.trace = part.trace) : stage.Holds part' := by
  cases stage with
  | answered => trivial
  | waiting | failed | settled => simpa only [Stage.Holds, hpath, htrace] using h

/-- **A step of a part** keeps its code prompt. -/
theorem Part.Prompt.step (hp : part.Prompt) (hs : part.Sound sh index) {move : Move}
    (h : partStep config isHttpDate index sh part move = some (sh', part')) : part'.Prompt := by
  obtain ⟨hpath, -, -, hgoes⟩ := goes_of_partStep h
  cases hgoes with
  | stays htrace hcode =>
    intro code hcode'
    rcases hcode with hcode | hcode
    · obtain ⟨stage, hsafe, hholds⟩ := hp code (hcode ▸ hcode')
      exact ⟨stage, hpath ▸ hsafe, hholds.of_trace hpath htrace⟩
    · rw [hcode] at hcode'
      cases hcode'
  | @unfolds loop _ htrace hjump hcode =>
    intro code hcode'
    rw [hcode] at hcode'
    cases hcode'
    have hloop : (viewOf part.trace).AtLoop part.path loop := hs.respects _ hjump
    obtain ⟨stage, hsafe, hholds⟩ := hp _ hjump
    have hwaits : Stage.waiting.Holds part →
        ∃ stage : Stage, Safe (prompt part'.path) (fun _ _ => True)
          (loop.code config isHttpDate) stage ∧ stage.Holds part' := fun hwaiting =>
      ⟨.waiting, hpath ▸ loop_prompt config isHttpDate hloop, hwaiting.of_trace hpath htrace⟩
    cases stage with
    | waiting => exact hwaits hholds
    | settled => exact ⟨.settled, prompt_settled _ fun _ => trivial, hholds.of_trace hpath htrace⟩
    | failed => exact hsafe.elim
    | answered =>
      -- A session between two events with nothing active has no row in its care.
      obtain ⟨identity, rfl⟩ := hsafe
      obtain ⟨-, hbetween⟩ := hloop
      have hheld : (viewOf part.trace).held = [] := hbetween.held
      refine hwaits fun row hrow => ?_
      rcases View.mem_care.mp hrow with hrow | hrow
      · rw [hheld] at hrow
        cases hrow
      · rw [hbetween.pending] at hrow
        cases hrow
  | replies hop hperform hcode htrace =>
    exact hp.replied hs hop hperform hpath hcode htrace

/-- A request starts with prompt code and no row. -/
theorem Request.prompt (config : Config) (request : Request) : (request.part config).Prompt := by
  intro code hcode
  refine ⟨.waiting, ?_, fun row hrow => ?_⟩
  · cases request with
    | responses identity headers body =>
      cases hcode
      exact responses_prompt config identity headers body
    | chatCompletions identity body =>
      cases hcode
      exact chatCompletions_prompt config identity body
    | webSocket identity =>
      cases hcode
      trivial
  · rw [Request.trace_part] at hrow
    cases hrow

/-! ### Orders are truthful -/

/-- An attempt to finalize a row fits what its operation has met: it does not cancel an answered row,
and the last word on a failed operation is a failure. -/
structure Truthful (part : Part) (id : RequestId) (attempt : Attempt) (word : Word) : Prop where
  canceled : attempt.status = .canceled → ¬ Meets .terminal id part.trace
  failed : Meets .failure id part.trace → ∃ failure, word.cause = .failed failure

/-- A failure stays the last word. -/
theorem failed_of_meets (h : Meets .failure id trace) :
    ∃ failure, (viewOf trace).cause = .failed failure := by
  induction trace using List.reverseRecOn with
  | nil =>
    obtain ⟨before, entry, after, heq, -⟩ := h
    exact absurd heq.symm (by simp)
  | append_singleton trace entry ih =>
    rw [viewOf_append]
    show ∃ failure, (viewOf trace).cause.hear (entry.effect.seesShutdown entry.reply)
      (entry.effect.observe entry.reply) = .failed failure
    rcases h.of_append with h | ⟨-, houtcome⟩
    · obtain ⟨failure, hcause⟩ := ih h
      rw [hcause]
      cases entry.effect.observe entry.reply with
      | none => exact ⟨failure, rfl⟩
      | some heard => cases hseen : entry.effect.seesShutdown entry.reply <;> exact ⟨_, rfl⟩
    · obtain ⟨heard, hobserve, hheard⟩ := Option.bind_eq_some_iff.mp houtcome
      cases heard with
      | failed failure =>
        rw [hobserve]
        cases (viewOf trace).cause with
        | failed failure => cases entry.effect.seesShutdown entry.reply <;> exact ⟨_, rfl⟩
        | clear | interrupted | terminal => exact ⟨failure, rfl⟩
      | clear | interrupted | terminal => cases hheard

/-- A row in the care of running code is started, and nobody else finalizes it. -/
theorem Part.Sound.started_of_care (hs : part.Sound sh index) (hcode : part.code.isSome = true)
    {row : Admitted} (hrow : row ∈ (viewOf part.trace).care) : sh.Started row.id ∧
      ∀ attempts retry word, part.custody ≠ .closing row.id attempts retry word := by
  rcases View.mem_care.mp hrow with hrow | hrow
  · refine ⟨hs.tracks.held row hrow, fun attempts retry word hclosing => ?_⟩
    rcases hs.tracks.apart with hfree | hheld
    · rw [hclosing] at hfree
      cases hfree
    · rw [hheld] at hrow
      cases hrow
  · have hpending := hs.tracks.pending hcode
    unfold PendingIn at hpending
    cases hopened : (viewOf part.trace).pending with
    | absent | closing =>
      rw [hopened] at hrow
      cases hrow
    | opened guarded started =>
      rw [hopened] at hrow hpending
      obtain rfl := List.mem_singleton.mp hrow
      have hcustody := hs.tracks.custody
      unfold CustodyIn at hcustody
      rw [hpending] at hcustody
      refine ⟨hcustody.2.1, fun attempts retry word hclosing => ?_⟩
      rw [hpending] at hclosing
      cases hclosing

/-- The row of a `PendingRequest` is in the care of the code. -/
theorem Part.Sound.care_of_guarded (hs : part.Sound sh index) (hcode : part.code.isSome = true)
    {httpStatus : Option Nat} (hguarded : part.custody = .guarded id httpStatus) :
    ∃ row ∈ (viewOf part.trace).care, row.id = id := by
  have hpending := hs.tracks.pending hcode
  unfold PendingIn at hpending
  cases hopened : (viewOf part.trace).pending with
  | absent =>
    rw [hopened] at hpending
    exact absurd hguarded (hpending id httpStatus)
  | opened row started =>
    rw [hopened] at hpending
    obtain ⟨hid, -⟩ := Custody.guarded.inj (hpending.symm.trans hguarded)
    exact ⟨row, View.mem_care.mpr (.inr (by rw [hopened]; exact List.mem_singleton_self row)), hid⟩
  | closing row attempts =>
    rw [hopened, hguarded] at hpending
    cases hpending with
    | running h | retrying h | succeeded h | retried h | failed h => cases h

/-- **Prompt code orders truthfully.** -/
theorem Part.Prompt.truthful (hp : part.Prompt) (hs : part.Sound sh index)
    {attempts : List Attempt} {word : Word} (horders : part.Orders sh id attempts word) :
    ∀ attempt ∈ attempts, Truthful part id attempt word := by
  have hfailed : Meets .failure id part.trace →
      ∃ failure, (wordOf part.trace).cause = .failed failure :=
    fun h => wordOf_cause part.trace ▸ failed_of_meets h
  have hanswered : ∀ {effect : Effect} {next : effect.Reply → Code Unit},
      part.code = some (.op effect next) → (∃ row ∈ (viewOf part.trace).care, row.id = id) →
      Meets .terminal id part.trace → effect.settles part.path := by
    rintro effect next hcode ⟨row, hrow, rfl⟩ hmeets
    obtain ⟨stage, ⟨hlets, -⟩, hholds⟩ := hp _ hcode
    cases stage with
    | waiting => exact absurd hmeets (hholds row hrow).1
    | failed => exact absurd hmeets (hholds row hrow)
    | answered => exact hlets
    | settled =>
      rw [hholds.2.2] at hrow
      cases hrow
  cases horders with
  | finalize hcode =>
    obtain ⟨-, -, -, row, hrow, hid, -⟩ := (hs.pre hcode).1
    intro attempt hattempt
    rw [List.mem_singleton.mp hattempt]
    exact ⟨fun hcanceled hmeets => (hanswered hcode ⟨row, View.mem_care.mpr (.inl hrow), hid⟩
      hmeets).2 hcanceled, hfailed⟩
  | spawn hcode hguarded =>
    have hcare := hs.care_of_guarded (by simp [hcode]) hguarded
    exact fun attempt hattempt => ⟨fun hcanceled hmeets =>
      hanswered hcode hcare hmeets attempt hattempt hcanceled, hfailed⟩
  | drop hcode hguarded =>
    have hcare := hs.care_of_guarded (by simp [hcode]) hguarded
    exact fun attempt _ => ⟨fun _ hmeets => hanswered hcode hcare hmeets, hfailed⟩
  | @leave effect next httpStatus hpath hcode hawaits hguarded =>
    -- A handler that waits has met no outcome.
    have hcare := hs.care_of_guarded (by simp [hcode]) hguarded
    have hsettles : ¬ effect.settles part.path := by
      cases effect with
      | spawnFinalizer => cases hawaits
      | finalize => exact fun h => hpath h.1
      | send | sendUpstream => exact hpath
      | _ => exact fun h => h
    refine fun attempt _ => ⟨fun _ hmeets => hsettles (hanswered hcode hcare hmeets), fun hmeets => ?_⟩
    obtain ⟨row, hrow, rfl⟩ := hcare
    obtain ⟨stage, ⟨hlets, -⟩, hholds⟩ := hp _ hcode
    cases stage with
    | waiting => exact absurd hmeets ((hholds row hrow).2 hpath)
    | failed =>
      rw [show effect.awaits = false from hlets] at hawaits
      cases hawaits
    | answered => exact absurd hlets hsettles
    | settled =>
      rw [hholds.2.2] at hrow
      cases hrow

/-! ### Every step upholds it -/

/-- Waiting leaves the `PendingRequest` where it is. -/
theorem Part.Sound.custody_of_perform (hs : part.Sound sh index) {effect : Effect}
    {next : effect.Reply → Code Unit} {reply : effect.Reply} {response : Response}
    (hcode : part.code = some (.op effect next)) (hawaits : effect.awaits = true)
    (h : part.perform sh effect response = some (reply, sh', part')) :
    part'.custody = part.custody := by
  cases hminor : effect.minor with
  | true => exact (Part.alike_of_perform hminor h).2.custody
  | false =>
    cases effect with
    | insert insertion =>
      cases response <;> try cases h
      · simp only [Part.perform] at h
        split at h <;> cases h
        rfl
      · rfl
    | finalize id attempt =>
      cases response <;> try cases h
      · simp only [Part.perform] at h
        split at h <;> cases h <;> rfl
      · rfl
    | join =>
      rw [Part.perform_of_plain rfl, Option.map_eq_some_iff] at h
      obtain ⟨reply', -, heq⟩ := h
      cases heq
      rfl
    | select closable effect =>
      rcases Part.perform_select h with ⟨-, -, -, rfl⟩ | ⟨-, -, -, -, rfl⟩ |
        ⟨inner, reply, rfl, hperform, -⟩
      · rfl
      · rfl
      · obtain ⟨⟨-, hwaits⟩, -⟩ := hs.pre hcode
        cases effect with
        | join =>
          rw [Part.perform_of_plain rfl, Option.map_eq_some_iff] at hperform
          obtain ⟨reply', -, heq⟩ := hperform
          cases heq
          rfl
        | select closable effect =>
          cases effect with
          | next => cases hminor
          | _ => exact hwaits.elim
        | insert | finalize | newPending | responseStarted | spawnFinalizer | dropPending =>
          exact hwaits.elim
        | _ => cases hminor
    | newPending | dropPending | responseStarted | spawnFinalizer => cases hawaits
    | _ => cases hminor

theorem Truthful.of_trace {attempt : Attempt} {word : Word} (h : Truthful part id attempt word)
    (htrace : part'.trace = part.trace) : Truthful part' id attempt word := by
  obtain ⟨hcanceled, hfailed⟩ := h
  exact ⟨htrace ▸ hcanceled, htrace ▸ hfailed⟩

/-- An entry that is no outcome of an open row leaves an order truthful. -/
theorem Truthful.append {attempt : Attempt} {word : Word} (h : Truthful part id attempt word)
    (htrace : part'.trace = part.trace ++ [entry])
    (hnot : OpenIn id part.trace → entry.effect.outcome entry.reply = none) :
    Truthful part' id attempt word := by
  have hbefore : ∀ outcome, Meets outcome id part'.trace → Meets outcome id part.trace := by
    intro outcome hmeets
    refine (htrace ▸ hmeets : Meets outcome id (part.trace ++ [entry])).of_append.resolve_right ?_
    rintro ⟨hopen, houtcome⟩
    rw [hnot hopen] at houtcome
    cases houtcome
  exact ⟨fun hcanceled hmeets => h.canceled hcanceled (hbefore _ hmeets),
    fun hmeets => h.failed (hbefore _ hmeets)⟩

/-- A row that its `PendingRequest` guards is not finalized. -/
theorem Part.Sound.not_finalized_of_guarded (hs : part.Sound sh index) {parts : Nat}
    (hb : sh.Books parts) {httpStatus : Option Nat} (hguarded : part.custody = .guarded id httpStatus) :
    id ∉ sh.finalized.map (·.id) := by
  have hcustody := hs.tracks.custody
  unfold CustodyIn at hcustody
  rw [hguarded] at hcustody
  obtain ⟨-, ⟨row, hrow, hstarted⟩, -⟩ := hcustody
  exact hb.not_mem_of_started hrow hstarted

/-- **What every order upholds.** A property of the orders of a part, which lasts as long as no
outcome comes for a row in the care of the code, is upheld by every step. -/
theorem Part.Sound.upholds {P : OnAttempts} (hs : part.Sound sh index) {parts : Nat}
    (hb : sh.Books parts) (hindex : index < parts)
    (hobeys : part.Obeys P sh)
    (hsame : ∀ (part' : Part) (id : RequestId) (attempt : Attempt) (word : Word),
      part'.path = part.path → part'.trace = part.trace → P part id attempt word →
      P part' id attempt word)
    (happend : ∀ (part' : Part) (entry : Entry) (id : RequestId) (attempt : Attempt) (word : Word),
      part'.path = part.path → part'.trace = part.trace ++ [entry] →
      ((∃ row ∈ (viewOf part.trace).care, row.id = id) →
        entry.effect.outcome entry.reply = none) →
      P part id attempt word → P part' id attempt word)
    {move : Move} (h : partStep config isHttpDate index sh part move = some (sh', part')) :
    part.Upholds P index sh sh' part' := by
  obtain ⟨hpath, -, -, hgoes⟩ := goes_of_partStep h
  obtain ⟨hevolves, hs'⟩ := hs.step config isHttpDate hb h
  have hb' := hevolves.books hb hindex
  cases move with
  | reply response =>
    simp only [partStep] at h
    split at h
    swap
    · cases h
    rename_i effect next hcode
    obtain ⟨⟨reply, shared, performed⟩, hperform, heq⟩ := Option.bind_eq_some_iff.mp h
    cases heq
    refine ⟨fun id attempts word horders hdone attempt hattempt => ?_,
      fun id attempt word hordered hP => ?_⟩
    · refine happend _ _ id attempt word hpath rfl (fun _ => ?_)
        (hobeys id attempts word horders attempt hattempt)
      cases horders with
      | finalize horder | spawn horder | drop horder =>
        cases hcode.symm.trans horder
        rfl
      | leave hpath horder hawaits hguarded =>
        -- The handler goes on waiting, so its row is as guarded as before.
        cases hcode.symm.trans horder
        have hkept := (hs.custody_of_perform hcode hawaits hperform).trans hguarded
        rcases hdone with ⟨retry, hclosing⟩ | ⟨f, hf, hid, -⟩
        · rw [show Part.custody _ = _ from hkept] at hclosing
          cases hclosing
        · exact absurd (hid ▸ List.mem_map_of_mem hf) (hs'.not_finalized_of_guarded hb' hkept)
    · refine happend _ _ id attempt word hpath rfl (fun hcare => ?_) hP
      -- What has been ordered is not in the care of the code any more.
      obtain ⟨row, hrow, rfl⟩ := hcare
      obtain ⟨⟨row', hrow', hstarted⟩, hclosing⟩ := hs.started_of_care (by simp [hcode]) hrow
      rcases hordered with ⟨attempts, retry, word, h⟩ | ⟨f, hf, hid, -⟩
      · exact absurd h (hclosing attempts retry word)
      · exact absurd (hid ▸ List.mem_map_of_mem hf) (hb.not_mem_of_started hrow' hstarted)
  | unfold | execute | disconnect | finalizer =>
    have htrace : part'.trace = part.trace := by cases hgoes <;> assumption
    exact ⟨fun id attempts word horders _ attempt hattempt => hsame _ id attempt word hpath htrace
        (hobeys id attempts word horders attempt hattempt),
      fun id attempt word _ hP => hsame _ id attempt word hpath htrace hP⟩

/-- **Every step of prompt code keeps its orders truthful.** -/
theorem Part.Prompt.upholds (hp : part.Prompt) (hs : part.Sound sh index) (hl : part.Logged sh)
    {parts : Nat} (hb : sh.Books parts) (hindex : index < parts) {move : Move}
    (h : partStep config isHttpDate index sh part move = some (sh', part')) :
    part.Upholds Truthful index sh sh' part' := by
  refine hs.upholds hb hindex (fun id attempts word horders => hp.truthful hs horders)
    (fun part' id attempt word _ htrace htruthful => htruthful.of_trace htrace)
    (fun part' entry id attempt word _ htrace hnot htruthful => ?_) h
  -- Only a row in the care of the code is open.
  exact htruthful.append htrace fun hopen => hnot (hopen.mem_care fun before entry after heq =>
    (hl.made before entry after heq).pre)

/-! ### The system -/

/-- What holds of all parts in every reachable state. -/
structure System.Prompt (s : System) : Prop where
  sound : s.Sound
  logged : s.Logged
  parts : ∀ (index : Nat) (part : Part), s.parts[index]? = some part → part.Prompt
  truthful : s.AllOrdered Truthful

/-- **Every step** keeps all code prompt and all orders truthful. -/
theorem System.Prompt.step (hs : s.Prompt) {action : Action}
    (h : systemStep config isHttpDate s action = some t) : t.Prompt := by
  refine ⟨hs.sound.step h, hs.logged.step hs.sound h, ?_,
    hs.truthful.step_of hs.sound h fun index part move sh' part' hpart hstep =>
      (hs.parts index part hpart).upholds (hs.sound.parts index part hpart)
        (hs.logged index part hpart) hs.sound.books (List.getElem?_eq_some_iff.mp hpart).1 hstep⟩
  cases action with
  | start request =>
    cases h
    intro index part hpart
    rcases getElem?_append_singleton_cases hpart with hpart | ⟨-, rfl⟩
    · exact hs.parts index part hpart
    · exact request.prompt config
  | shutdown =>
    cases h
    exact hs.parts
  | part index move =>
    simp only [systemStep] at h
    obtain ⟨part, hpart, h⟩ := Option.bind_eq_some_iff.mp h
    obtain ⟨⟨sh', part'⟩, hstep, heq⟩ := Option.bind_eq_some_iff.mp h
    cases heq
    intro index' part'' hpart'
    rcases getElem?_set_cases hpart' with ⟨rfl, rfl⟩ | ⟨-, hpart'⟩
    · exact (hs.parts _ part hpart).step (hs.sound.parts _ part hpart) hstep
    · exact hs.parts index' part'' hpart'

theorem System.Prompt.of_run {actions : List Action} (hs : s.Prompt)
    (h : SystemRun config isHttpDate s actions t) : t.Prompt :=
  h.invariant (fun _ _ _ hs hstep => hs.step hstep) hs

theorem System.prompt_of_run {actions : List Action}
    (h : SystemRun config isHttpDate .init actions s) : s.Prompt :=
  System.Prompt.of_run
    ⟨System.init_sound, fun _ _ h => (by cases h), fun _ _ h => (by cases h), .init⟩ h

/-! ### Rows -/

/-- The client has left, closed its socket or sent a message that is not allowed, or the shutdown has
been signalled, before the upstream had the last word. -/
def Word.Withdrawn (word : Word) : Prop :=
  match word.cause with
  | .interrupted .clientGone => word.connected = false
  | .interrupted .shutdown => word.shutdown = true
  | .interrupted .clientClosed | .interrupted .clientBinary => True
  | _ => False

/-- The last word is a failure that a Responses operation does not record. -/
def Word.Unrecorded (path : ApiPath) (word : Word) : Prop :=
  path = .responses ∧ ∃ failure, word.cause = .failed failure ∧ failure.unrecorded = true

theorem Word.Sound.withdrawn {word : Word} (h : word.Sound) {interruption : Interruption}
    (hcause : word.cause = .interrupted interruption) : word.Withdrawn := by
  unfold Word.Withdrawn
  rw [hcause]
  cases interruption with
  | clientGone => exact h.clientGone hcause
  | shutdown => exact h.shutdown hcause
  | clientClosed | clientBinary => trivial

end CodexApi.Delivery
