import CodexApi.Delivery.Commit
import CodexApi.Delivery.Orders

/-!
# No new upstream work after the shutdown

A session that waits for the upstream is told of the shutdown first, and then cancels its row. Only
an admitted request on its way to the upstream waits without watching: a Responses request that
looks its model up, and a WebSocket request until its generation is sent. So nothing is sent upstream
after the shutdown, and all open rows are canceled, provided that the shutdown does not find a
request on that way, that no request is sent on that way afterwards, and that no relayed ping or
pong fails afterwards (`System.orderly`).
-/

namespace CodexApi.Delivery

open Transition

variable {sh sh' : Shared} {index : Nat} {part part' : Part} {entry : Entry} {v : View}
  {config : Config} {isHttpDate : String → Bool} {s t : System} {id : RequestId}

/-! ### Effects -/

/-- A `response.create` is sent upstream. -/
def Effect.sendsUpstream : (effect : Effect) → effect.Reply → Bool
  | sendCreate _ _, _ => true
  | select _ effect, .done reply => effect.sendsUpstream reply
  | _, _ => false

/-- The part waits for the upstream, whatever else happens. -/
def Effect.needsUpstream : Effect → Bool
  | model _ | connect _ | sendCreate _ _ | prewarmReply | next | post _ | nextRecord => true
  | _ => false

/-- The part waits and watches the shutdown. -/
def Effect.watches : Effect → Bool
  | select _ _ | receive => true
  | _ => false

/-- The effect that a part is at. -/
def Part.effect? (part : Part) : Option Effect :=
  match part.code with
  | some (.op effect _) => some effect
  | _ => none

theorem Part.effect?_eq_some {effect : Effect} :
    part.effect? = some effect ↔ ∃ next, part.code = some (.op effect next) := by
  unfold Part.effect?
  split
  · rename_i effect' next hcode
    rw [hcode]
    constructor
    · rintro ⟨⟩
      exact ⟨next, rfl⟩
    · rintro ⟨next', heq⟩
      cases heq
      rfl
  · rename_i hnot
    constructor
    · rintro ⟨⟩
    · rintro ⟨next, hcode⟩
      exact absurd hcode (hnot effect next)

/-! ### Orderly steps -/

/-- A reply that a session can be given after the shutdown: it sends no new request on its way to
the upstream, and does not report that a relayed ping or pong failed. -/
def Part.calm (part : Part) (response : Response) : Bool :=
  match part.code, response with
  | some (.op (.insert insertion) _), .done => insertion.admitted.isNone ||
    (viewOf part.trace).relaying && !(viewOf part.trace).held.isEmpty
  | some (.op (.sendUpstream _) _), .bool false => (viewOf part.trace).held.isEmpty
  | _, _ => true

/-- An operation of a session: a Responses turn or a WebSocket session. -/
def Part.inSession (part : Part) : Bool := part.path ≠ .chatCompletions

/-- A step that lets the shutdown meet no request of a session on its way to the upstream. -/
def System.orderly (s : System) : Action → Bool
  | .shutdown => s.parts.all fun part => !part.inSession || !(viewOf part.trace).dispatching
  | .part index (.reply response) => !s.shared.shutdown ||
    s.parts[index]?.all fun part => !part.inSession || part.calm response
  | _ => true

/-- Runs of such steps. -/
abbrev OrderlyRun (config : Config) (isHttpDate : String → Bool) :=
  Run (restrict (ofFun (systemStep config isHttpDate)) fun s action => s.orderly action = true)

theorem System.orderly_shutdown (h : s.orderly .shutdown = true) (hpart : part ∈ s.parts)
    (hsession : part.inSession = true) : (viewOf part.trace).dispatching = false := by
  have := List.all_eq_true.mp h part hpart
  simpa [hsession] using this

theorem System.orderly_reply {response : Response}
    (h : s.orderly (.part index (.reply response)) = true) (hshutdown : s.shared.shutdown = true)
    (hpart : s.parts[index]? = some part) (hsession : part.inSession = true) :
    part.calm response = true := by
  simpa [System.orderly, hshutdown, hpart, hsession] using h

/-! ### What is heard after the shutdown -/

/-- **After the shutdown**, nothing is heard but interruptions, and failures of a session to send. -/
theorem Entry.Made.heard {path : ApiPath} {before : List Entry} (hm : entry.Made path before)
    (hshutdown : entry.shutdown = true) (hcalm : (viewOf before).dispatching = false) {cause : Cause}
    (hobserve : entry.effect.observe entry.reply = some cause) :
    (∃ interruption, cause = .interrupted interruption) ∨ path = .webSocket ∧
      ∃ message, (⟨entry.effect, entry.reply⟩ : Sigma Effect.Reply) = ⟨.sendUpstream message, false⟩ := by
  obtain ⟨⟨hneeds, -⟩, sh, part, hsh, -, htold⟩ := hm
  rw [hshutdown] at hsh
  obtain ⟨effect, reply, connected, shutdown⟩ := entry
  have hcalmly : (viewOf before).dispatching ≠ true := fun h => by rw [hcalm] at h; cases h
  cases effect with
  | model => exact absurd hneeds.2 hcalmly
  | sendCreate | prewarmReply => exact absurd hneeds hcalmly
  | connect | next | sendPong | post | nextRecord | reserve => exact hneeds.elim
  | receive =>
    cases hobserve
    exact .inl ⟨.shutdown, htold.2.mpr hsh⟩
  | isShutdown | replyStream | send =>
    simp only [Effect.observe, Cause.ofClient] at hobserve
    split_ifs at hobserve
    cases hobserve
    exact .inl ⟨_, rfl⟩
  | callSession | takeJob =>
    cases reply <;> cases hobserve
    exact .inl ⟨_, rfl⟩
  | sendUpstream message =>
    simp only [Effect.observe, Cause.ofUpstream] at hobserve
    split_ifs at hobserve with hok
    exact .inr ⟨hneeds, message, by rw [Bool.not_eq_true] at hok; rw [hok]⟩
  | select closable effect =>
    refine .inl ?_
    cases reply with
    | shutdown | closed =>
      cases hobserve
      exact ⟨_, rfl⟩
    | done reply =>
      -- The shutdown comes first, unless there is another `select!` inside.
      obtain ⟨htold, hselect | ⟨hrunning, -⟩⟩ := htold
      swap
      · rw [hsh] at hrunning
        cases hrunning
      cases effect with
      | select closable effect =>
        cases reply with
        | shutdown | closed =>
          cases hobserve
          exact ⟨_, rfl⟩
        | done reply =>
          obtain ⟨-, hselect | ⟨hrunning, -⟩⟩ := htold
          · cases effect with
            | select => exact hneeds.2.elim
            | _ => cases hselect
          · rw [hsh] at hrunning
            cases hrunning
      | _ => cases hselect
  | _ => cases hobserve

/-- A `select!` or the `select!` of a WebSocket session is interrupted after the shutdown. -/
theorem Entry.Made.interrupted {path : ApiPath} {before : List Entry} (hm : entry.Made path before)
    (hshutdown : entry.shutdown = true) (hwatches : entry.effect.watches = true) :
    ∃ interruption, entry.effect.observe entry.reply = some (.interrupted interruption) := by
  obtain ⟨⟨hneeds, -⟩, sh, part, hsh, -, htold⟩ := hm
  rw [hshutdown] at hsh
  obtain ⟨effect, reply, connected, shutdown⟩ := entry
  cases effect with
  | receive => exact ⟨.shutdown, congrArg some (htold.2.mpr hsh)⟩
  | select closable effect =>
    cases reply with
    | shutdown | closed => exact ⟨_, rfl⟩
    | done reply =>
      obtain ⟨htold, hselect | ⟨hrunning, -⟩⟩ := htold
      swap
      · rw [hsh] at hrunning
        cases hrunning
      cases effect with
      | select closable effect =>
        cases reply with
        | shutdown | closed => exact ⟨_, rfl⟩
        | done reply =>
          obtain ⟨-, hselect | ⟨hrunning, -⟩⟩ := htold
          · cases effect with
            | select => exact hneeds.2.elim
            | _ => cases hselect
          · rw [hsh] at hrunning
            cases hrunning
      | _ => cases hselect
  | _ => cases hwatches

/-- Rows come into the hands of code by admissions only. -/
theorem View.mem_held_book {effect : Effect} {reply : effect.Reply} {row : Admitted}
    (h : row ∈ (v.book effect reply).held) : row ∈ v.held ∨ effect.admits reply = some row := by
  induction effect generalizing v with
  | insert insertion =>
    cases reply with
    | error error => exact .inl h
    | ok id =>
      cases hadmitted : insertion.admitted with
      | none =>
        simp only [View.book, hadmitted] at h
        exact .inl h
      | some model =>
        simp only [View.book, hadmitted, List.mem_append, List.mem_singleton] at h
        refine h.imp_right ?_
        rintro rfl
        simp [Effect.admits, hadmitted]
  | finalize id attempt =>
    cases reply with
    | error error => exact .inl h
    | ok _ => exact .inl (List.mem_of_mem_filter h)
  | newPending id =>
    simp only [View.book] at h
    split at h
    · exact .inl (List.mem_of_mem_filter h)
    · exact .inl h
  | responseStarted | spawnFinalizer | model =>
    simp only [View.book] at h
    exact .inl (by split at h <;> exact h)
  | join => exact .inl (held_after_join ▸ h)
  | select closable effect ih =>
    cases reply with
    | shutdown | closed => exact .inl h
    | done reply => exact ih h
  | plan | prewarmReply => cases reply <;> exact .inl h
  | _ => exact .inl h

/-! ### Sessions that halt -/

/-- What holds of a session that the shutdown meets in order. -/
structure Part.Halting (sh : Shared) (part : Part) : Prop where
  calm : sh.shutdown = true → (viewOf part.trace).dispatching = false
  entries : ∀ (before : List Entry) (entry : Entry) (after : List Entry),
    part.trace = before ++ entry :: after → entry.shutdown = true →
      (viewOf before).dispatching = false
  word : (wordOf part.trace).shutdown = true →
    (∃ interruption, (wordOf part.trace).cause = .interrupted interruption) ∨
      part.path = .webSocket ∧ (viewOf part.trace).held = []

/-- The last word came with an entry. -/
theorem exists_entry_of_word_shutdown {trace : List Entry} (h : (wordOf trace).shutdown = true) :
    ∃ entry ∈ trace, entry.shutdown = true := by
  induction trace using List.reverseRecOn with
  | nil => cases h
  | append_singleton trace entry ih =>
    rw [wordOf_append] at h
    simp only [Word.hear] at h
    split_ifs at h
    · exact ⟨entry, List.mem_append_right _ (List.mem_singleton_self _), h⟩
    · obtain ⟨entry', hentry, hshutdown⟩ := ih h
      exact ⟨entry', List.mem_append_left _ hentry, hshutdown⟩

theorem Part.Logged.shutdown_of_word (hl : part.Logged sh)
    (h : (wordOf part.trace).shutdown = true) : sh.shutdown = true := by
  obtain ⟨entry, hentry, hshutdown⟩ := exists_entry_of_word_shutdown h
  exact hl.shutdown entry hentry hshutdown

/-- The session has been told a reply. -/
theorem Part.Halting.reply (hh : part.Halting sh) (hs : part.Sound sh index) (hl : part.Logged sh)
    {effect : Effect} {next : effect.Reply → Code Unit} {reply : effect.Reply} {response : Response}
    {shared : Shared} {performed : Part} (hop : part.code = some (.op effect next))
    (hperform : part.perform sh effect response = some (reply, shared, performed))
    (hcalm : sh.shutdown = true → part.calm response = true) (hpath : part'.path = part.path)
    (hshutdown : sh'.shutdown = sh.shutdown)
    (htrace : part'.trace = part.trace ++ [⟨effect, reply, part.connected, sh.shutdown⟩]) :
    part'.Halting sh' := by
  have hmade : Entry.Made part.path part.trace ⟨effect, reply, part.connected, sh.shutdown⟩ :=
    ⟨hs.pre hop, sh, part, rfl, rfl, Part.told_of_perform hperform⟩
  -- After the shutdown, a row is admitted only while another one is relayed.
  have hinsert : ∀ insertion id model, sh.shutdown = true →
      (⟨effect, reply⟩ : Sigma Effect.Reply) = ⟨.insert insertion, .ok id⟩ →
      insertion.admitted = some model →
      (viewOf part.trace).relaying = true ∧ (viewOf part.trace).held ≠ [] := by
    intro insertion id model hseen heq hadmitted
    cases heq
    have hallowed := hcalm hseen
    cases response <;> try cases hperform
    simpa [Part.calm, hop, hadmitted] using hallowed
  refine ⟨fun hseen => ?_, fun before entry after heq hseen => ?_, fun hseen => ?_⟩
  · rw [hshutdown] at hseen
    rw [htrace, viewOf_append, ← Bool.not_eq_true]
    intro hdispatching
    rcases View.dispatching_after hdispatching with ⟨h, -⟩ | ⟨insertion, id, model, heq, hadmitted, hnot⟩
    · rw [hh.calm hseen] at h
      cases h
    · rw [(hinsert insertion id model hseen heq hadmitted).1] at hnot
      cases hnot
  · rcases append_singleton_eq_append_cons (htrace.symm.trans heq) with
      ⟨rfl, rfl, -⟩ | ⟨after', -, htail⟩
    · exact hh.calm hseen
    · exact hh.entries before entry after' htail hseen
  · have hheld : sh.shutdown = true → (viewOf part.trace).held = [] →
        (viewOf part'.trace).held = [] := by
      intro hseen hnone
      rw [htrace, viewOf_append]
      refine List.eq_nil_iff_forall_not_mem.mpr fun row hrow => ?_
      rcases View.mem_held_book hrow with hrow | hadmits
      · rw [hnone] at hrow
        cases hrow
      · cases effect with
        | insert insertion =>
          cases reply with
          | error error => cases hadmits
          | ok id =>
            obtain ⟨model, hadmitted, -⟩ := Option.map_eq_some_iff.mp hadmits
            exact (hinsert insertion id model hseen rfl hadmitted).2 hnone
        | select closable effect =>
          cases reply with
          | shutdown | closed => cases hadmits
          | done reply =>
            have hwaits := hmade.pre.1.2
            cases effect with
            | insert => exact hwaits.elim
            | select closable effect =>
              cases effect with
              | next => cases reply <;> cases hadmits
              | _ => exact hwaits.elim
            | _ => cases hadmits
        | _ => cases hadmits
    rw [hpath]
    rw [htrace, wordOf_append] at hseen ⊢
    simp only [Word.hear] at hseen ⊢
    split_ifs at hseen ⊢ with hheard
    · obtain ⟨hsome, hopen⟩ := Bool.and_eq_true_iff.mp hheard
      obtain ⟨heard, hobserve⟩ := Option.isSome_iff_exists.mp hsome
      rcases hmade.heard hseen (hh.calm hseen) hobserve with
        ⟨interruption, rfl⟩ | ⟨hsocket, message, heq⟩
      · refine .inl ⟨interruption, ?_⟩
        rw [hobserve]
        cases hcause : (wordOf part.trace).cause with
        | failed failure =>
          rw [hcause] at hopen
          cases hopen
        | clear | interrupted | terminal => rfl
      · cases heq
        refine .inr ⟨hsocket, ?_⟩
        have hfalse : response = .bool false := by
          rw [Part.perform_of_plain rfl, Option.map_eq_some_iff] at hperform
          obtain ⟨reply', hreply, heq⟩ := hperform
          cases heq
          cases response <;> cases hreply
          rfl
        have hallowed := hcalm hseen
        have := hheld hseen (by simpa [Part.calm, hop, hfalse] using hallowed)
        rwa [htrace] at this
    · have hnow := hl.shutdown_of_word hseen
      rcases hh.word hseen with ⟨interruption, hcause⟩ | ⟨hsocket, hnone⟩
      · refine .inl ⟨interruption, ?_⟩
        have hnothing : effect.observe reply = none := by
          rw [hcause] at hheard
          simpa [Cause.settled] using hheard
        rw [hnothing]
        exact hcause
      · have := hheld hnow hnone
        rw [htrace] at this
        exact .inr ⟨hsocket, this⟩

theorem Part.Halting.of_trace (hh : part.Halting sh) (hpath : part'.path = part.path)
    (hshutdown : sh'.shutdown = sh.shutdown) (htrace : part'.trace = part.trace) :
    part'.Halting sh' where
  calm := fun hseen => htrace ▸ hh.calm (hshutdown.symm.trans hseen)
  entries := fun before entry after heq => hh.entries before entry after (htrace ▸ heq)
  word := by
    rw [htrace, hpath]
    exact hh.word

/-- **A step of a session** that the shutdown meets in order. -/
theorem Part.Halting.step (hh : part.Halting sh) (hs : part.Sound sh index) (hl : part.Logged sh)
    {move : Move} (hcalm : ∀ response, move = .reply response → sh.shutdown = true →
      part.calm response = true)
    (h : partStep config isHttpDate index sh part move = some (sh', part')) : part'.Halting sh' := by
  obtain ⟨hpath, hshutdown, -, hgoes⟩ := goes_of_partStep h
  cases hgoes with
  | stays htrace | unfolds htrace => exact hh.of_trace hpath hshutdown htrace
  | replies hop hperform _ htrace =>
    exact hh.reply hs hl hop hperform (hcalm _ rfl) hpath hshutdown htrace

/-- A row of a session is canceled if the last word came after the shutdown. -/
def CanceledAfterShutdown : OnAttempts := fun part _ attempt word =>
  part.inSession = true → word.shutdown = true → attempt.status = .canceled

theorem Part.inSession_of_path (h : part'.path = part.path) : part'.inSession = part.inSession := by
  rw [Part.inSession, Part.inSession, h]

theorem CanceledAfterShutdown.lasting : OnAttempts.Lasting CanceledAfterShutdown :=
  fun _ _ _ _ _ hpath _ h hsession => h (Part.inSession_of_path hpath ▸ hsession)

theorem Part.Halting.obeys (hh : part.Halting sh) (hs : part.Sound sh index) :
    part.Obeys CanceledAfterShutdown sh := by
  intro id attempts word horders attempt hattempt _ hshutdown
  have hjustified : ∀ rates, Justified part.path (viewOf part.trace).cause rates attempt →
      (∃ interruption, (wordOf part.trace).cause = .interrupted interruption) →
      attempt.status = .canceled := by
    rintro rates hjustified ⟨interruption, hcause⟩
    by_contra hne
    exact hjustified.interrupted hne interruption ((wordOf_cause _).symm.trans hcause)
  cases horders with
  | finalize hcode =>
    rw [List.mem_singleton.mp hattempt] at hjustified ⊢
    obtain ⟨-, -, -, row, hrow, -, hfits⟩ := (hs.pre hcode).1
    rcases hh.word hshutdown with hinterrupted | ⟨-, hnone⟩
    · exact hjustified _ hfits hinterrupted
    · rw [hnone] at hrow
      cases hrow
  | spawn hcode hguarded =>
    obtain ⟨row, started, -, -, hall⟩ := (hs.pre hcode).1
    rcases hh.word hshutdown with hinterrupted | ⟨hsocket, -⟩
    · exact hjustified _ (hall attempt hattempt).2 hinterrupted
    · rw [hs.tracks.webSocket hsocket] at hguarded
      cases hguarded
  | drop | leave => rw [List.mem_singleton.mp hattempt]

/-- What holds in every state of an orderly run. -/
structure System.Halting (s : System) : Prop where
  sound : s.Sound
  logged : s.Logged
  parts : ∀ (index : Nat) (part : Part), s.parts[index]? = some part →
    part.inSession = true → part.Halting s.shared
  ordered : s.AllOrdered CanceledAfterShutdown

/-- **Orderly steps** keep it. -/
theorem System.Halting.step (hh : s.Halting) {action : Action} (horderly : s.orderly action = true)
    (h : systemStep config isHttpDate s action = some t) : t.Halting := by
  have hobeys : ∀ (index : Nat) (part : Part), s.parts[index]? = some part →
      part.Obeys CanceledAfterShutdown s.shared := by
    intro index part hpart
    cases hsession : part.inSession with
    | false => exact fun _ _ _ _ _ _ h => by rw [hsession] at h; cases h
    | true => exact (hh.parts index part hpart hsession).obeys (hh.sound.parts index part hpart)
  refine ⟨hh.sound.step h, hh.logged.step hh.sound h, ?_,
    hh.ordered.step CanceledAfterShutdown.lasting hh.sound hobeys h⟩
  cases action with
  | start request =>
    cases h
    intro index part hpart hpath
    rcases getElem?_append_singleton_cases hpart with hpart | ⟨-, rfl⟩
    · exact hh.parts index part hpart hpath
    · have hnil := request.trace_part config
      exact ⟨fun _ => by rw [hnil]; rfl, fun before entry after heq => by simp [hnil] at heq,
        fun hseen => by rw [hnil] at hseen; cases hseen⟩
  | shutdown =>
    cases h
    intro index part hpart hpath
    obtain ⟨-, hentries, hword⟩ := hh.parts index part hpart hpath
    exact ⟨fun _ => System.orderly_shutdown horderly (List.mem_of_getElem? hpart) hpath, hentries, hword⟩
  | part index move =>
    simp only [systemStep] at h
    obtain ⟨part, hpart, h⟩ := Option.bind_eq_some_iff.mp h
    obtain ⟨⟨sh', part'⟩, hstep, heq⟩ := Option.bind_eq_some_iff.mp h
    cases heq
    obtain ⟨hkept, hshutdown, -⟩ := goes_of_partStep hstep
    intro index' part'' hpart' hpath
    rcases getElem?_set_cases hpart' with ⟨rfl, rfl⟩ | ⟨-, hpart'⟩
    · rw [Part.inSession_of_path hkept] at hpath
      refine (hh.parts _ part hpart hpath).step (hh.sound.parts _ part hpart)
        (hh.logged _ part hpart) ?_ hstep
      rintro response rfl hseen
      exact System.orderly_reply horderly hseen hpart hpath
    · exact (hh.parts index' part'' hpart' hpath).of_trace rfl hshutdown rfl

theorem System.halting_of_run {actions : List Action}
    (h : OrderlyRun config isHttpDate .init actions s) : s.Halting :=
  h.invariant (fun _ _ _ hs hstep => hs.step hstep.1 hstep.2)
    ⟨System.init_sound, fun _ _ h => (by cases h), fun _ _ h => (by cases h), .init⟩

/-- No request is sent upstream after the shutdown. -/
theorem Part.Halting.not_sends (hh : part.Halting sh) (hl : part.Logged sh)
    (hentry : entry ∈ part.trace) (hsends : entry.effect.sendsUpstream entry.reply = true) :
    entry.shutdown = false := by
  rw [← Bool.not_eq_true]
  intro hseen
  obtain ⟨before, after, heq⟩ := List.append_of_mem hentry
  have hcalm := hh.entries before entry after heq hseen
  obtain ⟨⟨hneeds, -⟩, sh, part, hsh, -, htold⟩ := hl.made before entry after heq
  obtain ⟨effect, reply, connected, shutdown⟩ := entry
  cases effect with
  | sendCreate =>
    rw [show (viewOf before).dispatching = true from hneeds] at hcalm
    cases hcalm
  | select closable effect =>
    cases reply with
    | shutdown | closed => cases hsends
    | done reply =>
      obtain ⟨-, hselect | ⟨hrunning, -⟩⟩ := htold
      · cases effect with
        | select closable effect =>
          cases effect with
          | next => cases reply <;> cases hsends
          | _ => exact hneeds.2.elim
        | _ => cases hselect
      · rw [hsh] at hrunning
        rw [hrunning] at hseen
        cases hseen
  | _ => cases hsends

/-- After the shutdown, no session waits for the upstream without watching. -/
theorem Part.Halting.not_needs (hh : part.Halting sh) (hs : part.Sound sh index)
    (hshutdown : sh.shutdown = true) {effect : Effect} {next : effect.Reply → Code Unit}
    (hcode : part.code = some (.op effect next)) : effect.needsUpstream = false := by
  have hcalm : (viewOf part.trace).dispatching ≠ true := fun h => by
    rw [hh.calm hshutdown] at h
    cases h
  have hneeds := (hs.pre hcode).1
  cases effect with
  | model => exact absurd hneeds.2 hcalm
  | sendCreate | prewarmReply => exact absurd hneeds hcalm
  | connect | next | post | nextRecord => exact hneeds.elim
  | _ => rfl

/-! ### Waiting sessions cancel their rows -/

/-- The last word came after the shutdown, or was a failure of the upstream. -/
def Word.Final (word : Word) : Prop := word.shutdown = true ∨ ∃ failure, word.cause = .failed failure

theorem Word.Final.hear {word : Word} (hw : word.Final) (hshutdown : entry.shutdown = true) :
    (word.hear entry).Final := by
  simp only [Word.hear]
  split_ifs
  · exact .inl hshutdown
  · rcases hw with hseen | ⟨failure, hcause⟩
    · exact .inl hseen
    · refine .inr ?_
      rw [hcause]
      cases entry.effect.observe entry.reply with
      | none => exact ⟨failure, rfl⟩
      | some heard => cases entry.effect.seesShutdown entry.reply <;> exact ⟨_, rfl⟩

theorem Word.final_of_heard {word : Word} (hshutdown : entry.shutdown = true)
    (hheard : (entry.effect.observe entry.reply).isSome = true) : (word.hear entry).Final := by
  cases hsettled : word.cause.settled with
  | false =>
    simp only [Word.hear, hheard, hsettled, Bool.not_false, Bool.and_self, if_true]
    exact .inl hshutdown
  | true =>
    refine Word.Final.hear (.inr ?_) hshutdown
    cases hcause : word.cause with
    | failed failure => exact ⟨failure, rfl⟩
    | clear | interrupted | terminal =>
      rw [hcause] at hsettled
      cases hsettled

/-- A row is canceled, or the last word on it is final. -/
def FinalFor (id : RequestId) : OnAttempts := fun _ id' attempt word =>
  id' = id → attempt.status = .canceled ∨ word.Final

theorem FinalFor.lasting (id : RequestId) : OnAttempts.Lasting (FinalFor id) :=
  fun _ _ _ _ _ _ _ h => h

/-- Only the owner of a row orders its finalization. -/
theorem Part.Orders.owner {attempts : List Attempt} {word : Word} (hs : part.Sound sh index)
    (h : part.Orders sh id attempts word) : sh.owners[id]? = some index := by
  refine hs.tracks.owner ?_
  have hguarded : ∀ httpStatus, part.custody = .guarded id httpStatus →
      id ∈ (viewOf part.trace).ids := fun httpStatus hguarded =>
    hs.tracks.custody.mem_ids (by rw [hguarded]; rfl)
  cases h with
  | finalize hcode =>
    obtain ⟨-, -, -, row, hrow, rfl, -⟩ := (hs.pre hcode).1
    exact hs.view.owned row hrow
  | spawn _ hcustody | drop _ hcustody | leave _ _ _ hcustody => exact hguarded _ hcustody

/-- A session that was waiting when the shutdown was known either still waits, has been dropped, or
has been told. -/
structure System.Awaits (index : Nat) (id : RequestId) (waiting : Part) (s : System) : Prop where
  halting : s.Halting
  shutdown : s.shared.shutdown = true
  owner : s.shared.owners[id]? = some index
  phase : ∃ part, s.parts[index]? = some part ∧ part.path = waiting.path ∧
    ((part.trace = waiting.trace ∧ (part.code = waiting.code ∨ part.code = none)) ∨
      (wordOf part.trace).Final)
  ordered : s.AllOrdered (FinalFor id)

section

variable {waiting : Part} {effect : Effect} {next : effect.Reply → Code Unit}
  (hwaiting : waiting.code = some (.op effect next)) (hwatches : effect.watches = true)

include hwaiting hwatches

theorem System.Awaits.obeys (ha : s.Awaits index id waiting) {index' : Nat} {part : Part}
    (hpart : s.parts[index']? = some part) : part.Obeys (FinalFor id) s.shared := by
  rintro id' attempts word horders attempt hattempt rfl
  have howner := horders.owner (ha.halting.sound.parts index' part hpart)
  rw [ha.owner] at howner
  cases howner
  obtain ⟨part', hpart', -, hphase⟩ := ha.phase
  rw [hpart] at hpart'
  cases hpart'
  have hnot : ∀ {effect' : Effect} {next' : effect'.Reply → Code Unit},
      part.code = some (.op effect' next') → effect'.watches = false →
      (wordOf part.trace).Final := by
    intro effect' next' hcode hignores
    rcases hphase with ⟨-, hsame | hnone⟩ | hfinal
    · rw [hcode, hwaiting] at hsame
      cases hsame
      rw [hwatches] at hignores
      cases hignores
    · rw [hcode] at hnone
      cases hnone
    · exact hfinal
  cases horders with
  | finalize hcode => exact .inr (hnot hcode rfl)
  | spawn hcode => exact .inr (hnot hcode rfl)
  | drop | leave => exact .inl (by rw [List.mem_singleton.mp hattempt])

theorem System.Awaits.step (ha : s.Awaits index id waiting) {action : Action}
    (horderly : s.orderly action = true) (h : systemStep config isHttpDate s action = some t) :
    t.Awaits index id waiting := by
  have hordered := ha.ordered.step (FinalFor.lasting id) ha.halting.sound
    (fun _ _ hpart => ha.obeys hwaiting hwatches hpart) h
  have hhalting := ha.halting.step horderly h
  obtain ⟨part, hpart, hpath, hphase⟩ := ha.phase
  cases action with
  | start request =>
    cases h
    exact ⟨hhalting, ha.shutdown, ha.owner, ⟨part, getElem?_append_of_some _ hpart, hpath, hphase⟩,
      hordered⟩
  | shutdown =>
    cases h
    exact ⟨hhalting, rfl, ha.owner, ⟨part, hpart, hpath, hphase⟩, hordered⟩
  | part index' move =>
    simp only [systemStep] at h
    obtain ⟨moved, hmoved, h⟩ := Option.bind_eq_some_iff.mp h
    obtain ⟨⟨sh', part'⟩, hstep, heq⟩ := Option.bind_eq_some_iff.mp h
    cases heq
    have hsound := ha.halting.sound.parts index' moved hmoved
    obtain ⟨hevolves, -⟩ := hsound.step config isHttpDate ha.halting.sound.books hstep
    obtain ⟨hkept, hshutdown, -, hgoes⟩ := goes_of_partStep hstep
    refine ⟨hhalting, hshutdown.trans ha.shutdown, hevolves.owner ha.owner, ?_, hordered⟩
    rcases eq_or_ne index' index with rfl | hne
    swap
    · exact ⟨part, by rwa [List.getElem?_set_ne hne], hpath, hphase⟩
    rw [hpart] at hmoved
    cases hmoved
    refine ⟨part', List.getElem?_set_self (List.getElem?_eq_some_iff.mp hpart).1,
      hkept.trans hpath, ?_⟩
    cases hgoes with
    | stays htrace hcode =>
      rw [htrace]
      refine hphase.imp_left (And.imp_right fun hsame => ?_)
      rcases hcode with hcode | hcode
      · rwa [hcode]
      · exact .inr hcode
    | unfolds htrace hjump =>
      rw [htrace]
      refine .inr (hphase.resolve_left ?_)
      rintro ⟨-, hsame | hnone⟩
      · rw [hjump, hwaiting] at hsame
        cases hsame
      · rw [hjump] at hnone
        cases hnone
    | @replies effect' next' reply response shared performed _ hop hperform _ htrace =>
      rw [htrace, wordOf_append]
      refine .inr ?_
      rcases hphase with ⟨hsame, hcode | hnone⟩ | hfinal
      · rw [hop, hwaiting] at hcode
        cases hcode
        have hmade : Entry.Made part.path part.trace
            ⟨effect, reply, part.connected, s.shared.shutdown⟩ :=
          ⟨hsound.pre hop, s.shared, part, rfl, rfl, Part.told_of_perform hperform⟩
        obtain ⟨interruption, hobserve⟩ := hmade.interrupted ha.shutdown hwatches
        exact Word.final_of_heard ha.shutdown (by rw [hobserve]; rfl)
      · rw [hop] at hnone
        cases hnone
      · exact hfinal.hear ha.shutdown

end

/-- A row that is open when the session waits. -/
theorem System.Halting.awaits (hh : s.Halting) (hshutdown : s.shared.shutdown = true)
    (hpart : s.parts[index]? = some part) (hstarted : s.shared.Started id)
    (howner : s.shared.owners[id]? = some index) (hidle : part.finalizing id = false) :
    s.Awaits index id part := by
  refine ⟨hh, hshutdown, howner, ⟨part, hpart, rfl, .inl ⟨rfl, .inl rfl⟩⟩, ?_⟩
  refine fun index' part' hpart' => ⟨?_, fun f hf _ hid => ?_⟩
  · rintro id' attempts retry word hclosing attempt - rfl
    have howner' := (hh.sound.parts index' part' hpart').tracks.owner
      ((hh.sound.parts index' part' hpart').tracks.custody.mem_ids (by rw [hclosing]; rfl))
    rw [howner] at howner'
    cases howner'
    rw [hpart] at hpart'
    cases hpart'
    simp [Part.finalizing, hclosing] at hidle
  · obtain ⟨row, hrow, hstatus⟩ := hstarted
    exact absurd (hid ▸ List.mem_map_of_mem hf) (hh.sound.books.not_mem_of_started hrow hstatus)

end CodexApi.Delivery
