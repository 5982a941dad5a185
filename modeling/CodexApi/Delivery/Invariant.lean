import CodexApi.Delivery.Bookkeeping
import CodexApi.Delivery.ChatRespect
import CodexApi.Delivery.ConnectionRespects
import CodexApi.Delivery.ResponsesRespect

/-!
# The invariant of the system

In every reachable state the books are in order, every part knows only what is true, and its code
respects the contract from there on. A step of a part keeps this of the part by what the contract
lets its effect do, and of the others because it touches no row of theirs.
-/

namespace CodexApi.Delivery

open Transition

/-! ### Parts -/

/-- The `INSERT` of a part is where its code has it. -/
def InsertingIn (sh : Shared) (part : Part) : Prop :=
  match part.inserting with
  | .idle => True
  | .executed id => ∃ insertion next, part.code = some (.op (.insert insertion) next) ∧
    sh.ledger[id]? = some insertion.row
  | .orphaned insertion => part.code = none ∧ insertion.Sound
  | .leaked _ => part.code = none

/-- What holds of a part in every reachable state. -/
structure Part.Sound (sh : Shared) (index : Nat) (part : Part) : Prop where
  tracks : Tracks sh index part (viewOf part.trace)
  view : (viewOf part.trace).Sound part.path
  respects : ∀ code, part.code = some code → code.Respects part.path (viewOf part.trace)
  word : (wordOf part.trace).Sound
  inserting : InsertingIn sh part
  dropped : part.code = none → (viewOf part.trace).held = [] ∧
    ∀ id httpStatus, part.custody ≠ .guarded id httpStatus

variable {sh sh' : Shared} {index parts : Nat} {part part' : Part} {v : View} {id : RequestId}
  {effect : Effect} {reply : effect.Reply} {response : Response}

theorem View.Follows.refl (v : View) : v.Follows v :=
  ⟨rfl, rfl, rfl, .inl rfl, rfl, .inl fun _ h => h⟩

/-- What a reply tells apart from rows. -/
theorem View.follows_book (h : effect.observe reply = none) :
    (v.book effect reply).Follows (v.after effect reply) := by
  refine ⟨rfl, rfl, rfl, .inl rfl, rfl, .inl fun terminal hterminal => ?_⟩
  rw [View.cause_book]
  rcases View.terminal_after hterminal with hobserve | ⟨-, hcause⟩
  · rw [h] at hobserve
    cases hobserve
  · exact hcause

/-- The steps of other parts do not touch a part. -/
theorem Part.Sound.keeps (hs : part.Sound sh index) (h : sh.Keeps index sh') :
    part.Sound sh' index where
  tracks := hs.tracks.keeps hs.view h
  view := hs.view
  respects := hs.respects
  word := hs.word
  inserting := by
    have hinserting := hs.inserting
    have howns := hs.tracks.owns
    unfold InsertingIn at hinserting ⊢
    cases hpart : part.inserting with
    | idle => trivial
    | executed id =>
      rw [hpart] at hinserting howns
      obtain ⟨insertion, next, hcode, hrow⟩ := hinserting
      exact ⟨insertion, next, hcode, (h.ledger id (howns id (.inr rfl))).trans hrow⟩
    | orphaned insertion =>
      rw [hpart] at hinserting
      exact hinserting
    | leaked id =>
      rw [hpart] at hinserting
      exact hinserting
  dropped := hs.dropped

/-- An `INSERT` is only under way where the code waits for it. -/
theorem InsertingIn.idle {code : Code Unit} (hi : InsertingIn sh part) (hcode : part.code = some code)
    (hne : ∀ insertion next, code ≠ .op (.insert insertion) next) : part.inserting = .idle := by
  unfold InsertingIn at hi
  cases hpart : part.inserting with
  | idle => rfl
  | executed id =>
    rw [hpart, hcode] at hi
    obtain ⟨insertion, next, heq, -⟩ := hi
    exact absurd (Option.some.inj heq) (hne insertion next)
  | orphaned insertion =>
    rw [hpart, hcode] at hi
    cases hi.1
  | leaked id =>
    rw [hpart, hcode] at hi
    cases hi

/-! ### Replies -/

/-- What the code may be told is what a reply tells it. -/
theorem Tracks.may_of_told (ht : Tracks sh index part v) (htold : part.Told sh effect reply)
    (hfresh : ∀ insertion id, (⟨effect, reply⟩ : Sigma Effect.Reply) = ⟨.insert insertion, .ok id⟩ →
      id ∉ v.ids) : (contract part.path).may v effect reply := by
  cases effect with
  | plan =>
    cases reply with
    | error => trivial
    | ok insertion => exact htold
  | insert insertion =>
    cases reply with
    | error => trivial
    | ok id => exact hfresh insertion id rfl
  | isShutdown => exact fun hcause => htold.trans (ht.shutdown hcause)
  | select closable effect =>
    cases reply with
    | closed => exact htold.1
    | shutdown | done => trivial
  | _ => trivial

/-- After a reply, the last word is still true of the shutdown. -/
theorem Tracks.shutdown_after (ht : Tracks sh index part v) (htold : part.Told sh effect reply)
    (h : (v.after effect reply).cause = .interrupted .shutdown) : sh.shutdown = true := by
  have hhear : v.cause.hear (effect.seesShutdown reply) (effect.observe reply) =
      .interrupted .shutdown := h
  cases hobserve : effect.observe reply with
  | none =>
    rw [hobserve] at hhear
    exact ht.shutdown hhear
  | some heard =>
    refine htold.of_shutdown (hobserve.trans ?_)
    rw [hobserve] at hhear
    cases hcause : v.cause with
    | failed failure =>
      rw [hcause] at hhear
      simp only [Cause.hear] at hhear
      split at hhear <;> cases hhear
    | clear | interrupted | terminal =>
      rw [hcause] at hhear
      exact congrArg some hhear

/-- What giving a reply does to a part, apart from its code and its trace. -/
structure Performed (sh : Shared) (index : Nat) (part : Part) (v' : View) (sh' : Shared)
    (part' : Part) : Prop where
  evolves : sh.Evolves index sh'
  tracks : Tracks sh' index part' v'
  path : part'.path = part.path
  code : part'.code = part.code
  inserting : part'.inserting = .idle
  trace : part'.trace = part.trace

/-- A reply that does nothing to rows. -/
theorem Tracks.performed_of_follows (ht : Tracks sh index part v) {v' : View}
    (hidle : part.inserting = .idle) (halike : part.Alike part') (hv : v.Follows v')
    (hshutdown : v'.cause = .interrupted .shutdown → sh.shutdown = true)
    (hcode : part.code.isSome = true) : Performed sh index part v' sh part' where
  evolves := .same
  tracks := ht.follows hv halike.path (.inl hcode) halike.inserting halike.custody
    halike.storeFailed hshutdown
  path := halike.path
  code := halike.code
  inserting := halike.inserting.trans hidle
  trace := halike.trace

/-- The reply of a finalizing task. -/
theorem Tracks.performed_join (ht : Tracks sh index part v) (hcode : part.code.isSome = true)
    (hclosing : ∃ row attempts, v.pending = .closing row attempts) {ok : Bool}
    (h : part.perform sh .join response = some (ok, sh', part')) :
    sh' = sh ∧ part' = part ∧ Tracks sh index part (v.book .join ok) := by
  obtain ⟨row, attempts, hclosing⟩ := hclosing
  rw [Part.perform_of_plain rfl, Option.map_eq_some_iff] at h
  obtain ⟨ok', hreply, heq⟩ := h
  cases heq
  cases response <;> try cases hreply
  simp only [Part.reply] at hreply
  split at hreply
  · rename_i id ok' hclosed
    cases hreply
    exact ⟨rfl, rfl, ht.join hcode hclosing hclosed⟩
  · cases hreply

section

variable (hs : part.Sound sh index) {next : effect.Reply → Code Unit}
  (hcode : part.code = some (.op effect next))
  (h : part.perform sh effect response = some (reply, sh', part'))

include hs hcode

/-- The contract lets the code begin its effect. -/
theorem Part.Sound.pre : (contract part.path).pre (viewOf part.trace) effect :=
  (hs.respects _ hcode).1

include h

theorem Part.Sound.may : (contract part.path).may (viewOf part.trace) effect reply := by
  refine hs.tracks.may_of_told (Part.told_of_perform h) ?_
  rintro insertion id heq
  cases heq
  cases response <;> try cases h
  simp only [Part.perform] at h
  split at h
  · rename_i id' hexecuted
    cases h
    exact hs.tracks.fresh id (by rw [hexecuted]; rfl)
  · cases h

theorem Part.Sound.perform_minor (hminor : effect.minor = true) :
    Performed sh index part ((viewOf part.trace).after effect reply) sh' part' := by
  obtain ⟨rfl, halike⟩ := Part.alike_of_perform hminor h
  refine hs.tracks.performed_of_follows (hs.inserting.idle hcode ?_) halike
    (View.follows_of_minor hs.view hminor (hs.pre hcode))
    (hs.tracks.shutdown_after (Part.told_of_perform h)) (by simp [hcode])
  rintro insertion next' heq
  cases heq
  cases hminor

end

section

variable (hs : part.Sound sh index)

include hs

theorem Part.Sound.perform_join {ok : Bool} {next : Bool → Code Unit}
    (hcode : part.code = some (.op .join next))
    (h : part.perform sh .join response = some (ok, sh', part')) :
    Performed sh index part ((viewOf part.trace).after .join ok) sh' part' := by
  obtain ⟨rfl, rfl, htracks⟩ := hs.tracks.performed_join (by simp [hcode]) (hs.pre hcode).1 h
  refine htracks.performed_of_follows (hs.inserting.idle hcode ?_) (.refl _)
    (View.follows_book rfl) (hs.tracks.shutdown_after (Part.told_of_perform h)) (by simp [hcode])
  rintro insertion next' heq
  cases heq

theorem Part.Sound.perform_select {closable : Bool} {effect : Effect}
    {selected : Selected effect.Reply} {next : Selected effect.Reply → Code Unit}
    (hcode : part.code = some (.op (.select closable effect) next))
    (hminor : effect.minor = false)
    (h : part.perform sh (.select closable effect) response = some (selected, sh', part')) :
    Performed sh index part ((viewOf part.trace).after (.select closable effect) selected) sh'
      part' := by
  have hidle : part.inserting = .idle := hs.inserting.idle hcode (by rintro insertion next' ⟨⟩)
  have hshutdown := hs.tracks.shutdown_after (Part.told_of_perform h)
  -- The only effect about rows that a `select!` waits for is the end of a finalizing task.
  obtain ⟨⟨-, hwaits⟩, -, -⟩ := hs.pre hcode
  obtain ⟨rfl, hclosing⟩ : effect = .join ∧
      ∃ row attempts, (viewOf part.trace).pending = .closing row attempts := by
    cases effect with
    | join => exact ⟨rfl, hwaits⟩
    | select closable effect =>
      cases effect with
      | next => cases hminor
      | _ => exact hwaits.elim
    | insert | finalize | newPending | responseStarted | spawnFinalizer | dropPending =>
      exact hwaits.elim
    | _ => cases hminor
  have hinterrupted : ∀ selected : Selected Bool, (∀ ok, selected ≠ .done ok) →
      (viewOf part.trace).Follows ((viewOf part.trace).after (.select closable .join) selected) := by
    intro selected hselected
    cases selected with
    | done ok => exact absurd rfl (hselected ok)
    | shutdown | closed =>
      refine ⟨rfl, rfl, rfl, .inl rfl, rfl, .inl fun terminal hterminal => ?_⟩
      rcases View.terminal_after hterminal with hobserve | ⟨-, hcause⟩
      · cases hobserve
      · exact hcause
  rcases Part.perform_select h with ⟨rfl, -, rfl, rfl⟩ | ⟨rfl, -, -, rfl, rfl⟩ |
    ⟨inner, ok, rfl, hperform, -⟩
  · exact hs.tracks.performed_of_follows hidle (.refl _) (hinterrupted _ fun ok h => by cases h)
      hshutdown (by simp [hcode])
  · exact hs.tracks.performed_of_follows hidle (.refl _) (hinterrupted _ fun ok h => by cases h)
      hshutdown (by simp [hcode])
  · obtain ⟨rfl, rfl, htracks⟩ := hs.tracks.performed_join (by simp [hcode]) hclosing hperform
    refine htracks.performed_of_follows hidle (.refl _) ?_ hshutdown (by simp [hcode])
    refine ⟨rfl, rfl, rfl, .inl rfl, rfl, .inl fun terminal hterminal => ?_⟩
    rw [View.cause_book]
    exact hterminal

theorem Part.Sound.perform_insert {insertion : Insertion} {result : Except StoreError RequestId}
    {next : Except StoreError RequestId → Code Unit}
    (hcode : part.code = some (.op (.insert insertion) next))
    (h : part.perform sh (.insert insertion) response = some (result, sh', part')) :
    Performed sh index part ((viewOf part.trace).after (.insert insertion) result) sh' part' := by
  obtain ⟨⟨hsound, hhttp⟩, -⟩ := hs.pre hcode
  cases response with
  | done =>
    simp only [Part.perform] at h
    split at h
    swap
    · cases h
    rename_i id hexecuted
    cases h
    have hinserting := hs.inserting
    unfold InsertingIn at hinserting
    rw [hexecuted, hcode] at hinserting
    obtain ⟨insertion', next', heq, hrow⟩ := hinserting
    cases heq
    refine ⟨.same, ?_, rfl, rfl, rfl, rfl⟩
    cases hadmitted : insertion.admitted with
    | none =>
      rw [after_insert_rejected hadmitted]
      exact hs.tracks.insert_rejected hexecuted hrow hsound hadmitted
    | some model =>
      rw [after_insert_admitted hadmitted]
      refine hs.tracks.insert_admitted hexecuted hrow hsound hadmitted ?_ _
      by_cases hpath : part.path = .webSocket
      · exact hs.tracks.webSocket hpath
      · exact hs.tracks.custody_free (hhttp hpath).1
  | fails =>
    cases h
    exact ⟨.same, hs.tracks.insert_failed, rfl, rfl, rfl, rfl⟩
  | _ => cases h

theorem Part.Sound.perform_finalize {attempt : Attempt} {result : Except StoreError Unit}
    {next : Except StoreError Unit → Code Unit}
    (hcode : part.code = some (.op (.finalize id attempt) next))
    (h : part.perform sh (.finalize id attempt) response = some (result, sh', part')) :
    Performed sh index part ((viewOf part.trace).after (.finalize id attempt) result) sh' part' := by
  have hidle : part.inserting = .idle := hs.inserting.idle hcode (by rintro insertion next' ⟨⟩)
  obtain ⟨⟨hpath, -, hfailed, held, hheld, rfl, hjustified⟩, -⟩ := hs.pre hcode
  have hspoiled : ∀ part'' : Part, part.Alike part'' →
      (attempt.usage.isNone = true → part''.storeFailed = true) → ∀ error,
      Performed sh index part ((viewOf part.trace).after (.finalize held.id attempt) (.error error))
        sh part'' := by
    intro part'' halike hstore error
    refine ⟨.same, ?_, halike.path, halike.code, halike.inserting.trans hidle, halike.trace⟩
    have htracks := hs.tracks.follows (.refl _) halike.path (.inl (by simp [hcode]))
      halike.inserting halike.custody halike.storeFailed hs.tracks.shutdown
    exact { htracks with
      pending := fun hcode => htracks.pending hcode
      custody := htracks.custody
      closure := htracks.closure
      storeFailed := fun hfailed => by
        have hfailed : ((viewOf part.trace).storeFailed || attempt.usage.isNone) = true := hfailed
        rcases (Bool.or_eq_true _ _).mp hfailed with hfailed | husage
        · exact htracks.storeFailed hfailed
        · exact hstore husage }
  cases response with
  | time now =>
    simp only [Part.perform] at h
    split at h
    · rename_i ledger hresult
      cases h
      obtain ⟨row, row', hrow, hstarted, hfinished, rfl⟩ := finishedBy_of_finalizeRequest hresult
      have hfits : Finalization.Fits part.path ⟨held.id, attempt,
          part.trace.any (Entry.failsToFinalize held.id), wordOf part.trace⟩ := by
        refine ⟨hs.word, ⟨_, (wordOf_cause part.trace).symm ▸ hjustified⟩, fun hretry => ?_⟩
        rw [hfailed (mem_failed_of_any hretry)]
        exact ⟨rfl, rfl⟩
      have htracks := hs.tracks.finalize (f := ⟨held.id, attempt,
        part.trace.any (Entry.failsToFinalize held.id), wordOf part.trace⟩) hs.view hpath hheld rfl
        hfits (wordOf_cause _) hfinished
      have hevolves : sh.Evolves index (sh.finish ⟨held.id, attempt,
          part.trace.any (Entry.failsToFinalize held.id), wordOf part.trace⟩ row') :=
        .finalized _ (hs.tracks.owner (hs.view.owned held hheld)) hrow hstarted hfinished
      refine ⟨hevolves, ?_, rfl, rfl, hidle, rfl⟩
      exact htracks.follows (View.follows_book rfl) rfl (.inl (by simp [hcode])) rfl rfl (fun h => h)
        hs.tracks.shutdown
    · rename_i error hresult
      cases h
      refine hspoiled part (.refl _) (fun husage => ?_) _
      -- Without usage, a started row can be finalized.
      obtain ⟨row, hrow, hstarted⟩ := hs.tracks.held held hheld
      obtain ⟨ledger, hledger⟩ := finalizeRequest_of_started now hrow hstarted
        (Option.isNone_iff_eq_none.mp husage) hjustified.httpStatus
      rw [hresult] at hledger
      cases hledger
  | fails =>
    cases h
    exact hspoiled part.failStore ⟨rfl, rfl, rfl, rfl, rfl, fun _ => rfl, rfl⟩ (fun _ => rfl) _
  | _ => cases h

theorem Part.Sound.perform_newPending {next : Unit → Code Unit}
    (hcode : part.code = some (.op (.newPending id) next))
    (h : part.perform sh (.newPending id) response = some ((), sh', part')) :
    Performed sh index part ((viewOf part.trace).after (.newPending id) ()) sh' part' := by
  have hidle : part.inserting = .idle := hs.inserting.idle hcode (by rintro insertion next' ⟨⟩)
  obtain ⟨⟨hpath, -, row, hheld, rfl⟩, -⟩ := hs.pre hcode
  cases response <;> cases h
  rw [after_newPending hheld rfl]
  exact ⟨.same, hs.tracks.newPending hs.view hpath hheld, rfl, rfl, hidle, rfl⟩

theorem Part.Sound.perform_responseStarted {httpStatus : Nat} {next : Unit → Code Unit}
    (hcode : part.code = some (.op (.responseStarted httpStatus) next))
    (h : part.perform sh (.responseStarted httpStatus) response = some ((), sh', part')) :
    Performed sh index part ((viewOf part.trace).after (.responseStarted httpStatus) ()) sh'
      part' := by
  have hidle : part.inserting = .idle := hs.inserting.idle hcode (by rintro insertion next' ⟨⟩)
  obtain ⟨⟨hlow, hhigh, row, started, hopened⟩, -⟩ := hs.pre hcode
  have hguarded := hs.tracks.guarded (by simp [hcode]) hopened
  cases response <;> try cases h
  simp only [Part.perform, hguarded] at h
  cases h
  rw [after_responseStarted hopened]
  exact ⟨.same, hs.tracks.responseStarted (by simp [hcode]) hopened hlow hhigh, rfl, rfl, hidle, rfl⟩

theorem Part.Sound.perform_spawnFinalizer {attempts : List Attempt} {next : Unit → Code Unit}
    (hcode : part.code = some (.op (.spawnFinalizer attempts) next))
    (h : part.perform sh (.spawnFinalizer attempts) response = some ((), sh', part')) :
    Performed sh index part ((viewOf part.trace).after (.spawnFinalizer attempts) ()) sh'
      part' := by
  have hidle : part.inserting = .idle := hs.inserting.idle hcode (by rintro insertion next' ⟨⟩)
  obtain ⟨⟨row, started, hopened, hordered, hjustified⟩, -⟩ := hs.pre hcode
  have hguarded := hs.tracks.guarded (by simp [hcode]) hopened
  cases response <;> try cases h
  simp only [Part.perform, hguarded] at h
  cases h
  rw [after_spawnFinalizer hopened]
  exact ⟨.same, hs.tracks.spawnFinalizer (by simp [hcode]) hopened hordered hs.word (wordOf_cause _)
    fun attempt hattempt => (hjustified attempt hattempt).2, rfl, rfl, hidle, rfl⟩

theorem Part.Sound.perform_dropPending {next : Unit → Code Unit}
    (hcode : part.code = some (.op .dropPending next))
    (h : part.perform sh .dropPending response = some ((), sh', part')) :
    Performed sh index part ((viewOf part.trace).after .dropPending ()) sh' part' := by
  have hidle : part.inserting = .idle := hs.inserting.idle hcode (by rintro insertion next' ⟨⟩)
  obtain ⟨hneeds, -⟩ := hs.pre hcode
  cases response <;> cases h
  refine ⟨.same, hs.tracks.orderDrop part.code part.connected hs.word ?_ rfl (fun _ => rfl), rfl, rfl,
    hidle, rfl⟩
  intro id httpStatus hguarded
  have hpending := hs.tracks.pending (by simp [hcode])
  unfold PendingIn at hpending
  cases hv : (viewOf part.trace).pending with
  | absent =>
    rw [hv] at hpending
    exact absurd hguarded (hpending id httpStatus)
  | opened row started =>
    rw [hv, hguarded] at hpending
    cases hpending
    exact ⟨_, (wordOf_cause part.trace).symm ▸ hneeds row httpStatus hv⟩
  | closing row attempts =>
    rw [hv, hguarded] at hpending
    cases hpending with
    | running h | retrying h | succeeded h | retried h | failed h => cases h

/-- **What giving a reply does to a part.** -/
theorem Part.Sound.perform {effect : Effect} {reply : effect.Reply}
    {next : effect.Reply → Code Unit} (hcode : part.code = some (.op effect next))
    (h : part.perform sh effect response = some (reply, sh', part')) :
    Performed sh index part ((viewOf part.trace).after effect reply) sh' part' := by
  cases hminor : effect.minor with
  | true => exact hs.perform_minor hcode h hminor
  | false =>
    cases effect with
    | insert => exact hs.perform_insert hcode h
    | finalize => exact hs.perform_finalize hcode h
    | newPending => exact hs.perform_newPending hcode h
    | responseStarted => exact hs.perform_responseStarted hcode h
    | spawnFinalizer => exact hs.perform_spawnFinalizer hcode h
    | join => exact hs.perform_join hcode h
    | dropPending => exact hs.perform_dropPending hcode h
    | select closable effect => exact hs.perform_select hcode hminor h
    | _ => cases hminor

end

/-! ### Steps of a part -/

/-- The loops respect the contract. -/
theorem loop_respects (config : Config) (isHttpDate : String → Bool) {path : ApiPath} {loop : Loop}
    (h : v.AtLoop path loop) : (loop.code config isHttpDate).Respects path v := by
  cases loop with
  | forward rates =>
    obtain ⟨rfl, -⟩ := id h
    exact forward_respects isHttpDate h
  | chatStream rates converter =>
    obtain ⟨rfl, -⟩ := id h
    exact chatStream_respects h
  | chatRead rates completedOutputItems =>
    obtain ⟨rfl, -⟩ := id h
    exact chatRead_respects h
  | connection identity active =>
    obtain ⟨rfl, -⟩ := id h
    exact connection_respects config isHttpDate h

/-- A finalizing task changes nothing of its part but the custody. -/
theorem Part.finalizer_custody {now : Option OffsetDateTime}
    (h : part.finalizer sh now = some (sh', part')) :
    ∃ custody storeFailed, part' = { part with custody, storeFailed } ∧
      ∀ id httpStatus, custody ≠ .guarded id httpStatus := by
  unfold Part.finalizer at h
  split at h
  swap
  · cases h
  have hclosed : ∀ (id : RequestId) (attempts : List Attempt) (word : Word) id' httpStatus,
      (if attempts.isEmpty then Custody.closed id false else .closing id attempts true word) ≠
        .guarded id' httpStatus := by
    intro id attempts word id' httpStatus h
    split at h <;> cases h
  cases now with
  | none =>
    cases h
    exact ⟨_, _, rfl, hclosed _ _ _⟩
  | some now =>
    simp only [Option.isNone_some, Bool.false_eq_true, if_false] at h
    split at h <;> cases h
    · exact ⟨_, _, rfl, fun _ _ h => by cases h⟩
    · exact ⟨_, _, rfl, hclosed _ _ _⟩

section

variable (hs : part.Sound sh index)

include hs

theorem Part.Sound.replied {effect : Effect} {reply : effect.Reply} {next : effect.Reply → Code Unit}
    (hcode : part.code = some (.op effect next))
    (h : part.perform sh effect response = some (reply, sh', part')) :
    sh.Evolves index sh' ∧ Part.Sound sh' index { part' with
      code := some (next reply)
      trace := part.trace ++ [⟨effect, reply, part.connected, sh.shutdown⟩] } := by
  have hperformed := hs.perform hcode h
  have hmay := hs.may hcode h
  refine ⟨hperformed.evolves, ?_⟩
  have hview : viewOf (part.trace ++ [⟨effect, reply, part.connected, sh.shutdown⟩]) =
      (viewOf part.trace).after effect reply := viewOf_append _ _
  constructor
  case tracks =>
    rw [show viewOf _ = _ from hview]
    exact hperformed.tracks.follows (.refl _) rfl (.inl (by simp [hperformed.code, hcode])) rfl rfl
      (fun h => h) hperformed.tracks.shutdown
  case view =>
    rw [show viewOf _ = _ from hview, show Part.path _ = _ from hperformed.path]
    exact hs.view.after (hs.pre hcode) hmay
  case respects =>
    rintro code ⟨⟩
    rw [show viewOf _ = _ from hview, show Part.path _ = _ from hperformed.path]
    exact (hs.respects _ hcode).2 reply hmay
  case word =>
    rw [show wordOf _ = _ from wordOf_append _ _]
    exact hs.word.hear (Part.told_of_perform h)
  case inserting =>
    unfold InsertingIn
    simp only [hperformed.inserting]
  case dropped => exact fun h => by cases h

theorem Part.Sound.unfold (config : Config) (isHttpDate : String → Bool) {loop : Loop}
    (hcode : part.code = some (.jump loop)) :
    Part.Sound sh index { part with code := some (loop.code config isHttpDate) } where
  tracks := hs.tracks.follows (.refl _) rfl (.inl (by simp [hcode])) rfl rfl (fun h => h)
    hs.tracks.shutdown
  view := hs.view
  respects := by
    rintro code ⟨⟩
    exact loop_respects config isHttpDate (hs.respects _ hcode)
  word := hs.word
  inserting := by
    have hidle : part.inserting = .idle := hs.inserting.idle hcode (by rintro insertion next ⟨⟩)
    unfold InsertingIn
    rw [hidle]
    trivial
  dropped := fun h => by cases h

theorem Part.Sound.insertInto (hb : sh.Books parts) (hnew : part.inserting.row? = none) {row : Row}
    {inserting : RequestId → Inserting} (hrow : ∀ id, (inserting id).row? = some id)
    (h : part.insertInto sh index row inserting = some (sh', part'))
    (hinserting : ∀ id, sh'.ledger[id]? = some row →
      InsertingIn sh' { part with inserting := inserting id }) :
    sh.Evolves index sh' ∧ part'.Sound sh' index := by
  obtain ⟨hevolves, hinserted, rfl, htracks⟩ := hs.tracks.insertInto hb hnew hrow h
  exact ⟨hevolves, {
    tracks := htracks
    view := hs.view
    respects := hs.respects
    word := hs.word
    inserting := hinserting _ hinserted
    dropped := hs.dropped }⟩

theorem Part.Sound.execute (hb : sh.Books parts)
    (h : part.execute sh index = some (sh', part')) :
    sh.Evolves index sh' ∧ part'.Sound sh' index := by
  unfold Part.execute at h
  split at h
  · rename_i insertion hinserting
    have horphaned := hs.inserting
    unfold InsertingIn at horphaned
    rw [hinserting] at horphaned
    exact hs.insertInto hb (by rw [hinserting]; rfl) (fun _ => rfl) h fun id _ => horphaned.1
  · rename_i insertion next hinserting hcode
    exact hs.insertInto hb (by rw [hinserting]; rfl) (fun _ => rfl) h
      fun id hrow => ⟨insertion, next, hcode, hrow⟩
  · cases h

theorem Part.Sound.disconnect (h : part.disconnect sh = some part') : part'.Sound sh index := by
  have hstays : part' = { part with connected := false } → part'.Sound sh index := by
    rintro rfl
    exact {
      tracks := hs.tracks.follows (.refl _) rfl (by by_cases h : part.code.isSome <;> simp [h]) rfl
        rfl (fun h => h) hs.tracks.shutdown
      view := hs.view
      respects := hs.respects
      word := hs.word
      inserting := hs.inserting
      dropped := hs.dropped }
  unfold Part.disconnect at h
  split at h
  case h_1 | h_2 | h_3 | h_4 | h_5 => exact hstays (Option.some.inj h).symm
  case h_7 => cases h
  rename_i effect next hplace hcode hpath
  simp only [Option.ite_none_right_eq_some, Option.some.injEq] at h
  obtain ⟨hawaits, rfl⟩ := h
  obtain ⟨hneeds, hholds, -⟩ := hs.pre hcode
  have hheld : (viewOf part.trace).held = [] := hholds hpath hawaits
  refine ⟨?_, hs.view, fun code h => (by cases h), hs.word, ?_, fun _ => ⟨hheld, fun id httpStatus h => ?_⟩⟩
  · refine hs.tracks.orderDrop none false ⟨fun _ => rfl, fun h => by cases h⟩ ?_ ?_
      fun h => by cases h
    · intro id httpStatus hguarded
      have hcustody := hs.tracks.custody
      unfold CustodyIn at hcustody
      rw [hguarded] at hcustody
      -- The rates do not matter for an attempt without usage.
      exact ⟨⟨decimalOfU64 0, decimalOfU64 0, decimalOfU64 0⟩, justified_canceled trivial hcustody.2.2⟩
    · cases effect <;> cases hinserting : part.inserting <;> rfl
  · have hinserting := hs.inserting
    unfold InsertingIn at hinserting ⊢
    cases hpart : part.inserting with
    | idle =>
      cases effect with
      | insert insertion =>
        simp only [Part.dropHandler, hpart]
        exact ⟨trivial, hneeds.1⟩
      | _ => simp only [Part.dropHandler, hpart]
    | executed id =>
      rw [hpart, hcode] at hinserting
      obtain ⟨insertion, next', heq, -⟩ := hinserting
      cases heq
      simp only [Part.dropHandler, hpart]
    | orphaned insertion =>
      rw [hpart, hcode] at hinserting
      cases hinserting.1
    | leaked id =>
      rw [hpart, hcode] at hinserting
      cases hinserting
  · simp only [Part.dropHandler, Part.orderDrop] at h
    split at h
    · cases h
    · rename_i hnot
      exact hnot id httpStatus h

theorem Part.Sound.finalizer {now : Option OffsetDateTime}
    (h : part.finalizer sh now = some (sh', part')) :
    sh.Evolves index sh' ∧ part'.Sound sh' index := by
  obtain ⟨hevolves, htracks⟩ := hs.tracks.finalizer h
  refine ⟨hevolves, ?_⟩
  obtain ⟨custody, storeFailed, rfl, hnot⟩ := Part.finalizer_custody h
  refine ⟨htracks, hs.view, hs.respects, hs.word, ?_, fun hcode => ⟨(hs.dropped hcode).1, hnot⟩⟩
  have hinserting := hs.inserting
  unfold InsertingIn at hinserting ⊢
  simp only at hinserting ⊢
  cases hpart : part.inserting with
  | executed id =>
    rw [hpart] at hinserting
    obtain ⟨insertion, next, hcode, hrow⟩ := hinserting
    refine ⟨insertion, next, hcode, ?_⟩
    -- The task finalizes a row that the code knows, and this one it has not been told of.
    rcases hevolves.row_or_finalized hrow with hrow | ⟨-, f, hf, rfl⟩
    · exact hrow
    · have hnew : part.inserting.row? = some f.id := by rw [hpart]; rfl
      exact absurd (htracks.finalized f hf (htracks.owns f.id (.inr hnew))).1
        (htracks.fresh f.id hnew)
  | idle => trivial
  | orphaned | leaked =>
    rw [hpart] at hinserting
    exact hinserting

/-- **A step of a part keeps what holds of it.** -/
theorem Part.Sound.step (config : Config) (isHttpDate : String → Bool) (hb : sh.Books parts)
    {move : Move} (h : partStep config isHttpDate index sh part move = some (sh', part')) :
    sh.Evolves index sh' ∧ part'.Sound sh' index := by
  cases move with
  | reply response =>
    simp only [partStep] at h
    split at h
    · rename_i effect next hcode
      obtain ⟨⟨reply, sh'', part''⟩, hperform, heq⟩ := Option.bind_eq_some_iff.mp h
      cases heq
      exact hs.replied hcode hperform
    · cases h
  | unfold =>
    simp only [partStep] at h
    split at h
    · rename_i loop hcode
      cases h
      exact ⟨.same, hs.unfold config isHttpDate hcode⟩
    · cases h
  | execute => exact hs.execute hb h
  | disconnect =>
    obtain ⟨part'', hpart, heq⟩ := Option.map_eq_some_iff.mp h
    cases heq
    exact ⟨.same, hs.disconnect hpart⟩
  | finalizer now => exact hs.finalizer h

end

/-! ### The system -/

/-- What holds in every reachable state. -/
structure System.Sound (s : System) : Prop where
  books : s.shared.Books s.parts.length
  parts : ∀ (index : Nat) (part : Part), s.parts[index]? = some part → part.Sound s.shared index

theorem System.init_sound : System.init.Sound where
  books := ⟨rfl, fun _ h => (by cases h), fun _ h => (by cases h), List.nodup_nil⟩
  parts := fun _ _ h => by cases h

/-- A new part owns no rows. -/
theorem Request.sound (config : Config) (hb : sh.Books parts) (request : Request) :
    (request.part config).Sound sh parts := by
  have hnew : ∀ id : RequestId, sh.owners[id]? ≠ some parts := fun id h =>
    lt_irrefl _ (hb.owners parts (List.mem_of_getElem? h))
  have hsound : ∀ (path : ApiPath) (code : Code Unit) (place : Place),
      code.Respects path .start →
      Part.Sound sh parts ⟨path, some code, place, true, .idle, .free, false, []⟩ := by
    intro path code place hcode
    refine {
      tracks := {
        owns := fun id h => by rcases h with h | h <;> cases h
        owned := fun id h => absurd h (hnew id)
        fresh := fun id h => by cases h
        held := fun row h => by cases h
        pending := fun _ id httpStatus h => by cases h
        custody := trivial
        closure := trivial
        storeFailed := fun h => by cases h
        settled := fun id h => by cases h
        apart := .inl rfl
        webSocket := fun _ => rfl
        finalized := fun f _ h => absurd h (hnew f.id)
        shutdown := fun h => by cases h }
      view := ⟨List.nodup_nil, fun row h => (by cases h), List.nodup_nil, fun _ => rfl,
        fun _ => Nat.zero_le 1, fun h => by cases h⟩
      respects := fun code' h => ?_
      word := ⟨fun h => (by cases h), fun h => by cases h⟩
      inserting := trivial
      dropped := fun h => by cases h }
    cases h
    exact hcode
  cases request with
  | responses identity headers body => exact hsound _ _ _ (responses_respects config identity headers body)
  | chatCompletions identity body => exact hsound _ _ _ (chatCompletions_respects config identity body)
  | webSocket identity =>
    exact hsound _ _ _ ⟨rfl, rfl, rfl, rfl, rfl, fun _ h => (by cases h), rfl, fun _ h => (by cases h), rfl⟩

variable {s t : System} {action : Action} {config : Config} {isHttpDate : String → Bool}

/-- **Every step keeps the invariant.** -/
theorem System.Sound.step (hs : s.Sound) (h : systemStep config isHttpDate s action = some t) :
    t.Sound := by
  cases action with
  | start request =>
    cases h
    refine ⟨hs.books.mono (by simp), fun index part hpart => ?_⟩
    rcases getElem?_append_singleton_cases hpart with hpart | ⟨rfl, rfl⟩
    · exact hs.parts index part hpart
    · exact Request.sound config hs.books request
  | shutdown =>
    cases h
    refine ⟨⟨hs.books.length, hs.books.owners, hs.books.finished, hs.books.nodup⟩, ?_⟩
    exact fun index part hpart => (hs.parts index part hpart).keeps
      ⟨fun _ => .rfl, fun _ _ => rfl, fun _ _ => .rfl, fun _ => rfl⟩
  | part index move =>
    simp only [systemStep] at h
    obtain ⟨part, hpart, h⟩ := Option.bind_eq_some_iff.mp h
    obtain ⟨⟨sh', part'⟩, hstep, heq⟩ := Option.bind_eq_some_iff.mp h
    cases heq
    obtain ⟨hevolves, hsound⟩ := (hs.parts index part hpart).step config isHttpDate hs.books hstep
    have hlt : index < s.parts.length := (List.getElem?_eq_some_iff.mp hpart).1
    refine ⟨?_, fun index' part'' hpart' => ?_⟩
    · simpa using hevolves.books hs.books hlt
    · rcases getElem?_set_cases hpart' with ⟨rfl, rfl⟩ | ⟨hne, hpart'⟩
      · exact hsound
      · exact (hs.parts index' part'' hpart').keeps (hevolves.keeps hs.books hne.symm)

/-- **The invariant holds in every reachable state.** -/
theorem System.sound_of_run {actions : List Action}
    (h : SystemRun config isHttpDate .init actions s) : s.Sound :=
  h.invariant (fun _ _ _ hs hstep => hs.step hstep) System.init_sound

/-- A step of a part that is possible is a step of the process. -/
theorem systemStep_part {move : Move} (hpart : s.parts[index]? = some part)
    (h : partStep config isHttpDate index s.shared part move = some (sh', part')) :
    systemStep config isHttpDate s (.part index move) = some ⟨sh', s.parts.set index part'⟩ := by
  rw [systemStep, hpart]
  simp [h]

/-! ### What runs keep -/

/-- What a step does to the ledger is what one of its parts does. -/
theorem System.Sound.evolves (hs : s.Sound) (h : systemStep config isHttpDate s action = some t) :
    ∃ index sh', s.shared.Evolves index sh' ∧ t.shared.ledger = sh'.ledger ∧
      t.shared.finalized = sh'.finalized := by
  cases action with
  | start request =>
    cases h
    exact ⟨0, _, .same, rfl, rfl⟩
  | shutdown =>
    cases h
    exact ⟨0, _, .same, rfl, rfl⟩
  | part index move =>
    simp only [systemStep] at h
    obtain ⟨part, hpart, h⟩ := Option.bind_eq_some_iff.mp h
    obtain ⟨⟨sh', part'⟩, hstep, heq⟩ := Option.bind_eq_some_iff.mp h
    cases heq
    obtain ⟨hevolves, -⟩ := (hs.parts index part hpart).step config isHttpDate hs.books hstep
    exact ⟨index, sh', hevolves, rfl, rfl⟩

/-- A finalization stays in the books. -/
theorem System.Sound.finalized_of_run {actions : List Action} (hs : s.Sound)
    (h : SystemRun config isHttpDate s actions t) :
    s.shared.finalized ⊆ t.shared.finalized := by
  induction h with
  | nil => exact List.Subset.refl _
  | cons hstep _ ih =>
    obtain ⟨index, sh', hevolves, -, hfinalized⟩ := hs.evolves hstep
    exact fun f hf => ih (hs.step hstep) (hfinalized ▸ hevolves.finalized_subset hf)

/-- **Over a run, a row changes only by a finalization**, and then it was started. -/
theorem System.Sound.row_of_run {actions : List Action} (hs : s.Sound)
    (h : SystemRun config isHttpDate s actions t) {row : Row}
    (hrow : s.shared.ledger[id]? = some row) :
    t.shared.ledger[id]? = some row ∨
      row.status = .started ∧ ∃ f ∈ t.shared.finalized, f.id = id := by
  induction h with
  | nil => exact .inl hrow
  | cons hstep hrest ih =>
    obtain ⟨index, sh', hevolves, hledger, hfinalized⟩ := hs.evolves hstep
    rcases hevolves.row_or_finalized hrow with hrow | ⟨hstarted, f, hf, hid⟩
    · exact ih (hs.step hstep) (hledger ▸ hrow)
    · exact .inr ⟨hstarted, f, (hs.step hstep).finalized_of_run hrest (hfinalized ▸ hf), hid⟩

end CodexApi.Delivery
