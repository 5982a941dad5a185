import CodexApi.Delivery.Contract

/-!
# Replies

What a reply reveals of the state in which it is given (`Part.Told`), and what giving it does: nothing
to the rows unless the effect is one of a few (`Effect.minor`). The view of a part follows the trace
of the part, and so do the last word and the models that its rows are admitted with.
-/

namespace CodexApi.Delivery

/-! ### What a reply reveals -/

/-- What a reply reveals of the state in which it is given. -/
def Part.Told (sh : Shared) (part : Part) : (effect : Effect) → effect.Reply → Prop
  | .plan now context quota candidates, .ok insertion =>
    ∃ spent, planInsertion now context quota candidates spent = .ok insertion
  | .isShutdown, seen => seen = sh.shutdown
  | .callSession _, .closed | .takeJob, none => sh.shutdown = true
  | .receive, event => (event.cause = .interrupted .clientGone → part.connected = false) ∧
    (event.cause = .interrupted .shutdown ↔ sh.shutdown = true)
  | .replyStream, ok => ok = part.connected
  | .reserve, ok | .send _, ok => ok = false → part.connected = false
  | .select _ _, .shutdown => sh.shutdown = true
  | .select closable _, .closed => closable = true ∧ part.connected = false
  | .select closable effect, .done reply => Part.Told sh part effect reply ∧
    (effect.isSelect = true ∨
      sh.shutdown = false ∧ (closable = true → part.connected = true))
  | _, _ => True

/-- The effects that do nothing at all. -/
def Effect.plain : Effect → Bool
  | plan _ _ _ _ | insert _ | finalize _ _ | newPending _ | responseStarted _ | spawnFinalizer _
  | dropPending | callSession _ | takeJob | detach | select _ _ => false
  | _ => true

/-- The effects that do nothing to rows, whatever the reply. -/
def Effect.minor : Effect → Bool
  | insert _ | finalize _ _ | newPending _ | responseStarted _ | spawnFinalizer _ | join
  | dropPending => false
  | select _ effect => effect.minor
  | _ => true

/-- A part that differs at most in its place, or in a new failure of the store. -/
structure Part.Alike (part part' : Part) : Prop where
  path : part'.path = part.path
  code : part'.code = part.code
  connected : part'.connected = part.connected
  inserting : part'.inserting = part.inserting
  custody : part'.custody = part.custody
  storeFailed : part.storeFailed = true → part'.storeFailed = true
  trace : part'.trace = part.trace

section

variable {sh sh' : Shared} {part part' : Part} {response : Response}

theorem Part.Alike.refl (part : Part) : part.Alike part :=
  ⟨rfl, rfl, rfl, rfl, rfl, id, rfl⟩

theorem upstreamMessage_not_interrupted (message : UpstreamMessage) (interruption : Interruption) :
    message.cause ≠ .interrupted interruption := by
  cases message with
  | text frame =>
    simp only [UpstreamMessage.cause, TextFrame.cause]
    split
    · exact fun h => by cases h
    · split <;> exact fun h => by cases h
  | ping | pong | close | binary | frame => exact fun h => by cases h

theorem sseRead_not_interrupted (read : SseRead) (interruption : Interruption) :
    read.cause ≠ .interrupted interruption := by
  cases read with
  | record record =>
    simp only [SseRead.cause]
    split <;> exact fun h => by cases h
  | eof | broken => exact fun h => by cases h

theorem Part.told_of_reply {effect : Effect} {reply : effect.Reply}
    (h : part.reply sh effect response = some reply) : part.Told sh effect reply := by
  cases effect with
  | isShutdown =>
    cases response <;> cases h
    rfl
  | callSession key => cases response <;> cases h
  | takeJob => cases response <;> cases h
  | receive =>
    cases response <;> try cases h
    case event event =>
      cases event with
      | shutdown =>
        simp only [Part.reply, Option.ite_none_right_eq_some] at h
        obtain ⟨hshutdown, h⟩ := h
        cases h
        exact ⟨fun h => (by cases h), fun _ => hshutdown, fun _ => rfl⟩
      | clientGone =>
        simp only [Part.reply, Option.ite_none_right_eq_some] at h
        obtain ⟨hgone, h⟩ := h
        cases h
        simp only [Bool.and_eq_true, Bool.not_eq_true'] at hgone
        exact ⟨fun _ => hgone.1, fun h => (by cases h), fun h => by rw [hgone.2] at h; cases h⟩
      | downstream message =>
        simp only [Part.reply, Option.ite_none_right_eq_some] at h
        obtain ⟨hshutdown, h⟩ := h
        cases h
        refine ⟨fun h => ?_, fun h => ?_, fun h => by rw [h] at hshutdown; cases hshutdown⟩ <;>
          cases message <;> cases h
      | upstreamGone =>
        simp only [Part.reply, Option.ite_none_right_eq_some] at h
        obtain ⟨hshutdown, h⟩ := h
        cases h
        exact ⟨fun h => (by cases h), fun h => (by cases h),
          fun h => by rw [h] at hshutdown; cases hshutdown⟩
      | upstream message =>
        simp only [Part.reply, Option.ite_none_right_eq_some] at h
        obtain ⟨hshutdown, h⟩ := h
        cases h
        exact ⟨fun h => absurd h (upstreamMessage_not_interrupted message _),
          fun h => absurd h (upstreamMessage_not_interrupted message _),
          fun h => by rw [h] at hshutdown; cases hshutdown⟩
  | replyStream =>
    cases response <;> cases h
    rfl
  | reserve | send =>
    cases response <;> try cases h
    case bool ok =>
      simp only [Part.reply, Option.ite_none_right_eq_some] at h
      obtain ⟨hok, h⟩ := h
      cases h
      rintro rfl
      simpa using hok
  | plan now context quota candidates => cases response <;> cases h
  | select closable effect => cases response <;> cases h
  | _ => trivial

theorem Part.perform_of_plain {effect : Effect} (h : effect.plain = true) :
    part.perform sh effect response =
      (part.reply sh effect response).map fun reply => (reply, sh, part) := by
  cases effect <;> first | rfl | cases h

/-- **A `select!`** is interrupted, or its effect gets a reply. -/
theorem Part.perform_select {closable : Bool} {effect : Effect} {selected : Selected effect.Reply}
    (h : part.perform sh (.select closable effect) response = some (selected, sh', part')) :
    (selected = .shutdown ∧ sh.shutdown = true ∧ sh' = sh ∧ part' = part) ∨
    (selected = .closed ∧ closable = true ∧ part.connected = false ∧ sh' = sh ∧ part' = part) ∨
    ∃ inner reply, selected = .done reply ∧
      part.perform sh effect inner = some (reply, sh', part') ∧
      (effect.isSelect = true ∨ sh.shutdown = false ∧ (closable = true → part.connected = true)) := by
  cases response with
  | shutdown =>
    simp only [Part.perform, Option.ite_none_right_eq_some, Option.some.injEq, Prod.mk.injEq] at h
    obtain ⟨hshutdown, rfl, rfl, rfl⟩ := h
    exact .inl ⟨rfl, hshutdown, rfl, rfl⟩
  | closed =>
    simp only [Part.perform, Option.ite_none_right_eq_some, Option.some.injEq, Prod.mk.injEq,
      Bool.and_eq_true, Bool.not_eq_true'] at h
    obtain ⟨⟨hclosable, hgone⟩, rfl, rfl, rfl⟩ := h
    exact .inr (.inl ⟨rfl, hclosable, hgone, rfl, rfl⟩)
  | inner inner =>
    simp only [Part.perform, Option.ite_none_right_eq_some, Option.map_eq_some_iff,
      Bool.or_eq_true, Bool.and_eq_true, Bool.not_eq_true'] at h
    obtain ⟨hpolled, ⟨reply, sh'', part''⟩, hperform, heq⟩ := h
    cases heq
    refine .inr (.inr ⟨inner, reply, rfl, hperform, hpolled.imp_right fun h => ⟨h.1, fun hc => ?_⟩⟩)
    simpa [hc] using h.2
  | _ => cases h

/-- **Every reply is true** of the state in which it is given. -/
theorem Part.told_of_perform {effect : Effect} {reply : effect.Reply}
    (h : part.perform sh effect response = some (reply, sh', part')) : part.Told sh effect reply := by
  induction effect generalizing response with
  | select closable effect ih =>
    rcases Part.perform_select h with ⟨rfl, hshutdown, -⟩ | ⟨rfl, hclosed, hgone, -⟩ |
      ⟨inner, reply, rfl, hperform, hpolled⟩
    · exact hshutdown
    · exact ⟨hclosed, hgone⟩
    · exact ⟨ih hperform, hpolled⟩
  | plan now context quota candidates =>
    cases reply with
    | error error => trivial
    | ok insertion =>
      cases response <;> try cases h
      case done =>
        simp only [Part.perform, Option.some.injEq, Prod.mk.injEq] at h
        obtain ⟨spent, -, hplan⟩ := bind_eq_ok.mp h.1
        exact ⟨spent, hplan⟩
  | callSession key =>
    cases reply with
    | closed =>
      cases response <;> try cases h
      case call result =>
        cases result <;> simp only [Part.perform] at h <;> try cases h
        split at h
        · assumption
        · cases h
    | busy | queued => trivial
  | takeJob =>
    cases reply with
    | none =>
      cases response <;> try cases h
      case job session =>
        simp only [Part.perform, Option.ite_none_right_eq_some, Option.some.injEq,
          Prod.mk.injEq] at h
        exact h.1.trans (by rw [h.2.1]; rfl)
    | some session => trivial
  | insert | finalize | newPending | responseStarted | spawnFinalizer | dropPending | detach =>
    trivial
  | _ =>
    rw [Part.perform_of_plain rfl, Option.map_eq_some_iff] at h
    obtain ⟨reply', hreply, heq⟩ := h
    cases heq
    exact Part.told_of_reply hreply

/-- **A minor effect does nothing to rows.** -/
theorem Part.alike_of_perform {effect : Effect} {reply : effect.Reply}
    (hminor : effect.minor = true)
    (h : part.perform sh effect response = some (reply, sh', part')) :
    sh' = sh ∧ part.Alike part' := by
  induction effect generalizing response with
  | select closable effect ih =>
    rcases Part.perform_select h with ⟨-, -, rfl, rfl⟩ | ⟨-, -, -, rfl, rfl⟩ |
      ⟨inner, reply, rfl, hperform, -⟩
    · exact ⟨rfl, .refl _⟩
    · exact ⟨rfl, .refl _⟩
    · exact ih hminor hperform
  | plan now context quota candidates =>
    cases response <;> cases h
    · exact ⟨rfl, .refl _⟩
    · exact ⟨rfl, rfl, rfl, rfl, rfl, rfl, fun _ => rfl, rfl⟩
  | callSession key =>
    cases response <;> try cases h
    case call result =>
      cases result <;> simp only [Part.perform, Option.ite_none_right_eq_some] at h
      · cases h
        exact ⟨rfl, .refl _⟩
      · cases h
        exact ⟨rfl, rfl, rfl, rfl, rfl, rfl, fun h => h, rfl⟩
      · cases h.2
        exact ⟨rfl, .refl _⟩
  | takeJob =>
    cases response <;> try cases h
    case job session =>
      simp only [Part.perform, Option.ite_none_right_eq_some] at h
      cases h.2
      exact ⟨rfl, rfl, rfl, rfl, rfl, rfl, fun h => h, rfl⟩
  | detach =>
    cases response <;> cases h
    exact ⟨rfl, rfl, rfl, rfl, rfl, rfl, fun h => h, rfl⟩
  | insert | finalize | newPending | responseStarted | spawnFinalizer | dropPending | join =>
    cases hminor
  | _ =>
    rw [Part.perform_of_plain rfl, Option.map_eq_some_iff] at h
    obtain ⟨reply', -, heq⟩ := h
    cases heq
    exact ⟨rfl, .refl _⟩

/-! ### Words -/

theorem Part.Told.of_shutdown {effect : Effect} {reply : effect.Reply}
    (h : part.Told sh effect reply)
    (hobserve : effect.observe reply = some (.interrupted .shutdown)) : sh.shutdown = true := by
  induction effect with
  | isShutdown =>
    cases reply with
    | true => exact h.symm
    | false => cases hobserve
  | callSession key => cases reply <;> first | exact h | cases hobserve
  | takeJob => cases reply <;> first | exact h | cases hobserve
  | receive => exact h.2.mp (Option.some.inj hobserve)
  | next =>
    cases reply with
    | message message => exact absurd (Option.some.inj hobserve) (upstreamMessage_not_interrupted _ _)
    | broken | ended => cases hobserve
  | nextRecord => exact absurd (Option.some.inj hobserve) (sseRead_not_interrupted _ _)
  | select closable effect ih =>
    cases reply with
    | shutdown => exact h
    | closed => cases hobserve
    | done reply => exact ih h.1 hobserve
  | prewarmReply => cases reply <;> cases hobserve
  | model | connect | sendCreate | sendPong | sendUpstream | post | replyStream | reserve | send =>
    simp [Effect.observe, Cause.ofUpstream, Cause.ofClient] at hobserve
  | _ => cases hobserve

theorem Part.Told.of_clientGone {effect : Effect} {reply : effect.Reply}
    (h : part.Told sh effect reply)
    (hobserve : effect.observe reply = some (.interrupted .clientGone)) : part.connected = false := by
  induction effect with
  | replyStream | reserve | send =>
    simp only [Effect.observe, Cause.ofClient] at hobserve
    cases reply with
    | true => cases hobserve
    | false => simpa [Part.Told] using h
  | receive => exact h.1 (Option.some.inj hobserve)
  | next =>
    cases reply with
    | message message => exact absurd (Option.some.inj hobserve) (upstreamMessage_not_interrupted _ _)
    | broken | ended => cases hobserve
  | nextRecord => exact absurd (Option.some.inj hobserve) (sseRead_not_interrupted _ _)
  | select closable effect ih =>
    cases reply with
    | shutdown => cases hobserve
    | closed => exact h.2
    | done reply => exact ih h.1 hobserve
  | callSession | takeJob | prewarmReply => cases reply <;> cases hobserve
  | isShutdown | model | connect | sendCreate | sendPong | sendUpstream | post =>
    simp [Effect.observe, Cause.ofUpstream] at hobserve
  | _ => cases hobserve

/-- Only a message of the upstream is a terminal event. -/
def Effect.listens : Effect → Bool
  | next | nextRecord | receive => true
  | select _ effect => effect.listens
  | _ => false

theorem listens_of_terminal {effect : Effect} {reply : effect.Reply} {terminal : TerminalEvent}
    (hobserve : effect.observe reply = some (.terminal terminal)) : effect.listens = true := by
  induction effect with
  | next | nextRecord | receive => rfl
  | select closable effect ih =>
    cases reply with
    | shutdown | closed => cases hobserve
    | done reply => exact ih hobserve
  | callSession | takeJob | prewarmReply => cases reply <;> cases hobserve
  | isShutdown | model | connect | sendCreate | sendPong | sendUpstream | post | replyStream
  | reserve | send =>
    simp [Effect.observe, Cause.ofUpstream, Cause.ofClient] at hobserve
  | _ => cases hobserve

theorem hear_eq_terminal {cause : Cause} {overtaken : Bool} {heard : Option Cause}
    {terminal : TerminalEvent} (h : cause.hear overtaken heard = .terminal terminal) :
    heard = some (.terminal terminal) ∨ heard = none ∧ cause = .terminal terminal := by
  cases heard with
  | none => exact .inr ⟨rfl, h⟩
  | some heard =>
    refine .inl ?_
    cases cause with
    | failed failure => cases overtaken <;> cases h
    | clear | interrupted | terminal => exact congrArg some h

end

end CodexApi.Delivery
