import CodexApi.Delivery.LedgerClosure
import CodexApi.Delivery.Logs

/-!
# The ledger records the error that the client sees

A handler that answers one of `recordedErrors` has one row, and the row shows the error: its
HTTP status, and `rejected` or `upstream_error` by the status. There is one exception. A Responses
request whose model lookup fails answers a gateway error and leaves its row to the `Drop` of its
`PendingRequest`, which cancels it without an HTTP status.
-/

namespace CodexApi

/-- The row shows an error: its HTTP status, and the status that belongs to it. -/
structure Row.Shows (row : Row) (error : ApiError) : Prop where
  status : row.status = .final (Delivery.statusOfError error.status)
  httpStatus : row.httpStatus = some error.status

namespace Delivery

open Transition

variable {sh : Shared} {index : Nat} {part : Part} {error : ApiError} {entry : Entry}
  {config : Config} {isHttpDate : String → Bool} {s t : System}

/-- The error that a part is about to answer. -/
def Part.answering (part : Part) : Option ApiError :=
  match part.code with
  | some (.op (.answer (.error error)) _) => some error
  | _ => none

/-- The model lookup of a request fails, or finds no model that supports Responses Lite. -/
def Effect.failsLookup : (effect : Effect) → effect.Reply → Bool
  | model _, found => (liteModel found).isNone
  | select _ effect, .done reply => effect.failsLookup reply
  | _, _ => false

/-! ### What is not heard -/

theorem failure_of_upstreamMessage {message : UpstreamMessage} {failure : Failure}
    (h : message.cause = .failed failure) : failure = .other := by
  cases message with
  | text frame =>
    simp only [UpstreamMessage.cause, TextFrame.cause] at h
    split at h
    · cases h
      rfl
    · split at h <;> cases h
      rfl
  | ping | pong => cases h
  | close | binary | frame =>
    cases h
    rfl

theorem failure_of_sseRead {read : SseRead} {failure : Failure} (h : read.cause = .failed failure) :
    failure = .other := by
  cases read with
  | record record =>
    simp only [SseRead.cause] at h
    split at h <;> cases h
    rfl
  | eof | broken =>
    cases h
    rfl

theorem failure_of_connectionEvent {event : ConnectionEvent} {failure : Failure}
    (h : event.cause = .failed failure) : failure = .other := by
  cases event with
  | shutdown | clientGone => cases h
  | downstream message => cases message <;> cases h
  | upstreamGone =>
    cases h
    rfl
  | upstream message => exact failure_of_upstreamMessage h

/-- A failure that is heard is a failed lookup, a lost stream, or any other one. -/
theorem failure_of_observe {effect : Effect} {reply : effect.Reply} {failure : Failure}
    (h : effect.observe reply = some (.failed failure)) :
    failure = .other ∨ failure = .streamLost ∨ failure = .lookup ∧ effect.failsLookup reply = true := by
  induction effect with
  | model slug =>
    simp only [Effect.observe] at h
    split_ifs at h with hlite
    cases h
    exact .inr (.inr ⟨rfl, by simpa [Effect.failsLookup] using hlite⟩)
  | next =>
    cases reply with
    | message message => exact .inl (failure_of_upstreamMessage (Option.some.inj h))
    | broken | ended =>
      cases h
      exact .inr (.inl rfl)
  | nextRecord => exact .inl (failure_of_sseRead (Option.some.inj h))
  | receive => exact .inl (failure_of_connectionEvent (Option.some.inj h))
  | select closable effect ih =>
    cases reply with
    | shutdown | closed => cases h
    | done reply => exact ih h
  | callSession | takeJob => cases reply <;> cases h
  | prewarmReply =>
    cases reply <;> cases h
    exact .inl rfl
  | isShutdown | connect | sendCreate | sendPong | sendUpstream | post | replyStream | reserve
  | send =>
    simp only [Effect.observe, Cause.ofUpstream, Cause.ofClient] at h
    split_ifs at h
    all_goals cases h
    all_goals exact .inl rfl
  | _ => cases h

/-- Only the `select!` of a WebSocket session hears a client's message. -/
def Effect.receives : Effect → Bool
  | receive => true
  | select _ effect => effect.receives
  | _ => false

theorem receives_of_observe {effect : Effect} {reply : effect.Reply} {interruption : Interruption}
    (h : effect.observe reply = some (.interrupted interruption))
    (hmessage : interruption = .clientClosed ∨ interruption = .clientBinary) :
    effect.receives = true := by
  induction effect with
  | receive => rfl
  | select closable effect ih =>
    cases reply with
    | shutdown | closed => cases h; rcases hmessage with h | h <;> cases h
    | done reply => exact ih h
  | next =>
    cases reply with
    | message message => exact absurd (Option.some.inj h) (upstreamMessage_not_interrupted _ _)
    | broken | ended => cases h
  | nextRecord => exact absurd (Option.some.inj h) (sseRead_not_interrupted _ _)
  | callSession | takeJob =>
    cases reply <;> cases h
    rcases hmessage with h | h <;> cases h
  | prewarmReply => cases reply <;> cases h
  | isShutdown | model | connect | sendCreate | sendPong | sendUpstream | post | replyStream
  | reserve | send =>
    simp only [Effect.observe, Cause.ofUpstream, Cause.ofClient] at h
    split_ifs at h
    all_goals cases h
    all_goals rcases hmessage with h | h <;> cases h
  | _ => cases h

theorem View.Needs.receives {path : ApiPath} {v : View} {effect : Effect} (h : v.Needs path effect)
    (hreceives : effect.receives = true) : path = .webSocket := by
  cases effect with
  | receive => exact h
  | select closable effect =>
    obtain ⟨-, hwaits⟩ := h
    cases effect with
    | receive => exact hwaits.elim
    | select closable effect => cases effect <;> first | exact hwaits.elim | cases hreceives
    | _ => cases hreceives
  | _ => cases hreceives

/-! ### Nothing excuses the row -/

theorem Part.Logged.exists_made (hl : part.Logged sh) (hentry : entry ∈ part.trace) :
    ∃ before, entry.Made part.path before := by
  obtain ⟨before, after, heq⟩ := List.append_of_mem hentry
  exact ⟨before, hl.made before entry after heq⟩

/-- Nothing has been heard of the shutdown. -/
theorem Part.Logged.not_shutdown (hl : part.Logged sh) (hshutdown : sh.shutdown = false)
    (hentry : entry ∈ part.trace) :
    entry.effect.observe entry.reply ≠ some (.interrupted .shutdown) ∧
      entry.effect.seesShutdown entry.reply = false := by
  obtain ⟨before, -, sh₀, part₀, hsh, -, htold⟩ := hl.exists_made hentry
  have hnot : sh₀.shutdown ≠ true := fun h => by
    have := hl.shutdown entry hentry (hsh.symm.trans h)
    rw [hshutdown] at this
    cases this
  refine ⟨fun h => hnot (htold.of_shutdown h), ?_⟩
  obtain ⟨effect, reply, connected, shutdown⟩ := entry
  cases effect with
  | isShutdown => exact htold.trans (Bool.not_eq_true _ ▸ hnot)
  | _ => rfl

/-- **The last word of an undisturbed operation** excuses nothing. -/
theorem Part.Logged.not_excused (hl : part.Logged sh) (hpath : part.path ≠ .webSocket)
    (hconnected : part.connected = true) (hshutdown : sh.shutdown = false)
    (hlookup : ∀ entry ∈ part.trace, entry.effect.failsLookup entry.reply = false) :
    (viewOf part.trace).cause.excuses = false := by
  rw [← Bool.not_eq_true]
  intro hexcused
  have hclear : (viewOf part.trace).cause ≠ .clear := fun h => by
    rw [h] at hexcused
    cases hexcused
  rcases exists_entry_of_cause hclear with ⟨entry, hentry, hobserve⟩ |
    ⟨-, entry, hentry, hseen⟩
  swap
  · rw [(hl.not_shutdown hshutdown hentry).2] at hseen
    cases hseen
  cases hcause : (viewOf part.trace).cause with
  | clear | terminal =>
    rw [hcause] at hexcused
    cases hexcused
  | failed failure =>
    rw [hcause] at hobserve hexcused
    rcases failure_of_observe hobserve with rfl | rfl | ⟨-, hfails⟩
    · cases hexcused
    · cases hexcused
    · rw [hlookup entry hentry] at hfails
      cases hfails
  | interrupted interruption =>
    rw [hcause] at hobserve
    obtain ⟨before, hpre, sh₀, part₀, hsh, hpart, htold⟩ := hl.exists_made hentry
    cases interruption with
    | shutdown => exact (hl.not_shutdown hshutdown hentry).1 hobserve
    | clientGone =>
      have hgone := hl.connected entry hentry (hpart.symm.trans (htold.of_clientGone hobserve))
      rw [hconnected] at hgone
      cases hgone
    | clientClosed => exact hpath (hpre.1.receives (receives_of_observe hobserve (.inl rfl)))
    | clientBinary => exact hpath (hpre.1.receives (receives_of_observe hobserve (.inr rfl)))

/-! ### The row shows the error -/

/-- What a closure leaves shows in its row. -/
theorem ClosureIn.row {v : View} (hc : ClosureIn sh part v) {parts : Nat} (hb : sh.Books parts)
    (hstore : part.storeFailed = false) {closure : Closure} (hclosure : v.closure = some closure)
    {id : RequestId} {status : FinalStatus} {httpStatus : Option Nat}
    (hends : closure.ends = (id, status, httpStatus)) :
    ∃ row, sh.ledger[id]? = some row ∧ row.status = .final status ∧ row.httpStatus = httpStatus := by
  unfold ClosureIn at hc
  rw [hclosure] at hc
  have hrecorded : ∀ attempt, sh.Recorded id attempt → attempt.status = status →
      attempt.httpStatus = httpStatus →
      ∃ row, sh.ledger[id]? = some row ∧ row.status = .final status ∧
        row.httpStatus = httpStatus := by
    rintro attempt ⟨f, hf, rfl, rfl⟩ rfl rfl
    obtain ⟨row, hrow, hfinished⟩ := hb.finished f hf
    exact ⟨row, hrow, hfinished.status, hfinished.httpStatus⟩
  cases closure with
  | committed row attempt =>
    cases hends
    obtain ⟨-, f, hf, hid, hattempt, -⟩ := hc
    exact hrecorded attempt ⟨f, hf, hid, hattempt⟩ rfl rfl
  | retried row attempt =>
    cases hends
    rcases hc.2 with hfailed | hrecord
    · rw [hstore] at hfailed
      cases hfailed
    · exact hrecorded attempt hrecord rfl rfl
  | rejection id' httpStatus' =>
    cases hends
    exact hc.2

/-- **The ledger records the error that the client sees**: as long as the client has not left, the
shutdown has not been signalled, the store has not failed and no model lookup has failed, a handler
that answers an error has a single row, which shows the error and keeps showing it. -/
theorem error_recorded {before after : List Action}
    (hbefore : SystemRun config isHttpDate .init before s)
    (hafter : SystemRun config isHttpDate s after t) (hpart : s.parts[index]? = some part)
    (hpath : part.path ≠ .webSocket) (hanswering : part.answering = some error)
    (hstatus : error.status ∈ recordedErrors) (hconnected : part.connected = true)
    (hshutdown : s.shared.shutdown = false) (hstore : part.storeFailed = false)
    (hlookup : ∀ entry ∈ part.trace, entry.effect.failsLookup entry.reply = false) :
    ∃ (id : RequestId) (row : Row), (∀ id' : RequestId, s.shared.owners[id']? = some index ↔ id' = id) ∧
      s.shared.ledger[id]? = some row ∧ row.Shows error ∧ t.shared.ledger[id]? = some row := by
  have hs := System.sound_of_run hbefore
  have hsound := hs.parts index part hpart
  obtain ⟨next, hcode⟩ : ∃ next, part.code = some (.op (.answer (.error error)) next) := by
    unfold Part.answering at hanswering
    split at hanswering
    · cases hanswering
      exact ⟨_, ‹_›⟩
    · cases hanswering
  have hanswered : (viewOf part.trace).Answered error := (hsound.pre hcode).1
  rcases hanswered hstatus with hfailed | hexcused | ⟨id, closure, hids, hclosure, hends⟩
  · rw [hsound.tracks.storeFailed hfailed] at hstore
    cases hstore
  · rw [(System.logged_of_run hbefore index part hpart).not_excused hpath hconnected hshutdown
      hlookup] at hexcused
    cases hexcused
  · obtain ⟨row, hrow, hshown, hhttp⟩ :=
      hsound.tracks.closure.row hs.books hstore hclosure hends
    refine ⟨id, row, fun id' => ⟨fun howner => ?_, ?_⟩, hrow, ⟨hshown, hhttp⟩, ?_⟩
    · have hidle : part.inserting = .idle :=
        hsound.inserting.idle hcode (by rintro insertion next ⟨⟩)
      rcases hsound.tracks.owned id' howner with hid | hid | hfailed
      · rw [hids] at hid
        exact List.mem_singleton.mp hid
      · rw [hidle] at hid
        cases hid
      · rw [hstore] at hfailed
        cases hfailed
    · rintro rfl
      exact hsound.tracks.owner (hids ▸ List.mem_singleton_self _)
    · rcases hs.row_of_run hafter hrow with hrow | ⟨hstarted, -⟩
      · exact hrow
      · rw [hshown] at hstarted
        cases hstarted

/-! ### Runs -/

/-- A request that is admitted finds its session busy. -/
def busyActions : List Action :=
  admitActions ++ [.part 0 (.reply .done), .part 0 (.reply .done),
    .part 0 (.reply (.model (some (some CodexApi.liteModel)))), .part 0 (.reply (.call .busy)),
    .part 0 (.reply .done), .part 0 (.finalizer (some midnight)), .part 0 (.reply .done),
    .part 0 (.reply .done)]

/-- A busy session is recorded. -/
theorem error_recorded_busy : ∃ s row,
    SystemRun lowConfig (fun _ => false) .init busyActions s ∧
      s.parts.map Part.answering = [some .sessionBusy] ∧
      s.shared.ledger[0]? = some row ∧ row.Shows .sessionBusy := by
  have hevaluated : (exec (systemStep lowConfig fun _ => false) .init busyActions).map
      (fun s => decide (s.parts.map Part.answering = [some .sessionBusy] ∧
        (∀ part ∈ s.parts, part.path ≠ .webSocket ∧ part.connected = true ∧
          part.storeFailed = false ∧
          ∀ entry ∈ part.trace, entry.effect.failsLookup entry.reply = false) ∧
        s.shared.shutdown = false ∧ s.shared.owners = [0])) = some true := by
    decide +kernel
  obtain ⟨s, hs, hevaluated⟩ := Option.map_eq_some_iff.mp hevaluated
  obtain ⟨hparts, hall, hshutdown, howners⟩ := of_decide_eq_true hevaluated
  obtain ⟨part, hpart, hanswering⟩ := List.map_eq_singleton_iff.mp hparts
  obtain ⟨hpath, hconnected, hstore, hlookup⟩ := hall part (by rw [hpart]; exact List.mem_cons_self)
  have hrun := run_ofFun_iff.mpr hs
  have hpart' : s.parts[0]? = some part := by rw [hpart]; rfl
  obtain ⟨id, row, hid, hrow, hshows, -⟩ := error_recorded hrun (.nil s) hpart' hpath
    hanswering (by decide) hconnected hshutdown hstore hlookup
  have hzero : 0 = id := (hid 0).mp (by rw [howners]; rfl)
  exact ⟨s, row, hrun, hparts, hzero ▸ hrow, hshows⟩

/-- A request that is admitted does not find its model. -/
def lookupActions : List Action :=
  admitActions ++ [.part 0 (.reply .done), .part 0 (.reply .done), .part 0 (.reply (.model none)),
    .part 0 (.reply .done)]

/-- **A gateway error that the ledger does not record.** The client gets a 502 for the failed
lookup, and the row is canceled without an HTTP status. -/
theorem lookup_error_unrecorded : ¬ ∀ (config : Config) (isHttpDate : String → Bool)
    (s t : System) (before after : List Action) (index : Nat) (part part' : Part)
    (error : ApiError), SystemRun config isHttpDate .init before s →
    SystemRun config isHttpDate s after t → s.parts[index]? = some part →
    part.path ≠ .webSocket → part.answering = some error → error.status ∈ recordedErrors →
    t.parts[index]? = some part' → part'.connected = true → part'.storeFailed = false →
    t.shared.shutdown = false →
    ∃ (id : RequestId) (row : Row), t.shared.owners[id]? = some index ∧
      t.shared.ledger[id]? = some row ∧ (row.status ≠ .started → row.Shows error) := by
  intro hall
  have hevaluated : ((exec (systemStep lowConfig fun _ => false) .init lookupActions).bind fun s =>
      (exec (systemStep lowConfig fun _ => false) s
        [.part 0 (.reply .done), .part 0 (.finalizer (some midnight))]).map fun t =>
          decide (s.parts.map (·.answering.map (·.status)) = [some 502] ∧
            (∀ part ∈ s.parts, part.path ≠ .webSocket) ∧
            t.parts.map (fun part => (part.connected, part.storeFailed)) = [(true, false)] ∧
            t.shared.shutdown = false ∧ t.shared.owners = [0] ∧
            t.shared.ledger.map (fun row => (row.status, row.httpStatus)) =
              [(.final .canceled, none)])) = some true := by
    decide +kernel
  obtain ⟨s, hs, hevaluated⟩ := Option.bind_eq_some_iff.mp hevaluated
  obtain ⟨t, ht, hevaluated⟩ := Option.map_eq_some_iff.mp hevaluated
  obtain ⟨hparts, hpath, hparts', hshutdown, howners, hledger⟩ := of_decide_eq_true hevaluated
  obtain ⟨part, hpart, hanswering⟩ := List.map_eq_singleton_iff.mp hparts
  obtain ⟨part', hpart', hcalm⟩ := List.map_eq_singleton_iff.mp hparts'
  obtain ⟨row, hrow, hshown⟩ := List.map_eq_singleton_iff.mp hledger
  obtain ⟨hconnected, hstore⟩ := Prod.mk.inj hcalm
  obtain ⟨hcanceled, hnone⟩ := Prod.mk.inj hshown
  obtain ⟨error, hanswering, hstatus⟩ := Option.map_eq_some_iff.mp hanswering
  obtain ⟨id, row', howner, hrow', hshows⟩ := hall lowConfig (fun _ => false) s t _ _ 0 part part'
    error (run_ofFun_iff.mpr hs) (run_ofFun_iff.mpr ht) (by rw [hpart]; rfl)
    (hpath part (by rw [hpart]; exact List.mem_cons_self)) hanswering (by rw [hstatus]; decide)
    (by rw [hpart']; rfl) hconnected hstore hshutdown
  cases id with
  | zero =>
    rw [hrow] at hrow'
    cases hrow'
    have hhttp := (hshows (by rw [hcanceled]; exact fun h => by cases h)).httpStatus
    rw [hnone] at hhttp
    cases hhttp
  | succ id =>
    rw [howners] at howner
    cases howner

end Delivery

end CodexApi
