import CodexApi.Delivery.SessionRelay
import CodexApi.Delivery.Commit
import CodexApi.Delivery.Traces

/-!
# The protocol of a WebSocket session

What a client and the upstream see of one WebSocket session, whatever else the process does. Upstream,
a generation is followed by no other request until its terminal event has come, and a request that the
client sends meanwhile is answered by an error and a rejected row of its own (`one_response_at_a_time`).
A terminal event is charged to the request in flight, and nothing else is charged
(`charged_to_request_in_flight`). The frames of the upstream reach the client in order, each once
(`relayed_in_order`).
-/

namespace CodexApi.Delivery

open Transition
open Program (Safe)

variable {isHttpDate : String → Bool} {config : Config} {sh sh' : Shared} {index : Nat}
  {part part' : Part} {entry : Entry} {trace before after : List Entry} {r : Relay}
  {effect : Effect} {reply : effect.Reply} {request : InFlight} {s t : System} {id : RequestId}

/-! ### Traces of sessions -/

/-- The relay after a trace. -/
def relayOf (trace : List Entry) : Relay :=
  trace.foldl (fun r entry => r.after entry.effect entry.reply) .start

@[simp]
theorem relayOf_nil : relayOf [] = .start := rfl

theorem relayOf_append (trace : List Entry) (entry : Entry) :
    relayOf (trace ++ [entry]) = (relayOf trace).after entry.effect entry.reply := by
  rw [relayOf, List.foldl_append]
  rfl

/-- Every effect of the trace was allowed when it began. -/
def InTurn (isHttpDate : String → Bool) (trace : List Entry) : Prop :=
  ∀ before entry after, trace = before ++ entry :: after →
    (relayOf before).Allows isHttpDate entry.effect

/-- A trace is in turn if it keeps to the contract of its session. -/
theorem inTurn_iff_kept : InTurn isHttpDate trace ↔ Kept (relay isHttpDate) .start trace := Iff.rfl

/-- An initial part of a trace, and the effect after it. -/
theorem InTurn.init (h : InTurn isHttpDate (trace ++ entry :: after)) : InTurn isHttpDate trace :=
  Kept.init (inTurn_iff_kept.mp h)

/-- **Induction along a trace.** What holds of a trace and is kept by every effect that is allowed
holds of every trace that goes on from there. -/
theorem InTurn.run {P : List Entry → Prop} (h : InTurn isHttpDate (before ++ after))
    (hbefore : P before)
    (hstep : ∀ trace entry, before <+: trace → trace ++ [entry] <+: before ++ after →
      InTurn isHttpDate trace → (relayOf trace).Allows isHttpDate entry.effect → P trace →
      P (trace ++ [entry])) : P (before ++ after) := by
  induction after using List.reverseRecOn with
  | nil => simpa using hbefore
  | append_singleton after entry ih =>
    rw [← List.append_assoc] at h ⊢
    have hinit : InTurn isHttpDate (before ++ after) := h.init
    refine hstep _ entry (List.prefix_append _ _) (by simp) hinit (h _ entry [] rfl)
      (ih hinit fun trace entry' hbefore hupto => ?_)
    exact hstep trace entry' hbefore
      (hupto.trans (by rw [← List.append_assoc]; exact List.prefix_append _ _))

/-! ### Sessions of the system -/

/-- A session keeps to the contract, and has kept to it. -/
structure Part.Relays (isHttpDate : String → Bool) (part : Part) : Prop where
  code : ∀ code, part.code = some code →
    Safe (relay isHttpDate) (fun _ _ => True) code (relayOf part.trace)
  inTurn : InTurn isHttpDate part.trace

theorem Part.Relays.step (hr : part.Relays isHttpDate) {move : Move}
    (h : partStep config isHttpDate index sh part move = some (sh', part')) :
    part'.Relays isHttpDate := by
  have hloops : ∀ (r : Relay) (loop : Loop), (relay isHttpDate).entry loop r →
      Safe (relay isHttpDate) (fun _ _ => True) (loop.code config isHttpDate) r := by
    intro r loop hentry
    cases loop with
    | connection identity active =>
      obtain rfl : r = ⟨active, .idle⟩ := hentry
      exact connection_relays config identity active
    | forward | chatStream | chatRead => exact hentry.elim
  have hkeeps : part.Keeps (relay isHttpDate) .start fun _ => True := ⟨hr.code, hr.inTurn⟩
  obtain ⟨hcode, hkept⟩ := hkeeps.step (fun _ _ _ => trivial) hloops h
  exact ⟨hcode, hkept⟩

/-- All WebSocket sessions keep to the contract. -/
def System.Relays (isHttpDate : String → Bool) (s : System) : Prop :=
  ∀ (index : Nat) (part : Part), s.parts[index]? = some part → part.path = .webSocket →
    part.Relays isHttpDate

/-- **In every reachable state**, the WebSocket sessions keep to the contract. -/
theorem System.relays_of_run {actions : List Action}
    (h : SystemRun config isHttpDate .init actions s) : s.Relays isHttpDate := by
  intro index part hpart hpath
  have hstart : ∀ request, (Request.part config request).path = .webSocket →
      (Request.part config request).Relays isHttpDate := by
    intro request hsocket
    cases request with
    | responses | chatCompletions => cases hsocket
    | webSocket identity =>
      refine ⟨fun code hcode => ?_, inTurn_iff_kept.mpr .nil⟩
      cases hcode
      rfl
  obtain ⟨request, -, hrelays⟩ := System.requested_of_run
    (P := fun _ part => part.path = .webSocket → part.Relays isHttpDate) hstart
    (fun _ _ _ _ _ _ _ _ hrelays hstep hsocket =>
      (hrelays ((goes_of_partStep hstep).1.symm.trans hsocket)).step hstep) h hpart
  exact hrelays hpath

/-! ### One response at a time -/

/-- A `response.create` is sent upstream. -/
def Entry.creates : Entry → Bool
  | ⟨.sendCreate _ _, _, _, _⟩ => true
  | _ => false

/-- A generation has been sent upstream. -/
def Entry.generates : Entry → Bool
  | ⟨.sendCreate generates _, ok, _, _⟩ => generates && ok
  | _ => false

/-- The terminal event that is received. -/
def Entry.ends : Entry → Option TerminalEvent
  | ⟨.receive, event, _, _⟩ =>
    match event.cause with
    | .terminal terminal => some terminal
    | _ => none
  | _ => none

/-- A session that waits for a terminal event, or has ended. -/
def Relay.Busy (r : Relay) : Prop := r.active.isSome = true ∨ ∃ last, r.turn = .ended last

theorem Relay.hear_busy {event : ConnectionEvent} (hr : r.active.isSome = true)
    (hends : ∀ terminal, event.cause ≠ .terminal terminal) : (r.hear event).active.isSome = true := by
  cases event with
  | upstream message =>
    cases message with
    | text frame =>
      simp only [Relay.hear]
      split
      · exact hr
      · rename_i terminal hcause
        exact absurd hcause (hends terminal)
      · exact hr
    | _ => exact hr
  | downstream message => cases message <;> exact hr
  | _ => exact hr

theorem Relay.Busy.close (hr : r.Busy) (ok : Bool) : (r.close ok).Busy := by
  unfold Relay.close
  cases hturn : r.turn with
  | admitted new =>
    simp only
    split
    · rename_i hactive
      exact .inl (Bool.and_eq_true_iff.mp hactive).1
    · exact .inr ⟨none, rfl⟩
  | answered request frame terminal =>
    have hactive : r.active.isSome = true := hr.resolve_right fun ⟨last, hended⟩ => by
      rw [hturn] at hended
      cases hended
    cases ok <;> exact .inl hactive
  | unbooked | requested | ended => exact .inr ⟨_, rfl⟩
  | idle | refused | received | control => exact hr

/-- **While a session is busy** and no terminal event comes, it stays busy. -/
theorem Relay.Busy.step (hr : r.Busy) (hallows : r.Allows isHttpDate entry.effect)
    (hends : entry.ends = none) : (r.after entry.effect entry.reply).Busy := by
  obtain ⟨effect, reply, connected, shutdown⟩ := entry
  have hturned : ∀ turn, r.turn.closing = false → Relay.Busy { r with turn } := fun turn hopen =>
    .inl (hr.resolve_right fun ⟨last, hended⟩ => by rw [hended] at hopen; cases hopen)
  have hsent : ∀ ok : Bool, Relay.Busy
      { r with turn := if ok && !r.turn.closing then .idle else .ended r.turn.owed } := by
    intro ok
    split
    · rename_i hopen
      exact hturned _ (by simpa using (Bool.and_eq_true_iff.mp hopen).2)
    · exact .inr ⟨_, rfl⟩
  cases effect with
  | receive =>
    have hidle : r.turn = .idle := hallows
    have hactive : r.active.isSome = true := hr.resolve_right fun ⟨last, hended⟩ => by
      rw [hidle] at hended
      cases hended
    refine .inl (Relay.hear_busy hactive fun terminal hcause => ?_)
    have hsome : Entry.ends ⟨.receive, reply, connected, shutdown⟩ = some terminal := by
      simp only [Entry.ends, hcause]
    rw [hsome] at hends
    cases hends
  | plan =>
    cases reply with
    | error error => exact .inr ⟨none, rfl⟩
    | ok planned => exact hr
  | insert insertion =>
    have hrequested : r.turn = .requested := hallows
    cases reply with
    | error error => exact .inr ⟨none, rfl⟩
    | ok id =>
      have hactive : r.active.isSome = true := hr.resolve_right fun ⟨last, hended⟩ => by
        rw [hrequested] at hended
        cases hended
      simp only [Relay.after]
      split <;> exact .inl hactive
  | finalize => exact hr.close _
  | sendCreate generates frame =>
    obtain ⟨hnone, request, hadmitted⟩ := hallows
    rcases hr with hsome | ⟨last, hended⟩
    · rw [hnone] at hsome
      cases hsome
    · rw [hadmitted] at hended
      cases hended
  | send | sendUpstream => exact hsent _
  | _ => exact hr

/-- **Between a generation and its terminal event** nothing is created upstream. -/
theorem exists_end_of_creates {between : List Entry} {entry' : Entry}
    (h : InTurn isHttpDate (before ++ entry :: (between ++ entry' :: after)))
    (hgenerates : entry.generates = true) (hcreates : entry'.creates = true) :
    ∃ e ∈ between, e.ends.isSome = true := by
  by_contra hnone
  push Not at hnone
  have hsplit : before ++ entry :: (between ++ entry' :: after) =
      ((before ++ [entry]) ++ between) ++ entry' :: after := by simp
  rw [hsplit] at h
  have hallows := h _ entry' after rfl
  -- The generation is in flight, and stays so.
  have hsent : (relayOf (before ++ [entry])).Busy := by
    have hstart := InTurn.init h before entry between (by simp)
    rw [relayOf_append]
    obtain ⟨effect, reply, connected, shutdown⟩ := entry
    cases effect with
    | sendCreate generates frame =>
      obtain ⟨-, request, hadmitted⟩ := hstart
      refine .inl ?_
      simp only [Relay.after, hadmitted, if_pos (show (generates && reply) = true from hgenerates)]
      rfl
    | _ => cases hgenerates
  have hbusy : (relayOf (before ++ [entry] ++ between)).Busy := by
    refine InTurn.run (P := fun trace => (relayOf trace).Busy) h.init hsent
      fun trace e hbefore hupto _ hallows hbusy => ?_
    rw [relayOf_append]
    refine hbusy.step hallows ?_
    obtain ⟨done, rfl⟩ := hbefore
    have hmem : e ∈ between := by
      rw [List.append_assoc, List.prefix_append_right_inj] at hupto
      exact hupto.subset (by simp)
    simpa using hnone e hmem
  obtain ⟨effect, reply, connected, shutdown⟩ := entry'
  cases effect with
  | sendCreate =>
    obtain ⟨hactive, request, hadmitted⟩ := hallows
    rcases hbusy with hsome | ⟨last, hended⟩
    · rw [hactive] at hsome
      cases hsome
    · rw [hadmitted] at hended
      cases hended
  | _ => cases hcreates

/-! ### A request that comes meanwhile -/

/-- The row that is inserted. -/
def Entry.inserted : Entry → Option RequestId
  | ⟨.insert _, .ok id, _, _⟩ => some id
  | _ => none

/-- What is sent to the client. -/
def Entry.sent : Entry → Option Item
  | ⟨.send item, _, _, _⟩ => some item
  | _ => none

/-- The row that is finalized, or tried to. -/
def Entry.finalizes : Entry → Option RequestId
  | ⟨.finalize id _, _, _, _⟩ => some id
  | _ => none

/-- The row is inserted as rejected, or finalized so. -/
def Entry.rejects (id : RequestId) : Entry → Bool
  | ⟨.insert insertion, .ok id', _, _⟩ => insertion.admitted.isNone && id' = id
  | ⟨.finalize id' attempt, .ok (), _, _⟩ => attempt = ⟨.rejected, none, none⟩ && id' = id
  | _ => false

/-- A session receives a `response.create`. -/
def Entry.requests : Entry → Bool
  | ⟨.receive, .downstream (.text _), _, _⟩ => true
  | _ => false

/-- A session receives its next event. -/
def Entry.receives (entry : Entry) : Bool :=
  match entry.effect with
  | .receive => true
  | _ => false

/-- What a session has done in a round. -/
structure Did (round : List Entry) (rows : List RequestId) (items : List Item) : Prop where
  inserted : round.filterMap Entry.inserted = rows
  sent : round.filterMap Entry.sent = items
  finalizes : round.filterMap Entry.finalizes ⊆ rows

/-- The row of the only request of a round is rejected. -/
def Rejected (round : List Entry) (items : List Item) : Prop :=
  ∃ id, Did round [id] items ∧ ∃ entry ∈ round, entry.rejects id = true

/-- How far a session is with the rejection of a request while another one is in flight. -/
def Refusing (request : InFlight) (round : List Entry) (r : Relay) : Prop :=
  (∃ last, r.turn = .ended last) ∨ r.active = some request ∧
    match r.turn with
    | .requested => Did round [] []
    | .admitted new => Did round [new.requestId] [] ∧ round.filterMap Entry.finalizes = []
    | .refused => Rejected round []
    | .idle => ∃ body, Rejected round [.error body]
    | _ => False

theorem Did.append {round : List Entry} {rows : List RequestId} {items : List Item}
    (h : Did round rows items) (hinserted : entry.inserted = none) (hsent : entry.sent = none)
    (hfinalizes : entry.finalizes = none) : Did (round ++ [entry]) rows items :=
  ⟨by simp [hinserted, h.inserted], by simp [hsent, h.sent], by simpa [hfinalizes] using h.finalizes⟩

/-- A connection that ends goes on ending. -/
theorem Relay.ended_step {last : Option TextFrame} (hr : r.turn = .ended last)
    (hallows : r.Allows isHttpDate entry.effect) :
    (r.after entry.effect entry.reply).turn = .ended last := by
  obtain ⟨effect, reply, connected, shutdown⟩ := entry
  cases effect with
  | receive | now | plan | insert =>
    rw [show r.turn = _ from hallows] at hr
    cases hr
  | sendCreate | model | prewarmReply =>
    obtain ⟨-, request, hadmitted⟩ := hallows
    rw [hadmitted] at hr
    cases hr
  | finalize => simp [Relay.after, Relay.close, hr]
  | send | sendUpstream => simp [Relay.after, hr, Turn.closing, Turn.owed]
  | _ => exact hr

/-- **One effect of a session that rejects a request.** -/
theorem Refusing.step {round : List Entry} (hr : Refusing request round r)
    (hallows : r.Allows isHttpDate entry.effect) (hround : entry.receives = false) :
    Refusing request (round ++ [entry]) (r.after entry.effect entry.reply) := by
  rcases hr with ⟨last, hended⟩ | ⟨hactive, hr⟩
  · exact .inl ⟨last, Relay.ended_step hended hallows⟩
  obtain ⟨active, turn⟩ := r
  obtain rfl : active = some request := hactive
  obtain ⟨effect, reply, connected, shutdown⟩ := entry
  cases effect with
  | receive => cases hround
  | sendCreate | model | prewarmReply => cases hallows.1
  | now =>
    obtain rfl : turn = .requested := hallows
    exact .inr ⟨rfl, hr.append rfl rfl rfl⟩
  | plan =>
    obtain rfl : turn = .requested := hallows
    cases reply with
    | error error => exact .inl ⟨none, rfl⟩
    | ok planned => exact .inr ⟨rfl, hr.append rfl rfl rfl⟩
  | insert insertion =>
    obtain rfl : turn = .requested := hallows
    obtain ⟨hinserted, hsent, hfinalizes⟩ := hr
    cases reply with
    | error error => exact .inl ⟨none, rfl⟩
    | ok id =>
      have hnone : (round ++ [Entry.mk (.insert insertion) (.ok id) connected shutdown]).filterMap
          Entry.finalizes = [] := by
        rw [List.filterMap_append, List.eq_nil_of_subset_nil hfinalizes]
        rfl
      have hdid : Did (round ++ [Entry.mk (.insert insertion) (.ok id) connected shutdown]) [id] [] :=
        ⟨by simp [hinserted, Entry.inserted], by simp [hsent, Entry.sent],
          by rw [hnone]; exact List.nil_subset _⟩
      cases hadmitted : insertion.admitted with
      | some model =>
        simp only [Relay.after, hadmitted]
        exact .inr ⟨rfl, hdid, hnone⟩
      | none =>
        simp only [Relay.after, hadmitted]
        exact .inr ⟨rfl, id, hdid, _, List.mem_append_right _ (List.mem_singleton_self _), by
          simp [Entry.rejects, hadmitted]⟩
  | finalize id attempt =>
    cases turn with
    | admitted new =>
      obtain ⟨rfl, rfl⟩ := hallows
      obtain ⟨⟨hinserted, hsent, -⟩, hfinalizes⟩ := hr
      cases reply with
      | error error => exact .inl ⟨none, rfl⟩
      | ok =>
        refine .inr ⟨rfl, new.requestId, ⟨?_, ?_, ?_⟩, _,
          List.mem_append_right _ (List.mem_singleton_self _), by simp [Entry.rejects]⟩
        · simp [hinserted, Entry.inserted]
        · simp [hsent, Entry.sent]
        · simp [hfinalizes, Entry.finalizes]
    | requested => exact .inl ⟨none, rfl⟩
    | idle | refused => cases hallows
    | _ => exact hr.elim
  | send item =>
    cases turn with
    | refused =>
      obtain ⟨body, rfl⟩ := hallows
      cases reply with
      | false => exact .inl ⟨none, rfl⟩
      | true =>
        obtain ⟨id, ⟨hinserted, hsent, hfinalizes⟩, rejecting, hmem, hrejects⟩ := hr
        refine .inr ⟨rfl, body, id, ⟨?_, ?_, ?_⟩, rejecting, List.mem_append_left _ hmem, hrejects⟩
        · simp [hinserted, Entry.inserted]
        · simp [hsent, Entry.sent]
        · simpa [Entry.finalizes] using hfinalizes
    | requested => exact .inl ⟨none, by simp [Relay.after, Turn.closing, Turn.owed]⟩
    | admitted | idle => cases hallows
    | _ => exact hr.elim
  | sendUpstream message =>
    cases turn with
    | requested => exact .inl ⟨none, by simp [Relay.after, Turn.closing, Turn.owed]⟩
    | admitted | idle | refused => cases hallows
    | _ => exact hr.elim
  | flush =>
    cases turn with
    | requested => exact .inr ⟨rfl, hr.append rfl rfl rfl⟩
    | admitted | idle | refused => cases hallows
    | _ => exact hr.elim
  | _ => exact hallows.elim

/-- **A round that a request begins while another one is in flight** rejects it: if the session goes on,
it has inserted one row, which is rejected, has sent one error, and the other request is still in
flight. -/
theorem rejected_of_round {round : List Entry} {next : Entry}
    (h : InTurn isHttpDate (before ++ entry :: (round ++ next :: after)))
    (hactive : (relayOf before).active = some request) (hrequests : entry.requests = true)
    (hround : ∀ e ∈ round, e.receives = false) (hnext : next.receives = true) :
    (relayOf (before ++ entry :: round)).active = some request ∧
      ∃ body, Rejected round [.error body] := by
  have hsplit : before ++ entry :: (round ++ next :: after) =
      ((before ++ [entry]) ++ round) ++ next :: after := by simp
  rw [hsplit] at h
  have hstart : Refusing request [] (relayOf (before ++ [entry])) := by
    rw [relayOf_append]
    obtain ⟨effect, event, connected, shutdown⟩ := entry
    cases effect with
    | receive =>
      cases event with
      | downstream message =>
        cases message with
        | text frame => exact .inr ⟨hactive, rfl, rfl, List.nil_subset _⟩
        | _ => cases hrequests
      | _ => cases hrequests
    | _ => cases hrequests
  have hend : ∃ done, before ++ [entry] ++ round = before ++ [entry] ++ done ∧
      Refusing request done (relayOf (before ++ [entry] ++ round)) := by
    refine InTurn.run (P := fun trace => ∃ done, trace = before ++ [entry] ++ done ∧
        Refusing request done (relayOf trace)) h.init ⟨[], by simp, hstart⟩
      fun trace e _ hupto _ hallows hrefusing => ?_
    obtain ⟨done, rfl, hrefusing⟩ := hrefusing
    refine ⟨done ++ [e], by simp, ?_⟩
    rw [relayOf_append]
    refine hrefusing.step hallows (hround e ?_)
    rw [List.append_assoc, List.prefix_append_right_inj] at hupto
    exact hupto.subset (by simp)
  obtain ⟨done, hdone, hrefusing⟩ := hend
  obtain rfl : round = done := List.append_cancel_left hdone
  have hidle : (relayOf (before ++ [entry] ++ round)).turn = .idle := by
    have hallows := h _ next after rfl
    obtain ⟨effect, reply, connected, shutdown⟩ := next
    cases effect with
    | receive => exact hallows
    | _ => cases hnext
  rw [show before ++ entry :: round = before ++ [entry] ++ round by simp]
  rcases hrefusing with ⟨last, hended⟩ | ⟨hactive, hrejected⟩
  · rw [hidle] at hended
    cases hended
  · rw [hidle] at hrejected
    exact ⟨hactive, hrejected⟩

/-! ### What the ledger shows -/

/-- What an entry has done to the ledger shows there. -/
def Entry.Shows (sh : Shared) : Entry → Prop
  | ⟨.insert insertion, .ok id, _, _⟩ => insertion.admitted = none → ∃ row,
    sh.ledger[id]? = some row ∧ row.status = .final .rejected
  | ⟨.finalize id attempt, .ok (), _, _⟩ => sh.Recorded id attempt
  | _ => True

/-- The ledger shows what all parts have done. -/
def System.Shows (s : System) : Prop :=
  ∀ part ∈ s.parts, ∀ entry ∈ part.trace, entry.Shows s.shared

theorem Entry.Shows.mono (h : entry.Shows sh)
    (hledger : ∀ (id : RequestId) (row : Row), sh.ledger[id]? = some row → row.status ≠ .started →
      sh'.ledger[id]? = some row) (hfinalized : sh.finalized ⊆ sh'.finalized) :
    entry.Shows sh' := by
  obtain ⟨effect, reply, connected, shutdown⟩ := entry
  cases effect with
  | insert insertion =>
    cases reply with
    | error error => trivial
    | ok id =>
      intro hadmitted
      obtain ⟨row, hrow, hstatus⟩ := h hadmitted
      exact ⟨row, hledger id row hrow (by rw [hstatus]; exact fun h => by cases h), hstatus⟩
  | finalize id attempt =>
    cases reply with
    | error error => trivial
    | ok =>
      obtain ⟨f, hf, hrecorded⟩ := h
      exact ⟨f, hfinalized hf, hrecorded⟩
  | _ => trivial

theorem Entry.Shows.of_replied {next : effect.Reply → Code Unit} {response : Response}
    (hs : part.Sound sh index) (hcode : part.code = some (.op effect next))
    (hperform : part.perform sh effect response = some (reply, sh', part')) :
    Entry.Shows sh' ⟨effect, reply, part.connected, sh.shutdown⟩ := by
  cases effect with
  | insert insertion =>
    cases reply with
    | error error => trivial
    | ok id =>
      intro hadmitted
      have hexecuted : part.inserting = .executed id ∧ sh' = sh := by
        cases response <;> try cases hperform
        simp only [Part.perform] at hperform
        split at hperform <;> cases hperform
        exact ⟨‹_›, rfl⟩
      have hinserting := hs.inserting
      unfold InsertingIn at hinserting
      rw [hexecuted.1, hcode] at hinserting
      obtain ⟨insertion', next', heq, hrow⟩ := hinserting
      cases heq
      exact ⟨insertion.row, hexecuted.2 ▸ hrow, (hs.pre hcode).1.1.rejected hadmitted⟩
  | finalize id attempt =>
    cases reply with
    | error error => trivial
    | ok =>
      cases response <;> try cases hperform
      simp only [Part.perform] at hperform
      split at hperform <;> cases hperform
      exact ⟨_, List.mem_append_right _ (List.mem_singleton_self _), rfl, rfl⟩
  | _ => trivial

theorem System.Shows.step (h : s.Shows) (hs : s.Sound) {action : Action}
    (hstep : systemStep config isHttpDate s action = some t) : t.Shows := by
  refine System.forall_parts_step (P := fun sh part => ∀ entry ∈ part.trace, entry.Shows sh) hstep
    (fun part hshows entry hentry => ?_) (fun request entry hentry => ?_)
    (fun index part move part' hpart hmove hold entry hentry => ?_) h
  · obtain ⟨index, sh', hevolves, hledger, hfinalized⟩ := hs.evolves hstep
    refine (hshows entry hentry).mono (fun id row hrow hsettled => ?_)
      (hfinalized ▸ hevolves.finalized_subset)
    rcases hevolves.row_or_finalized hrow with hrow' | ⟨hstarted, -⟩
    · rw [hledger]
      exact hrow'
    · exact absurd hstarted hsettled
  · rw [Request.trace_part] at hentry
    cases hentry
  · cases move with
    | reply response =>
      simp only [partStep] at hmove
      split at hmove
      swap
      · cases hmove
      rename_i effect next hcode
      obtain ⟨⟨reply, shared, performed⟩, hperform, heq⟩ := Option.bind_eq_some_iff.mp hmove
      cases heq
      rcases List.mem_append.mp hentry with hentry | hentry
      · exact hold entry hentry
      · rw [List.mem_singleton.mp hentry]
        exact .of_replied (hs.parts index part hpart) hcode hperform
    | unfold | execute | disconnect | finalizer =>
      obtain ⟨-, -, -, hgoes⟩ := goes_of_partStep hmove
      have htrace : part'.trace = part.trace := by cases hgoes <;> assumption
      exact hold entry (htrace ▸ hentry)

theorem System.shows_of_run {actions : List Action}
    (h : SystemRun config isHttpDate .init actions s) : s.Shows :=
  (h.invariant (I := fun s => s.Sound ∧ s.Shows)
    (fun _ _ _ hs hstep => ⟨hs.1.step hstep, hs.2.step hs.1 hstep⟩)
    ⟨System.init_sound, fun _ h => by cases h⟩).2

/-! ### Who is in flight -/

/-- The requests that a session has in hand: the one in flight, and the one of its turn. -/
def Relay.requests (r : Relay) : List InFlight :=
  r.active.toList ++
    match r.turn with
    | .admitted request | .answered request _ _ | .unbooked request _ => [request]
    | _ => []

theorem Relay.mem_requests_hear {event : ConnectionEvent} (h : request ∈ (r.hear event).requests) :
    request ∈ r.requests := by
  have hactive : request ∈ r.active.toList → request ∈ r.requests := List.mem_append_left _
  cases event with
  | upstream message =>
    cases message with
    | text frame =>
      simp only [Relay.hear] at h
      split at h
      · exact hactive (by simpa [Relay.requests] using h)
      · cases hr : r.active with
        | none => simp [Relay.answer, hr, Relay.requests] at h
        | some request' =>
          simp only [Relay.answer, hr, Relay.requests] at h
          exact hactive (by simpa [hr] using h)
      · exact hactive (by simpa [Relay.requests] using h)
    | _ => exact hactive (by simpa [Relay.hear, Relay.requests] using h)
  | downstream message =>
    cases message <;> exact hactive (by simpa [Relay.hear, Relay.requests] using h)
  | _ => exact hactive (by simpa [Relay.hear, Relay.requests] using h)

theorem Relay.mem_requests_close {ok : Bool} (h : request ∈ (r.close ok).requests) :
    request ∈ r.requests := by
  unfold Relay.close at h
  cases hturn : r.turn with
  | admitted new =>
    simp only [hturn] at h
    refine List.mem_append_left _ ?_
    split at h <;> simpa [Relay.requests] using h
  | answered request' frame terminal =>
    simp only [hturn] at h
    cases ok
    · simpa [Relay.requests, hturn] using h
    · exact List.mem_append_left _ (by simpa [Relay.requests] using h)
  | unbooked request' frame =>
    simp only [hturn] at h
    exact List.mem_append_left _ (by simpa [Relay.requests] using h)
  | requested | ended =>
    simp only [hturn] at h
    cases h
  | idle | refused | received | control =>
    simp only [hturn] at h
    exact h

/-- A request comes into the hands of a session by its admission only. -/
theorem Relay.mem_requests_after (h : request ∈ (r.after effect reply).requests) :
    request ∈ r.requests ∨ ∃ row, effect.admits reply = some row ∧
      request = ⟨row.id, row.model.rates⟩ := by
  have hactive : request ∈ r.active.toList → request ∈ r.requests := List.mem_append_left _
  cases effect with
  | receive => exact .inl (Relay.mem_requests_hear h)
  | finalize => exact .inl (Relay.mem_requests_close h)
  | plan =>
    cases reply with
    | error error => exact .inl (hactive (by simpa [Relay.after, Relay.requests] using h))
    | ok planned => exact .inl h
  | insert insertion =>
    cases reply with
    | error error => exact .inl (hactive (by simpa [Relay.after, Relay.requests] using h))
    | ok id =>
      cases hadmitted : insertion.admitted with
      | none => exact .inl (hactive (by simpa [Relay.after, hadmitted, Relay.requests] using h))
      | some model =>
        simp only [Relay.after, hadmitted, Relay.requests, List.mem_append, List.mem_singleton] at h
        exact h.imp hactive fun heq => ⟨⟨id, model⟩, by simp [Effect.admits, hadmitted], heq⟩
  | sendCreate generates frame =>
    refine .inl ?_
    simp only [Relay.after] at h
    split at h
    · rename_i request' hturn
      split at h
      · refine List.mem_append_right _ ?_
        rw [hturn]
        simpa [Relay.requests] using h
      · exact h
    · exact h
  | send | sendUpstream =>
    refine .inl (hactive ?_)
    simp only [Relay.after] at h
    split at h <;> simpa [Relay.requests] using h
  | _ => exact .inl h

/-- **A request in flight has been admitted**, at its rates. -/
theorem admitted_of_requests (h : request ∈ (relayOf trace).requests) :
    ∃ model, ⟨request.requestId, model⟩ ∈ admissions trace ∧ request.rates = model.rates := by
  induction trace using List.reverseRecOn with
  | nil => cases h
  | append_singleton trace entry ih =>
    rw [relayOf_append] at h
    rw [admissions, List.filterMap_append]
    rcases Relay.mem_requests_after h with h | ⟨row, hadmits, rfl⟩
    · obtain ⟨model, hmem, hrates⟩ := ih h
      exact ⟨model, List.mem_append_left _ hmem, hrates⟩
    · exact ⟨row.model, List.mem_append_right _ (by simp [hadmits]), rfl⟩

/-- The rows of a session are those that it has inserted. -/
theorem ids_eq_inserted (h : InTurn isHttpDate trace) :
    (viewOf trace).ids = trace.filterMap Entry.inserted := by
  induction trace using List.reverseRecOn with
  | nil => rfl
  | append_singleton trace entry ih =>
    have hallows := h trace entry [] rfl
    rw [List.filterMap_append, ← ih h.init, viewOf_append]
    show ((viewOf trace).book entry.effect entry.reply).ids = _
    obtain ⟨effect, reply, connected, shutdown⟩ := entry
    cases effect with
    | insert insertion =>
      cases reply with
      | error error => simp [View.book, Entry.inserted]
      | ok id => cases hadmitted : insertion.admitted <;> simp [View.book, hadmitted, Entry.inserted]
    | plan | prewarmReply | finalize => cases reply <;> simp [View.book, Entry.inserted]
    | model =>
      simp only [View.book]
      split <;> simp [Entry.inserted]
    | now | receive | sendCreate | send | sendUpstream | flush => simp [View.book, Entry.inserted]
    | _ => exact hallows.elim

/-- **One response at a time.** In every reachable state, whatever all parts of the process have done:
after a generation, a WebSocket session creates nothing upstream before the terminal event has come.
A `response.create` that comes while a request is in flight leaves it in flight; if the session goes
on to its next event, it has inserted a single row for it, which the ledger shows as rejected, has
finalized no other row, and has sent the client nothing but one error. -/
theorem one_response_at_a_time {actions : List Action}
    (hrun : SystemRun config isHttpDate .init actions s) (hpart : s.parts[index]? = some part)
    (hpath : part.path = .webSocket) :
    (∀ before entry between entry' after,
      part.trace = before ++ entry :: (between ++ entry' :: after) → entry.generates = true →
      entry'.creates = true → ∃ e ∈ between, e.ends.isSome = true) ∧
    ∀ before entry round next after request,
      part.trace = before ++ entry :: (round ++ next :: after) →
      (relayOf before).active = some request → entry.requests = true →
      (∀ e ∈ round, e.receives = false) → next.receives = true →
      (relayOf (before ++ entry :: round)).active = some request ∧
      ∃ id body row, round.filterMap Entry.inserted = [id] ∧ id ≠ request.requestId ∧
        round.filterMap Entry.sent = [.error body] ∧ round.filterMap Entry.finalizes ⊆ [id] ∧
        s.shared.ledger[id]? = some row ∧ row.status = .final .rejected := by
  have hs := System.sound_of_run hrun
  have hsound := hs.parts index part hpart
  have hturns := (System.relays_of_run hrun index part hpart hpath).inTurn
  refine ⟨fun before entry between entry' after heq => ?_,
    fun before entry round next after request heq hactive hrequests hround hnext => ?_⟩
  · exact exists_end_of_creates (heq ▸ hturns)
  rw [heq] at hturns
  obtain ⟨hkept, body, id, ⟨hinserted, hsent, hfinalizes⟩, rejecting, hrejecting, hrejects⟩ :=
    rejected_of_round hturns hactive hrequests hround hnext
  have hmem : rejecting ∈ part.trace := by
    rw [heq]
    simp [hrejecting]
  have hshows := System.shows_of_run hrun part (List.mem_of_getElem? hpart) rejecting hmem
  obtain ⟨row, hrow, hstatus⟩ : ∃ row, s.shared.ledger[id]? = some row ∧
      row.status = .final .rejected := by
    obtain ⟨effect, reply, connected, shutdown⟩ := rejecting
    cases effect with
    | insert insertion =>
      cases reply with
      | error error => cases hrejects
      | ok id' =>
        obtain ⟨hadmitted, hid⟩ := Bool.and_eq_true_iff.mp hrejects
        rw [← of_decide_eq_true hid]
        exact hshows (Option.isNone_iff_eq_none.mp hadmitted)
    | finalize id' attempt =>
      cases reply with
      | error error => cases hrejects
      | ok =>
        obtain ⟨hattempt, hid⟩ := Bool.and_eq_true_iff.mp hrejects
        obtain ⟨f, hf, hfid, hfattempt⟩ := hshows
        obtain ⟨row, hrow, hfinished⟩ := hs.books.finished f hf
        rw [← of_decide_eq_true hid, ← hfid]
        refine ⟨row, hrow, hfinished.status.trans ?_⟩
        rw [hfattempt, of_decide_eq_true hattempt]
    | _ => cases hrejects
  refine ⟨hkept, id, body, row, hinserted, ?_, hsent, hfinalizes, hrow, hstatus⟩
  -- The rows of the session are distinct, and the one in flight is older.
  rintro rfl
  have hrequest : request ∈ (relayOf before).requests :=
    List.mem_append_left _ (by rw [hactive]; exact List.mem_singleton_self request)
  obtain ⟨model, hadmitted, -⟩ := admitted_of_requests hrequest
  obtain ⟨admitting, hadmitting, hadmits⟩ := List.mem_filterMap.mp hadmitted
  have hold : request.requestId ∈ before.filterMap Entry.inserted :=
    ids_eq_inserted hturns.init ▸ mem_ids_of_admits hadmitting hadmits
  have hnodup := hsound.view.nodup
  rw [heq, ids_eq_inserted hturns, List.filterMap_append] at hnodup
  refine (List.nodup_append.mp hnodup).2.2 _ hold _ ?_ rfl
  rw [show entry :: (round ++ next :: after) = [entry] ++ round ++ (next :: after) by simp]
  simp only [List.filterMap_append, List.mem_append]
  exact .inl (.inr (by rw [hinserted]; exact List.mem_singleton_self _))

/-- A second request comes while the first one is in flight, and then the terminal event. -/
def overlapActions : List Action :=
  greetActions.take 12 ++
    [.part 0 (.reply (.event (.downstream (.text ⟨"create", some plainCreate.toValue⟩)))),
      .part 0 (.reply (.time midnight)), .part 0 (.reply .done), .part 0 .execute,
      .part 0 (.reply .done), .part 0 (.reply (.time midnight)), .part 0 (.reply (.bool true)),
      .part 0 .unfold, .part 0 (.reply (.event (.upstream (.text greetingFrame))))]

/-- The second request is rejected. -/
theorem one_response_at_a_time_overlap : ∃ s row,
    SystemRun lowConfig (fun _ => false) .init overlapActions s ∧
      s.shared.ledger[1]? = some row ∧ row.status = .final .rejected := by
  have hevaluated : (exec (systemStep lowConfig fun _ => false) .init overlapActions).map
      (fun s => s.parts.map fun part => decide (part.path = .webSocket ∧
        (relayOf (part.trace.take 8)).active.isSome = true ∧
        (part.trace.map Entry.requests)[8]? = some true ∧
        (part.trace.drop 9).map Entry.receives = List.replicate 5 false ++ [true] ∧
        (part.trace.drop 9).filterMap Entry.inserted = [1])) = some [true] := by
    decide +kernel
  obtain ⟨s, hs, hparts⟩ := Option.map_eq_some_iff.mp hevaluated
  obtain ⟨part, hpart, hevaluated⟩ := List.map_eq_singleton_iff.mp hparts
  obtain ⟨hpath, hactive, hrequests, hreceives, hinserted⟩ := of_decide_eq_true hevaluated
  obtain ⟨request, hactive⟩ := Option.isSome_iff_exists.mp hactive
  rw [List.getElem?_map] at hrequests
  obtain ⟨entry, hentry, hrequests⟩ := Option.map_eq_some_iff.mp hrequests
  obtain ⟨hlt, hentry⟩ := List.getElem?_eq_some_iff.mp hentry
  obtain ⟨round, last, hdrop, hround, hlast⟩ := List.map_eq_append_iff.mp hreceives
  obtain ⟨next, rfl, hnext⟩ := List.map_eq_singleton_iff.mp hlast
  have hsplit : part.trace = part.trace.take 8 ++ entry :: (round ++ next :: []) := by
    rw [← hdrop, ← hentry, ← List.drop_eq_getElem_cons hlt, List.take_append_drop]
  have hrun := run_ofFun_iff.mpr hs
  have hpart' : s.parts[0]? = some part := by rw [hpart]; rfl
  obtain ⟨-, id, body, row, hid, -, -, -, hrow, hstatus⟩ :=
    (one_response_at_a_time hrun hpart' hpath).2 _ entry round next [] request hsplit hactive
      hrequests (fun e he => List.eq_of_mem_replicate (hround ▸ List.mem_map_of_mem he)) hnext
  rw [hdrop, List.filterMap_append, hid] at hinserted
  obtain ⟨rfl, -⟩ := List.cons.inj hinserted
  exact ⟨s, row, hrun, hrow, hstatus⟩

/-! ### Charges -/

/-- A session that owes the booking of a terminal event does nothing else. -/
theorem Relay.books_of_answered {frame : TextFrame} {terminal : TerminalEvent}
    (hturn : r.turn = .answered request frame terminal) (hallows : r.Allows isHttpDate effect) :
    effect = .finalize request.requestId
      ⟨terminal.kind.finalStatus, none, terminalUsage terminal request.rates⟩ := by
  obtain ⟨active, turn⟩ := r
  obtain rfl : turn = .answered request frame terminal := hturn
  cases effect with
  | finalize id attempt =>
    obtain ⟨rfl, rfl⟩ := hallows
    rfl
  | receive | now | plan | insert | flush => cases hallows
  | model | sendCreate | prewarmReply =>
    obtain ⟨-, request', hadmitted⟩ := hallows
    cases hadmitted
  | _ => exact hallows.elim

/-- A terminal event of the request in flight is what makes a session owe a booking. -/
theorem Relay.answered_after {frame : TextFrame} {terminal : TerminalEvent}
    (hturn : (r.after entry.effect entry.reply).turn = .answered request frame terminal) :
    entry.ends = some terminal ∧ r.active = some request ∨
      r.turn = .answered request frame terminal ∧ entry.finalizes = none := by
  obtain ⟨effect, reply, connected, shutdown⟩ := entry
  cases effect with
  | receive =>
    refine .inl ?_
    cases reply with
    | upstream message =>
      cases message with
      | text received =>
        simp only [Relay.after, Relay.hear] at hturn
        split at hturn
        · cases hturn
        · rename_i terminal' hcause
          unfold Relay.answer at hturn
          split at hturn
          · rename_i request' hactive
            cases hturn
            have hheard : ConnectionEvent.cause (.upstream (.text frame)) = .terminal terminal := hcause
            exact ⟨by simp only [Entry.ends, hheard], hactive⟩
          · cases hturn
        · cases hturn
      | _ => cases hturn
    | downstream message => cases message <;> cases hturn
    | _ => cases hturn
  | finalize id attempt =>
    simp only [Relay.after, Relay.close] at hturn
    split at hturn
    · split at hturn <;> cases hturn
    · split at hturn <;> cases hturn
    · cases hturn
    · cases hturn
    · cases hturn
    · rename_i hnot _ _ _
      exact absurd hturn (hnot _ _ _)
  | plan =>
    cases reply with
    | error error => cases hturn
    | ok planned => exact .inr ⟨hturn, rfl⟩
  | insert insertion =>
    cases reply with
    | error error => cases hturn
    | ok id =>
      simp only [Relay.after] at hturn
      split at hturn <;> cases hturn
  | sendCreate generates frame =>
    simp only [Relay.after] at hturn
    split at hturn
    · split at hturn
      · cases hturn
      · exact .inr ⟨hturn, rfl⟩
    · exact .inr ⟨hturn, rfl⟩
  | send | sendUpstream =>
    simp only [Relay.after] at hturn
    split at hturn <;> cases hturn
  | _ => exact .inr ⟨hturn, rfl⟩

/-- The booking of a terminal event is owed right after it. -/
theorem exists_ends_of_answered (h : InTurn isHttpDate trace) {frame : TextFrame}
    {terminal : TerminalEvent} (hturn : (relayOf trace).turn = .answered request frame terminal) :
    ∃ before entry, trace = before ++ [entry] ∧ entry.ends = some terminal ∧
      (relayOf before).active = some request := by
  rcases List.eq_nil_or_concat trace with rfl | ⟨before, entry, heq⟩
  · cases hturn
  rw [List.concat_eq_append] at heq
  subst heq
  rw [relayOf_append] at hturn
  refine ⟨before, entry, rfl, ?_⟩
  rcases Relay.answered_after hturn with hends | ⟨hold, hnone⟩
  · exact hends
  · have hbooks := Relay.books_of_answered hold (h before entry [] rfl)
    obtain ⟨effect, reply, connected, shutdown⟩ := entry
    cases hbooks
    cases hnone

/-- A connection that has nobody in flight and ends, finalizes nothing. -/
theorem Relay.ended_none_step {last : Option TextFrame} (hr : r = ⟨none, .ended last⟩)
    (hallows : r.Allows isHttpDate entry.effect) :
    r.after entry.effect entry.reply = r ∧ entry.finalizes = none := by
  subst hr
  obtain ⟨effect, reply, connected, shutdown⟩ := entry
  cases effect with
  | receive | now | plan | insert => cases hallows
  | sendCreate | model | prewarmReply =>
    obtain ⟨-, request, hadmitted⟩ := hallows
    cases hadmitted
  | finalize =>
    obtain ⟨request, hactive, -⟩ := hallows
    cases hactive
  | send | sendUpstream => exact ⟨by simp [Relay.after, Turn.closing, Turn.owed], rfl⟩
  | flush => exact ⟨rfl, rfl⟩
  | _ => exact hallows.elim

/-- The session after a terminal event. -/
theorem Relay.after_ends {terminal : TerminalEvent} (hends : entry.ends = some terminal) :
    ∃ frame, r.after entry.effect entry.reply = r.answer frame terminal := by
  obtain ⟨effect, reply, connected, shutdown⟩ := entry
  cases effect with
  | receive =>
    cases reply with
    | upstream message =>
      cases message with
      | text frame =>
        have hcause : frame.cause = .terminal terminal := by
          simp only [Entry.ends, ConnectionEvent.cause, UpstreamMessage.cause] at hends
          split at hends
          · rename_i terminal' hcause
            cases hends
            exact hcause
          · cases hends
        exact ⟨frame, by simp only [Relay.after, Relay.hear, hcause]⟩
      | _ => cases hends
    | downstream message => cases message <;> cases hends
    | _ => cases hends
  | _ => cases hends

/-- **A terminal event that finds nobody in flight** is the last event, and nothing is finalized. -/
theorem not_finalizes_of_ends {terminal : TerminalEvent}
    (h : InTurn isHttpDate (before ++ entry :: after)) (hends : entry.ends = some terminal)
    (hnobody : (relayOf before).active = none) : ∀ e ∈ after, e.finalizes = none := by
  obtain ⟨frame, hafter⟩ := Relay.after_ends (r := relayOf before) hends
  rw [Relay.answer, hnobody] at hafter
  have hsplit : before ++ entry :: after = (before ++ [entry]) ++ after := by simp
  rw [hsplit] at h
  have hall : ∃ done, before ++ [entry] ++ after = before ++ [entry] ++ done ∧
      relayOf (before ++ [entry] ++ after) = ⟨none, .ended (some frame)⟩ ∧
      ∀ e ∈ done, e.finalizes = none := by
    refine InTurn.run (P := fun trace => ∃ done, trace = before ++ [entry] ++ done ∧
        relayOf trace = ⟨none, .ended (some frame)⟩ ∧ ∀ e ∈ done, e.finalizes = none) h
      ⟨[], by simp, by rw [relayOf_append, hafter], fun e he => by cases he⟩
      fun trace e _ _ _ hallows hended => ?_
    obtain ⟨done, rfl, hrelay, hdone⟩ := hended
    obtain ⟨hsame, hnone⟩ := Relay.ended_none_step hrelay hallows
    refine ⟨done ++ [e], by simp, by rw [relayOf_append, hsame, hrelay], fun e' he' => ?_⟩
    rcases List.mem_append.mp he' with he' | he'
    · exact hdone e' he'
    · rw [List.mem_singleton.mp he']
      exact hnone
  obtain ⟨done, hdone, -, hnone⟩ := hall
  rwa [← List.append_cancel_left hdone] at hnone

/-- **A terminal event is charged to the request in flight**, and nothing else is charged. In every
reachable state: the first thing that a WebSocket session does after a terminal event is to finalize
the request in flight, with the status and the usage of the event at the rates of its admission, and
if that succeeds the ledger shows it; a terminal event that finds nobody in flight finalizes nothing.
A finalization with usage comes right after such an event. -/
theorem charged_to_request_in_flight {actions : List Action}
    (hrun : SystemRun config isHttpDate .init actions s) (hpart : s.parts[index]? = some part)
    (hpath : part.path = .webSocket) :
    (∀ before entry after terminal, part.trace = before ++ entry :: after →
      entry.ends = some terminal →
      ((relayOf before).active = none → ∀ e ∈ after, e.finalizes = none) ∧
      ∀ request, (relayOf before).active = some request →
        (∃ model, ⟨request.requestId, model⟩ ∈ admissions before ∧ request.rates = model.rates) ∧
        ∀ next rest, after = next :: rest →
          next.effect = .finalize request.requestId
            ⟨terminal.kind.finalStatus, none, terminalUsage terminal request.rates⟩ ∧
          (next.failsToFinalize request.requestId = false → ∃ row,
            s.shared.ledger[request.requestId]? = some row ∧ row.Commits terminal request.rates)) ∧
    ∀ before entry after id attempt, part.trace = before ++ entry :: after →
      entry.effect = .finalize id attempt → attempt.usage ≠ none →
      ∃ earlier ending request terminal, before = earlier ++ [ending] ∧
        ending.ends = some terminal ∧ (relayOf earlier).active = some request ∧
        id = request.requestId ∧
        attempt = ⟨terminal.kind.finalStatus, none, terminalUsage terminal request.rates⟩ := by
  have hs := System.sound_of_run hrun
  have hturns := (System.relays_of_run hrun index part hpart hpath).inTurn
  refine ⟨fun before entry after terminal heq hends => ⟨fun hnobody => ?_, fun request hactive =>
    ⟨?_, ?_⟩⟩, fun before entry after id attempt heq heffect husage => ?_⟩
  · exact not_finalizes_of_ends (heq ▸ hturns) hends hnobody
  · exact admitted_of_requests (List.mem_append_left _ (by
      rw [hactive]
      exact List.mem_singleton_self request))
  · rintro next rest rfl
    have hsplit : part.trace = (before ++ [entry]) ++ next :: rest := by rw [heq]; simp
    have hallows := hturns (before ++ [entry]) next rest hsplit
    obtain ⟨frame, hafter⟩ := Relay.after_ends (r := relayOf before) hends
    have hturn : (relayOf (before ++ [entry])).turn = .answered request frame terminal := by
      rw [relayOf_append, hafter, Relay.answer, hactive]
    have hbooks := Relay.books_of_answered hturn hallows
    refine ⟨hbooks, fun hok => ?_⟩
    have hshows := System.shows_of_run hrun part (List.mem_of_getElem? hpart) next
      (by rw [heq]; simp)
    obtain ⟨effect, reply, connected, shutdown⟩ := next
    cases hbooks
    cases reply with
    | error error => simp [Entry.failsToFinalize] at hok
    | ok =>
      obtain ⟨f, hf, hid, hattempt⟩ := hshows
      obtain ⟨row, hrow, hfinished⟩ := hs.books.finished f hf
      rw [hid] at hrow
      exact ⟨row, hrow, hfinished.commits (by rw [hattempt]) (by rw [hattempt])⟩
  · have hallows := hturns before entry after heq
    rw [heffect] at hallows
    rw [heq] at hturns
    cases hturn : (relayOf before).turn with
    | answered request frame terminal =>
      obtain ⟨earlier, ending, rfl, hends, hactive⟩ := exists_ends_of_answered hturns.init hturn
      have hbooks := Relay.books_of_answered hturn hallows
      cases hbooks
      exact ⟨earlier, ending, request, terminal, rfl, hends, hactive, rfl, rfl⟩
    | admitted | unbooked =>
      simp only [Relay.Allows, Relay.Finalizes, hturn] at hallows
      exact absurd (by rw [hallows.2]) husage
    | ended | requested =>
      simp only [Relay.Allows, Relay.Finalizes, hturn] at hallows
      obtain ⟨request, -, -, hnone, -⟩ := hallows
      exact absurd hnone husage
    | idle | refused | received | control =>
      simp only [Relay.Allows, Relay.Finalizes, hturn] at hallows

/-- The terminal event of `greetActions` is charged to its only request. -/
theorem charged_to_request_in_flight_greeting : ∃ s row,
    SystemRun lowConfig (fun _ => false) .init greetActions s ∧ s.shared.ledger[0]? = some row ∧
      row.Commits greetingTerminal (lowEffective none).rates := by
  have hevaluated : (exec (systemStep lowConfig fun _ => false) .init greetActions).map
      (fun s => s.parts.map fun part => decide (part.path = .webSocket ∧
        (relayOf (part.trace.take 8)).active = some ⟨0, (lowEffective none).rates⟩ ∧
        (part.trace.map Entry.ends)[8]? = some (some greetingTerminal) ∧
        (part.trace.drop 9).map (Entry.failsToFinalize 0) = [false])) = some [true] := by
    decide +kernel
  obtain ⟨s, hs, hparts⟩ := Option.map_eq_some_iff.mp hevaluated
  obtain ⟨part, hpart, hevaluated⟩ := List.map_eq_singleton_iff.mp hparts
  obtain ⟨hpath, hactive, hends, hdrop⟩ := of_decide_eq_true hevaluated
  rw [List.getElem?_map] at hends
  obtain ⟨entry, hentry, hends⟩ := Option.map_eq_some_iff.mp hends
  obtain ⟨hlt, hentry⟩ := List.getElem?_eq_some_iff.mp hentry
  obtain ⟨next, hdrop, hok⟩ := List.map_eq_singleton_iff.mp hdrop
  have hsplit : part.trace = part.trace.take 8 ++ entry :: [next] := by
    rw [← hdrop, ← hentry, ← List.drop_eq_getElem_cons hlt, List.take_append_drop]
  have hrun := run_ofFun_iff.mpr hs
  have hpart' : s.parts[0]? = some part := by rw [hpart]; rfl
  obtain ⟨-, hcharged⟩ := (charged_to_request_in_flight hrun hpart' hpath).1 _ entry _ _ hsplit hends
  obtain ⟨-, hcharged⟩ := hcharged _ hactive
  obtain ⟨row, hrow, hcommits⟩ := (hcharged next [] rfl).2 hok
  exact ⟨s, row, hrun, hrow, hcommits⟩

/-! ### Frames -/

/-- The frame of the upstream that is received. -/
def Entry.frame : Entry → Option TextFrame
  | ⟨.receive, .upstream (.text frame), _, _⟩ => some frame
  | _ => none

/-- The frame of the upstream that has reached the client. -/
def Entry.relayed : Entry → Option Item
  | ⟨.send (.frame text terminal), ok, _, _⟩ => if ok then some (.frame text terminal) else none
  | _ => none

/-- A session waits for its next event. -/
def Part.receiving (part : Part) : Bool :=
  match part.code with
  | some (.op .receive _) => true
  | _ => false

theorem TextFrame.exists_item (isHttpDate : String → Bool) (frame : TextFrame) :
    ∃ text terminal, frame.item isHttpDate = .frame text terminal := by
  unfold TextFrame.item
  split <;> exact ⟨_, _, rfl⟩

/-- What a session owes to the client, as it is to be sent. -/
def Turn.owes (isHttpDate : String → Bool) (turn : Turn) : List Item :=
  turn.owed.toList.map (·.item isHttpDate)

theorem Relay.owed_hear (event : ConnectionEvent) (connected shutdown : Bool) :
    (r.hear event).turn.owed = Entry.frame ⟨.receive, event, connected, shutdown⟩ := by
  cases event with
  | upstream message =>
    cases message with
    | text frame =>
      simp only [Relay.hear]
      split
      · rfl
      · cases hactive : r.active <;> simp [Relay.answer, hactive, Turn.owed, Entry.frame]
      · rfl
    | _ => rfl
  | downstream message => cases message <;> rfl
  | _ => rfl

theorem Relay.owed_close (ok : Bool) : (r.close ok).turn.owed = r.turn.owed := by
  obtain ⟨active, turn⟩ := r
  cases turn with
  | admitted new => cases active <;> cases ok <;> rfl
  | answered request frame terminal => cases ok <;> rfl
  | _ => rfl

/-- **What is received is owed until it is relayed.** -/
theorem Relay.relayed_step (hallows : r.Allows isHttpDate entry.effect) :
    r.turn.owes isHttpDate ++ entry.frame.toList.map (·.item isHttpDate) =
      entry.relayed.toList ++ (r.after entry.effect entry.reply).turn.owes isHttpDate := by
  have hquiet : entry.frame = none → entry.relayed = none →
      (r.after entry.effect entry.reply).turn.owed = r.turn.owed →
      r.turn.owes isHttpDate ++ entry.frame.toList.map (·.item isHttpDate) =
        entry.relayed.toList ++ (r.after entry.effect entry.reply).turn.owes isHttpDate := by
    intro hframe hrelayed howed
    simp [Turn.owes, hframe, hrelayed, howed]
  obtain ⟨active, turn⟩ := r
  obtain ⟨effect, reply, connected, shutdown⟩ := entry
  cases effect with
  | receive =>
    obtain rfl : turn = .idle := hallows
    have hheard := Relay.owed_hear (r := ⟨active, .idle⟩) reply connected shutdown
    show [] ++ _ = [] ++ Turn.owes isHttpDate _
    rw [Turn.owes, show Relay.after ⟨active, .idle⟩ .receive reply = Relay.hear ⟨active, .idle⟩ reply
      from rfl, hheard]
  | finalize id attempt => exact hquiet rfl rfl (Relay.owed_close _)
  | plan =>
    obtain rfl : turn = .requested := hallows
    cases reply <;> exact hquiet rfl rfl rfl
  | insert insertion =>
    obtain rfl : turn = .requested := hallows
    cases reply with
    | error error => exact hquiet rfl rfl rfl
    | ok id =>
      refine hquiet rfl rfl ?_
      cases hadmitted : insertion.admitted <;> simp [Relay.after, hadmitted, Turn.owed]
  | sendCreate generates frame =>
    obtain ⟨-, request, rfl⟩ := hallows
    refine hquiet rfl rfl ?_
    simp only [Relay.after]
    split <;> rfl
  | send item =>
    cases turn with
    | received frame =>
      obtain ⟨text, terminal, hitem⟩ := frame.exists_item isHttpDate
      obtain rfl : item = .frame text terminal := hitem ▸ hallows
      cases reply <;>
        simp [Turn.owes, Turn.owed, Entry.frame, Entry.relayed, Relay.after, Turn.closing, hitem]
    | refused =>
      obtain ⟨body, rfl⟩ := hallows
      cases reply <;> exact hquiet rfl rfl rfl
    | control =>
      obtain ⟨payload, rfl | rfl⟩ := hallows <;> cases reply <;> exact hquiet rfl rfl rfl
    | ended | requested =>
      obtain ⟨frame, rfl⟩ := hallows
      cases reply <;> exact hquiet rfl rfl rfl
    | _ => exact hallows.elim
  | sendUpstream message =>
    cases turn with
    | control | ended | requested => cases reply <;> exact hquiet rfl rfl rfl
    | _ => exact hallows.elim
  | now | model | prewarmReply | flush => exact hquiet rfl rfl rfl
  | _ => exact hallows.elim

/-- The frames that have come are those that have been relayed and the one that is owed. -/
theorem relayed_of_inTurn (h : InTurn isHttpDate trace) :
    (trace.filterMap Entry.frame).map (·.item isHttpDate) =
      trace.filterMap Entry.relayed ++ (relayOf trace).turn.owes isHttpDate := by
  induction trace using List.reverseRecOn with
  | nil => rfl
  | append_singleton trace entry ih =>
    have hstep := Relay.relayed_step (h trace entry [] rfl)
    have hlast : ∀ {α : Type} (f : Entry → Option α), [entry].filterMap f = (f entry).toList := by
      intro α f
      cases hf : f entry <;> simp [hf]
    rw [List.filterMap_append, List.filterMap_append, List.map_append, ih h.init, hlast, hlast,
      relayOf_append, List.append_assoc, hstep, List.append_assoc]

/-- **Frames are relayed in order.** In every reachable state, the client of a WebSocket session has got
the text frames that the upstream has sent outside a prewarm, in the order in which they came, each
once, and unchanged unless it is a capacity failure; at most the last of them is missing, and none is
when the session waits for its next event. -/
theorem relayed_in_order {actions : List Action}
    (hrun : SystemRun config isHttpDate .init actions s) (hpart : s.parts[index]? = some part)
    (hpath : part.path = .webSocket) :
    ∃ missing : Option TextFrame,
      (part.trace.filterMap Entry.frame).map (·.item isHttpDate) =
        part.trace.filterMap Entry.relayed ++ missing.toList.map (·.item isHttpDate) ∧
      (part.receiving = true → missing = none) := by
  obtain ⟨hcode, hturns⟩ := System.relays_of_run hrun index part hpart hpath
  refine ⟨(relayOf part.trace).turn.owed, relayed_of_inTurn hturns, fun hreceiving => ?_⟩
  unfold Part.receiving at hreceiving
  split at hreceiving
  · rename_i next hop
    have hidle : (relayOf part.trace).turn = .idle := (hcode _ hop).1
    rw [hidle]
    rfl
  · cases hreceiving

/-- The client of `greetActions` gets the terminal event. -/
theorem relayed_in_order_greeting : ∃ s part,
    SystemRun lowConfig (fun _ => false) .init
        (greetActions ++ [.part 0 (.reply (.bool true)), .part 0 .unfold]) s ∧ s.parts = [part] ∧
      part.trace.filterMap Entry.relayed = [greetingFrame.item fun _ => false] := by
  have hevaluated : (exec (systemStep lowConfig fun _ => false) .init
      (greetActions ++ [.part 0 (.reply (.bool true)), .part 0 .unfold])).map
      (fun s => s.parts.map fun part => decide (part.path = .webSocket ∧
        part.trace.filterMap Entry.frame = [greetingFrame] ∧ part.receiving = true)) =
          some [true] := by
    decide +kernel
  obtain ⟨s, hs, hparts⟩ := Option.map_eq_some_iff.mp hevaluated
  obtain ⟨part, hpart, hevaluated⟩ := List.map_eq_singleton_iff.mp hparts
  obtain ⟨hpath, hframe, hreceiving⟩ := of_decide_eq_true hevaluated
  have hrun := run_ofFun_iff.mpr hs
  have hpart' : s.parts[0]? = some part := by rw [hpart]; rfl
  obtain ⟨missing, hrelayed, hnone⟩ := relayed_in_order hrun hpart' hpath
  rw [hframe, hnone hreceiving] at hrelayed
  exact ⟨s, part, hrun, hpart, by simpa using hrelayed.symm⟩

end CodexApi.Delivery
