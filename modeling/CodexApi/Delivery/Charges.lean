import CodexApi.Delivery.Answers
import CodexApi.Delivery.Cancellation
import CodexApi.Delivery.RelayProtocol

/-!
# What is charged

A row incurs the charge of a terminal event that comes while it is in the care of its code
(`Incurs`). In every reachable state, a finalization with usage charges its row for an event of which
it has incurred the charge, at the rates of its admission; an event is charged to a single row, and
the row that has incurred its charge shows it, is unaccounted, or is still to be finalized
(`charged_once`). An HTTP operation owes this to its contract (`serve`), by which it books a terminal
event before it does anything else, and a WebSocket session to the protocol of its relay.
-/

namespace CodexApi

/-- The row shows the usage of a terminal event: its token counts, and their cost at some rates. -/
structure Row.Charges (row : Row) (terminal : TerminalEvent) (rates : ModelRates) : Prop where
  inputTokens : row.inputTokens = terminal.usage.map (·.inputTokens.toNat)
  cachedInputTokens : row.cachedInputTokens = terminal.usage.map (·.cachedInputTokens.toNat)
  outputTokens : row.outputTokens = terminal.usage.map (·.outputTokens.toNat)
  isSome_cost : row.costNanoUsd.isSome = terminal.usage.isSome
  cost : ∀ usage ∈ terminal.usage, ∀ cost ∈ row.costNanoUsd,
    calculateCostNanoUsd (billableUsage usage rates) = .ok cost

/-- A row that is finished with the usage of a terminal event is charged for it, whatever its status
is. -/
theorem Row.FinishedBy.charges {row : Row} {attempt : Delivery.Attempt} {terminal : TerminalEvent}
    {rates : ModelRates} (h : row.FinishedBy attempt)
    (husage : attempt.usage = Delivery.terminalUsage terminal rates) :
    row.Charges terminal rates := by
  have hfinished : Row.FinishedBy { row with status := .final terminal.kind.finalStatus }
      { attempt with status := terminal.kind.finalStatus } := ⟨rfl, h.httpStatus, h.charged⟩
  have hcommits :
      Row.Commits { row with status := .final terminal.kind.finalStatus } terminal rates :=
    hfinished.commits rfl husage
  exact ⟨hcommits.inputTokens, hcommits.cachedInputTokens, hcommits.outputTokens,
    hcommits.isSome_cost, hcommits.cost⟩

namespace Delivery

open Transition
open Program (Safe)

variable {isHttpDate : String → Bool} {config : Config} {mode : Mode} {sh sh' : Shared}
  {index : Nat} {part part' : Part} {path : ApiPath} {v : View} {effect : Effect}
  {reply : effect.Reply} {entry : Entry} {trace before : List Entry} {row : Admitted}
  {terminal : TerminalEvent} {id : RequestId} {attempt : Attempt} {word : Word} {s t : System}

/-! ### Terminal events of open rows -/

/-- A row incurs the charge of a terminal event: the event comes after a trace, while the row is in
the care of the code. -/
def Incurs (trace before : List Entry) (row : Admitted) (terminal : TerminalEvent) : Prop :=
  ∃ entry after, trace = before ++ entry :: after ∧
    entry.effect.observe entry.reply = some (.terminal terminal) ∧ row ∈ (viewOf before).care

/-- A charge is incurred by the last entry, or has been incurred before. -/
theorem Incurs.of_append (h : Incurs (trace ++ [entry]) before row terminal) :
    Incurs trace before row terminal ∨
      entry.effect.outcome entry.reply ≠ none ∧ row ∈ (viewOf trace).care := by
  obtain ⟨entry', after, heq, hobserve, hrow⟩ := h
  rcases append_singleton_eq_append_cons heq with ⟨rfl, rfl, -⟩ | ⟨after', -, htail⟩
  · exact .inr ⟨by simp [Effect.outcome, hobserve, Cause.outcome], hrow⟩
  · exact .inl ⟨entry', after', htail, hobserve, hrow⟩

theorem Effect.minor_of_listens (h : effect.listens = true) : effect.minor = true := by
  induction effect with
  | select closable effect ih => exact ih h
  | next | nextRecord | receive => rfl
  | _ => cases h

/-- Listening leaves the rows where they are. -/
theorem View.book_of_listens (v : View) (reply : effect.Reply) (h : effect.listens = true) :
    (v.book effect reply).held = v.held ∧ (v.book effect reply).pending = v.pending := by
  obtain ⟨-, hheld, hpending, -⟩ := View.book_of_minor v reply (Effect.minor_of_listens h)
  exact ⟨hheld, hpending⟩

/-- An HTTP operation that listens has one row in its care. -/
theorem View.care_of_listens (hpre : (contract path).pre v effect) (hpath : path ≠ .webSocket)
    (h : effect.listens = true) :
    ∃ row started, v.pending = .opened row started ∧ v.care = [row] := by
  obtain ⟨hneeds, hholds, -⟩ := hpre
  have hguards : v.held = [] → v.Listens →
      ∃ row started, v.pending = .opened row started ∧ v.care = [row] := by
    rintro hheld ⟨-, row, started, hopened⟩
    exact ⟨row, started, hopened, by simp [View.care, hheld, hopened, Pending.guarded]⟩
  cases effect with
  | receive => exact absurd hneeds hpath
  | next | nextRecord => exact hneeds.elim
  | select closable effect =>
    have hheld : v.held = [] := hholds hpath rfl
    obtain ⟨-, hwaits⟩ := hneeds
    cases effect with
    | next | nextRecord => exact hguards hheld hwaits
    | receive => exact hwaits.elim
    | select closable effect =>
      cases effect with
      | next => exact hguards hheld hwaits
      | _ => exact hwaits.elim
    | _ => cases h
  | _ => cases h

/-! ### What is ordered is charged -/

/-- An attempt to finalize a row fits the charges that it has incurred: it has usage only if there is
one, and the usage is that of the event unless the row becomes an upstream error without usage. -/
structure Charged (part : Part) (id : RequestId) (attempt : Attempt) (_word : Word) : Prop where
  incurred : attempt.usage ≠ none →
    ∃ before row terminal, Incurs part.trace before row terminal ∧ row.id = id
  usage : ∀ before row terminal, Incurs part.trace before row terminal → row.id = id →
    attempt.usage = terminalUsage terminal row.model.rates ∨
      attempt.status = .upstreamError ∧ attempt.usage = none

theorem Charged.of_trace (h : Charged part id attempt word) (htrace : part'.trace = part.trace) :
    Charged part' id attempt word :=
  ⟨htrace ▸ h.incurred, htrace ▸ h.usage⟩

/-- An entry that is no outcome of a row in the care of the code leaves its order charged. -/
theorem Charged.append (h : Charged part id attempt word)
    (htrace : part'.trace = part.trace ++ [entry])
    (hnot : (∃ row ∈ (viewOf part.trace).care, row.id = id) →
      entry.effect.outcome entry.reply = none) : Charged part' id attempt word := by
  refine ⟨fun husage => ?_, fun before row terminal hincurs hid => ?_⟩
  · obtain ⟨before, row, terminal, ⟨entry', after, heq, hobserve, hrow⟩, hid⟩ := h.incurred husage
    exact ⟨before, row, terminal, ⟨entry', after ++ [entry], by simp [htrace, heq], hobserve, hrow⟩,
      hid⟩
  · rw [htrace] at hincurs
    rcases hincurs.of_append with hincurs | ⟨houtcome, hrow⟩
    · exact h.usage before row terminal hincurs hid
    · exact absurd (hnot ⟨row, hrow, hid⟩) houtcome

/-! ### HTTP operations -/

/-- A part that has ordered a task for its row has no row in its care. -/
def Part.Spent (part : Part) : Prop :=
  ∀ entry ∈ part.trace, ∀ attempts, entry.effect = .spawnFinalizer attempts →
    part.path ≠ .webSocket ∧ (viewOf part.trace).ids ≠ [] ∧ (viewOf part.trace).care = []

theorem Part.Spent.step (hp : part.Spent) (hs : part.Sound sh index) {move : Move}
    (h : partStep config isHttpDate index sh part move = some (sh', part')) : part'.Spent := by
  obtain ⟨hpath, -, -, hgoes⟩ := goes_of_partStep h
  cases hgoes with
  | stays htrace | unfolds htrace => simpa only [Part.Spent, htrace, hpath] using hp
  | @replies effect next reply _ _ _ _ hop hperform hcode htrace =>
    have hids : (viewOf part.trace).ids ⊆ (viewOf part'.trace).ids := by
      rw [htrace, viewOf_append]
      exact View.ids_subset_book
    intro entry hentry attempts heffect
    rw [htrace, List.mem_append, List.mem_singleton] at hentry
    rcases hentry with hentry | rfl
    · -- The task has been spawned before.
      obtain ⟨hhttp, hnonempty, hcare⟩ := hp entry hentry attempts heffect
      obtain ⟨hnonempty', hcare'⟩ :=
        View.settled_book hhttp (hs.pre hop) (hs.may hop hperform) hnonempty hcare
      refine ⟨hpath ▸ hhttp, ?_, ?_⟩
      · rw [htrace, viewOf_append]
        exact hnonempty'
      · rw [htrace, viewOf_append_care]
        exact hcare'
    · obtain rfl : effect = .spawnFinalizer attempts := heffect
      obtain ⟨hhttp, hnonempty, hcare⟩ := hs.settled_of_spawn hop
      refine ⟨hpath ▸ hhttp, fun hnil => hnonempty (List.eq_nil_of_subset_nil (hnil ▸ hids)), ?_⟩
      rw [htrace, viewOf_append_care]
      exact hcare

/-- A terminal event makes a booking due. -/
theorem Serving.due_after {g : Serving} (isHttpDate : String → Bool) (hpermits : g.Permits effect)
    (h : effect.observe reply = some (.terminal terminal)) :
    (g.after isHttpDate effect reply).due = some terminal := by
  have hcause : ∀ {cause : Cause}, some cause = some (.terminal terminal) →
      cause.terminal? = some terminal := by
    rintro _ ⟨⟩
    rfl
  induction effect with
  | select closable effect ih =>
    cases reply with
    | shutdown | closed => cases h
    | done reply => exact ih hpermits h
  | next =>
    cases reply with
    | message message =>
      cases message with
      | text frame => exact hcause h
      | _ => cases h
    | broken | ended => cases h
  | nextRecord =>
    cases reply with
    | record record => exact hcause h
    | eof | broken => cases h
  | receive => exact hpermits.elim
  | _ => cases listens_of_terminal h

/-- **A terminal event comes last** as long as its row is in the care of the code, and its booking is
due. -/
theorem due_of_incurs (hkept : Kept (serve isHttpDate) (.start mode) part.trace) (hspent : part.Spent)
    (hcare : (viewOf part.trace).care ≠ []) (hincurs : Incurs part.trace before row terminal) :
    ∃ entry, part.trace = before ++ [entry] ∧
      entry.effect.observe entry.reply = some (.terminal terminal) ∧
      (ghostOf (serve isHttpDate) (.start mode) part.trace).due = some terminal := by
  obtain ⟨entry, after, heq, hobserve, -⟩ := hincurs
  have hallows : Serving.Allows _ entry.effect := hkept before entry after heq
  have hdue : (ghostOf (serve isHttpDate) (.start mode) (before ++ [entry])).due = some terminal := by
    rw [ghostOf_append]
    exact Serving.due_after isHttpDate hallows.permits hobserve
  cases after with
  | nil => exact ⟨entry, heq, hobserve, heq ▸ hdue⟩
  | cons next after =>
    -- The booking has been ordered, and nothing is left in the care of the code.
    have hsplit : part.trace = (before ++ [entry]) ++ next :: after := by rw [heq]; simp
    have hnext : Serving.Allows _ next.effect := hkept _ next after hsplit
    have hmem : next ∈ part.trace := by rw [hsplit]; simp
    cases hspawn : next.effect with
    | spawnFinalizer attempts => exact absurd (hspent next hmem attempts hspawn).2.2 hcare
    | _ =>
      rw [hspawn] at hnext
      rw [show _ = none from hnext.1] at hdue
      cases hdue

/-- The row that is guarded while a booking is due is the one that has incurred the charge. -/
theorem eq_guarded_of_incurs {guarded : Admitted} {started : Option Nat}
    (hpath : path ≠ .webSocket) (hpre : (contract path).pre (viewOf before) entry.effect)
    (hobserve : entry.effect.observe entry.reply = some (.terminal terminal))
    (hopened : (viewOf (before ++ [entry])).pending = .opened guarded started)
    (hrow : row ∈ (viewOf before).care) : row = guarded := by
  have hlistens := listens_of_terminal hobserve
  obtain ⟨row', started', hpending, hcare⟩ := View.care_of_listens hpre hpath hlistens
  have hkept : (viewOf (before ++ [entry])).pending = (viewOf before).pending := by
    rw [viewOf_append]
    exact ((viewOf before).book_of_listens entry.reply hlistens).2
  rw [hkept, hpending] at hopened
  rw [hcare] at hrow
  cases hopened
  exact List.mem_singleton.mp hrow

/-- A terminal event that is the last word is to be charged to a row. -/
theorem exists_incurs_of_cause (hl : part.Logged sh) (hpath : part.path ≠ .webSocket)
    (hcause : (viewOf part.trace).cause = .terminal terminal) :
    ∃ before row, Incurs part.trace before row terminal := by
  rcases exists_entry_of_cause (by rw [hcause]; exact fun h => by cases h) with
    ⟨entry, hentry, hobserve⟩ | ⟨hovertaken, -⟩
  · obtain ⟨before, after, heq⟩ := List.append_of_mem hentry
    rw [hcause] at hobserve
    obtain ⟨row, -, -, hcare⟩ := View.care_of_listens (hl.made before entry after heq).pre hpath
      (listens_of_terminal hobserve)
    exact ⟨before, row, entry, after, heq, hobserve, by rw [hcare]; exact List.mem_singleton_self row⟩
  · rw [hcause] at hovertaken
    cases hovertaken

/-- The first attempt to book a row has usage if the terminal event that is due has, and the next one
is an upstream error. -/
theorem BooksUsage.of_mem {attempts : List Attempt} (h : BooksUsage (some terminal) attempts)
    (hordered : Ordered attempts) (hattempt : attempt ∈ attempts) :
    attempt.usage.isSome = terminal.usage.isSome ∨
      attempt.status = .upstreamError ∧ attempt.usage = none := by
  obtain ⟨first, rest, rfl, hfirst, -⟩ := h
  rcases List.mem_cons.mp hattempt with rfl | hrest
  · exact .inl hfirst
  · cases hordered with
    | single => cases hrest
    | fallback first httpStatus =>
      rw [List.mem_singleton.mp hrest]
      exact .inr ⟨rfl, rfl⟩

/-- **What an HTTP operation orders is charged** as its row has incurred it. -/
theorem Part.Sound.charged_of_keeps (hs : part.Sound sh index) (hl : part.Logged sh)
    (hk : part.Keeps (serve isHttpDate) (.start mode) Serving.Over) (hspent : part.Spent)
    (hpath : part.path ≠ .webSocket) : part.Obeys Charged sh := by
  intro id attempts word horders attempt hattempt
  have hquiet : ∀ {effect : Effect} {next : effect.Reply → Code Unit} {httpStatus : Option Nat},
      part.code = some (.op effect next) → part.custody = .guarded id httpStatus →
      (∀ attempts, effect ≠ .spawnFinalizer attempts) → attempt.usage = none →
      Charged part id attempt word := by
    intro effect next httpStatus hcode hguarded hnot husage
    refine ⟨fun h => absurd husage h, fun before row terminal hincurs _ => ?_⟩
    -- A booking that is due comes first.
    obtain ⟨row', hrow', -⟩ := hs.care_of_guarded (by simp [hcode]) hguarded
    obtain ⟨-, -, -, hdue⟩ := due_of_incurs hk.kept hspent (List.ne_nil_of_mem hrow') hincurs
    obtain ⟨hallows, -⟩ := hk.code _ hcode
    cases effect with
    | spawnFinalizer attempts => exact absurd rfl (hnot attempts)
    | _ =>
      rw [show _ = none from hallows.1] at hdue
      cases hdue
  cases horders with
  | finalize hcode => exact absurd (hs.pre hcode).1.1 hpath
  | drop hcode hguarded =>
    obtain rfl := List.mem_singleton.mp hattempt
    exact hquiet hcode hguarded (fun attempts h => by cases h) rfl
  | leave _ hcode hawaits hguarded =>
    obtain rfl := List.mem_singleton.mp hattempt
    exact hquiet hcode hguarded (fun attempts h => by rw [h] at hawaits; cases hawaits) rfl
  | spawn hcode hguarded =>
    obtain ⟨guarded, started, hopened, hordered, hfits⟩ := (hs.pre hcode).1
    have hjustified : Justified part.path _ guarded.model.rates attempt := (hfits attempt hattempt).2
    have hid : guarded.id = id := by
      have hpending := hs.tracks.pending (by simp [hcode])
      unfold PendingIn at hpending
      rw [hopened] at hpending
      exact (Custody.guarded.inj (hpending.symm.trans hguarded)).1
    have hcare : (viewOf part.trace).care ≠ [] := by
      obtain ⟨row, hrow, -⟩ := hs.care_of_guarded (by simp [hcode]) hguarded
      exact List.ne_nil_of_mem hrow
    -- What is to be charged has come last, and to the row that is guarded.
    have hlast : ∀ before row terminal, Incurs part.trace before row terminal → row = guarded ∧
        (ghostOf (serve isHttpDate) (.start mode) part.trace).due = some terminal ∧
        ∀ terminal', (viewOf part.trace).cause = .terminal terminal' → terminal' = terminal := by
      intro before row terminal hincurs
      obtain ⟨entry, heq, hobserve, hdue⟩ := due_of_incurs hk.kept hspent hcare hincurs
      obtain ⟨_, _, _, -, hrow⟩ := hincurs
      have hmade := hl.made before entry [] heq
      refine ⟨eq_guarded_of_incurs hpath hmade.pre hobserve (heq ▸ hopened) hrow, hdue,
        fun terminal' hcause => ?_⟩
      rw [heq, viewOf_append] at hcause
      rcases View.terminal_after hcause with hheard | ⟨hnone, -⟩
      · rw [hobserve] at hheard
        cases hheard
        rfl
      · rw [hobserve] at hnone
        cases hnone
    refine ⟨fun husage => ?_, fun before row terminal hincurs _ => ?_⟩
    · obtain ⟨terminal, hcause, -⟩ := hjustified.usage husage
      obtain ⟨before, row, hincurs⟩ := exists_incurs_of_cause hl hpath hcause
      exact ⟨before, row, terminal, hincurs, (hlast before row terminal hincurs).1 ▸ hid⟩
    · obtain ⟨rfl, hdue, hsame⟩ := hlast before row terminal hincurs
      obtain ⟨hallows, -⟩ := hk.code _ hcode
      have hbooks : BooksUsage (some terminal) attempts := hdue ▸ hallows
      refine (hbooks.of_mem hordered hattempt).imp_left fun hsome => ?_
      cases husage : attempt.usage with
      | none =>
        rw [husage] at hsome
        have hnone : terminal.usage = none := by simpa using hsome.symm
        rw [terminalUsage, hnone]
        rfl
      | some usage =>
        have hused : attempt.usage ≠ none := by
          rw [husage]
          exact Option.some_ne_none usage
        obtain ⟨terminal', hcause, hequal⟩ := hjustified.usage hused
        rw [← husage, hequal, hsame terminal' hcause]

/-! ### Sessions -/

/-- A row is in the hands of a session, unless its connection ends. -/
def Relay.Hands (r : Relay) (row : Admitted) : Prop :=
  (∃ last, r.turn = .ended last) ∨ ⟨row.id, row.model.rates⟩ ∈ r.requests

theorem Relay.Hands.hear {r : Relay} (h : r.Hands row) (hidle : r.turn = .idle)
    (event : ConnectionEvent) : (r.hear event).Hands row := by
  obtain ⟨active, turn⟩ := r
  obtain rfl : turn = .idle := hidle
  have hactive : ⟨row.id, row.model.rates⟩ ∈ active.toList := by
    rcases h with ⟨last, hended⟩ | hmem
    · cases hended
    · simpa [Relay.requests] using hmem
  have hkept : ∀ turn, Relay.Hands ⟨active, turn⟩ row := fun turn =>
    .inr (List.mem_append_left _ hactive)
  cases event with
  | upstream message =>
    cases message with
    | text frame =>
      simp only [Relay.hear]
      split
      · exact hkept _
      · -- The terminal event is that of the request in flight.
        rename_i terminal _
        rw [Option.mem_toList] at hactive
        rw [Relay.answer, show active = _ from hactive]
        exact .inr (List.mem_singleton_self _)
      · exact hkept _
    | _ => exact hkept _
  | downstream message => cases message <;> exact hkept _
  | _ => exact hkept _

/-- What a session finalizes successfully is no longer held; the rest stays in its hands. -/
theorem Relay.Hands.close {r : Relay} {attempt : Attempt} (h : r.Hands row)
    (hfinalizes : r.Finalizes id attempt) (ok : Bool) (hheld : ok = true → row.id ≠ id) :
    (r.close ok).Hands row := by
  obtain ⟨active, turn⟩ := r
  cases turn with
  | admitted request =>
    obtain ⟨rfl, -⟩ := hfinalizes
    simp only [Relay.close]
    split
    · rename_i hok
      refine .inr ?_
      rcases h with ⟨last, hended⟩ | hmem
      · cases hended
      · rcases List.mem_append.mp hmem with hmem | hmem
        · exact List.mem_append_left _ hmem
        · refine absurd ?_ (hheld (Bool.and_eq_true_iff.mp hok).2)
          rw [← List.mem_singleton.mp hmem]
    · exact .inl ⟨none, rfl⟩
  | answered request frame terminal =>
    obtain ⟨rfl, -⟩ := hfinalizes
    rcases h with ⟨last, hended⟩ | hmem
    · cases hended
    · cases ok with
      | false => exact .inr hmem
      | true =>
        rcases List.mem_append.mp hmem with hmem | hmem
        · exact .inr (List.mem_append_left _ hmem)
        · refine absurd ?_ (hheld rfl)
          rw [← List.mem_singleton.mp hmem]
  | unbooked request frame => exact .inl ⟨some frame, rfl⟩
  | requested => exact .inl ⟨none, rfl⟩
  | ended last => exact .inl ⟨last, rfl⟩
  | idle | refused | received | control => exact hfinalizes.elim

/-- What a session sends leaves its rows in its hands. -/
theorem Relay.Hands.sent {r : Relay} (h : r.Hands row) (hturn : r.requests = r.active.toList)
    (ok : Bool) : Relay.Hands
      { r with turn := if ok && !r.turn.closing then .idle else .ended r.turn.owed } row := by
  split
  · rename_i hopen
    refine .inr ?_
    rcases h with ⟨last, hended⟩ | hmem
    · simp [hended, Turn.closing] at hopen
    · rw [hturn] at hmem
      simpa [Relay.requests] using hmem
  · exact .inl ⟨_, rfl⟩

/-- **A row that a session holds is in its hands**, whatever it does next. -/
theorem Relay.Hands.after {r : Relay} (hallows : r.Allows isHttpDate effect)
    (h : row ∈ v.held → r.Hands row) (hheld : row ∈ (v.book effect reply).held) :
    (r.after effect reply).Hands row := by
  cases effect with
  | receive => exact (h hheld).hear hallows reply
  | plan =>
    cases reply with
    | error error => exact .inl ⟨none, rfl⟩
    | ok planned => exact h hheld
  | insert insertion =>
    have hrequested : r.turn = .requested := hallows
    cases reply with
    | error error => exact .inl ⟨none, rfl⟩
    | ok id =>
      have hactive : row ∈ v.held → ⟨row.id, row.model.rates⟩ ∈ r.active.toList := by
        intro hmem
        rcases h hmem with ⟨last, hended⟩ | hmem
        · rw [hrequested] at hended
          cases hended
        · simpa [Relay.requests, hrequested] using hmem
      cases hadmitted : insertion.admitted with
      | none =>
        simp only [View.book, hadmitted] at hheld
        simp only [Relay.after, hadmitted]
        exact .inr (List.mem_append_left _ (hactive hheld))
      | some model =>
        simp only [View.book, hadmitted, List.mem_append, List.mem_singleton] at hheld
        simp only [Relay.after, hadmitted]
        rcases hheld with hheld | rfl
        · exact .inr (List.mem_append_left _ (hactive hheld))
        · exact .inr (List.mem_append_right _ (List.mem_singleton_self _))
  | finalize id attempt =>
    cases reply with
    | error error => exact (h hheld).close hallows false fun hok => by cases hok
    | ok =>
      obtain ⟨hmem, hne⟩ := List.mem_filter.mp hheld
      exact (h hmem).close hallows true fun _ => of_decide_eq_true hne
  | sendCreate generates frame =>
    obtain ⟨hnone, request, hadmitted⟩ := hallows
    have hhands := h hheld
    simp only [Relay.after, hadmitted]
    split
    · rcases hhands with ⟨last, hended⟩ | hmem
      · rw [hadmitted] at hended
        cases hended
      · refine .inr ?_
        simpa [Relay.requests, hadmitted, hnone] using hmem
    · exact hhands
  | send item =>
    refine (h hheld).sent ?_ reply
    cases hturn : r.turn with
    | admitted | answered | unbooked =>
      rw [Relay.Allows, hturn] at hallows
      exact hallows.elim
    | _ => simp [Relay.requests, hturn]
  | sendUpstream message =>
    refine (h hheld).sent ?_ reply
    cases hturn : r.turn with
    | admitted | answered | unbooked =>
      rw [Relay.Allows, hturn] at hallows
      exact hallows.elim
    | _ => simp [Relay.requests, hturn]
  | prewarmReply => cases reply <;> exact h hheld
  | model slug =>
    refine h ?_
    simp only [View.book] at hheld
    split at hheld <;> exact hheld
  | now | flush => exact h hheld
  | _ => exact hallows.elim

/-- The rows that a session holds are in its hands. -/
theorem hands_of_inTurn (h : InTurn isHttpDate trace) (hrow : row ∈ (viewOf trace).held) :
    (relayOf trace).Hands row := by
  induction trace using List.reverseRecOn with
  | nil => cases hrow
  | append_singleton trace entry ih =>
    rw [relayOf_append]
    rw [viewOf_append] at hrow
    exact Relay.Hands.after (h trace entry [] rfl) (ih h.init) hrow

/-- A session has no `PendingRequest`. -/
theorem pending_of_inTurn (h : InTurn isHttpDate trace) : (viewOf trace).pending = .absent := by
  induction trace using List.reverseRecOn with
  | nil => rfl
  | append_singleton trace entry ih =>
    have hallows := h trace entry [] rfl
    have habsent := ih h.init
    rw [viewOf_append]
    show ((viewOf trace).book entry.effect entry.reply).pending = .absent
    obtain ⟨effect, reply, connected, shutdown⟩ := entry
    cases hminor : effect.minor with
    | true => exact (View.book_of_minor _ reply hminor).2.2.1.trans habsent
    | false =>
      cases effect with
      | insert insertion =>
        cases reply with
        | error error => exact habsent
        | ok id => cases hadmitted : insertion.admitted <;> simpa [View.book, hadmitted] using habsent
      | finalize => cases reply <;> exact habsent
      | newPending | responseStarted | spawnFinalizer | join | dropPending | select =>
        exact hallows.elim
      | _ => cases hminor

/-- **A terminal event that a row of a session is charged for** is that of the request in flight. -/
theorem active_of_incurs {after : List Entry} (h : InTurn isHttpDate (before ++ entry :: after))
    (hobserve : entry.effect.observe entry.reply = some (.terminal terminal))
    (hrow : row ∈ (viewOf before).care) : entry.ends = some terminal ∧
      (relayOf before).active = some ⟨row.id, row.model.rates⟩ := by
  have hallows := h before entry after rfl
  obtain ⟨effect, reply, connected, shutdown⟩ := entry
  cases effect with
  | receive =>
    have hcause : ConnectionEvent.cause reply = .terminal terminal := Option.some.inj hobserve
    refine ⟨by simp only [Entry.ends, hcause], ?_⟩
    have hidle : (relayOf before).turn = .idle := hallows
    have hheld : row ∈ (viewOf before).held := by
      refine (View.mem_care.mp hrow).resolve_right fun hguarded => ?_
      rw [pending_of_inTurn h.init] at hguarded
      cases hguarded
    rcases hands_of_inTurn h.init hheld with ⟨last, hended⟩ | hmem
    · rw [hidle] at hended
      cases hended
    · simpa [Relay.requests, hidle] using hmem
  | next | nextRecord | select => exact hallows.elim
  | _ => cases listens_of_terminal hobserve

/-- A session finalizes with usage only when it owes the booking of a terminal event. -/
theorem Relay.answered_of_usage {r : Relay} (h : r.Finalizes id attempt)
    (husage : attempt.usage ≠ none) :
    ∃ request frame terminal, r.turn = .answered request frame terminal := by
  obtain ⟨active, turn⟩ := r
  cases turn with
  | answered request frame terminal => exact ⟨request, frame, terminal, rfl⟩
  | admitted | unbooked =>
    obtain ⟨-, rfl⟩ := h
    exact absurd rfl husage
  | ended | requested =>
    obtain ⟨request, -, -, hnone, -⟩ := h
    exact absurd hnone husage
  | idle | refused | received | control => exact h.elim

theorem Entry.observe_of_ends (h : entry.ends = some terminal) :
    entry.effect.listens = true ∧ entry.effect.observe entry.reply = some (.terminal terminal) := by
  obtain ⟨effect, reply, connected, shutdown⟩ := entry
  cases effect with
  | receive =>
    refine ⟨rfl, ?_⟩
    simp only [Entry.ends] at h
    split at h
    · rename_i terminal' hcause
      cases h
      exact congrArg some hcause
    · cases h
  | _ => cases h

/-- **What a session finalizes is charged** as its row has incurred it. -/
theorem Part.Sound.charged_of_relays {parts : Nat} (hs : part.Sound sh index) (hb : sh.Books parts)
    (hr : part.Relays isHttpDate) (hshows : ∀ entry ∈ part.trace, entry.Shows sh)
    (hpath : part.path = .webSocket) : part.Obeys Charged sh := by
  have hfree : part.custody = .free := hs.tracks.webSocket hpath
  intro id attempts word horders attempt hattempt
  cases horders with
  | spawn _ hguarded | drop _ hguarded | leave _ _ _ hguarded =>
    rw [hfree] at hguarded
    cases hguarded
  | finalize hcode =>
    obtain rfl := List.mem_singleton.mp hattempt
    obtain ⟨⟨-, -, hfailed, row, hrow, rfl, -⟩, -⟩ := hs.pre hcode
    obtain ⟨hallows, -⟩ := hr.code _ hcode
    refine ⟨fun husage => ?_, fun before row' terminal hincurs hid => ?_⟩
    · obtain ⟨request, frame, terminal, hturn⟩ := Relay.answered_of_usage hallows husage
      obtain ⟨before, ending, heq, hends, -⟩ := exists_ends_of_answered hr.inTurn hturn
      obtain ⟨hlistens, hobserve⟩ := Entry.observe_of_ends hends
      have hheld : (viewOf part.trace).held = (viewOf before).held := by
        rw [heq, viewOf_append]
        exact ((viewOf before).book_of_listens ending.reply hlistens).1
      exact ⟨before, row, terminal,
        ⟨ending, [], heq, hobserve, View.mem_care.mpr (.inl (hheld ▸ hrow))⟩, rfl⟩
    · obtain ⟨entry, after, heq, hobserve, hcare⟩ := hincurs
      obtain ⟨hends, hactive⟩ := active_of_incurs (heq ▸ hr.inTurn) hobserve hcare
      obtain ⟨frame, hafter⟩ := Relay.after_ends (r := relayOf before) hends
      have hturn : (relayOf (before ++ [entry])).turn =
          .answered ⟨row'.id, row'.model.rates⟩ frame terminal := by
        rw [relayOf_append, hafter, Relay.answer, hactive]
      cases after with
      | nil =>
        have hlast : (relayOf (before ++ [entry])).Allows isHttpDate (.finalize row.id attempt) :=
          heq ▸ hallows
        obtain ⟨-, rfl⟩ := Effect.finalize.inj (Relay.books_of_answered hturn hlast)
        exact .inl rfl
      | cons next rest =>
        -- The row has been tried to finalize before, and is still held.
        have hsplit : part.trace = (before ++ [entry]) ++ next :: rest := by rw [heq]; simp
        have hmem : next ∈ part.trace := by rw [hsplit]; simp
        have hbooks := Relay.books_of_answered hturn (hr.inTurn _ next rest hsplit)
        have hshown := hshows next hmem
        obtain ⟨effect, reply, connected, shutdown⟩ := next
        cases hbooks
        cases reply with
        | ok =>
          obtain ⟨f, hf, hfid, -⟩ := hshown
          obtain ⟨held, hheld, hstarted⟩ := hs.tracks.held row hrow
          have hmine : f.id = row.id := hfid.trans hid
          exact absurd (hmine ▸ List.mem_map_of_mem hf) (hb.not_mem_of_started hheld hstarted)
        | error error =>
          have hmemFailed : row.id ∈ (viewOf part.trace).failed := by
            refine mem_failed_of_any (List.any_eq_true.mpr ⟨_, hmem, ?_⟩)
            exact decide_eq_true hid
          rw [hfailed hmemFailed]
          exact .inr ⟨rfl, rfl⟩

/-! ### Runs -/

/-- What a part of a run has ordered is charged. -/
theorem System.obeys_charged_of_run {actions : List Action}
    (hrun : SystemRun config isHttpDate .init actions s) (hpart : s.parts[index]? = some part) :
    part.Obeys Charged s.shared := by
  have hs := (System.sound_of_run hrun).parts index part hpart
  by_cases hpath : part.path = .webSocket
  · exact hs.charged_of_relays (System.sound_of_run hrun).books
      (System.relays_of_run hrun index part hpart hpath)
      (System.shows_of_run hrun part (List.mem_of_getElem? hpart)) hpath
  · have hserved := System.requested_of_run (P := fun request part =>
        request.Served config isHttpDate part ∧ part.Spent)
      (fun request => ⟨request.served_part config isHttpDate, fun entry hentry => by
        rw [Request.trace_part] at hentry
        cases hentry⟩)
      (fun request index sh part move sh' part' hs hP hstep =>
        ⟨hP.1.step hstep, hP.2.step hs hstep⟩) hrun hpart
    obtain ⟨request, -, hserved, hspent⟩ := hserved
    exact hs.charged_of_keeps (System.logged_of_run hrun index part hpart) (hserved.keeps hpath)
      hspent hpath

/-- **In every reachable state**, all attempts and finalizations are charged. -/
theorem System.charged_of_run {actions : List Action}
    (h : SystemRun config isHttpDate .init actions s) : s.AllOrdered Charged := by
  refine h.history (P := fun _ (s : System) => s.AllOrdered Charged) .init
    fun actions u action t hrun hu hstep => ?_
  have hsound := System.sound_of_run hrun
  refine hu.step_of hsound hstep fun index part move sh' part' hpart hmove => ?_
  exact (hsound.parts index part hpart).upholds hsound.books (List.getElem?_eq_some_iff.mp hpart).1
    (System.obeys_charged_of_run hrun hpart)
    (fun part' id attempt word _ htrace hcharged => hcharged.of_trace htrace)
    (fun part' entry id attempt word _ htrace hnot hcharged => hcharged.append htrace hnot) hmove

/-- The rows that a part has been told of are started or finalized. -/
def Part.Accounts (sh : Shared) (part : Part) : Prop :=
  ∀ row ∈ admissions part.trace, sh.Started row.id ∨ ∃ f ∈ sh.finalized, f.id = row.id

theorem System.Sound.accounts_step (hs : s.Sound) {action : Action}
    (h : systemStep config isHttpDate s action = some t)
    (haccounts : ∀ part ∈ s.parts, part.Accounts s.shared) :
    ∀ part ∈ t.parts, part.Accounts t.shared := by
  refine System.forall_parts_step (P := fun sh part => part.Accounts sh) h
    (fun part hpart row hrow => ?_) (fun request row hrow => ?_)
    (fun index part move part' hpart hmove hold row hrow => ?_) haccounts
  · obtain ⟨index, sh', hevolves, hledger, hfinalized⟩ := hs.evolves h
    rcases hpart row hrow with ⟨started, hledger', hstarted⟩ | ⟨f, hf, hid⟩
    · rcases hevolves.row_or_finalized hledger' with hkept | ⟨-, f, hf, hid⟩
      · exact .inl ⟨started, by rw [hledger]; exact hkept, hstarted⟩
      · exact .inr ⟨f, hfinalized ▸ hf, hid⟩
    · exact .inr ⟨f, hfinalized ▸ hevolves.finalized_subset hf, hid⟩
  · rw [Request.trace_part] at hrow
    cases hrow
  · obtain ⟨-, hsound⟩ := (hs.parts index part hpart).step config isHttpDate hs.books hmove
    obtain ⟨-, -, -, hgoes⟩ := goes_of_partStep hmove
    cases hgoes with
    | stays htrace | unfolds htrace => exact hold row (htrace ▸ hrow)
    | replies hop hperform hcode htrace =>
      rw [htrace, admissions, List.filterMap_append, List.mem_append] at hrow
      rcases hrow with hrow | hrow
      · exact hold row hrow
      · -- The row has just been inserted.
        obtain ⟨entry, hentry, hadmits⟩ := List.mem_filterMap.mp hrow
        obtain rfl := List.mem_singleton.mp hentry
        refine .inl (hsound.tracks.held row ?_)
        rw [htrace, viewOf_append]
        exact View.mem_held_of_admits hadmits

/-- **In every reachable state**, the rows that the parts have been told of are started or finalized. -/
theorem System.accounts_of_run {actions : List Action}
    (h : SystemRun config isHttpDate .init actions s) : ∀ part ∈ s.parts, part.Accounts s.shared :=
  (h.invariant (I := fun s : System => s.Sound ∧ ∀ part ∈ s.parts, part.Accounts s.shared)
    (fun _ _ _ hs hstep => ⟨hs.1.step hstep, hs.1.accounts_step hstep hs.2⟩)
    ⟨System.init_sound, fun _ h => by cases h⟩).2

theorem Incurs.mem_admissions (h : Incurs trace before row terminal) : row ∈ admissions trace := by
  obtain ⟨entry, after, rfl, -, hrow⟩ := h
  have hrows : row ∈ (viewOf before).rows := by
    rcases View.mem_care.mp hrow with hheld | hguarded
    · exact View.mem_rows.mpr (.inl hheld)
    · refine View.mem_rows.mpr (.inr (.inl ?_))
      cases hpending : (viewOf before).pending with
      | opened => simpa [hpending, Pending.guarded, Pending.rows] using hguarded
      | absent | closing => simp [hpending, Pending.guarded] at hguarded
  rw [admissions, List.filterMap_append]
  exact List.mem_append_left _ (Delivery.mem_admissions hrows)

/-- **A terminal event is charged to one row.** -/
theorem Incurs.unique {actions : List Action} {row' : Admitted} {terminal' : TerminalEvent}
    (hrun : SystemRun config isHttpDate .init actions s) (hpart : s.parts[index]? = some part)
    (h : Incurs part.trace before row terminal) (h' : Incurs part.trace before row' terminal') :
    row'.id = row.id ∧ terminal' = terminal := by
  obtain ⟨entry, after, heq, hobserve, hrow⟩ := h
  obtain ⟨entry', after', heq', hobserve', hrow'⟩ := h'
  obtain ⟨rfl, -⟩ := List.cons.inj (List.append_cancel_left (heq.symm.trans heq'))
  rw [hobserve] at hobserve'
  refine ⟨?_, by cases hobserve'; rfl⟩
  by_cases hpath : part.path = .webSocket
  · have hturns := (System.relays_of_run hrun index part hpart hpath).inTurn
    obtain ⟨-, hactive⟩ := active_of_incurs (heq ▸ hturns) hobserve hrow
    obtain ⟨-, hactive'⟩ := active_of_incurs (heq ▸ hturns) hobserve hrow'
    rw [hactive] at hactive'
    exact (InFlight.mk.inj (Option.some.inj hactive')).1.symm
  · have hmade := (System.logged_of_run hrun index part hpart).made before entry after heq
    obtain ⟨guarded, -, -, hcare⟩ :=
      View.care_of_listens hmade.pre hpath (listens_of_terminal hobserve)
    rw [hcare, List.mem_singleton] at hrow hrow'
    rw [hrow, hrow']

/-- **Terminal events are charged once.** In every reachable state, whatever all parts of the process
have done: a finalization with usage has charged its row for a terminal event that has come while the
row was in the care of its operation, at the rates of its admission. A terminal event that comes then
is charged to this row and no other; the row shows the charge, or it is an upstream error without
usage, or it is still started and, unless the store has failed, in somebody's care. -/
theorem charged_once {actions : List Action} (hrun : SystemRun config isHttpDate .init actions s) :
    (∀ f ∈ s.shared.finalized, f.attempt.usage ≠ none → ∃ index part before row terminal shown,
      s.shared.owners[f.id]? = some index ∧ s.parts[index]? = some part ∧
        Incurs part.trace before row terminal ∧ row.id = f.id ∧
        s.shared.ledger[f.id]? = some shown ∧ shown.Charges terminal row.model.rates) ∧
    ∀ (index : Nat) (part : Part) (before : List Entry) (row : Admitted) (terminal : TerminalEvent),
      s.parts[index]? = some part → Incurs part.trace before row terminal →
      s.shared.owners[row.id]? = some index ∧
      (∀ row' terminal', Incurs part.trace before row' terminal' →
        row'.id = row.id ∧ terminal' = terminal) ∧
      ∃ shown, s.shared.ledger[row.id]? = some shown ∧
        (shown.Charges terminal row.model.rates ∨ shown.Unaccounted ∨
          shown.status = .started ∧
            (part.storeFailed = false → part.running = true ∨ part.finalizing row.id = true)) := by
  have hs := System.sound_of_run hrun
  have hcharged := System.charged_of_run hrun
  -- A finalized row shows the charge that it has incurred.
  have hshows : ∀ f ∈ s.shared.finalized, ∀ index part before row terminal,
      s.shared.owners[f.id]? = some index → s.parts[index]? = some part →
      Incurs part.trace before row terminal → row.id = f.id →
      ∃ shown, s.shared.ledger[f.id]? = some shown ∧
        (shown.Charges terminal row.model.rates ∨ f.attempt.usage = none ∧ shown.Unaccounted) := by
    intro f hf index part before row terminal howner hpart hincurs hid
    obtain ⟨shown, hshown, hfinished⟩ := hs.books.finished f hf
    refine ⟨shown, hshown, ?_⟩
    rcases ((hcharged index part hpart).2 f hf howner).usage before row terminal hincurs hid with
      husage | ⟨hstatus, hnone⟩
    · exact .inl (hfinished.charges husage)
    · exact .inr ⟨hnone, hfinished.unaccounted hstatus hnone⟩
  refine ⟨fun f hf husage => ?_, fun index part before row terminal hpart hincurs => ?_⟩
  · obtain ⟨shown, hshown, -⟩ := hs.books.finished f hf
    obtain ⟨index, howner, hlt⟩ := hs.books.owner_of_row hshown
    have hpart := List.getElem?_eq_getElem hlt
    obtain ⟨before, row, terminal, hincurs, hid⟩ :=
      ((hcharged index _ hpart).2 f hf howner).incurred husage
    obtain ⟨shown, hshown, hcharges | ⟨hnone, -⟩⟩ :=
      hshows f hf index _ before row terminal howner hpart hincurs hid
    · exact ⟨index, _, before, row, terminal, shown, howner, hpart, hincurs, hid, hshown, hcharges⟩
    · exact absurd hnone husage
  · have hsound := hs.parts index part hpart
    have hadmitted := hincurs.mem_admissions
    obtain ⟨entry, hentry, hadmits⟩ := List.mem_filterMap.mp hadmitted
    have hmem : row.id ∈ (viewOf part.trace).ids := mem_ids_of_admits hentry hadmits
    have howner : s.shared.owners[row.id]? = some index := hsound.tracks.owner hmem
    refine ⟨howner, fun row' terminal' hincurs' => hincurs.unique hrun hpart hincurs', ?_⟩
    rcases System.accounts_of_run hrun part (List.mem_of_getElem? hpart) row hadmitted with
      hstarted | ⟨f, hf, hid⟩
    · obtain ⟨shown, hshown, hstatus⟩ := hstarted
      exact ⟨shown, hshown, .inr (.inr ⟨hstatus, hsound.inCare hmem ⟨shown, hshown, hstatus⟩⟩)⟩
    · obtain ⟨shown, hshown, hcharges⟩ :=
        hshows f hf index part before row terminal (hid ▸ howner) hpart hincurs hid.symm
      exact ⟨shown, hid ▸ hshown, hcharges.imp_right fun h => .inl h.2⟩

/-- The row of a Chat stream is charged for its terminal event. -/
theorem charged_once_stream : ∃ s f part before row terminal shown,
    SystemRun lowConfig (fun _ => false) .init streamActions s ∧ s.shared.finalized = [f] ∧
      s.parts = [part] ∧ Incurs part.trace before row terminal ∧
      s.shared.ledger[f.id]? = some shown ∧ shown.Charges terminal row.model.rates := by
  have hevaluated : (exec (systemStep lowConfig fun _ => false) .init streamActions).map (fun s =>
      (s.parts.length, s.shared.finalized.map (·.attempt.usage.isSome))) = some (1, [true]) := by
    decide +kernel
  obtain ⟨s, hs, heq⟩ := Option.map_eq_some_iff.mp hevaluated
  obtain ⟨hlength, hfinalized⟩ := Prod.mk.inj heq
  obtain ⟨part, hparts⟩ := List.length_eq_one_iff.mp hlength
  obtain ⟨f, hf, husage⟩ := List.map_eq_singleton_iff.mp hfinalized
  have hrun := run_ofFun_iff.mpr hs
  obtain ⟨index, part', before, row, terminal, shown, -, hpart, hincurs, -, hshown, hcharges⟩ :=
    (charged_once hrun).1 f (by rw [hf]; exact List.mem_singleton_self f)
      (by rw [← Option.isSome_iff_ne_none]; exact husage)
  have hmem : part' ∈ s.parts := List.mem_of_getElem? hpart
  rw [hparts, List.mem_singleton] at hmem
  exact ⟨s, f, part, before, row, terminal, shown, hrun, hf, hparts, hmem ▸ hincurs, hshown,
    hcharges⟩

end Delivery

end CodexApi
