import CodexApi.Chat.RoundTrip
import CodexApi.Delivery.LedgerClosure

/-!
# Commit before deliver

A part that is about to pass on a successful terminal event has booked it: the row of its request
shows the status, the tokens and the cost of exactly this event, by a first attempt that was ordered
after the event came. A row that needed a second attempt is an upstream error without usage, and no
row changes once it is committed.
-/

namespace CodexApi

/-- The row shows a terminal event: its status, its token counts, and their cost at some rates. -/
structure Row.Commits (row : Row) (terminal : TerminalEvent) (rates : ModelRates) : Prop where
  status : row.status = .final terminal.kind.finalStatus
  inputTokens : row.inputTokens = terminal.usage.map (·.inputTokens.toNat)
  cachedInputTokens : row.cachedInputTokens = terminal.usage.map (·.cachedInputTokens.toNat)
  outputTokens : row.outputTokens = terminal.usage.map (·.outputTokens.toNat)
  isSome_cost : row.costNanoUsd.isSome = terminal.usage.isSome
  cost : ∀ usage ∈ terminal.usage, ∀ cost ∈ row.costNanoUsd,
    calculateCostNanoUsd (billableUsage usage rates) = .ok cost

/-- The row is an upstream error without usage. -/
structure Row.Unaccounted (row : Row) : Prop where
  status : row.status = .final .upstreamError
  inputTokens : row.inputTokens = none
  cachedInputTokens : row.cachedInputTokens = none
  outputTokens : row.outputTokens = none
  costNanoUsd : row.costNanoUsd = none

variable {row : Row} {attempt : Delivery.Attempt} {terminal : TerminalEvent} {rates : ModelRates}

/-- What a charge says. -/
theorem charge_eq_ok {usage : BillableUsage} {charged : Charge} (h : charge usage = .ok charged) :
    charged.inputTokens = usage.inputTokens.toNat ∧
      charged.cachedInputTokens = usage.cachedInputTokens.toNat ∧
      charged.outputTokens = usage.outputTokens.toNat ∧
      calculateCostNanoUsd usage = .ok charged.costNanoUsd := by
  obtain ⟨input, hinput, h⟩ := bind_eq_ok.mp h
  obtain ⟨cached, hcached, h⟩ := bind_eq_ok.mp h
  obtain ⟨output, houtput, h⟩ := bind_eq_ok.mp h
  obtain ⟨cost, hcost, h⟩ := bind_eq_ok.mp h
  cases h
  exact ⟨tokenCount_eq_ok hinput, tokenCount_eq_ok hcached, tokenCount_eq_ok houtput, hcost⟩

theorem chargeOption_some_eq_ok {usage : BillableUsage} {charged : Option Charge}
    (h : chargeOption (some usage) = .ok charged) :
    ∃ charged', charge usage = .ok charged' ∧ charged = some charged' := by
  rw [chargeOption] at h
  cases hcharge : charge usage with
  | error error =>
    rw [hcharge] at h
    cases h
  | ok charged' =>
    rw [hcharge] at h
    cases h
    exact ⟨charged', rfl, rfl⟩

theorem Row.FinishedBy.commits (h : row.FinishedBy attempt)
    (hstatus : attempt.status = terminal.kind.finalStatus)
    (husage : attempt.usage = Delivery.terminalUsage terminal rates) :
    row.Commits terminal rates := by
  obtain ⟨charge, hcharge, hinput, hcached, houtput, hcost⟩ := h.charged
  rw [husage, Delivery.terminalUsage] at hcharge
  have hrow : row.status = .final terminal.kind.finalStatus := hstatus ▸ h.status
  cases hterminal : terminal.usage with
  | none =>
    rw [hterminal] at hcharge
    cases hcharge
    exact ⟨hrow, by rw [hinput, hterminal]; rfl, by rw [hcached, hterminal]; rfl,
      by rw [houtput, hterminal]; rfl, by rw [hcost, hterminal]; rfl,
      fun usage h => by rw [hterminal] at h; cases h⟩
  | some usage =>
    rw [hterminal] at hcharge
    obtain ⟨charged, hcharged, rfl⟩ := chargeOption_some_eq_ok hcharge
    obtain ⟨hinput', hcached', houtput', hcost'⟩ := charge_eq_ok hcharged
    refine ⟨hrow, ?_, ?_, ?_, by rw [hcost, hterminal]; rfl, ?_⟩
    · rw [hinput, hterminal]
      exact congrArg some hinput'
    · rw [hcached, hterminal]
      exact congrArg some hcached'
    · rw [houtput, hterminal]
      exact congrArg some houtput'
    · intro usage' husage' cost hmem
      rw [hterminal] at husage'
      rw [hcost] at hmem
      cases husage'
      cases hmem
      exact hcost'

theorem Row.FinishedBy.unaccounted (h : row.FinishedBy attempt)
    (hstatus : attempt.status = .upstreamError) (husage : attempt.usage = none) :
    row.Unaccounted := by
  obtain ⟨charge, hcharge, hinput, hcached, houtput, hcost⟩ := h.charged
  rw [husage] at hcharge
  cases hcharge
  exact ⟨hstatus ▸ h.status, hinput, hcached, houtput, hcost⟩

namespace Delivery

open Transition

/-! ### What is about to be sent -/

/-- The terminal event that an effect passes on to the client. -/
def Effect.delivers : Effect → Option TerminalEvent
  | send item | deliver item => item.terminal
  | answer (.completion terminal _) => some terminal
  | select _ effect => effect.delivers
  | _ => none

/-- The terminal event that a part is about to pass on to its client. -/
def Part.delivering (part : Part) : Option TerminalEvent :=
  match part.code with
  | some (.op effect _) => effect.delivers
  | _ => none

variable {path : ApiPath} {v : View} {effect : Effect} {sh : Shared} {index : Nat} {part : Part}
  {config : Config} {isHttpDate : String → Bool} {s t : System}

/-- **The contract lets a successful terminal event through only when it is booked.** -/
theorem View.covers_of_needs (h : v.Needs path effect) (hdelivers : effect.delivers = some terminal)
    (hsucceeds : terminal.succeeds = true) : v.Covers terminal := by
  cases effect with
  | send item | deliver item => exact h terminal hdelivers hsucceeds
  | answer answer =>
    cases answer with
    | error | stream => cases hdelivers
    | completion terminal' body =>
      cases hdelivers
      exact h.2
  | select closable effect =>
    obtain ⟨-, hwaits⟩ := h
    cases effect with
    | send item => exact hwaits terminal hdelivers hsucceeds
    | select closable' effect =>
      cases effect with
      | next => cases hdelivers
      | _ => exact hwaits.elim
    | deliver | answer => exact hwaits.elim
    | _ => cases hdelivers
  | _ => cases hdelivers

theorem Part.exists_code_of_delivering (h : part.delivering = some terminal) :
    ∃ effect next, part.code = some (.op effect next) ∧ effect.delivers = some terminal := by
  unfold Part.delivering at h
  split at h
  · rename_i effect next hcode
    exact ⟨effect, next, hcode, h⟩
  · cases h

theorem TerminalEvent.finalStatus_of_succeeds (h : terminal.succeeds = true) :
    terminal.kind.finalStatus ≠ .upstreamError := by
  cases hkind : terminal.kind <;> simp [TerminalEvent.succeeds, hkind, TerminalKind.finalStatus] at h ⊢

/-- **What a part is about to pass on is booked** by a first attempt that was ordered after it
came, on a row of the part. -/
theorem Part.Sound.booked_of_delivering (hs : part.Sound sh index)
    (hdelivering : part.delivering = some terminal) (hsucceeds : terminal.succeeds = true) :
    ∃ f ∈ sh.finalized, ∃ model, sh.owners[f.id]? = some index ∧
      ⟨f.id, model⟩ ∈ admissions part.trace ∧ f.word.cause = .terminal terminal ∧
      f.retry = false ∧ f.attempt.status = terminal.kind.finalStatus ∧
      f.attempt.usage = terminalUsage terminal model.rates := by
  obtain ⟨effect, next, hcode, hdelivers⟩ := Part.exists_code_of_delivering hdelivering
  obtain ⟨-, hcause, row, attempt, hclosure, hstatus, husage⟩ :=
    View.covers_of_needs (hs.pre hcode).1 hdelivers hsucceeds
  have hin := hs.tracks.closure
  unfold ClosureIn at hin
  rw [hclosure] at hin
  obtain ⟨hid, f, hf, hrow, rfl, hword⟩ := hin
  have howner : sh.owners[f.id]? = some index := hrow ▸ hs.tracks.owner hid
  have hadmitted : row ∈ admissions part.trace :=
    mem_admissions (View.mem_rows.mpr (.inr (.inr ⟨_, hclosure, List.mem_singleton_self row⟩)))
  refine ⟨f, hf, row.model, howner, hrow ▸ hadmitted, hword terminal hcause, ?_, hstatus, husage⟩
  rw [← Bool.not_eq_true]
  intro hretry
  have hfailed := ((hs.tracks.finalized f hf howner).2.retry hretry).1
  exact TerminalEvent.finalStatus_of_succeeds hsucceeds (hstatus.symm.trans hfailed)

/-- A finalization fits what its operation had been told. -/
theorem System.Sound.fits (hs : s.Sound) {f : Finalization} (hf : f ∈ s.shared.finalized) :
    ∃ path, f.Fits path := by
  obtain ⟨row, hrow, -⟩ := hs.books.finished f hf
  obtain ⟨index, howner, hlt⟩ := hs.books.owner_of_row hrow
  have hpart := List.getElem?_eq_getElem hlt
  exact ⟨_, ((hs.parts index _ hpart).tracks.finalized f hf howner).2⟩

/-- The frame of the terminal event of `greeting`. -/
def greetingFrame : TextFrame := ⟨"greeting", some greetingPayload⟩

/-- A request of a WebSocket session is admitted, prewarmed, sent and answered. -/
def greetActions : List Action :=
  [.start (.webSocket lowIdentity), .part 0 .unfold,
    .part 0 (.reply (.event (.downstream (.text ⟨"create", some plainCreate.toValue⟩)))),
    .part 0 (.reply (.time midnight)), .part 0 (.reply .done), .part 0 .execute,
    .part 0 (.reply .done), .part 0 (.reply (.model (some (some CodexApi.liteModel)))),
    .part 0 (.reply (.bool true)), .part 0 (.reply (.events [.text (some greetingPayload)])),
    .part 0 (.reply (.bool true)), .part 0 .unfold,
    .part 0 (.reply (.event (.upstream (.text greetingFrame)))), .part 0 (.reply (.time midnight))]

end Delivery

end CodexApi
