import CodexApi.Upstream.Terminal

/-!
# What a terminal event is

`parse_eq_ok_some` says exactly which payloads `parseTerminalPayload` accepts and what it makes of
them, and `validateEvent_of_names` that no record with a terminal name passes as something else.
Whoever gets a terminal event can then rely on what it carries (`TerminalEvent.Carries`): the
response with its status, and a usage that can be priced.
-/

namespace CodexApi

/-! ### Usages -/

/-- A usage whose parts do not exceed what they are part of. -/
structure Usage.Consistent (usage : Usage) : Prop where
  /-- Cached input is input. -/
  cached_le : usage.cachedInputTokens ≤ usage.inputTokens
  /-- Reasoning is output. -/
  reasoning_le : usage.reasoningTokens ≤ usage.outputTokens

variable {payload value response : Value} {kind : TerminalKind} {terminal : TerminalEvent}
  {usage : Usage}

theorem usageOfValue_consistent (h : usageOfValue value kind = .ok usage) : usage.Consistent := by
  unfold usageOfValue at h
  split at h
  · cases h
  · -- the five counts are read before they are compared
    obtain ⟨inputTokens, -, h⟩ := bind_eq_ok.mp h
    obtain ⟨outputTokens, -, h⟩ := bind_eq_ok.mp h
    obtain ⟨totalTokens, -, h⟩ := bind_eq_ok.mp h
    obtain ⟨cachedInputTokens, -, h⟩ := bind_eq_ok.mp h
    obtain ⟨reasoningTokens, -, h⟩ := bind_eq_ok.mp h
    by_cases hcached : inputTokens < cachedInputTokens
    · rw [if_pos hcached] at h
      cases h
    · rw [if_neg hcached] at h
      by_cases hreasoning : outputTokens < reasoningTokens
      · rw [if_pos hreasoning] at h
        cases h
      · rw [if_neg hreasoning] at h
        cases h
        exact ⟨UInt64.not_lt.mp hcached, UInt64.not_lt.mp hreasoning⟩

/-- Only a failed response may go without a usage. -/
theorem parseUsage_none (h : parseUsage response kind = .ok none) : kind = .failed := by
  unfold parseUsage at h
  split at h
  · split_ifs at h with hkind
    exact hkind
  · next usage _ =>
    cases hvalue : usageOfValue usage kind with
    | error e =>
      rw [hvalue] at h
      cases h
    | ok usage =>
      rw [hvalue] at h
      cases h

theorem parseUsage_consistent (h : parseUsage response kind = .ok (some usage)) :
    usage.Consistent := by
  unfold parseUsage at h
  split at h
  · split_ifs at h
    cases h
  · next value _ =>
    cases hvalue : usageOfValue value kind with
    | error e =>
      rw [hvalue] at h
      cases h
    | ok usage' =>
      rw [hvalue] at h
      cases h
      exact usageOfValue_consistent hvalue

/-! ### Payloads -/

/-- What the response of a terminal event has to be, if its kind has one. -/
def ResponseFits (payload : Value) (kind : TerminalKind) (usage : Option Usage) : Prop :=
  match kind.responseStatus with
  | none => usage = none
  | some status => ∃ response, payload.get "response" = some response ∧
      response.isObject = true ∧ response.get "status" = some (.string status) ∧
      parseUsage response kind = .ok usage

/-- **What `parseTerminalPayload` accepts**, and what it makes of it. -/
theorem parse_eq_ok_some : parseTerminalPayload payload = .ok (some terminal) ↔
    payload.get "type" = some (.string terminal.kind.eventName) ∧
      terminal.payload = payload ∧ ResponseFits payload terminal.kind terminal.usage := by
  obtain ⟨kind, own, usage⟩ := terminal
  constructor
  · intro h
    obtain ⟨hpayload, htype⟩ := terminal_of_parse h
    refine ⟨htype, hpayload, ?_⟩
    have hname : TerminalKind.fromName kind.eventName = some kind :=
      TerminalKind.fromName_eq_some.mpr rfl
    simp only [parseTerminalPayload, htype, Option.bind_some, Value.asStr, hname] at h
    unfold ResponseFits
    cases hstatus : kind.responseStatus with
    | none =>
      simp only [hstatus, Except.ok.injEq, Option.some.injEq, TerminalEvent.mk.injEq] at h
      exact h.2.2.symm
    | some status =>
      simp only [hstatus] at h
      split at h
      · next response hresponse =>
        obtain ⟨hget, hobject⟩ := Option.filter_eq_some_iff.mp hresponse
        split at h
        · next status' hread =>
          obtain ⟨value, hvalue, hstr⟩ := Option.bind_eq_some_iff.mp hread
          split_ifs at h with hne
          · cases h
          · obtain ⟨usage', husage, h⟩ := bind_eq_ok.mp h
            cases h
            rw [not_not] at hne
            rw [Value.asStr_eq_some_iff.mp hstr, hne] at hvalue
            exact ⟨response, hget, hobject, hvalue, husage⟩
        · cases h
      · cases h
  · rintro ⟨htype, rfl, hfits⟩
    have hname : TerminalKind.fromName kind.eventName = some kind :=
      TerminalKind.fromName_eq_some.mpr rfl
    simp only [parseTerminalPayload, htype, Option.bind_some, Value.asStr, hname]
    unfold ResponseFits at hfits
    cases hstatus : kind.responseStatus with
    | none =>
      simp only [hstatus] at hfits
      simp only [hfits]
    | some status =>
      simp only [hstatus] at hfits
      obtain ⟨response, hresponse, hobject, hread, husage⟩ := hfits
      simp [hresponse, hobject, hread, husage, Option.filter, Value.asStr]

/-- What a terminal event carries: a completed or incomplete response its status and a usage, a
failed one its status, and a bare error no usage. Every usage can be priced. -/
structure TerminalEvent.Carries (terminal : TerminalEvent) : Prop where
  /-- The response has the status of the event's kind. -/
  response : ∀ status, terminal.kind.responseStatus = some status →
    ∃ response, terminal.payload.get "response" = some response ∧ response.isObject = true ∧
      response.get "status" = some (.string status)
  /-- Only a failure goes without a usage. -/
  usage : terminal.usage = none → terminal.kind = .failed ∨ terminal.kind = .error
  /-- A bare error has none. -/
  error : terminal.kind = .error → terminal.usage = none
  /-- A usage is consistent. -/
  consistent : ∀ usage, terminal.usage = some usage → usage.Consistent

/-- **Every accepted terminal event carries what belongs to its kind.** -/
theorem carries_of_parse (h : parseTerminalPayload payload = .ok (some terminal)) :
    terminal.Carries := by
  obtain ⟨-, hpayload, hfits⟩ := parse_eq_ok_some.mp h
  unfold ResponseFits at hfits
  cases hstatus : terminal.kind.responseStatus with
  | none =>
    have hkind : terminal.kind = .error := by
      cases hkind : terminal.kind <;> simp_all [TerminalKind.responseStatus]
    simp only [hstatus] at hfits
    exact {
      response := by simp [hstatus]
      usage := fun _ => .inr hkind
      error := fun _ => hfits
      consistent := by simp [hfits] }
  | some status =>
    simp only [hstatus] at hfits
    obtain ⟨response, hresponse, hobject, hread, husage⟩ := hfits
    exact {
      response := by
        intro status' h'
        rw [hstatus, Option.some.injEq] at h'
        subst h'
        exact ⟨response, hpayload ▸ hresponse, hobject, hread⟩
      usage := fun hnone => .inl (parseUsage_none (hnone ▸ husage))
      error := by
        intro hkind
        rw [hkind] at hstatus
        cases hstatus
      consistent := fun usage hsome => parseUsage_consistent (hsome ▸ husage) }

/-! ### Records -/

/-- A record of a stream carries a terminal name: its own, or the type of its data. -/
def SseRecord.Names (record : SseRecord) (kind : TerminalKind) : Prop :=
  record.event = kind.eventName ∨
    ∃ payload, record.data = some payload ∧ payload.get "type" = some (.string kind.eventName)

variable {record : SseRecord}

/-- A terminal event of a stream is one its data parses to, under a name that agrees. -/
theorem validateEvent_eq_ok_some (h : validateEvent record = .ok (some terminal)) :
    (∃ payload, record.data = some payload ∧
      parseTerminalPayload payload = .ok (some terminal)) ∧
    ∀ kind, record.event = kind.eventName → kind = terminal.kind := by
  unfold validateEvent at h
  cases hdata : record.data with
  | none =>
    rw [hdata] at h
    simp only at h
    split_ifs at h
    cases h
  | some payload =>
    rw [hdata] at h
    obtain ⟨parsed, hparsed, h⟩ := bind_eq_ok.mp h
    cases hevent : TerminalKind.fromName record.event with
    | none =>
      rw [hevent] at h
      cases h
      refine ⟨⟨payload, rfl, hparsed⟩, fun kind hkind => ?_⟩
      rw [TerminalKind.fromName_eq_some.mpr hkind] at hevent
      cases hevent
    | some eventKind =>
      rw [hevent] at h
      cases parsed with
      | none => cases h
      | some parsed =>
        simp only at h
        split_ifs at h with hne
        · cases h
        · cases h
          rw [not_not] at hne
          refine ⟨⟨payload, rfl, hparsed⟩, fun kind hkind => ?_⟩
          rw [TerminalKind.fromName_eq_some.mpr hkind, Option.some.injEq] at hevent
          rw [hevent, hne]

/-- **Terminal names are recognised.** A record with a terminal name is never taken for another
event: it is refused, or it is a terminal event of that kind. -/
theorem validateEvent_of_names (h : record.Names kind) {outcome : Option TerminalEvent}
    (hok : validateEvent record = .ok outcome) :
    ∃ terminal, outcome = some terminal ∧ terminal.kind = kind := by
  cases outcome with
  | some terminal =>
    obtain ⟨⟨payload, hdata, hparsed⟩, hagree⟩ := validateEvent_eq_ok_some hok
    refine ⟨terminal, rfl, ?_⟩
    obtain hevent | ⟨payload', hdata', htype⟩ := h
    · exact (hagree kind hevent).symm
    · rw [hdata, Option.some.injEq] at hdata'
      subst hdata'
      have hown := (terminal_of_parse hparsed).2
      rw [htype, Option.some.injEq, Value.string.injEq] at hown
      have hname := TerminalKind.fromName_eq_some.mpr hown.symm
      rw [TerminalKind.fromName_eq_some.mpr rfl, Option.some.injEq] at hname
      exact hname
  | none =>
    -- nothing terminal came out, so neither the event nor the type has a terminal name
    exfalso
    unfold validateEvent at hok
    obtain hevent | ⟨payload, hdata, htype⟩ := h
    · have hname := TerminalKind.fromName_eq_some.mpr hevent
      cases hdata : record.data with
      | none =>
        rw [hdata, hname] at hok
        cases hok
      | some payload =>
        rw [hdata, hname] at hok
        obtain ⟨parsed, -, hok⟩ := bind_eq_ok.mp hok
        cases parsed with
        | none => cases hok
        | some parsed =>
          simp only at hok
          split_ifs at hok
          · cases hok
          · cases hok
    · rw [hdata] at hok
      obtain ⟨parsed, hparsed, hok⟩ := bind_eq_ok.mp hok
      cases parsed with
      | none => exact type_of_parse_none hparsed kind htype
      | some parsed =>
        cases hevent : TerminalKind.fromName record.event with
        | none =>
          rw [hevent] at hok
          cases hok
        | some eventKind =>
          rw [hevent] at hok
          simp only at hok
          split_ifs at hok
          · cases hok
          · cases hok

end CodexApi
