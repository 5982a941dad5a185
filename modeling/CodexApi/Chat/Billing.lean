import CodexApi.Chat.Agreement
import CodexApi.Upstream.Recognition

/-!
# Terminal events can be converted and billed

The converters and the pricing of the ledger fail on a usage that is missing or inconsistent. No
terminal event of the upstream has one: whatever reaches them has passed `parseTerminalPayload`,
which gives it what `TerminalEvent.Carries` lists. So these errors never answer a request.
-/

namespace CodexApi

/-! ### The missing usage -/

/-- The message of the converters when there is no usage. -/
def missingUsage : String := "terminal response is missing usage"

/-- The error is about something else than a missing usage. -/
def ChatError.OtherThanUsage (error : ChatError) : Prop := error.message ≠ missingUsage

theorem ne_missingUsage {message : String} (h : message.toList.head? ≠ some 't') :
    message ≠ missingUsage := by
  rintro rfl
  exact h (by decide)

/-- A step whose own errors are about something else than a missing usage. -/
abbrev FailsOtherwise {α : Type} (x : Except ChatError α) : Prop :=
  FailsWith ChatError.OtherThanUsage x

theorem convertibleStatus_failsOtherwise (kind : TerminalKind) :
    FailsOtherwise (convertibleStatus kind) := by
  cases kind with
  | completed => exact .ok _
  | incomplete => exact .ok _
  | failed => exact .error (by decide : ("upstream emitted " ++ _ ++ _ : String) ≠ _)
  | error => exact .error (by decide : ("upstream emitted " ++ _ ++ _ : String) ≠ _)

theorem upstreamString_failsOtherwise {object : Value} {field context : String}
    (h : s!"{context}.{field} must be a string" ≠ missingUsage) :
    FailsOtherwise (upstreamString object field context) := by
  unfold upstreamString
  split
  · exact .ok _
  · exact .error h

theorem upstreamInteger_failsOtherwise {object : Value} {field context : String}
    (h : s!"{context}.{field} must be an integer" ≠ missingUsage) :
    FailsOtherwise (upstreamInteger object field context) := by
  unfold upstreamInteger
  split
  · exact .ok _
  · exact .error h

theorem incompleteFinishReason_failsOtherwise (response : Value) :
    FailsOtherwise (incompleteFinishReason response) := by
  refine FailsWith.bind (.okOr (by decide : _ ≠ missingUsage)) fun details => ?_
  refine FailsWith.bind (upstreamString_failsOtherwise (by decide)) fun reason => ?_
  split_ifs
  · exact .ok _
  · exact .ok _
  · refine .error (ne_missingUsage ?_)
    simp [toString, ChatError.upstream]

theorem captureMetadata_failsOtherwise (converter : ChatStreamConverter) (response : Value) :
    FailsOtherwise (converter.captureMetadata response) :=
  FailsWith.bind (upstreamString_failsOtherwise (by decide)) fun _ =>
    FailsWith.bind (upstreamInteger_failsOtherwise (by decide)) fun _ =>
      FailsWith.bind (upstreamString_failsOtherwise (by decide)) fun _ => .ok _

theorem getMetadata_failsOtherwise (converter : ChatStreamConverter) :
    FailsOtherwise converter.getMetadata := by
  unfold ChatStreamConverter.getMetadata
  split
  · exact .ok _
  · exact .error (by decide : _ ≠ missingUsage)

theorem usageChunks_failsOtherwise (converter : ChatStreamConverter) (usage : Usage) :
    FailsOtherwise (converter.usageChunks usage) := by
  have hchunk : FailsOtherwise (converter.usageChunk usage) :=
    FailsWith.bind (getMetadata_failsOtherwise converter) fun _ => .ok _
  unfold ChatStreamConverter.usageChunks
  split_ifs
  · cases h : converter.usageChunk usage with
    | ok chunk => exact .ok _
    | error error => exact .error (hchunk error h)
  · exact .ok _

/-- A failure is refused for its kind, before its usage is looked at. -/
theorem refused_failsOtherwise {α : Type} {kind : TerminalKind} (h : kind = .failed ∨ kind = .error)
    (rest : TerminalStatus → Except ChatError α) :
    FailsOtherwise (convertibleStatus kind >>= rest) := by
  have hrefused := convertibleStatus_failsOtherwise kind
  obtain ⟨error, herror⟩ : ∃ error, convertibleStatus kind = .error error := by
    rcases h with rfl | rfl
    · exact ⟨_, rfl⟩
    · exact ⟨_, rfl⟩
  rw [herror]
  exact .error (hrefused error herror)

/-- With a usage, `convertTerminal` never misses one. -/
theorem convertTerminal_failsOtherwise (converter : ChatStreamConverter) {terminal : TerminalEvent}
    (h : terminal.usage = none → terminal.kind = .failed ∨ terminal.kind = .error) :
    FailsOtherwise (converter.convertTerminal terminal) := by
  cases husage : terminal.usage with
  | none =>
    unfold ChatStreamConverter.convertTerminal
    exact refused_failsOtherwise (h husage) _
  | some usage =>
    unfold ChatStreamConverter.convertTerminal
    rw [husage]
    refine FailsWith.bind (convertibleStatus_failsOtherwise _) fun status => ?_
    refine FailsWith.bind (.okOr (by decide : _ ≠ missingUsage)) fun response => ?_
    refine FailsWith.bind (captureMetadata_failsOtherwise _ _) fun converter => ?_
    refine FailsWith.bind (.ok usage) fun usage => FailsWith.bind ?_ fun finishReason => ?_
    · cases status with
      | completed => exact .ok _
      | incomplete => exact incompleteFinishReason_failsOtherwise response
    · have hchunk : FailsOtherwise (converter.chunk (json []) (some finishReason)) :=
        FailsWith.bind (getMetadata_failsOtherwise converter) fun _ => .ok _
      exact FailsWith.bind hchunk fun _ =>
        FailsWith.bind (usageChunks_failsOtherwise converter usage) fun _ => .ok _

theorem convertOutputPart_failsOtherwise (itemIndex contentIndex : Nat) (part : Value)
    (converted : ConvertedOutput) :
    FailsOtherwise (convertOutputPart itemIndex contentIndex part converted) := by
  refine FailsWith.bind (.failIf (ne_missingUsage ?_)) fun _ => ?_
  · simp [toString, ChatError.upstream]
  refine FailsWith.bind (upstreamString_failsOtherwise (by decide)) fun kind => ?_
  split_ifs
  · exact FailsWith.bind (upstreamString_failsOtherwise (by decide)) fun _ => .ok _
  · exact FailsWith.bind (upstreamString_failsOtherwise (by decide)) fun _ => .ok _
  · refine .error (ne_missingUsage ?_)
    simp [toString, ChatError.upstream]

theorem convertOutputParts_failsOtherwise (itemIndex : Nat) (parts : List Value) :
    ∀ contentIndex converted,
      FailsOtherwise (convertOutputParts itemIndex contentIndex parts converted) := by
  induction parts with
  | nil => exact fun _ _ => .ok _
  | cons part parts ih =>
    exact fun contentIndex converted =>
      FailsWith.bind (convertOutputPart_failsOtherwise itemIndex contentIndex part converted)
        fun converted => ih _ converted

theorem convertOutputItem_failsOtherwise (index : Nat) (item : Value) (converted : ConvertedOutput) :
    FailsOtherwise (convertOutputItem index item converted) := by
  refine FailsWith.bind (.failIf (ne_missingUsage ?_)) fun _ => ?_
  · simp [toString, ChatError.upstream]
  refine FailsWith.bind (upstreamString_failsOtherwise (by decide)) fun kind => ?_
  split_ifs
  · exact .ok _
  · exact FailsWith.bind (upstreamString_failsOtherwise (by decide)) fun _ =>
      FailsWith.bind (.failIf (by decide : _ ≠ missingUsage)) fun _ =>
        FailsWith.bind (.okOr (by decide : _ ≠ missingUsage)) fun content =>
          convertOutputParts_failsOtherwise index content 0 converted
  · exact FailsWith.bind (upstreamString_failsOtherwise (by decide)) fun _ =>
      FailsWith.bind (upstreamString_failsOtherwise (by decide)) fun _ =>
        FailsWith.bind (upstreamString_failsOtherwise (by decide)) fun _ => .ok _
  · refine .error (ne_missingUsage ?_)
    simp [toString, ChatError.upstream]

theorem convertOutputItems_failsOtherwise (items : List Value) :
    ∀ index converted, FailsOtherwise (convertOutputItems index items converted) := by
  induction items with
  | nil => exact fun _ _ => .ok _
  | cons item items ih =>
    exact fun index converted =>
      FailsWith.bind (convertOutputItem_failsOtherwise index item converted)
        fun converted => ih _ converted

/-- With a usage, `convertTerminalEvent` never misses one. -/
theorem convertTerminalEvent_failsOtherwise {terminal : TerminalEvent}
    (h : terminal.usage = none → terminal.kind = .failed ∨ terminal.kind = .error) :
    FailsOtherwise (convertTerminalEvent terminal) := by
  cases husage : terminal.usage with
  | none =>
    unfold convertTerminalEvent
    exact refused_failsOtherwise (h husage) _
  | some usage =>
    unfold convertTerminalEvent
    rw [husage]
    refine FailsWith.bind (convertibleStatus_failsOtherwise _) fun status => ?_
    refine FailsWith.bind (.failIf (by decide : _ ≠ missingUsage)) fun _ => ?_
    refine FailsWith.bind (.okOr (by decide : _ ≠ missingUsage)) fun response => ?_
    refine FailsWith.bind (upstreamString_failsOtherwise (by decide)) fun object => ?_
    refine FailsWith.bind (.failIf (by decide : _ ≠ missingUsage)) fun _ => ?_
    refine FailsWith.bind (upstreamString_failsOtherwise (by decide)) fun id => ?_
    refine FailsWith.bind (.failIf (by decide : _ ≠ missingUsage)) fun _ => ?_
    refine FailsWith.bind (upstreamString_failsOtherwise (by decide)) fun model => ?_
    refine FailsWith.bind (.failIf (by decide : _ ≠ missingUsage)) fun _ => ?_
    refine FailsWith.bind (upstreamInteger_failsOtherwise (by decide)) fun created => ?_
    refine FailsWith.bind (.ok usage) fun usage => ?_
    refine FailsWith.bind (.okOr (by decide : _ ≠ missingUsage)) fun output => ?_
    refine FailsWith.bind (convertOutputItems_failsOtherwise output 0 _) fun converted => ?_
    refine FailsWith.bind ?_ fun finishReason => .ok _
    cases status with
    | completed => exact .ok _
    | incomplete => exact incompleteFinishReason_failsOtherwise response

/-! ### The events of the upstream -/

/-- Pricing a consistent usage never finds it invalid. -/
theorem calculateCostNanoUsd_ne_invalidUsage {usage : Usage} (h : usage.Consistent)
    (rates : ModelRates) :
    calculateCostNanoUsd (billableUsage usage rates) ≠ .error .invalidUsage := by
  have hcached : ¬ (billableUsage usage rates).inputTokens <
      (billableUsage usage rates).cachedInputTokens := UInt64.not_lt.mpr h.cached_le
  unfold calculateCostNanoUsd
  rw [if_neg hcached]
  simp only
  split
  · simp
  · split_ifs <;> simp

/-- What is promised about an event that was accepted as terminal: it carries what belongs to its
kind, neither converter misses its usage, and its usage has a price unless that is out of range. -/
structure TerminalEvent.Billable (terminal : TerminalEvent) : Prop where
  /-- The response and usage of its kind. -/
  carries : terminal.Carries
  /-- A stream can be ended with it, as far as its usage is concerned. -/
  convertTerminal (converter : ChatStreamConverter) :
    FailsOtherwise (converter.convertTerminal terminal)
  /-- A completion can be built from it, whatever items completed before. -/
  convertTerminalEvent (items : List Value) :
    FailsOtherwise (convertTerminalEvent (terminal.withOutputItems items))
  /-- Its usage is valid. -/
  price (rates : ModelRates) (usage : Usage) (h : terminal.usage = some usage) :
    calculateCostNanoUsd (billableUsage usage rates) ≠ .error .invalidUsage

/-- **Terminal recognition is complete and its usage is billable.** A record of a stream with a
terminal name is refused or a terminal event of that kind, and two names agree; what it becomes is
what its data parses to; and every event parsed from any payload is billable. -/
theorem terminals_recognized :
    (∀ record : SseRecord,
      (∀ kind, record.Names kind → ∀ outcome, validateEvent record = .ok outcome →
        ∃ terminal, outcome = some terminal ∧ terminal.kind = kind) ∧
      (∀ kind kind', record.Names kind → record.Names kind' → kind ≠ kind' →
        ∃ error, validateEvent record = .error error) ∧
      (∀ terminal, validateEvent record = .ok (some terminal) →
        ∃ payload, record.data = some payload ∧
          parseTerminalPayload payload = .ok (some terminal))) ∧
    ∀ payload terminal, parseTerminalPayload payload = .ok (some terminal) →
      terminal.Billable := by
  refine ⟨fun record => ⟨fun kind hnames outcome hok => validateEvent_of_names hnames hok, ?_,
    fun terminal hok => (validateEvent_eq_ok_some hok).1⟩, fun payload terminal hparsed => ?_⟩
  · intro kind kind' hnames hnames' hne
    cases hvalid : validateEvent record with
    | error error => exact ⟨error, rfl⟩
    | ok outcome =>
      obtain ⟨terminal, rfl, hkind⟩ := validateEvent_of_names hnames hvalid
      obtain ⟨terminal', hsame, hkind'⟩ := validateEvent_of_names hnames' hvalid
      cases hsame
      exact absurd (hkind.symm.trans hkind') hne
  have hcarries := carries_of_parse hparsed
  exact {
    carries := hcarries
    convertTerminal := fun converter => convertTerminal_failsOtherwise converter hcarries.usage
    convertTerminalEvent := by
      intro items
      apply convertTerminalEvent_failsOtherwise
      rw [TerminalEvent.kind_withOutputItems, TerminalEvent.usage_withOutputItems]
      exact hcarries.usage
    price := fun rates usage husage =>
      calculateCostNanoUsd_ne_invalidUsage (hcarries.consistent usage husage) rates }

/-- A failure reported without a name of its own, with the tokens it used. -/
private def failedRecord : SseRecord where
  event := "message"
  data := some (json [("type", .string "response.failed"),
    ("response", json [("status", .string "failed"),
      ("usage", json [("input_tokens", jsonInt 5), ("output_tokens", jsonInt 2),
        ("total_tokens", jsonInt 7)])])])

/-- The failure is recognised by its type. -/
theorem terminals_recognized_failed :
    ∃ terminal, validateEvent failedRecord = .ok (some terminal) ∧ terminal.kind = .failed ∧
      terminal.Billable := by
  have hnames : failedRecord.Names .failed := .inr ⟨_, rfl, by decide⟩
  have hvalid : validateEvent failedRecord =
      .ok (some ⟨.failed, failedRecord.data.getD .null, some ⟨5, 0, 2, 0, 7⟩⟩) := by decide
  obtain ⟨terminal, hsome, hkind⟩ :=
    (terminals_recognized.1 failedRecord).1 .failed hnames _ hvalid
  cases hsome
  exact ⟨_, hvalid, hkind, terminals_recognized.2 (failedRecord.data.getD .null) _ (by decide)⟩

end CodexApi
