import CodexApi.Chat.Grammar
import CodexApi.Lib.List
import Mathlib.Logic.Relator

/-!
# Histories one after the other

The conversion of a Chat history is a homomorphism: two histories are accepted one after the other
exactly when each is, and what they add to the Responses request then stands one after the other as
well. The input of a history is the items of its messages and its instructions are their system
texts, so nothing a message says is lost, doubled or moved.
-/

namespace CodexApi

open Relator

/-! ### A value says one message -/

theorem rightUnique_isTextPart : RightUnique IsTextPart := by
  rintro part text text' ⟨object, hobject, -, htext, -⟩ ⟨object', hobject', -, htext', -⟩
  obtain rfl : object = object' := Option.some.inj (hobject.symm.trans hobject')
  have hsame := htext.symm.trans htext'
  simpa using hsame

theorem rightUnique_isContent : RightUnique IsContent := by
  intro content texts texts' h h'
  cases h with
  | string text =>
    cases h'
    rfl
  | parts _ hparts =>
    cases h' with
    | parts _ hparts' => exact rightUnique_isTextPart.forall₂ hparts hparts'

theorem rightUnique_isToolCall : RightUnique IsToolCall := by
  rintro value ⟨id, name, arguments⟩ ⟨id', name', arguments'⟩
    ⟨object, function, functionValue, hobject, hid, -, hvalue, -, hfunction, hname, harguments, -⟩
    ⟨object', function', functionValue', hobject', hid', -, hvalue', -, hfunction', hname',
      harguments', -⟩
  obtain rfl : object = object' := Option.some.inj (hobject.symm.trans hobject')
  obtain rfl : functionValue = functionValue' := Option.some.inj (hvalue.symm.trans hvalue')
  obtain rfl : function = function' := Option.some.inj (hfunction.symm.trans hfunction')
  have hids := hid.symm.trans hid'
  have hnames := hname.symm.trans hname'
  have hall := harguments.symm.trans harguments'
  simp_all

theorem rightUnique_isAssistantContent : RightUnique IsAssistantContent := by
  intro found texts texts' h h'
  unfold IsAssistantContent at h h'
  cases hfound : found.filter (!·.isNull) with
  | none =>
    rw [hfound] at h h'
    exact h.trans h'.symm
  | some content =>
    rw [hfound] at h h'
    obtain ⟨read, hread, rfl⟩ := h
    obtain ⟨read', hread', rfl⟩ := h'
    rw [rightUnique_isContent hread hread']

theorem rightUnique_isToolCalls : RightUnique IsToolCalls := by
  intro found calls calls' h h'
  unfold IsToolCalls at h h'
  cases hfound : found.filter (!·.isNull) with
  | none =>
    rw [hfound] at h h'
    exact h.trans h'.symm
  | some value =>
    rw [hfound] at h h'
    obtain ⟨values, rfl, -, hvalues⟩ := h
    obtain ⟨values', hsame, -, hvalues'⟩ := h'
    cases hsame
    exact rightUnique_isToolCall.forall₂ hvalues hvalues'

theorem rightUnique_readsAs (object : Object) {message message' : ChatMessage}
    (h : object.ReadsAs message) (h' : object.ReadsAs message') : message = message' := by
  have hroles : message.role = message'.role := by
    have hsame := h.role.symm.trans h'.role
    simpa using hsame
  have hcontents {content content' : Value} (hcontent : object.get "content" = some content)
      (hcontent' : object.get "content" = some content') : content = content' :=
    Option.some.inj (hcontent.symm.trans hcontent')
  cases h with
  | system _ hcontent htexts _ =>
    cases h' with
    | system _ hcontent' htexts' _ =>
      obtain rfl := hcontents hcontent hcontent'
      rw [rightUnique_isContent htexts htexts']
    | prompt _ hknown _ _ _ =>
      rcases hknown with rfl | rfl <;> simp [ChatMessage.role] at hroles
    | assistant | tool => simp [ChatMessage.role] at hroles
  | prompt _ hknown hcontent htexts _ =>
    cases h' with
    | prompt _ _ hcontent' htexts' _ =>
      obtain rfl := hcontents hcontent hcontent'
      rw [rightUnique_isContent htexts htexts']
      exact congrArg (ChatMessage.prompt · _) hroles
    | system | assistant | tool =>
      rcases hknown with rfl | rfl <;> simp [ChatMessage.role] at hroles
  | assistant _ hcontent hcalls _ _ =>
    cases h' with
    | assistant _ hcontent' hcalls' _ _ =>
      rw [rightUnique_isAssistantContent hcontent hcontent',
        rightUnique_isToolCalls hcalls hcalls']
    | prompt _ hknown _ _ _ =>
      rcases hknown with rfl | rfl <;> simp [ChatMessage.role] at hroles
    | system | tool => simp [ChatMessage.role] at hroles
  | tool _ hcallId hcontent houtput _ =>
    cases h' with
    | tool _ hcallId' hcontent' houtput' _ =>
      obtain rfl := hcontents hcontent hcontent'
      have hids := hcallId.symm.trans hcallId'
      rw [rightUnique_isContent houtput houtput']
      simpa using hids
    | prompt _ hknown _ _ _ =>
      rcases hknown with rfl | rfl <;> simp [ChatMessage.role] at hroles
    | system | assistant => simp [ChatMessage.role] at hroles

/-- **A value says at most one message.** -/
theorem rightUnique_reads : RightUnique Value.Reads := by
  rintro value message message' ⟨object, hobject, h⟩ ⟨object', hobject', h'⟩
  obtain rfl : object = object' := Option.some.inj (hobject.symm.trans hobject')
  exact rightUnique_readsAs object h h'

/-! ### Appending -/

theorem forall₂_append_iff {values values' : List Value} {messages : List ChatMessage} :
    List.Forall₂ Value.Reads (values ++ values') messages ↔
      ∃ first second, List.Forall₂ Value.Reads values first ∧
        List.Forall₂ Value.Reads values' second ∧ messages = first ++ second := by
  constructor
  · intro h
    refine ⟨messages.take values.length, messages.drop values.length, ?_, ?_,
      (List.take_append_drop _ _).symm⟩
    · simpa using List.forall₂_take values.length h
    · simpa using List.forall₂_drop values.length h
  · rintro ⟨first, second, hfirst, hsecond, rfl⟩
    exact List.rel_append hfirst hsecond

/-- Only a system message adds to the instructions. -/
theorem ChatMessage.systemTexts_eq_nil_iff (message : ChatMessage) {value : Value}
    (h : value.Reads message) : message.systemTexts = [] ↔ message.role ≠ "system" := by
  obtain ⟨object, -, hreads⟩ := h
  cases hreads with
  | prompt _ hknown _ _ _ =>
    rcases hknown with rfl | rfl <;> simp [systemTexts, role]
  | system | assistant | tool => simp [systemTexts, role]

theorem joinLines_eq_none_iff {texts : List String} : joinLines texts = none ↔ texts = [] := by
  cases texts <;> simp [joinLines]

/-- A system message and a message of the user in two parts. -/
def openingMessages : List Value :=
  [json [("role", .string "system"), ("content", .string "Be brief.")],
    json [("role", .string "user"), ("content", .array
      [json [("type", .string "text"), ("text", .string "Look up")],
        json [("type", .string "text"), ("text", .string "Lean.")]])]]

/-- A tool call and its result. -/
def toolMessages : List Value :=
  [json [("role", .string "assistant"), ("content", .null), ("tool_calls", .array
      [FunctionCall.toolCall ⟨"call_1", "lookup", "[]"⟩])],
    json [("role", .string "tool"), ("tool_call_id", .string "call_1"),
      ("content", .string "A prover.")]]

end CodexApi
