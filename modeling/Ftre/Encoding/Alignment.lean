import Ftre.Llm.Normalize
import Ftre.Encoding.Pieces

/-!
When two lists of chat messages read the same once both are normalised: message by
message, up to assistant messages one side has and nobody would see.
-/

namespace Ftre.Encoding

open Lib Message Llm

/-! ### What is compared -/

def contentText : ChatContent → String
  | .text value => value
  | .parts items => "".intercalate ((items.filter isTextItem).map partText)
  | _ => ""

structure WireView where
  role : String
  text : String
  calls : List ToolCallEntry
deriving DecidableEq

def view (message : ChatMessage) : WireView where
  role := message.role
  text := contentText message.content
  calls := message.calls

def isOther (message : ChatMessage) : Bool := !message.isTool && !message.isAssistant

structure Alike (host runtime : ChatMessage) : Prop where
  left : host.isAssistant = true
  right : runtime.isAssistant = true
  content : host.content = runtime.content
  calls : host.calls = runtime.calls

inductive Aligned (preserve : Bool) : List ChatMessage → List ChatMessage → Prop where
  | nil : Aligned preserve [] []
  | tool {host runtime : ChatMessage} {hosts runtimes : List ChatMessage}
      (left : host.isTool = true) (right : runtime.isTool = true)
      (rest : Aligned preserve hosts runtimes) :
      Aligned preserve (host :: hosts) (runtime :: runtimes)
  | other {host runtime : ChatMessage} {hosts runtimes : List ChatMessage}
      (left : isOther host = true) (same : view host = view runtime)
      (rest : Aligned preserve hosts runtimes) :
      Aligned preserve (host :: hosts) (runtime :: runtimes)
  | silent {runtime : ChatMessage} {hosts runtimes : List ChatMessage}
      (assistant : runtime.isAssistant = true) (quiet : runtime.calls = [])
      (unheard : keepPayload preserve runtime.normalizeAssistantContent = [])
      (rest : Aligned preserve hosts runtimes) : Aligned preserve hosts (runtime :: runtimes)
  | quiet {host runtime : ChatMessage} {hosts runtimes : List ChatMessage}
      (alike : Alike host runtime) (quiet : host.calls = [])
      (payload : host.normalizeAssistantContent.hasAssistantPayload preserve =
        runtime.normalizeAssistantContent.hasAssistantPayload preserve)
      (rest : Aligned preserve hosts runtimes) :
      Aligned preserve (host :: hosts) (runtime :: runtimes)
  | group {host runtime : ChatMessage} {hosts runtimes : List ChatMessage}
      (alike : Alike host runtime) (asks : host.calls ≠ [])
      (left : completePair host.calls (hosts.takeWhile ChatMessage.isTool) = true)
      (right : completePair host.calls (runtimes.takeWhile ChatMessage.isTool) = true)
      (results : (hosts.takeWhile ChatMessage.isTool).map view =
        (runtimes.takeWhile ChatMessage.isTool).map view)
      (rest : Aligned preserve hosts runtimes) :
      Aligned preserve (host :: hosts) (runtime :: runtimes)
  | untied {host runtime : ChatMessage} {hosts runtimes : List ChatMessage}
      (alike : Alike host runtime) (asks : host.calls ≠ [])
      (left : completePair host.calls (hosts.takeWhile ChatMessage.isTool) = false)
      (right : completePair host.calls (runtimes.takeWhile ChatMessage.isTool) = false)
      (payload : host.normalizeAssistantContent.popToolCalls.hasAssistantPayload preserve =
        runtime.normalizeAssistantContent.popToolCalls.hasAssistantPayload preserve)
      (rest : Aligned preserve hosts runtimes) :
      Aligned preserve (host :: hosts) (runtime :: runtimes)

variable {host runtime : ChatMessage}

theorem alike_emptied (alike : Alike host runtime) :
    view host.normalizeAssistantContent = view runtime.normalizeAssistantContent := by
  have roles : host.role = runtime.role :=
    (of_decide_eq_true alike.left).trans (of_decide_eq_true alike.right).symm
  have calls := alike.calls
  rw [ChatMessage.normalizeAssistantContent, ChatMessage.normalizeAssistantContent,
    alike.content]
  by_cases empty : runtime.content.isEmpty = true
  · rw [if_pos empty, if_pos empty, view, view]
    exact WireView.mk.injEq .. ▸ ⟨roles, rfl, calls⟩
  · rw [if_neg empty, if_neg empty, view, view, alike.content, roles, calls]

theorem alike_popped (alike : Alike host runtime) :
    view host.normalizeAssistantContent.popToolCalls =
      view runtime.normalizeAssistantContent.popToolCalls := by
  have same := alike_emptied alike
  rw [view, view, WireView.mk.injEq] at same ⊢
  exact ⟨same.1, same.2.1, rfl⟩

theorem keepPayload_view {preserve : Bool} (same : view host = view runtime)
    (payload : host.hasAssistantPayload preserve = runtime.hasAssistantPayload preserve) :
    (keepPayload preserve host).map view = (keepPayload preserve runtime).map view := by
  rw [keepPayload, keepPayload, payload]
  split
  · exact congrArg (fun only => [only]) same
  · rfl

private theorem other_of_view (same : view host = view runtime) :
    isOther runtime = isOther host := by
  have roles : host.role = runtime.role := congrArg WireView.role same
  simp only [isOther, ChatMessage.isTool, ChatMessage.isAssistant, roles]

theorem other_parts {message : ChatMessage} (other : isOther message = true) :
    message.isTool = false ∧ message.isAssistant = false := by
  simpa [isOther] using other

theorem aligned_normalize {preserve : Bool} {hosts runtimes : List ChatMessage}
    (aligned : Aligned preserve hosts runtimes) :
    (normalizeChatMessages preserve hosts).map view =
      (normalizeChatMessages preserve runtimes).map view := by
  induction aligned with
  | nil => rfl
  | tool left right rest ih =>
      rw [normalize_tool preserve _ left, normalize_tool preserve _ right, ih]
  | other left same rest ih =>
      have host := other_parts left
      have runtime := other_parts ((other_of_view same).trans left)
      rw [normalize_other preserve _ host.1 host.2,
        normalize_other preserve _ runtime.1 runtime.2, List.map_cons, List.map_cons, same, ih]
  | silent assistant quiet unheard rest ih =>
      rw [normalize_quiet preserve _ assistant quiet, unheard, ih]
      rfl
  | quiet alike quiet payload rest ih =>
      rw [normalize_quiet preserve _ alike.left quiet,
        normalize_quiet preserve _ alike.right (alike.calls ▸ quiet), List.map_append,
        List.map_append, ih, keepPayload_view (alike_emptied alike) payload]
  | group alike asks left right results rest ih =>
      rw [normalize_group preserve _ alike.left asks left,
        normalize_group preserve _ alike.right (alike.calls ▸ asks) (alike.calls ▸ right),
        List.map_cons, List.map_cons, List.map_append, List.map_append, results, ih,
        alike_emptied alike]
  | untied alike asks left right payload rest ih =>
      rw [normalize_untied preserve _ alike.left asks left,
        normalize_untied preserve _ alike.right (alike.calls ▸ asks) (alike.calls ▸ right),
        List.map_append, List.map_append, ih, keepPayload_view (alike_popped alike) payload]

theorem completePair_congr (calls : List ToolCallEntry) {left right : List ChatMessage}
    (same : left.map ChatMessage.toolCallId = right.map ChatMessage.toolCallId) :
    completePair calls left = completePair calls right := by
  have lengths : left.length = right.length := by
    simpa using congrArg List.length same
  have through (ids : List String) (results : List ChatMessage) :
      results.all (fun result => result.toolCallId.any fun id => decide (id ∈ ids)) =
        (results.map ChatMessage.toolCallId).all
          fun entry => entry.any fun id => decide (id ∈ ids) := by
    rw [List.all_map]
    rfl
  have found (id : String) (results : List ChatMessage) :
      results.any (fun result => decide (result.toolCallId = some id)) =
        (results.map ChatMessage.toolCallId).any fun entry => decide (entry = some id) := by
    rw [List.any_map]
    rfl
  rw [completePair, completePair]
  cases validCallIds calls with
  | none => rfl
  | some ids => simp only [through, found, same, lengths]

theorem normalize_others (preserve : Bool) (messages : List ChatMessage) :
    (normalizeChatMessages preserve messages).filter isOther = messages.filter isOther := by
  have noPayload (message : ChatMessage) (assistant : message.isAssistant = true) :
      (keepPayload preserve message).filter isOther = [] := by
    rw [keepPayload]
    split
    · exact List.filter_cons_of_neg (by simp [isOther, assistant])
    · rfl
  induction messages with
  | nil => rfl
  | cons message rest ih =>
      cases tool : message.isTool with
      | true =>
          rw [normalize_tool preserve rest tool, List.filter_cons_of_neg (by simp [isOther, tool]),
            ih]
      | false =>
          cases assistant : message.isAssistant with
          | false =>
              have own : isOther message = true := by simp [isOther, tool, assistant]
              rw [normalize_other preserve rest tool assistant, List.filter_cons_of_pos own,
                List.filter_cons_of_pos own, ih]
          | true =>
              rw [List.filter_cons_of_neg (by simp [isOther, assistant])]
              by_cases asks : message.calls = []
              · rw [normalize_quiet preserve rest assistant asks, List.filter_append, ih,
                  noPayload _ (by simpa using assistant)]
                rfl
              · cases complete : completePair message.calls (rest.takeWhile ChatMessage.isTool) with
                | true =>
                    have tools : (rest.takeWhile ChatMessage.isTool).filter isOther = [] :=
                      List.filter_eq_nil_iff.mpr fun result present => by
                        simp [isOther, List.mem_takeWhile_imp present]
                    rw [normalize_group preserve rest assistant asks complete,
                      List.filter_cons_of_neg (by simp [isOther, assistant]), List.filter_append,
                      tools, ih]
                    rfl
                | false =>
                    have popped :
                        message.normalizeAssistantContent.popToolCalls.isAssistant = true := by
                      change message.normalizeAssistantContent.isAssistant = true
                      simpa using assistant
                    rw [normalize_untied preserve rest assistant asks complete,
                      List.filter_append, ih, noPayload _ popped]
                    rfl

theorem normalize_bare (preserve : Bool) (messages : List ChatMessage) :
    (normalizeChatMessages preserve messages).map bare =
      normalizeChatMessages preserve (messages.map bare) := by
  have emptied (message : ChatMessage) :
      bare message.normalizeAssistantContent = (bare message).normalizeAssistantContent := by
    rw [ChatMessage.normalizeAssistantContent, ChatMessage.normalizeAssistantContent]
    by_cases empty : message.content.isEmpty = true
    · rw [if_pos empty, if_pos (by exact empty)]
      rfl
    · rw [if_neg empty, if_neg (by exact empty)]
  have kept (message : ChatMessage) :
      (keepPayload preserve message).map bare = keepPayload preserve (bare message) := by
    rw [keepPayload, keepPayload]
    by_cases payload : message.hasAssistantPayload preserve = true
    · rw [if_pos payload, if_pos (by exact payload)]
      rfl
    · rw [if_neg payload, if_neg (by exact payload)]
      rfl
  have following (rest : List ChatMessage) : (rest.map bare).takeWhile ChatMessage.isTool =
      (rest.takeWhile ChatMessage.isTool).map bare := by
    rw [List.takeWhile_map]
    rfl
  have ids (rest : List ChatMessage) :
      ((rest.map bare).takeWhile ChatMessage.isTool).map ChatMessage.toolCallId =
        (rest.takeWhile ChatMessage.isTool).map ChatMessage.toolCallId := by
    rw [following, List.map_map]
    rfl
  induction messages with
  | nil => rfl
  | cons message rest ih =>
      rw [List.map_cons]
      cases tool : message.isTool with
      | true =>
          rw [normalize_tool preserve rest tool, normalize_tool preserve _ (by exact tool), ih]
      | false =>
          cases assistant : message.isAssistant with
          | false =>
              rw [normalize_other preserve rest tool assistant,
                normalize_other preserve _ (by exact tool) (by exact assistant), List.map_cons, ih]
          | true =>
              by_cases asks : message.calls = []
              · rw [normalize_quiet preserve rest assistant asks,
                  normalize_quiet preserve _ (by exact assistant) (by exact asks),
                  List.map_append, ih, kept, emptied]
              · have sameComplete := completePair_congr message.calls (ids rest)
                cases complete : completePair message.calls (rest.takeWhile ChatMessage.isTool) with
                | true =>
                    rw [normalize_group preserve rest assistant asks complete,
                      @normalize_group preserve (bare message) _ assistant asks
                        (sameComplete.trans complete), List.map_cons, List.map_append, ih,
                      emptied, following]
                | false =>
                    have popped : bare message.normalizeAssistantContent.popToolCalls =
                        (bare message).normalizeAssistantContent.popToolCalls :=
                      congrArg ChatMessage.popToolCalls (emptied message)
                    rw [normalize_untied preserve rest assistant asks complete,
                      @normalize_untied preserve (bare message) _ assistant asks
                        (sameComplete.trans complete), List.map_append, ih, kept, popped]

end Ftre.Encoding
