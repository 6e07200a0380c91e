import Mathlib.Data.List.TakeWhile
import Ftre.Llm.ChatMessages

/-!
What the normalisation of chat messages guarantees: its result keeps the tool
protocol, normalising twice changes nothing, and everything said is kept.
-/

namespace Ftre.Llm

open Lib

/-! ### The tool protocol -/

/-- Messages in which calls and results come in groups: the asking assistant
message with distinct ids, then one result for each id. -/
inductive WellFormed : List ChatMessage → Prop where
  | nil : WellFormed []
  | plain {message : ChatMessage} {rest : List ChatMessage}
      (tool : message.isTool = false)
      (quiet : message.isAssistant = true → message.calls = [])
      (formed : WellFormed rest) : WellFormed (message :: rest)
  | group {message : ChatMessage} {ids : List String} {results rest : List ChatMessage}
      (assistant : message.isAssistant = true) (asks : message.calls ≠ [])
      (identified : message.calls.map ToolCallEntry.callId? = ids.map some)
      (distinct : ids.Nodup) (nonempty : ∀ id ∈ ids, id ≠ "")
      (tools : ∀ result ∈ results, result.isTool = true)
      (answered : (results.map ChatMessage.toolCallId).Perm (ids.map some))
      (formed : WellFormed rest) : WellFormed (message :: (results ++ rest))

theorem callId_nonempty {entry : ToolCallEntry} {id : String} (found : entry.callId? = some id) :
    id ≠ "" := by
  cases entry with
  | other value => exact absurd found (by simp [ToolCallEntry.callId?])
  | call own name arguments =>
      cases own with
      | none => exact absurd found (by simp [ToolCallEntry.callId?])
      | some own =>
          simp only [ToolCallEntry.callId?] at found
          by_cases blank : own = ""
          · rw [if_pos blank] at found
            exact absurd found (by simp)
          · rw [if_neg blank] at found
            exact Option.some.inj found ▸ blank

private theorem ids_nonempty {calls : List ToolCallEntry} {ids : List String}
    (identified : calls.map ToolCallEntry.callId? = ids.map some) : ∀ id ∈ ids, id ≠ "" := by
  intro id asked
  have named : some id ∈ calls.map ToolCallEntry.callId? :=
    identified ▸ List.mem_map_of_mem asked
  obtain ⟨entry, _listed, found⟩ := List.mem_map.mp named
  exact callId_nonempty found

private theorem callIds_iff (calls : List ToolCallEntry) (ids : List String) :
    calls.mapM ToolCallEntry.callId? = some ids ↔
      calls.map ToolCallEntry.callId? = ids.map some := by
  induction calls generalizing ids with
  | nil => cases ids <;> simp
  | cons entry rest ih =>
      rw [List.mapM_cons]
      constructor
      · intro gathered
        obtain ⟨id, found, more⟩ := Option.bind_eq_some_iff.mp gathered
        obtain ⟨others, same, whole⟩ := Option.bind_eq_some_iff.mp more
        rw [← Option.some.inj whole, List.map_cons, List.map_cons, found, (ih others).mp same]
      · intro same
        cases ids with
        | nil => cases same
        | cons id others =>
            rw [List.map_cons, List.map_cons, List.cons.injEq] at same
            rw [same.1, (ih others).mpr same.2]
            rfl

private theorem validCallIds_iff (calls : List ToolCallEntry) (ids : List String) :
    validCallIds calls = some ids ↔
      calls.map ToolCallEntry.callId? = ids.map some ∧ ids.Nodup := by
  rw [validCallIds, ← callIds_iff]
  cases gathered : calls.mapM ToolCallEntry.callId? with
  | none => simp
  | some found =>
      by_cases distinct : found.Nodup
      · simp only [distinct, if_true, Option.some.injEq]
        exact ⟨fun same => ⟨same, same ▸ distinct⟩, fun both => both.1⟩
      · simp only [distinct, if_false, Option.some.injEq]
        exact ⟨fun impossible => absurd impossible (by simp),
          fun both => absurd both.2 (both.1 ▸ distinct)⟩

theorem completePair_iff (calls : List ToolCallEntry) (following : List ChatMessage) :
    completePair calls following = true ↔
      ∃ ids : List String, calls.map ToolCallEntry.callId? = ids.map some ∧ ids.Nodup ∧
        (following.map ChatMessage.toolCallId).Perm (ids.map some) := by
  rw [completePair]
  constructor
  · intro complete
    cases valid : validCallIds calls with
    | none => rw [valid] at complete; cases complete
    | some ids =>
        rw [valid] at complete
        simp only [Bool.and_eq_true, decide_eq_true_eq, List.all_eq_true] at complete
        obtain ⟨⟨sameLength, _known⟩, answered⟩ := complete
        obtain ⟨identified, distinct⟩ := (validCallIds_iff calls ids).mp valid
        have inside : ids.map some ⊆ following.map ChatMessage.toolCallId := by
          intro entry member
          obtain ⟨id, asked, same⟩ := List.mem_map.mp member
          obtain ⟨result, present, own⟩ := List.any_eq_true.mp (answered id asked)
          exact List.mem_map.mpr ⟨result, present, same ▸ of_decide_eq_true own⟩
        have subperm : (ids.map some).Subperm (following.map ChatMessage.toolCallId) :=
          List.subperm_of_subset (distinct.map (Option.some_injective String)) inside
        exact ⟨ids, identified, distinct,
          (subperm.perm_of_length_le (by simp [sameLength])).symm⟩
  · rintro ⟨ids, identified, distinct, answered⟩
    rw [(validCallIds_iff calls ids).mpr ⟨identified, distinct⟩]
    simp only [Bool.and_eq_true, decide_eq_true_eq, List.all_eq_true]
    refine ⟨⟨by simpa using answered.length_eq, ?_⟩, ?_⟩
    · intro result present
      have own : result.toolCallId ∈ ids.map some :=
        answered.subset (List.mem_map_of_mem present)
      obtain ⟨id, asked, same⟩ := List.mem_map.mp own
      rw [← same]
      exact decide_eq_true asked
    · intro id asked
      obtain ⟨result, present, own⟩ :=
        List.mem_map.mp (answered.symm.subset (List.mem_map_of_mem asked))
      exact List.any_eq_true.mpr ⟨result, present, decide_eq_true own⟩

@[simp] theorem normalizeAssistantContent_isTool (message : ChatMessage) :
    message.normalizeAssistantContent.isTool = message.isTool := by
  rw [ChatMessage.normalizeAssistantContent]
  split <;> rfl

@[simp] theorem normalizeAssistantContent_isAssistant (message : ChatMessage) :
    message.normalizeAssistantContent.isAssistant = message.isAssistant := by
  rw [ChatMessage.normalizeAssistantContent]
  split <;> rfl

@[simp] theorem normalizeAssistantContent_twice (message : ChatMessage) :
    message.normalizeAssistantContent.normalizeAssistantContent =
      message.normalizeAssistantContent := by
  by_cases empty : message.content.isEmpty = true
  · have emptied : message.normalizeAssistantContent = { message with content := .text "" } := by
      rw [ChatMessage.normalizeAssistantContent, if_pos empty]
    rw [emptied, ChatMessage.normalizeAssistantContent, ite_self]
  · have kept : message.normalizeAssistantContent = message := by
      rw [ChatMessage.normalizeAssistantContent, if_neg empty]
    rw [kept, kept]

private theorem popped_content (message : ChatMessage) :
    message.normalizeAssistantContent.popToolCalls =
      message.popToolCalls.normalizeAssistantContent := by
  by_cases empty : message.content.isEmpty = true
  · have same : message.popToolCalls.content.isEmpty = true := empty
    rw [ChatMessage.normalizeAssistantContent, if_pos empty,
      ChatMessage.normalizeAssistantContent, if_pos same]
    rfl
  · have same : ¬ message.popToolCalls.content.isEmpty = true := empty
    rw [ChatMessage.normalizeAssistantContent, if_neg empty,
      ChatMessage.normalizeAssistantContent, if_neg same]

variable {message : ChatMessage}

variable (preserveReasoningOnly : Bool)

private theorem wellFormed_keepPayload {rest : List ChatMessage} (tool : message.isTool = false)
    (quiet : message.calls = []) (formed : WellFormed rest) :
    WellFormed (keepPayload preserveReasoningOnly message ++ rest) := by
  rw [keepPayload]
  by_cases speaks : message.hasAssistantPayload preserveReasoningOnly = true
  · rw [if_pos speaks]
    exact .plain tool (fun _assistant => quiet) formed
  · rw [if_neg speaks]
    exact formed

theorem normalize_wellFormed (messages : List ChatMessage) :
    WellFormed (normalizeChatMessages preserveReasoningOnly messages) := by
  induction messages with
  | nil => exact .nil
  | cons message rest ih =>
      cases tool : message.isTool with
      | true =>
          rw [normalize_tool preserveReasoningOnly rest tool]
          exact ih
      | false =>
          cases assistant : message.isAssistant with
          | false =>
              rw [normalize_other preserveReasoningOnly rest tool assistant]
              exact .plain tool (fun claimed => absurd claimed (by simp [assistant])) ih
          | true =>
              by_cases asks : message.calls = []
              · rw [normalize_quiet preserveReasoningOnly rest assistant asks]
                exact wellFormed_keepPayload preserveReasoningOnly (by simpa using tool)
                  (by simpa using asks) ih
              · cases complete :
                  completePair message.calls (rest.takeWhile ChatMessage.isTool) with
                | true =>
                    obtain ⟨ids, identified, distinct, answered⟩ :=
                      (completePair_iff _ _).mp complete
                    rw [normalize_group preserveReasoningOnly rest assistant asks complete]
                    exact .group (by simpa using assistant) (by simpa using asks)
                      (by simpa using identified) distinct (ids_nonempty identified)
                      (fun result present => List.mem_takeWhile_imp present) answered ih
                | false =>
                    rw [normalize_untied preserveReasoningOnly rest assistant asks complete]
                    exact wellFormed_keepPayload preserveReasoningOnly
                      (by change message.normalizeAssistantContent.isTool = false
                          simpa using tool) rfl ih

/-! ### Well-formed messages -/

namespace ChatMessage

/-- The message with empty assistant content written as empty text. -/
def emptied (message : ChatMessage) : ChatMessage :=
  if message.isAssistant then message.normalizeAssistantContent else message

def carriesPayload (preserveReasoningOnly : Bool) (message : ChatMessage) : Bool :=
  !message.isAssistant || !message.calls.isEmpty ||
    message.hasAssistantPayload preserveReasoningOnly

/-- What the scan never touches: no tool message, no assistant message without text. -/
def spoken (message : ChatMessage) : Bool :=
  !message.isTool && (!message.isAssistant || !message.content.isEmpty)

/-- The message freed of its calls, when it is an assistant's. -/
def untied (message : ChatMessage) : ChatMessage :=
  if message.isAssistant then message.popToolCalls else message

end ChatMessage

/-- Empty contents as empty text, and without the messages that say nothing. -/
def tidy (preserveReasoningOnly : Bool) (messages : List ChatMessage) : List ChatMessage :=
  (messages.map ChatMessage.emptied).filter (ChatMessage.carriesPayload preserveReasoningOnly)

private theorem emptied_tool (tool : message.isTool = true) : message.emptied = message := by
  rw [ChatMessage.emptied, if_neg]
  intro assistant
  exact absurd (tool_of_assistant assistant) (by simp [tool])

private theorem carries_tool (tool : message.isTool = true) :
    message.carriesPayload preserveReasoningOnly = true := by
  have assistant : message.isAssistant = false := by
    cases claimed : message.isAssistant with
    | false => rfl
    | true => exact absurd (tool_of_assistant claimed) (by simp [tool])
  simp [ChatMessage.carriesPayload, assistant]

private theorem tidy_tools {results : List ChatMessage}
    (tools : ∀ result ∈ results, result.isTool = true) :
    tidy preserveReasoningOnly results = results := by
  have kept : results.map ChatMessage.emptied = results := by
    conv_rhs => rw [← List.map_id results]
    exact List.map_congr_left fun result present => emptied_tool (tools result present)
  rw [tidy, kept]
  exact List.filter_eq_self.mpr fun result present =>
    carries_tool preserveReasoningOnly (tools result present)

private theorem tidy_append (front back : List ChatMessage) :
    tidy preserveReasoningOnly (front ++ back) =
      tidy preserveReasoningOnly front ++ tidy preserveReasoningOnly back := by
  simp [tidy]

private theorem tidy_cons (message : ChatMessage) (rest : List ChatMessage) :
    tidy preserveReasoningOnly (message :: rest) =
      (if message.emptied.carriesPayload preserveReasoningOnly then [message.emptied] else []) ++
        tidy preserveReasoningOnly rest := by
  rw [tidy, List.map_cons, List.filter_cons]
  split <;> rfl

private theorem tidy_quiet (assistant : message.isAssistant = true) (quiet : message.calls = []) :
    (if message.emptied.carriesPayload preserveReasoningOnly then [message.emptied] else []) =
      keepPayload preserveReasoningOnly message.normalizeAssistantContent := by
  rw [ChatMessage.emptied, if_pos assistant, keepPayload, ChatMessage.carriesPayload]
  simp [assistant, quiet]

private theorem tidy_asking (assistant : message.isAssistant = true) (asks : message.calls ≠ []) :
    (if message.emptied.carriesPayload preserveReasoningOnly then [message.emptied] else []) =
      [message.normalizeAssistantContent] := by
  rw [ChatMessage.emptied, if_pos assistant, ChatMessage.carriesPayload]
  simp [assistant, asks]

private theorem takeWhile_wellFormed {messages : List ChatMessage} (formed : WellFormed messages) :
    messages.takeWhile ChatMessage.isTool = [] := by
  cases formed with
  | nil => rfl
  | plain tool quiet formed => exact List.takeWhile_cons_of_neg (by simp [tool])
  | group assistant asks identified distinct nonempty tools answered formed =>
      exact List.takeWhile_cons_of_neg (by simp [tool_of_assistant assistant])

theorem normalize_of_wellFormed {messages : List ChatMessage} (formed : WellFormed messages) :
    normalizeChatMessages preserveReasoningOnly messages =
      tidy preserveReasoningOnly messages := by
  induction formed with
  | nil => rfl
  | @plain message rest tool quiet formed ih =>
      cases assistant : message.isAssistant with
      | false =>
          have same : message.emptied = message := by
            rw [ChatMessage.emptied, if_neg (by simp [assistant])]
          rw [normalize_other preserveReasoningOnly rest tool assistant, tidy_cons, ih, same,
            if_pos (by simp [ChatMessage.carriesPayload, assistant])]
          rfl
      | true =>
          rw [normalize_quiet preserveReasoningOnly rest assistant (quiet assistant), tidy_cons, ih,
            tidy_quiet preserveReasoningOnly assistant (quiet assistant)]
  | @group message ids results rest assistant asks identified distinct nonempty tools answered
      formed ih =>
      have following : (results ++ rest).takeWhile ChatMessage.isTool = results := by
        rw [List.takeWhile_append_of_pos tools, takeWhile_wellFormed formed, List.append_nil]
      have complete :
          completePair message.calls ((results ++ rest).takeWhile ChatMessage.isTool) = true := by
        rw [following]
        exact (completePair_iff _ _).mpr ⟨ids, identified, distinct, answered⟩
      have behind : normalizeChatMessages preserveReasoningOnly (results ++ rest) =
          normalizeChatMessages preserveReasoningOnly rest := by
        rw [← normalize_skipTools, List.dropWhile_append_of_pos tools, normalize_skipTools]
      rw [normalize_group preserveReasoningOnly _ assistant asks complete, following, behind, ih,
        tidy_cons, tidy_asking preserveReasoningOnly assistant asks, tidy_append,
        tidy_tools preserveReasoningOnly tools]
      rfl

private def Settled (preserveReasoningOnly : Bool) (message : ChatMessage) : Prop :=
  message.emptied = message ∧ message.carriesPayload preserveReasoningOnly = true

private theorem settled_tool (tool : message.isTool = true) :
    Settled preserveReasoningOnly message :=
  ⟨emptied_tool tool, carries_tool preserveReasoningOnly tool⟩

private theorem settled_other (assistant : message.isAssistant = false) :
    Settled preserveReasoningOnly message :=
  ⟨by rw [ChatMessage.emptied, if_neg (by simp [assistant])],
    by simp [ChatMessage.carriesPayload, assistant]⟩

private theorem settled_asking (preserveReasoningOnly : Bool)
    (assistant : message.isAssistant = true) (asks : message.calls ≠ []) :
    Settled preserveReasoningOnly message.normalizeAssistantContent :=
  ⟨by rw [ChatMessage.emptied, if_pos (by simpa using assistant), normalizeAssistantContent_twice],
    by simp [ChatMessage.carriesPayload, asks]⟩

private theorem settled_payload {message kept : ChatMessage}
    (present : kept ∈ keepPayload preserveReasoningOnly message.normalizeAssistantContent) :
    Settled preserveReasoningOnly kept := by
  rw [keepPayload] at present
  by_cases payload :
      message.normalizeAssistantContent.hasAssistantPayload preserveReasoningOnly = true
  · rw [if_pos payload, List.mem_singleton] at present
    subst present
    exact ⟨by rw [ChatMessage.emptied, normalizeAssistantContent_twice, ite_self],
      by simp [ChatMessage.carriesPayload, payload]⟩
  · rw [if_neg payload] at present
    cases present

private theorem normalize_settled (messages : List ChatMessage) :
    ∀ message ∈ normalizeChatMessages preserveReasoningOnly messages,
      Settled preserveReasoningOnly message := by
  induction messages with
  | nil => intro message present; cases present
  | cons message rest ih =>
      intro kept present
      cases tool : message.isTool with
      | true =>
          rw [normalize_tool preserveReasoningOnly rest tool] at present
          exact ih kept present
      | false =>
          cases assistant : message.isAssistant with
          | false =>
              rw [normalize_other preserveReasoningOnly rest tool assistant] at present
              rcases List.mem_cons.mp present with same | later
              · exact same ▸ settled_other preserveReasoningOnly assistant
              · exact ih kept later
          | true =>
              by_cases asks : message.calls = []
              · rw [normalize_quiet preserveReasoningOnly rest assistant asks] at present
                rcases List.mem_append.mp present with here | later
                · exact settled_payload preserveReasoningOnly here
                · exact ih kept later
              · cases complete :
                  completePair message.calls (rest.takeWhile ChatMessage.isTool) with
                | true =>
                    rw [normalize_group preserveReasoningOnly rest assistant asks complete]
                      at present
                    rcases List.mem_cons.mp present with same | behind
                    · exact same ▸ settled_asking preserveReasoningOnly assistant asks
                    · rcases List.mem_append.mp behind with result | later
                      · exact settled_tool preserveReasoningOnly
                          (List.mem_takeWhile_imp result)
                      · exact ih kept later
                | false =>
                    rw [normalize_untied preserveReasoningOnly rest assistant asks complete,
                      popped_content] at present
                    rcases List.mem_append.mp present with here | later
                    · exact settled_payload preserveReasoningOnly here
                    · exact ih kept later

theorem normalize_idempotent (messages : List ChatMessage) :
    normalizeChatMessages preserveReasoningOnly
        (normalizeChatMessages preserveReasoningOnly messages) =
      normalizeChatMessages preserveReasoningOnly messages := by
  have settled := normalize_settled preserveReasoningOnly messages
  rw [normalize_of_wellFormed preserveReasoningOnly
    (normalize_wellFormed preserveReasoningOnly messages), tidy]
  have same : (normalizeChatMessages preserveReasoningOnly messages).map ChatMessage.emptied =
      normalizeChatMessages preserveReasoningOnly messages := by
    conv_rhs => rw [← List.map_id (normalizeChatMessages preserveReasoningOnly messages)]
    exact List.map_congr_left fun message present => (settled message present).1
  rw [same]
  exact List.filter_eq_self.mpr fun message present => (settled message present).2

/-! ### What was said -/

private theorem strip_empty : Session.strip "" = "" := by rfl

private theorem truthy_of_content {content : ChatContent} (said : content.isEmpty = false) :
    content.truthy = true := by
  cases content with
  | absent => cases said
  | null => cases said
  | text value =>
      have different : value ≠ "" := by
        intro blank
        subst blank
        exact absurd said (by simp [ChatContent.isEmpty, strip_empty])
      exact decide_eq_true different
  | parts items => simpa [ChatContent.isEmpty, ChatContent.truthy] using said

private theorem spoken_payload (assistant : message.isAssistant = true) :
    (keepPayload preserveReasoningOnly message).filter ChatMessage.spoken =
      [message].filter ChatMessage.spoken := by
  rw [keepPayload]
  by_cases payload : message.hasAssistantPayload preserveReasoningOnly = true
  · rw [if_pos payload]
  · have empty : message.content.isEmpty = true := by
      cases said : message.content.isEmpty with
      | true => rfl
      | false =>
          exact absurd (by simp [ChatMessage.hasAssistantPayload, truthy_of_content said]) payload
    have silent : message.spoken = false := by
      simp [ChatMessage.spoken, assistant, empty]
    rw [if_neg payload, List.filter_cons_of_neg (by simp [silent])]

private theorem spoken_emptied (assistant : message.isAssistant = true) :
    [message.normalizeAssistantContent].filter ChatMessage.spoken =
      [message].filter ChatMessage.spoken := by
  cases said : message.content.isEmpty with
  | false =>
      rw [ChatMessage.normalizeAssistantContent, if_neg (by simp [said])]
  | true =>
      have emptied : message.normalizeAssistantContent = { message with content := .text "" } := by
        rw [ChatMessage.normalizeAssistantContent, if_pos said]
      have blank : message.normalizeAssistantContent.content.isEmpty = true := by
        rw [emptied]
        simp [ChatContent.isEmpty, strip_empty]
      rw [List.filter_cons_of_neg (by simp [ChatMessage.spoken, assistant, blank]),
        List.filter_cons_of_neg (by simp [ChatMessage.spoken, assistant, said])]

private theorem untied_popped (assistant : message.isAssistant = true) :
    ([message.popToolCalls].filter ChatMessage.spoken).map ChatMessage.untied =
      ([message].filter ChatMessage.spoken).map ChatMessage.untied := by
  have sameSpoken : message.popToolCalls.spoken = message.spoken := rfl
  have sameUntied : message.popToolCalls.untied = message.untied := by
    rw [ChatMessage.untied, ChatMessage.untied, if_pos assistant,
      if_pos (by exact assistant)]
    rfl
  rw [List.filter_cons, List.filter_cons, sameSpoken]
  by_cases speaks : message.spoken = true
  · rw [if_pos speaks, if_pos speaks]
    exact congrArg (fun kept => [kept]) sameUntied
  · rw [if_neg speaks, if_neg speaks]

private theorem spoken_tools {results : List ChatMessage}
    (tools : ∀ result ∈ results, result.isTool = true) :
    results.filter ChatMessage.spoken = [] :=
  List.filter_eq_nil_iff.mpr fun result present => by
    simp [ChatMessage.spoken, tools result present]

theorem normalize_spoken (messages : List ChatMessage) :
    ((normalizeChatMessages preserveReasoningOnly messages).filter
        ChatMessage.spoken).map ChatMessage.untied =
      (messages.filter ChatMessage.spoken).map ChatMessage.untied := by
  induction messages with
  | nil => rfl
  | cons message rest ih =>
      have through (kept : List ChatMessage) (first : (kept.filter ChatMessage.spoken).map
          ChatMessage.untied = ([message].filter ChatMessage.spoken).map ChatMessage.untied) :
          ((kept ++ normalizeChatMessages preserveReasoningOnly rest).filter
              ChatMessage.spoken).map ChatMessage.untied =
            ((message :: rest).filter ChatMessage.spoken).map ChatMessage.untied := by
        rw [List.filter_append, List.map_append, ih, first, ← List.map_append,
          ← List.filter_append]
        rfl
      cases tool : message.isTool with
      | true =>
          rw [normalize_tool preserveReasoningOnly rest tool]
          have silent : message.spoken = false := by simp [ChatMessage.spoken, tool]
          exact through [] (by rw [List.filter_cons_of_neg (by simp [silent])])
      | false =>
          cases assistant : message.isAssistant with
          | false =>
              rw [normalize_other preserveReasoningOnly rest tool assistant]
              exact through [message] rfl
          | true =>
              by_cases asks : message.calls = []
              · rw [normalize_quiet preserveReasoningOnly rest assistant asks]
                exact through _ (by rw [spoken_payload preserveReasoningOnly (by simpa using assistant),
                  spoken_emptied assistant])
              · cases complete :
                  completePair message.calls (rest.takeWhile ChatMessage.isTool) with
                | true =>
                    rw [normalize_group preserveReasoningOnly rest assistant asks complete,
                      ← List.cons_append]
                    refine through _ ?_
                    rw [← List.singleton_append, List.filter_append,
                      spoken_tools (fun result present => List.mem_takeWhile_imp present),
                      List.append_nil, spoken_emptied assistant]
                | false =>
                    rw [normalize_untied preserveReasoningOnly rest assistant asks complete,
                      popped_content]
                    have popped : message.popToolCalls.isAssistant = true := assistant
                    refine through _ ?_
                    rw [spoken_payload preserveReasoningOnly (by simpa using popped),
                      spoken_emptied popped]
                    exact untied_popped assistant

end Ftre.Llm
