import Ftre.Llm.Normalize
import Ftre.Llm.ResponsesInput

/-!
A normalised history as Responses input: every call is listed once, and each is
answered once before its id is used again.
-/

namespace Ftre.Llm

open Lib

/-! ### Calls and their outputs in a list of input items -/

def InputItem.isCall (item : InputItem) : Bool := item.call?.isSome

def answers (callId : String) (items : List InputItem) : Nat :=
  (items.takeWhile fun item => decide (item.call? ≠ some callId)).countP
    fun item => decide (item.output? = some callId)

/-- Each call is answered exactly once before its id is used again. -/
def Matched : List InputItem → Prop
  | [] => True
  | item :: rest => (∀ callId, item.call? = some callId → answers callId rest = 1) ∧ Matched rest

def InputItem.Plain (item : InputItem) : Prop := item.call? = none ∧ item.output? = none

variable (callId : String) (options : ConversionOptions)

private theorem answers_cons {item : InputItem} (rest : List InputItem)
    (different : item.call? ≠ some callId) :
    answers callId (item :: rest) =
      answers callId rest + if item.output? = some callId then 1 else 0 := by
  have passed : decide (item.call? ≠ some callId) = true := decide_eq_true different
  rw [answers, List.takeWhile_cons_of_pos
    (by exact passed), List.countP_cons]
  simp [answers]

private theorem answers_call {item : InputItem} (rest : List InputItem)
    (same : item.call? = some callId) : answers callId (item :: rest) = 0 := by
  rw [answers, List.takeWhile_cons_of_neg (by simp [same])]
  rfl

private theorem answers_plain {front : List InputItem} (rest : List InputItem)
    (plain : ∀ item ∈ front, item.Plain) :
    answers callId (front ++ rest) = answers callId rest := by
  induction front with
  | nil => rfl
  | cons item front ih =>
      have own := plain item List.mem_cons_self
      rw [List.cons_append, answers_cons callId _ (by simp [own.1]),
        ih fun other later => plain other (List.mem_cons_of_mem _ later)]
      simp [own.2]

private theorem matched_plain {front rest : List InputItem} (plain : ∀ item ∈ front, item.Plain)
    (behind : Matched rest) : Matched (front ++ rest) := by
  induction front with
  | nil => exact behind
  | cons item front ih =>
      have own := plain item List.mem_cons_self
      exact ⟨fun callId called => absurd called (by simp [own.1]),
        ih fun other later => plain other (List.mem_cons_of_mem _ later)⟩

variable {ids : List String} {message : ChatMessage}

private theorem answers_calls {calls : List InputItem} (rest : List InputItem)
    (named : calls.map InputItem.call? = ids.map some)
    (silent : ∀ item ∈ calls, item.output? = none) :
    answers callId (calls ++ rest) = if callId ∈ ids then 0 else answers callId rest := by
  induction calls generalizing ids with
  | nil =>
      have none_asked : ids = [] := List.map_eq_nil_iff.mp named.symm
      subst none_asked
      rfl
  | cons item calls ih =>
      cases ids with
      | nil => cases named
      | cons id ids =>
          rw [List.map_cons, List.map_cons, List.cons.injEq] at named
          rw [List.cons_append]
          by_cases same : callId = id
          · rw [answers_call callId _ (same ▸ named.1), if_pos (by simp [same])]
          · have different : item.call? ≠ some callId := by
              rw [named.1]
              exact fun equal => same (Option.some.inj equal).symm
            rw [answers_cons callId _ different,
              ih named.2 fun other later => silent other (List.mem_cons_of_mem _ later),
              silent item List.mem_cons_self]
            simp [same]

private theorem matched_calls {calls : List InputItem} {rest : List InputItem}
    (named : calls.map InputItem.call? = ids.map some)
    (silent : ∀ item ∈ calls, item.output? = none) (distinct : ids.Nodup)
    (answered : ∀ id ∈ ids, answers id rest = 1) (behind : Matched rest) :
    Matched (calls ++ rest) := by
  induction calls generalizing ids with
  | nil => exact behind
  | cons item calls ih =>
      cases ids with
      | nil => cases named
      | cons id ids =>
          rw [List.map_cons, List.map_cons, List.cons.injEq] at named
          have others := List.nodup_cons.mp distinct
          have later : ∀ other ∈ calls, other.output? = none :=
            fun other present => silent other (List.mem_cons_of_mem _ present)
          refine ⟨?_, ih named.2 later others.2
            fun other asked => answered other (List.mem_cons_of_mem _ asked)⟩
          intro callId called
          have same : id = callId := Option.some.inj (named.1.symm.trans called)
          subst same
          have passed := answers_calls id rest named.2 later
          rw [if_neg others.1] at passed
          exact passed.trans (answered id List.mem_cons_self)

private theorem answers_outputs {outputs : List InputItem} (rest : List InputItem)
    (named : outputs.map InputItem.output? = ids.map some)
    (silent : ∀ item ∈ outputs, item.call? = none) :
    answers callId (outputs ++ rest) = ids.count callId + answers callId rest := by
  induction outputs generalizing ids with
  | nil =>
      have none_answered : ids = [] := List.map_eq_nil_iff.mp named.symm
      subst none_answered
      simp
  | cons item outputs ih =>
      cases ids with
      | nil => cases named
      | cons id ids =>
          rw [List.map_cons, List.map_cons, List.cons.injEq] at named
          rw [List.cons_append, answers_cons callId _ (by simp [silent item List.mem_cons_self]),
            ih named.2 fun other later => silent other (List.mem_cons_of_mem _ later), named.1,
            List.count_cons]
          simp only [Option.some.injEq, beq_iff_eq]
          omega

private theorem matched_outputs {outputs rest : List InputItem}
    (silent : ∀ item ∈ outputs, item.call? = none) (behind : Matched rest) :
    Matched (outputs ++ rest) := by
  induction outputs with
  | nil => exact behind
  | cons item outputs ih =>
      exact ⟨fun callId called => absurd called (by simp [silent item List.mem_cons_self]),
        ih fun other later => silent other (List.mem_cons_of_mem _ later)⟩

/-! ### What the conversion adds -/

/-- The call items a message stands for. -/
def functionCalls (message : ChatMessage) : List InputItem :=
  if message.isAssistant then message.calls.filterMap functionCallItem else []

@[simp] theorem Conversion.add_input (state : Conversion) (items : List InputItem) :
    (state.add items).input = state.input ++ items := rfl

@[simp] theorem Conversion.instruct_input (state : Conversion) (text : String) :
    (state.instruct text).input = state.input := by
  rw [Conversion.instruct]
  split <;> rfl

private def Extends (state next : Conversion) (items : List InputItem) : Prop :=
  next.input = state.input ++ items ∧ ∀ item ∈ items, item.Plain

private theorem extends_self (state : Conversion) : Extends state state [] :=
  ⟨(List.append_nil _).symm, fun _item present => absurd present List.not_mem_nil⟩

private theorem extends_message (state : Conversion) (role : String) (content : ChatContent) :
    Extends state (state.add [.message role content]) [.message role content] :=
  ⟨rfl, fun _item present => (List.mem_singleton.mp present) ▸ ⟨rfl, rfl⟩⟩

private theorem extends_trans {state middle next : Conversion} {first second : List InputItem}
    (front : Extends state middle first) (back : Extends middle next second) :
    Extends state next (first ++ second) := by
  refine ⟨by rw [back.1, front.1, List.append_assoc], fun item present => ?_⟩
  rcases List.mem_append.mp present with early | late
  · exact front.2 item early
  · exact back.2 item late

private theorem extends_reasoning (state : Conversion) (message : ChatMessage) (text : String) :
    ∃ items, Extends state (state.addReasoning options message text) items := by
  rw [Conversion.addReasoning]
  by_cases replays : reasoningReplayItems message options.allowLegacyReasoningContent ≠ []
  · simp only [if_pos replays]
    refine ⟨_, rfl, fun item present => ?_⟩
    obtain ⟨_value, _replayed, same⟩ := List.mem_map.mp present
    exact same ▸ ⟨rfl, rfl⟩
  · simp only [if_neg replays]
    by_cases legacy : options.allowLegacyReasoningContent = true
    · simp only [if_pos legacy]
      exact ⟨_, rfl, fun item present => (List.mem_singleton.mp present) ▸ ⟨rfl, rfl⟩⟩
    · simp only [if_neg legacy]
      exact ⟨[], extends_self state⟩

private theorem extends_thought (state : Conversion) (message : ChatMessage) (thinks : Bool)
    (text : String) :
    ∃ items, Extends state
      (if thinks then state.addReasoning options message text else state) items := by
  cases thinks with
  | true => exact extends_reasoning options state message text
  | false => exact ⟨[], extends_self state⟩

private theorem convert_plain (state : Conversion) (tool : message.isTool = false)
    (quiet : message.isAssistant = true → message.calls = []) :
    ∃ next items, convertMessage options state message = some next ∧ Extends state next items := by
  have otherThanTool : message.role ≠ "tool" := of_decide_eq_false tool
  rw [convertMessage]
  by_cases system : message.role = "system"
  · rw [if_pos system]
    exact ⟨_, [], rfl, by simp, fun _item present => absurd present List.not_mem_nil⟩
  rw [if_neg system]
  by_cases user : message.role = "user"
  · rw [if_pos user]
    exact ⟨_, _, rfl, extends_message state _ _⟩
  rw [if_neg user]
  by_cases assistant : message.role = "assistant"
  · rw [if_pos assistant, convertAssistant, if_pos (quiet (decide_eq_true assistant))]
    obtain ⟨thoughts, thought⟩ := extends_thought options state message
      (options.includeReasoning && decide (message.reasoningContent.getD "" ≠ ""))
      (message.reasoningContent.getD "")
    by_cases written : ((convertAssistantContent message.content).truthy ||
        !(options.includeReasoning && decide (message.reasoningContent.getD "" ≠ ""))) = true
    · simp only [if_pos written]
      exact ⟨_, _, rfl, extends_trans thought (extends_message _ _ _)⟩
    · simp only [if_neg written]
      exact ⟨_, _, rfl, thought⟩
  rw [if_neg assistant, if_neg otherThanTool]
  exact ⟨state, [], rfl, extends_self state⟩

private theorem call_of_callId {entry : ToolCallEntry} {id : String}
    (found : entry.callId? = some id) : ∃ name arguments, entry = .call (some id) name arguments := by
  cases entry with
  | other value => cases found
  | call own name arguments =>
      cases own with
      | none => cases found
      | some own =>
          simp only [ToolCallEntry.callId?] at found
          by_cases blank : own = ""
          · rw [if_pos blank] at found
            cases found
          · rw [if_neg blank] at found
            exact ⟨name, arguments, by rw [Option.some.inj found]⟩

private theorem callItems {calls : List ToolCallEntry}
    (identified : calls.map ToolCallEntry.callId? = ids.map some) :
    ∃ items, calls.mapM functionCallItem = some items ∧
      calls.filterMap functionCallItem = items ∧ items.map InputItem.call? = ids.map some ∧
      ∀ item ∈ items, item.output? = none := by
  induction calls generalizing ids with
  | nil =>
      exact ⟨[], rfl, rfl, identified, fun _item present => absurd present List.not_mem_nil⟩
  | cons entry rest ih =>
      cases ids with
      | nil => cases identified
      | cons id ids =>
          rw [List.map_cons, List.map_cons, List.cons.injEq] at identified
          obtain ⟨items, gathered, listed, named, silent⟩ := ih identified.2
          obtain ⟨name, arguments, same⟩ := call_of_callId identified.1
          have own : functionCallItem entry = some (.functionCall id name arguments) := by
            rw [same]
            rfl
          refine ⟨.functionCall id name arguments :: items, ?_, ?_, ?_, ?_⟩
          · rw [List.mapM_cons, own, gathered]
            rfl
          · rw [List.filterMap_cons_some own, listed]
          · rw [List.map_cons, List.map_cons, named]
            rfl
          · intro item present
            rcases List.mem_cons.mp present with first | later
            · exact first ▸ rfl
            · exact silent item later

private theorem convert_asking (state : Conversion) (assistant : message.isAssistant = true)
    (asks : message.calls ≠ [])
    (identified : message.calls.map ToolCallEntry.callId? = ids.map some) :
    ∃ next front, convertMessage options state message = some next ∧
      next.input = state.input ++ (front ++ functionCalls message) ∧
      (∀ item ∈ front, item.Plain) ∧
      (functionCalls message).map InputItem.call? = ids.map some ∧
      ∀ item ∈ functionCalls message, item.output? = none := by
  have role : message.role = "assistant" := of_decide_eq_true assistant
  obtain ⟨items, gathered, listed, named, silent⟩ := callItems identified
  have own : functionCalls message = items := by
    rw [functionCalls, if_pos assistant, listed]
  obtain ⟨thoughts, thought⟩ := extends_thought options state message
    (options.includeReasoning && decide (message.reasoningContent.getD "" ≠ ""))
    (message.reasoningContent.getD "")
  rw [own, convertMessage, if_neg (by rw [role]; decide), if_neg (by rw [role]; decide),
    if_pos role, convertAssistant, if_neg asks, gathered, Option.map_some]
  by_cases written : (convertAssistantContent message.content).truthy = true
  · simp only [if_pos written]
    have spoken := extends_trans thought
      (extends_message _ "assistant" (convertAssistantContent message.content))
    refine ⟨_, _, rfl, ?_, spoken.2, named, silent⟩
    rw [Conversion.add_input, spoken.1, List.append_assoc]
  · simp only [if_neg written]
    refine ⟨_, _, rfl, ?_, thought.2, named, silent⟩
    rw [Conversion.add_input, thought.1, List.append_assoc]

private theorem convert_tools (state : Conversion) {results : List ChatMessage}
    (rest : List ChatMessage) (tools : ∀ result ∈ results, result.isTool = true) :
    ∃ next outputs, convertFrom options state (results ++ rest) = convertFrom options next rest ∧
      next.input = state.input ++ outputs ∧
      outputs.map InputItem.output? =
        (results.map fun result => result.toolCallId.getD "").map some ∧
      ∀ item ∈ outputs, item.call? = none := by
  induction results generalizing state with
  | nil =>
      exact ⟨state, [], rfl, (List.append_nil _).symm, rfl,
        fun _item present => absurd present List.not_mem_nil⟩
  | cons result results ih =>
      have role : result.role = "tool" := of_decide_eq_true (tools result List.mem_cons_self)
      have converted : convertMessage options state result = some (state.add
          [.functionCallOutput (result.toolCallId.getD "") (toolOutput result.content)]) := by
        rw [convertMessage, if_neg (by rw [role]; decide), if_neg (by rw [role]; decide),
          if_neg (by rw [role]; decide), if_pos role]
      obtain ⟨next, outputs, same, added, named, silent⟩ := ih
        (state.add [.functionCallOutput (result.toolCallId.getD "") (toolOutput result.content)])
        fun other later => tools other (List.mem_cons_of_mem _ later)
      refine ⟨next, .functionCallOutput (result.toolCallId.getD "") (toolOutput result.content) ::
        outputs, ?_, ?_, ?_, ?_⟩
      · rw [List.cons_append, convertFrom, converted, Option.bind_some, same]
      · rw [added, Conversion.add_input, List.append_assoc]
        rfl
      · rw [List.map_cons, List.map_cons, List.map_cons, named]
        rfl
      · intro item present
        rcases List.mem_cons.mp present with first | later
        · exact first ▸ rfl
        · exact silent item later

/-! ### The conversion of a well-formed history -/

structure Accounted (messages : List ChatMessage) (items : List InputItem) : Prop where
  listed : items.filter InputItem.isCall = messages.flatMap functionCalls
  balanced : (items.filterMap InputItem.output?).Perm (items.filterMap InputItem.call?)
  opening : ∀ callId, answers callId items = 0
  matched : Matched items

private theorem filterMap_plain {front : List InputItem} (plain : ∀ item ∈ front, item.Plain) :
    front.filter InputItem.isCall = [] ∧ front.filterMap InputItem.output? = [] ∧
      front.filterMap InputItem.call? = [] :=
  ⟨List.filter_eq_nil_iff.mpr fun item present => by simp [InputItem.isCall, (plain item present).1],
    List.filterMap_eq_nil_iff.mpr fun item present => (plain item present).2,
    List.filterMap_eq_nil_iff.mpr fun item present => (plain item present).1⟩

private theorem filterMap_of_map {items : List InputItem} {name : InputItem → Option String}
    (named : items.map name = ids.map some) : items.filterMap name = ids := by
  have through : items.filterMap name = (items.map name).filterMap id := by
    rw [List.filterMap_map]
    rfl
  rw [through, named, List.filterMap_map]
  exact List.filterMap_some

private theorem Accounted.plain {rest : List ChatMessage} {front items : List InputItem}
    (plain : ∀ item ∈ front, item.Plain) (asks : functionCalls message = [])
    (behind : Accounted rest items) : Accounted (message :: rest) (front ++ items) := by
  obtain ⟨noCalls, noOutputs, noIds⟩ := filterMap_plain plain
  constructor
  · rw [List.filter_append, noCalls, behind.listed, List.flatMap_cons, asks]
  · rw [List.filterMap_append, List.filterMap_append, noOutputs, noIds]
    exact behind.balanced
  · intro callId
    rw [answers_plain callId items plain, behind.opening callId]
  · exact matched_plain plain behind.matched

private theorem Accounted.group {results rest : List ChatMessage}
    {front outputs items : List InputItem} {ids answered : List String}
    (tools : ∀ result ∈ results, result.isTool = true) (plain : ∀ item ∈ front, item.Plain)
    (named : (functionCalls message).map InputItem.call? = ids.map some)
    (silentCalls : ∀ item ∈ functionCalls message, item.output? = none) (distinct : ids.Nodup)
    (outputIds : outputs.map InputItem.output? = answered.map some)
    (silentOutputs : ∀ item ∈ outputs, item.call? = none) (complete : answered.Perm ids)
    (behind : Accounted rest items) :
    Accounted (message :: (results ++ rest))
      ((front ++ functionCalls message) ++ (outputs ++ items)) := by
  obtain ⟨noCalls, noOutputs, noIds⟩ := filterMap_plain plain
  have allCalls : (functionCalls message).filter InputItem.isCall = functionCalls message := by
    refine List.filter_eq_self.mpr fun item present => ?_
    have found : item.call? ∈ ids.map some := named ▸ List.mem_map_of_mem present
    obtain ⟨id, _asked, same⟩ := List.mem_map.mp found
    rw [InputItem.isCall, ← same]
    rfl
  have resultCalls : results.flatMap functionCalls = [] := by
    refine List.flatMap_eq_nil_iff.mpr fun result present => ?_
    rw [functionCalls, if_neg]
    intro assistant
    exact absurd (tool_of_assistant assistant) (by simp [tools result present])
  have once : ∀ id, answers id (outputs ++ items) = ids.count id := by
    intro id
    rw [answers_outputs id items outputIds silentOutputs, behind.opening id, complete.count_eq]
    rfl
  constructor
  · rw [List.filter_append, List.filter_append, List.filter_append, noCalls, allCalls,
      List.filter_eq_nil_iff.mpr fun item present => by
        simp [InputItem.isCall, silentOutputs item present],
      behind.listed, List.flatMap_cons, List.flatMap_append, resultCalls]
    rfl
  · rw [List.filterMap_append, List.filterMap_append, List.filterMap_append,
      List.filterMap_append, List.filterMap_append, List.filterMap_append, noOutputs, noIds,
      List.filterMap_eq_nil_iff.mpr silentCalls, List.filterMap_eq_nil_iff.mpr silentOutputs,
      filterMap_of_map outputIds, filterMap_of_map named]
    exact complete.append behind.balanced
  · intro callId
    rw [List.append_assoc, answers_plain callId _ plain,
      answers_calls callId _ named silentCalls, once callId]
    by_cases asked : callId ∈ ids
    · rw [if_pos asked]
    · rw [if_neg asked, List.count_eq_zero_of_not_mem asked]
  · rw [List.append_assoc]
    refine matched_plain plain (matched_calls named silentCalls distinct ?_
      (matched_outputs silentOutputs behind.matched))
    intro id asked
    rw [once id]
    exact List.count_eq_one_of_mem distinct asked

private theorem functionCalls_quiet (quiet : message.isAssistant = true → message.calls = []) :
    functionCalls message = [] := by
  rw [functionCalls]
  by_cases assistant : message.isAssistant = true
  · rw [if_pos assistant, quiet assistant]
    rfl
  · rw [if_neg assistant]

theorem convertFrom_wellFormed {messages : List ChatMessage} (formed : WellFormed messages)
    (state : Conversion) :
    ∃ next items, convertFrom options state messages = some next ∧
      next.input = state.input ++ items ∧ Accounted messages items := by
  induction formed generalizing state with
  | nil =>
      exact ⟨state, [], rfl, (List.append_nil _).symm,
        { listed := rfl, balanced := .nil, opening := fun _callId => rfl, matched := trivial }⟩
  | @plain message rest tool quiet formed ih =>
      obtain ⟨middle, front, converted, added⟩ := convert_plain options state tool quiet
      obtain ⟨next, items, whole, behind, accounted⟩ := ih middle
      refine ⟨next, front ++ items, ?_, ?_,
        accounted.plain added.2 (functionCalls_quiet quiet)⟩
      · rw [convertFrom, converted, Option.bind_some, whole]
      · rw [behind, added.1, List.append_assoc]
  | @group message ids results rest assistant asks identified distinct nonempty tools answered
      formed ih =>
      obtain ⟨asked, front, converted, added, plain, named, silentCalls⟩ :=
        convert_asking options state assistant asks identified
      obtain ⟨replied, outputs, rewritten, answers, outputIds, silentOutputs⟩ :=
        convert_tools options asked rest tools
      obtain ⟨next, items, whole, behind, accounted⟩ := ih replied
      have complete : (results.map fun result => result.toolCallId.getD "").Perm ids := by
        have mapped := answered.map fun id => id.getD ""
        rw [List.map_map, List.map_map] at mapped
        have own : ids.map ((fun id : Option String => id.getD "") ∘ some) = ids := List.map_id ids
        rw [own] at mapped
        exact mapped
      refine ⟨next, (front ++ functionCalls message) ++ (outputs ++ items), ?_, ?_,
        accounted.group tools plain named silentCalls distinct outputIds silentOutputs complete⟩
      · rw [convertFrom, converted, Option.bind_some, rewritten, whole]
      · rw [behind, answers, added, List.append_assoc, List.append_assoc]

/-- The normalised history keeps the protocol and all that was said, is its own normal form, and as
Responses input answers every call once before its id is used again. -/
theorem normalized_history_conforms (preserveReasoningOnly : Bool) (options : ConversionOptions)
    (messages : List ChatMessage) :
    WellFormed (normalizeChatMessages preserveReasoningOnly messages) ∧
      normalizeChatMessages preserveReasoningOnly
          (normalizeChatMessages preserveReasoningOnly messages) =
        normalizeChatMessages preserveReasoningOnly messages ∧
      ((normalizeChatMessages preserveReasoningOnly messages).filter
          ChatMessage.spoken).map ChatMessage.untied =
        (messages.filter ChatMessage.spoken).map ChatMessage.untied ∧
      (WellFormed messages →
        normalizeChatMessages preserveReasoningOnly messages =
          tidy preserveReasoningOnly messages) ∧
      ∃ instructions input,
        convertMessagesToResponsesInput options
          (normalizeChatMessages preserveReasoningOnly messages) = some (instructions, input) ∧
        input.filter InputItem.isCall =
          (normalizeChatMessages preserveReasoningOnly messages).flatMap functionCalls ∧
        (input.filterMap InputItem.output?).Perm (input.filterMap InputItem.call?) ∧
        Matched input := by
  have formed := normalize_wellFormed preserveReasoningOnly messages
  obtain ⟨next, items, converted, added, accounted⟩ :=
    convertFrom_wellFormed options formed .start
  have input : next.input = items := added
  refine ⟨formed, normalize_idempotent preserveReasoningOnly messages,
    normalize_spoken preserveReasoningOnly messages,
    fun already => normalize_of_wellFormed preserveReasoningOnly already,
    next.instructions, next.input, ?_, ?_⟩
  · rw [convertMessagesToResponsesInput, converted]
    rfl
  · rw [input]
    exact ⟨accounted.listed, accounted.balanced, accounted.matched⟩

private def weatherCall : ChatMessage :=
  { ChatMessage.plain "assistant" (.text "") with
    toolCalls := some [.call (some "call_0") "weather" "\x7b\x7d"] }

private def weatherResult (text : String) : ChatMessage :=
  { ChatMessage.plain "tool" (.text text) with toolCallId := some "call_0" }

private def silentThought : ChatMessage :=
  { ChatMessage.plain "assistant" .null with reasoningContent := some "hm" }

/-- A reused call id gets two outputs behind the first call; an assistant message that only thought
is lost. -/
theorem reused_call_id_is_answered_twice :
    ¬ (∀ preserveReasoningOnly options messages instructions input,
        convertMessagesToResponsesInput options
          (normalizeChatMessages preserveReasoningOnly messages) = some (instructions, input) →
        ∀ before callId name arguments after,
          input = before ++ .functionCall callId name arguments :: after →
          after.countP (fun item => decide (item.output? = some callId)) = 1) ∧
      ¬ (∀ preserveReasoningOnly messages, WellFormed messages →
        normalizeChatMessages preserveReasoningOnly messages =
          messages.map ChatMessage.emptied) := by
  constructor
  · intro once
    have twice := once false ⟨false, false⟩
      [weatherCall, weatherResult "sun", weatherCall, weatherResult "rain"] none
      [.functionCall "call_0" "weather" "\x7b\x7d", .functionCallOutput "call_0" "sun",
        .functionCall "call_0" "weather" "\x7b\x7d", .functionCallOutput "call_0" "rain"]
      (by decide) [] "call_0" "weather" "\x7b\x7d" _ rfl
    exact absurd twice (by decide)
  · intro unchanged
    have lost := unchanged false [silentThought] (.plain rfl (fun _assistant => rfl) .nil)
    exact absurd lost (by decide)

end Ftre.Llm
