import Ftre.Session.Derive

/-!
Facts about the event fold: per-message changes keep the id and the tool calls of a message, every
tool call of the transcript is indexed, and the owner of an indexed call is present.
-/

namespace Ftre.Session

open Lib Message

/-! ### Changes keep ids and tool calls -/

@[simp] theorem touch_id (event : Event) (message : Msg) : (touch event message).id = message.id := rfl

@[simp] theorem touch_content (event : Event) (message : Msg) :
    (touch event message).content = message.content := rfl

@[simp] theorem touch_toolCallIds (event : Event) (message : Msg) :
    (touch event message).toolCallIds = message.toolCallIds := rfl

@[simp] theorem appendBlock_id (block : ContentBlock) (message : Msg) :
    (appendBlock block message).id = message.id := rfl

theorem assistantMessageOf_id (seq time : Int) (payload : Msg) (data : EventData) :
    (assistantMessageOf ⟨seq, time, some payload.id, data⟩ payload).id = payload.id := by
  change ((Option.bind (some payload.id) fun id => if id = "" then none else some id).getD
    payload.id) = payload.id
  rw [Option.bind_some]
  by_cases unnamed : payload.id = ""
  · rw [if_pos unnamed, Option.getD_none]
  · rw [if_neg unnamed, Option.getD_some]

theorem appendBlock_toolCallIds (block : ContentBlock) (message : Msg) :
    (appendBlock block message).toolCallIds =
      message.toolCallIds ++ (block.asToolCall?.map ToolCallBlock.id).toList := by
  simp only [Msg.toolCallIds, appendBlock, List.filterMap_append, List.filterMap_cons,
    List.filterMap_nil]
  cases block.asToolCall? <;> rfl

/-- A change of one element that keeps what `pick` reads of it keeps what it
reads of the list. -/
theorem changeFirst_filterMap {α β : Type} {change : α → Option α} {pick : α → Option β}
    (keeps : ∀ element changed, change element = some changed → pick changed = pick element)
    {elements changed : List α} (done : changeFirst change elements = some changed) :
    changed.filterMap pick = elements.filterMap pick := by
  induction elements generalizing changed with
  | nil => cases done
  | cons head rest ih =>
      unfold changeFirst at done
      cases hit : change head with
      | some element =>
          rw [hit] at done
          cases done
          simp only [List.filterMap_cons, keeps head element hit]
      | none =>
          rw [hit] at done
          obtain ⟨later, found, rfl⟩ := Option.map_eq_some_iff.mp done
          simp only [List.filterMap_cons, ih found]

private theorem growText_keeps (blockId delta : String) (block changed : ContentBlock)
    (grown : growText blockId delta block = some changed) :
    changed.asToolCall?.map ToolCallBlock.id = block.asToolCall?.map ToolCallBlock.id := by
  cases block with
  | text held =>
      obtain ⟨_, same⟩ := Option.ite_none_right_eq_some.mp grown
      cases same
      rfl
  | _ => cases grown

private theorem growThinking_keeps (blockId delta : String) (block changed : ContentBlock)
    (grown : growThinking blockId delta block = some changed) :
    changed.asToolCall?.map ToolCallBlock.id = block.asToolCall?.map ToolCallBlock.id := by
  cases block with
  | thinking held =>
      obtain ⟨_, same⟩ := Option.ite_none_right_eq_some.mp grown
      cases same
      rfl
  | _ => cases grown

private theorem growToolResult_keeps (toolCallId delta createdAt : String)
    (block changed : ContentBlock)
    (grown : growToolResult toolCallId delta createdAt block = some changed) :
    changed.asToolCall?.map ToolCallBlock.id = block.asToolCall?.map ToolCallBlock.id := by
  cases block with
  | toolResult held =>
      obtain ⟨_, same⟩ := Option.ite_none_right_eq_some.mp grown
      cases same
      rfl
  | _ => cases grown

private theorem finishCall_keeps (toolCallId finishedAt : String) (block changed : ContentBlock)
    (finished : finishCall toolCallId finishedAt block = some changed) :
    changed.asToolCall?.map ToolCallBlock.id = block.asToolCall?.map ToolCallBlock.id := by
  cases block with
  | toolCall held =>
      obtain ⟨_, same⟩ := Option.ite_none_right_eq_some.mp finished
      cases same
      rfl
  | _ => cases finished

theorem appendAssistantDelta_id (kind blockId delta createdAt : String) (message : Msg) :
    (appendAssistantDelta kind blockId delta createdAt message).id = message.id := by
  unfold appendAssistantDelta
  dsimp only
  split <;> rfl

theorem appendAssistantDelta_toolCallIds (kind blockId delta createdAt : String) (message : Msg) :
    (appendAssistantDelta kind blockId delta createdAt message).toolCallIds =
      message.toolCallIds := by
  unfold appendAssistantDelta
  dsimp only
  split
  · rename_i content changed
    by_cases textual : kind = "text"
    · rw [if_pos textual] at changed
      exact changeFirst_filterMap (growText_keeps blockId delta) changed
    · rw [if_neg textual] at changed
      exact changeFirst_filterMap (growThinking_keeps blockId delta) changed
  · rw [appendBlock_toolCallIds]
    split <;> exact List.append_nil _

theorem ensureRunningToolResult_id (toolCallId name createdAt : String) (message : Msg) :
    (ensureRunningToolResult toolCallId name createdAt message).id = message.id := by
  unfold ensureRunningToolResult
  split <;> rfl

theorem ensureRunningToolResult_toolCallIds (toolCallId name createdAt : String) (message : Msg) :
    (ensureRunningToolResult toolCallId name createdAt message).toolCallIds =
      message.toolCallIds := by
  unfold ensureRunningToolResult
  split
  · rfl
  · rw [appendBlock_toolCallIds]
    exact List.append_nil _

theorem appendToolResultDelta_id (event : Event) (toolCallId delta : String) (message : Msg) :
    (appendToolResultDelta event toolCallId delta message).id = message.id := by
  unfold appendToolResultDelta
  dsimp only
  split <;> exact ensureRunningToolResult_id ..

theorem appendToolResultDelta_toolCallIds (event : Event) (toolCallId delta : String)
    (message : Msg) :
    (appendToolResultDelta event toolCallId delta message).toolCallIds = message.toolCallIds := by
  unfold appendToolResultDelta
  dsimp only
  split
  · exact ensureRunningToolResult_toolCallIds ..
  · rw [touch_toolCallIds, ← ensureRunningToolResult_toolCallIds toolCallId _ _ message]
    unfold Msg.toolCallIds
    dsimp only
    cases grown : changeFirst (growToolResult toolCallId delta _) _ with
    | none => rfl
    | some content => exact changeFirst_filterMap (growToolResult_keeps _ _ _) grown

private theorem eraseP_toolCallIds (toolCallId : String) (content : List ContentBlock) :
    (content.eraseP (isToolResultOf toolCallId)).filterMap
        (fun block => block.asToolCall?.map ToolCallBlock.id) =
      content.filterMap (fun block => block.asToolCall?.map ToolCallBlock.id) := by
  induction content with
  | nil => rfl
  | cons head rest ih =>
      cases hit : isToolResultOf toolCallId head with
      | true =>
          have notCall : head.asToolCall? = none := by
            cases head with
            | toolResult _ => rfl
            | _ => cases hit
          simp [List.eraseP_cons_of_pos hit, notCall]
      | false =>
          rw [List.eraseP_cons_of_neg (by simp [hit])]
          simp only [List.filterMap_cons, ih]

theorem recordToolResult_toolCallIds (event : Event) (result : ToolResultBlock) (message : Msg) :
    (recordToolResult event result message).toolCallIds = message.toolCallIds := by
  have kept : ((message.content.eraseP (isToolResultOf result.id)) ++
      [ContentBlock.toolResult result]).filterMap
        (fun block => block.asToolCall?.map ToolCallBlock.id) = message.toolCallIds := by
    rw [List.filterMap_append, eraseP_toolCallIds]
    exact List.append_nil _
  unfold recordToolResult
  rw [touch_toolCallIds]
  unfold Msg.toolCallIds
  dsimp only
  cases finished : changeFirst (finishCall result.id (isoFromMs event.time)) _ with
  | none => exact kept
  | some content =>
      rw [Option.getD_some, changeFirst_filterMap (finishCall_keeps _ _) finished]
      exact kept

theorem mem_toolCallIds (message : Msg) (id : String) :
    id ∈ message.toolCallIds ↔ (message.findToolCall id).isSome := by
  unfold Msg.toolCallIds Msg.findToolCall
  rw [List.mem_filterMap, Option.isSome_iff_exists]
  constructor
  · rintro ⟨block, member, identified⟩
    obtain ⟨call, isCall, rfl⟩ := Option.map_eq_some_iff.mp identified
    rw [← Option.isSome_iff_exists, List.findSome?_isSome_iff]
    exact ⟨block, member, by simp [isCall]⟩
  · rintro ⟨call, found⟩
    obtain ⟨block, member, hit⟩ := List.exists_of_findSome?_eq_some found
    obtain ⟨candidate, isCall, matched⟩ := Option.bind_eq_some_iff.mp hit
    by_cases same : candidate.id = id
    · exact ⟨block, member, by rw [isCall, Option.map_some, same]⟩
    · rw [if_neg same] at matched
      cases matched

/-! ### The index of tool calls -/

namespace FoldState

structure Indexed (state : FoldState) : Prop where
  registered : ∀ message ∈ state.messages.items, ∀ id ∈ message.toolCallIds,
    (state.toolCalls.find? id).isSome
  owned : ∀ id owner, state.toolCalls.find? id = some owner →
    (state.messages.find? owner).isSome

theorem indexed_empty : Indexed empty where
  registered := by
    intro message member
    cases member
  owned := by
    intro id owner found
    cases found

variable {state : FoldState}

theorem Indexed.update (indexed : Indexed state) {message : Msg}
    (registered : ∀ id ∈ message.toolCallIds, (state.toolCalls.find? id).isSome) :
    Indexed (state.update message) where
  registered := by
    intro other member id listed
    rcases KeyedList.mem_put member with rfl | earlier
    · exact registered id listed
    · exact indexed.registered other earlier id listed
  owned := fun id owner found => KeyedList.find?_put_isSome _ _ (indexed.owned id owner found)

theorem find?_register (ids : List String) (owner : String) (calls : KeyedTable String String)
    (id : String) :
    (ids.foldl (fun current id => current.set id owner) calls).find? id =
      if id ∈ ids then some owner else calls.find? id := by
  induction ids generalizing calls with
  | nil => rfl
  | cons head rest ih =>
      rw [List.foldl_cons, ih, KeyedTable.find?_set]
      by_cases inRest : id ∈ rest
      · rw [if_pos inRest, if_pos (List.mem_cons_of_mem _ inRest)]
      · by_cases same : head = id
        · rw [if_neg inRest, if_pos same, if_pos (same ▸ List.mem_cons_self)]
        · have absent : id ∉ head :: rest := by
            simp [inRest, Ne.symm same]
          rw [if_neg inRest, if_neg same, if_neg absent]

theorem find?_insert (state : FoldState) (message : Msg) (id : String) :
    (state.insert message).toolCalls.find? id =
      if id ∈ message.toolCallIds then some message.id else state.toolCalls.find? id :=
  find?_register message.toolCallIds message.id state.toolCalls id

theorem Indexed.insert (indexed : Indexed state) (message : Msg) :
    Indexed (state.insert message) where
  registered := by
    intro other member id listed
    rw [find?_insert]
    rcases KeyedList.mem_put member with rfl | earlier
    · rw [if_pos listed]
      rfl
    · split
      · rfl
      · exact indexed.registered other earlier id listed
  owned := by
    intro id owner found
    rw [find?_insert] at found
    split at found
    · cases found
      rw [show (state.insert message).messages = state.messages.put message from rfl,
        KeyedList.find?_put_self]
      rfl
    · exact KeyedList.find?_put_isSome _ _ (indexed.owned id owner found)

theorem ensureAssistant_id (state : FoldState) (id : String) (event : Event) :
    (state.ensureAssistant id event).id = id := by
  unfold ensureAssistant
  cases found : state.messages.find? id with
  | none => rfl
  | some message => exact (KeyedList.find?_mem found).2

theorem Indexed.ensureAssistant (indexed : Indexed state) (id : String) (event : Event) :
    ∀ call ∈ (state.ensureAssistant id event).toolCallIds, (state.toolCalls.find? call).isSome := by
  unfold FoldState.ensureAssistant
  cases found : state.messages.find? id with
  | none =>
      intro call listed
      cases listed
  | some message => exact indexed.registered message (KeyedList.find?_mem found).1

theorem sealTarget_mem {messages : List Msg} {message : Msg}
    (target : sealTarget messages = some message) : message ∈ messages := by
  unfold sealTarget at target
  cases last : messages.reverse.find? fun other => other.role ≠ .system with
  | none => rw [last] at target; cases target
  | some other =>
      rw [last] at target
      by_cases unfinished : other.role = .assistant ∧ other.finishedAt = none
      · simp only [if_pos unfinished] at target
        cases target
        exact List.mem_reverse.mp (List.mem_of_find?_eq_some last)
      · simp only [if_neg unfinished] at target
        cases target

theorem Indexed.sealPrevious (indexed : Indexed state) (event : Event) :
    Indexed (state.sealPreviousAssistant event) := by
  unfold sealPreviousAssistant
  cases target : sealTarget state.messages.items with
  | none => exact indexed
  | some message => exact indexed.update (indexed.registered message (sealTarget_mem target))

theorem toolOwner_eq (indexed : Indexed state) (toolCallId : String) :
    state.toolOwner toolCallId =
      (state.toolCalls.find? toolCallId).bind state.messages.find? := by
  unfold toolOwner
  cases found : state.toolCalls.find? toolCallId with
  | some owner => rfl
  | none =>
      have nobody : state.messages.items.reverse.find? (fun message =>
          message.role = .assistant && (message.findToolCall toolCallId).isSome) = none := by
        rw [List.find?_eq_none]
        intro message member holds
        have listed : toolCallId ∈ message.toolCallIds :=
          (mem_toolCallIds message toolCallId).mpr (Bool.and_eq_true_iff.mp holds).2
        have present := indexed.registered message (List.mem_reverse.mp member) toolCallId listed
        rw [found] at present
        cases present
      simp only [nobody, Option.bind_none]

theorem toolOwner_mem (indexed : Indexed state) {toolCallId : String} {message : Msg}
    (owner : state.toolOwner toolCallId = some message) : message ∈ state.messages.items := by
  rw [toolOwner_eq indexed] at owner
  obtain ⟨_, _, found⟩ := Option.bind_eq_some_iff.mp owner
  exact (KeyedList.find?_mem found).1

theorem Indexed.startToolCall (indexed : Indexed state) (event : Event) (toolCallId name : String)
    (arguments : KeyedTable String Json) :
    Indexed (state.startToolCall event toolCallId name arguments) := by
  unfold FoldState.startToolCall
  cases event.target with
  | none => exact indexed
  | some id =>
      have ensured := indexed.ensureAssistant id event
      cases found : (state.ensureAssistant id event).findToolCall toolCallId with
      | some _ =>
          simp only [found]
          exact indexed.update ensured
      | none =>
          simp only [found]
          constructor
          · intro other member call listed
            rw [KeyedTable.find?_set]
            split
            · rfl
            · rename_i different
              rcases KeyedList.mem_put member with rfl | earlier
              · rw [appendBlock_toolCallIds] at listed
                rcases List.mem_append.mp listed with old | new
                · exact ensured call old
                · have only : call = toolCallId := by simpa [ContentBlock.asToolCall?] using new
                  exact absurd only.symm different
              · exact indexed.registered other earlier call listed
          · intro call owner held
            rw [KeyedTable.find?_set] at held
            split at held
            · cases held
              have placed := KeyedList.find?_put_self state.messages
                (appendBlock (.toolCall ⟨toolCallId, name, arguments, .pending,
                  isoFromMs event.time, none⟩) (state.ensureAssistant id event))
              rw [appendBlock_id, ensureAssistant_id] at placed
              rw [placed]
              rfl
            · exact KeyedList.find?_put_isSome _ _ (indexed.owned call owner held)

theorem Indexed.applyEvent (indexed : Indexed state) (event : Event) :
    Indexed (applyEvent state event) := by
  unfold Session.applyEvent
  cases event.data with
  | userMessage content metadata _ => exact (indexed.sealPrevious event).insert _
  | assistantMessage payload => exact indexed.insert _
  | compactMessage data => exact (indexed.sealPrevious event).insert _
  | toolCallStart toolCallId name arguments => exact indexed.startToolCall ..
  | approvalAsked _ _ _ _ _ => exact indexed
  | turnStart _ => exact indexed
  | turnRetry _ _ _ _ _ => exact indexed
  | sessionStatus _ _ => exact indexed
  | hintMessage hint source =>
      simp only [appendHint]
      cases event.target with
      | none => exact indexed
      | some id =>
          refine indexed.update ?_
          rw [appendBlock_toolCallIds]
          simpa [ContentBlock.asToolCall?] using indexed.ensureAssistant id event
  | assistantChunk kind delta blockId toolCallId =>
      by_cases spoken : kind = "text" ∨ kind = "thinking"
      · simp only [if_pos spoken, appendAssistantChunk]
        cases event.target with
        | none => exact indexed
        | some id =>
            refine indexed.update ?_
            rw [appendAssistantDelta_toolCallIds]
            exact indexed.ensureAssistant id event
      · by_cases streamed : kind = "tool_result_text"
        · simp only [if_neg spoken, if_pos streamed, appendToolResultChunk]
          split
          · exact indexed
          · cases owner : state.toolOwner (toolCallId.getD "") with
            | none => exact indexed
            | some message =>
                refine indexed.update ?_
                rw [appendToolResultDelta_toolCallIds]
                exact indexed.registered message (toolOwner_mem indexed owner)
        · simp only [if_neg spoken, if_neg streamed]
          exact indexed
  | toolResultStart toolCallId name =>
      simp only [startToolResult]
      split
      · exact indexed
      · cases owner : state.toolOwner toolCallId with
        | none => exact indexed
        | some message =>
            refine indexed.update ?_
            rw [touch_toolCallIds, ensureRunningToolResult_toolCallIds]
            exact indexed.registered message (toolOwner_mem indexed owner)
  | toolResult toolCallId name output resultState metadata =>
      simp only [finishToolResult]
      cases owner : state.toolOwner _ with
      | none => exact indexed
      | some message =>
          refine indexed.update ?_
          rw [recordToolResult_toolCallIds]
          exact indexed.registered message (toolOwner_mem indexed owner)
  | turnEnd data =>
      simp only [finishTurn]
      cases found : event.target.bind state.messages.find? with
      | none => exact indexed
      | some message =>
          by_cases assistant : message.role = .assistant
          · simp only [if_pos assistant]
            obtain ⟨_, _, held⟩ := Option.bind_eq_some_iff.mp found
            exact indexed.update (indexed.registered message (KeyedList.find?_mem held).1)
          · simp only [if_neg assistant]
            exact indexed

theorem indexed_fold (events : List Event) (indexed : Indexed state) :
    Indexed (foldEvents state events) := by
  induction events generalizing state with
  | nil => exact indexed
  | cons event rest ih => exact ih (indexed.applyEvent event)

end FoldState

end Ftre.Session
