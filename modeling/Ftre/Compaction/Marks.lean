import Ftre.Compaction.ContextView

/-!
What one event does to the message table, and what of it the view depends on: the ids and, for a
summary, the message it covers up to.
-/

namespace Ftre.Compaction

open Lib Message Session FoldState

def standing (message : Msg) : String × Role × MsgName × KeyedTable String Json :=
  (message.id, message.role, message.name, message.metadata)

@[simp] theorem touch_standing (event : Event) (message : Msg) :
    standing (touch event message) = standing message := rfl

@[simp] theorem appendBlock_standing (block : ContentBlock) (message : Msg) :
    standing (appendBlock block message) = standing message := rfl

@[simp] theorem sealed_standing (event : Event) (message : Msg) :
    standing (sealed event message) = standing message := rfl

@[simp] theorem endTurn_standing (event : Event) (data : TurnEndData) (message : Msg) :
    standing (endTurn event data message) = standing message := rfl

@[simp] theorem recordToolResult_standing (event : Event) (result : ToolResultBlock)
    (message : Msg) : standing (recordToolResult event result message) = standing message := rfl

@[simp] theorem appendAssistantDelta_standing (kind blockId delta createdAt : String)
    (message : Msg) :
    standing (appendAssistantDelta kind blockId delta createdAt message) = standing message := by
  unfold appendAssistantDelta
  dsimp only
  split <;> rfl

@[simp] theorem ensureRunningToolResult_standing (toolCallId name createdAt : String)
    (message : Msg) :
    standing (ensureRunningToolResult toolCallId name createdAt message) = standing message := by
  unfold ensureRunningToolResult
  split <;> rfl

@[simp] theorem appendToolResultDelta_standing (event : Event) (toolCallId delta : String)
    (message : Msg) :
    standing (appendToolResultDelta event toolCallId delta message) = standing message := by
  unfold appendToolResultDelta
  dsimp only
  split <;> exact ensureRunningToolResult_standing ..

/-! ### Results of a message changed in place -/

theorem toolResults_appendBlock {block : ContentBlock} (other : block.asToolResult? = none)
    (message : Msg) : toolResults (appendBlock block message) = toolResults message := by
  unfold toolResults appendBlock
  rw [List.filterMap_append, List.filterMap_cons, other, List.filterMap_nil, List.append_nil]

private theorem growText_results (blockId delta : String) (block changed : ContentBlock)
    (grown : growText blockId delta block = some changed) :
    changed.asToolResult? = block.asToolResult? := by
  cases block with
  | text held =>
      obtain ⟨_, same⟩ := Option.ite_none_right_eq_some.mp grown
      cases same
      rfl
  | _ => cases grown

private theorem growThinking_results (blockId delta : String) (block changed : ContentBlock)
    (grown : growThinking blockId delta block = some changed) :
    changed.asToolResult? = block.asToolResult? := by
  cases block with
  | thinking held =>
      obtain ⟨_, same⟩ := Option.ite_none_right_eq_some.mp grown
      cases same
      rfl
  | _ => cases grown

private theorem finishCall_results (toolCallId finishedAt : String) (block changed : ContentBlock)
    (finished : finishCall toolCallId finishedAt block = some changed) :
    changed.asToolResult? = block.asToolResult? := by
  cases block with
  | toolCall held =>
      obtain ⟨_, same⟩ := Option.ite_none_right_eq_some.mp finished
      cases same
      rfl
  | _ => cases finished

theorem toolResults_delta (kind blockId delta createdAt : String) (message : Msg) :
    toolResults (appendAssistantDelta kind blockId delta createdAt message) =
      toolResults message := by
  unfold appendAssistantDelta
  dsimp only
  split
  · rename_i content changed
    by_cases textual : kind = "text"
    · rw [if_pos textual] at changed
      exact changeFirst_filterMap (growText_results blockId delta) changed
    · rw [if_neg textual] at changed
      exact changeFirst_filterMap (growThinking_results blockId delta) changed
  · apply toolResults_appendBlock
    split <;> rfl

variable {toolCallId : String} {result : ToolResultBlock}

theorem mem_ensured {name createdAt : String} {message : Msg}
    (present : result ∈ toolResults
      (ensureRunningToolResult toolCallId name createdAt message)) :
    result.id = toolCallId ∨ result ∈ toolResults message := by
  unfold ensureRunningToolResult at present
  split at present
  · exact Or.inr present
  · unfold toolResults appendBlock at present
    rw [List.filterMap_append, List.mem_append] at present
    rcases present with held | started
    · exact Or.inr held
    · rw [List.mem_singleton.mp started]
      exact Or.inl rfl

private theorem changeFirst_results {change : ContentBlock → Option ContentBlock}
    (own : ∀ block changed, change block = some changed →
      ∃ result, changed = .toolResult result ∧ result.id = toolCallId)
    {blocks changed : List ContentBlock} (done : changeFirst change blocks = some changed)
    (present : result ∈ changed.filterMap ContentBlock.asToolResult?) :
    result.id = toolCallId ∨ result ∈ blocks.filterMap ContentBlock.asToolResult? := by
  induction blocks generalizing changed with
  | nil => cases done
  | cons head rest ih =>
      unfold changeFirst at done
      cases hit : change head with
      | some block =>
          rw [hit] at done
          cases done
          obtain ⟨grown, rfl, same⟩ := own head block hit
          rw [List.filterMap_cons] at present
          rcases List.mem_cons.mp present with rfl | later
          · exact Or.inl same
          · obtain ⟨other, member, picked⟩ := List.mem_filterMap.mp later
            exact Or.inr (List.mem_filterMap.mpr ⟨other, List.mem_cons_of_mem _ member, picked⟩)
      | none =>
          rw [hit] at done
          obtain ⟨later, found, rfl⟩ := Option.map_eq_some_iff.mp done
          obtain ⟨other, member, picked⟩ := List.mem_filterMap.mp present
          rcases List.mem_cons.mp member with rfl | within
          · exact Or.inr (List.mem_filterMap.mpr ⟨_, List.mem_cons_self, picked⟩)
          · refine (ih found (List.mem_filterMap.mpr ⟨other, within, picked⟩)).imp_right ?_
            intro before
            obtain ⟨origin, listed, same⟩ := List.mem_filterMap.mp before
            exact List.mem_filterMap.mpr ⟨origin, List.mem_cons_of_mem _ listed, same⟩

private theorem growToolResult_own (toolCallId delta createdAt : String)
    (block changed : ContentBlock)
    (grown : growToolResult toolCallId delta createdAt block = some changed) :
    ∃ result, changed = .toolResult result ∧ result.id = toolCallId := by
  cases block with
  | toolResult held =>
      obtain ⟨same, grows⟩ := Option.ite_none_right_eq_some.mp grown
      cases grows
      exact ⟨growOutput delta createdAt held, rfl, same⟩
  | _ => cases grown

theorem mem_resultDelta {event : Event} {delta : String} {message : Msg}
    (present : result ∈ toolResults (appendToolResultDelta event toolCallId delta message)) :
    result.id = toolCallId ∨ result ∈ toolResults message := by
  unfold appendToolResultDelta at present
  dsimp only at present
  split at present
  · exact mem_ensured present
  · cases grown : changeFirst (growToolResult toolCallId delta (isoFromMs event.time))
        (ensureRunningToolResult toolCallId
          (((message.findToolCall toolCallId).map ToolCallBlock.name).getD "")
          (isoFromMs event.time) message).content with
    | none =>
        rw [grown] at present
        exact mem_ensured present
    | some content =>
        rw [grown] at present
        rcases changeFirst_results (growToolResult_own _ _ _) grown present with own | before
        · exact Or.inl own
        · exact mem_ensured before

theorem mem_recorded {event : Event} {recorded : ToolResultBlock} {message : Msg}
    (present : result ∈ toolResults (recordToolResult event recorded message)) :
    result.id = recorded.id ∨ result ∈ toolResults message := by
  have content : toolResults (recordToolResult event recorded message) =
      (message.content.eraseP (isToolResultOf recorded.id) ++
        [ContentBlock.toolResult recorded]).filterMap ContentBlock.asToolResult? := by
    unfold recordToolResult toolResults
    dsimp only [touch_content]
    cases finished : changeFirst (finishCall recorded.id (isoFromMs event.time))
        (message.content.eraseP (isToolResultOf recorded.id) ++ [.toolResult recorded]) with
    | none => rfl
    | some changed => exact changeFirst_filterMap (finishCall_results _ _) finished
  rw [content, List.filterMap_append, List.mem_append] at present
  rcases present with held | own
  · obtain ⟨block, member, picked⟩ := List.mem_filterMap.mp held
    exact Or.inr (List.mem_filterMap.mpr ⟨block, List.mem_of_mem_eraseP member, picked⟩)
  · rw [List.mem_singleton.mp own]
    exact Or.inl rfl

/-! ### What an event does -/

variable {state : FoldState} {message : Msg} {event : Event}

theorem toolOwner_present {state : FoldState} {toolCallId : String} {message : Msg}
    (owner : state.toolOwner toolCallId = some message) : message ∈ state.messages.items := by
  unfold toolOwner at owner
  cases found : state.toolCalls.find? toolCallId with
  | some id =>
      rw [found] at owner
      exact (KeyedList.find?_mem owner).1
  | none =>
      rw [found] at owner
      exact List.mem_reverse.mp (List.mem_of_find?_eq_some owner)

def writtenMessage (event : Event) : Option Msg :=
  match event.data with
  | .userMessage content metadata _ => some (userMessageOf event content metadata)
  | .assistantMessage payload => some (assistantMessageOf event payload)
  | .compactMessage data => some (compactMessageOf event data)
  | _ => none

def addressed (state : FoldState) (event : Event) : Option Msg :=
  match event.data with
  | .hintMessage _ _ => event.target.bind state.messages.find?
  | .toolCallStart _ _ _ => event.target.bind state.messages.find?
  | .turnEnd _ => event.target.bind state.messages.find?
  | .toolResultStart toolCallId _ => state.toolOwner toolCallId
  | .toolResult toolCallId _ _ _ _ => state.toolOwner toolCallId
  | .assistantChunk kind _ _ toolCallId =>
      if kind = "text" ∨ kind = "thinking" then event.target.bind state.messages.find?
      else state.toolOwner (toolCallId.getD "")
  | _ => none

def writtenResult (state : FoldState) (event : Event) : Option (String × String) :=
  let owned (toolCallId : String) : Option (String × String) :=
    (state.toolOwner toolCallId).map fun owner => (owner.id, toolCallId)
  match event.data with
  | .toolResultStart toolCallId _ => owned toolCallId
  | .toolResult toolCallId _ _ _ _ => owned toolCallId
  | .assistantChunk kind _ _ toolCallId =>
      if kind = "text" ∨ kind = "thinking" then none else owned (toolCallId.getD "")
  | _ => none

def KeepsResults (state : FoldState) (event : Event) (held message : Msg) : Prop :=
  toolResults message = toolResults held ∨
    ∃ toolCallId, writtenResult state event = some (held.id, toolCallId) ∧
      ∀ result ∈ toolResults message, result.id = toolCallId ∨ result ∈ toolResults held

inductive TableChange (state : FoldState) (event : Event) : MessageTable → Prop
  | kept : TableChange state event state.messages
  | changed {held message : Msg} (found : addressed state event = some held)
      (present : held ∈ state.messages.items) (same : standing message = standing held)
      (results : KeepsResults state event held message) :
      TableChange state event (state.messages.put message)
  | opened {message : Msg} (fresh : state.messages.find? message.id = none)
      (blank : standing message = (message.id, .assistant, .default, .empty))
      (empty : toolResults message = []) :
      TableChange state event (state.messages.put message)
  | written {message : Msg} {base : FoldState} (writes : writtenMessage event = some message)
      (origin : base = state ∨ base = state.sealPreviousAssistant event) :
      TableChange state event (base.messages.put message)

theorem change_ensured {id : String} (target : event.target = some id)
    (found : addressed state event = event.target.bind state.messages.find?)
    (same : standing message = standing (state.ensureAssistant id event))
    (results : toolResults message = toolResults (state.ensureAssistant id event)) :
    TableChange state event (state.messages.put message) := by
  unfold ensureAssistant at same results
  cases present : state.messages.find? id with
  | some held =>
      rw [present] at same results
      refine .changed ?_ (KeyedList.find?_mem present).1 same (Or.inl results)
      rw [found, target]
      exact present
  | none =>
      rw [present] at same results
      have ids : message.id = id := congrArg Prod.fst same
      refine .opened (by rw [ids]; exact present) ?_ results
      rw [ids]
      exact same

variable {held message : Msg} {table : MessageTable}

theorem change_owned {toolCallId : String}
    (found : addressed state event = state.toolOwner toolCallId)
    (writes : writtenResult state event =
      (state.toolOwner toolCallId).map fun owner => (owner.id, toolCallId))
    (owner : state.toolOwner toolCallId = some held) (same : standing message = standing held)
    (results : ∀ result ∈ toolResults message,
      result.id = toolCallId ∨ result ∈ toolResults held) :
    TableChange state event (state.messages.put message) :=
  .changed (found.trans owner) (toolOwner_present owner) same
    (Or.inr ⟨toolCallId, by rw [writes, owner]; rfl, results⟩)

theorem applyEvent_change (state : FoldState) (event : Event) :
    TableChange state event (applyEvent state event).messages := by
  unfold applyEvent
  cases kind : event.data with
  | userMessage content metadata requestId =>
      exact .written (by rw [writtenMessage, kind]) (.inr rfl)
  | compactMessage data => exact .written (by rw [writtenMessage, kind]) (.inr rfl)
  | assistantMessage payload => exact .written (by rw [writtenMessage, kind]) (.inl rfl)
  | approvalAsked _ _ _ _ _ => exact .kept
  | turnStart _ => exact .kept
  | turnRetry _ _ _ _ _ => exact .kept
  | sessionStatus _ _ => exact .kept
  | hintMessage hint source =>
      simp only [appendHint]
      cases target : event.target with
      | none => exact .kept
      | some id =>
          exact change_ensured target (by rw [addressed, kind]) (appendBlock_standing _ _)
            (toolResults_appendBlock rfl _)
  | assistantChunk chunk delta blockId toolCallId =>
      by_cases spoken : chunk = "text" ∨ chunk = "thinking"
      · simp only [if_pos spoken, appendAssistantChunk]
        cases target : event.target with
        | none => exact .kept
        | some id =>
            refine change_ensured target ?_ (appendAssistantDelta_standing ..)
              (toolResults_delta ..)
            rw [addressed, kind]
            exact if_pos spoken
      · by_cases streamed : chunk = "tool_result_text"
        · simp only [if_neg spoken, if_pos streamed, appendToolResultChunk]
          split
          · exact .kept
          · cases owner : state.toolOwner (toolCallId.getD "") with
            | none => exact .kept
            | some message =>
                refine change_owned ?_ ?_ owner (appendToolResultDelta_standing ..)
                  fun _ present => mem_resultDelta present
                · rw [addressed, kind]
                  exact if_neg spoken
                · rw [writtenResult, kind]
                  exact if_neg spoken
        · simp only [if_neg spoken, if_neg streamed]
          exact .kept
  | toolCallStart toolCallId name arguments =>
      simp only [startToolCall]
      cases target : event.target with
      | none => exact .kept
      | some id =>
          cases found : (state.ensureAssistant id event).findToolCall toolCallId with
          | some _ =>
              simp only [found]
              exact change_ensured target (by rw [addressed, kind]) rfl rfl
          | none =>
              simp only [found]
              exact change_ensured target (by rw [addressed, kind]) (appendBlock_standing _ _)
                (toolResults_appendBlock rfl _)
  | toolResultStart toolCallId name =>
      simp only [startToolResult]
      split
      · exact .kept
      · cases owner : state.toolOwner toolCallId with
        | none => exact .kept
        | some message =>
            refine change_owned (by rw [addressed, kind]) (by rw [writtenResult, kind]) owner ?_
              fun _ present => mem_ensured present
            rw [touch_standing, ensureRunningToolResult_standing]
  | toolResult toolCallId name output resultState metadata =>
      simp only [finishToolResult]
      cases owner : state.toolOwner (finalResult event toolCallId name output resultState
          metadata).id with
      | none => exact .kept
      | some message =>
          exact change_owned (by rw [addressed, kind]; rfl) (by rw [writtenResult, kind]; rfl) owner
            (recordToolResult_standing ..) fun _ present => mem_recorded present
  | turnEnd data =>
      simp only [finishTurn]
      cases found : event.target.bind state.messages.find? with
      | none => exact .kept
      | some message =>
          by_cases assistant : message.role = .assistant
          · simp only [if_pos assistant]
            obtain ⟨_, _, held⟩ := Option.bind_eq_some_iff.mp found
            exact .changed (by rw [addressed, kind, found]) (KeyedList.find?_mem held).1
              (endTurn_standing ..) (Or.inl rfl)
          · simp only [if_neg assistant]
            exact .kept

abbrev Mark := String × Option String

def mark (message : Msg) : Mark :=
  (message.id, if isSummary message then some (throughMessageId message) else none)

def marks (messages : List Msg) : List Mark := messages.map mark

theorem isSummary_congr {left right : Msg} (same : standing left = standing right) :
    isSummary left = isSummary right := by
  simp only [standing, Prod.mk.injEq] at same
  simp only [isSummary, same.2.1, same.2.2.1]

theorem mark_congr {left right : Msg} (same : standing left = standing right) :
    mark left = mark right := by
  have summaries := isSummary_congr same
  simp only [standing, Prod.mk.injEq] at same
  obtain ⟨ids, _, _, metadata⟩ := same
  have through : throughMessageId left = throughMessageId right := by
    unfold throughMessageId compactMetadata
    rw [metadata]
  rw [mark, mark, ids, summaries, through]

theorem mark_plain (plain : isSummary message = false) : mark message = (message.id, none) := by
  rw [mark, plain]
  rfl

theorem mark_id (message : Msg) : (mark message).1 = message.id := rfl

def GrewPlain (before after : MessageTable) : Prop :=
  ∃ added : List Mark, marks after.items = marks before.items ++ added ∧
    ∀ entry ∈ added, entry.2 = none

theorem GrewPlain.refl (table : MessageTable) : GrewPlain table table :=
  ⟨[], (List.append_nil _).symm, fun _entry present => absurd present List.not_mem_nil⟩

theorem GrewPlain.trans {first second third : MessageTable} (left : GrewPlain first second)
    (right : GrewPlain second third) : GrewPlain first third := by
  obtain ⟨earlier, grown, plain⟩ := left
  obtain ⟨later, further, bare⟩ := right
  refine ⟨earlier ++ later, by rw [further, grown, List.append_assoc], ?_⟩
  intro entry present
  exact (List.mem_append.mp present).elim (plain entry) (bare entry)

theorem grewPlain_put (plain : isSummary message = false)
    (free : ∀ held, table.find? message.id = some held → isSummary held = false) :
    GrewPlain table (table.put message) := by
  by_cases present : message.id ∈ table.items.map Msg.id
  · refine ⟨[], ?_, fun _entry member => absurd member List.not_mem_nil⟩
    rw [List.append_nil]
    apply KeyedList.putItem_map mark present
    intro held found
    have ids : held.id = message.id := (KeyedList.lookupItem_mem found).2
    rw [mark_plain plain, mark_plain (free held found), ids]
  · refine ⟨[mark message], ?_, ?_⟩
    · change marks (KeyedList.putItem Msg.id message table.items) = _
      rw [KeyedList.putItem_fresh present, marks, List.map_append]
      rfl
    · intro entry member
      rw [List.mem_singleton.mp member, mark_plain plain]

theorem marks_put_kept (member : held ∈ table.items) (same : standing message = standing held) :
    marks (table.put message).items = marks table.items := by
  have ids : message.id = held.id := congrArg Prod.fst same
  apply KeyedList.putItem_map mark
  · rw [ids]
    exact List.mem_map_of_mem member
  · intro other found
    rw [ids, KeyedList.lookupItem_of_mem table.distinct member] at found
    rw [← Option.some.inj found]
    exact mark_congr same.symm

theorem grewPlain_kept (member : held ∈ table.items) (same : standing message = standing held) :
    GrewPlain table (table.put message) :=
  ⟨[], by rw [List.append_nil, marks_put_kept member same],
    fun _entry present => absurd present List.not_mem_nil⟩

theorem marks_seal (state : FoldState) (event : Event) :
    marks (state.sealPreviousAssistant event).messages.items = marks state.messages.items := by
  unfold sealPreviousAssistant
  cases target : sealTarget state.messages.items with
  | none => rfl
  | some message => exact marks_put_kept (sealTarget_mem target) (sealed_standing event message)

theorem find?_seal {id : String} {held : Msg}
    (found : (state.sealPreviousAssistant event).messages.find? id = some held) :
    ∃ earlier, state.messages.find? id = some earlier ∧ standing earlier = standing held := by
  unfold sealPreviousAssistant at found
  cases target : sealTarget state.messages.items with
  | none =>
      rw [target] at found
      exact ⟨held, found, rfl⟩
  | some message =>
      rw [target] at found
      change (state.messages.put (sealed event message)).find? id = some held at found
      rw [KeyedList.find?_put] at found
      by_cases same : (sealed event message).id = id
      · rw [if_pos same] at found
        cases found
        rw [← same]
        exact ⟨message, KeyedList.find?_of_mem (sealTarget_mem target), rfl⟩
      · rw [if_neg same] at found
        exact ⟨held, found, rfl⟩

theorem find?_base {base : FoldState} {id : String} {held : Msg}
    (origin : base = state ∨ base = state.sealPreviousAssistant event)
    (found : base.messages.find? id = some held) :
    ∃ earlier, state.messages.find? id = some earlier ∧ standing earlier = standing held := by
  rcases origin with same | same
  · rw [same] at found
    exact ⟨held, found, rfl⟩
  · rw [same] at found
    exact find?_seal found

def isTurnEvent (state : FoldState) (event : Event) : Bool :=
  match writtenMessage event with
  | none => true
  | some message =>
      !isSummary message && (state.messages.find? message.id).all fun held => !isSummary held

theorem grewPlain_event (turn : isTurnEvent state event = true) :
    GrewPlain state.messages (applyEvent state event).messages := by
  have change := applyEvent_change state event
  generalize (applyEvent state event).messages = after at change ⊢
  cases change with
  | kept => exact GrewPlain.refl _
  | changed found present same => exact grewPlain_kept present same
  | @opened message fresh blank =>
      have role : message.role = .assistant := congrArg (fun parts => parts.2.1) blank
      apply grewPlain_put
      · rw [isSummary, role]
        rfl
      · intro held present
        rw [fresh] at present
        cases present
  | @written message base writes origin =>
      rw [isTurnEvent, writes] at turn
      obtain ⟨plain, free⟩ := Bool.and_eq_true_iff.mp turn
      have quiet : GrewPlain state.messages base.messages := by
        rcases origin with same | same
        · rw [same]
          exact GrewPlain.refl _
        · rw [same]
          exact ⟨[], by rw [List.append_nil, marks_seal],
            fun _entry present => absurd present List.not_mem_nil⟩
      apply quiet.trans
      apply grewPlain_put (by simpa using plain)
      intro held found
      obtain ⟨stored, present, same⟩ := find?_base origin found
      rw [present] at free
      rw [← isSummary_congr same]
      simpa using free

theorem strOr_str (text : String) : strOr (some (.str text)) none = text := by
  by_cases blank : text = ""
  · rw [blank]
    rfl
  · simp [strOr, Json.orElse, Json.truthy, Json.toStr, blank]

theorem throughMessageId_summary (event : Event) (data : CompactData) :
    throughMessageId (summaryMessageOf event data) = data.throughMessageId := by
  have found : (summaryMessageOf event data).metadata.find? "context_compact" =
      some (.object [("through_message_id", .str data.throughMessageId),
        ("trigger", .str data.trigger), ("tokens_before", .int data.tokensBefore),
        ("tokens_after", .int data.tokensAfter)]) := rfl
  rw [throughMessageId, compactMetadata, found]
  exact strOr_str data.throughMessageId

theorem mark_summary {data : CompactData} (summary : data.mode ≠ "fast") :
    mark (compactMessageOf event data) =
      (event.messageId.getD "", some data.throughMessageId) := by
  rw [compactMessageOf, if_neg summary, ← throughMessageId_summary event data]
  rfl

theorem marks_summary {data : CompactData} (compacts : event.data = .compactMessage data)
    (summary : data.mode ≠ "fast")
    (fresh : event.messageId.getD "" ∉ state.messages.items.map Msg.id) :
    marks (applyEvent state event).messages.items =
      marks state.messages.items ++ [(event.messageId.getD "", some data.throughMessageId)] := by
  have ids : (compactMessageOf event data).id = event.messageId.getD "" := by
    rw [← mark_id, mark_summary summary]
  have keys : (state.sealPreviousAssistant event).messages.items.map Msg.id =
      state.messages.items.map Msg.id := by
    have same := congrArg (List.map Prod.fst) (marks_seal state event)
    rw [marks, marks, List.map_map, List.map_map] at same
    exact same
  have sealedFresh : (compactMessageOf event data).id ∉
      (state.sealPreviousAssistant event).messages.items.map Msg.id := by
    rw [ids, keys]
    exact fresh
  rw [applyEvent, compacts]
  change marks (KeyedList.putItem Msg.id (compactMessageOf event data)
    (state.sealPreviousAssistant event).messages.items) = _
  rw [KeyedList.putItem_fresh sealedFresh, ← marks_seal state event, ← @mark_summary event data summary]
  exact List.map_append

end Ftre.Compaction
