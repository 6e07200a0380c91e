import Ftre.Session.Checkpoints
import Ftre.Session.FoldFacts

/-!
The calls that ask for confirmation in the history of a session. Only a whole
assistant message brings one, and the record of a user message leaves the calls
where they are.
-/

namespace Ftre.Session

open Lib Message

def isAsking : ContentBlock → Bool
  | .toolCall call => decide (call.state = .asking)
  | _ => false

def asksIn (message : Msg) : Bool := message.content.any isAsking

def EventData.asks : EventData → Bool
  | .assistantMessage message => asksIn message
  | _ => false

def SomeAsks (messages : List Msg) : Prop := ∃ message ∈ messages, asksIn message = true

def callsIn (message : Msg) : String × List ToolCallBlock :=
  (message.id, message.content.filterMap ContentBlock.asToolCall?)

/-! ### Changes to one message -/

private theorem changeFirst_any {change : ContentBlock → Option ContentBlock}
    (quiet : ∀ block changed, change block = some changed → isAsking changed = true →
      isAsking block = true)
    {blocks changed : List ContentBlock} (done : changeFirst change blocks = some changed)
    (asks : changed.any isAsking = true) : blocks.any isAsking = true := by
  induction blocks generalizing changed with
  | nil => cases done
  | cons head rest ih =>
      unfold changeFirst at done
      rw [List.any_cons, Bool.or_eq_true]
      cases hit : change head with
      | some block =>
          rw [hit] at done
          cases done
          rw [List.any_cons, Bool.or_eq_true] at asks
          exact asks.imp_left (quiet head block hit)
      | none =>
          rw [hit] at done
          obtain ⟨later, found, rfl⟩ := Option.map_eq_some_iff.mp done
          rw [List.any_cons, Bool.or_eq_true] at asks
          exact asks.imp_right (ih found)

private theorem changeFirst_quiet {change : ContentBlock → Option ContentBlock}
    (quiet : ∀ block changed, change block = some changed → isAsking changed = false)
    {blocks changed : List ContentBlock} (done : changeFirst change blocks = some changed)
    (asks : changed.any isAsking = true) : blocks.any isAsking = true := by
  refine changeFirst_any (fun block next hit asking => ?_) done asks
  rw [quiet block next hit] at asking
  cases asking

private theorem growText_quiet (blockId delta : String) (block changed : ContentBlock)
    (grown : growText blockId delta block = some changed) : isAsking changed = false := by
  cases block with
  | text held =>
      obtain ⟨_, same⟩ := Option.ite_none_right_eq_some.mp grown
      cases same
      rfl
  | _ => cases grown

private theorem growThinking_quiet (blockId delta : String) (block changed : ContentBlock)
    (grown : growThinking blockId delta block = some changed) : isAsking changed = false := by
  cases block with
  | thinking held =>
      obtain ⟨_, same⟩ := Option.ite_none_right_eq_some.mp grown
      cases same
      rfl
  | _ => cases grown

private theorem growToolResult_quiet (toolCallId delta createdAt : String)
    (block changed : ContentBlock)
    (grown : growToolResult toolCallId delta createdAt block = some changed) :
    isAsking changed = false := by
  cases block with
  | toolResult held =>
      obtain ⟨_, same⟩ := Option.ite_none_right_eq_some.mp grown
      cases same
      rfl
  | _ => cases grown

private theorem finishCall_quiet (toolCallId finishedAt : String) (block changed : ContentBlock)
    (finished : finishCall toolCallId finishedAt block = some changed) :
    isAsking changed = false := by
  cases block with
  | toolCall held =>
      obtain ⟨_, same⟩ := Option.ite_none_right_eq_some.mp finished
      cases same
      rfl
  | _ => cases finished

private theorem asksIn_appendBlock {block : ContentBlock} (quiet : isAsking block = false)
    {message : Msg} (asks : asksIn (appendBlock block message) = true) :
    asksIn message = true := by
  unfold asksIn appendBlock at asks
  rw [List.any_append, List.any_cons, quiet, List.any_nil, Bool.or_false, Bool.or_false] at asks
  exact asks

private theorem asksIn_delta {kind blockId delta createdAt : String} {message : Msg}
    (asks : asksIn (appendAssistantDelta kind blockId delta createdAt message) = true) :
    asksIn message = true := by
  unfold appendAssistantDelta at asks
  dsimp only at asks
  split at asks
  · rename_i content changed
    by_cases textual : kind = "text"
    · rw [if_pos textual] at changed
      exact changeFirst_quiet (growText_quiet blockId delta) changed asks
    · rw [if_neg textual] at changed
      exact changeFirst_quiet (growThinking_quiet blockId delta) changed asks
  · refine asksIn_appendBlock ?_ asks
    split <;> rfl

private theorem asksIn_ensured {toolCallId name createdAt : String} {message : Msg}
    (asks : asksIn (ensureRunningToolResult toolCallId name createdAt message) = true) :
    asksIn message = true := by
  unfold ensureRunningToolResult at asks
  split at asks
  · exact asks
  · exact asksIn_appendBlock rfl asks

private theorem asksIn_resultDelta {event : Event} {toolCallId delta : String} {message : Msg}
    (asks : asksIn (appendToolResultDelta event toolCallId delta message) = true) :
    asksIn message = true := by
  unfold appendToolResultDelta at asks
  dsimp only at asks
  split at asks
  · exact asksIn_ensured asks
  · suffices ensured : asksIn (ensureRunningToolResult toolCallId
        (((message.findToolCall toolCallId).map ToolCallBlock.name).getD "")
        (isoFromMs event.time) message) = true from asksIn_ensured ensured
    unfold asksIn touch at asks
    dsimp only at asks
    cases grown : changeFirst (growToolResult toolCallId delta (isoFromMs event.time))
        (ensureRunningToolResult toolCallId
          (((message.findToolCall toolCallId).map ToolCallBlock.name).getD "")
          (isoFromMs event.time) message).content with
    | none =>
        rw [grown] at asks
        exact asks
    | some content =>
        rw [grown] at asks
        exact changeFirst_quiet (growToolResult_quiet _ _ _) grown asks

private theorem asksIn_recorded {event : Event} {result : ToolResultBlock} {message : Msg}
    (asks : asksIn (recordToolResult event result message) = true) : asksIn message = true := by
  have kept : (message.content.eraseP (isToolResultOf result.id) ++
      [ContentBlock.toolResult result]).any isAsking = true → asksIn message = true := by
    intro some
    rw [List.any_append, List.any_cons, List.any_nil, Bool.or_false, Bool.or_eq_true] at some
    obtain ⟨block, member, asking⟩ := List.any_eq_true.mp (some.resolve_right nofun)
    exact List.any_eq_true.mpr ⟨block, List.mem_of_mem_eraseP member, asking⟩
  unfold recordToolResult asksIn touch at asks
  dsimp only at asks
  cases finished : changeFirst (finishCall result.id (isoFromMs event.time))
      (message.content.eraseP (isToolResultOf result.id) ++ [.toolResult result]) with
  | none =>
      rw [finished] at asks
      exact kept asks
  | some content =>
      rw [finished] at asks
      exact kept (changeFirst_quiet (finishCall_quiet _ _) finished asks)

private theorem userBlock_noCall (messageId timeIso : String) (index : Nat) (raw : Json) :
    (userBlock messageId timeIso index raw).asToolCall? = none := by
  unfold userBlock
  dsimp only
  repeat' split
  all_goals rfl

theorem userMessageOf_noCall (event : Event) (content : List Json)
    (metadata : KeyedTable String Json) :
    (userMessageOf event content metadata).content.filterMap ContentBlock.asToolCall? = [] := by
  rw [List.filterMap_eq_nil_iff]
  intro block member
  obtain ⟨index, bound, rfl⟩ := List.mem_mapIdx.mp member
  exact userBlock_noCall ..

private theorem quiet_of_noCall {message : Msg}
    (none : message.content.filterMap ContentBlock.asToolCall? = []) : asksIn message = false := by
  rw [asksIn, List.any_eq_false]
  intro block member
  have missed := List.filterMap_eq_nil_iff.mp none block member
  cases block with
  | toolCall call => cases missed
  | _ => exact Bool.false_ne_true

private theorem asksIn_compact (event : Event) (data : CompactData) :
    asksIn (compactMessageOf event data) = false := by
  unfold compactMessageOf
  split <;> rfl

/-! ### One event -/

structure Puts (before : MessageTable) (data : EventData) (after : MessageTable)
    (puts : List Msg) : Prop where
  placed : after = puts.foldl KeyedList.put before
  quiet : data.asks = false → ∀ message ∈ puts, asksIn message = true → SomeAsks before.items

variable {state : FoldState} {data : EventData} {event : Event}

private theorem puts_nothing (before : MessageTable) : Puts before data before [] where
  placed := rfl
  quiet _ _ never := by cases never

private theorem puts_one {before : MessageTable} {message : Msg}
    (quiet : data.asks = false → asksIn message = true → SomeAsks before.items) :
    Puts before data (before.put message) [message] where
  placed := rfl
  quiet calm other member asks := by
    rw [List.mem_singleton.mp member] at asks
    exact quiet calm asks

private theorem someAsks_ensured {id : String}
    (asks : asksIn (state.ensureAssistant id event) = true) : SomeAsks state.messages.items := by
  unfold FoldState.ensureAssistant at asks
  cases found : state.messages.find? id with
  | none =>
      rw [found] at asks
      cases asks
  | some message =>
      rw [found] at asks
      exact ⟨message, (KeyedList.find?_mem found).1, asks⟩

private theorem owner_mem {toolCallId : String} {message : Msg}
    (owner : state.toolOwner toolCallId = some message) : message ∈ state.messages.items := by
  unfold FoldState.toolOwner at owner
  split at owner
  · exact (KeyedList.find?_mem owner).1
  · exact List.mem_reverse.mp (List.mem_of_find?_eq_some owner)

private theorem puts_boundary (state : FoldState) (event : Event) (message : Msg)
    (quiet : asksIn message = false) :
    ∃ puts, Puts state.messages data ((state.sealPreviousAssistant event).insert message).messages
      puts := by
  unfold FoldState.sealPreviousAssistant
  cases target : FoldState.sealTarget state.messages.items with
  | none =>
      refine ⟨[message], puts_one fun _ asks => ?_⟩
      rw [quiet] at asks
      cases asks
  | some held =>
      refine ⟨[FoldState.sealed event held, message], rfl, fun _ other member asks => ?_⟩
      rcases List.mem_pair.mp member with rfl | rfl
      · exact ⟨held, FoldState.sealTarget_mem target, asks⟩
      · rw [quiet] at asks
        cases asks

theorem applyEvent_puts (state : FoldState) (event : Event) :
    ∃ puts, Puts state.messages event.data (applyEvent state event).messages puts := by
  unfold applyEvent
  cases event.data with
  | userMessage content metadata requestId =>
      exact puts_boundary state event _ (quiet_of_noCall (userMessageOf_noCall ..))
  | compactMessage data => exact puts_boundary state event _ (asksIn_compact event data)
  | assistantMessage payload =>
      refine ⟨[assistantMessageOf event payload], puts_one fun calm asks => ?_⟩
      rw [EventData.asks, show asksIn payload = asksIn (assistantMessageOf event payload) from rfl,
        asks] at calm
      cases calm
  | hintMessage hint source =>
      dsimp only [FoldState.appendHint]
      cases event.target with
      | none => exact ⟨[], puts_nothing _⟩
      | some id =>
          exact ⟨_, puts_one fun _ asks => someAsks_ensured (asksIn_appendBlock rfl asks)⟩
  | toolCallStart toolCallId name arguments =>
      dsimp only [FoldState.startToolCall]
      cases event.target with
      | none => exact ⟨[], puts_nothing _⟩
      | some id =>
          dsimp only
          split
          · exact ⟨_, puts_one fun _ asks => someAsks_ensured asks⟩
          · exact ⟨_, puts_one fun _ asks => someAsks_ensured (asksIn_appendBlock rfl asks)⟩
  | toolResultStart toolCallId name =>
      dsimp only [FoldState.startToolResult]
      split
      · exact ⟨[], puts_nothing _⟩
      · cases owner : state.toolOwner toolCallId with
        | none => exact ⟨[], puts_nothing _⟩
        | some message =>
            exact ⟨_, puts_one fun _ asks => ⟨message, owner_mem owner, asksIn_ensured asks⟩⟩
  | toolResult toolCallId name output resultState metadata =>
      dsimp only [FoldState.finishToolResult]
      split
      · exact ⟨[], puts_nothing _⟩
      · rename_i message owner
        exact ⟨_, puts_one fun _ asks => ⟨message, owner_mem owner, asksIn_recorded asks⟩⟩
  | assistantChunk kind delta blockId toolCallId =>
      by_cases spoken : kind = "text" ∨ kind = "thinking"
      · simp only [if_pos spoken, FoldState.appendAssistantChunk]
        cases event.target with
        | none => exact ⟨[], puts_nothing _⟩
        | some id => exact ⟨_, puts_one fun _ asks => someAsks_ensured (asksIn_delta asks)⟩
      · by_cases streamed : kind = "tool_result_text"
        · simp only [if_neg spoken, if_pos streamed, FoldState.appendToolResultChunk]
          split
          · exact ⟨[], puts_nothing _⟩
          · cases owner : state.toolOwner (toolCallId.getD "") with
            | none => exact ⟨[], puts_nothing _⟩
            | some message =>
                exact ⟨_, puts_one fun _ asks =>
                  ⟨message, owner_mem owner, asksIn_resultDelta asks⟩⟩
        · simp only [if_neg spoken, if_neg streamed]
          exact ⟨[], puts_nothing _⟩
  | turnEnd data =>
      dsimp only [FoldState.finishTurn]
      cases found : event.target.bind state.messages.find? with
      | none => exact ⟨[], puts_nothing _⟩
      | some message =>
          obtain ⟨_, _, held⟩ := Option.bind_eq_some_iff.mp found
          dsimp only
          split
          · exact ⟨_, puts_one fun _ asks => ⟨message, (KeyedList.find?_mem held).1, asks⟩⟩
          · exact ⟨[], puts_nothing _⟩
  | approvalAsked _ _ _ _ _ => exact ⟨[], puts_nothing _⟩
  | turnStart _ => exact ⟨[], puts_nothing _⟩
  | turnRetry _ _ _ _ _ => exact ⟨[], puts_nothing _⟩
  | sessionStatus _ _ => exact ⟨[], puts_nothing _⟩

/-! ### The history of a session -/

namespace ServiceState

def history (state : ServiceState) : MessageTable :=
  mergeMessages state.liveSession.baseline (deriveMessages state.liveSession.log.events)

private theorem merge_foldl_put (list : MessageTable) (puts : List Msg) (other : MessageTable) :
    list.merge (puts.foldl KeyedList.put other) = puts.foldl KeyedList.put (list.merge other) := by
  induction puts generalizing other with
  | nil => rfl
  | cons message rest ih => rw [List.foldl_cons, ih, KeyedList.merge_put, List.foldl_cons]

private theorem mem_live {state : ServiceState} {message : Msg}
    (member : message ∈ (deriveMessages state.liveSession.log.events).items) :
    message ∈ state.history.items := by
  have found : state.history.find? message.id = some message := by
    rw [history, mergeMessages, KeyedList.find?_merge, KeyedList.find?_of_mem member,
      Option.some_or]
  exact (KeyedList.find?_mem found).1

private theorem history_withLog_push (state : ServiceState) (event : Event) :
    (state.withLog (state.liveSession.log.push event)).history =
      state.liveSession.baseline.merge
        (applyEvent (foldEvents .empty state.liveSession.log.events) event).messages := by
  unfold history
  rw [liveSession_withLog]
  dsimp only
  rw [SessionLog.push_events, deriveMessages, foldEvents, List.foldl_append]
  rfl

private theorem mem_foldl_put {puts : List Msg} {list : MessageTable} {message : Msg}
    (member : message ∈ (puts.foldl KeyedList.put list).items) :
    message ∈ puts ∨ message ∈ list.items := by
  induction puts generalizing list with
  | nil => exact Or.inr member
  | cons head rest ih =>
      rcases ih member with later | earlier
      · exact Or.inl (List.mem_cons_of_mem _ later)
      · rcases KeyedList.mem_put earlier with rfl | before
        · exact Or.inl List.mem_cons_self
        · exact Or.inr before

theorem someAsks_push {state : ServiceState} {event : Event} (quiet : event.data.asks = false)
    (asks : SomeAsks (state.withLog (state.liveSession.log.push event)).history.items) :
    SomeAsks state.history.items := by
  obtain ⟨puts, placed, calm⟩ :=
    applyEvent_puts (foldEvents .empty state.liveSession.log.events) event
  obtain ⟨message, member, asking⟩ := asks
  rw [history_withLog_push, placed, merge_foldl_put] at member
  rcases mem_foldl_put member with put | held
  · obtain ⟨source, live, asked⟩ := calm quiet message put asking
    exact ⟨source, mem_live live, asked⟩
  · exact ⟨message, held, asking⟩

theorem calls_push_user (state : ServiceState) {event : Event} {content : List Json}
    {metadata : KeyedTable String Json} {requestId : String}
    (shape : event.data = .userMessage content metadata requestId)
    (fresh : (userMessageOf event content metadata).id ∉ state.history.keys) :
    (state.withLog (state.liveSession.log.push event)).history.items.map callsIn =
      state.history.items.map callsIn ++ [((userMessageOf event content metadata).id, [])] := by
  have user : callsIn (userMessageOf event content metadata) =
      ((userMessageOf event content metadata).id, []) :=
    Prod.ext rfl (userMessageOf_noCall event content metadata)
  rw [history_withLog_push]
  unfold applyEvent
  rw [shape]
  dsimp only
  unfold FoldState.sealPreviousAssistant
  cases target : FoldState.sealTarget
      (foldEvents .empty state.liveSession.log.events).messages.items with
  | none =>
      change ((state.liveSession.baseline.merge (KeyedList.put
        (deriveMessages state.liveSession.log.events) _)).items).map callsIn = _
      rw [KeyedList.merge_put]
      change (KeyedList.putItem Msg.id _ state.history.items).map callsIn = _
      rw [KeyedList.putItem_fresh fresh, List.map_append, List.map_singleton, user]
  | some held =>
      have live := mem_live (FoldState.sealTarget_mem target)
      change ((state.liveSession.baseline.merge (KeyedList.put (KeyedList.put
        (deriveMessages state.liveSession.log.events) (FoldState.sealed event held)) _)).items).map
          callsIn = _
      rw [KeyedList.merge_put, KeyedList.merge_put]
      have there : (FoldState.sealed event held).id ∈ state.history.keys :=
        List.mem_map.mpr ⟨held, live, rfl⟩
      have sealing : (state.history.put (FoldState.sealed event held)).items.map callsIn =
          state.history.items.map callsIn := by
        refine KeyedList.putItem_map callsIn there fun other found => ?_
        have same : some other = some held := found.symm.trans (KeyedList.find?_of_mem live)
        cases same
        rfl
      have still : (userMessageOf event content metadata).id ∉
          (state.history.put (FoldState.sealed event held)).keys := by
        rw [KeyedList.keys_put, if_pos there]
        exact fresh
      change (KeyedList.putItem Msg.id _
        (state.history.put (FoldState.sealed event held)).items).map callsIn = _
      rw [KeyedList.putItem_fresh still, List.map_append, List.map_singleton, user, sealing]

end ServiceState

end Ftre.Session
