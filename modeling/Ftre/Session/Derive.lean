import Ftre.Lib.KeyedList
import Ftre.Session.Event
import Ftre.Session.UserContent

/-!
The event fold. `FoldState` is the message table in insertion order with the index of tool-call
owners; `applyEvent` is one step and `deriveMessages` the fold from the empty state.
-/

namespace Ftre.Session

open Lib Message

abbrev MessageTable := KeyedList Msg.id

structure FoldState where
  messages : MessageTable
  toolCalls : KeyedTable String String
deriving DecidableEq

def isoFromMs (ms : Int) : String := IsoTime.fromMs ms

/-! ### Changes to one message -/

def touch (event : Event) (message : Msg) : Msg :=
  { message with seq := max message.seq event.seq }

/-- Apply `change` to the first element it accepts. -/
def changeFirst {α : Type} (change : α → Option α) : List α → Option (List α)
  | [] => none
  | head :: rest =>
      match change head with
      | some changed => some (changed :: rest)
      | none => (changeFirst change rest).map (head :: ·)

def appendBlock (block : ContentBlock) (message : Msg) : Msg :=
  { message with content := message.content ++ [block] }

def chunkBlockId (blockId : Option String) (kind messageId : String) : String :=
  match blockId with
  | some id => if id = "" then "assistant_" ++ kind ++ "_" ++ messageId else id
  | none => "assistant_" ++ kind ++ "_" ++ messageId

def growText (blockId delta : String) : ContentBlock → Option ContentBlock
  | .text block =>
      if block.id = blockId then some (.text { block with text := block.text ++ delta }) else none
  | _ => none

def growThinking (blockId delta : String) : ContentBlock → Option ContentBlock
  | .thinking block =>
      if block.id = blockId then some (.thinking { block with thinking := block.thinking ++ delta })
      else none
  | _ => none

def appendAssistantDelta (kind blockId delta createdAt : String) (message : Msg) : Msg :=
  let grow := if kind = "text" then growText blockId delta else growThinking blockId delta
  let fresh : ContentBlock :=
    if kind = "text" then .text ⟨delta, blockId, createdAt, none⟩
    else .thinking ⟨delta, blockId, createdAt, none⟩
  match changeFirst grow message.content with
  | some content => { message with content := content }
  | none => appendBlock fresh message

def runningResult (toolCallId name createdAt : String) : ToolResultBlock where
  id := toolCallId
  name := name
  output := .parts []
  state := .running
  metadata := .empty
  createdAt := createdAt
  finishedAt := none

def ensureRunningToolResult (toolCallId name createdAt : String) (message : Msg) : Msg :=
  match message.findToolResult toolCallId with
  | some _ => message
  | none => appendBlock (.toolResult (runningResult toolCallId name createdAt)) message

def growLastOutput (delta blockId createdAt : String) : List OutputPart → List OutputPart
  | [] => [.text ⟨delta, blockId, createdAt, none⟩]
  | [.text block] => [.text { block with text := block.text ++ delta }]
  | [other] => [other, .text ⟨delta, blockId, createdAt, none⟩]
  | head :: rest => head :: growLastOutput delta blockId createdAt rest

def growOutput (delta createdAt : String) (result : ToolResultBlock) : ToolResultBlock :=
  let blockId := "tool_result_" ++ result.id ++ "_text"
  let parts : List OutputPart :=
    match result.output with
    | .plain text => [.text ⟨text, blockId, result.createdAt, none⟩]
    | .parts parts => parts
  { result with output := .parts (growLastOutput delta blockId createdAt parts) }

def growToolResult (toolCallId delta createdAt : String) : ContentBlock → Option ContentBlock
  | .toolResult result =>
      if result.id = toolCallId then some (.toolResult (growOutput delta createdAt result)) else none
  | _ => none

def appendToolResultDelta (event : Event) (toolCallId delta : String) (message : Msg) : Msg :=
  let createdAt := isoFromMs event.time
  let callName := ((message.findToolCall toolCallId).map ToolCallBlock.name).getD ""
  let ensured := ensureRunningToolResult toolCallId callName createdAt message
  match (ensured.findToolResult toolCallId).bind ToolResultBlock.finishedAt with
  | some _ => ensured
  | none =>
      touch event { ensured with
        content := (changeFirst (growToolResult toolCallId delta createdAt) ensured.content).getD
          ensured.content }

def finishCall (toolCallId finishedAt : String) : ContentBlock → Option ContentBlock
  | .toolCall call =>
      if call.id = toolCallId then
        some (.toolCall { call with state := .finished, finishedAt := some finishedAt })
      else none
  | _ => none

def isToolResultOf (toolCallId : String) : ContentBlock → Bool
  | .toolResult result => decide (result.id = toolCallId)
  | _ => false

def recordToolResult (event : Event) (result : ToolResultBlock) (message : Msg) : Msg :=
  let kept := message.content.eraseP (isToolResultOf result.id)
  let content := kept ++ [.toolResult result]
  touch event { message with
    content := (changeFirst (finishCall result.id (isoFromMs event.time)) content).getD content }

def endReason (data : TurnEndData) : String :=
  let reason :=
    if data.reason ≠ "" then data.reason
    else if data.outcome ≠ "" then data.outcome
    else "completed"
  if reason = "crashed" then "interrupted"
  else if reason = "cancelled" ∨ reason = "paused" then "completed"
  else reason

def endToken (token : Option MsgToken) (usage : Option TurnUsage) : Option MsgToken :=
  match usage with
  | none => token
  | some numbers =>
      match numbers.totalTokens with
      | none => token
      | some total =>
          let measured : TokenUsage :=
            ⟨numbers.promptTokens.getD 0, numbers.completionTokens.getD 0, total⟩
          match token with
          | none => some ⟨measured, measured⟩
          | some held => some { held with usage := measured }

def endTurn (event : Event) (data : TurnEndData) (message : Msg) : Msg :=
  touch event { message with
    finishedAt := some (message.finishedAt.getD (isoFromMs event.time))
    finishedReason := some (endReason data)
    error := match data.error with
      | some error => if error.entries = [] then message.error else some error
      | none => message.error
    token := endToken message.token data.usage }

def userMessageOf (event : Event) (content : List Json) (metadata : KeyedTable String Json) : Msg :=
  let id := event.target.getD s!"user_{event.seq}"
  { Msg.plain id .user (normalizeUserContent content id (isoFromMs event.time))
      (isoFromMs event.time) with
    metadata := metadata
    seq := event.seq }

def fastText (toolResults saved : Int) : String :=
  s!"已快速压缩：{toolResults} 个较早的工具输出已被裁剪，" ++
    s!"其原始内容不再可见（约节省 {saved} tokens）。" ++ "后续如需相关信息请重新获取。"

def fastMetadata (data : CompactData) : List (String × Json) :=
  let ids := data.toolResultIds.filter fun id => id ≠ ""
  [("mode", .str "fast"), ("tool_results", .int data.toolResults),
    ("tokens_before", .int data.tokensBefore), ("tokens_after", .int data.tokensAfter)] ++
    if ids = [] then [] else [("tool_result_ids", .array (ids.map .str))]

/-- The bubble left by a fast compaction. -/
def fastMessageOf (event : Event) (data : CompactData) : Msg :=
  let id := event.messageId.getD ""
  let time := isoFromMs event.time
  let text := fastText data.toolResults (max 0 (data.tokensBefore - data.tokensAfter))
  { Msg.plain id .assistant [.text ⟨text, "compact_" ++ id, time, none⟩] time with
    name := .compactFast
    metadata := KeyedTable.empty.set "context_compact" (.object (fastMetadata data))
    seq := event.seq
    finishedAt := some time
    finishedReason := some "completed" }

def summaryMessageOf (event : Event) (data : CompactData) : Msg :=
  let id := event.messageId.getD ""
  let time := isoFromMs event.time
  let boundary : Json := .object [("through_message_id", .str data.throughMessageId),
    ("trigger", .str data.trigger), ("tokens_before", .int data.tokensBefore),
    ("tokens_after", .int data.tokensAfter)]
  { Msg.plain id .user [.text ⟨data.summaryText, "compact_" ++ id, time, none⟩] time with
    name := .compact
    metadata := (KeyedTable.empty.set "hide" (.bool true)).set "context_compact" boundary
    seq := event.seq }

def compactMessageOf (event : Event) (data : CompactData) : Msg :=
  if data.mode = "fast" then fastMessageOf event data else summaryMessageOf event data

/-! ### The fold -/

namespace FoldState

def empty : FoldState := ⟨.empty, .empty⟩

def insert (state : FoldState) (message : Msg) : FoldState where
  messages := state.messages.put message
  toolCalls := message.toolCallIds.foldl (fun calls id => calls.set id message.id) state.toolCalls

def update (state : FoldState) (message : Msg) : FoldState :=
  { state with messages := state.messages.put message }

def freshAssistant (id : String) (event : Event) : Msg :=
  { Msg.plain id .assistant [] (isoFromMs event.time) with seq := event.seq }

def ensureAssistant (state : FoldState) (id : String) (event : Event) : Msg :=
  match state.messages.find? id with
  | some message => touch event message
  | none => freshAssistant id event

def sealTarget (messages : List Msg) : Option Msg :=
  match messages.reverse.find? fun message => message.role ≠ .system with
  | some message =>
      if message.role = .assistant ∧ message.finishedAt = none then some message else none
  | none => none

def sealed (event : Event) (message : Msg) : Msg :=
  touch event { message with
    finishedAt := some (isoFromMs event.time)
    finishedReason := some "completed" }

def sealPreviousAssistant (state : FoldState) (event : Event) : FoldState :=
  match sealTarget state.messages.items with
  | some message => state.update (sealed event message)
  | none => state

def toolOwner (state : FoldState) (toolCallId : String) : Option Msg :=
  match state.toolCalls.find? toolCallId with
  | some owner => state.messages.find? owner
  | none => state.messages.items.reverse.find? fun message =>
      message.role = .assistant && (message.findToolCall toolCallId).isSome

def appendAssistantChunk (state : FoldState) (event : Event) (kind delta : String)
    (blockId : Option String) : FoldState :=
  match event.target with
  | none => state
  | some id =>
      state.update (appendAssistantDelta kind (chunkBlockId blockId kind id) delta
        (isoFromMs event.time) (state.ensureAssistant id event))

def appendToolResultChunk (state : FoldState) (event : Event) (toolCallId delta : String) :
    FoldState :=
  if toolCallId = "" then state
  else
    match state.toolOwner toolCallId with
    | none => state
    | some message => state.update (appendToolResultDelta event toolCallId delta message)

def startToolCall (state : FoldState) (event : Event) (toolCallId name : String)
    (arguments : KeyedTable String Json) : FoldState :=
  match event.target with
  | none => state
  | some id =>
      let message := state.ensureAssistant id event
      match message.findToolCall toolCallId with
      | some _ => state.update message
      | none =>
          { messages := state.messages.put (appendBlock (.toolCall
              ⟨toolCallId, name, arguments, .pending, isoFromMs event.time, none⟩) message)
            toolCalls := state.toolCalls.set toolCallId id }

def startToolResult (state : FoldState) (event : Event) (toolCallId name : String) : FoldState :=
  if toolCallId = "" then state
  else
    match state.toolOwner toolCallId with
    | none => state
    | some message =>
        state.update (touch event
          (ensureRunningToolResult toolCallId name (isoFromMs event.time) message))

def finishToolResult (state : FoldState) (event : Event) (result : ToolResultBlock) : FoldState :=
  match state.toolOwner result.id with
  | none => state
  | some message => state.update (recordToolResult event result message)

def appendHint (state : FoldState) (event : Event) (hint : Json) (source : Option String) :
    FoldState :=
  match event.target with
  | none => state
  | some id =>
      let time := isoFromMs event.time
      state.update (appendBlock (.hint ⟨hint, source, s!"hint_{event.seq}", time, some time⟩)
        (state.ensureAssistant id event))

def finishTurn (state : FoldState) (event : Event) (data : TurnEndData) : FoldState :=
  match event.target.bind state.messages.find? with
  | none => state
  | some message =>
      if message.role = .assistant then state.update (endTurn event data message) else state

end FoldState

open FoldState

def assistantMessageOf (event : Event) (payload : Msg) : Msg :=
  touch event { payload with id := event.target.getD payload.id }

def finalResult (event : Event) (toolCallId name : String) (output : List OutputPart)
    (state : String) (metadata : KeyedTable String Json) : ToolResultBlock where
  id := toolCallId
  name := name
  output := .parts output
  state := .ofName (if state = "" then "success" else state)
  metadata := metadata
  createdAt := isoFromMs event.time
  finishedAt := some (isoFromMs event.time)

def applyEvent (state : FoldState) (event : Event) : FoldState :=
  match event.data with
  | .userMessage content metadata _ =>
      (state.sealPreviousAssistant event).insert (userMessageOf event content metadata)
  | .assistantMessage payload => state.insert (assistantMessageOf event payload)
  | .hintMessage hint source => state.appendHint event hint source
  | .compactMessage data =>
      (state.sealPreviousAssistant event).insert (compactMessageOf event data)
  | .toolCallStart toolCallId name arguments => state.startToolCall event toolCallId name arguments
  | .toolResultStart toolCallId name => state.startToolResult event toolCallId name
  | .toolResult toolCallId name output resultState metadata =>
      state.finishToolResult event (finalResult event toolCallId name output resultState metadata)
  | .assistantChunk kind delta blockId toolCallId =>
      if kind = "text" ∨ kind = "thinking" then state.appendAssistantChunk event kind delta blockId
      else if kind = "tool_result_text" then
        state.appendToolResultChunk event (toolCallId.getD "") delta
      else state
  | .turnEnd data => state.finishTurn event data
  | .approvalAsked _ _ _ _ _ => state
  | .turnStart _ => state
  | .turnRetry _ _ _ _ _ => state
  | .sessionStatus _ _ => state

def foldEvents (state : FoldState) (events : List Event) : FoldState := events.foldl applyEvent state

/-- The full transcript of an event sequence, hidden messages included. -/
def deriveMessages (events : List Event) : MessageTable := (foldEvents .empty events).messages

/-- `_merge_messages`: live messages replace those of the same id. -/
def mergeMessages (baseline live : MessageTable) : MessageTable := baseline.merge live

end Ftre.Session
