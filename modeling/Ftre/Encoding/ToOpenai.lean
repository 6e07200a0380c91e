import Ftre.Message.Load
import Ftre.Llm.ResponsesInput

/-!
The two encoders from messages to chat messages: the host's `to_openai`, whose
output is what tokens are estimated on, and the runtime's `MessageContext`, whose
output is sent.
-/

namespace Ftre.Encoding

open Lib Message Llm

def textPart (text : String) : Json := .object [("type", .str "text"), ("text", .str text)]

def isTextItem (item : Json) : Bool := hasType item ["text"]

/-- `str(item.get("text", ""))`. -/
def itemText (item : Json) : String := ((item.get? "text").getD (.str "")).toStr

def outputChunk : OutputPart → String
  | .text block => block.text
  | .data block => block.modelDump.encode
  | .other value => if isTextItem value then itemText value else value.encode

def toolResultContent : ToolOutput → String
  | .plain text => text
  | .parts items => "\n".intercalate ((items.map outputChunk).filter fun chunk => chunk ≠ "")

def toOpenaiPart : ContentBlock → Json
  | .text block => textPart block.text
  | .thinking block => .object [("type", .str "thinking"), ("thinking", .str block.thinking)]
  | .data block =>
      let url :=
        match block.source with
        | .base64 data mediaType => "data:" ++ mediaType ++ ";base64," ++ data
        | .url url _ => url
      .object [("type", .str "image_url"), ("image_url", .object [("url", .str url)])]
  | .hint block =>
      match block.hint with
      | .array items => textPart ("\n".intercalate ((items.filter isTextItem).map itemText))
      | hint => textPart hint.toStr
  | .toolCall block =>
      .object [("type", .str "toolCall"), ("id", .str block.id), ("name", .str block.name),
        ("arguments", .object block.arguments.entries)]
  | .toolResult block => textPart (toolResultContent block.output)
  | .extension block => textPart (Json.object block.data.entries).encode

def toolCallEntry? : ContentBlock → Option ToolCallEntry
  | .toolCall block =>
      some (.call (some block.id) block.name (Json.object block.arguments.entries).encode)
  | _ => none

def thinking? : ContentBlock → Option String
  | .thinking block => some block.thinking
  | _ => none

def contentPart? : ContentBlock → Option Json
  | .toolCall _ => none
  | .thinking _ => none
  | block => some (toOpenaiPart block)

def toolMessage (blocks : List ContentBlock) : ChatMessage :=
  match blocks.findSome? ContentBlock.asToolResult? with
  | some block =>
      { ChatMessage.plain "tool" (.text (toolResultContent block.output)) with
        toolCallId := some block.id }
  | none => { ChatMessage.plain "tool" (.text "") with toolCallId := some "" }

/-- `to_openai_message(blocks, role)`, the role being given. -/
def toOpenaiMessage (blocks : List ContentBlock) (role : String) : ChatMessage :=
  if role = "tool" then toolMessage blocks
  else
    let parts := blocks.filterMap contentPart?
    let calls := blocks.filterMap toolCallEntry?
    { ChatMessage.plain role (if parts = [] then .text "" else .parts parts) with
      toolCalls := if calls = [] then none else some calls
      reasoningContent :=
        if role = "assistant" then some ("\n".intercalate (blocks.filterMap thinking?)) else none }

/-- `isinstance(item, dict)` items of a replay group. -/
def groupItems (group : List Json) : Json := .array (group.filter fun item => item.asFields?.isSome)

/-- `metadata.get("responses_output_item_groups")`, when it is a list. -/
def itemGroups (message : Msg) : List Json :=
  ((message.metadata.find? "responses_output_item_groups").bind Json.asArray?).getD []

/-! ### The host's encoder -/

def imageOmittedNotice : String := "[图片附件已省略：当前模型不支持视觉输入]"

def omittedBlock : ContentBlock := .text ⟨imageOmittedNotice, "", "", none⟩

/-- `isinstance(item, TextBlock)` or a text part. -/
def outputText? : OutputPart → Option String
  | .text block => some block.text
  | .data _ => none
  | .other value => if isTextItem value then some (itemText value) else none

/-- The content `_tool_result_message` gives an output. -/
def hostToolResultContent : ToolOutput → String
  | .plain text => text
  | .parts items =>
      if items.all fun item => (outputText? item).isSome then
        "".intercalate (items.filterMap outputText?)
      else (Json.array (items.map OutputPart.modelDump)).encode

def toolResultMessage (block : ToolResultBlock) : ChatMessage :=
  { ChatMessage.plain "tool" (.text (hostToolResultContent block.output)) with
    toolCallId := some block.id }

/-- One item of a multimodal hint; `none` for an omitted image. -/
def hintPart (includeImages : Bool) (item : Json) : Option Json :=
  match item with
  | .object _ => if hasType item ["data"] && !includeImages then none else some item
  | other => some (textPart other.toStr)

def hintMessage (includeImages : Bool) (block : HintBlock) : ChatMessage :=
  match block.hint with
  | .array items =>
      let parts := items.filterMap (hintPart includeImages) ++
        if items.any fun item => (hintPart includeImages item).isNone then
          [textPart imageOmittedNotice]
        else []
      .plain "user" (if parts = [] then .text "" else .parts parts)
  | hint => .plain "user" (.text hint.toStr)

/-- `message.get("content") or message.get("tool_calls") or message.get("reasoning_content")`. -/
def speaks (message : ChatMessage) : Bool :=
  message.content.truthy || !message.calls.isEmpty ||
    decide (message.reasoningContent.getD "" ≠ "")

def regularMessage (includeImages : Bool) (message : Msg) : Option ChatMessage :=
  let images := message.content.filter fun block => block.type = "data"
  let blocks :=
    if includeImages || images.isEmpty then message.content
    else message.content.filter (fun block => block.type ≠ "data") ++ [omittedBlock]
  let encoded := toOpenaiMessage blocks message.role.value
  if speaks encoded then some encoded else none

/-- What `_assistant_messages` has gathered while it walks the blocks. -/
structure HostExpansion where
  output : List ChatMessage
  pending : List ContentBlock
  groupIndex : Nat

namespace HostExpansion

def start : HostExpansion where
  output := []
  pending := []
  groupIndex := 0

def flush (groups : List Json) (state : HostExpansion) : HostExpansion :=
  if state.pending = [] then state
  else
    let encoded := toOpenaiMessage state.pending "assistant"
    if speaks encoded then
      { output := state.output ++
          [{ encoded with
            responsesOutputItems :=
              ((groups[state.groupIndex]?).bind Json.asArray?).map groupItems }]
        pending := []
        groupIndex := state.groupIndex + 1 }
    else { state with pending := [] }

def emit (state : HostExpansion) (message : ChatMessage) : HostExpansion :=
  { state with output := state.output ++ [message] }

def step (includeImages : Bool) (groups : List Json) (state : HostExpansion)
    (block : ContentBlock) : HostExpansion :=
  match block with
  | .toolResult result => (state.flush groups).emit (toolResultMessage result)
  | .hint hint => (state.flush groups).emit (hintMessage includeImages hint)
  | .data data =>
      { state with
        pending := state.pending ++ [if includeImages then .data data else omittedBlock] }
  | other => { state with pending := state.pending ++ [other] }

end HostExpansion

def assistantMessages (includeImages : Bool) (message : Msg) : List ChatMessage :=
  ((message.content.foldl (HostExpansion.step includeImages (itemGroups message)) .start).flush
    (itemGroups message)).output

def summaryPrefix : String := "[历史上下文摘要]\n"

/-- One message of `to_openai(records, config=...)`. -/
def hostMessages (includeImages : Bool) (message : Msg) : List ChatMessage :=
  if message.name = .compact then
    let summary := message.getTextContent.getD ""
    if summary = "" then [] else [.plain "user" (.text (summaryPrefix ++ summary))]
  else if message.role = .assistant then assistantMessages includeImages message
  else (regularMessage includeImages message).toList

def toOpenai (includeImages : Bool) (records : List Msg) : List ChatMessage :=
  records.flatMap (hostMessages includeImages)

/-- `metadata.get("reasoning_content")`, when it is text and not empty. -/
def metadataReasoning (message : Msg) : Option String :=
  ((message.metadata.find? "reasoning_content").bind Json.asString?).filter (· ≠ "")

/-- What `_msg_to_dicts` has gathered while it walks the blocks. -/
structure RuntimeExpansion where
  messages : List ChatMessage
  blocks : List ContentBlock
  reasoning : Option String
  groupUsed : Nat

namespace RuntimeExpansion

def inject (reasoning : Option String) (encoded : ChatMessage) : ChatMessage :=
  match reasoning with
  | none => encoded
  | some text =>
      if encoded.reasoningContent.getD "" = "" then { encoded with reasoningContent := some text }
      else encoded

def flushAssistant (role : String) (groups : List Json) (state : RuntimeExpansion) :
    RuntimeExpansion :=
  if state.blocks = [] then state
  else
    let group := ((groups[state.groupUsed]?).bind Json.asArray?).filter (· ≠ [])
    { messages := state.messages ++
        [{ inject state.reasoning (toOpenaiMessage state.blocks role) with
          responsesOutputItems := group.map groupItems }]
      blocks := []
      reasoning := none
      groupUsed := if state.groupUsed < groups.length then state.groupUsed + 1
        else state.groupUsed }

def emit (state : RuntimeExpansion) (message : ChatMessage) : RuntimeExpansion :=
  { state with messages := state.messages ++ [message] }

def step (role : String) (groups : List Json) (state : RuntimeExpansion)
    (block : ContentBlock) : RuntimeExpansion :=
  match block with
  | .hint hint =>
      (state.flushAssistant role groups).emit
        (match hint.hint with
          | .array _ => toOpenaiMessage [.hint hint] "user"
          | text => .plain "user" (.text text.toStr))
  | .toolResult result =>
      (state.flushAssistant role groups).emit (toOpenaiMessage [.toolResult result] "tool")
  | other => { state with blocks := state.blocks ++ [other] }

end RuntimeExpansion

def msgToDicts (message : Msg) : List ChatMessage :=
  let role := message.role.value
  let start : RuntimeExpansion :=
    { messages := [], blocks := [], reasoning := metadataReasoning message, groupUsed := 0 }
  let expanded := (message.content.foldl (RuntimeExpansion.step role (itemGroups message))
    start).flushAssistant role (itemGroups message)
  if expanded.messages = [] then
    [RuntimeExpansion.inject (metadataReasoning message) (toOpenaiMessage [] role)]
  else expanded.messages

/-- `MessageContext.messages(context)`. -/
def contextMessages (context : List Msg) : List ChatMessage := context.flatMap msgToDicts

end Ftre.Encoding
