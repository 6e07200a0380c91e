import Ftre.Llm.ChatMessages

/-!
Chat messages as the input of a Responses request: system texts become the
instructions, every call and every tool result an input item of its own.
-/

namespace Ftre.Llm

open Lib

/-- `bool(value.get(key))`. -/
def hasField (value : Json) (key : String) : Bool := (value.get? key).any Json.truthy

def hasType (value : Json) (names : List String) : Bool :=
  names.any fun name => decide (value.get? "type" = some (.str name))

def sanitizeReasoningItem (allowContent : Bool) (item : Json) : Option Json :=
  if hasType item ["reasoning"] then
    let allowed := ["type", "id", "summary", "encrypted_content"] ++
      if allowContent then ["content"] else []
    let result : Json :=
      .object (allowed.filterMap fun key => (item.get? key).map fun value => (key, value))
    if hasField result "encrypted_content" || hasField result "summary" ||
        (allowContent && hasField result "content") then some result
    else none
  else none

def hasReasoningTextContent (item : Json) : Bool :=
  (((item.get? "content").bind Json.asArray?).getD []).any fun block =>
    hasType block ["reasoning_text"] && hasField block "text"

def replayItemsMatchTarget (allowContent : Bool) (items : List Json) : Bool :=
  if items.isEmpty then false
  else if allowContent then items.all hasReasoningTextContent
  else items.all fun item =>
    let itemId := Session.strOr (item.get? "id") none
    (decide (itemId = "") || itemId.startsWith "rs") &&
      (hasField item "encrypted_content" || hasField item "summary")

def present (value : Option Json) : Option Json :=
  value.bind fun found => if found = .null then none else some found

def reasoningReplayItems (message : ChatMessage) (allowContent : Bool) : List Json :=
  let fromMetadata := present (message.responseMetadata.bind fun data => data.get? "output_items")
  let fromGroups :=
    ((message.responsesOutputItemGroups.bind Json.asArray?).getD []).head?
  let candidates := ((present message.responsesOutputItems).or fromMetadata).or fromGroups
  let result := ((candidates.bind Json.asArray?).getD []).filterMap
    (sanitizeReasoningItem allowContent)
  if replayItemsMatchTarget allowContent result then result else []

/-- `part.get("text", "")`. -/
def partText (part : Json) : String := ((part.get? "text").bind Json.asString?).getD ""

def inputText (text : String) : Json := .object [("type", .str "input_text"), ("text", .str text)]

def inputImage (part : Json) : Json :=
  let image := part.get? "image_url"
  let url : Json :=
    match image with
    | some (.object fields) => (Json.lookup "url" fields).getD (.str "")
    | other => .str (Session.strOr other none)
  let fileId := Json.orElse (part.get? "file_id")
    ((part.get? "image_file").bind fun file => file.get? "file_id")
  let detail := (present (part.get? "detail")).or (image.bind fun value => value.get? "detail")
  let optional (key : String) (value : Option Json) : List (String × Json) :=
    if value.any Json.truthy then value.toList.map fun found => (key, found) else []
  .object (("type", .str "input_image") :: (optional "image_url" (some url) ++
    optional "file_id" ((fileId.filter Json.truthy).map fun value => .str value.toStr) ++
    optional "detail" detail))

/-- One part of a user message; `none` for a part that is no object. -/
def inputPart (part : Json) : Option Json :=
  match part with
  | .object _ =>
      some (if hasType part ["text", "input_text"] then inputText (partText part)
        else if hasType part ["image_url", "input_image"] then inputImage part
        else inputText "")
  | _ => none

def convertUserContent (content : ChatContent) : ChatContent :=
  match content with
  | .parts items =>
      if items.all fun part => hasType part ["text", "input_text"] then
        .text ("".intercalate (items.map partText))
      else .parts (items.filterMap inputPart)
  | .absent => .text ""
  | other => other

def convertAssistantContent (content : ChatContent) : ChatContent :=
  match content with
  | .parts items =>
      if items.all fun part => hasType part ["text", "output_text"] then
        .text ("".intercalate (items.map partText))
      else .parts (items.map fun part =>
        .object [("type", .str "output_text"), ("text", .str (partText part))])
  | .absent => .text ""
  | other => other

def systemText (content : ChatContent) : String :=
  match content with
  | .text value => value
  | .parts items =>
      "\n".intercalate
        ((items.filter fun part => hasType part ["text", "input_text"]).map partText)
  | _ => ""

def toolOutput (content : ChatContent) : String :=
  match content with
  | .text value => value
  | .absent => ""
  | .null => "null"
  | .parts items => (Json.array items).encode

/-! ### The conversion -/

inductive InputItem where
  | message (role : String) (content : ChatContent)
  | reasoning (item : Json)
  | functionCall (callId name arguments : String)
  | functionCallOutput (callId output : String)
deriving DecidableEq

namespace InputItem

def call? : InputItem → Option String
  | .functionCall callId _ _ => some callId
  | _ => none

def output? : InputItem → Option String
  | .functionCallOutput callId _ => some callId
  | _ => none

end InputItem

structure ConversionOptions where
  includeReasoning : Bool
  allowLegacyReasoningContent : Bool
deriving DecidableEq

structure Conversion where
  instructions : Option String
  input : List InputItem
  legacyReasoningCount : Nat
deriving DecidableEq

namespace Conversion

def start : Conversion where
  instructions := none
  input := []
  legacyReasoningCount := 0

def add (state : Conversion) (items : List InputItem) : Conversion :=
  { state with input := state.input ++ items }

def instruct (state : Conversion) (text : String) : Conversion :=
  if text = "" then state
  else
    { state with
      instructions := some (match state.instructions with
        | none => text
        | some earlier => earlier ++ "\n\n" ++ text) }

def addReasoning (options : ConversionOptions) (state : Conversion) (message : ChatMessage)
    (text : String) : Conversion :=
  let replayed := reasoningReplayItems message options.allowLegacyReasoningContent
  if replayed ≠ [] then state.add (replayed.map InputItem.reasoning)
  else if options.allowLegacyReasoningContent then
    let count := state.legacyReasoningCount + 1
    { state.add [.reasoning (.object [
        ("type", .str "reasoning"),
        ("id", .str ("rs_legacy_" ++ toString count)),
        ("summary", .array []),
        ("content", .array [.object [
          ("type", .str "reasoning_text"), ("text", .str text)]])])] with
      legacyReasoningCount := count }
  else state

end Conversion

/-- The item of one call; an entry that is no object has no `get`. -/
def functionCallItem : ToolCallEntry → Option InputItem
  | .call id name arguments => some (.functionCall (id.getD "") name arguments)
  | .other _ => none

def convertAssistant (options : ConversionOptions) (state : Conversion) (message : ChatMessage) :
    Option Conversion :=
  let text := message.reasoningContent.getD ""
  let thinks := options.includeReasoning && decide (text ≠ "")
  let state := if thinks then state.addReasoning options message text else state
  let content := convertAssistantContent message.content
  if message.calls = [] then
    some (if content.truthy || !thinks then state.add [.message "assistant" content] else state)
  else
    (message.calls.mapM functionCallItem).map fun calls =>
      (if content.truthy then state.add [.message "assistant" content] else state).add calls

def convertMessage (options : ConversionOptions) (state : Conversion) (message : ChatMessage) :
    Option Conversion :=
  if message.role = "system" then some (state.instruct (systemText message.content))
  else if message.role = "user" then
    some (state.add [.message "user" (convertUserContent message.content)])
  else if message.role = "assistant" then convertAssistant options state message
  else if message.role = "tool" then
    some (state.add
      [.functionCallOutput (message.toolCallId.getD "") (toolOutput message.content)])
  else some state

/-- `_convert_messages_to_responses_input(messages, ...)`, from the state reached. -/
def convertFrom (options : ConversionOptions) (state : Conversion) :
    List ChatMessage → Option Conversion
  | [] => some state
  | message :: rest => (convertMessage options state message).bind fun next =>
      convertFrom options next rest

def convertMessagesToResponsesInput (options : ConversionOptions) (messages : List ChatMessage) :
    Option (Option String × List InputItem) :=
  (convertFrom options .start messages).map fun state => (state.instructions, state.input)

end Ftre.Llm
