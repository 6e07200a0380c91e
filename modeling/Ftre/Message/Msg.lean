import Ftre.Message.Block

/-!
The message entity: payload of assistant/message events and result of the event
fold.
-/

namespace Ftre.Message

open Lib

structure TokenUsage where
  promptTokens : Int
  completionTokens : Int
  totalTokens : Int
deriving DecidableEq, Repr

structure MsgToken where
  usage : TokenUsage
  lastCallUsage : TokenUsage
deriving DecidableEq, Repr

inductive MsgName where
  | default
  | compact
  | compactFast
deriving DecidableEq, Repr

inductive Role where
  | user
  | assistant
  | system
deriving DecidableEq, Repr

structure Msg where
  id : String
  name : MsgName
  content : List ContentBlock
  role : Role
  metadata : KeyedTable String Json
  createdAt : String
  seq : Int
  token : Option MsgToken
  finishedAt : Option String
  finishedReason : Option String
  structuredOutput : Option (KeyedTable String Json)
  error : Option (KeyedTable String Json)
deriving DecidableEq

namespace Msg

/-- A message with only its identity, role, content and creation time set. -/
def plain (id : String) (role : Role) (content : List ContentBlock) (createdAt : String) : Msg where
  id := id
  name := .default
  content := content
  role := role
  metadata := .empty
  createdAt := createdAt
  seq := -1
  token := none
  finishedAt := none
  finishedReason := none
  structuredOutput := none
  error := none

def getTextContent (message : Msg) : Option String :=
  match message.content.filterMap ContentBlock.asText? with
  | [] => none
  | blocks => some ("\n".intercalate (blocks.map TextBlock.text))

def findToolCall (message : Msg) (id : String) : Option ToolCallBlock :=
  message.content.findSome? fun block =>
    block.asToolCall?.bind fun call => if call.id = id then some call else none

def findToolResult (message : Msg) (id : String) : Option ToolResultBlock :=
  message.content.findSome? fun block =>
    block.asToolResult?.bind fun result => if result.id = id then some result else none

def toolCallIds (message : Msg) : List String :=
  message.content.filterMap fun block => block.asToolCall?.map ToolCallBlock.id

end Msg

end Ftre.Message
