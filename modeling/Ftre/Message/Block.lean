import Ftre.Lib.JsonText
import Ftre.Lib.KeyedTable

/-!
Typed content blocks. Every block has an id, a creation time and an optional
finish time; the kinds differ in what they carry.
-/

namespace Ftre.Message

open Lib

inductive ToolCallState where
  | pending
  | asking
  | allowed
  | submitted
  | finished
deriving DecidableEq, Repr

def ToolCallState.value : ToolCallState → String
  | .pending => "pending"
  | .asking => "asking"
  | .allowed => "allowed"
  | .submitted => "submitted"
  | .finished => "finished"

inductive ToolResultState where
  | success
  | error
  | interrupted
  | denied
  | running
deriving DecidableEq, Repr

namespace ToolResultState

def value : ToolResultState → String
  | .success => "success"
  | .error => "error"
  | .interrupted => "interrupted"
  | .denied => "denied"
  | .running => "running"

def ofName : String → ToolResultState
  | "error" => .error
  | "interrupted" => .interrupted
  | "denied" => .denied
  | "running" => .running
  | _ => .success

end ToolResultState

inductive DataSource where
  | base64 (data mediaType : String)
  | url (url mediaType : String)
deriving DecidableEq, Repr

structure TextBlock where
  text : String
  id : String
  createdAt : String
  finishedAt : Option String
deriving DecidableEq, Repr

structure ThinkingBlock where
  thinking : String
  id : String
  createdAt : String
  finishedAt : Option String
deriving DecidableEq, Repr

structure DataBlock where
  source : DataSource
  name : Option String
  id : String
  createdAt : String
  finishedAt : Option String
deriving DecidableEq, Repr

structure HintBlock where
  hint : Json
  source : Option String
  id : String
  createdAt : String
  finishedAt : Option String
deriving DecidableEq

structure ToolCallBlock where
  id : String
  name : String
  arguments : KeyedTable String Json
  state : ToolCallState
  createdAt : String
  finishedAt : Option String
deriving DecidableEq

/-- One part of a tool's output; parts of other types are kept as received. -/
inductive OutputPart where
  | text (block : TextBlock)
  | data (block : DataBlock)
  | other (value : Json)
deriving DecidableEq

inductive ToolOutput where
  | plain (text : String)
  | parts (parts : List OutputPart)
deriving DecidableEq

structure ToolResultBlock where
  id : String
  name : String
  output : ToolOutput
  state : ToolResultState
  metadata : KeyedTable String Json
  createdAt : String
  finishedAt : Option String
deriving DecidableEq

structure ExtensionBlock where
  originalType : String
  data : KeyedTable String Json
  id : String
  createdAt : String
  finishedAt : Option String
deriving DecidableEq

inductive ContentBlock where
  | text (block : TextBlock)
  | thinking (block : ThinkingBlock)
  | data (block : DataBlock)
  | hint (block : HintBlock)
  | toolCall (block : ToolCallBlock)
  | toolResult (block : ToolResultBlock)
  | extension (block : ExtensionBlock)
deriving DecidableEq

namespace ContentBlock

def type : ContentBlock → String
  | .text _ => "text"
  | .thinking _ => "thinking"
  | .data _ => "data"
  | .hint _ => "hint"
  | .toolCall _ => "tool_call"
  | .toolResult _ => "tool_result"
  | .extension _ => "extension"

def asText? : ContentBlock → Option TextBlock
  | .text block => some block
  | _ => none

def asToolCall? : ContentBlock → Option ToolCallBlock
  | .toolCall block => some block
  | _ => none

def asToolResult? : ContentBlock → Option ToolResultBlock
  | .toolResult block => some block
  | _ => none

end ContentBlock

def optionJson : Option String → Json
  | none => .null
  | some text => .str text

def DataSource.modelDump : DataSource → Json
  | .base64 data mediaType =>
      .object [("type", .str "base64"), ("data", .str data), ("media_type", .str mediaType)]
  | .url link mediaType =>
      .object [("type", .str "url"), ("url", .str link), ("media_type", .str mediaType)]

def coordinates (id createdAt : String) (finishedAt : Option String) : List (String × Json) :=
  [("id", .str id), ("created_at", .str createdAt), ("finished_at", optionJson finishedAt)]

def TextBlock.modelDump (block : TextBlock) : Json :=
  .object (("type", .str "text") :: ("text", .str block.text) ::
    coordinates block.id block.createdAt block.finishedAt)

def DataBlock.modelDump (block : DataBlock) : Json :=
  .object (("type", .str "data") :: ("source", block.source.modelDump) ::
    ("name", optionJson block.name) :: coordinates block.id block.createdAt block.finishedAt)

def OutputPart.modelDump : OutputPart → Json
  | .text block => block.modelDump
  | .data block => block.modelDump
  | .other value => value

def ToolOutput.modelDump : ToolOutput → Json
  | .plain text => .str text
  | .parts items => .array (items.map OutputPart.modelDump)

/-- `model_dump(mode="json")` of a block. -/
def ContentBlock.modelDump : ContentBlock → Json
  | .text block => block.modelDump
  | .thinking block =>
      .object (("type", .str "thinking") :: ("thinking", .str block.thinking) ::
        coordinates block.id block.createdAt block.finishedAt)
  | .data block => block.modelDump
  | .hint block =>
      .object (("type", .str "hint") :: ("hint", block.hint) ::
        ("source", optionJson block.source) ::
        coordinates block.id block.createdAt block.finishedAt)
  | .toolCall block =>
      .object [("type", .str "tool_call"), ("id", .str block.id), ("name", .str block.name),
        ("arguments", .object block.arguments.entries), ("state", .str block.state.value),
        ("created_at", .str block.createdAt), ("finished_at", optionJson block.finishedAt)]
  | .toolResult block =>
      .object [("type", .str "tool_result"), ("id", .str block.id), ("name", .str block.name),
        ("output", block.output.modelDump), ("state", .str block.state.value),
        ("metadata", .object block.metadata.entries), ("created_at", .str block.createdAt),
        ("finished_at", optionJson block.finishedAt)]
  | .extension block =>
      .object (("type", .str "extension") :: ("original_type", .str block.originalType) ::
        ("data", .object block.data.entries) ::
        coordinates block.id block.createdAt block.finishedAt)

end Ftre.Message
