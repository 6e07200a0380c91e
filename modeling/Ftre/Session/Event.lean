import Ftre.Message.Msg

/-!
The session event table: envelope and payloads. The payload of an
assistant/message is the message it dumps; output parts of a dumped tool result
stay untyped.
-/

namespace Ftre.Session

open Lib Message

structure CompactData where
  mode : String
  summaryText : String
  throughMessageId : String
  trigger : String
  tokensBefore : Int
  tokensAfter : Int
  toolResults : Int
  toolResultIds : List String
deriving DecidableEq

/-- Usage numbers of a turn; a missing total makes the usage unusable. -/
structure TurnUsage where
  promptTokens : Option Int
  completionTokens : Option Int
  totalTokens : Option Int
deriving DecidableEq

structure TurnStartData where
  turnId : String
  requestId : String
  trigger : String
  commandName : String
  agentId : String
  model : String
deriving DecidableEq

structure TurnEndData where
  turnId : String
  requestId : String
  outcome : String
  reason : String
  error : Option (KeyedTable String Json)
  usage : Option TurnUsage
  iterations : Int
  metadata : KeyedTable String Json
deriving DecidableEq

inductive EventData where
  | userMessage (content : List Json) (metadata : KeyedTable String Json) (requestId : String)
  | assistantMessage (message : Msg)
  | toolResult (toolCallId name : String) (output : List OutputPart) (state : String)
      (metadata : KeyedTable String Json)
  | hintMessage (hint : Json) (source : Option String)
  | compactMessage (data : CompactData)
  | assistantChunk (kind delta : String) (blockId toolCallId : Option String)
  | toolCallStart (toolCallId name : String) (arguments : KeyedTable String Json)
  | toolResultStart (toolCallId name : String)
  | approvalAsked (toolCallId name : String) (arguments : KeyedTable String Json)
      (reason : String) (ruleId : Option String)
  | turnStart (data : TurnStartData)
  | turnRetry (turnId code message : String) (attempt maxAttempts : Int)
  | turnEnd (data : TurnEndData)
  | sessionStatus (status reason : String)
deriving DecidableEq

/-- An event as the log stores it; `time` is in epoch milliseconds. -/
structure Event where
  seq : Int
  time : Int
  messageId : Option String
  data : EventData
deriving DecidableEq

def Event.target (event : Event) : Option String :=
  event.messageId.bind fun id => if id = "" then none else some id

end Ftre.Session
