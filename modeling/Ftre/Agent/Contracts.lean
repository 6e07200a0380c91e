import Ftre.Lib.JsonText
import Ftre.Message.Msg
import Ftre.Runtime.TurnExecution

/-!
What the agent service exchanges with its callers: run requests, their
fingerprints, run results and reservations.
-/

namespace Ftre.Agent

open Lib Message Ftre.Runtime

abbrev RequestKey := String × String

structure AgentRunRequest where
  sessionId : String
  requestId : String
  messages : List Msg
  agentId : Option String
  channelId : String
  source : String
  metadata : KeyedTable String Json
deriving DecidableEq

def roleValue : Role → String
  | .user => "user"
  | .assistant => "assistant"
  | .system => "system"

def nameValue : MsgName → String
  | .default => "default"
  | .compact => "compact"
  | .compactFast => "compact_fast"

namespace AgentRunRequest

def requestKey (request : AgentRunRequest) : RequestKey := (request.sessionId, request.requestId)

def optionalText : Option String → Json
  | none => .null
  | some text => .str text

def requestFingerprint (request : AgentRunRequest) : String :=
  let messages := request.messages.map fun message => Json.object
    [("role", .str (roleValue message.role)), ("name", .str (nameValue message.name)),
      ("text", optionalText message.getTextContent)]
  Json.dumps (.object
    [("messages", .array messages), ("metadata", .object request.metadata.entries),
      ("agent_id", optionalText request.agentId), ("channel_id", .str request.channelId),
      ("source", .str request.source)])

end AgentRunRequest

structure AgentRunResult extends Runtime.AgentRunResult where
  runId : String
deriving DecidableEq

def AgentRunResult.withRunId (result : AgentRunResult) (runId : String) : AgentRunResult :=
  if result.runId ≠ "" then result else { result with runId := runId }

inductive AgentState where
  | idle
  | running
  | stopping
  | paused
  | cancelled
  | failed
deriving DecidableEq, Repr

/-- `_state_from_result`. -/
def AgentRunResult.state (result : AgentRunResult) : AgentState :=
  if result.paused then .paused
  else
    match result.status with
    | .cancelled => .cancelled
    | .failed => .failed
    | .completed => .idle

structure RunReservation where
  agentId : String
  sessionId : String
  requestId : String
  expiresAt : Nat
deriving DecidableEq, Repr

inductive AgentServiceError where
  | agentNotFound (agentId : String)
  | agentAlreadyExists (agentId : String)
  | invalidRunRequest (message : String)
  | agentBusy (message : String)
deriving DecidableEq, Repr

end Ftre.Agent
