import Ftre.Session.Service

/-!
What a rollback decides from the stored session and its live log: whether it is
refused, and otherwise which messages stay, which are removed and what the
input box is filled with.
-/

namespace Ftre.Session

open Lib Message

def openBlock : ContentBlock → Bool
  | .toolResult block => decide (block.state = .running)
  | .toolCall block => decide (block.state ≠ .finished)
  | _ => false

def isStableMessage (message : Msg) : Bool := !message.content.any openBlock

inductive RollbackError where
  /-- `RollbackBusyError`. -/
  | busy (message : String)
  /-- `RollbackTargetError`. -/
  | target (message : String)
deriving DecidableEq, Repr

structure Truncation where
  kept : MessageTable
  requests : RequestIndex
  attached : Bool
  throughMessageId : String
  seq : Int
  removedMessageIds : List String
  prefillContent : List Json
deriving DecidableEq

namespace Truncation

def stored (truncation : Truncation) : SessionMeta where
  seq := truncation.seq
  messages := truncation.kept
  requests := truncation.requests

end Truncation

def keptRequests (requests : RequestIndex) (kept : List Msg) : RequestIndex :=
  requests.filter fun requestId record =>
    (decide (requestId ≠ "") && kept.any fun message => decide (requestOf message = requestId)) ||
      kept.any fun message => decide (message.id = record.messageId.getD "")

namespace ServiceState

/-- `derived_messages`, of a session that is loaded on the way. -/
def derivedMessages (state : ServiceState) : MessageTable :=
  mergeMessages state.liveSession.baseline (deriveMessages state.liveSession.log.events)

def uncheckpointed (state : ServiceState) : Bool :=
  match state.live with
  | some live => decide (state.stored.seq < live.log.seq)
  | none => false

/-- What `rollback_session` decides under the session lock. -/
def planRollback (state : ServiceState) (throughMessageId : String) :
    Except RollbackError Truncation :=
  if state.uncheckpointed then
    .error (.busy ("session 仍有未完成 checkpoint: " ++ state.sessionId))
  else
    let messages := state.derivedMessages.items
    match messages.findIdx? fun message => decide (message.id = throughMessageId) with
    | none => .error (.target ("through_message_id 不存在: " ++ throughMessageId))
    | some index =>
        match messages[index]? with
        | none => .error (.target ("through_message_id 不存在: " ++ throughMessageId))
        | some target =>
            if target.role ≠ .user then .error (.target "rollback 的截止点必须是 user Msg")
            else if ¬ isStableMessage target then
              .error (.target ("目标消息尚未完成，不能 rollback: " ++ throughMessageId))
            else if (messages.take index).any fun message => !isStableMessage message then
              .error (.busy ("session 含未完成消息，不能 rollback: " ++ state.sessionId))
            else
              .ok
                { kept := state.derivedMessages.take index
                  requests := keptRequests state.stored.requests (messages.take index)
                  attached := state.live.isSome
                  throughMessageId := throughMessageId
                  seq := state.stored.seq
                  removedMessageIds := (messages.drop index).map Msg.id
                  prefillContent := target.content.map ContentBlock.modelDump }

def truncated (state : ServiceState) (truncation : Truncation) : ServiceState :=
  let live := state.liveSession
  let log := if truncation.attached then live.log.reset (truncation.seq + 1) else live.log
  { state with
    stored := truncation.stored
    live := some { live with baseline := truncation.kept, log := log } }

theorem planRollback_accepted {state : ServiceState} {throughMessageId : String}
    {truncation : Truncation} (accepted : state.planRollback throughMessageId = .ok truncation) :
    state.uncheckpointed = false ∧ truncation.attached = state.live.isSome ∧
      truncation.seq = state.stored.seq := by
  unfold planRollback at accepted
  split at accepted
  · cases accepted
  rename_i settled
  dsimp only at accepted
  split at accepted
  · cases accepted
  split at accepted
  · cases accepted
  split at accepted
  · cases accepted
  split at accepted
  · cases accepted
  split at accepted
  · cases accepted
  cases accepted
  exact ⟨by simpa using settled, rfl, rfl⟩

end ServiceState

end Ftre.Session
