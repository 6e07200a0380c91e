import Ftre.Inbox.Repository
import Ftre.Session.Multimodal
import Ftre.Session.Service

/-!
Delivery of queue items to the history of one session.
-/

namespace Ftre.Inbox

open Lib Message Session Session.Multimodal

/-- What became of the last item admitted under a request id. -/
inductive Fate where
  | open
  | claimed (item : QueueItem)
  /-- The user's removal was acknowledged. -/
  | removed
  | discarded
deriving DecidableEq

/-- The log had `admittedAt` events when the item was admitted. -/
structure Trace where
  admittedAt : Nat
  fate : Fate
deriving DecidableEq

inductive Decision where
  | enter
  | keep
  | discard (requestId : String)
deriving DecidableEq, Repr

inductive Attempt where
  | absent
  | gating (candidates : List QueueItem)
  | discarding (item : QueueItem)
  /-- `remaining` are still to be recorded. -/
  | persisting (candidates remaining : List QueueItem) (historyIds : List (String × String))
      (previousAssistantId : Option String)
  | ended (delivered : List QueueItem)
deriving DecidableEq

structure Delivery where
  capacity : Nat
  inbox : SessionInbox
  service : ServiceState
  attempts : Nat → Attempt
  traces : String → Trace

namespace Delivery

/-- A session with an empty inbox and any history. -/
def opened (capacity : Nat) (service : ServiceState) : Delivery where
  capacity := capacity
  inbox := .start service.sessionId
  service := service
  attempts _ := .absent
  traces _ := ⟨service.liveSession.log.events.length, .open⟩

def events (delivery : Delivery) : List Event := delivery.service.liveSession.log.events

def setAttempt (delivery : Delivery) (attempt : Nat) (state : Attempt) : Delivery :=
  { delivery with attempts := Function.update delivery.attempts attempt state }

def setFate (delivery : Delivery) (requestId : String) (fate : Fate) : Delivery :=
  { delivery with
    traces := Function.update delivery.traces requestId
      { delivery.traces requestId with fate := fate } }

def followup (delivery : Delivery) (submission : Submission) (target : QueueTarget)
    (sessionExists requestSeen : Bool) : Delivery :=
  let (admission, inbox) :=
    delivery.inbox.admitItem delivery.capacity submission target sessionExists requestSeen
  if admission = .created then
    { delivery with
      inbox := inbox
      traces := Function.update delivery.traces submission.item.requestId
        ⟨delivery.events.length, .open⟩ }
  else { delivery with inbox := inbox }

def edit (delivery : Delivery) (requestId content : String) (attachments : List Json) : Delivery :=
  { delivery with inbox := (delivery.inbox.edit requestId content attachments).2 }

def remove (delivery : Delivery) (requestId : String) : Delivery :=
  match delivery.inbox.remove requestId with
  | (some _, inbox) => { delivery with inbox := inbox }.setFate requestId .removed
  | (none, _) => delivery

def promote (delivery : Delivery) (requestId : String) : Delivery :=
  { delivery with inbox := (delivery.inbox.promote requestId).2 }

/-! ### Attempts -/

/-- The candidates of `_dispatch_next_turn`, or of `deliver_next_step_for_reasoning`. -/
def candidates (delivery : Delivery) : QueueTarget → List QueueItem
  | .nextTurn => delivery.inbox.queues.nextTurn.take 1
  | .nextStep => delivery.inbox.queues.nextStep

def begin (delivery : Delivery) (attempt : Nat) (target : QueueTarget) : Delivery :=
  match delivery.candidates target with
  | [] => delivery.setAttempt attempt (.ended [])
  | candidates => delivery.setAttempt attempt (.gating candidates)

def previousAssistantId (delivery : Delivery) : Option String :=
  (delivery.events.reverse.find? fun event =>
    match event.data with
    | .assistantMessage _ => true
    | _ => false).bind Event.messageId

def decide (delivery : Delivery) (attempt : Nat) (candidates : List QueueItem) :
    Decision → Delivery
  | .enter =>
      delivery.setAttempt attempt
        (.persisting candidates candidates [] delivery.previousAssistantId)
  | .keep => delivery.setAttempt attempt (.ended [])
  | .discard requestId =>
      match candidates.find? fun item => item.requestId == requestId with
      | some item => delivery.setAttempt attempt (.discarding item)
      | none => delivery.setAttempt attempt (.ended [])

def discard (delivery : Delivery) (attempt : Nat) (item : QueueItem) : Delivery :=
  match delivery.inbox.remove item.requestId with
  | (some _, inbox) =>
      ({ delivery with inbox := inbox }.setFate item.requestId .discarded).setAttempt attempt
        (.ended [])
  | (none, _) => delivery.setAttempt attempt (.ended [])

def userMetadata (item : QueueItem) (previous : Option String) : KeyedTable String Json :=
  let base := KeyedTable.ofList
    [("hide", .bool false), ("request_id", .str item.requestId),
      ("source", .str item.source.value),
      ("agent_id", .str (if item.agentId = "" then "default" else item.agentId))]
  match previous.filter fun id => id ≠ "" with
  | some id => base.set "previous_assistant_message_id" (.str id)
  | none => base

def userContent (item : QueueItem) : List Json := [textPart item.content]

/-- `append_user` for one candidate. -/
def appendUser (delivery : Delivery) (item : QueueItem) (previous : Option String) (time : Int)
    (generated : String) : SessionLog.AppendOutcome × ServiceState :=
  delivery.service.appendUserMessageIfAbsent time generated item.requestId (userContent item)
    (userMetadata item previous)

/-- One candidate of `_persist_user_messages`; a conflict raises and ends the attempt. -/
def persist (delivery : Delivery) (attempt : Nat) (candidates remaining : List QueueItem)
    (historyIds : List (String × String)) (previous : Option String) (item : QueueItem)
    (time : Int) (generated : String) : Delivery :=
  if item.source ≠ .user then
    delivery.setAttempt attempt (.persisting candidates remaining historyIds previous)
  else
    let (outcome, service) := delivery.appendUser item previous time generated
    let recorded := { delivery with service := service }
    match outcome with
    | .appended event =>
        recorded.setAttempt attempt (.persisting candidates remaining
          ((item.requestId, event.messageId.getD "") :: historyIds) none)
    | .skipped => recorded.setAttempt attempt (.persisting candidates remaining historyIds none)
    | .conflict => recorded.setAttempt attempt (.ended [])

def attachHistoryIds (historyIds : List (String × String)) (item : QueueItem) : QueueItem :=
  match historyIds.lookup item.requestId with
  | some id => { item with historyMessageId := some id }
  | none => item

def claimedTraces (delivery : Delivery) (claimed : List QueueItem) (requestId : String) : Trace :=
  match claimed.find? fun item : QueueItem => item.requestId == requestId with
  | some item => { delivery.traces requestId with fate := .claimed item }
  | none => delivery.traces requestId

def claim (delivery : Delivery) (attempt : Nat) (candidates : List QueueItem)
    (historyIds : List (String × String)) : Delivery :=
  let (claimed, inbox) := delivery.inbox.claim (candidates.map QueueItem.requestId)
  { delivery with
    inbox := inbox
    traces := delivery.claimedTraces claimed }.setAttempt attempt
    (.ended (claimed.map (attachHistoryIds historyIds)))

def claimRaises (delivery : Delivery) (attempt : Nat) (candidates : List QueueItem) : Delivery :=
  (delivery.claim attempt candidates []).setAttempt attempt (.ended [])

inductive Action where
  | followup (submission : Submission) (target : QueueTarget) (sessionExists requestSeen : Bool)
  | edit (requestId content : String) (attachments : List Json)
  | remove (requestId : String)
  | promote (requestId : String)
  | begin (attempt : Nat) (target : QueueTarget)
  | decide (attempt : Nat) (decision : Decision)
  | discard (attempt : Nat)
  | persist (attempt : Nat) (time : Int) (generated : String)
  | claim (attempt : Nat)
  | claimRaises (attempt : Nat)
  /-- An exception or a cancellation at an await of the attempt. -/
  | stop (attempt : Nat)
  | record (time : Int) (data : EventData) (messageId : Option String)

def step (delivery : Delivery) : Action → Option Delivery
  | .followup submission target sessionExists requestSeen =>
      some (delivery.followup submission target sessionExists requestSeen)
  | .edit requestId content attachments => some (delivery.edit requestId content attachments)
  | .remove requestId => some (delivery.remove requestId)
  | .promote requestId => some (delivery.promote requestId)
  | .begin attempt target =>
      match delivery.attempts attempt with
      | .absent => some (delivery.begin attempt target)
      | _ => none
  | .decide attempt decision =>
      match delivery.attempts attempt with
      | .gating candidates => some (delivery.decide attempt candidates decision)
      | _ => none
  | .discard attempt =>
      match delivery.attempts attempt with
      | .discarding item => some (delivery.discard attempt item)
      | _ => none
  | .persist attempt time generated =>
      match delivery.attempts attempt with
      | .persisting candidates (item :: remaining) historyIds previous =>
          some (delivery.persist attempt candidates remaining historyIds previous item time
            generated)
      | _ => none
  | .claim attempt =>
      match delivery.attempts attempt with
      | .persisting candidates [] historyIds _ => some (delivery.claim attempt candidates historyIds)
      | _ => none
  | .claimRaises attempt =>
      match delivery.attempts attempt with
      | .persisting candidates [] _ _ => some (delivery.claimRaises attempt candidates)
      | _ => none
  | .stop attempt =>
      match delivery.attempts attempt with
      | .absent => none
      | .ended _ => none
      | _ => some (delivery.setAttempt attempt (.ended []))
  | .record time data messageId =>
      match data with
      | .userMessage _ _ _ => none
      | _ => some { delivery with service := delivery.service.appendEvent time data messageId }

def system : StepSystem Delivery Action := ⟨step⟩

end Delivery

end Ftre.Inbox
