import Ftre.Inbox.Delivery
import Ftre.Inbox.Operations
import Ftre.Lib.Promises

/-!
Receipts of the requests queued for a turn.
-/

namespace Ftre.Inbox

open Lib Message

/-- What `AgentService.run` returns. -/
structure RunResult where
  turnId : String
  status : String
  paused : Bool
deriving DecidableEq, Repr

/-- A result after which `_deliver` leaves the rest of its batch. -/
def RunResult.stops (result : RunResult) : Bool :=
  result.paused || ["failed", "error", "cancelled", "interrupted"].contains result.status

def stopsBatch : Future RunResult → Bool
  | .result result => result.stops
  | _ => true

inductive FollowupCall where
  | absent
  | admitted (requestId : String) (created : Bool)
  | returned
deriving DecidableEq

/-- `_deliver` of a dispatch, from its claim on. -/
inductive Run where
  | absent
  | delivering (items : List QueueItem)
  /-- The run is over; the hooks are told before the receipt is resolved. -/
  | reporting (item : QueueItem) (outcome : Future RunResult) (rest : List QueueItem)
  | ended
deriving DecidableEq

namespace Run

def items : Run → List QueueItem
  | .delivering items => items
  | .reporting item _ rest => item :: rest
  | _ => []

def carries (run : Run) (requestId : String) : Prop :=
  requestId ∈ run.items.map QueueItem.requestId

def ofBatch : List QueueItem → Run
  | [] => .ended
  | items => .delivering items

end Run

inductive Wait where
  | absent
  | waiting (requestId : String) (future : Nat)
  /-- The call raised; `accepted` says whether a followup of the request had returned. -/
  | refused (requestId : String) (accepted : Bool)
deriving DecidableEq

structure Desk where
  delivery : Delivery
  dispatches : Nat → Bool
  followups : Nat → FollowupCall
  runs : Nat → Run
  receipts : Promises String RunResult
  waits : Nat → Wait
  accepted : String → Bool
  executed : List (String × RunResult)

namespace Desk

def opened (capacity : Nat) (service : Session.ServiceState) : Desk where
  delivery := .opened capacity service
  dispatches _ := false
  followups _ := .absent
  runs _ := .absent
  receipts := .empty
  waits _ := .absent
  accepted _ := false
  executed := []

def setRun (desk : Desk) (attempt : Nat) (run : Run) : Desk :=
  { desk with runs := Function.update desk.runs attempt run }

def setFollowup (desk : Desk) (call : Nat) (state : FollowupCall) : Desk :=
  { desk with followups := Function.update desk.followups call state }

/-- `followup` up to the answer of the repository. -/
def followup (desk : Desk) (call : Nat) (submission : Submission)
    (sessionExists requestSeen : Bool) : Desk :=
  let (admission, _) := desk.delivery.inbox.admitItem desk.delivery.capacity submission .nextTurn
    sessionExists requestSeen
  let queued := { desk with
    delivery := desk.delivery.followup submission .nextTurn sessionExists requestSeen }
  match admission with
  | .created => queued.setFollowup call (.admitted submission.item.requestId true)
  | .duplicate => queued.setFollowup call (.admitted submission.item.requestId false)
  | _ => queued.setFollowup call .returned

/-- The end of `_admit`, with the receipt of a new item. -/
def followupReturns (desk : Desk) (call : Nat) (requestId : String) (created : Bool) : Desk :=
  if created then
    { desk with
      receipts := desk.receipts.setDefault requestId
      accepted := Function.update desk.accepted requestId true }.setFollowup call .returned
  else desk.setFollowup call .returned

def startRun (desk : Desk) : Delivery.Action → Desk
  | .begin attempt target =>
      { desk with
        dispatches := Function.update desk.dispatches attempt (decide (target = .nextTurn)) }
  | .claim attempt =>
      match desk.dispatches attempt, desk.delivery.attempts attempt with
      | true, .ended delivered => desk.setRun attempt (.ofBatch delivered)
      | _, _ => desk
  | _ => desk

def wait (desk : Desk) (number : Nat) (requestId : String) : Desk :=
  let outcome := match desk.receipts.entries requestId with
    | none => Wait.refused requestId (desk.accepted requestId)
    | some future => Wait.waiting requestId future
  { desk with waits := Function.update desk.waits number outcome }

inductive Action where
  | followup (call : Nat) (submission : Submission) (sessionExists requestSeen : Bool)
  | followupReturns (call : Nat)
  | followupFails (call : Nat)
  | queue (action : Delivery.Action)
  | runReturns (attempt : Nat) (result : RunResult)
  | runRaises (attempt : Nat) (error : String)
  | resolve (attempt : Nat)
  | deliveryStops (attempt : Nat)
  | wait (number : Nat) (requestId : String)

def isFollowup : Delivery.Action → Bool
  | .followup _ .nextTurn _ _ => true
  | _ => false

def step (desk : Desk) : Action → Option Desk
  | .followup call submission sessionExists requestSeen =>
      match desk.followups call with
      | .absent => some (desk.followup call submission sessionExists requestSeen)
      | _ => none
  | .followupReturns call =>
      match desk.followups call with
      | .admitted requestId created => some (desk.followupReturns call requestId created)
      | _ => none
  | .followupFails call =>
      match desk.followups call with
      | .admitted _ _ => some (desk.setFollowup call .returned)
      | _ => none
  | .queue action =>
      if isFollowup action then none
      else (desk.delivery.step action).map fun delivery =>
        { desk with delivery := delivery }.startRun action
  | .runReturns attempt result =>
      match desk.runs attempt with
      | .delivering (item :: rest) =>
          some ({ desk with executed := (item.requestId, result) :: desk.executed }.setRun attempt
            (.reporting item (.result result) rest))
      | _ => none
  | .runRaises attempt error =>
      match desk.runs attempt with
      | .delivering (item :: rest) =>
          some (desk.setRun attempt (.reporting item (.exception error) rest))
      | _ => none
  | .resolve attempt =>
      match desk.runs attempt with
      | .reporting item outcome rest =>
          some ({ desk with receipts := desk.receipts.settle item.requestId outcome }.setRun attempt
            (if stopsBatch outcome then .ended else .ofBatch rest))
      | _ => none
  | .deliveryStops attempt =>
      match desk.runs attempt with
      | .delivering _ => some (desk.setRun attempt .ended)
      | .reporting _ _ _ => some (desk.setRun attempt .ended)
      | _ => none
  | .wait number requestId =>
      match desk.waits number with
      | .absent => some (desk.wait number requestId)
      | _ => none

def system : StepSystem Desk Action := ⟨step⟩

end Desk

end Ftre.Inbox
