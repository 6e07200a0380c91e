import Ftre.Inbox.Operations
import Ftre.Runtime.CancelLaw

/-!
Cancelling a named request. The frame's `expected_request_id` travels under its own key; the
inbox looks under another one, finds no id and cancels whatever turn is registered.
-/

namespace Ftre.Runtime

open Lib Inbox

/-- The payload of a `session.cancel` frame. -/
structure CancelFrame where
  sessionId : String
  expectedRequestId : String
deriving DecidableEq, Repr

namespace CancelFrame

/-- `_on_cancel`: the data of the `turn_cancel` message. -/
def busData (frame : CancelFrame) : KeyedTable String String :=
  (KeyedTable.empty.set "session_id" frame.sessionId).set "expected_request_id"
    frame.expectedRequestId

end CancelFrame

/-- `handle_bus_message` on a `turn_cancel`: `str(data.get("request_id") or "") or None`. -/
def cancelledRequest (data : KeyedTable String String) : Option String :=
  (data.find? "request_id").filter fun id => decide (id ≠ "")

/-- What a cancel that named a request did. -/
structure CancelRecord where
  expected : String
  stopped : Option String
  removed : Option String
  accepted : Bool
deriving DecidableEq, Repr

/-- No other run is cancelled, and the acknowledgement says whether the named one was. -/
structure CancelRecord.Lawful (cancel : CancelRecord) : Prop where
  targeted : ∀ requestId, cancel.stopped = some requestId → requestId = cancel.expected
  acknowledged : cancel.accepted = true ↔
    cancel.stopped = some cancel.expected ∨ cancel.removed = some cancel.expected

/-- The loop of a session with its queue, and the cancels that named a request. -/
structure CancelSession where
  run : CancelRun
  inbox : MutableInbox
  cancels : List CancelRecord

inductive CancelSessionAction where
  /-- Admission, the end of a turn, a confirmation, a deletion or an untargeted cancel. -/
  | move (action : CancelAction)
  | queue (operation : Operation)
  | cancelFrame (frame : CancelFrame)

namespace CancelSession

def idle (inbox : MutableInbox) : CancelSession := ⟨{}, inbox, []⟩

/-- The turn whose task `cancel_session` cancels: one whose task is done is not cancelled. -/
def stopped (session : CancelSession) : Option Nat :=
  session.run.engine.directTask.filter fun turn => !(session.run.turns turn).isDone

/-- `repository.remove`, with the item it took out. -/
def removeItem (session : CancelSession) (requestId : String) : CancelSession × Option QueueItem :=
  match session.inbox.remove requestId with
  | .changes after _ (.item item) => ({ session with inbox := after }, item)
  | _ => (session, none)

/-- `InboxService.cancel`: a request is removed from the queue; without one the turn of the
session is cancelled. Agents are named after their session and profile, so the service finds
none under the session's id and asks the loop. -/
def cancel (requestOf : Nat → String) (session : CancelSession) (expected : String) :
    Option String → CancelSession × CancelRecord
  | some requestId =>
      let (after, removed) := session.removeItem requestId
      (after, ⟨expected, none, removed.map QueueItem.requestId, removed.isSome⟩)
  | none =>
      let (run, answer) := session.run.cancelSession
      ({ session with run := session.run.observe run answer },
        ⟨expected, session.stopped.map requestOf, none, answer⟩)

/-- `session.cancel` from the frame to its acknowledgement. -/
def onCancel (requestOf : Nat → String) (session : CancelSession) (frame : CancelFrame) :
    CancelSession :=
  let (after, record) :=
    session.cancel requestOf frame.expectedRequestId (cancelledRequest frame.busData)
  if frame.expectedRequestId = "" then after
  else { after with cancels := after.cancels ++ [record] }

def queueStep (session : CancelSession) (capacity : Nat) (operation : Operation) :
    Option CancelSession :=
  match session.inbox.effect capacity operation with
  | .changes after _ _ => some { session with inbox := after }
  | .replies _ => some session
  | .raises _ => none

def step (requestOf : Nat → String) (capacity : Nat) (session : CancelSession) :
    CancelSessionAction → Option CancelSession
  | .move action => (session.run.step action).map fun run => { session with run := run }
  | .queue operation => session.queueStep capacity operation
  | .cancelFrame frame => some (session.onCancel requestOf frame)

/-- `requestOf` names the request of each call of the loop. -/
def system (requestOf : Nat → String) (capacity : Nat) :
    StepSystem CancelSession CancelSessionAction :=
  ⟨step requestOf capacity⟩

/-! ### The law -/

def Lawful (session : CancelSession) : Prop :=
  ∀ cancel ∈ session.cancels, cancel.Lawful

/-- A cancel that names a request meets no turn, or that of the request with its task at work. -/
def OnTarget (requestOf : Nat → String) (session : CancelSession) : CancelSessionAction → Prop
  | .cancelFrame frame => frame.expectedRequestId ≠ "" →
      ∀ turn, session.run.engine.directTask = some turn →
        requestOf turn = frame.expectedRequestId ∧ (session.run.turns turn).isDone = false
  | _ => True

theorem cancelledRequest_busData (frame : CancelFrame) :
    cancelledRequest frame.busData = none := by
  unfold cancelledRequest CancelFrame.busData
  have absent : ((KeyedTable.empty.set "session_id" frame.sessionId).set "expected_request_id"
      frame.expectedRequestId).find? "request_id" = none := by
    rw [KeyedTable.find?_set_ne _ _ (by decide : _ ≠ "request_id"),
      KeyedTable.find?_set_ne _ _ (by decide : _ ≠ "request_id"), KeyedTable.find?_empty]
  rw [absent]
  rfl

theorem onCancel_named (requestOf : Nat → String) (session : CancelSession) {frame : CancelFrame}
    (named : frame.expectedRequestId ≠ "") :
    (session.onCancel requestOf frame).cancels = session.cancels ++
      [⟨frame.expectedRequestId, session.stopped.map requestOf, none,
        session.run.engine.directTask.isSome⟩] := by
  unfold onCancel
  rw [cancelledRequest_busData]
  dsimp only [cancel, CancelRun.cancelSession]
  rw [if_neg named]

theorem onCancel_unnamed (requestOf : Nat → String) (session : CancelSession) {frame : CancelFrame}
    (unnamed : frame.expectedRequestId = "") :
    (session.onCancel requestOf frame).cancels = session.cancels := by
  unfold onCancel
  rw [cancelledRequest_busData]
  dsimp only [cancel, CancelRun.cancelSession]
  rw [if_pos unnamed]

theorem record_lawful_iff (requestOf : Nat → String) (session : CancelSession)
    (expected : String) :
    CancelRecord.Lawful ⟨expected, session.stopped.map requestOf, none,
        session.run.engine.directTask.isSome⟩ ↔
      ∀ turn, session.run.engine.directTask = some turn →
        requestOf turn = expected ∧ (session.run.turns turn).isDone = false := by
  constructor
  · intro lawful turn registered
    have accepted := lawful.acknowledged.mp (by rw [registered]; rfl)
    rcases accepted with stops | removes
    · obtain ⟨found, stopped, same⟩ := Option.map_eq_some_iff.mp stops
      obtain ⟨isTurn, running⟩ := Option.filter_eq_some_iff.mp stopped
      rw [registered] at isTurn
      cases isTurn
      exact ⟨same, by simpa using running⟩
    · cases removes
  · intro onTarget
    cases registered : session.run.engine.directTask with
    | none =>
        have idle : session.stopped = none := by
          unfold stopped
          rw [registered]
          rfl
        rw [idle]
        exact ⟨nofun, by simp⟩
    | some turn =>
        obtain ⟨named, running⟩ := onTarget turn registered
        have stops : session.stopped = some turn := by
          unfold stopped
          rw [registered, Option.filter_some, running]
          rfl
        rw [stops, Option.map_some, named]
        exact ⟨fun requestId same => (Option.some.inj same).symm, by simp⟩

private theorem lawful_append (cancels : List CancelRecord) (cancel : CancelRecord) :
    (∀ other ∈ cancels ++ [cancel], other.Lawful) ↔
      (∀ other ∈ cancels, other.Lawful) ∧ cancel.Lawful := by
  rw [List.forall_mem_append, List.forall_mem_singleton]

theorem queueStep_cancels {before after : CancelSession} {capacity : Nat} {operation : Operation}
    (stepped : before.queueStep capacity operation = some after) :
    after.cancels = before.cancels := by
  unfold queueStep at stepped
  cases effect : before.inbox.effect capacity operation with
  | changes changed validates reply =>
      rw [effect] at stepped
      cases stepped
      rfl
  | replies reply =>
      rw [effect] at stepped
      cases stepped
      rfl
  | raises error =>
      rw [effect] at stepped
      cases stepped

theorem lawful_step_iff {requestOf : Nat → String} {capacity : Nat}
    {before after : CancelSession} {action : CancelSessionAction} (lawful : before.Lawful)
    (stepped : (system requestOf capacity).step before action = some after) :
    after.Lawful ↔ OnTarget requestOf before action := by
  cases action with
  | move action =>
      obtain ⟨run, _, moved⟩ := Option.map_eq_some_iff.mp stepped
      cases moved
      exact iff_of_true lawful trivial
  | queue operation =>
      have kept := queueStep_cancels stepped
      exact iff_of_true (by unfold Lawful; rw [kept]; exact lawful) trivial
  | cancelFrame frame =>
      have moved : before.onCancel requestOf frame = after := Option.some.inj stepped
      rw [← moved]
      unfold Lawful OnTarget
      by_cases unnamed : frame.expectedRequestId = ""
      · rw [onCancel_unnamed requestOf before unnamed]
        exact iff_of_true lawful fun named => absurd unnamed named
      · rw [onCancel_named requestOf before unnamed, lawful_append,
          record_lawful_iff requestOf before frame.expectedRequestId]
        constructor
        · exact fun both _ => both.2
        · exact fun onTarget => ⟨lawful, onTarget unnamed⟩

/-- The cancels of a run are lawful throughout exactly where each of them meets no turn, or the
turn it names at work. -/
theorem cancels_lawful_iff (requestOf : Nat → String) (capacity : Nat) (inbox : MutableInbox)
    (actions : List CancelSessionAction) :
    (system requestOf capacity).Always Lawful (idle inbox) actions ↔
      (system requestOf capacity).EachStep (OnTarget requestOf) (idle inbox) actions :=
  StepSystem.always_iff_eachStep
    (fun _ _ _ lawful stepped => lawful_step_iff lawful stepped)
    (fun _ present => absurd present List.not_mem_nil) actions

private def requests : Nat → String
  | 0 => "first"
  | _ => "second"

private def turnStarts (call : Nat) : List CancelSessionAction :=
  [.move (.engine (.runInput call) .failed), .move (.engine (.requestStateRead call none) .failed),
    .move (.engine (.admissionAdvances call) .failed),
    .move (.engine (.admissionAdvances call) .failed),
    .move (.engine (.admissionAdvances call) .failed),
    .move (.engine (.admissionAdvances call) .failed),
    .move (.engine (.admissionAdvances call) .failed)]

private def staleCancel : List CancelSessionAction :=
  turnStarts 0 ++
    [.move (.turn 0 (.resumed .starting)), .move (.turn 0 (.resumed (.returned .failed))),
      .move (.engine (.turnEnds 0 false) .failed), .move (.engine (.hookReached 0 false) .failed),
      .move (.engine (.hookLeft 0) .failed)] ++
    turnStarts 1 ++ [.cancelFrame ⟨"s1", "first"⟩]

theorem stale_cancel_stops_next_turn :
    ∃ session, (system requests 100).run (idle (.start "s1")) staleCancel = some session ∧
      session.cancels = [⟨"first", some "second", none, true⟩] ∧ ¬ session.Lawful := by
  have ran : ∃ session, (system requests 100).run (idle (.start "s1")) staleCancel =
      some session ∧ session.cancels = [⟨"first", some "second", none, true⟩] := ⟨_, rfl, rfl⟩
  obtain ⟨session, ran, cancels⟩ := ran
  refine ⟨session, ran, cancels, fun lawful => ?_⟩
  have record := lawful ⟨"first", some "second", none, true⟩ (by rw [cancels]; exact List.mem_cons_self)
  exact absurd (record.targeted "second" rfl) (by decide)

end CancelSession

end Ftre.Runtime
