import Ftre.Session.Rollback

/-!
The checkpoints of one session at work: the coordinator with its dirty mark, generation and
waiting flushes, any number of snapshot writes and rollbacks that share the session lock, and
appends between all of them.
-/

namespace Ftre.Session

open Lib Message

/-! ### The coordinator -/

/-- Where the task of a session stands in `_run`. -/
inductive RunStage where
  | absent
  | ready
  /-- Waits for the wake event or the end of the window. -/
  | waiting (generation : Nat)
  | writing (generation writer : Nat)
deriving DecidableEq, Repr

def RunStage.taken? : RunStage → Option Nat
  | .waiting generation => some generation
  | .writing generation _ => some generation
  | _ => none

/-- `_PendingSnapshot` and the task that serves it; a waiter is its call. -/
structure SnapshotCoordinator where
  dirty : Bool
  immediate : Bool
  generation : Nat
  waiters : List Nat
  task : RunStage
deriving DecidableEq, Repr

namespace SnapshotCoordinator

def idle : SnapshotCoordinator := ⟨false, false, 0, [], .absent⟩

def ensureTask (coordinator : SnapshotCoordinator) : SnapshotCoordinator :=
  match coordinator.task with
  | .absent => { coordinator with task := .ready }
  | _ => coordinator

def markDirty (coordinator : SnapshotCoordinator) (immediate : Bool) : SnapshotCoordinator :=
  { coordinator with
    dirty := true
    generation := coordinator.generation + 1
    immediate := coordinator.immediate || immediate }.ensureTask

/-- `flush` of a dirty session, up to its wait. -/
def addWaiter (coordinator : SnapshotCoordinator) (call : Nat) : SnapshotCoordinator :=
  { coordinator with waiters := coordinator.waiters ++ [call], immediate := true }.ensureTask

def beginWrite (coordinator : SnapshotCoordinator) (generation writer : Nat) :
    SnapshotCoordinator :=
  { coordinator with immediate := false, task := .writing generation writer }

/-- A checkpoint of `generation` succeeded. -/
def writeSucceeded (coordinator : SnapshotCoordinator) (generation : Nat) : SnapshotCoordinator :=
  if coordinator.generation = generation then
    { coordinator with dirty := false, waiters := [], task := .absent }
  else { coordinator with immediate := true, task := .ready }

/-- The flushes that a successful checkpoint of `generation` answers. -/
def answered (coordinator : SnapshotCoordinator) (generation : Nat) : List Nat :=
  if coordinator.generation = generation then coordinator.waiters else []

def writeFailed (coordinator : SnapshotCoordinator) : SnapshotCoordinator :=
  { coordinator with waiters := [], task := .ready }

variable (coordinator : SnapshotCoordinator)

theorem ensureTask_generation : coordinator.ensureTask.generation = coordinator.generation := by
  unfold ensureTask
  split <;> rfl

theorem ensureTask_dirty : coordinator.ensureTask.dirty = coordinator.dirty := by
  unfold ensureTask
  split <;> rfl

theorem ensureTask_writing (generation writer : Nat) :
    coordinator.ensureTask.task = .writing generation writer ↔
      coordinator.task = .writing generation writer := by
  unfold ensureTask
  split
  · rename_i absent
    rw [absent]
    constructor <;> intro impossible <;> cases impossible
  · exact Iff.rfl

theorem ensureTask_taken? : coordinator.ensureTask.task.taken? = coordinator.task.taken? := by
  unfold ensureTask
  split
  · rename_i absent
    rw [absent]
    rfl
  · rfl

@[simp] theorem markDirty_taken? (immediate : Bool) :
    (coordinator.markDirty immediate).task.taken? = coordinator.task.taken? :=
  ensureTask_taken? _

@[simp] theorem addWaiter_taken? (call : Nat) :
    (coordinator.addWaiter call).task.taken? = coordinator.task.taken? :=
  ensureTask_taken? _

@[simp] theorem markDirty_generation (immediate : Bool) :
    (coordinator.markDirty immediate).generation = coordinator.generation + 1 :=
  ensureTask_generation _

@[simp] theorem markDirty_dirty (immediate : Bool) :
    (coordinator.markDirty immediate).dirty = true :=
  ensureTask_dirty _

theorem markDirty_writing (immediate : Bool) (generation writer : Nat) :
    (coordinator.markDirty immediate).task = .writing generation writer ↔
      coordinator.task = .writing generation writer :=
  ensureTask_writing _ generation writer

@[simp] theorem addWaiter_generation (call : Nat) :
    (coordinator.addWaiter call).generation = coordinator.generation :=
  ensureTask_generation _

theorem addWaiter_writing (call generation writer : Nat) :
    (coordinator.addWaiter call).task = .writing generation writer ↔
      coordinator.task = .writing generation writer :=
  ensureTask_writing _ generation writer

end SnapshotCoordinator

def EventData.immediate : EventData → Bool
  | .userMessage .. => true
  | .assistantMessage _ => true
  | .toolResult .. => true
  | .compactMessage _ => true
  | .hintMessage .. => true
  | .approvalAsked .. => true
  | .turnEnd _ => true
  | _ => false

/-! ### Calls -/

/-- What `_write_snapshot` captured, and how many rollbacks there had been. -/
structure Capture where
  checkpoint : Checkpoint
  epoch : Nat
deriving DecidableEq

inductive Write where
  | snapshot (capture : Capture)
  | update
  /-- A rollback called when so many events had been broadcast. -/
  | rollback (truncation : Truncation) (called : Nat)
deriving DecidableEq

inductive Call where
  | absent
  /-- `_write_snapshot` waits for the session lock. -/
  | captured (capture : Capture)
  /-- Holds the session lock; the file is being replaced. -/
  | writes (write : Write)
  /-- `flush_log` waits; the log stood at `seq` when it was called, and the
  coordinator at `mark`. -/
  | flushes (seq : Int) (mark : Nat)
  | flushed (seq : Int)
  | rollbackFlushes (throughMessageId : String) (called : Nat)
  | rollbackWaits (throughMessageId : String) (called : Nat)
  | rolledBack (truncation : Truncation)
  | refused (error : RollbackError)
  | finished
  | failed
deriving DecidableEq

namespace Call

def answer : Call → Call
  | .flushes seq _ => .flushed seq
  | .rollbackFlushes throughMessageId called => .rollbackWaits throughMessageId called
  | call => call

def reject (sessionId : String) : Call → Call
  | .flushes .. => .failed
  | .rollbackFlushes .. => .refused (.busy ("session checkpoint 未完成: " ++ sessionId))
  | call => call

end Call

structure Ledger where
  broadcast : List Event
  commits : List SessionMeta
  removals : List (List String)
  /-- Removed messages that a checkpoint brought back. -/
  revived : List String
  /-- The events appended between the call and the commit of the last rollback. -/
  awaited : List Event
  /-- What checkpoints committed since the last rollback. -/
  durable : List Event
deriving DecidableEq

/-- One session in the service; the checkpoints are calls, so the slot for one
in `service` stays empty. -/
structure Recorder where
  service : ServiceState
  coordinator : SnapshotCoordinator
  lock : Option Nat
  calls : Nat → Call
  ledger : Ledger

namespace Recorder

/-- A stored session that nothing has touched since the start. -/
def opened (sessionId : String) (stored : SessionMeta) : Recorder where
  service := .opened sessionId stored
  coordinator := .idle
  lock := none
  calls := fun _ => .absent
  ledger := ⟨[], [], [], [], [], []⟩

def setCall (recorder : Recorder) (call : Nat) (stage : Call) : Recorder :=
  { recorder with calls := fun other => if other = call then stage else recorder.calls other }

variable (recorder : Recorder)

@[simp] theorem setCall_self (call : Nat) (stage : Call) :
    (recorder.setCall call stage).calls call = stage := if_pos rfl

theorem setCall_other {call other : Nat} (stage : Call) (different : other ≠ call) :
    (recorder.setCall call stage).calls other = recorder.calls other := if_neg different

/-- `_on_event`: broadcast the event and mark the session dirty. -/
def publish (recorder : Recorder) (service : ServiceState) (event : Event) : Recorder :=
  { recorder with
    service := service
    coordinator := recorder.coordinator.markDirty event.data.immediate
    ledger := { recorder.ledger with broadcast := recorder.ledger.broadcast ++ [event] } }

def appendEvent (recorder : Recorder) (time : Int) (data : EventData)
    (messageId : Option String) : Recorder :=
  match recorder.service.liveSession.log.append time data messageId with
  | some (event, log) => recorder.publish (recorder.service.withLog log) event
  | none => { recorder with service := recorder.service.load }

/-- `append_user_message_if_absent`. -/
def appendUser (recorder : Recorder) (time : Int) (generated requestId : String)
    (content : List Json) (metadata : KeyedTable String Json) : Recorder :=
  match recorder.service.appendUserMessageIfAbsent time generated requestId content metadata with
  | (.appended event, service) => recorder.publish service event
  | (_, service) => { recorder with service := service }

def answerAll (recorder : Recorder) (waiters : List Nat) : Recorder :=
  { recorder with
    calls := fun call =>
      if call ∈ waiters then (recorder.calls call).answer else recorder.calls call }

def rejectAll (recorder : Recorder) (waiters : List Nat) : Recorder :=
  { recorder with
    calls := fun call =>
      if call ∈ waiters then (recorder.calls call).reject recorder.service.sessionId
      else recorder.calls call }

theorem answerAll_calls (waiters : List Nat) (call : Nat) :
    (recorder.answerAll waiters).calls call =
      if call ∈ waiters then (recorder.calls call).answer else recorder.calls call := rfl

theorem rejectAll_calls (waiters : List Nat) (call : Nat) :
    (recorder.rejectAll waiters).calls call =
      if call ∈ waiters then (recorder.calls call).reject recorder.service.sessionId
      else recorder.calls call := rfl

/-- The snapshot write of `writer` returned; the loop goes on if it is its own. -/
def writerReturned (recorder : Recorder) (writer : Nat) : Recorder :=
  match recorder.coordinator.task with
  | .writing generation current =>
      if current = writer then
        { recorder.answerAll (recorder.coordinator.answered generation) with
          coordinator := recorder.coordinator.writeSucceeded generation }
      else recorder
  | _ => recorder

/-- The snapshot write of `writer` raised. -/
def writerRaised (recorder : Recorder) (writer : Nat) : Recorder :=
  match recorder.coordinator.task with
  | .writing _ current =>
      if current = writer then
        { recorder.rejectAll recorder.coordinator.waiters with
          coordinator := recorder.coordinator.writeFailed }
      else recorder
  | _ => recorder

/-- `_write_snapshot` up to the session lock: it captures the log, or returns
at once when no log is loaded. -/
def capture (recorder : Recorder) (writer : Nat) : Recorder :=
  match recorder.service.live with
  | some live =>
      recorder.setCall writer (.captured
        ⟨⟨live.log.events, live.log.seq, live.baseline⟩, recorder.ledger.removals.length⟩)
  | none => (recorder.setCall writer .finished).writerReturned writer

/-- The loop starts a checkpoint for `generation`. -/
def beginCheckpoint (recorder : Recorder) (generation writer : Nat) : Recorder :=
  { recorder with coordinator := recorder.coordinator.beginWrite generation writer }.capture writer

/-- One entry of the loop of `_run`. -/
def enterLoop (recorder : Recorder) (writer : Nat) : Recorder :=
  if ¬ recorder.coordinator.dirty then
    { recorder with coordinator := { recorder.coordinator with task := .absent } }
  else if ¬ recorder.coordinator.immediate then
    { recorder with
      coordinator :=
        { recorder.coordinator with task := .waiting recorder.coordinator.generation } }
  else recorder.beginCheckpoint recorder.coordinator.generation writer

/-- `flush_log` of a call that then stands at `waits`, or at `done` at once; a
clean coordinator has no task to wait for. -/
def joinFlush (recorder : Recorder) (call : Nat) (waits done : Call) : Recorder :=
  let coordinator :=
    if recorder.service.live.isSome then recorder.coordinator.markDirty true
    else recorder.coordinator
  if coordinator.dirty then
    { recorder with coordinator := coordinator.addWaiter call }.setCall call waits
  else { recorder with coordinator := coordinator }.setCall call done

def flushLog (recorder : Recorder) (call : Nat) : Recorder :=
  let seq :=
    match recorder.service.live with
    | some live => live.log.seq
    | none => recorder.service.stored.seq
  recorder.joinFlush call (.flushes seq (recorder.coordinator.generation + 1)) (.flushed seq)

/-- The call of `rollback_session`, up to its flush. -/
def callRollback (recorder : Recorder) (call : Nat) (throughMessageId : String) : Recorder :=
  if throughMessageId = "" then
    recorder.setCall call (.refused (.target "rollback 必须提供 through_message_id"))
  else
    recorder.joinFlush call (.rollbackFlushes throughMessageId recorder.ledger.broadcast.length)
      (.rollbackWaits throughMessageId recorder.ledger.broadcast.length)

def lockSnapshot (recorder : Recorder) (call : Nat) (capture : Capture) : Recorder :=
  if recorder.service.stored.seq > capture.checkpoint.seq then
    (recorder.setCall call .finished).writerReturned call
  else { recorder with lock := some call }.setCall call (.writes (.snapshot capture))

def lockRollback (recorder : Recorder) (call : Nat) (throughMessageId : String) (called : Nat) :
    Recorder :=
  match recorder.service.planRollback throughMessageId with
  | .error error =>
      { recorder with service := recorder.service.load }.setCall call (.refused error)
  | .ok truncation =>
      { recorder with service := recorder.service.load, lock := some call }.setCall call
        (.writes (.rollback truncation called))

def removedSince (ledger : Ledger) (capture : Capture) : List String :=
  (capture.checkpoint.messages.items.map Msg.id).filter fun id =>
    (ledger.removals.drop capture.epoch).any fun removed => decide (id ∈ removed)

def commitSnapshot (recorder : Recorder) (call : Nat) (capture : Capture) : Recorder :=
  let committed := capture.checkpoint.commit recorder.service.stored
  let ledger := recorder.ledger
  ({ recorder with
    service := { recorder.service with stored := committed }
    lock := none
    ledger :=
      { ledger with
        commits := ledger.commits ++ [committed]
        revived := ledger.revived ++ removedSince ledger capture
        durable := ledger.durable ++ capture.checkpoint.events } }.setCall call
      .finished).writerReturned call

def commitRollback (recorder : Recorder) (call : Nat) (truncation : Truncation) (called : Nat) :
    Recorder :=
  let ledger := recorder.ledger
  { recorder with
    service := recorder.service.truncated truncation
    lock := none
    ledger :=
      { ledger with
        removals := ledger.removals ++ [truncation.removedMessageIds]
        awaited := ledger.broadcast.drop called
        durable := [] } }.setCall call (.rolledBack truncation)

def commit (recorder : Recorder) (call : Nat) : Write → Recorder
  | .snapshot capture => recorder.commitSnapshot call capture
  | .update => { recorder with lock := none }.setCall call .finished
  | .rollback truncation called => recorder.commitRollback call truncation called

def failWrite (recorder : Recorder) (call : Nat) : Write → Recorder
  | .snapshot _ => ({ recorder with lock := none }.setCall call .failed).writerRaised call
  | _ => { recorder with lock := none }.setCall call .failed

inductive Action where
  | load
  | append (time : Int) (data : EventData) (messageId : Option String)
  | appendUser (time : Int) (generated requestId : String) (content : List Json)
      (metadata : KeyedTable String Json)
  | markDirty (immediate : Bool)
  /-- The task enters its loop; a checkpoint it starts is the call `writer`. -/
  | enterLoop (writer : Nat)
  | tick (writer : Nat)
  | writeSnapshot (writer : Nat)
  | update (call : Nat)
  | lock (call : Nat)
  | commit (call : Nat)
  | writeFails (call : Nat)
  | flushLog (call : Nat)
  | flushCancelled (call : Nat)
  | rollback (call : Nat) (throughMessageId : String)
deriving DecidableEq

def step (recorder : Recorder) : Action → Option Recorder
  | .load => some { recorder with service := recorder.service.load }
  | .append time data messageId => some (recorder.appendEvent time data messageId)
  | .appendUser time generated requestId content metadata =>
      some (recorder.appendUser time generated requestId content metadata)
  | .markDirty immediate =>
      some { recorder with coordinator := recorder.coordinator.markDirty immediate }
  | .enterLoop writer =>
      match recorder.coordinator.task, recorder.calls writer with
      | .ready, .absent => some (recorder.enterLoop writer)
      | _, _ => none
  | .tick writer =>
      match recorder.coordinator.task, recorder.calls writer with
      | .waiting generation, .absent => some (recorder.beginCheckpoint generation writer)
      | _, _ => none
  | .writeSnapshot writer =>
      match recorder.calls writer with
      | .absent => some (recorder.capture writer)
      | _ => none
  | .update call =>
      match recorder.lock, recorder.calls call with
      | none, .absent => some ({ recorder with lock := some call }.setCall call (.writes .update))
      | _, _ => none
  | .lock call =>
      match recorder.lock, recorder.calls call with
      | none, .captured capture => some (recorder.lockSnapshot call capture)
      | none, .rollbackWaits throughMessageId called =>
          some (recorder.lockRollback call throughMessageId called)
      | _, _ => none
  | .commit call =>
      match recorder.calls call with
      | .writes write => some (recorder.commit call write)
      | _ => none
  | .writeFails call =>
      match recorder.calls call with
      | .writes write => some (recorder.failWrite call write)
      | _ => none
  | .flushLog call =>
      match recorder.calls call with
      | .absent => some (recorder.flushLog call)
      | _ => none
  | .flushCancelled call =>
      match recorder.calls call with
      | .flushes .. => some (recorder.setCall call .failed)
      | _ => none
  | .rollback call throughMessageId =>
      match recorder.calls call with
      | .absent => some (recorder.callRollback call throughMessageId)
      | _ => none

def system : StepSystem Recorder Action := ⟨step⟩

end Recorder

/-! ### What an append publishes -/

namespace SessionLog

@[simp] theorem push_events (log : SessionLog) (event : Event) :
    (log.push event).events = log.events ++ [event] := by
  unfold push
  dsimp only
  split <;> (try split) <;> rfl

@[simp] theorem push_nextSeq (log : SessionLog) (event : Event) :
    (log.push event).nextSeq = log.nextSeq + 1 := by
  unfold push
  dsimp only
  split <;> (try split) <;> rfl

theorem push_seq (log : SessionLog) (event : Event) : (log.push event).seq = log.seq + 1 := by
  unfold seq
  rw [push_nextSeq]
  omega

theorem append_appended {log next : SessionLog} {time : Int} {data : EventData}
    {messageId : Option String} {event : Event}
    (appended : log.append time data messageId = some (event, next)) :
    event.seq = log.nextSeq ∧ next = log.push event := by
  unfold append at appended
  dsimp only at appended
  split at appended
  · cases appended
    exact ⟨rfl, rfl⟩
  · cases appended

end SessionLog

namespace Recorder

theorem appendEvent_cases (recorder : Recorder) (time : Int) (data : EventData)
    (messageId : Option String) :
    recorder.appendEvent time data messageId = { recorder with service := recorder.service.load } ∨
      ∃ event : Event, event.seq = recorder.service.liveSession.log.nextSeq ∧
        recorder.appendEvent time data messageId =
          recorder.publish (recorder.service.withLog (recorder.service.liveSession.log.push event))
            event := by
  unfold appendEvent
  split
  · rename_i event log appended
    obtain ⟨number, pushed⟩ := SessionLog.append_appended appended
    subst pushed
    exact Or.inr ⟨event, number, rfl⟩
  · exact Or.inl rfl

theorem appendUser_cases (recorder : Recorder) (time : Int) (generated requestId : String)
    (content : List Json) (metadata : KeyedTable String Json) :
    recorder.appendUser time generated requestId content metadata = recorder ∨
      recorder.appendUser time generated requestId content metadata =
        { recorder with service := recorder.service.load } ∨
      ∃ event : Event, event.seq = recorder.service.liveSession.log.nextSeq ∧
        recorder.appendUser time generated requestId content metadata =
          recorder.publish (recorder.service.withLog (recorder.service.liveSession.log.push event))
            event := by
  unfold appendUser
  split
  · rename_i event service appended
    obtain ⟨_, _, number, _, pushed⟩ := ServiceState.appendUser_appended appended
    subst pushed
    exact Or.inr (Or.inr ⟨event, number, rfl⟩)
  · rename_i outcome service nothing called
    rcases ServiceState.appendUser_unchanged called
      (fun event same => nothing event same) with same | same
    · subst same
      exact Or.inl rfl
    · subst same
      exact Or.inr (Or.inl rfl)

end Recorder

end Ftre.Session
