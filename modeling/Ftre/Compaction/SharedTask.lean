import Mathlib.Logic.Function.Basic
import Ftre.Lib.StepSystem

/-!
The one compaction task of a session and those that wait for it.
-/

namespace Ftre.Compaction

open Lib

inductive CompactOutcome where
  | summary (text : Option String)
  | failed
  | cancelled
deriving DecidableEq

inductive CompactPhase where
  | absent
  | running
  | stopping
  | done (outcome : CompactOutcome)
deriving DecidableEq

/-- A task that executes `_do_compact`. -/
structure CompactTask where
  phase : CompactPhase := .absent
  cleaned : Bool := false
  waiters : List Nat := []
  stoppedFor : List Nat := []
deriving DecidableEq

def CompactTask.active (task : CompactTask) : Bool :=
  match task.phase with
  | .running => true
  | .stopping => true
  | _ => false

inductive CallerPhase where
  | away
  | preparing
  | waiting (task : Nat)
  | checking
  /-- `cancel_compact` awaits the task. -/
  | stopping (task : Nat)
  | left
deriving DecidableEq

/-- A call of `compact`, with or without the hook around it, or of `cancel_compact`. -/
structure CompactCaller where
  hook : Bool := false
  phase : CallerPhase := .away
  joined : Option Nat := none
  got : Option CompactOutcome := none
deriving DecidableEq

structure SharedCompaction where
  /-- `_compact_tasks.get(session_id)`. -/
  entry : Option Nat
  tasks : Nat → CompactTask
  created : Nat
  callers : Nat → CompactCaller

namespace SharedCompaction

def initial : SharedCompaction where
  entry := none
  tasks _ := {}
  created := 0
  callers _ := {}

def setTask (state : SharedCompaction) (task : Nat) (value : CompactTask) : SharedCompaction :=
  { state with tasks := Function.update state.tasks task value }

def setCaller (state : SharedCompaction) (caller : Nat) (value : CompactCaller) :
    SharedCompaction :=
  { state with callers := Function.update state.callers caller value }

def create (state : SharedCompaction) : SharedCompaction × Nat :=
  ({ state.setTask state.created { phase := .running } with
    entry := some state.created
    created := state.created + 1 }, state.created)

/-- `_get_or_create_compact_task`. -/
def getOrCreate (state : SharedCompaction) : SharedCompaction × Nat :=
  match state.entry with
  | some task => if (state.tasks task).active then (state, task) else state.create
  | none => state.create

/-- `compact`: the caller waits on the shielded task. -/
def join (state : SharedCompaction) (caller : Nat) (hook : Bool) : SharedCompaction :=
  let (next, task) := state.getOrCreate
  (next.setTask task { next.tasks task with waiters := (next.tasks task).waiters ++ [caller] })
    |>.setCaller caller {
      hook := hook
      phase := .waiting task
      joined := some task }

/-- `task.cancel()`, of a task that is not done; `others` are the waiters it stops for. -/
def requestStop (task : CompactTask) (others : List Nat) : CompactTask :=
  match task.phase with
  | .running => { task with
      phase := .stopping
      stoppedFor := others }
  | _ => task

/-- `cancel_compact`, up to its wait for the task. -/
def beginStop (state : SharedCompaction) (caller : Nat) (byHook : Bool) : SharedCompaction :=
  match state.entry with
  | none => state.setCaller caller { state.callers caller with phase := .left }
  | some task =>
      let held := state.tasks task
      let others := if byHook then held.waiters.filter fun other => other ≠ caller else []
      (state.setTask task (requestStop held others)).setCaller caller
        { state.callers caller with phase := .stopping task }

def unwait (state : SharedCompaction) (caller task : Nat) : SharedCompaction :=
  let held := state.tasks task
  state.setTask task { held with waiters := held.waiters.filter fun other => other ≠ caller }

def dropEntry (state : SharedCompaction) (task : Nat) : SharedCompaction :=
  { state with entry := if state.entry = some task then none else state.entry }

/-! ### Steps -/

inductive Action where
  /-- A command or the claim hook calls `compact`. -/
  | call (caller : Nat)
  /-- A hook that stops the task when it is cancelled begins. -/
  | enterHook (caller : Nat)
  | joinHook (caller : Nat)
  | finish (task : Nat) (outcome : CompactOutcome)
  | cleanup (task : Nat)
  | wake (caller : Nat)
  | leaveHook (caller : Nat)
  /-- The caller is cancelled at its await. -/
  | cancel (caller : Nat)
  | cancelCompact (caller : Nat)
  /-- `cancel_compact` goes on behind the end of the task. -/
  | stopped (caller : Nat)
deriving DecidableEq

def receive (state : SharedCompaction) (caller : Nat) (outcome : CompactOutcome) :
    SharedCompaction :=
  let held := state.callers caller
  let served := state.setCaller caller { held with
    got := some outcome
    phase := if held.hook then .checking else .left }
  if held.hook && decide (outcome = .cancelled) then served.beginStop caller true else served

def cancelCaller (state : SharedCompaction) (caller : Nat) : Option SharedCompaction :=
  let held := state.callers caller
  match held.phase with
  | .preparing => some (state.beginStop caller true)
  | .checking => some (state.beginStop caller true)
  | .waiting task =>
      let freed := state.unwait caller task
      if held.hook then some (freed.beginStop caller true)
      else some (freed.setCaller caller { held with phase := .left })
  | .stopping _ => some (state.setCaller caller { held with phase := .left })
  | _ => none

def step (state : SharedCompaction) : Action → Option SharedCompaction
  | .call caller =>
      if (state.callers caller).phase = .away then some (state.join caller false) else none
  | .enterHook caller =>
      if (state.callers caller).phase = .away then
        some (state.setCaller caller {
          hook := true
          phase := .preparing })
      else none
  | .joinHook caller =>
      if (state.callers caller).phase = .preparing then some (state.join caller true) else none
  | .finish task outcome =>
      if (state.tasks task).active then
        some (state.setTask task { state.tasks task with phase := .done outcome })
      else none
  | .cleanup task =>
      match (state.tasks task).phase with
      | .done _ =>
          if (state.tasks task).cleaned then none
          else some ((state.setTask task { state.tasks task with cleaned := true }).dropEntry task)
      | _ => none
  | .wake caller =>
      match (state.callers caller).phase with
      | .waiting task =>
          match (state.tasks task).phase with
          | .done outcome => some ((state.unwait caller task).receive caller outcome)
          | _ => none
      | _ => none
  | .leaveHook caller =>
      if (state.callers caller).phase = .checking then
        some (state.setCaller caller { state.callers caller with phase := .left })
      else none
  | .cancel caller => state.cancelCaller caller
  | .cancelCompact caller =>
      if (state.callers caller).phase = .away then some (state.beginStop caller false) else none
  | .stopped caller =>
      match (state.callers caller).phase with
      | .stopping task =>
          match (state.tasks task).phase with
          | .done _ =>
              some ((state.dropEntry task).setCaller caller
                { state.callers caller with phase := .left })
          | _ => none
      | _ => none

def system : StepSystem SharedCompaction Action := ⟨step⟩

def Undisturbed (state : SharedCompaction) : Prop := ∀ task, (state.tasks task).stoppedFor = []

structure Shares (state : SharedCompaction) : Prop where
  single : ∀ first second, (state.tasks first).active = true → (state.tasks second).active = true →
    first = second
  registered : ∀ task, (state.tasks task).active = true → state.entry = some task
  undisturbed : state.Undisturbed
  served : ∀ caller outcome, (state.callers caller).got = some outcome →
    ∃ task, (state.callers caller).joined = some task ∧ (state.tasks task).phase = .done outcome
  wakes : ∀ caller task outcome, (state.callers caller).phase = .waiting task →
    (state.tasks task).phase = .done outcome → (state.step (.wake caller)).isSome = true

def strikes (state : SharedCompaction) : Action → Option Nat
  | .wake caller =>
      let held := state.callers caller
      match held.phase with
      | .waiting task =>
          if held.hook && decide ((state.tasks task).phase = .done .cancelled) then some caller
          else none
      | _ => none
  | .cancel caller =>
      let held := state.callers caller
      match held.phase with
      | .preparing => some caller
      | .checking => some caller
      | .waiting _ => if held.hook then some caller else none
      | _ => none
  | _ => none

/-- A hook is only cancelled, by itself or through the task it joined, while no other
caller waits for the registered task, or that task is being stopped already. -/
def Alone (state : SharedCompaction) (action : Action) : Prop :=
  ∀ caller, state.strikes action = some caller →
    ∀ task, state.entry = some task → (state.tasks task).phase = .running →
      ∀ other ∈ (state.tasks task).waiters, other = caller

end SharedCompaction

end Ftre.Compaction
