import Ftre.Lib.StepSystem
import Ftre.Runtime.Occupancy

/-!
The agent loop of one session.
-/

namespace Ftre.Runtime

open Lib Lib.Parties

inductive Entry where
  | input
  | confirmation
deriving DecidableEq, Repr

/-- What `run_input` awaits between its reservation and its task. -/
inductive AdmissionPoint where
  | validating
  | resolvingConfig
  | resolvingAgent
  | beforeRun
  | persisting
deriving DecidableEq, Repr

def AdmissionPoint.next : AdmissionPoint → Option AdmissionPoint
  | .validating => some .resolvingConfig
  | .resolvingConfig => some .resolvingAgent
  | .resolvingAgent => some .beforeRun
  | .beforeRun => some .persisting
  | .persisting => none

/-- What `resume_confirmation` awaits between its check and its task. -/
inductive ResolutionPoint where
  | resolvingConfig
  | resolvingAgent
deriving DecidableEq, Repr

/-- What the after-run hook awaits; a shared compaction is known by its number. -/
inductive HookPoint where
  | entering
  | checking
  | compacting (task : Nat)
  | cancelling (task : Option Nat)
  | rechecking
  /-- In a listener after the compaction's. -/
  | leaving
deriving DecidableEq, Repr

/-- `set_maintenance(True)` was called and `set_maintenance(False)` was not. -/
def HookPoint.marked : HookPoint → Bool
  | .compacting _ => true
  | .cancelling _ => true
  | .rechecking => true
  | _ => false

inductive DeletionPoint where
  | readingMetadata
  | awaitingTask (turn : Nat)
  | awaitingCompletion (run : Nat)
  | removing
deriving DecidableEq, Repr

inductive Outcome where
  /-- The request has a result already. -/
  | duplicate (state : String)
  | agentBusy
  | eventsRequired
  | notAdmitted
  | ran
  | deleted
  | interrupted
deriving DecidableEq, Repr

inductive Stage where
  /-- Nobody made this call yet. -/
  | absent
  | requestState
  | admitting (point : AdmissionPoint)
  | resolving (point : ResolutionPoint)
  /-- The turn's task is at work. -/
  | executing (entry : Entry)
  | completing (executed : Bool)
  /-- `since` inputs had been admitted when the turn's guards were dropped. -/
  | afterRun (entry : Entry) (since : Nat) (point : HookPoint)
  | deleting (point : DeletionPoint)
  | finished (outcome : Outcome)
deriving DecidableEq, Repr

namespace Stage

def standing : Stage → Standing
  | .admitting _ => .owning
  | .executing _ => .owning
  | .completing _ => .owning
  | .resolving _ => .resolving
  | .afterRun _ since point => if point.marked then .maintaining since else .afterTurn since
  | _ => .outside

/-- `run_input` set its completion event. -/
def completed : Stage → Bool
  | .finished .interrupted => false
  | .finished _ => true
  | _ => false

end Stage

inductive Gate where
  | idle
  | checking
  | compacting (task : Nat)
deriving DecidableEq, Repr

/-- The tables of the loop for one session. A turn's task and its signal are
written and cleared together, so one field names the call of both. -/
structure Engine where
  directTask : Option Nat
  directReservation : Bool
  maintenance : Bool
  completionEvent : Option Nat
  cancelled : Nat → Bool
  compactTask : Option Nat
  compactTasksMade : Nat
  calls : Nat → Stage
  gates : Nat → Gate
  inputsAdmitted : Nat

namespace Engine

def idle : Engine where
  directTask := none
  directReservation := false
  maintenance := false
  completionEvent := none
  cancelled _ := false
  compactTask := none
  compactTasksMade := 0
  calls _ := .absent
  gates _ := .idle
  inputsAdmitted := 0

def isSessionRunning (engine : Engine) : Bool :=
  engine.directTask.isSome || engine.directReservation

def isActiveSession (engine : Engine) : Bool :=
  engine.isSessionRunning || engine.directTask.isSome || engine.maintenance

def isCompacting (engine : Engine) : Bool := engine.compactTask.isSome

def setStage (engine : Engine) (call : Nat) (stage : Stage) : Engine :=
  { engine with calls := Function.update engine.calls call stage }

def setGate (engine : Engine) (gate : Nat) (state : Gate) : Engine :=
  { engine with gates := Function.update engine.gates gate state }

/-- The check and the reservation of `run_input`, with no await between them. -/
def checkInput (engine : Engine) (call : Nat) (duplicate : Option String) : Engine :=
  match duplicate with
  | some state => engine.setStage call (.finished (.duplicate state))
  | none =>
      if engine.isActiveSession then engine.setStage call (.finished .agentBusy)
      else
        { engine with
          directReservation := true
          completionEvent := some call
          inputsAdmitted := engine.inputsAdmitted + 1 }.setStage call (.admitting .validating)

def admitInput (engine : Engine) (call : Nat) (point : AdmissionPoint) : Engine :=
  match point.next with
  | some next => engine.setStage call (.admitting next)
  | none => { engine with directTask := some call }.setStage call (.executing .input)

/-- The end of the `finally` of `run_input`. -/
def finishInput (engine : Engine) (call : Nat) (outcome : Outcome) : Engine :=
  { engine with
    maintenance := false
    completionEvent :=
      if engine.completionEvent = some call then none else engine.completionEvent }.setStage
    call (.finished outcome)

/-- The `finally` of `run_input`, up to the after-run hook if the turn was made. -/
def releaseInput (engine : Engine) (call : Nat) (executed : Bool) : Engine :=
  let released := { engine with directReservation := false, directTask := none }
  if executed then
    released.setStage call (.afterRun .input released.inputsAdmitted .entering)
  else released.finishInput call .notAdmitted

def checkConfirmation (engine : Engine) (call : Nat) (hasEvents : Bool) : Engine :=
  if !hasEvents then engine.setStage call (.finished .eventsRequired)
  else if engine.isActiveSession then engine.setStage call (.finished .agentBusy)
  else engine.setStage call (.resolving .resolvingConfig)

def resolve (engine : Engine) (call : Nat) : ResolutionPoint → Engine
  | .resolvingConfig => engine.setStage call (.resolving .resolvingAgent)
  | .resolvingAgent =>
      { engine with directTask := some call }.setStage call (.executing .confirmation)

def releaseConfirmation (engine : Engine) (call : Nat) : Engine :=
  { engine with directTask := none }.setStage call
    (.afterRun .confirmation engine.inputsAdmitted .entering)

def getOrCreateCompactTask (engine : Engine) : Engine × Nat :=
  match engine.compactTask with
  | some task => (engine, task)
  | none =>
      ({ engine with
        compactTask := some engine.compactTasksMade
        compactTasksMade := engine.compactTasksMade + 1 }, engine.compactTasksMade)

def startHookCompaction (engine : Engine) (call : Nat) (entry : Entry) (since : Nat) : Engine :=
  let (joined, task) := { engine with maintenance := true }.getOrCreateCompactTask
  joined.setStage call (.afterRun entry since (.compacting task))

/-- `set_maintenance(False)` and on to the next stage. -/
def unmark (engine : Engine) (call : Nat) (stage : Stage) : Engine :=
  { engine with maintenance := false }.setStage call stage

def finishRun (engine : Engine) (call : Nat) : Entry → Engine
  | .input => engine.finishInput call .ran
  | .confirmation => engine.setStage call (.finished .ran)

def interruptHook (engine : Engine) (call : Nat) (entry : Entry) (since : Nat) :
    HookPoint → Engine
  | .compacting _ => engine.setStage call (.afterRun entry since (.cancelling engine.compactTask))
  | .rechecking => engine.setStage call (.afterRun entry since (.cancelling engine.compactTask))
  | .cancelling _ => engine.unmark call (.finished .interrupted)
  | _ => engine.setStage call (.finished .interrupted)

/-- `cancel_session`; where the turn's task then stops is a later step of the turn. -/
def cancelSession (engine : Engine) : Engine :=
  match engine.directTask with
  | some turn => { engine with cancelled := Function.update engine.cancelled turn true }
  | none => engine

def deletion (engine : Engine) (call : Nat) : DeletionPoint → Option Engine
  | .readingMetadata =>
      match engine.directTask with
      | some turn => some (engine.cancelSession.setStage call (.deleting (.awaitingTask turn)))
      | none => some (engine.setStage call (.deleting .removing))
  | .awaitingTask turn =>
      match engine.calls turn, engine.completionEvent with
      | .executing _, _ => none
      | _, some run => some (engine.setStage call (.deleting (.awaitingCompletion run)))
      | _, none => some (engine.setStage call (.deleting .removing))
  | .awaitingCompletion run =>
      if (engine.calls run).completed then some (engine.setStage call (.deleting .removing))
      else none
  | .removing => some (engine.setStage call (.finished .deleted))

/-! ### Steps -/

inductive Action where
  | runInput (call : Nat)
  | requestStateRead (call : Nat) (duplicate : Option String)
  | admissionAdvances (call : Nat)
  | admissionStops (call : Nat) (tells : Bool)
  | turnEnds (call : Nat) (tells : Bool)
  | waitersTold (call : Nat)
  | resumeConfirmation (call : Nat) (hasEvents : Bool)
  | resolutionAdvances (call : Nat)
  | resolutionFails (call : Nat)
  /-- The hook reaches the compaction's listener, with or without a config and a channel. -/
  | hookReached (call : Nat) (configured : Bool)
  | hookAnswered (call : Nat) (needed : Bool)
  | hookResumed (call : Nat) (failed : Bool)
  | hookRechecked (call : Nat)
  | hookLeft (call : Nat)
  | hookInterrupted (call : Nat)
  | hookCancelled (call : Nat)
  | gateOpened (gate : Nat)
  | gateAnswered (gate : Nat) (needed : Bool)
  | gateResumed (gate : Nat)
  | gateInterrupted (gate : Nat)
  | compactTaskEnds
  | cancelSession
  | deleteSession (call : Nat)
  | deletionAdvances (call : Nat)
deriving DecidableEq, Repr

def step (engine : Engine) : Action → Option Engine
  | .runInput call =>
      match engine.calls call with
      | .absent => some (engine.setStage call .requestState)
      | _ => none
  | .requestStateRead call duplicate =>
      match engine.calls call with
      | .requestState => some (engine.checkInput call duplicate)
      | _ => none
  | .admissionAdvances call =>
      match engine.calls call with
      | .admitting point => some (engine.admitInput call point)
      | _ => none
  | .admissionStops call tells =>
      match engine.calls call with
      | .admitting _ =>
          if tells then some (engine.setStage call (.completing false))
          else some (engine.releaseInput call false)
      | _ => none
  | .turnEnds call tells =>
      match engine.calls call with
      | .executing .input =>
          if tells then some (engine.setStage call (.completing true))
          else some (engine.releaseInput call true)
      | .executing .confirmation => some (engine.releaseConfirmation call)
      | _ => none
  | .waitersTold call =>
      match engine.calls call with
      | .completing executed => some (engine.releaseInput call executed)
      | _ => none
  | .resumeConfirmation call hasEvents =>
      match engine.calls call with
      | .absent => some (engine.checkConfirmation call hasEvents)
      | _ => none
  | .resolutionAdvances call =>
      match engine.calls call with
      | .resolving point => some (engine.resolve call point)
      | _ => none
  | .resolutionFails call =>
      match engine.calls call with
      | .resolving _ => some (engine.setStage call (.finished .notAdmitted))
      | _ => none
  | .hookReached call configured =>
      match engine.calls call with
      | .afterRun entry since .entering =>
          if engine.cancelled call || !configured then
            some (engine.setStage call (.afterRun entry since .leaving))
          else some (engine.setStage call (.afterRun entry since .checking))
      | _ => none
  | .hookAnswered call needed =>
      match engine.calls call with
      | .afterRun entry since .checking =>
          if needed then some (engine.startHookCompaction call entry since)
          else some (engine.setStage call (.afterRun entry since .leaving))
      | _ => none
  | .hookResumed call failed =>
      match engine.calls call with
      | .afterRun entry since (.compacting task) =>
          if engine.compactTask = some task then none
          else if failed then some (engine.unmark call (.afterRun entry since .leaving))
          else some (engine.setStage call (.afterRun entry since .rechecking))
      | _ => none
  | .hookRechecked call =>
      match engine.calls call with
      | .afterRun entry since .rechecking =>
          some (engine.unmark call (.afterRun entry since .leaving))
      | _ => none
  | .hookLeft call =>
      match engine.calls call with
      | .afterRun entry _ .leaving => some (engine.finishRun call entry)
      | _ => none
  | .hookInterrupted call =>
      match engine.calls call with
      | .afterRun entry since point => some (engine.interruptHook call entry since point)
      | _ => none
  | .hookCancelled call =>
      match engine.calls call with
      | .afterRun _ _ (.cancelling task) =>
          if task.isSome ∧ engine.compactTask = task then none
          else some (engine.unmark call (.finished .interrupted))
      | _ => none
  | .gateOpened gate =>
      match engine.gates gate with
      | .idle => some (engine.setGate gate .checking)
      | _ => none
  | .gateAnswered gate needed =>
      match engine.gates gate with
      | .checking =>
          if needed then
            let (joined, task) := engine.getOrCreateCompactTask
            some (joined.setGate gate (.compacting task))
          else some (engine.setGate gate .idle)
      | _ => none
  | .gateResumed gate =>
      match engine.gates gate with
      | .compacting task =>
          if engine.compactTask = some task then none else some (engine.setGate gate .idle)
      | _ => none
  | .gateInterrupted gate =>
      match engine.gates gate with
      | .idle => none
      | _ => some (engine.setGate gate .idle)
  | .compactTaskEnds =>
      match engine.compactTask with
      | some _ => some { engine with compactTask := none }
      | none => none
  | .cancelSession => some engine.cancelSession
  | .deleteSession call =>
      match engine.calls call with
      | .absent => some (engine.setStage call (.deleting .readingMetadata))
      | _ => none
  | .deletionAdvances call =>
      match engine.calls call with
      | .deleting point => engine.deletion call point
      | _ => none

def system : StepSystem Engine Action := ⟨step⟩

end Engine

end Ftre.Runtime
