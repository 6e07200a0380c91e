import Mathlib.Data.List.Basic
import Ftre.Lib.StepSystem

/-!
The process service between its await points: processes with their handles, the calls in flight on
them, and the set of handles that closing kills.
-/

namespace Ftre.Processes

open Lib

structure ProcessResult where
  exitCode : Int
  output : String
deriving DecidableEq

/-- A started process and its handle. `held` says that the handle is in the service's set;
`output` is all that the process writes. -/
structure Process where
  capture : Bool
  synchronous : Bool
  output : String
  exited : Option Int
  killSent : Bool
  held : Bool
  communicated : Bool
  result : Option ProcessResult
deriving DecidableEq

def Process.started (capture synchronous : Bool) (output : String) : Process where
  capture := capture
  synchronous := synchronous
  output := output
  exited := none
  killSent := false
  held := true
  communicated := false
  result := none

/-- Where a kill was called, which says how its caller goes on. -/
inductive KillContext where
  | kill
  | interrupted
  /-- The same inside `run`, which kills once more when it was cancelled. -/
  | run
  | runFinal
  | terminate
  | close
deriving DecidableEq, Repr

inductive CallPhase where
  | spawning (run : Bool)
  | communicating (process : Nat) (run : Bool)
  | waiting (process : Nat)
  | terminateSignal (process : Nat)
  | terminateWait (process : Nat)
  /-- A kill that `close` has made a task of, before its first step. -/
  | killBegin (process : Nat)
  | killSignal (process : Nat) (context : KillContext)
  | killWait (process : Nat) (context : KillContext)
  | closing
  | done
deriving DecidableEq, Repr

structure ServiceState where
  processes : List Process
  calls : List CallPhase
  closed : Bool
  closeReturned : Bool
  delivered : List (Nat × ProcessResult)
deriving DecidableEq

def ServiceState.fresh : ServiceState where
  processes := []
  calls := []
  closed := false
  closeReturned := false
  delivered := []

inductive BlockingOutcome where
  | exited
  | timedOut
  | failed
deriving DecidableEq, Repr

inductive ServiceAction where
  | spawn (run : Bool)
  | spawnReturns (call : Nat) (capture : Bool) (output : String)
  | spawnFails (call : Nat)
  | spawnSync (capture : Bool) (output : String)
  | communicate (process : Nat)
  | wait (process : Nat)
  /-- The awaited output is complete; what is left of a stream is read with it. -/
  | communicateEnds (call : Nat) (rest : String)
  | waitEnds (call : Nat)
  | interrupt (call : Nat) (cancelled : Bool)
  | communicateSync (process : Nat) (outcome : BlockingOutcome) (rest : String)
  | terminate (process : Nat) (throughHandle : Bool)
  | terminateSignalled (call : Nat)
  | terminateFails (call : Nat)
  | terminateEnds (call : Nat)
  | terminateTimeout (call : Nat)
  | terminateCancelled (call : Nat)
  | terminateSync (process : Nat) (outcome : BlockingOutcome)
  | kill (process : Nat) (throughHandle : Bool)
  | killSync (process : Nat)
  | signalSent (call : Nat)
  | signalFails (call : Nat) (cancelled : Bool)
  | killEnds (call : Nat)
  | close
  | killBegins (call : Nat)
  | closeEnds (call : Nat)
  | closeCancelled (call : Nat)
  | exit (process : Nat) (status : Int)
deriving DecidableEq

namespace ServiceState

/-! ### Parts of a step -/

def modify (state : ServiceState) (index : Nat) (change : Process → Process) : ServiceState :=
  { state with processes := state.processes.modify index change }

def setCall (state : ServiceState) (call : Nat) (phase : CallPhase) : ServiceState :=
  { state with calls := state.calls.set call phase }

def addCall (state : ServiceState) (phase : CallPhase) : ServiceState :=
  { state with calls := state.calls ++ [phase] }

def deliver (state : ServiceState) (index : Nat) (result : ProcessResult) : ServiceState :=
  { state with delivered := state.delivered ++ [(index, result)] }

def hasExited (state : ServiceState) (index : Nat) : Bool :=
  match state.processes[index]? with
  | some process => process.exited.isSome
  | none => true

def discard (state : ServiceState) (index : Nat) : ServiceState :=
  state.modify index fun process => { process with held := false }

def signal (state : ServiceState) (index : Nat) : ServiceState :=
  state.modify index fun process => { process with killSent := true }

/-- `service.kill` of a process that runs, up to its first await. -/
def beginKill (windows : Bool) (state : ServiceState) (call index : Nat)
    (context : KillContext) : ServiceState :=
  if windows then state.setCall call (.killSignal index context)
  else (state.signal index).setCall call (.killWait index context)

def leaveKill (windows : Bool) (state : ServiceState) (call index : Nat) :
    KillContext → ServiceState
  | .run =>
      if state.hasExited index then (state.discard index).setCall call .done
      else state.beginKill windows call index .runFinal
  | .runFinal => (state.discard index).setCall call .done
  | .terminate => (state.discard index).setCall call .done
  | _ => state.setCall call .done

/-- `handle.kill()` in a call in flight. -/
def handleKill (windows : Bool) (state : ServiceState) (call index : Nat)
    (context : KillContext) : ServiceState :=
  if state.hasExited index then state.leaveKill windows call index context
  else state.beginKill windows call index context

def finish (state : ServiceState) (index : Nat) (result : ProcessResult) : ServiceState :=
  (state.modify index fun process =>
    { process with
      result := some result
      held := false }).deliver index result

def resultOf (process : Process) (status : Int) (rest : String) : ProcessResult :=
  ⟨status, if process.capture then process.output else rest⟩

/-- `communicate` of a handle. -/
def beginCommunicate (state : ServiceState) (index : Nat) (process : Process) : ServiceState :=
  match process.result with
  | some result => state.deliver index result
  | none =>
      if process.communicated then
        -- The first caller has no result yet: `returncode or 0`, and no output.
        state.deliver index ⟨process.exited.getD 0, ""⟩
      else
        (state.modify index fun process => { process with communicated := true }).addCall
          (.communicating index false)

/-- The handles `close` makes kills of. -/
def heldIndices (state : ServiceState) : List Nat :=
  (List.range state.processes.length).filter fun index =>
    match state.processes[index]? with
    | some process => process.held && !process.synchronous
    | none => false

/-- A kill of `close` that is not over. -/
def isCloseKill : CallPhase → Bool
  | .killBegin _ => true
  | .killSignal _ .close => true
  | .killWait _ .close => true
  | _ => false

/-- The kills of a `close` that is cancelled: those that have sent their signal end. -/
def dropKill : CallPhase → CallPhase
  | .killBegin _ => .done
  | .killSignal _ .close => .done
  | phase => phase

def clearHandle (process : Process) : Process :=
  { process with
    killSent := process.killSent || (process.held && process.synchronous && process.exited.isNone)
    held := false }

/-! ### Steps -/

def step (windows : Bool) (state : ServiceState) : ServiceAction → Option ServiceState
  | .spawn run => if state.closed then none else some (state.addCall (.spawning run))
  | .spawnReturns call capture output =>
      match state.calls[call]? with
      | some (.spawning run) =>
          let process : Process := { Process.started capture false output with
            communicated := run }
          let started : ServiceState := { state with processes := state.processes ++ [process] }
          some (started.setCall call
            (if run then .communicating state.processes.length true else .done))
      | _ => none
  | .spawnFails call =>
      match state.calls[call]? with
      | some (.spawning _) => some (state.setCall call .done)
      | _ => none
  | .spawnSync capture output =>
      if state.closed then none
      else some { state with processes := state.processes ++ [.started capture true output] }
  | .communicate index =>
      match state.processes[index]? with
      | some process =>
          if process.synchronous then none else some (state.beginCommunicate index process)
      | none => none
  | .wait index =>
      match state.processes[index]? with
      | some process =>
          if process.synchronous then none
          else if process.capture then some (state.beginCommunicate index process)
          else some (state.addCall (.waiting index))
      | none => none
  | .communicateEnds call rest =>
      match state.calls[call]? with
      | some (.communicating index _) =>
          match state.processes[index]? with
          | some process =>
              match process.exited with
              | some status =>
                  some ((state.finish index (resultOf process status rest)).setCall call .done)
              | none => none
          | none => none
      | _ => none
  | .waitEnds call =>
      match state.calls[call]? with
      | some (.waiting index) =>
          match state.processes[index]? with
          | some process =>
              match process.exited with
              | some status =>
                  if process.capture then none
                  else some ((state.finish index ⟨status, ""⟩).setCall call .done)
              | none => none
          | none => none
      | _ => none
  | .interrupt call cancelled =>
      match state.calls[call]? with
      | some (.communicating index run) =>
          some (state.handleKill windows call index
            (if run then (if cancelled then .run else .runFinal) else .interrupted))
      | some (.waiting index) => some (state.handleKill windows call index .interrupted)
      | _ => none
  | .communicateSync index outcome rest =>
      match state.processes[index]? with
      | some process =>
          if process.synchronous then
            match process.result with
            | some result => some (state.deliver index result)
            | none =>
                match outcome with
                | .exited =>
                    match process.exited with
                    | some status => some (state.finish index (resultOf process status rest))
                    | none => none
                | .timedOut =>
                    some ((if process.exited.isSome then state else state.signal index).discard
                      index)
                | .failed => some (state.discard index)
          else none
      | none => none
  | .terminate index throughHandle =>
      match state.processes[index]? with
      | some process =>
          if process.synchronous then none
          else if process.exited.isSome then
            some (if throughHandle then state else state.discard index)
          else
            some (state.addCall (if windows then .terminateSignal index else .terminateWait index))
      | none => none
  | .terminateSignalled call =>
      match state.calls[call]? with
      | some (.terminateSignal index) => some (state.setCall call (.terminateWait index))
      | _ => none
  | .terminateFails call =>
      match state.calls[call]? with
      | some (.terminateSignal _) => some (state.setCall call .done)
      | _ => none
  | .terminateEnds call =>
      match state.calls[call]? with
      | some (.terminateWait index) =>
          if state.hasExited index then some ((state.discard index).setCall call .done) else none
      | _ => none
  | .terminateTimeout call =>
      match state.calls[call]? with
      | some (.terminateWait index) => some (state.handleKill windows call index .terminate)
      | _ => none
  | .terminateCancelled call =>
      match state.calls[call]? with
      | some (.terminateWait index) => some ((state.discard index).setCall call .done)
      | _ => none
  | .terminateSync index outcome =>
      match state.processes[index]? with
      | some process =>
          if process.synchronous then
            match outcome with
            | .exited => if process.exited.isSome then some (state.discard index) else none
            | .timedOut =>
                some ((if process.exited.isSome then state else state.signal index).discard index)
            | .failed => some (state.discard index)
          else none
      | none => none
  | .kill index throughHandle =>
      match state.processes[index]? with
      | some process =>
          if process.synchronous then none
          else if process.exited.isSome then
            some (if throughHandle then state else state.discard index)
          else
            some ((state.addCall .done).beginKill windows state.calls.length index .kill)
      | none => none
  | .killSync index =>
      match state.processes[index]? with
      | some process =>
          if process.synchronous then
            some ((if process.exited.isSome then state else state.signal index).discard index)
          else none
      | none => none
  | .signalSent call =>
      match state.calls[call]? with
      | some (.killSignal index context) =>
          some ((state.signal index).setCall call (.killWait index context))
      | _ => none
  | .signalFails call cancelled =>
      match state.calls[call]? with
      | some (.killSignal index context) =>
          some (match context with
            | .run =>
                if cancelled then state.handleKill windows call index .runFinal
                else state.leaveKill windows call index .runFinal
            | other => state.leaveKill windows call index other)
      | _ => none
  | .killEnds call =>
      match state.calls[call]? with
      | some (.killWait index context) =>
          some ((state.discard index).leaveKill windows call index context)
      | _ => none
  | .close =>
      if state.closed then some { state with closeReturned := true }
      else
        some { state with
          closed := true
          calls := state.calls ++ .closing :: state.heldIndices.map .killBegin }
  | .killBegins call =>
      match state.calls[call]? with
      | some (.killBegin index) => some (state.handleKill windows call index .close)
      | _ => none
  | .closeEnds call =>
      match state.calls[call]? with
      | some .closing =>
          if state.calls.any isCloseKill then none
          else
            some { state with
              processes := state.processes.map clearHandle
              calls := state.calls.set call .done
              closeReturned := true }
      | _ => none
  | .closeCancelled call =>
      match state.calls[call]? with
      | some .closing =>
          some { state with calls := (state.calls.set call .done).map dropKill }
      | _ => none
  | .exit index status =>
      match state.processes[index]? with
      | some process =>
          if process.exited.isSome then none
          else some (state.modify index fun process => { process with exited := some status })
      | none => none

end ServiceState

def processService (windows : Bool) : StepSystem ServiceState ServiceAction :=
  ⟨ServiceState.step windows⟩

end Ftre.Processes
