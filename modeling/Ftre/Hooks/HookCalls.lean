import Ftre.Lib.StepSystem

/-!
The calls of one registered hook listener.
-/

namespace Ftre.Hooks

open Lib

inductive HookMode where
  | emit
  | parallel
  | serial
  | bail
  | waterfall
deriving DecidableEq, Repr

inductive CallPhase where
  | running
  | pending
  | awaiting
  | finished
deriving DecidableEq, Repr

/-- A call of the listener, with the flag of its `next_` and the runs of the chain behind. -/
structure ListenerCall where
  phase : CallPhase
  nextCalled : Bool
  chainRuns : Nat
deriving DecidableEq

/-- How far the awaitable of a disposal has come: not awaited, awaiting the disposer of the
events, waiting for `drained`, or through. -/
inductive WaitPhase where
  | created
  | disposing
  | waiting
  | complete
deriving DecidableEq, Repr

/-- The awaitable of a disposal, and how many calls had started before it. -/
structure Disposal where
  phase : WaitPhase
  asynchronous : Bool
  started : Nat
deriving DecidableEq

/-- `_Registration`; `removed` is the flag of the disposer itself. -/
structure Registration where
  mode : HookMode
  once : Bool
  activeCalls : Nat
  drained : Bool
  disposed : Bool
  removed : Bool
  calls : List ListenerCall
  disposal : Option Disposal
deriving DecidableEq

def Registration.fresh (mode : HookMode) (once : Bool) : Registration where
  mode := mode
  once := once
  activeCalls := 0
  drained := true
  disposed := false
  removed := false
  calls := []
  disposal := none

/-- How the listener itself ends: with a value, an exception, a cancellation, or by giving
an awaitable. -/
inductive ListenerOutcome where
  | returned
  | raised
  | cancelled
  | awaitable
deriving DecidableEq, Repr

inductive HookAction where
  /-- The events call the wrapper; `accepted` says that the last argument is callable. -/
  | invoke (accepted : Bool)
  | settle (call : Nat) (outcome : ListenerOutcome)
  | firstStep (call : Nat)
  | drop (call : Nat)
  | finish (call : Nat)
  | next (call : Nat)
  | dispose (asynchronous : Bool)
  | proceed
deriving DecidableEq

namespace Registration

def raiseCount (registration : Registration) : Registration :=
  { registration with
    activeCalls := registration.activeCalls + 1
    drained := if registration.activeCalls + 1 = 1 then false else registration.drained }

def add (registration : Registration) (phase : CallPhase) : Registration :=
  { registration with calls := registration.calls ++ [⟨phase, false, 0⟩] }

def setCall (registration : Registration) (index : Nat) (call : ListenerCall) : Registration :=
  { registration with calls := registration.calls.set index call }

/-- What waits for `drained` goes on when it is set. -/
def wake (disposal : Disposal) : Disposal :=
  if disposal.phase = .waiting then { disposal with phase := .complete } else disposal

def releaseCall (registration : Registration) : Registration :=
  if registration.activeCalls - 1 = 0 then
    { registration with
      activeCalls := 0
      drained := true
      disposal := registration.disposal.map wake }
  else { registration with activeCalls := registration.activeCalls - 1 }

def markOnce (registration : Registration) : Registration :=
  { registration with disposed := registration.disposed || registration.once }

/-- The wait for `drained` begins, which is over at once where it is set. -/
def enterWait (registration : Registration) (disposal : Disposal) : Registration :=
  { registration with
    disposal := some { disposal with
      phase := if registration.drained then .complete else .waiting } }

/-- `dispose`. A second call gives back `False`; one with no call under way gives back what
the disposer of the events does. -/
def dispose (registration : Registration) (asynchronous : Bool) : Registration :=
  if registration.removed then registration
  else
    { registration with
      removed := true
      disposed := true
      disposal :=
        if registration.activeCalls = 0 then none
        else some ⟨.created, asynchronous, registration.calls.length⟩ }

def step (registration : Registration) : HookAction → Option Registration
  | .invoke accepted =>
      -- The guard of a waterfall raises behind the count and in front of the `try`.
      if registration.mode = .waterfall ∧ accepted = false then
        some (registration.raiseCount.add .finished)
      else some (registration.raiseCount.add .running)
  | .settle index outcome =>
      match registration.calls[index]? with
      | none => none
      | some call =>
          if call.phase = .running then
            let ended := registration.setCall index { call with phase := .finished }
            match outcome with
            | .returned => some ended.releaseCall.markOnce
            | .raised => some ended.releaseCall
            | .cancelled => some ended
            | .awaitable => some (registration.setCall index { call with phase := .pending })
          else none
  | .firstStep index =>
      match registration.calls[index]? with
      | none => none
      | some call =>
          if call.phase = .pending then
            some (registration.setCall index { call with phase := .awaiting })
          else none
  | .drop index =>
      match registration.calls[index]? with
      | none => none
      | some call =>
          if call.phase = .pending then
            some (registration.setCall index { call with phase := .finished })
          else none
  | .finish index =>
      match registration.calls[index]? with
      | none => none
      | some call =>
          if call.phase = .awaiting then
            some (registration.setCall index { call with phase := .finished }).releaseCall.markOnce
          else none
  | .next index =>
      match registration.calls[index]? with
      | none => none
      | some call =>
          if registration.mode ≠ .waterfall then none
          -- A second call of `next_` raises and runs nothing.
          else if call.nextCalled then some registration
          else
            some (registration.setCall index
              { call with nextCalled := true, chainRuns := call.chainRuns + 1 })
  | .dispose asynchronous => some (registration.dispose asynchronous)
  | .proceed =>
      match registration.disposal with
      | none => none
      | some disposal =>
          match disposal.phase with
          | .created =>
              if disposal.asynchronous then
                some { registration with disposal := some { disposal with phase := .disposing } }
              else some (registration.enterWait disposal)
          | .disposing => some (registration.enterWait disposal)
          | _ => none

end Registration

def hookCalls : StepSystem Registration HookAction := ⟨Registration.step⟩

end Ftre.Hooks
