import Ftre.Lib.StepSystem
import Ftre.Agent.RunTraces

/-!
The agent service under any number of interleaved calls.
-/

namespace Ftre.Agent

open Lib

structure Flight where
  entry : Nat
  agentId : String
  request : AgentRunRequest
  reserved : List RunReservation

inductive Call where
  | absent
  | running (flight : Flight)
  | streaming (flight : Flight)
  | cancelling (entry : Nat)
  | confirming (sessionId : String)
  | reporting (left : List Nat) (result : AgentRunResult) (executed : Bool)
  | finished

structure ServiceRuns where
  service : AgentService
  now : Nat
  calls : Nat → Call
  awaiting : Nat → Bool
  overwritten : Bool

inductive ServiceAction where
  | create (agentId : String) (sessionId : Option String)
  | dispose (agentId : String)
  | runBegins (call : Nat) (agentId : String) (request : AgentRunRequest) (active : String → Bool)
  | runEnds (call : Nat) (reply : RunReply)
  | streamBegins (call : Nat) (agentId : String) (request : AgentRunRequest)
      (active : String → Bool)
  | streamEnds (call : Nat) (readToEnd : Bool)
  | abandoned (call : Nat)
  | cancelBegins (call : Nat) (agentId : String)
  | cancelEnds (call : Nat) (found : Bool)
  | confirmBegins (call : Nat) (sessionId : String)
  | confirmEnds (call : Nat) (reply : Option (AgentRunResult × Bool))
  | confirmReports (call : Nat)
  | tryReserve (agentId sessionId requestId : String) (expiresAt : Nat) (active : String → Bool)
  | releaseReservation (reservation : Nat)
  | timePasses (later : Nat)

namespace ServiceRuns

def fresh : ServiceRuns where
  service := .fresh
  now := 0
  calls _ := .absent
  awaiting _ := false
  overwritten := false

def setCall (runs : ServiceRuns) (call : Nat) (stage : Call) : ServiceRuns :=
  { runs with calls := Function.update runs.calls call stage }

@[simp] theorem setCall_calls_self (runs : ServiceRuns) (call : Nat) (stage : Call) :
    (runs.setCall call stage).calls call = stage := Function.update_self ..

@[simp] theorem setCall_service (runs : ServiceRuns) (call : Nat) (stage : Call) :
    (runs.setCall call stage).service = runs.service := rfl

@[simp] theorem setCall_awaiting (runs : ServiceRuns) (call : Nat) (stage : Call) :
    (runs.setCall call stage).awaiting = runs.awaiting := rfl

@[simp] theorem setCall_overwritten (runs : ServiceRuns) (call : Nat) (stage : Call) :
    (runs.setCall call stage).overwritten = runs.overwritten := rfl

def reserved (runs : ServiceRuns) (agentId : String) : List RunReservation :=
  runs.service.reservations.values.filter fun item =>
    decide (runs.now < item.expiresAt) && decide (item.agentId = agentId)

def report (runs : ServiceRuns) (entry : Nat) (result : AgentRunResult) (executed : Bool) :
    ServiceRuns :=
  { runs with
    service := runs.service.setState entry result.state
    awaiting :=
      if executed && !result.paused then Function.update runs.awaiting entry false
      else runs.awaiting
    overwritten := runs.overwritten ||
      (decide (entry ∈ runs.service.entries.values) && !runs.awaiting entry &&
        decide ((runs.service.entryOf entry).state ≠ result.state)) }

def step (runs : ServiceRuns) : ServiceAction → Option ServiceRuns
  | .create agentId sessionId =>
      match runs.service.create agentId sessionId with
      | .ok service => some { runs with service := service }
      | .error _ => some runs
  | .dispose agentId =>
      match runs.service.dispose agentId with
      | .ok service => some { runs with service := service }
      | .error _ => some runs
  | .runBegins call agentId request active =>
      match runs.calls call with
      | .absent =>
          match runs.service.admitRun runs.now active agentId request with
          | (service, .admitted entry) =>
              some ({ runs with service := service }.setCall call
                (.running ⟨entry, agentId, request, runs.reserved agentId⟩))
          | (service, _) => some ({ runs with service := service }.setCall call .finished)
      | _ => none
  | .runEnds call reply =>
      match runs.calls call with
      | .running flight =>
          some ({ runs with
            service := runs.service.settleRun flight.entry flight.agentId flight.request reply
            awaiting :=
              if (reply.recorded flight.request).paused then
                Function.update runs.awaiting flight.entry true
              else runs.awaiting }.setCall call .finished)
      | _ => none
  | .streamBegins call agentId request active =>
      match runs.calls call with
      | .absent =>
          match runs.service.admitStream runs.now active agentId request with
          | (service, .admitted entry) =>
              some ({ runs with service := service }.setCall call
                (.streaming ⟨entry, agentId, request, runs.reserved agentId⟩))
          | (service, _) => some ({ runs with service := service }.setCall call .finished)
      | _ => none
  | .streamEnds call readToEnd =>
      match runs.calls call with
      | .streaming flight =>
          some ({ runs with
            service := runs.service.settleStream flight.entry flight.agentId readToEnd }.setCall
              call .finished)
      | _ => none
  | .abandoned call =>
      match runs.calls call with
      | .running _ => some (runs.setCall call .finished)
      | .streaming _ => some (runs.setCall call .finished)
      | _ => none
  | .cancelBegins call agentId =>
      match runs.calls call with
      | .absent =>
          match runs.service.entries.find? agentId with
          | some entry =>
              some ({ runs with service := runs.service.setState entry .stopping }.setCall call
                (.cancelling entry))
          | none => some (runs.setCall call .finished)
      | _ => none
  | .cancelEnds call found =>
      match runs.calls call with
      | .cancelling entry =>
          some ({ runs with service := runs.service.settleCancel entry found }.setCall call .finished)
      | _ => none
  | .confirmBegins call sessionId =>
      match runs.calls call with
      | .absent => some (runs.setCall call (.confirming sessionId))
      | _ => none
  | .confirmEnds call reply =>
      match runs.calls call with
      | .confirming sessionId =>
          match reply with
          | some (result, executed) =>
              some (runs.setCall call
                (.reporting (runs.service.confirmed sessionId) result executed))
          | none => some (runs.setCall call .finished)
      | _ => none
  | .confirmReports call =>
      match runs.calls call with
      | .reporting (entry :: left) result executed =>
          some ((runs.report entry result executed).setCall call (.reporting left result executed))
      | .reporting [] _ _ => some (runs.setCall call .finished)
      | _ => none
  | .tryReserve agentId sessionId requestId expiresAt active =>
      match runs.service.tryReserve runs.now active agentId sessionId requestId expiresAt with
      | .ok (service, _) => some { runs with service := service }
      | .error _ => some runs
  | .releaseReservation reservation =>
      some { runs with service := runs.service.releaseReservation reservation }
  | .timePasses later => some { runs with now := runs.now + later }

def system : StepSystem ServiceRuns ServiceAction := ⟨step⟩

end ServiceRuns

def Call.flight? : Call → Option Flight
  | .running flight => some flight
  | .streaming flight => some flight
  | _ => none

def RunReservation.requestKey (reservation : RunReservation) : RequestKey :=
  (reservation.sessionId, reservation.requestId)

/-- No check of `stream` stands in the request's way. -/
structure StreamsFreely (service : AgentService) (active : String → Bool) (agentId : String)
    (request : AgentRunRequest) (entry : Nat) : Prop where
  found : service.entries.find? agentId = some entry
  grounded : agentId ∉ service.inflightAdmissions
  inactive : active ((service.entryOf entry).session agentId) = false
  belongs : request.sessionId = (service.entryOf entry).session agentId

/-- The agents left waiting by a paused run are paused and refuse every run, a
confirmation touches no other agent, and a call in flight is the only one of its
agent and was admitted beside no reservation for another request. -/
structure ServiceRuns.Sound (runs : ServiceRuns) : Prop where
  paused : ∀ agentId entry, runs.service.entries.find? agentId = some entry →
    runs.awaiting entry = true → (runs.service.entryOf entry).state = .paused
  refused : ∀ agentId entry, runs.service.entries.find? agentId = some entry →
    runs.awaiting entry = true → ∀ active request admitted,
      (runs.service.admitRun runs.now active agentId request).2 ≠ .admitted admitted
  untouched : runs.overwritten = false
  single : ∀ left right leftFlight rightFlight, (runs.calls left).flight? = some leftFlight →
    (runs.calls right).flight? = some rightFlight → leftFlight.agentId = rightFlight.agentId →
    left = right
  reserved : ∀ call flight, (runs.calls call).flight? = some flight →
    ∀ reservation ∈ flight.reserved, reservation.requestKey = flight.request.requestKey

/-- Nobody runs or streams one request of an agent while another is reserved, or streams or cancels
an agent that waits for a confirmation, and a confirmation reports to an agent that waits only what
a turn that executed left, or that it is paused, and to any other agent the state it has. -/
def ServiceRuns.Respects (runs : ServiceRuns) : ServiceAction → Prop
  | .runBegins _ agentId request active =>
      ∀ entry, ReachesChecks runs.service agentId request entry →
        runs.service.busy active agentId entry = none →
        ∀ reservation ∈ runs.reserved agentId, reservation.requestKey = request.requestKey
  | .streamBegins _ agentId request active =>
      ∀ entry, StreamsFreely runs.service active agentId request entry →
        runs.awaiting entry = false ∧
        ∀ reservation ∈ runs.reserved agentId, reservation.requestKey = request.requestKey
  | .cancelBegins _ agentId =>
      ∀ entry, runs.service.entries.find? agentId = some entry → runs.awaiting entry = false
  | .cancelEnds call _ =>
      match runs.calls call with
      | .cancelling entry => entry ∈ runs.service.entries.values → runs.awaiting entry = false
      | _ => True
  | .confirmReports call =>
      match runs.calls call with
      | .reporting (entry :: _) result executed =>
          entry ∈ runs.service.entries.values →
            if runs.awaiting entry then executed = true ∨ result.state = .paused
            else (runs.service.entryOf entry).state = result.state
      | _ => True
  | _ => True

end Ftre.Agent
