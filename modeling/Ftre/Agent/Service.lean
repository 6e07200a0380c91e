import Ftre.Agent.Contracts

/-!
The tables of the agent service and what its operations do to them between two awaits.
-/

namespace Ftre.Agent

open Lib

/-- `agentId` and `sessionId` are those of the entry's spec. -/
structure AgentEntry where
  agentId : String
  sessionId : Option String
  state : AgentState
  runId : Option String
deriving DecidableEq, Repr

/-- `entry.spec.session_id or agent_id`. -/
def AgentEntry.session (entry : AgentEntry) (agentId : String) : String :=
  match entry.sessionId with
  | some sessionId => if sessionId = "" then agentId else sessionId
  | none => agentId

structure AgentService where
  entries : KeyedTable String Nat
  entryOf : Nat → AgentEntry
  entriesMade : Nat
  reservations : KeyedTable Nat RunReservation
  reservationsMade : Nat
  completedRuns : KeyedTable RequestKey AgentRunResult
  requestFingerprints : KeyedTable RequestKey String
  inflightAdmissions : List String

/-- What `run` found before its first await. -/
inductive Admission where
  | refused (error : AgentServiceError)
  | cached (result : AgentRunResult)
  | admitted (entry : Nat)

/-- How the awaited run of the runtime ends, and whether it executed a turn. -/
inductive RunReply where
  | returned (result : AgentRunResult) (executed : Bool)
  | cancelled
  | raised (message : String)

namespace RunReply

def recorded (request : AgentRunRequest) : RunReply → AgentRunResult
  | .returned result _ => result.withRunId request.requestId
  | .cancelled =>
      { sessionId := request.sessionId
        turnId := request.requestId
        status := .cancelled
        userMessageId := ""
        finalContent := ""
        error := some ⟨"cancelled", "Agent run cancelled", false⟩
        paused := false
        runId := request.requestId }
  | .raised message =>
      { sessionId := request.sessionId
        turnId := request.requestId
        status := .failed
        userMessageId := ""
        finalContent := ""
        error := some ⟨"agent_run_error", message, false⟩
        paused := false
        runId := request.requestId }

def state (request : AgentRunRequest) (reply : RunReply) : AgentState :=
  (reply.recorded request).state

end RunReply

namespace AgentService

def fresh : AgentService where
  entries := .empty
  entryOf _ := ⟨"", none, .idle, none⟩
  entriesMade := 0
  reservations := .empty
  reservationsMade := 0
  completedRuns := .empty
  requestFingerprints := .empty
  inflightAdmissions := []

def setState (service : AgentService) (entry : Nat) (state : AgentState) : AgentService :=
  { service with
    entryOf := Function.update service.entryOf entry
      { service.entryOf entry with state := state } }

def startRun (service : AgentService) (entry : Nat) (requestId : String) : AgentService :=
  { service with
    entryOf := Function.update service.entryOf entry
      { service.entryOf entry with state := .running, runId := some requestId } }

@[simp] theorem setState_entryOf_self (service : AgentService) (entry : Nat) (state : AgentState) :
    (service.setState entry state).entryOf entry =
      { service.entryOf entry with state := state } := Function.update_self ..

@[simp] theorem startRun_entryOf_self (service : AgentService) (entry : Nat)
    (requestId : String) : (service.startRun entry requestId).entryOf entry =
      { service.entryOf entry with state := .running, runId := some requestId } :=
  Function.update_self ..

theorem setState_entryOf_ne (service : AgentService) {entry other : Nat} (state : AgentState)
    (different : other ≠ entry) :
    (service.setState entry state).entryOf other = service.entryOf other :=
  Function.update_of_ne different _ _

theorem startRun_entryOf_ne (service : AgentService) {entry other : Nat} (requestId : String)
    (different : other ≠ entry) :
    (service.startRun entry requestId).entryOf other = service.entryOf other :=
  Function.update_of_ne different _ _

def enterFlight (service : AgentService) (agentId : String) : AgentService :=
  if agentId ∈ service.inflightAdmissions then service
  else { service with inflightAdmissions := agentId :: service.inflightAdmissions }

def leaveFlight (service : AgentService) (agentId : String) : AgentService :=
  { service with
    inflightAdmissions := service.inflightAdmissions.filter fun other => other ≠ agentId }

def expireReservations (service : AgentService) (now : Nat) : AgentService :=
  { service with
    reservations := service.reservations.filter fun _ reservation => now < reservation.expiresAt }

def reservationFor (service : AgentService) (agentId sessionId requestId : String) : Option Nat :=
  (service.reservations.entries.find? fun item => decide (item.2.agentId = agentId) &&
    decide (item.2.sessionId = sessionId) && decide (item.2.requestId = requestId)).map Prod.fst

def consumeReservation (service : AgentService) (agentId sessionId requestId : String) :
    AgentService :=
  match service.reservationFor agentId sessionId requestId with
  | some id => { service with reservations := service.reservations.erase id }
  | none => service

def create (service : AgentService) (agentId : String) (sessionId : Option String) :
    Except AgentServiceError AgentService :=
  if Session.strip agentId = "" then .error (.invalidRunRequest "agent_id must be non-empty")
  else if service.entries.contains agentId then .error (.agentAlreadyExists agentId)
  else
    .ok { service with
      entries := service.entries.set agentId service.entriesMade
      entryOf := Function.update service.entryOf service.entriesMade ⟨agentId, sessionId, .idle, none⟩
      entriesMade := service.entriesMade + 1 }

def dispose (service : AgentService) (agentId : String) : Except AgentServiceError AgentService :=
  match service.entries.find? agentId with
  | none => .error (.agentNotFound agentId)
  | some entry =>
      let session := (service.entryOf entry).session agentId
      .ok { service with
        entries := service.entries.erase agentId
        completedRuns := service.completedRuns.filter fun key _ => key.1 ≠ session
        requestFingerprints := service.requestFingerprints.filter fun key _ =>
          !(decide (key.1 = session) && service.completedRuns.contains key) }

def answered (service : AgentService) (request : AgentRunRequest) : Option Admission :=
  if (service.requestFingerprints.find? request.requestKey).any
      (fun fingerprint => decide (fingerprint ≠ request.requestFingerprint)) then
    some (.refused (.invalidRunRequest "request_id 已绑定不同内容"))
  else (service.completedRuns.find? request.requestKey).map .cached

/-- `setdefault` of the request's fingerprint. -/
def bindFingerprint (service : AgentService) (request : AgentRunRequest) : AgentService :=
  { service with
    requestFingerprints :=
      service.requestFingerprints.setDefault request.requestKey request.requestFingerprint }

def busy (service : AgentService) (active : String → Bool) (agentId : String) (entry : Nat) :
    Option AgentServiceError :=
  if (service.entryOf entry).state = .paused then
    some (.agentBusy ("Agent is awaiting confirmation: " ++ agentId))
  else if agentId ∈ service.inflightAdmissions then some (.agentBusy ("Agent is busy: " ++ agentId))
  else if active ((service.entryOf entry).session agentId) then
    some (.agentBusy ("Agent is busy: " ++ agentId))
  else none

/-- `run` up to its first await. `active` is what the runtime says of a session. -/
def admitRun (service : AgentService) (now : Nat) (active : String → Bool) (agentId : String)
    (request : AgentRunRequest) : AgentService × Admission :=
  match service.entries.find? agentId with
  | none => (service, .refused (.agentNotFound agentId))
  | some entry =>
      if request.sessionId ≠ (service.entryOf entry).session agentId then
        (service, .refused (.invalidRunRequest "request session does not belong to Agent"))
      else
        match service.answered request with
        | some answer => (service, answer)
        | none =>
            let bound := (service.bindFingerprint request).expireReservations now
            match bound.busy active agentId entry with
            | some error => (bound, .refused error)
            | none =>
                (((bound.startRun entry request.requestId).enterFlight agentId).consumeReservation
                  agentId request.sessionId request.requestId, .admitted entry)

/-- `run` from the runtime's answer on. -/
def settleRun (service : AgentService) (entry : Nat) (agentId : String) (request : AgentRunRequest)
    (reply : RunReply) : AgentService :=
  ({ service with
    completedRuns := service.completedRuns.set request.requestKey (reply.recorded request) }.setState
      entry (reply.state request)).leaveFlight agentId

/-- `stream` up to its first await. -/
def admitStream (service : AgentService) (now : Nat) (active : String → Bool) (agentId : String)
    (request : AgentRunRequest) : AgentService × Admission :=
  match service.entries.find? agentId with
  | none => (service, .refused (.agentNotFound agentId))
  | some entry =>
      let current := service.expireReservations now
      if agentId ∈ current.inflightAdmissions then
        (current, .refused (.agentBusy ("Agent is busy: " ++ agentId)))
      else if active ((current.entryOf entry).session agentId) then
        (current, .refused (.agentBusy ("Agent is busy: " ++ agentId)))
      else if request.sessionId ≠ (current.entryOf entry).session agentId then
        (current, .refused (.invalidRunRequest "request session does not belong to Agent"))
      else
        (((current.startRun entry request.requestId).enterFlight agentId).consumeReservation
          agentId request.sessionId request.requestId, .admitted entry)

/-- The end of `stream`. A stream read to its end leaves the agent idle; one left
early does so only when nothing else changed the state. -/
def settleStream (service : AgentService) (entry : Nat) (agentId : String) (readToEnd : Bool) :
    AgentService :=
  if readToEnd || decide ((service.entryOf entry).state = .running) then
    (service.setState entry .idle).leaveFlight agentId
  else service.leaveFlight agentId

/-- `cancel` after the runtime's answer. -/
def settleCancel (service : AgentService) (entry : Nat) (found : Bool) : AgentService :=
  service.setState entry (if found then .cancelled else .idle)

def confirmed (service : AgentService) (sessionId : String) : List Nat :=
  service.entries.values.filter fun entry =>
    decide ((service.entryOf entry).sessionId = some sessionId)

def tryReserve (service : AgentService) (now : Nat) (active : String → Bool)
    (agentId sessionId requestId : String) (expiresAt : Nat) :
    Except AgentServiceError (AgentService × Option Nat) :=
  if Session.strip agentId = "" then .error (.invalidRunRequest "agent_id must be non-empty")
  else if sessionId = "" ∨ requestId = "" then
    .error (.invalidRunRequest "session_id and request_id must be non-empty")
  else
    match service.entries.find? agentId with
    | none => .error (.agentNotFound agentId)
    | some _ =>
        let current := service.expireReservations now
        if agentId ∈ current.inflightAdmissions then .ok (current, none)
        else if active sessionId then .ok (current, none)
        else if current.reservations.values.any fun item => decide (item.agentId = agentId) then
          .ok (current, none)
        else
          .ok ({ current with
            reservations := current.reservations.set current.reservationsMade
              ⟨agentId, sessionId, requestId, expiresAt⟩
            reservationsMade := current.reservationsMade + 1 }, some current.reservationsMade)

def releaseReservation (service : AgentService) (reservation : Nat) : AgentService :=
  { service with reservations := service.reservations.erase reservation }

end AgentService

end Ftre.Agent
