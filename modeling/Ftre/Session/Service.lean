import Ftre.Lib.StepSystem
import Ftre.Session.Derive
import Ftre.Session.Log

/-!
The stored session and the service in front of it, for one session.
-/

namespace Ftre.Session

open Lib Message

inductive RequestStatus where
  | pending
  | running
  | completed
  | failed
deriving DecidableEq, Repr

/-- What the index holds of a request; a field that was never written is none. -/
structure RequestRecord where
  messageId : Option String
  runId : Option String
  status : Option RequestStatus
  fingerprint : Option String
deriving DecidableEq

namespace RequestRecord

def blank : RequestRecord := ⟨none, none, none, none⟩

end RequestRecord

abbrev RequestIndex := KeyedTable String RequestRecord

/-- One event in `_request_index_from_events`. -/
def indexEvent (index : RequestIndex) (event : Event) : RequestIndex :=
  match event.data with
  | .userMessage content _ requestId =>
      if requestId = "" then index
      else
        index.setDefault requestId ⟨some (event.messageId.getD ""), some "", some .pending,
          some (requestFingerprint content)⟩
  | .turnStart data =>
      if data.requestId = "" then index
      else
        let record := (index.find? data.requestId).getD .blank
        index.set data.requestId { record with runId := some data.turnId, status := some .running }
  | .turnEnd data =>
      if data.requestId = "" then index
      else
        let record := (index.find? data.requestId).getD .blank
        let status := if data.outcome = "completed" then .completed else .failed
        index.set data.requestId { record with status := some status }
  | _ => index

def requestIndexFromEvents (events : List Event) : RequestIndex := events.foldl indexEvent .empty

def requestOf (message : Msg) : String := strOr (message.metadata.find? "request_id") none

def dumpFingerprint (message : Msg) : String :=
  requestFingerprint (message.content.map ContentBlock.modelDump)

def indexMessage (index : RequestIndex) (message : Msg) : RequestIndex :=
  if requestOf message = "" then index
  else
    let record := (index.find? (requestOf message)).getD
      ⟨some message.id, some "", some .pending, none⟩
    index.set (requestOf message) { record with
      messageId := some (record.messageId.getD message.id)
      fingerprint := some (record.fingerprint.getD (dumpFingerprint message)) }

/-! ### Stored and loaded sessions -/

structure SessionMeta where
  seq : Int
  messages : MessageTable
  requests : RequestIndex
deriving DecidableEq

structure LiveSession where
  log : SessionLog
  baseline : MessageTable
deriving DecidableEq

/-- What a checkpoint captures before it waits. -/
structure Checkpoint where
  events : List Event
  seq : Int
  baseline : MessageTable
deriving DecidableEq

namespace Checkpoint

def messages (checkpoint : Checkpoint) : MessageTable :=
  mergeMessages checkpoint.baseline (deriveMessages checkpoint.events)

def requests (checkpoint : Checkpoint) : RequestIndex :=
  checkpoint.messages.items.foldl indexMessage (requestIndexFromEvents checkpoint.events)

def commit (checkpoint : Checkpoint) (stored : SessionMeta) : SessionMeta :=
  if stored.seq > checkpoint.seq then stored
  else
    { seq := checkpoint.seq
      messages := checkpoint.messages
      requests := stored.requests.update checkpoint.requests }

end Checkpoint

structure ServiceState where
  sessionId : String
  stored : SessionMeta
  live : Option LiveSession
  checkpoint : Option Checkpoint
deriving DecidableEq

namespace ServiceState

def opened (sessionId : String) (stored : SessionMeta) : ServiceState :=
  ⟨sessionId, stored, none, none⟩

def created (sessionId : String) : ServiceState := opened sessionId ⟨-1, .empty, .empty⟩

/-- `log`: the live session, loaded from what is stored at the first use. -/
def liveSession (state : ServiceState) : LiveSession :=
  match state.live with
  | some live => live
  | none => ⟨.start state.sessionId (state.stored.seq + 1), state.stored.messages⟩

def load (state : ServiceState) : ServiceState := { state with live := some state.liveSession }

def withLog (state : ServiceState) (log : SessionLog) : ServiceState :=
  { state with live := some { state.liveSession with log := log } }

def baselineMessages (state : ServiceState) : List Msg :=
  match state.live with
  | some live => live.baseline.items
  | none => []

def hasPersistedRequest (state : ServiceState) (requestId : String) : Bool :=
  decide (requestId ≠ "") &&
    (state.stored.requests.contains requestId ||
      state.baselineMessages.any fun message => decide (requestOf message = requestId))

/-- `_validate_persisted_request`: false is the `ValueError` of other content. -/
def validatePersistedRequest (state : ServiceState) (requestId : String) (content : List Json) :
    Bool :=
  if requestId = "" then true
  else
    let byMessage :=
      match state.baselineMessages.find? fun message => decide (requestOf message = requestId) with
      | some message => decide (dumpFingerprint message = requestFingerprint content)
      | none => true
    match (state.stored.requests.find? requestId).bind RequestRecord.fingerprint with
    | some fingerprint =>
        if fingerprint = "" then byMessage else decide (fingerprint = requestFingerprint content)
    | none => byMessage

/-- `append_user_message_if_absent`, with the state it leaves. -/
def appendUserMessageIfAbsent (state : ServiceState) (time : Int) (generated requestId : String)
    (content : List Json) (metadata : KeyedTable String Json) :
    SessionLog.AppendOutcome × ServiceState :=
  if ¬ state.validatePersistedRequest requestId content then (.conflict, state)
  else if state.hasPersistedRequest requestId then (.skipped, state)
  else
    let loaded := state.load
    if ¬ loaded.validatePersistedRequest requestId content then (.conflict, loaded)
    else if loaded.hasPersistedRequest requestId then (.skipped, loaded)
    else
      let (outcome, log) :=
        state.liveSession.log.appendUserMessage time generated requestId content metadata
      (outcome, state.withLog log)

/-- `append_event`: none is the error of the log, which leaves it unchanged. -/
def appendEvent (state : ServiceState) (time : Int) (data : EventData)
    (messageId : Option String) : ServiceState :=
  match state.liveSession.log.append time data messageId with
  | some (_, log) => state.withLog log
  | none => state.load

def requestState (state : ServiceState) (requestId : String) : Option RequestStatus :=
  let ended :=
    match state.liveSession.log.requestState requestId with
    | some .completed => some .completed
    | some .failed => some .failed
    | none => none
  match (state.stored.requests.find? requestId).bind RequestRecord.status with
  | some .completed => some .completed
  | some .failed => some .failed
  | some .running => some .running
  | _ => ended

/-- Whether `run_input` takes a request for one it has not executed. -/
def executes (state : ServiceState) (requestId : String) : Bool :=
  decide (requestId = "") || (state.requestState requestId).isNone

inductive Action where
  | load
  | append (time : Int) (data : EventData) (messageId : Option String)
  | appendUser (time : Int) (generated requestId : String) (content : List Json)
      (metadata : KeyedTable String Json)
  | capture
  | commit
  | checkpointFails
  | restart
deriving DecidableEq

def step (state : ServiceState) : Action → Option ServiceState
  | .load => some state.load
  | .append time data messageId => some (state.appendEvent time data messageId)
  | .appendUser time generated requestId content metadata =>
      some (state.appendUserMessageIfAbsent time generated requestId content metadata).2
  | .capture =>
      match state.live, state.checkpoint with
      | some live, none =>
          some { state with checkpoint := some ⟨live.log.events, live.log.seq, live.baseline⟩ }
      | _, _ => none
  | .commit =>
      state.checkpoint.map fun checkpoint =>
        { state with stored := checkpoint.commit state.stored, checkpoint := none }
  | .checkpointFails => state.checkpoint.map fun _ => { state with checkpoint := none }
  | .restart => some (opened state.sessionId state.stored)

def system : StepSystem ServiceState Action := ⟨step⟩

theorem step_capture {state next : ServiceState} (stepped : state.step .capture = some next) :
    ∃ live, state.live = some live ∧ state.checkpoint = none ∧
      next = { state with checkpoint := some ⟨live.log.events, live.log.seq, live.baseline⟩ } := by
  dsimp only [step] at stepped
  split at stepped
  · rename_i live loaded idle
    cases stepped
    exact ⟨live, loaded, idle, rfl⟩
  · cases stepped

/-! ### What an append leaves -/

@[simp] theorem liveSession_load (state : ServiceState) :
    state.load.liveSession = state.liveSession := rfl

@[simp] theorem liveSession_withLog (state : ServiceState) (log : SessionLog) :
    (state.withLog log).liveSession = { state.liveSession with log := log } := rfl

theorem liveSession_of_live {state : ServiceState} {live : LiveSession}
    (loaded : state.live = some live) : state.liveSession = live := by
  unfold liveSession
  rw [loaded]

theorem load_of_live {state : ServiceState} {live : LiveSession} (loaded : state.live = some live) :
    state.load = state := by
  unfold load liveSession
  rw [loaded]
  cases state
  subst loaded
  rfl

theorem appendEvent_cases (state : ServiceState) (time : Int) (data : EventData)
    (messageId : Option String) :
    (state.liveSession.log.allowed data = false ∧
      state.appendEvent time data messageId = state.load) ∨
      ∃ event : Event, event.data = data ∧ state.liveSession.log.allowed event.data = true ∧
        state.appendEvent time data messageId =
          state.withLog (state.liveSession.log.push event) := by
  unfold appendEvent SessionLog.append
  by_cases allowed : state.liveSession.log.allowed data = true
  · right
    refine ⟨state.liveSession.log.stamp time data messageId, rfl, allowed, ?_⟩
    simp only [allowed, if_true]
  · left
    refine ⟨by simpa using allowed, ?_⟩
    simp only [if_neg allowed]

theorem appendUser_cases (state : ServiceState) (time : Int) (generated requestId : String)
    (content : List Json) (metadata : KeyedTable String Json) :
    (state.appendUserMessageIfAbsent time generated requestId content metadata).2 = state ∨
      (state.appendUserMessageIfAbsent time generated requestId content metadata).2 = state.load ∨
      ∃ event : Event, event.data = .userMessage content metadata requestId ∧
        state.liveSession.log.allowed event.data = true ∧
        (state.appendUserMessageIfAbsent time generated requestId content metadata).2 =
          state.withLog (state.liveSession.log.push event) := by
  unfold appendUserMessageIfAbsent
  by_cases valid : ¬ state.validatePersistedRequest requestId content
  · left
    rw [if_pos valid]
  rw [if_neg valid]
  by_cases persisted : state.hasPersistedRequest requestId
  · left
    rw [if_pos persisted]
  rw [if_neg persisted]
  right
  by_cases stillValid : ¬ state.load.validatePersistedRequest requestId content
  · left
    simp only [if_pos stillValid]
  by_cases nowPersisted : state.load.hasPersistedRequest requestId
  · left
    simp only [if_neg stillValid, if_pos nowPersisted]
  simp only [if_neg stillValid, if_neg nowPersisted]
  unfold SessionLog.appendUserMessage SessionLog.append
  by_cases known : requestId ≠ "" ∧ state.liveSession.log.userRequests.contains requestId
  · left
    rw [if_pos known]
    split <;> rfl
  · rw [if_neg known]
    by_cases allowed : state.liveSession.log.allowed (.userMessage content metadata requestId) = true
    · right
      refine ⟨state.liveSession.log.stamp time (.userMessage content metadata requestId)
        (some (if requestId = "" then generated
          else state.liveSession.log.requestMessageId requestId)), rfl, allowed, ?_⟩
      simp only [allowed, if_true]
    · left
      simp only [if_neg allowed]
      rfl

theorem appendUser_appended {state next : ServiceState} {time : Int} {generated requestId : String}
    {content : List Json} {metadata : KeyedTable String Json} {event : Event}
    (appended : state.appendUserMessageIfAbsent time generated requestId content metadata =
      (.appended event, next)) :
    state.load.hasPersistedRequest requestId = false ∧
      ¬ (requestId ≠ "" ∧ state.liveSession.log.userRequests.contains requestId) ∧
      event.seq = state.liveSession.log.nextSeq ∧
      event.data = .userMessage content metadata requestId ∧
      next = state.withLog (state.liveSession.log.push event) := by
  unfold appendUserMessageIfAbsent at appended
  split at appended
  · cases appended
  split at appended
  · cases appended
  dsimp only at appended
  split at appended
  · cases appended
  split at appended
  · cases appended
  rename_i missing
  refine ⟨by simpa using missing, ?_⟩
  unfold SessionLog.appendUserMessage SessionLog.append at appended
  by_cases known : requestId ≠ "" ∧ state.liveSession.log.userRequests.contains requestId
  · rw [if_pos known] at appended
    split at appended <;> cases appended
  · rw [if_neg known] at appended
    by_cases allowed : state.liveSession.log.allowed (.userMessage content metadata requestId) = true
    · simp only [if_pos allowed] at appended
      cases appended
      exact ⟨known, rfl, rfl, rfl⟩
    · simp only [if_neg allowed] at appended
      cases appended

theorem appendUser_unchanged {state next : ServiceState} {time : Int} {generated requestId : String}
    {content : List Json} {metadata : KeyedTable String Json} {outcome : SessionLog.AppendOutcome}
    (called : state.appendUserMessageIfAbsent time generated requestId content metadata =
      (outcome, next)) (nothing : ∀ event, outcome ≠ .appended event) :
    next = state ∨ next = state.load := by
  unfold appendUserMessageIfAbsent at called
  split at called
  · cases called
    exact Or.inl rfl
  split at called
  · cases called
    exact Or.inl rfl
  right
  dsimp only at called
  split at called
  · cases called
    rfl
  split at called
  · cases called
    rfl
  unfold SessionLog.appendUserMessage SessionLog.append at called
  split at called
  · split at called <;> cases called <;> rfl
  · by_cases allowed : state.liveSession.log.allowed (.userMessage content metadata requestId) = true
    · simp only [if_pos allowed] at called
      cases called
      exact absurd rfl (nothing _)
    · simp only [if_neg allowed] at called
      cases called
      rfl

end ServiceState

end Ftre.Session
