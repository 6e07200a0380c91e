import Ftre.Lib.Throwing
import Ftre.Runtime.TurnExecutor
import Ftre.Session.Event

/-!
`TurnExecutor.execute` inside `run_input`: the turn is started, its agent is built and attempted,
and the cleanup appends the final messages and the end of the turn.
-/

namespace Ftre.Runtime

open Lib Message Session

inductive Signal where
  | returns
  | raises
  | cancelled
deriving DecidableEq, Repr

/-- What a coroutine throws: an exception, or the cancellation of its task. -/
inductive Thrown where
  | error
  | cancelled
deriving DecidableEq, Repr

inductive TurnStatus where
  | building
  | running
  | finalizing
  | completed
  | cancelled
  | error
deriving DecidableEq, Repr

inductive RunStatus where
  | idle
  | running
  | paused
  | completed
  | error
  | cancelled
deriving DecidableEq, Repr

inductive ReplyFinishedReason where
  | completed
  | interrupted
  | exceedMaxIters
  | error
deriving DecidableEq, Repr

def ReplyFinishedReason.value : ReplyFinishedReason → String
  | .completed => "completed"
  | .interrupted => "interrupted"
  | .exceedMaxIters => "exceed_max_iters"
  | .error => "error"

/-- The run state of the agent. -/
structure RunState where
  status : RunStatus
  iteration : Nat
  doneReason : Option ReplyFinishedReason
  error : Option String
  errorCode : Option String
  promptTokens : Int
  completionTokens : Int
  totalTokens : Int
deriving DecidableEq, Repr

/-- An event before the log numbers it. -/
structure Appended where
  messageId : Option String
  data : EventData

def isBoundary : EventData → Bool
  | .turnStart _ => true
  | .turnEnd _ => true
  | _ => false

/-- An event of the agent; only the executor makes the boundaries of a turn. -/
structure AgentEvent extends Appended where
  inner : isBoundary data = false

/-- The stable values of `AgentRunResult.status`. -/
inductive PublicStatus where
  | completed
  | cancelled
  | failed
deriving DecidableEq, Repr

structure RunError where
  code : String
  message : String
  retryable : Bool
deriving DecidableEq, Repr

structure AgentRunResult where
  sessionId : String
  turnId : String
  status : PublicStatus
  userMessageId : String
  finalContent : String
  error : Option RunError
  paused : Bool
deriving DecidableEq, Repr

/-- `PUBLIC_RUN_STATUS`, which has the terminal statuses only. -/
def publicRunStatus : TurnStatus → Option PublicStatus
  | .completed => some .completed
  | .cancelled => some .cancelled
  | .error => some .failed
  | _ => none

inductive TurnOutcome where
  | paused
  | cancelled
  | error
  | completed
deriving DecidableEq, Repr

def TurnOutcome.value : TurnOutcome → String
  | .paused => "paused"
  | .cancelled => "cancelled"
  | .error => "error"
  | .completed => "completed"

/-- The input a turn is executed for. -/
structure TurnInput where
  sessionId : String
  turnId : String
  requestId : String
  channelId : String
  source : String
  model : String
  userMessageId : String
  confirms : Bool

/-- How `_build` ends; it may still raise with the agent made. -/
inductive Built where
  | ready (agent : RunState)
  | raises (agent : Option RunState)
  | cancelled

def Built.agent : Built → Option RunState
  | .ready agent => some agent
  | .raises agent => agent
  | .cancelled => none

inductive HookAnswer where
  | answers (request : Option (RetryRequest × String))
  | raises
  | cancelled

structure Recovery where
  hook : HookAnswer
  cancellation : Bool
  refresh : Signal
  retry : Signal

/-- One attempt: the events the agent yields and how each append ends, how the
agent's run ends, the run state it leaves, and the recoveries asked for a run
that ended in an error and for an exception. -/
structure Attempt where
  events : List (AgentEvent × Signal)
  ending : Signal
  state : RunState
  recovery : Recovery
  rescue : Recovery

/-- The final assistant messages of the agent, unless building them raises. -/
structure Finals where
  buildRaises : Bool
  events : List (AgentEvent × Signal)

/-- When the attempts are used up, the turn's task is cancelled. -/
structure Behaviour where
  agentId : String
  resolve : Signal
  start : Signal
  built : Built
  attempts : List Attempt
  finals : Finals
  turnEnd : Signal
  flush : Signal
  /-- The task of `run_input` is cancelled once the turn's task is done. -/
  interrupted : Bool
  complete : Signal
  /-- The completion told by a handler of `run_input`. -/
  completeLate : Signal
  afterRun : Signal

/-! ### The turn -/

/-- The fields of the turn that its execution reads back, and what it appended. -/
structure Execution where
  status : TurnStatus
  paused : Bool
  agent : Option RunState
  retryTokens : List String
  retryCount : Nat
  emittedIds : List String
  lastMessageId : Option String
  finalContent : String
  log : List Appended

abbrev Course (α : Type) := Throwing Execution Thrown α

namespace Execution

open Throwing

def fresh : Execution where
  status := .building
  paused := false
  agent := none
  retryTokens := []
  retryCount := 0
  emittedIds := []
  lastMessageId := none
  finalContent := ""
  log := []

def await : Signal → Course Unit
  | .returns => pure ()
  | .raises => throws .error
  | .cancelled => throws .cancelled

/-- `except Exception` around a step whose failure is only logged. -/
def absorbing (body : Course Unit) : Course Unit :=
  catching body fun
    | .error => pure ()
    | .cancelled => throws .cancelled

/-- `append_session_event`: the await loads the log, then the event is pushed. -/
def append (entry : Appended) (signal : Signal) : Course Unit := do
  await signal
  change fun execution => { execution with log := execution.log ++ [entry] }

def trigger (input : TurnInput) : String :=
  if input.confirms then "confirm"
  else if input.channelId = "cron" then "cron"
  else if input.source = "plugin" then "plugin"
  else if input.source = "system" then "system"
  else "user"

def startOf (input : TurnInput) (agentId : String) : TurnStartData where
  turnId := input.turnId
  requestId := input.requestId
  trigger := trigger input
  commandName := ""
  agentId := agentId
  model := input.model

def appendTurnStarted (input : TurnInput) (behaviour : Behaviour) : Course Unit := do
  await behaviour.resolve
  append ⟨none, .turnStart (startOf input behaviour.agentId)⟩ behaviour.start

/-- `str(value or default)` for a text that may be missing or empty. -/
def orDefault (text : Option String) (default : String) : String :=
  match text with
  | some text => if text = "" then default else text
  | none => default

def usageOf (state : RunState) : Option TurnUsage :=
  if state.totalTokens = 0 then none
  else some ⟨some state.promptTokens, some state.completionTokens, some state.totalTokens⟩

def errorOf (outcome : TurnOutcome) (state : RunState) : Option (KeyedTable String Json) :=
  if outcome = .error then
    some ((KeyedTable.empty.set "code" (.str (orDefault state.errorCode "turn_error"))).set
      "message" (.str (orDefault state.error "Turn 执行失败")))
  else none

def endOf (input : TurnInput) (outcome : TurnOutcome) (reason : String)
    (agent : Option RunState) : TurnEndData where
  turnId := input.turnId
  requestId := input.requestId
  outcome := outcome.value
  reason := reason
  error := agent.bind (errorOf outcome)
  usage := agent.bind usageOf
  iterations := (agent.map fun state => (state.iteration : Int)).getD 0
  metadata := .empty

def appendTurnEnd (input : TurnInput) (outcome : TurnOutcome) (reason : String) (signal : Signal) :
    Course Unit := do
  let execution ← look
  append ⟨execution.lastMessageId, .turnEnd (endOf input outcome reason execution.agent)⟩ signal

def contentAfter (content : String) : EventData → String
  | .assistantMessage message =>
      let texts := message.content.filterMap fun block => block.asText?.map TextBlock.text
      let joined := strip ("".intercalate texts)
      if joined = "" then content else joined
  | _ => content

def idOf (event : AgentEvent) : Option String :=
  event.messageId.bind fun id => if id = "" then none else some id

def appendEvent (event : AgentEvent) (signal : Signal) : Course Unit := do
  change fun execution =>
    { execution with
      lastMessageId := (idOf event).or execution.lastMessageId
      finalContent := contentAfter execution.finalContent event.data }
  append event.toAppended signal

/-! ### Attempts -/

def build : Built → Course TurnStatus
  | .ready agent => do
      change fun execution => { execution with agent := some agent }
      return .running
  | .raises agent => do
      change fun execution => { execution with agent := agent }
      throws .error
  | .cancelled => throws .cancelled

def retryOf (input : TurnInput) (request : RetryRequest) (reason : String) (attempt : Nat) :
    EventData :=
  .turnRetry input.turnId "request_error_recovery" (orDefault (some reason) "Turn 失败，进入恢复重试")
    attempt request.maxAttempts

def requestErrorRecovery (input : TurnInput) (recovery : Recovery) : Course Bool :=
  match recovery.hook with
  | .raises => return false
  | .cancelled => throws .cancelled
  | .answers none => return false
  | .answers (some (request, reason)) => do
      let execution ← look
      if recovery.cancellation then return false
      if request.progressToken ∈ execution.retryTokens then return false
      if request.maxAttempts ≤ execution.retryCount then return false
      change fun execution =>
        { execution with
          retryTokens := execution.retryTokens ++ [request.progressToken]
          retryCount := execution.retryCount + 1 }
      absorbing (await recovery.refresh)
      append ⟨none, retryOf input request reason (execution.retryCount + 1)⟩ recovery.retry
      return true

/-- What `_run` does once the agent's events are all appended. -/
def settleAttempt (input : TurnInput) (attempt : Attempt) : Course TurnStatus :=
  if attempt.state.status = .paused then do
    change fun execution => { execution with paused := true }
    return .finalizing
  else if attempt.state.doneReason.getD .error = .error then do
    if ← requestErrorRecovery input attempt.recovery then return .running
    return .finalizing
  else return .finalizing

/-- The `try` of `_run`: every event of the agent is appended. -/
def consume (input : TurnInput) (attempt : Attempt) : Course TurnStatus := do
  forEach attempt.events fun (event, signal) => appendEvent event signal
  await attempt.ending
  settleAttempt input attempt

/-- `_run`: one attempt, and the status it leaves the turn in. -/
def runAttempt (input : TurnInput) (attempt : Attempt) : Course TurnStatus := do
  change fun execution => { execution with agent := some attempt.state, finalContent := "" }
  catching (consume input attempt) fun
    | .cancelled => return .cancelled
    | .error => do
        if ← requestErrorRecovery input attempt.rescue then return .running
        return .error

def setStatus (status : TurnStatus) : Course Unit :=
  change fun execution => { execution with status := status }

/-- The loop of `_drive` from the first attempt on. -/
def runAttempts (input : TurnInput) : List Attempt → Course Unit
  | [] => throws .cancelled
  | attempt :: rest => do
      let status ← runAttempt input attempt
      setStatus status
      match status with
      | .running => runAttempts input rest
      | .finalizing => setStatus .completed
      | _ => return ()

def work (input : TurnInput) (behaviour : Behaviour) : Course Unit := do
  let status ← build behaviour.built
  setStatus status
  runAttempts input behaviour.attempts

/-- The loop of `_drive` with its handlers. -/
def finishWork (input : TurnInput) (behaviour : Behaviour) : Course Unit :=
  catching (work input behaviour) fun
    | .cancelled => setStatus .cancelled
    | .error => setStatus .error

def outcome (execution : Execution) : TurnOutcome × String :=
  let doneReason := execution.agent.bind RunState.doneReason
  let runStatus := execution.agent.map RunState.status
  if execution.paused then (.paused, "paused")
  else if execution.status = .cancelled ∨ runStatus = some .cancelled then
    (.cancelled, ReplyFinishedReason.interrupted.value)
  else if execution.status = .error ∨
      (doneReason = some .error ∧ runStatus ≠ some .completed) then
    (.error, (doneReason.getD .error).value)
  else (.completed, (doneReason.getD .completed).value)

def appendFinal (event : AgentEvent) (signal : Signal) : Course Unit := do
  let execution ← look
  match idOf event with
  | some id =>
      if id ∈ execution.emittedIds then return ()
      appendEvent event signal
      change fun execution => { execution with emittedIds := id :: execution.emittedIds }
  | none => appendEvent event signal

def appendFinalAssistant (finals : Finals) : Course Unit := do
  let execution ← look
  if execution.agent.isNone then return ()
  if finals.buildRaises then throws .error
  forEach finals.events fun (event, signal) => appendFinal event signal

def resultStatus (outcome : TurnOutcome) (status : TurnStatus) : Option PublicStatus :=
  match outcome with
  | .error => some .failed
  | .cancelled => some .cancelled
  | _ => publicRunStatus status

def report (input : TurnInput) (outcome : TurnOutcome) : Course AgentRunResult := do
  let execution ← look
  match resultStatus outcome execution.status with
  | none => throws .error
  | some status =>
      return {
        sessionId := input.sessionId
        turnId := input.turnId
        status := status
        userMessageId := input.userMessageId
        finalContent := execution.finalContent
        error := if status = .failed then some ⟨"turn_error", "Turn 执行失败", true⟩ else none
        paused := execution.paused }

def drive (input : TurnInput) (behaviour : Behaviour) : Course AgentRunResult := do
  finishWork input behaviour
  let worked ← look
  absorbing (appendFinalAssistant behaviour.finals)
  absorbing (appendTurnEnd input worked.outcome.1 worked.outcome.2 behaviour.turnEnd)
  absorbing (await behaviour.flush)
  report input worked.outcome.1

def execute (input : TurnInput) (behaviour : Behaviour) : Course AgentRunResult := do
  appendTurnStarted input behaviour
  drive input behaviour

/-- A result that `run_input` makes itself. -/
def ownResult (input : TurnInput) (status : PublicStatus) (error : Option RunError) :
    AgentRunResult where
  sessionId := input.sessionId
  turnId := input.turnId
  status := status
  userMessageId := ""
  finalContent := ""
  error := error
  paused := false

def tell (input : TurnInput) (signal : Signal) : Course Unit :=
  if input.requestId = "" then pure () else await signal

/-- The `try` of `run_input` from the creation of the turn's task on. -/
def awaitTurn (input : TurnInput) (behaviour : Behaviour) : Course AgentRunResult := do
  let result ← ensuring (execute input behaviour)
    (if behaviour.interrupted then throws .cancelled else pure ())
  tell input behaviour.complete
  return result

/-- The result of a handler; `message` is what an exception says. -/
def handled (input : TurnInput) (message : String) : Thrown → AgentRunResult
  | .cancelled => ownResult input .cancelled none
  | .error => ownResult input .failed (some ⟨"user-message-persist-failed", message, true⟩)

def answerThrown (input : TurnInput) (behaviour : Behaviour) (message : String) (thrown : Thrown) :
    Course AgentRunResult := do
  tell input behaviour.completeLate
  return handled input message thrown

def runInput (input : TurnInput) (behaviour : Behaviour) (message : String) :
    Course AgentRunResult :=
  ensuring (catching (awaitTurn input behaviour) (answerThrown input behaviour message))
    (absorbing (await behaviour.afterRun))

end Execution

end Ftre.Runtime
