import Ftre.Lib.StepSystem
import Ftre.Runtime.TurnExecution
import Ftre.Session.Derive
import Ftre.Session.Rollback

/-!
The runner of one agent between the yields of its executors, on the session its events are
appended to.
-/

namespace Ftre.Runtime

open Lib Message Session

structure ToolCall where
  id : String
  name : String
  arguments : KeyedTable String Json

/-- What a tool task gives back; `approval` has the reason and the rule that ask. -/
structure ToolOutcome where
  result : String
  error : Option String
  metadata : KeyedTable String Json
  hint : Option String
  approval : Option (String × Option String)

def ToolOutcome.failed (outcome : ToolOutcome) : Bool :=
  match outcome.error with
  | some error => decide (error ≠ "")
  | none => false

namespace MessageContext

def extendReply (messageId : String) (blocks : List ContentBlock) (message : Msg) : Option Msg :=
  if message.role = .assistant ∧ message.id = messageId then
    some { message with content := message.content ++ blocks }
  else none

/-- `append_reply_blocks`: the last assistant of the id, or a new one. -/
def appendReplyBlocks (context : List Msg) (messageId : String) (blocks : List ContentBlock)
    (now : String) : List Msg :=
  if blocks = [] then context
  else
    match changeFirst (extendReply messageId blocks) context.reverse with
    | some extended => extended.reverse
    | none => context ++ [Msg.plain messageId .assistant blocks now]

def setCall (toolCallId : String) (state : ToolCallState) : ContentBlock → Option ContentBlock
  | .toolCall call =>
      if call.id = toolCallId then some (.toolCall { call with state := state }) else none
  | _ => none

def setCallIn (toolCallId : String) (state : ToolCallState) (message : Msg) : Option Msg :=
  (changeFirst (setCall toolCallId state) message.content).map fun content =>
    { message with content := content }

/-- `set_tool_call_state`: the first call of the id in the whole context. -/
def setToolCallState (context : List Msg) (toolCallId : String) (state : ToolCallState) :
    List Msg :=
  (changeFirst (setCallIn toolCallId state) context).getD context

def addToolResult (context : List Msg) (messageId toolCallId name content : String)
    (state : ToolResultState) (metadata : KeyedTable String Json) (now : String) : List Msg :=
  appendReplyBlocks context messageId
    [.toolResult ⟨toolCallId, name, .plain content, state, metadata, now, none⟩] now

def toolCalls (context : List Msg) : List ToolCallBlock :=
  context.flatMap fun message => message.content.filterMap ContentBlock.asToolCall?

def resultIds (context : List Msg) : List String :=
  context.flatMap fun message =>
    message.content.filterMap fun block => block.asToolResult?.map ToolResultBlock.id

/-- `_pending_tool_calls_from_context`. -/
def pendingToolCalls (context : List Msg) : List ToolCallBlock :=
  (toolCalls context).filter fun call => decide (call.id ∉ resultIds context)

end MessageContext

/-! ### The state of a run -/

/-- One provider response while it is streamed. -/
structure Response where
  text : String
  reasoning : String
  textBlockId : Option String
  thinkingBlockId : Option String
  started : List String
  calls : List ToolCall

def Response.empty : Response := ⟨"", "", none, none, [], []⟩

/-- The result of a reasoning step; `failed` is set with an LLM error. -/
structure TurnResult where
  text : String
  toolCalls : List ToolCall
  failed : Bool

/-- What the runner is entered with: the turn's messages, or a confirmation on
the messages read from the session. -/
inductive Entering where
  | messages (inputs : List ContextInput)
  | confirm (toolCallId : String) (approved : Bool) (replyId : String)

inductive RunPhase where
  | idle
  | building
  | retrying (input : Entering)
  | entering (input : Entering)
  | deciding (prev : Option TurnResult)
  | reasoning (hint : Option String)
  | hinting (hint : String)
  | viewing
  | streaming (response : Response)
  | starting (calls unsent : List ToolCall)
  | waiting (calls : List ToolCall)
  | asking (calls : List (ToolCall × String × Option String))
  /-- `saying` has its result in the context and its text in the log. -/
  | recording (calls : List (ToolCall × ToolOutcome)) (saying : Option (ToolCall × ToolOutcome))
      (hints : List String) (cancelled : Bool)
  | denying (calls : List ToolCall)
  | denyingStarted (calls : List ToolCall)
  | denyingSaid (call : ToolCall) (calls : List ToolCall)
  /-- The stop-decision hook is awaited. -/
  | exiting
  | exited
  | closing (finals : List Msg) (emitted : List String)

/-- The runner's turn and the session it appends to. -/
structure Reply where
  fold : FoldState
  nextSeq : Int
  time : Int
  context : List Msg := []
  holdsTask : Bool := false
  replyId : String := ""
  messageId : String := ""
  baseline : KeyedTable String Msg := .empty
  model : String := ""
  turnId : String := ""
  maxIterations : Option Nat := none
  continuationCount : Int := 0
  maxContinuations : Int := 0
  iteration : Nat := 0
  emptyRetries : Nat := 0
  inFinalization : Bool := false
  doneReason : Option ReplyFinishedReason := none
  tokenUsage : TokenUsage := ⟨0, 0, 0⟩
  lastCallUsage : Option TokenUsage := none
  prologue : Option (List ToolCall) := none
  paused : Bool := false
  phase : RunPhase := .idle
  lastMessageId : Option String := none
  ended : Option Bool := none

namespace Reply

open MessageContext

def target (reply : Reply) : String :=
  if reply.messageId = "" then reply.replyId else reply.messageId

def now (reply : Reply) : String := isoFromMs reply.time

def push (reply : Reply) (entry : Appended) : Reply :=
  { reply with
    fold := applyEvent reply.fold ⟨reply.nextSeq, reply.time, entry.messageId, entry.data⟩
    nextSeq := reply.nextSeq + 1 }

def noted (reply : Reply) (entry : Appended) : Reply :=
  match entry.messageId with
  | some id => if id = "" then reply else { reply with lastMessageId := some id }
  | none => reply

theorem noted_eq (reply : Reply) (entry : Appended) :
    reply.noted entry = { reply with lastMessageId := (reply.noted entry).lastMessageId } := by
  unfold noted
  repeat' split
  all_goals rfl

/-! ### Entering -/

def captureBaseline (context : List Msg) : KeyedTable String Msg :=
  (context.filter fun message => decide (message.role = .assistant)).foldl
    (fun table message => table.set message.id message) .empty

def leave (reply : Reply) : Reply := { reply with phase := .exited }

/-- `_finalize`, and the run is left. -/
def finalize (reply : Reply) (reason : ReplyFinishedReason) : Reply :=
  { reply with doneReason := some reason, phase := .exited }

def enterMessages (reply : Reply) (inputs : List ContextInput) (replyId messageId : String) :
    Reply :=
  match (Runner.mk reply.context reply.holdsTask).prepareNewReply (.messages inputs) with
  | .error _ => reply.leave
  | .ok runner =>
      { reply with
        context := runner.context
        holdsTask := runner.holdsTask
        replyId := replyId
        messageId := messageId
        baseline := captureBaseline runner.context
        prologue := none
        iteration := 0
        emptyRetries := 0
        inFinalization := false
        doneReason := none
        tokenUsage := ⟨0, 0, 0⟩
        lastCallUsage := none
        phase := .deciding none }

def expectedState (approved : Bool) : ToolCallState := if approved then .allowed else .finished

/-- `_accept_confirmation`: none where it raises; otherwise the context with the
call's state set. -/
def acceptConfirmation (context : List Msg) (toolCallId : String) (approved : Bool) :
    Option (List Msg) :=
  match (toolCalls context).find? fun call => decide (call.id = toolCallId) with
  | none => none
  | some call =>
      if call.state = .asking then
        some (setToolCallState context toolCallId (expectedState approved))
      else if call.state = expectedState approved then some context
      else none

def ownerOf (context : List Msg) (toolCallId : String) : Option String :=
  (context.find? fun message => decide (toolCallId ∈ message.toolCallIds)).map Msg.id

def ofBlock (call : ToolCallBlock) : ToolCall := ⟨call.id, call.name, call.arguments⟩

def deny (reply : Reply) (calls : List ToolCall) : Reply :=
  match calls with
  | [] => { reply with prologue := none, phase := .deciding none }
  | calls => { reply with prologue := none, phase := .denying calls }

/-- `resume_execute` on the calls that have no result. -/
def resumeExecute (reply : Reply) : Reply :=
  let pending := pendingToolCalls reply.context
  let allowed := (pending.filter fun call => decide (call.state = .allowed)).map ofBlock
  let denied := (pending.filter fun call => decide (call.state ≠ .allowed)).map ofBlock
  match allowed with
  | [] => reply.deny denied
  | allowed => { reply with prologue := some denied, phase := .starting allowed allowed }

def enterConfirm (reply : Reply) (toolCallId : String) (approved : Bool) (replyId : String) :
    Reply :=
  let captured := { reply with baseline := captureBaseline reply.context }
  match acceptConfirmation reply.context toolCallId approved with
  | none => captured.leave
  | some context =>
      let accepted := { captured with
        context := context
        replyId := if replyId = "" then reply.replyId else replyId
        messageId := (ownerOf reply.context toolCallId).getD reply.messageId }
      if (toolCallsInState context .asking).isEmpty then
        { accepted with holdsTask := true }.resumeExecute
      else { accepted with paused := true, phase := .exited }

def enter (reply : Reply) (input : Entering) (replyId messageId : String) : Reply :=
  match input with
  | .messages inputs => reply.enterMessages inputs replyId messageId
  | .confirm toolCallId approved confirmed => reply.enterConfirm toolCallId approved confirmed

def maxEmptyResponseRetries : Nat := 2

def finalizationRetryPrompt : String := "请根据上面的对话，直接给出回复用户的最终内容。"

def reason (reply : Reply) (hint : Option String) : Reply :=
  { reply with iteration := reply.iteration + 1, phase := .reasoning hint }

/-- `decide` and the start of what it decides. -/
def decideNext (reply : Reply) (prev : Option TurnResult) : Reply :=
  match prev with
  | some prev =>
      if prev.failed then reply.finalize .error
      else if prev.toolCalls ≠ [] then
        { reply with phase := .starting prev.toolCalls prev.toolCalls }
      else if strip prev.text ≠ "" then { reply with phase := .exiting }
      else if reply.inFinalization then reply.finalize .error
      else if reply.emptyRetries < maxEmptyResponseRetries then
        { reply with emptyRetries := reply.emptyRetries + 1 }.reason none
      else { reply with inFinalization := true }.reason (some finalizationRetryPrompt)
  | none =>
      match reply.maxIterations with
      | some limit =>
          if limit ≤ reply.iteration then reply.finalize .exceedMaxIters
          else reply.reason none
      | none => reply.reason none

def inputRole : ContextInput → Role
  | .typed message => message.role
  | .raw raw => raw.role

def hintOrView (hint : Option String) : RunPhase :=
  match hint with
  | some hint => if hint = "" then .viewing else .hinting hint
  | none => .viewing

def afterHook (reply : Reply) (hint : Option String) (messages : List ContextInput)
    (freshId : String) : Reply :=
  let context := messages.foldl addRaw reply.context
  let answered := context.any fun message =>
    decide (message.role = .assistant ∧ message.id = reply.messageId)
  let spoken := messages.any fun message => decide (inputRole message = .user)
  { reply with
    context := context
    messageId := if answered && spoken then freshId else reply.messageId
    phase := hintOrView hint }

/-- The blocks of what was streamed. -/
def partialBlocks (reply : Reply) (response : Response) : List ContentBlock :=
  (if response.reasoning = "" then []
    else [.thinking ⟨response.reasoning, "", reply.now, none⟩]) ++
    if response.text = "" then [] else [.text ⟨response.text, "", reply.now, none⟩]

def addBlocks (reply : Reply) (blocks : List ContentBlock) : Reply :=
  { reply with context := appendReplyBlocks reply.context reply.target blocks reply.now }

/-- The calls that a finish reason keeps. -/
def keptCalls (response : Response) (reason : String) : List ToolCall :=
  if reason = "max-tokens" then [] else response.calls

def callBlock (reply : Reply) (call : ToolCall) : ContentBlock :=
  .toolCall ⟨call.id, call.name, call.arguments, .pending, reply.now, none⟩

def addUsage (total : TokenUsage) (usage : TokenUsage) : TokenUsage where
  promptTokens := total.promptTokens + usage.promptTokens
  completionTokens := total.completionTokens + usage.completionTokens
  totalTokens := total.totalTokens + usage.totalTokens

/-- A response is complete: its blocks enter the context. -/
def complete (reply : Reply) (response : Response) (reason : String) (usage : Option TokenUsage) :
    Reply :=
  let calls := keptCalls response reason
  { reply.addBlocks (reply.partialBlocks response ++ calls.map reply.callBlock) with
    tokenUsage := (usage.map (addUsage reply.tokenUsage)).getD reply.tokenUsage
    lastCallUsage := usage.or reply.lastCallUsage
    phase := .deciding (some ⟨response.text, calls, false⟩) }

def afterBatch (reply : Reply) (cancelled : Bool) : Reply :=
  match reply.prologue with
  | none => if cancelled then reply.finalize .interrupted else { reply with phase := .deciding none }
  | some denied => if cancelled then reply.finalize .error else reply.deny denied

def record (reply : Reply) (calls : List (ToolCall × ToolOutcome))
    (saying : Option (ToolCall × ToolOutcome)) (hints : List String) (cancelled : Bool) : Reply :=
  match calls, saying, hints with
  | [], none, [] => reply.afterBatch cancelled
  | calls, saying, hints => { reply with phase := .recording calls saying hints cancelled }

def gather (reply : Reply) (results : List (ToolCall × ToolOutcome)) (cancelled : Bool) : Reply :=
  match results.filterMap fun (call, outcome) => outcome.approval.map fun asked => (call, asked) with
  | [] => reply.record results none [] cancelled
  | asks => { reply with phase := .asking asks }

def recordResult (reply : Reply) (call : ToolCall) (outcome : ToolOutcome) : Reply :=
  { reply with
    context := addToolResult (setToolCallState reply.context call.id .finished) reply.target
      call.id call.name
      (if outcome.result = "" then "[" ++ call.name ++ "] 已完成" else outcome.result)
      (if outcome.failed then .error else .success) outcome.metadata reply.now }

def resultEvent (call : ToolCall) (text state : String) (metadata : KeyedTable String Json) :
    EventData :=
  .toolResult call.id call.name [.text ⟨text, "", "", none⟩] state metadata

def resultOf (call : ToolCall) (outcome : ToolOutcome) : EventData :=
  resultEvent call outcome.result (if outcome.failed then "error" else "success")
    outcome.metadata

def resultChunk (call : ToolCall) (text : String) : EventData :=
  .assistantChunk "tool_result_text" text none (some call.id)

def deniedText (call : ToolCall) : String := "[USER_DENIED] 用户拒绝了工具 [" ++ call.name ++ "] 的执行"

def denyCall (reply : Reply) (call : ToolCall) : Reply :=
  { reply with
    context := setToolCallState
      (addToolResult reply.context reply.target call.id call.name (deniedText call) .denied .empty
        reply.now) call.id .finished }

/-! ### Yields -/

/-- What the runner yields next, where the phase leaves a choice. -/
inductive Yield where
  | text (delta blockId : String)
  | thinking (delta blockId : String)
  | callStart (call : ToolCall)
  | retry (code message : String) (attempt maxAttempts : Int)
  | next
  | goOn (prompt : String)

def hintEntry (reply : Reply) (hint source : String) : Appended :=
  ⟨some reply.target, .hintMessage (.str hint) (some source)⟩

def addHint (reply : Reply) (hint source : String) : Reply :=
  reply.addBlocks [.hint ⟨.str hint, some source, "", reply.now, some reply.now⟩]

def advance (reply : Reply) (item : Yield) : Option (Reply × Appended) :=
  match reply.phase, item with
  | .streaming response, .text delta blockId =>
      let id := response.textBlockId.getD blockId
      some ({ reply with phase := .streaming { response with
          text := response.text ++ delta
          textBlockId := some id } },
        ⟨some reply.target, .assistantChunk "text" delta (some id) none⟩)
  | .streaming response, .thinking delta blockId =>
      let id := response.thinkingBlockId.getD blockId
      some ({ reply with phase := .streaming { response with
          reasoning := response.reasoning ++ delta
          thinkingBlockId := some id } },
        ⟨some reply.target, .assistantChunk "thinking" delta (some id) none⟩)
  | .streaming response, .callStart call =>
      if call.id ∈ response.started then none
      else
        some ({ reply with phase := .streaming { response with
            started := response.started ++ [call.id]
            calls := response.calls ++ [call] } },
          ⟨some reply.target, .toolCallStart call.id call.name call.arguments⟩)
  | .streaming _, .retry code message attempt maxAttempts =>
      some ({ reply with phase := .streaming .empty },
        ⟨none, .turnRetry reply.turnId code message attempt maxAttempts⟩)
  | .hinting hint, .next =>
      some ({ reply.addHint hint "system" with phase := .viewing }, reply.hintEntry hint "system")
  | .starting calls (call :: rest), .next =>
      some ({ reply with phase := if rest.isEmpty then .waiting calls else .starting calls rest },
        ⟨some reply.target, .toolResultStart call.id call.name⟩)
  | .asking ((call, reason, rule) :: rest), .next =>
      let asked := { reply with context := setToolCallState reply.context call.id .asking }
      some (if rest.isEmpty then
          match reply.prologue with
          | none => { asked with paused := true, phase := .exited }
          | some denied => asked.deny denied
        else { asked with phase := .asking rest },
        ⟨some reply.target, .approvalAsked call.id call.name call.arguments reason rule⟩)
  | .recording ((call, outcome) :: rest) none hints cancelled, .next =>
      let recorded := reply.recordResult call outcome
      if outcome.result = "" then
        some (recorded.record rest none (hints ++ outcome.hint.toList) cancelled,
          ⟨some reply.target, resultOf call outcome⟩)
      else
        some (recorded.record rest (some (call, outcome)) hints cancelled,
          ⟨some reply.target, resultChunk call outcome.result⟩)
  | .recording rest (some (call, outcome)) hints cancelled, .next =>
      some (reply.record rest none (hints ++ outcome.hint.toList) cancelled,
        ⟨some reply.target, resultOf call outcome⟩)
  | .recording [] none (hint :: hints) cancelled, .next =>
      some ((reply.addHint hint "tool").record [] none hints cancelled,
        reply.hintEntry hint "tool")
  | .denying (call :: rest), .next =>
      some ({ reply with phase := .denyingStarted (call :: rest) },
        ⟨some reply.target, .toolResultStart call.id call.name⟩)
  | .denyingStarted (call :: rest), .next =>
      some ({ reply.denyCall call with phase := .denyingSaid call rest },
        ⟨some reply.target, resultChunk call (deniedText call)⟩)
  | .denyingSaid call rest, .next =>
      some (reply.deny rest,
        ⟨some reply.target, resultEvent call (deniedText call) "denied" .empty⟩)
  | .exiting, .goOn prompt =>
      if reply.continuationCount < reply.maxContinuations then
        some ({ reply.addHint prompt "system" with
            continuationCount := reply.continuationCount + 1
            phase := .deciding none },
          reply.hintEntry prompt "system")
      else none
  | _, _ => none

def finalPayload (reply : Reply) (message : Msg) : Msg :=
  { message with
    metadata :=
      if reply.model = "" then message.metadata else message.metadata.set "model" (.str reply.model)
    finishedAt := some (message.finishedAt.getD reply.now)
    finishedReason := message.finishedReason.or (reply.doneReason.map ReplyFinishedReason.value)
    token :=
      if message.id = reply.messageId then
        (reply.lastCallUsage.map fun last => ⟨reply.tokenUsage, last⟩).or message.token
      else message.token }

def changed (reply : Reply) (message : Msg) : Bool :=
  decide (message.role = .assistant) && !message.content.isEmpty &&
    decide (reply.baseline.find? message.id ≠ some message)

/-- `build_final_assistant_events`. -/
def finals (reply : Reply) : List Msg :=
  (reply.context.filter reply.changed).map reply.finalPayload

def closeNext (reply : Reply) (payload : Msg) (rest : List Msg) (emitted : List String) : Reply :=
  let entry : Appended := ⟨some payload.id, .assistantMessage payload⟩
  if payload.id = "" then { reply with phase := .closing rest emitted }.push entry
  else if payload.id ∈ emitted then { reply with phase := .closing rest emitted }
  else ({ reply with phase := .closing rest (payload.id :: emitted) }.noted entry).push entry

/-! ### Steps -/

inductive Action where
  | begin (turnId model : String) (maxIterations : Option Nat) (maxContinuations : Int)
  | built (input : Entering) (context : List Msg)
  | buildFails
  | enter (replyId messageId : String)
  | decides
  | hookAnswers (messages : List ContextInput) (freshId : String)
  | viewBuilt
  | yields (item : Yield)
  | cut (item : Yield)
  | textBlockEnds
  | thinkingBlockEnds
  | callRepeated (call : ToolCall)
  | responseEnds (reason : String) (usage : Option TokenUsage)
  | responseFails
  | responseCancelled
  | toolsDone (outcomes : List ToolOutcome) (cancelled : Bool)
  | stops
  | interrupted
  | raised
  /-- The turn's recovery is accepted; `view` are the messages it read, if any. -/
  | recovers (view : List Msg) (input : Entering)
  | retryAppended (code message : String) (attempt maxAttempts : Int)
  | retryLost
  | closes
  | finalAppended
  | finalRaises
  | turnEnds (data : TurnEndData)
  | endLost
  | appended (entry : Appended)
  | tick (time : Int)

def isForeign : EventData → Bool
  | .userMessage _ _ _ => true
  | .compactMessage _ => true
  | .sessionStatus _ _ => true
  | .turnStart _ => true
  | _ => false

def awaits : RunPhase → Bool
  | .reasoning _ => true
  | .viewing => true
  | .streaming _ => true
  | .waiting _ => true
  | .exiting => true
  | _ => false

def begin (reply : Reply) (turnId model : String) (maxIterations : Option Nat)
    (maxContinuations : Int) : Reply where
  fold := reply.fold
  nextSeq := reply.nextSeq
  time := reply.time
  model := model
  turnId := turnId
  maxIterations := maxIterations
  maxContinuations := maxContinuations
  phase := .building

def fail (reply : Reply) (response : Response) : Reply :=
  { reply.addBlocks (reply.partialBlocks response) with phase := .deciding (some ⟨"", [], true⟩) }

def mayRecover (reply : Reply) : Bool :=
  !reply.paused && match reply.doneReason with
    | none => true
    | some .error => true
    | some _ => false

def recover (reply : Reply) (view : List Msg) (input : Entering) : Reply :=
  { reply with
    context := if view = [] then reply.context else view
    phase := .retrying input }

def step (reply : Reply) : Action → Option Reply
  | .begin turnId model maxIterations maxContinuations =>
      match reply.phase with
      | .idle => some (reply.begin turnId model maxIterations maxContinuations)
      | _ => none
  | .built input context =>
      match reply.phase with
      | .building => some { reply with context := context, phase := .entering input }
      | _ => none
  | .buildFails =>
      match reply.phase with
      | .building => some { reply with phase := .closing [] [] }
      | _ => none
  | .enter replyId messageId =>
      match reply.phase with
      | .entering input => some (reply.enter input replyId messageId)
      | _ => none
  | .decides =>
      match reply.phase with
      | .deciding prev => some (reply.decideNext prev)
      | _ => none
  | .hookAnswers messages freshId =>
      match reply.phase with
      | .reasoning hint => some (reply.afterHook hint messages freshId)
      | _ => none
  | .viewBuilt =>
      match reply.phase with
      | .viewing => some { reply with phase := .streaming .empty }
      | _ => none
  | .yields item => (reply.advance item).map fun (next, entry) => (next.noted entry).push entry
  | .cut item =>
      (reply.advance item).map fun (next, entry) =>
        { next.noted entry with paused := reply.paused, phase := .exited }
  | .textBlockEnds =>
      match reply.phase with
      | .streaming response =>
          some { reply with phase := .streaming { response with textBlockId := none } }
      | _ => none
  | .thinkingBlockEnds =>
      match reply.phase with
      | .streaming response =>
          some { reply with phase := .streaming { response with thinkingBlockId := none } }
      | _ => none
  | .callRepeated call =>
      match reply.phase with
      | .streaming response =>
          if call.id ∈ response.started then
            some { reply with
              phase := .streaming { response with calls := response.calls ++ [call] } }
          else none
      | _ => none
  | .responseEnds reason usage =>
      match reply.phase with
      | .streaming response => some (reply.complete response reason usage)
      | _ => none
  | .responseFails =>
      match reply.phase with
      | .streaming response => some (reply.fail response)
      | _ => none
  | .responseCancelled =>
      match reply.phase with
      | .streaming response =>
          some ((reply.addBlocks (reply.partialBlocks response)).finalize .interrupted)
      | _ => none
  | .toolsDone outcomes cancelled =>
      match reply.phase with
      | .waiting calls =>
          if outcomes.length = calls.length then some (reply.gather (calls.zip outcomes) cancelled)
          else none
      | _ => none
  | .stops =>
      match reply.phase with
      | .exiting => some (reply.finalize .completed)
      | _ => none
  | .interrupted => if awaits reply.phase then some (reply.finalize .interrupted) else none
  | .raised => if awaits reply.phase then some (reply.finalize .error) else none
  | .recovers view input =>
      match reply.phase with
      | .exited => if reply.mayRecover then some (reply.recover view input) else none
      | _ => none
  | .retryAppended code message attempt maxAttempts =>
      match reply.phase with
      | .retrying input =>
          some ({ reply with phase := .entering input }.push
            ⟨none, .turnRetry reply.turnId code message attempt maxAttempts⟩)
      | _ => none
  | .retryLost =>
      match reply.phase with
      | .retrying _ => some reply.leave
      | _ => none
  | .closes =>
      match reply.phase with
      | .exited => some { reply with phase := .closing reply.finals [] }
      | _ => none
  | .finalAppended =>
      match reply.phase with
      | .closing (payload :: rest) emitted => some (reply.closeNext payload rest emitted)
      | _ => none
  | .finalRaises =>
      match reply.phase with
      | .closing (payload :: _) emitted =>
          some ({ reply with phase := .closing [] emitted }.noted
            ⟨some payload.id, .assistantMessage payload⟩)
      | _ => none
  | .turnEnds data =>
      match reply.phase with
      | .closing [] _ =>
          some ({ reply with phase := .idle, ended := some reply.paused }.push
            ⟨reply.lastMessageId, .turnEnd data⟩)
      | _ => none
  | .endLost =>
      match reply.phase with
      | .exited => some { reply with phase := .idle, ended := none }
      | .closing _ _ => some { reply with phase := .idle, ended := none }
      | _ => none
  | .appended entry => if isForeign entry.data then some (reply.push entry) else none
  | .tick time => some { reply with time := time }

def system : StepSystem Reply Action := ⟨step⟩

/-- The response goes on without an event. -/
def Action.stays : Action → Bool
  | .textBlockEnds => true
  | .thinkingBlockEnds => true
  | .callRepeated _ => true
  | _ => false

theorem step_stays {reply after : Reply} {action : Action} (stepped : reply.step action = some after)
    (stays : action.stays = true) :
    ∃ response later, reply.phase = .streaming response ∧
      after = { reply with phase := .streaming later } := by
  cases action with
  | textBlockEnds | thinkingBlockEnds =>
      dsimp only [step] at stepped
      split at stepped
      next response shape =>
        cases stepped
        exact ⟨response, _, shape, rfl⟩
      · cases stepped
  | callRepeated call =>
      dsimp only [step] at stepped
      split at stepped
      next response shape =>
        obtain ⟨_, same⟩ := Option.ite_none_right_eq_some.mp stepped
        cases same
        exact ⟨response, _, shape, rfl⟩
      · cases stepped
  | _ => cases stays

/-- A session without events and without a turn. -/
def fresh (time : Int) : Reply where
  fold := .empty
  nextSeq := 0
  time := time

def AllStable (fold : FoldState) : Prop :=
  ∀ message ∈ fold.messages.items, isStableMessage message = true

/-- After the end of a turn that did not pause every message is stable. -/
def StableWhenEnded (reply : Reply) : Prop :=
  reply.phase = .idle → reply.ended = some false → AllStable reply.fold

end Reply

end Ftre.Runtime
