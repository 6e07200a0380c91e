import Ftre.Lib.JsonText
import Ftre.Tools.ToolExecution

/-!
One batch of tool calls: a task for each call, the generator that announces the results, waits for
the tasks and tells what came out, and the consumer that resumes, cancels or closes it.
-/

namespace Ftre.Runtime

open Lib Message Ftre.Tools

/-- A call of the model; the input is absent where its arguments were no JSON. -/
structure BatchCall where
  id : String
  name : String
  input : Option (KeyedTable String Json)

/-- `ToolResult` of the scheduler; `event` has the hint a tool gives back. -/
structure ToolResult where
  callId : String
  name : String
  result : String
  error : Option String
  status : ToolStatus
  metadata : KeyedTable String Json
  event : Option String

/-- What the task of a call goes through; it is interrupted when it is cancelled before its
first step. -/
inductive ToolBehaviour where
  | executed (execution : ToolExecutionResult) (event : Option String)
  | cancelled
  | raised (error : String)
  | interrupted

def present (text : Option String) : Option String := text.filter fun text => decide (text ≠ "")

/-- `run_one`: the result of a task, unless it is interrupted. -/
def runOne (call : BatchCall) : ToolBehaviour → Option ToolResult
  | .interrupted => none
  | behaviour =>
      match call.input with
      | none =>
          some ⟨call.id, call.name, "[PARSE_ERROR] Tool call arguments were malformed JSON.",
            some "malformed JSON arguments", .failed, .empty, none⟩
      | some _ =>
          match behaviour with
          | .executed execution event =>
              match execution.status with
              | .cancelled =>
                  some ⟨call.id, call.name, execution.output, execution.error, .cancelled,
                    execution.metadata, none⟩
              | .failed =>
                  some ⟨call.id, call.name,
                    if execution.output = "" then (present execution.error).getD "Tool failed"
                    else execution.output,
                    execution.error, .failed, execution.metadata, event⟩
              | .completed =>
                  some ⟨call.id, call.name, execution.output, execution.error, .completed,
                    execution.metadata, event⟩
          | .raised error => some ⟨call.id, call.name, error, some error, .failed, .empty, none⟩
          | _ =>
              some ⟨call.id, call.name, "[CANCELLED] Tool execution was cancelled.", none,
                .cancelled, .empty, none⟩

inductive TaskState where
  | running
  | ended (result : Option ToolResult)

structure ShownResult where
  id : String
  name : String
  text : String
  state : ToolResultState
  metadata : KeyedTable String Json

inductive BatchEvent where
  | resultStart (id name : String)
  | approvalAsked (id name : String) (arguments : KeyedTable String Json) (reason ruleId : Json)
  | chunk (id text : String)
  | result (data : ShownResult)
  | hint (text : String)

inductive ContextWrite where
  | callState (id : String) (state : ToolCallState)
  | result (block : ShownResult)
  | hint (text : String)

structure Yielded where
  writes : List ContextWrite
  event : BatchEvent

/-- How a batch ends: told to its end, with the cancellation raised behind it, suspended for
approval, closed at a yield, or cancelled again before the results are taken. -/
inductive BatchEnd where
  | finished
  | cancelled
  | suspended
  | closed
  | abandoned
deriving DecidableEq

inductive BatchPhase where
  | created
  | starting (rest : List BatchCall)
  | waiting
  | telling (rest : List Yielded) (ending : BatchEnd)
  | ended (ending : BatchEnd)

structure Batch where
  calls : List BatchCall
  tasks : List TaskState
  phase : BatchPhase
  events : List BatchEvent
  context : List ContextWrite
  externallyCancelled : Bool

namespace Batch

def fresh (calls : List BatchCall) : Batch where
  calls := calls
  tasks := []
  phase := .created
  events := []
  context := []
  externallyCancelled := false

/-- `tool_tasks`: of calls with one id the task of the last. -/
def taskTable (calls : List BatchCall) : KeyedTable String Nat :=
  .ofList (calls.zipIdx.map fun (call, index) => (call.id, index))

def interruptedResult (call : BatchCall) (externallyCancelled : Bool) : ToolResult :=
  ⟨call.id, call.name, "[INTERRUPTED] Tool execution was interrupted.", none,
    if externallyCancelled then .cancelled else .failed, .empty, none⟩

def lostResult (call : BatchCall) : ToolResult :=
  ⟨call.id, call.name, "[INTERRUPTED] Tool result was lost.", none, .failed, .empty, none⟩

def outcomeAt (batch : Batch) (index : Nat) (call : BatchCall) : Option ToolResult :=
  match batch.tasks[index]? with
  | some (.ended (some result)) => some result
  | some (.ended none) => some (interruptedResult call batch.externallyCancelled)
  | _ => none

def resultOf (batch : Batch) (call : BatchCall) : ToolResult :=
  (((taskTable batch.calls).find? call.id).bind fun index => batch.outcomeAt index call).getD
    (lostResult call)

def gatherResults (batch : Batch) : List ToolResult := batch.calls.map batch.resultOf

def taskEnded (batch : Batch) (index : Nat) : Bool :=
  match batch.tasks[index]? with
  | some (.ended _) => true
  | _ => false

def tasksDone (batch : Batch) : Bool := (taskTable batch.calls).values.all batch.taskEnded

def approvalRequired (result : ToolResult) : Bool :=
  ((result.metadata.find? "approval_required").map Json.truthy).getD false

def askYield (call : BatchCall) (result : ToolResult) : Yielded :=
  ⟨[.callState call.id .asking],
    .approvalAsked call.id call.name (call.input.getD .empty)
      ((result.metadata.find? "reason").getD (.str ""))
      ((result.metadata.find? "rule_id").getD .null)⟩

def resultState (result : ToolResult) : ToolResultState :=
  if (present result.error).isSome then .error else .success

def shown (call : BatchCall) (result : ToolResult) : ShownResult :=
  ⟨call.id, call.name, result.result, resultState result, result.metadata⟩

def recorded (call : BatchCall) (result : ToolResult) : ShownResult :=
  { shown call result with
    text := if result.result = "" then "[" ++ call.name ++ "] 已完成" else result.result }

def recordYields (call : BatchCall) (result : ToolResult) : List Yielded :=
  let writes : List ContextWrite :=
    [.callState call.id .finished, .result (recorded call result)]
  if result.result = "" then [⟨writes, .result (shown call result)⟩]
  else [⟨writes, .chunk call.id result.result⟩, ⟨[], .result (shown call result)⟩]

def hintYield (hint : String) : Yielded := ⟨[.hint hint], .hint hint⟩

def askedCalls (calls : List BatchCall) (results : List ToolResult) :
    List (BatchCall × ToolResult) :=
  (calls.zip results).filter fun (_, result) => approvalRequired result

def tellYields (calls : List BatchCall) (results : List ToolResult) : List Yielded :=
  if askedCalls calls results = [] then
    ((calls.zip results).flatMap fun (call, result) => recordYields call result) ++
      (results.filterMap ToolResult.event).map hintYield
  else (askedCalls calls results).map fun (call, result) => askYield call result

def cancelledBy (externallyCancelled : Bool) (results : List ToolResult) : Bool :=
  externallyCancelled || results.any fun result => decide (result.status = .cancelled)

def endingOf (calls : List BatchCall) (results : List ToolResult) (externallyCancelled : Bool) :
    BatchEnd :=
  if askedCalls calls results = [] then
    if cancelledBy externallyCancelled results then .cancelled else .finished
  else .suspended

def start (call : BatchCall) : BatchEvent := .resultStart call.id call.name

def announce (batch : Batch) : List BatchCall → Batch
  | [] => { batch with phase := .waiting }
  | call :: rest => { batch with phase := .starting rest, events := batch.events ++ [start call] }

def tell (batch : Batch) (ending : BatchEnd) : List Yielded → Batch
  | [] => { batch with phase := .ended ending }
  | yielded :: rest =>
      { batch with
        phase := .telling rest ending
        events := batch.events ++ [yielded.event]
        context := batch.context ++ yielded.writes }

inductive BatchAction where
  /-- The consumer asks for the next event. -/
  | resume
  | taskEnds (index : Nat) (behaviour : ToolBehaviour)
  | cancel
  /-- The tasks waited for are done and their results taken. -/
  | gather
  | abandon
  | close

def step (batch : Batch) : BatchAction → Option Batch
  | .resume =>
      match batch.phase with
      | .created =>
          some (announce { batch with tasks := batch.calls.map fun _ => .running } batch.calls)
      | .starting rest => some (batch.announce rest)
      | .telling rest ending => some (batch.tell ending rest)
      | _ => none
  | .taskEnds index behaviour =>
      match batch.tasks[index]?, batch.calls[index]? with
      | some .running, some call =>
          some { batch with tasks := batch.tasks.set index (.ended (runOne call behaviour)) }
      | _, _ => none
  | .cancel =>
      match batch.phase with
      | .waiting => some { batch with externallyCancelled := true }
      | _ => none
  | .gather =>
      match batch.phase with
      | .waiting =>
          if batch.tasksDone then
            some (batch.tell
              (endingOf batch.calls batch.gatherResults batch.externallyCancelled)
              (tellYields batch.calls batch.gatherResults))
          else none
      | _ => none
  | .abandon =>
      match batch.phase with
      | .waiting =>
          if batch.externallyCancelled && batch.tasksDone then
            some { batch with phase := .ended .abandoned }
          else none
      | _ => none
  | .close =>
      match batch.phase with
      | .waiting => none
      | .ended _ => none
      | _ => some { batch with phase := .ended .closed }

end Batch

def toolBatches : StepSystem Batch Batch.BatchAction := ⟨Batch.step⟩

end Ftre.Runtime
