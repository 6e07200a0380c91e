import Mathlib.Data.List.Sort
import Ftre.Lib.KeyedTable
import Ftre.Lib.StepSystem
import Ftre.Session.UserContent

/-!
The command plane: two tables of definitions, and the tasks that submitted commands run in.
-/

namespace Ftre.Commands

open Lib

abbrev Text := List Char

/-- A definition; `object` is its identity. -/
structure CommandDef where
  object : Nat
  command : Text
  system : Bool
  persistInput : Bool
deriving DecidableEq

/-- One call of `register`; the disposer it returned has its number. -/
structure Registration where
  number : Nat
  definition : CommandDef
deriving DecidableEq

structure Registry where
  systemEntries : List Registration
  entries : List Registration
deriving DecidableEq

def longerFirst (left right : Registration) : Bool :=
  decide (right.definition.command.length ≤ left.definition.command.length)

namespace Registry

def empty : Registry := ⟨[], []⟩

def table (registry : Registry) (system : Bool) : List Registration :=
  if system then registry.systemEntries else registry.entries

def withTable (registry : Registry) (system : Bool) (entries : List Registration) : Registry :=
  if system then { registry with systemEntries := entries }
  else { registry with entries := entries }

def all (registry : Registry) : List Registration := registry.systemEntries ++ registry.entries

/-- `register_def`; a name that its table has raises. -/
def registerDef (registry : Registry) (added : Registration) : Option Registry :=
  let entries := registry.table added.definition.system
  if entries.any fun entry => decide (entry.definition.command = added.definition.command) then none
  else some (registry.withTable added.definition.system
    ((entries ++ [added]).mergeSort longerFirst))

def named (command : Text) (entry : Registration) : Bool :=
  decide (entry.definition.command = command)

/-- `unregister`: the first entry of the name goes, the system table is searched first. -/
def unregister (registry : Registry) (command : Text) : Registry :=
  if registry.systemEntries.any (named command) then
    { registry with systemEntries := registry.systemEntries.eraseP (named command) }
  else { registry with entries := registry.entries.eraseP (named command) }

end Registry

def matches? (line : Text) (entry : Registration) : Bool :=
  decide (line = entry.definition.command) || (entry.definition.command ++ [' ']).isPrefixOf line

/-- `_match`. -/
def findMatch (entries : List Registration) (raw : Text) : Option Registration :=
  entries.find? (matches? (Session.stripChars raw))

def argsOf (definition : CommandDef) (raw : Text) : Option Text :=
  let args := Session.stripChars ((Session.stripChars raw).drop definition.command.length)
  if args = [] then none else some args

def textFrom (content : Text) : Option Text :=
  if content.head? = some '/' then some content else none

def Registry.parse (registry : Registry) (content : Text) : Option Registration :=
  (textFrom content).bind fun raw => findMatch registry.all raw

structure CommandResult where
  success : Bool
  text : Text
  sourceEventSeq : Option Int
deriving DecidableEq

/-- How a handler comes to its end. -/
inductive HandlerEnd where
  | returns (value : Option CommandResult)
  | returnsOther
  | returnsUnkind
  | raises (text : Text)

/-- `f"command {command!r}..."`. -/
def commandError (command : Text) (text : String) : Text :=
  ("command " ++ Json.reprString (String.ofList command) ++ text).toList

def normalizeResult (command : Text) : HandlerEnd → Except Text CommandResult
  | .returns none => .ok ⟨true, [], none⟩
  | .returns (some result) =>
      if result.success = false ∧ Session.stripChars result.text = [] then
        .error (commandError command " error text must not be empty")
      else .ok result
  | .returnsOther => .error (commandError command " handler must return CommandResult")
  | .returnsUnkind => .error (commandError command " returned invalid result kind")
  | .raises text => .error text

def failure (text : Text) : CommandResult := ⟨false, "命令执行失败：".toList ++ text, none⟩

/-! ### Tasks -/

inductive CommandEvent where
  | run (commandId name : Text) (args : Option Text)
  | done (commandId : Text) (success : Bool) (text : Text) (sourceEventSeq : Option Int)
deriving DecidableEq

def CommandEvent.commandId : CommandEvent → Text
  | .run commandId _ _ => commandId
  | .done commandId _ _ _ => commandId

/-- What comes of a call of the lifecycle callback. -/
inductive Emission where
  | recorded
  | refused (text : Text)
  | recordedRaising (text : Text)

inductive Outcome where
  | returned (result : CommandResult)
  | raised (text : Text)
  | cancelled
deriving DecidableEq

inductive Phase where
  | created
  | emittingRun
  | handling
  | emittingDone (outcome : Outcome)
  | notifying
  | done
deriving DecidableEq

/-- Whose handler a task has called, or why it called none. -/
inductive Called where
  | notYet
  | handlerOf (definition : CommandDef)
  | cached
  | unrecorded
  /-- The input matches another definition by now, or none. -/
  | mismatched
deriving DecidableEq

structure Task where
  definition : CommandDef
  raw : Text
  requestId : Text
  phase : Phase
  commandId : Text
  called : Called
  answers : List CommandResult
  cancelling : Bool
  cancelled : Bool
  background : Bool
deriving DecidableEq

def Task.created (definition : CommandDef) (raw requestId : Text) : Task where
  definition := definition
  raw := raw
  requestId := requestId
  phase := .created
  commandId := []
  called := .notYet
  answers := []
  cancelling := false
  cancelled := false
  background := true

def Task.answer (task : Task) (result : CommandResult) : Task :=
  { task with
    phase := .notifying
    answers := task.answers ++ [result] }

def Task.cancel (task : Task) : Task :=
  { task with
    phase := .done
    cancelling := false
    cancelled := true }

inductive TaskAction where
  | begin
  | runEmitted (emission : Emission)
  /-- The handler ends; one that is being cancelled may swallow the cancellation. -/
  | handled (ended : HandlerEnd)
  | doneEmitted (emission : Emission)
  | notified
  | interrupt (recorded : Bool)

structure Progress where
  task : Task
  sequence : Nat
  emitted : List CommandEvent
  succeeded : Bool
  recorded : Option CommandResult
  completes : Bool

/-! ### The plane -/

structure CommandPlane where
  registry : Registry
  issued : List CommandDef
  alive : List Nat
  sequence : Nat
  requestResults : KeyedTable Text CommandResult
  tasks : List Task
  inflight : KeyedTable Text Nat
  completed : List Text
  closing : List (List Nat)
  events : List CommandEvent
  successes : List Text

namespace CommandPlane

def fresh : CommandPlane where
  registry := .empty
  issued := []
  alive := []
  sequence := 0
  requestResults := .empty
  tasks := []
  inflight := .empty
  completed := []
  closing := []
  events := []
  successes := []

def generatedId (sequence : Nat) : Text := "command_".toList ++ Nat.toDigits 10 sequence

def quietly (plane : CommandPlane) (task : Task) : Progress where
  task := task
  sequence := plane.sequence
  emitted := []
  succeeded := false
  recorded := none
  completes := false

def answering (plane : CommandPlane) (task : Task) (result : CommandResult) : Progress :=
  { plane.quietly (task.answer result) with completes := result.success }

def begin (plane : CommandPlane) (task : Task) : Progress :=
  match findMatch (plane.registry.table task.definition.system) task.raw with
  | none => plane.quietly { task with phase := .done, called := .mismatched }
  | some current =>
      if current.definition ≠ task.definition then
        plane.quietly ({ task with called := .mismatched }.answer
          (failure "parsed command definition does not match inbound command".toList))
      else
        match if task.requestId = [] then none else plane.requestResults.find? task.requestId with
        | some result => plane.answering { task with called := .cached } result
        | none =>
            { plane.quietly
                { task with
                  phase := .emittingRun
                  commandId := if task.requestId = [] then generatedId (plane.sequence + 1)
                    else task.requestId } with
              sequence := plane.sequence + 1 }

def runEvent (task : Task) : CommandEvent :=
  .run task.commandId task.definition.command
    (if task.definition.persistInput then argsOf task.definition task.raw else none)

def doneEvent (task : Task) : Outcome → CommandEvent
  | .returned result => .done task.commandId result.success result.text result.sourceEventSeq
  | .raised text => .done task.commandId false text none
  | .cancelled => .done task.commandId false "command cancelled".toList none

def runEmitted (plane : CommandPlane) (task : Task) : Emission → Progress
  | .recorded =>
      { plane.quietly { task with phase := .handling, called := .handlerOf task.definition } with
        emitted := [runEvent task] }
  | .refused text => plane.quietly ({ task with called := .unrecorded }.answer (failure text))
  | .recordedRaising text =>
      { plane.quietly ({ task with called := .unrecorded }.answer (failure text)) with
        emitted := [runEvent task] }

def handled (plane : CommandPlane) (task : Task) (ended : HandlerEnd) : Progress :=
  match normalizeResult task.definition.command ended with
  | .ok result =>
      { plane.quietly
          { task with
            phase := .emittingDone (.returned result)
            cancelling := false } with
        succeeded := result.success }
  | .error text =>
      plane.quietly
        { task with
          phase := .emittingDone (.raised text)
          cancelling := false }

def concluded (plane : CommandPlane) (task : Task) : Outcome → Progress
  | .returned result =>
      { plane.answering task result with
        recorded := if result.success then some result else none }
  | .raised text => plane.quietly (task.answer (failure text))
  | .cancelled => plane.quietly task.cancel

def doneEmitted (plane : CommandPlane) (task : Task) (outcome : Outcome) : Emission → Progress
  | .recorded => { plane.concluded task outcome with emitted := [doneEvent task outcome] }
  | .refused text => plane.quietly (task.answer (failure text))
  | .recordedRaising text =>
      { plane.quietly (task.answer (failure text)) with emitted := [doneEvent task outcome] }

def interrupt (plane : CommandPlane) (task : Task) (recorded : Bool) : Option Progress :=
  match task.phase with
  | .created => some (plane.quietly task.cancel)
  | .emittingRun =>
      some { plane.quietly task.cancel with emitted := if recorded then [runEvent task] else [] }
  | .handling =>
      some (plane.quietly
        { task with
          phase := .emittingDone .cancelled
          cancelling := false })
  | .emittingDone outcome =>
      some { plane.quietly task.cancel with
        emitted := if recorded then [doneEvent task outcome] else [] }
  | .notifying => some (plane.quietly task.cancel)
  | .done => none

def advance (plane : CommandPlane) (task : Task) : TaskAction → Option Progress
  | .begin =>
      if task.phase = .created ∧ task.cancelling = false then some (plane.begin task) else none
  | .runEmitted emission =>
      if task.phase = .emittingRun ∧ task.cancelling = false then
        some (plane.runEmitted task emission)
      else none
  | .handled ended => if task.phase = .handling then some (plane.handled task ended) else none
  | .doneEmitted emission =>
      match task.phase with
      | .emittingDone outcome =>
          if task.cancelling then none else some (plane.doneEmitted task outcome emission)
      | _ => none
  | .notified =>
      if task.phase = .notifying ∧ task.cancelling = false then
        some (plane.quietly { task with phase := .done })
      else none
  | .interrupt recorded =>
      if task.cancelling = true ∨ task.phase = .handling then plane.interrupt task recorded
      else none

def apply (plane : CommandPlane) (index : Nat) (progress : Progress) : CommandPlane :=
  let requestId := progress.task.requestId
  { plane with
    tasks := plane.tasks.set index progress.task
    sequence := progress.sequence
    events := plane.events ++ progress.emitted
    successes := if progress.succeeded then plane.successes ++ [requestId] else plane.successes
    requestResults :=
      match progress.recorded with
      | some result =>
          if requestId = [] then plane.requestResults
          else plane.requestResults.set requestId result
      | none => plane.requestResults
    completed :=
      if progress.completes = true ∧ requestId ≠ [] then plane.completed ++ [requestId]
      else plane.completed }

def register (plane : CommandPlane) (definition : CommandDef) : CommandPlane :=
  match plane.registry.registerDef ⟨plane.issued.length, definition⟩ with
  | none => plane
  | some registry =>
      { plane with
        registry := registry
        issued := plane.issued ++ [definition]
        alive := plane.alive ++ [plane.issued.length] }

def dispose (plane : CommandPlane) (number : Nat) : Option CommandPlane :=
  (plane.issued[number]?).map fun definition =>
    { plane with
      registry := plane.registry.unregister definition.command
      alive := plane.alive.erase number }

def submit (plane : CommandPlane) (content requestId : Text) : CommandPlane :=
  match plane.registry.parse content with
  | none => plane
  | some found =>
      if requestId ≠ [] ∧
          ((plane.inflight.find? requestId).isSome ∨ requestId ∈ plane.completed) then
        plane
      else
        { plane with
          tasks := plane.tasks ++ [.created found.definition content requestId]
          inflight :=
            if requestId = [] then plane.inflight
            else plane.inflight.set requestId plane.tasks.length }

def settle (plane : CommandPlane) (index : Nat) : Option CommandPlane :=
  (plane.tasks[index]?).bind fun task =>
    if task.phase = .done then
      some { plane with
        tasks := plane.tasks.set index { task with background := false }
        inflight :=
          if task.requestId ≠ [] ∧ plane.inflight.find? task.requestId = some index then
            plane.inflight.erase task.requestId
          else plane.inflight }
    else none

def cancelled (task : Task) : Task :=
  if task.background = true ∧ task.phase ≠ .done then { task with cancelling := true } else task

/-- `close` up to its await: the background tasks are cancelled. -/
def close (plane : CommandPlane) : CommandPlane :=
  { plane with
    tasks := plane.tasks.map cancelled
    closing := plane.closing ++ [plane.tasks.findIdxs fun task => task.background] }

def closed (plane : CommandPlane) (close : Nat) : Option CommandPlane :=
  (plane.closing[close]?).bind fun waited =>
    if waited.all fun index =>
        (plane.tasks[index]?).all fun task => decide (task.phase = .done) then
      some { plane with
        tasks := plane.tasks.map fun task => { task with background := false }
        closing := plane.closing.eraseIdx close
        inflight := .empty
        completed := [] }
    else none

inductive Action where
  | register (definition : CommandDef)
  | dispose (number : Nat)
  | submit (content requestId : Text)
  | task (index : Nat) (action : TaskAction)
  | settle (index : Nat)
  | close
  | closed (close : Nat)

def step (plane : CommandPlane) : Action → Option CommandPlane
  | .register definition => some (plane.register definition)
  | .dispose number => plane.dispose number
  | .submit content requestId => some (plane.submit content requestId)
  | .task index action =>
      (plane.tasks[index]?).bind fun task =>
        (plane.advance task action).map fun progress => plane.apply index progress
  | .settle index => plane.settle index
  | .close => some plane.close
  | .closed close => plane.closed close

def system : StepSystem CommandPlane Action := ⟨step⟩

end CommandPlane

end Ftre.Commands
