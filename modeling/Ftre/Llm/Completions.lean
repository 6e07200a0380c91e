import Mathlib.Data.List.Sort
import Ftre.Llm.Events

/-!
The chat-completions adapter as a function from what the provider sends to the chunks it yields.
-/

namespace Ftre.Llm

open Lib

structure FunctionDelta where
  name : Option String
  arguments : Option String
deriving DecidableEq, Repr

structure ToolCallDelta where
  index : Option Int
  id : Option String
  function : Option FunctionDelta
deriving DecidableEq, Repr

def ToolCallDelta.callId (delta : ToolCallDelta) : String := delta.id.getD ""

def ToolCallDelta.name (delta : ToolCallDelta) : String :=
  (delta.function.bind FunctionDelta.name).getD ""

def ToolCallDelta.argumentsFragment (delta : ToolCallDelta) : String :=
  (delta.function.bind FunctionDelta.arguments).getD ""

structure ChoiceDelta where
  reasoningContent : Option String
  content : Option String
  toolCalls : List ToolCallDelta
deriving DecidableEq, Repr

structure Choice where
  delta : Option ChoiceDelta
  finishReason : Option String
deriving DecidableEq, Repr

/-- One streamed chunk. `metadata` lists the present response fields among id,
model, created and system_fingerprint, in that order. -/
structure ChatChunk where
  metadata : List (String × Json)
  usage : Option Usage
  choices : List Choice
deriving DecidableEq

/-- A chunk with the value of the cancellation flag when it arrives. -/
structure Arrival where
  cancelled : Bool
  chunk : ChatChunk
deriving DecidableEq

structure ToolEntry where
  id : String
  name : String
  arguments : String
  emittedLength : Nat
deriving DecidableEq, Repr

def ToolEntry.blank : ToolEntry where
  id := ""
  name := ""
  arguments := ""
  emittedLength := 0

structure ToolCallAccumulator where
  items : KeyedTable Int ToolEntry
deriving DecidableEq

structure ToolCallEvent where
  wireIndex : Int
  callId : String
  name : String
  fragment : String
deriving DecidableEq, Repr

namespace ToolEntry

def absorb (entry : ToolEntry) (delta : ToolCallDelta) : ToolEntry where
  id := if delta.callId ≠ "" then delta.callId else entry.id
  name := if delta.name ≠ "" then delta.name else entry.name
  arguments := entry.arguments ++ delta.argumentsFragment
  emittedLength := entry.emittedLength

def hasUnsent (entry : ToolEntry) : Bool :=
  decide (entry.id ≠ "") && decide (entry.arguments.length > entry.emittedLength)

def unsent (entry : ToolEntry) : String :=
  String.ofList (entry.arguments.toList.drop entry.emittedLength)

def markSent (entry : ToolEntry) : ToolEntry :=
  { entry with emittedLength := entry.arguments.length }

end ToolEntry

namespace ToolCallAccumulator

def fresh : ToolCallAccumulator := ⟨.empty⟩

def hasData (accumulator : ToolCallAccumulator) : Bool := !accumulator.items.entries.isEmpty

def wireIndex (accumulator : ToolCallAccumulator) (delta : ToolCallDelta) : Int :=
  delta.index.getD accumulator.items.size

def entryAt (accumulator : ToolCallAccumulator) (index : Int) : ToolEntry :=
  (accumulator.items.find? index).getD .blank

def feed (accumulator : ToolCallAccumulator) (delta : ToolCallDelta) :
    ToolCallAccumulator × Option ToolCallEvent :=
  let index := accumulator.wireIndex delta
  let entry := (accumulator.entryAt index).absorb delta
  if entry.hasUnsent then
    (⟨accumulator.items.set index entry.markSent⟩,
      some ⟨index, entry.id, entry.name, entry.unsent⟩)
  else (⟨accumulator.items.set index entry⟩, none)

def entries (accumulator : ToolCallAccumulator) : List (Int × ToolEntry) :=
  accumulator.items.entries.insertionSort fun left right => left.1 ≤ right.1

end ToolCallAccumulator

/-! ### The streaming loop -/

def fillAlias (usage : Usage) (canonical responsesField : String) : Usage :=
  match usage.contains canonical, usage.find? responsesField with
  | false, some value => usage.set canonical value
  | _, _ => usage

def normalizeUsage (usage : Usage) : Usage :=
  fillAlias (fillAlias usage "prompt_tokens" "input_tokens") "completion_tokens" "output_tokens"

structure StreamState where
  accumulator : ToolCallAccumulator
  usage : Option Usage
  finishReason : String
  responseMetadata : KeyedTable String Json
  reasoningParts : List String
  textParts : List String
  reasoningIndex : Option Nat
  textIndex : Option Nat
  nextIndex : Nat
  toolBlockIndex : KeyedTable Int Nat
  emitted : List StreamChunk
deriving DecidableEq

namespace StreamState

def initial : StreamState where
  accumulator := .fresh
  usage := none
  finishReason := "unknown"
  responseMetadata := .empty
  reasoningParts := []
  textParts := []
  reasoningIndex := none
  textIndex := none
  nextIndex := 0
  toolBlockIndex := .empty
  emitted := []

def yield (state : StreamState) (chunk : StreamChunk) : StreamState :=
  { state with emitted := state.emitted ++ [chunk] }

def openReasoning (state : StreamState) : StreamState :=
  match state.reasoningIndex with
  | some _ => state
  | none =>
      { state with reasoningIndex := some state.nextIndex, nextIndex := state.nextIndex + 1 }.yield
        (.blockStart state.nextIndex .reasoning)

def onReasoning (state : StreamState) (reasoning : String) : StreamState :=
  if reasoning = "" then state
  else
    let opened := state.openReasoning
    { opened with reasoningParts := opened.reasoningParts ++ [reasoning] }.yield
      (.reasoningDelta (opened.reasoningIndex.getD 0) reasoning)

def openText (state : StreamState) : StreamState :=
  match state.textIndex with
  | some _ => state
  | none =>
      { state with textIndex := some state.nextIndex, nextIndex := state.nextIndex + 1 }.yield
        (.blockStart state.nextIndex .text)

def onContent (state : StreamState) (content : String) : StreamState :=
  if content = "" then state
  else
    let opened := state.openText
    { opened with textParts := opened.textParts ++ [content] }.yield
      (.textDelta (opened.textIndex.getD 0) content)

def openTool (state : StreamState) (wireIndex : Int) : StreamState :=
  match state.toolBlockIndex.find? wireIndex with
  | some _ => state
  | none =>
      { state with
        toolBlockIndex := state.toolBlockIndex.set wireIndex state.nextIndex
        nextIndex := state.nextIndex + 1 }.yield (.blockStart state.nextIndex .toolCall)

def onToolCall (state : StreamState) (delta : ToolCallDelta) : StreamState :=
  match state.accumulator.feed delta with
  | (accumulator, none) => { state with accumulator := accumulator }
  | (accumulator, some event) =>
      let opened := { state with accumulator := accumulator }.openTool event.wireIndex
      opened.yield (.toolCallDelta ((opened.toolBlockIndex.find? event.wireIndex).getD 0)
        event.callId event.name event.fragment)

def onFinishReason (state : StreamState) (finishReason : Option String) : StreamState :=
  if finishReason.getD "" = "" then state
  else { state with finishReason := finishReason.getD "" }

def onChoice (state : StreamState) (choice : Choice) : StreamState :=
  let reasoned := state.onReasoning ((choice.delta.bind ChoiceDelta.reasoningContent).getD "")
  let answered := reasoned.onContent ((choice.delta.bind ChoiceDelta.content).getD "")
  let called := ((choice.delta.map ChoiceDelta.toolCalls).getD []).foldl onToolCall answered
  called.onFinishReason choice.finishReason

def onMetadata (state : StreamState) (chunk : ChatChunk) : StreamState :=
  { state with
    responseMetadata := chunk.metadata.foldl
      (fun current field => current.set field.1 field.2) state.responseMetadata }

def onUsage (state : StreamState) (chunk : ChatChunk) : StreamState :=
  match chunk.usage with
  | none => state
  | some usage =>
      if (normalizeUsage usage).entries = [] then state
      else { state with usage := some (normalizeUsage usage) }

def onChunk (state : StreamState) (chunk : ChatChunk) : StreamState :=
  let recorded := (state.onMetadata chunk).onUsage chunk
  match chunk.choices with
  | [] => recorded
  | choice :: _ => recorded.onChoice choice

/-- The `async for`; the cancellation flag breaks out of it. -/
def consume (state : StreamState) : List Arrival → StreamState
  | [] => state
  | arrival :: rest => if arrival.cancelled then state else (state.onChunk arrival.chunk).consume rest

def closeReasoning (state : StreamState) : StreamState :=
  match state.reasoningIndex with
  | none => state
  | some index =>
      state.yield (.blockEnd index (some (.thinking (String.join state.reasoningParts))))

def closeText (state : StreamState) : StreamState :=
  match state.textIndex with
  | none => state
  | some index => state.yield (.blockEnd index (some (.text (String.join state.textParts))))

def closeTools (state : StreamState) : List (Int × ToolEntry) → Except (Int × StreamState) StreamState
  | [] => .ok state
  | (wireIndex, entry) :: rest =>
      if entry.id = "" ∨ entry.name = "" then state.closeTools rest
      else
        match state.toolBlockIndex.find? wireIndex with
        | none => .error (wireIndex, state)
        | some index =>
            (state.yield (.blockEnd index
              (some (.toolCall entry.id entry.name entry.arguments)))).closeTools rest

def yieldUsage (state : StreamState) : StreamState :=
  match state.usage with
  | none => state
  | some usage => state.yield (.usage (some usage))

def finishKind : String → Option FinishKind
  | "stop" => some .stop
  | "tool_calls" => some .toolCalls
  | "length" => some .maxTokens
  | _ => none

def hasOutput (state : StreamState) : Bool :=
  !state.reasoningParts.isEmpty || !state.textParts.isEmpty || state.accumulator.hasData

/-- `str.upper` on the ASCII letters a finish reason is made of. -/
def upper (text : String) : String := text.map Char.toUpper

def finishChunk (state : StreamState) : StreamChunk :=
  match finishKind state.finishReason with
  | some kind => .finish ⟨kind, none, state.finishReason, state.responseMetadata⟩
  | none =>
      if state.hasOutput then
        .finish ⟨.stop, none, state.finishReason, state.responseMetadata⟩
      else
        .finish ⟨.error,
          some ⟨"model stopped: " ++ state.finishReason, upper state.finishReason⟩,
          state.finishReason, state.responseMetadata⟩

def errorFinish (failure : LlmFailure) : StreamChunk :=
  .finish ⟨.error, some failure, "", .empty⟩

def missingKey (key : Int) : LlmFailure where
  message := toString key
  code := "unknown"

def closeAll (state : StreamState) : Except (Int × StreamState) StreamState :=
  let closed := state.closeReasoning.closeText
  closed.closeTools state.accumulator.entries

def conclude (state : StreamState) : List StreamChunk :=
  match state.closeAll with
  | .error (key, stopped) => stopped.emitted ++ [errorFinish (missingKey key)]
  | .ok closed => closed.yieldUsage.emitted ++ [state.finishChunk]

end StreamState

/-- The chunks yielded for a provider response. `failure` is the classified
exception the response raises after its last arrival, if it raises one. -/
def stream (arrivals : List Arrival) (failure : Option LlmFailure) : List StreamChunk :=
  let state := StreamState.initial.consume arrivals
  match failure with
  | some raised =>
      if arrivals.any Arrival.cancelled then state.conclude
      else state.emitted ++ [StreamState.errorFinish raised]
  | none => state.conclude

end Ftre.Llm
