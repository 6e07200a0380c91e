import Ftre.Llm.BlockAssembler
import Ftre.Llm.Completions

/-!
The Responses adapter as a function from the events of the provider to the chunks it yields.
-/

namespace Ftre.Llm.Responses

open Lib

/-- What a function-call item says of its call. -/
structure FunctionCall where
  callId : String
  name : String
  arguments : String
deriving DecidableEq, Repr

/-- An output item. `raw` is its JSON snapshot when that is an object with a
type. -/
structure ResponseItem where
  id : Option String
  type : String
  call : FunctionCall
  raw : Option Json
deriving DecidableEq

def ResponseItem.isFunctionCall (item : ResponseItem) : Bool := decide (item.type = "function_call")

/-- A completed response. `metadata` lists its present fields among id, model
and created_at, in that order. -/
structure CompletedResponse where
  usage : Option Usage
  metadata : List (String × Json)
  status : String
  incomplete : Bool
deriving DecidableEq

/-- The two kinds of prose a delta can carry. -/
inductive Prose where
  | text
  | reasoning
deriving DecidableEq, Repr

/-- Stream events. The three names of a reasoning delta are one event. -/
inductive ResponseEvent where
  | proseDelta (prose : Prose) (itemId : Option String) (delta : Option String)
  | argumentsDelta (itemId : Option String) (delta : Option String)
  | itemAdded (item : ResponseItem)
  | itemDone (item : ResponseItem)
  | completed (response : CompletedResponse)
  | unhandled
deriving DecidableEq

/-- An event with the value of the cancellation flag when it arrives. -/
structure Arrival where
  cancelled : Bool
  event : ResponseEvent
deriving DecidableEq

namespace Prose

def blockType : Prose → BlockType
  | .text => .text
  | .reasoning => .reasoning

def deltaChunk (prose : Prose) (index : Nat) (delta : String) : StreamChunk :=
  match prose with
  | .text => .textDelta index delta
  | .reasoning => .reasoningDelta index delta

def wireBlock (prose : Prose) (text : String) : WireBlock :=
  match prose with
  | .text => .text text
  | .reasoning => .thinking text

end Prose

structure ItemEntry where
  kind : BlockType
  index : Option Nat
  started : Bool
  text : Option String
  callId : String
  name : String
  ended : Bool
deriving DecidableEq, Repr

namespace ItemEntry

/-- The entry `setdefault` stores for a kind; only prose has a text. -/
def fresh (kind : BlockType) : ItemEntry where
  kind := kind
  index := none
  started := false
  text := if kind = .toolCall then none else some ""
  callId := ""
  name := ""
  ended := false

def lateEnd (entry : ItemEntry) : Option (Nat × WireBlock) :=
  if entry.started = true ∧ entry.ended = false then
    match entry.kind with
    | .text => some (entry.index.getD 0, .text (entry.text.getD ""))
    | .reasoning => some (entry.index.getD 0, .thinking (entry.text.getD ""))
    | .toolCall => none
  else none

end ItemEntry

structure StreamState where
  usage : Option Usage
  finishKind : String
  responseMetadata : KeyedTable String Json
  items : KeyedTable (Option String) ItemEntry
  nextIndex : Nat
  emitted : List StreamChunk
deriving DecidableEq

namespace StreamState

def initial : StreamState where
  usage := none
  finishKind := "unknown"
  responseMetadata := .empty
  items := .empty
  nextIndex := 0
  emitted := []

def yield (state : StreamState) (chunk : StreamChunk) : StreamState :=
  { state with emitted := state.emitted ++ [chunk] }

/-! ### The streaming loop -/

def entryAt (state : StreamState) (itemId : Option String) (kind : BlockType) : ItemEntry :=
  (state.items.find? itemId).getD (.fresh kind)

def put (state : StreamState) (itemId : Option String) (entry : ItemEntry) : StreamState :=
  { state with items := state.items.set itemId entry }

def place (state : StreamState) (entry : ItemEntry) : StreamState × ItemEntry :=
  match entry.index with
  | some _ => (state, entry)
  | none =>
      ({ state with nextIndex := state.nextIndex + 1 },
        { entry with index := some state.nextIndex })

def start (state : StreamState) (itemId : Option String) (kind : BlockType) :
    StreamState × ItemEntry :=
  let (placed, entry) := state.place (state.entryAt itemId kind)
  if entry.started then (placed, entry)
  else (placed.yield (.blockStart (entry.index.getD 0) kind), { entry with started := true })

def onProseDelta (state : StreamState) (prose : Prose) (itemId : Option String) (delta : String) :
    Except StreamState StreamState :=
  if delta = "" then .ok state
  else
    let (started, entry) := state.start itemId prose.blockType
    match entry.text with
    | none => .error started
    | some text =>
        .ok ((started.put itemId { entry with text := some (text ++ delta) }).yield
          (prose.deltaChunk (entry.index.getD 0) delta))

def onArgumentsDelta (state : StreamState) (itemId : Option String) (delta : String) :
    StreamState :=
  if delta = "" then state
  else
    let (started, entry) := state.start itemId .toolCall
    (started.put itemId entry).yield
      (.toolCallDelta (entry.index.getD 0) entry.callId entry.name delta)

def onItemAdded (state : StreamState) (item : ResponseItem) : StreamState :=
  if item.isFunctionCall then
    state.put item.id { state.entryAt item.id .toolCall with
      callId := item.call.callId
      name := item.call.name }
  else state

/-- `response_metadata.setdefault("output_items", []).append(raw_item)`. -/
def keepOutputItem (state : StreamState) (item : ResponseItem) : StreamState :=
  match item.raw with
  | none => state
  | some raw =>
      let kept := match state.responseMetadata.find? "output_items" with
        | some (.array items) => items
        | _ => []
      { state with
        responseMetadata := state.responseMetadata.set "output_items" (.array (kept ++ [raw])) }

def onItemDone (state : StreamState) (item : ResponseItem) : StreamState :=
  let kept := state.keepOutputItem item
  if item.isFunctionCall then
    let (started, entry) := kept.start item.id .toolCall
    let ended := (started.put item.id { entry with ended := true }).yield
      (.blockEnd (entry.index.getD 0)
        (some (.toolCall item.call.callId item.call.name item.call.arguments)))
    if (entry.callId ≠ "" ∨ item.call.callId ≠ "") ∧ ended.finishKind = "unknown" then
      { ended with finishKind := "tool-calls" }
    else ended
  else kept

def completedKind (finishKind : String) (response : CompletedResponse) : String :=
  if response.incomplete then "max-tokens"
  else if finishKind = "tool-calls" then finishKind
  else if response.status = "completed" then "stop"
  else finishKind

def onCompleted (state : StreamState) (response : CompletedResponse) : StreamState :=
  { state with
    usage := response.usage.map normalizeUsage
    responseMetadata := response.metadata.foldl
      (fun current field => current.set field.1 field.2) state.responseMetadata
    finishKind := completedKind state.finishKind response }

def onEvent (state : StreamState) : ResponseEvent → Except StreamState StreamState
  | .proseDelta prose itemId delta => state.onProseDelta prose itemId (delta.getD "")
  | .argumentsDelta itemId delta => .ok (state.onArgumentsDelta itemId (delta.getD ""))
  | .itemAdded item => .ok (state.onItemAdded item)
  | .itemDone item => .ok (state.onItemDone item)
  | .completed response => .ok (state.onCompleted response)
  | .unhandled => .ok state

/-- The `async for` over the events up to the first cancelled one. -/
def consume (state : StreamState) : List ResponseEvent → Except StreamState StreamState
  | [] => .ok state
  | event :: rest =>
      match state.onEvent event with
      | .error stopped => .error stopped
      | .ok next => next.consume rest

def lateEnds (state : StreamState) : List (Nat × WireBlock) :=
  state.items.values.filterMap ItemEntry.lateEnd

def yieldUsage (state : StreamState) : List StreamChunk :=
  match state.usage with
  | none => []
  | some usage => [.usage (some usage)]

def finishKind? : String → Option FinishKind
  | "stop" => some .stop
  | "tool-calls" => some .toolCalls
  | "max-tokens" => some .maxTokens
  | _ => none

def finishReason (state : StreamState) : FinishReason :=
  match finishKind? state.finishKind with
  | some kind => ⟨kind, none, state.finishKind, state.responseMetadata⟩
  | none =>
      ⟨.error,
        some ⟨"responses stream ended with status " ++ BlockAssembler.quoted state.finishKind,
          "UNKNOWN_FINISH"⟩,
        state.finishKind, state.responseMetadata⟩

def conclude (state : StreamState) : List StreamChunk :=
  state.emitted ++
    (state.lateEnds.map endChunk ++
      (state.yieldUsage ++ [.finish state.finishReason]))

/-- How the missing `text` of an entry is classified. -/
def missingText : LlmFailure where
  message := BlockAssembler.quoted "text"
  code := "unknown"

end StreamState

/-- The events the loop sees: those before the first one that arrives with the
cancellation flag set. -/
def heard (arrivals : List Arrival) : List ResponseEvent :=
  (arrivals.takeWhile fun arrival => !arrival.cancelled).map Arrival.event

/-- The chunks yielded for a provider response. `failure` is the classified
exception the response raises after its last arrival, if it raises one. -/
def stream (arrivals : List Arrival) (failure : Option LlmFailure) : List StreamChunk :=
  match StreamState.initial.consume (heard arrivals) with
  | .error stopped => stopped.emitted ++ [Llm.StreamState.errorFinish StreamState.missingText]
  | .ok state =>
      match failure with
      | some raised =>
          if arrivals.any Arrival.cancelled then state.conclude
          else state.emitted ++ [Llm.StreamState.errorFinish raised]
      | none => state.conclude

end Ftre.Llm.Responses
