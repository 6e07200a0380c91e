import Mathlib.Data.Finset.Sort
import Ftre.Llm.Events

/-!
The consumer of a chunk stream. `feed` fails on the first protocol violation; `validate` accepts a
finished stream with no block left open.
-/

namespace Ftre.Llm

open Lib

structure OpenBlock where
  index : Nat
  blockType : BlockType
  text : String
  callId : String
  name : String
  arguments : String
deriving DecidableEq

def OpenBlock.start (index : Nat) (blockType : BlockType) : OpenBlock where
  index := index
  blockType := blockType
  text := ""
  callId := ""
  name := ""
  arguments := ""

structure BlockAssembler where
  openBlocks : KeyedTable Nat OpenBlock
  nextIndex : Nat
  blockTable : KeyedTable Nat WireBlock
  usage : Option Usage
  finish : Option FinishReason
  finished : Bool
  pending : Finset Nat
deriving DecidableEq

namespace BlockAssembler

def fresh : BlockAssembler where
  openBlocks := .empty
  nextIndex := 0
  blockTable := .empty
  usage := none
  finish := none
  finished := false
  pending := ∅

instance : Inhabited BlockAssembler := ⟨fresh⟩

def protocolError (message : String) : LLMError where
  message := message
  code := "STREAM_PROTOCOL"

def quoted (text : String) : String := "'" ++ text ++ "'"

def wireType (blockType : BlockType) : String :=
  match blockType with
  | .reasoning => "thinking"
  | other => other.name

def finalizeBlock (block : OpenBlock) : WireBlock :=
  match block.blockType with
  | .text => .text block.text
  | .reasoning => .thinking block.text
  | .toolCall => .toolCall block.callId block.name block.arguments

def requireOpen (asm : BlockAssembler) (index : Nat) : Except LLMError OpenBlock :=
  match asm.openBlocks.find? index with
  | none => .error (protocolError s!"delta/end for unopened or closed block index {index}")
  | some block => .ok block

def feedStart (asm : BlockAssembler) (index : Nat) (blockType : BlockType) :
    Except LLMError BlockAssembler :=
  if index ≠ asm.nextIndex then
    .error (protocolError s!"block-start index {index} != expected {asm.nextIndex}")
  else
    .ok { asm with
      openBlocks := asm.openBlocks.set index (OpenBlock.start index blockType)
      pending := insert index asm.pending
      nextIndex := asm.nextIndex + 1 }

def feedDelta (asm : BlockAssembler) (index : Nat) (expectedType : BlockType) (text : String) :
    Except LLMError BlockAssembler :=
  match asm.requireOpen index with
  | .error error => .error error
  | .ok block =>
      if block.blockType ≠ expectedType then
        .error (protocolError ("delta type " ++ quoted expectedType.name ++
          " does not match open block " ++ quoted block.blockType.name ++ s!" at index {index}"))
      else
        .ok { asm with
          openBlocks := asm.openBlocks.set index { block with text := block.text ++ text } }

def feedToolDelta (asm : BlockAssembler) (index : Nat) (callId name argumentsDelta : String) :
    Except LLMError BlockAssembler :=
  match asm.requireOpen index with
  | .error error => .error error
  | .ok block =>
      if block.blockType ≠ .toolCall then
        .error (protocolError ("tool-call-delta on non tool-call block " ++
          quoted block.blockType.name ++ s!" at index {index}"))
      else
        .ok { asm with
          openBlocks := asm.openBlocks.set index { block with
            callId := if callId ≠ "" then callId else block.callId
            name := if name ≠ "" then name else block.name
            arguments := block.arguments ++ argumentsDelta } }

def mismatchedEnd (block : OpenBlock) : Option WireBlock → Option String
  | none => none
  | some wireBlock =>
      if wireType block.blockType ≠ wireBlock.type then some wireBlock.type else none

def feedEnd (asm : BlockAssembler) (index : Nat) (wireBlock : Option WireBlock) :
    Except LLMError BlockAssembler :=
  match asm.requireOpen index with
  | .error error => .error error
  | .ok block =>
      match mismatchedEnd block wireBlock with
      | some type =>
          .error (protocolError ("block-end type " ++ quoted type ++ " != open block " ++
            quoted block.blockType.name ++ s!" at index {index}"))
      | none =>
          .ok { asm with
            openBlocks := asm.openBlocks.erase index
            pending := asm.pending.erase index
            blockTable := asm.blockTable.set index (finalizeBlock block) }

def feed (asm : BlockAssembler) (chunk : StreamChunk) : Except LLMError BlockAssembler :=
  if asm.finished then
    .error (protocolError ("chunk after finish: " ++ chunk.type))
  else
    match chunk with
    | .blockStart index blockType => asm.feedStart index blockType
    | .textDelta index text => asm.feedDelta index .text text
    | .reasoningDelta index text => asm.feedDelta index .reasoning text
    | .toolCallDelta index callId name argumentsDelta =>
        asm.feedToolDelta index callId name argumentsDelta
    | .blockEnd index block => asm.feedEnd index block
    | .usage usage => .ok { asm with usage := usage }
    | .finish reason => .ok { asm with finish := some reason, finished := true }

def feedAll (asm : BlockAssembler) : List StreamChunk → Except LLMError BlockAssembler
  | [] => .ok asm
  | chunk :: rest =>
      match asm.feed chunk with
      | .error error => .error error
      | .ok next => next.feedAll rest

def validate (asm : BlockAssembler) : Except LLMError Unit :=
  if asm.pending ≠ ∅ then
    .error (protocolError ("unclosed block(s): [" ++
      ", ".intercalate (asm.pending.sort.map toString) ++ "]"))
  else if asm.finished = false then
    .error { message := "stream ended without finish chunk", code := "STREAM_CLOSED" }
  else .ok ()

def blocks (asm : BlockAssembler) : List WireBlock :=
  let result := (asm.blockTable.entries.insertionSort
    fun left right => left.1 ≤ right.1).map Prod.snd
  match asm.finish with
  | some reason =>
      if reason.kind = .maxTokens then result.filter fun block => block.type ≠ "tool-call"
      else result
  | none => result

end BlockAssembler

end Ftre.Llm
