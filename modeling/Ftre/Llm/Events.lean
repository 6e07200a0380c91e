import Ftre.Lib.KeyedTable
import Ftre.Lib.Json

/-!
The chunk vocabulary every adapter speaks and the assembler consumes. Block
kinds and finish kinds are closed enumerations here; the strings they stand for
are `wire` names.
-/

namespace Ftre.Llm

open Lib

structure LLMError where
  message : String
  code : String
deriving DecidableEq, Repr

/-- Failure information carried by an error or aborted finish. -/
structure LlmFailure where
  message : String
  code : String
deriving DecidableEq, Repr

inductive FinishKind where
  | stop
  | toolCalls
  | maxTokens
  | error
  | aborted
deriving DecidableEq, Repr

structure FinishReason where
  kind : FinishKind
  failure : Option LlmFailure
  raw : String
  responseMetadata : KeyedTable String Json
deriving DecidableEq

inductive BlockType where
  | text
  | reasoning
  | toolCall
deriving DecidableEq, Repr

def BlockType.name : BlockType → String
  | .text => "text"
  | .reasoning => "reasoning"
  | .toolCall => "tool-call"

/-- The block a block-end carries, in message vocabulary. -/
inductive WireBlock where
  | text (text : String)
  | thinking (thinking : String)
  | toolCall (id name arguments : String)
deriving DecidableEq, Repr

def WireBlock.type : WireBlock → String
  | .text _ => "text"
  | .thinking _ => "thinking"
  | .toolCall _ _ _ => "tool-call"

abbrev Usage := KeyedTable String Json

/-- The seven chunks. An empty block dictionary on a block-end is `none`. -/
inductive StreamChunk where
  | blockStart (index : Nat) (blockType : BlockType)
  | textDelta (index : Nat) (text : String)
  | reasoningDelta (index : Nat) (text : String)
  | toolCallDelta (index : Nat) (callId name argumentsDelta : String)
  | blockEnd (index : Nat) (block : Option WireBlock)
  | usage (usage : Option Usage)
  | finish (reason : FinishReason)
deriving DecidableEq

namespace StreamChunk

def type : StreamChunk → String
  | .blockStart _ _ => "block-start"
  | .textDelta _ _ => "text-delta"
  | .reasoningDelta _ _ => "reasoning-delta"
  | .toolCallDelta _ _ _ _ => "tool-call-delta"
  | .blockEnd _ _ => "block-end"
  | .usage _ => "usage"
  | .finish _ => "finish"

def isFinish : StreamChunk → Bool
  | .finish _ => true
  | _ => false

def startsBlock (index : Nat) : StreamChunk → Bool
  | .blockStart other _ => decide (other = index)
  | _ => false

def endsBlock (index : Nat) : StreamChunk → Bool
  | .blockEnd other _ => decide (other = index)
  | _ => false

/-- The argument text a chunk contributes to the tool-call block at `index`. -/
def argumentsFor (index : Nat) : StreamChunk → String
  | .toolCallDelta other _ _ argumentsDelta => if other = index then argumentsDelta else ""
  | _ => ""

end StreamChunk

def endChunk (ending : Nat × WireBlock) : StreamChunk := .blockEnd ending.1 (some ending.2)

end Ftre.Llm
