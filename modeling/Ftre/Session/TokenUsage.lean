import Mathlib.Algebra.GroupWithZero.Nat
import Ftre.Encoding.ToOpenai

/-!
Token numbers of a session: the character estimate of messages as they are sent,
and the watermark that starts from the last usage a provider reported.
-/

namespace Ftre.Session

open Lib Message Llm Encoding

def messageOverhead : Nat := 4

def imageTokenFallback : Nat := 85

def isCjk (character : Char) : Bool :=
  let code := character.toNat
  decide (0x4e00 ≤ code ∧ code ≤ 0x9fff) || decide (0x3040 ≤ code ∧ code ≤ 0x30ff) ||
    decide (0xac00 ≤ code ∧ code ≤ 0xd7af) || decide (0x3400 ≤ code ∧ code ≤ 0x4dbf)

def estimateTextTokens (text : String) : Nat :=
  let cjk := text.toList.countP isCjk
  cjk + (text.toList.length - cjk + 3) / 4

def estimatePart (part : Json) : Nat :=
  if hasType part ["text"] then
    match part.get? "text" with
    | some (.str text) => estimateTextTokens text
    | _ => 0
  else if hasType part ["image_url"] then imageTokenFallback
  else 0

def estimateContent : ChatContent → Nat
  | .text text => estimateTextTokens text
  | .parts parts => (parts.map estimatePart).sum
  | .absent => 0
  | .null => 0

def estimateToolCall : ToolCallEntry → Nat
  | .call _ name arguments => estimateTextTokens name + estimateTextTokens arguments
  | .other _ => 0

/-- `_estimate_message(message)`; the encoded messages have no name. -/
def estimateMessage (message : ChatMessage) : Nat :=
  messageOverhead + estimateContent message.content +
    ((message.toolCalls.getD []).map estimateToolCall).sum

def estimateMessagesTokens (messages : List Msg) : Nat :=
  ((toOpenai false messages).map estimateMessage).sum

/-- `token.last_call_usage` of an assistant message. -/
def callUsage (message : Msg) : Option TokenUsage :=
  if message.role = .assistant then message.token.map MsgToken.lastCallUsage else none

/-- `_find_last_call_usage`: the last usage, and the messages behind the one that has it. -/
def findLastCallUsage : List Msg → Option (TokenUsage × List Msg)
  | [] => none
  | message :: rest =>
      match findLastCallUsage rest with
      | some found => some found
      | none => (callUsage message).map fun usage => (usage, rest)

/-- The prompt a usage measured; some gateways report only a total. -/
def promptBase (usage : TokenUsage) : Int :=
  if 0 < usage.promptTokens then usage.promptTokens
  else max 0 (usage.totalTokens - usage.completionTokens)

structure UsageReport where
  lastCallUsage : Option TokenUsage
  pendingEstimated : Nat
  contextTokens : Int
  total : Int
deriving DecidableEq

def computeTokenUsage (messages : List Msg) : UsageReport :=
  match findLastCallUsage messages with
  | none =>
      let pending := estimateMessagesTokens messages
      { lastCallUsage := none
        pendingEstimated := pending
        contextTokens := pending
        total := pending }
  | some (usage, behind) =>
      let pending := estimateMessagesTokens behind
      { lastCallUsage := some usage
        pendingEstimated := pending
        contextTokens := promptBase usage + pending
        total := usage.totalTokens + pending }

end Ftre.Session
