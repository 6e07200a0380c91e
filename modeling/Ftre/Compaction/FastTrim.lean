import Mathlib.Data.List.Dedup
import Mathlib.Data.List.Sort
import Ftre.Compaction.Marks
import Ftre.Session.TokenUsage

/-!
The fast compaction: without a model it marks the tool outputs before the turns it keeps, by the
ids of their calls.
-/

namespace Ftre.Compaction

open Lib Message Session

def legacyTrimmedToolResultPlaceholder : String := "[工具输出已压缩]"

def toolResultText : ToolOutput → String
  | .plain text => text
  | .parts items => "".intercalate (items.filterMap Encoding.outputText?)

def isTrimmedText (text : String) : Bool :=
  decide (text = legacyTrimmedToolResultPlaceholder) ||
    decide (text = trimmedToolResultPlaceholder)

/-- The loop from the end over the messages that open a turn; `rest` are the
messages before the one looked at. -/
def scanTurns (keepTurns : Nat) : List Msg → Nat → Nat → Nat
  | [], _, start => start
  | message :: rest, seenTurns, start =>
      if message.role = .user then
        if keepTurns ≤ seenTurns + 1 then rest.length
        else scanTurns keepTurns rest (seenTurns + 1) rest.length
      else scanTurns keepTurns rest seenTurns start

def protectedStart (keepTurns : Int) (messages : List Msg) : Nat :=
  if 0 < keepTurns then scanTurns keepTurns.toNat messages.reverse 0 messages.length
  else messages.length

def unprotected (keepTurns : Int) (view : List Msg) : List Msg :=
  (headMessages view).take (protectedStart keepTurns (headMessages view))

def isUntrimmed (result : ToolResultBlock) : Bool := !isTrimmedText (toolResultText result.output)

/-- The results a fast compaction of the view trims. -/
def trimmable (keepTurns : Int) (view : List Msg) : List ToolResultBlock :=
  (unprotected keepTurns view).flatMap fun message => (toolResults message).filter isUntrimmed

/-- `sorted(trimmed_ids)`. -/
def trimmableIds (keepTurns : Int) (view : List Msg) : List String :=
  ((trimmable keepTurns view).map ToolResultBlock.id).dedup.insertionSort (· ≤ ·)

def blankBlock (ids : List String) : ContentBlock → ContentBlock
  | .toolResult result =>
      if result.id ∈ ids then .toolResult { result with output := .parts [.text ⟨"", "", "", none⟩] }
      else .toolResult result
  | block => block

def blankMessage (ids : List String) (message : Msg) : Msg :=
  { message with content := message.content.map (blankBlock ids) }

/-- `compress_fast`: the mark it appends, or none where nothing is to trim. -/
def compressFast (history : List Msg) (keepTurns : Int) : Option CompactData :=
  let view := buildContextView history
  let results := trimmable keepTurns view
  if results = [] then none
  else
    let ids := trimmableIds keepTurns view
    let active := headMessages view
    some {
      mode := "fast"
      summaryText := ""
      throughMessageId := ""
      trigger := ""
      tokensBefore := estimateMessagesTokens active
      tokensAfter := estimateMessagesTokens (active.map (blankMessage ids))
      toolResults := results.length
      toolResultIds := ids }

/-- The event that appends the mark. -/
def fastEvent (seq time : Int) (id : String) (data : CompactData) : Event :=
  ⟨seq, time, some id, .compactMessage data⟩

end Ftre.Compaction
