import Ftre.Compaction.ContextView
import Ftre.Lib.TaggedText

/-!
The text of a summary: the sections of the LLM's replies, one reply for each chunk, and the
list of user messages, which every compaction reads back from the previous summary and
extends.
-/

namespace Ftre.Compaction

open Lib Message Session

def summarySectionOrder : List String :=
  ["primary_request_and_intent", "key_technical_concepts", "files_and_code_sections",
    "errors_and_fixes", "problem_solving", "all_user_messages", "pending_tasks", "current_work",
    "next_step"]

def llmSummarySectionOrder : List String :=
  summarySectionOrder.filter fun name => name ≠ "all_user_messages"

/-- What a small letter of a pattern matches under `re.IGNORECASE`. -/
def caseVariants (letter : Char) : List Char :=
  [letter, letter.toUpper] ++
    if letter = 's' then ['ſ']
    else if letter = 'k' then [Char.ofNat 0x212A]
    else if letter = 'i' then ['ı', 'İ']
    else []

def tagPattern (tag : String) : List (Char → Bool) :=
  tag.toList.map fun letter found => decide (found ∈ caseVariants letter)

def openTag (name : String) : String := "<" ++ name ++ ">"

def closeTag (name : String) : String := "</" ++ name ++ ">"

/-- `re.search` for a tag pair, with the text between them. -/
def searchSection (name text : String) : Option String :=
  (findBetween (tagPattern (openTag name)) (tagPattern (closeTag name)) text.toList).map
    String.ofList

def hasTag (tag text : String) : Bool := contains (tagPattern tag) text.toList

def fenceToken (text : List Char) : Option (List Char) :=
  (afterPattern (tagPattern "```") text).map fun rest =>
    (afterPattern (tagPattern "xml") rest).getD rest

def analysisToken (text : List Char) : Option (List Char) :=
  (afterPattern (tagPattern (openTag "analysis")) text).bind fun rest =>
    (findPattern (tagPattern (closeTag "analysis")) rest).map Prod.snd

/-- `re.sub` by nothing. -/
def removeTokens (token : List Char → Option (List Char)) (text : String) : String :=
  String.ofList (removeAll token text.length text.toList)

abbrev Sections := List (String × String)

/-- `part.get(section, "").strip()`. -/
def sectionText (part : Sections) (name : String) : String :=
  strip ((part.lookup name).getD "")

def parseChunkSections (raw : String) : Option Sections :=
  let clean := strip (removeTokens analysisToken (strip (removeTokens fenceToken raw)))
  let sections := llmSummarySectionOrder.map fun name =>
    (name, ((searchSection name clean).map strip).getD "")
  if sections.any fun part => part.2 ≠ "" then some sections else none

def sectionValues (summaries : List Sections) (userMessages name : String) : List String :=
  let values :=
    if name = "all_user_messages" then [strip userMessages]
    else summaries.map fun part => sectionText part name
  values.filter fun value => value ≠ ""

def sectionLines (summaries : List Sections) (userMessages name : String) : List String :=
  ["  " ++ openTag name, "\n\n".intercalate (sectionValues summaries userMessages name),
    "  " ++ closeTag name]

def mergeChunkSummaries (summaries : List Sections) (userMessages : String) : Option String :=
  if summaries.any fun part => summarySectionOrder.any fun name => sectionText part name ≠ "" then
    some ("\n".intercalate ("<state_snapshot>" ::
      (summarySectionOrder.flatMap (sectionLines summaries userMessages) ++
        ["</state_snapshot>"])))
  else none

def userText (message : Msg) : Option String :=
  if message.role = .user ∧ message.name = .default ∧
      ((message.metadata.find? "hide").any Json.truthy) = false then
    some (message.getTextContent.getD "")
  else none

def trimmedText (text : String) : Option String :=
  if strip text ≠ "" then some (strip text) else none

def extractUserMessageTexts (messages : List Msg) : List String :=
  (messages.filterMap userText).filterMap trimmedText

def userEntry (index : Nat) (text : String) : String := s!"用户消息 {index}: {text}"

/-- The list a summary carries, when it has one that is not blank. -/
def previousList (previousSummary : Option String) : Option String :=
  (previousSummary.bind (searchSection "all_user_messages")).bind trimmedText

def buildUserMessagesSection (messages : List Msg) (previousSummary : Option String) : String :=
  "\n\n".intercalate ((previousList previousSummary).toList ++
    (extractUserMessageTexts messages).mapIdx fun index text => userEntry (index + 1) text)

def previousSummary (view : List Msg) : Option String :=
  match view with
  | [] => none
  | first :: _ => if first.name = .compact then first.getTextContent else none

/-- `_run_compact_llm`, given the reply to each chunk. -/
def compactSummary (headMessages : List Msg) (previousSummary : Option String)
    (replies : List String) : Option String :=
  (replies.mapM parseChunkSections).bind fun summaries =>
    mergeChunkSummaries summaries (buildUserMessagesSection headMessages previousSummary)

end Ftre.Compaction
