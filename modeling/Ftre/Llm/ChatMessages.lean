import Ftre.Session.UserContent

/-!
The chat messages both provider adapters receive, and their normalisation: the
scan keeps a group of tool calls with its results, or unties it.
-/

namespace Ftre.Llm

open Lib

inductive ChatContent where
  | absent
  | null
  | text (value : String)
  | parts (items : List Json)
deriving DecidableEq

/-- One element of tool_calls; an id that is no string counts as none. -/
inductive ToolCallEntry where
  | call (id : Option String) (name arguments : String)
  | other (value : Json)
deriving DecidableEq

/-- A message without a role has the empty one. -/
structure ChatMessage where
  role : String
  content : ChatContent
  toolCalls : Option (List ToolCallEntry)
  toolCallId : Option String
  reasoningContent : Option String
  responsesOutputItems : Option Json
  responseMetadata : Option Json
  responsesOutputItemGroups : Option Json
deriving DecidableEq

namespace ChatContent

/-- `bool(content)`. -/
def truthy : ChatContent → Bool
  | .absent => false
  | .null => false
  | .text value => decide (value ≠ "")
  | .parts items => !items.isEmpty

def isEmpty : ChatContent → Bool
  | .absent => true
  | .null => true
  | .text value => decide (Session.strip value = "")
  | .parts items => items.isEmpty

end ChatContent

def ToolCallEntry.callId? : ToolCallEntry → Option String
  | .call (some id) _ _ => if id = "" then none else some id
  | _ => none

namespace ChatMessage

def plain (role : String) (content : ChatContent) : ChatMessage where
  role := role
  content := content
  toolCalls := none
  toolCallId := none
  reasoningContent := none
  responsesOutputItems := none
  responseMetadata := none
  responsesOutputItemGroups := none

/-- `message.get("tool_calls") or []`. -/
def calls (message : ChatMessage) : List ToolCallEntry := message.toolCalls.getD []

def isTool (message : ChatMessage) : Bool := decide (message.role = "tool")

def isAssistant (message : ChatMessage) : Bool := decide (message.role = "assistant")

def normalizeAssistantContent (message : ChatMessage) : ChatMessage :=
  if message.content.isEmpty then { message with content := .text "" } else message

def hasAssistantPayload (preserveReasoningOnly : Bool) (message : ChatMessage) : Bool :=
  message.content.truthy ||
    (preserveReasoningOnly && decide (message.reasoningContent.getD "" ≠ ""))

/-- `message.pop("tool_calls", None)`. -/
def popToolCalls (message : ChatMessage) : ChatMessage := { message with toolCalls := none }

end ChatMessage

def validCallIds (calls : List ToolCallEntry) : Option (List String) :=
  match calls.mapM ToolCallEntry.callId? with
  | some ids => if ids.Nodup then some ids else none
  | none => none

def completePair (calls : List ToolCallEntry) (following : List ChatMessage) : Bool :=
  match validCallIds calls with
  | some ids =>
      decide (following.length = ids.length) &&
        following.all (fun result => result.toolCallId.any (fun id => decide (id ∈ ids))) &&
        ids.all (fun id => following.any (fun result => decide (result.toolCallId = some id)))
  | none => false

/-- `[message]` when it says something, nothing otherwise. -/
def keepPayload (preserveReasoningOnly : Bool) (message : ChatMessage) : List ChatMessage :=
  if message.hasAssistantPayload preserveReasoningOnly then [message] else []

/-- The scan over what is left of the list; the next `skip` messages are results
that went out with their calls. -/
def scan (preserveReasoningOnly : Bool) : Nat → List ChatMessage → List ChatMessage
  | _, [] => []
  | skip + 1, _ :: rest => scan preserveReasoningOnly skip rest
  | 0, message :: rest =>
      if message.isTool then scan preserveReasoningOnly 0 rest
      else if message.isAssistant then
        let current := message.normalizeAssistantContent
        if current.calls = [] then
          keepPayload preserveReasoningOnly current ++ scan preserveReasoningOnly 0 rest
        else
          let following := rest.takeWhile ChatMessage.isTool
          if completePair current.calls following then
            current :: (following ++ scan preserveReasoningOnly following.length rest)
          else
            keepPayload preserveReasoningOnly current.popToolCalls ++
              scan preserveReasoningOnly 0 rest
      else message :: scan preserveReasoningOnly 0 rest

example : scan false 0 [] = [] := by simp [scan]

def normalizeChatMessages (preserveReasoningOnly : Bool) (messages : List ChatMessage) :
    List ChatMessage :=
  scan preserveReasoningOnly 0 messages

/-! ### The scan case by case -/

variable (preserveReasoningOnly : Bool)

@[simp] theorem normalize_nil : normalizeChatMessages preserveReasoningOnly [] = [] := rfl

private theorem scan_skip (skip : Nat) (messages : List ChatMessage) :
    scan preserveReasoningOnly skip messages =
      normalizeChatMessages preserveReasoningOnly (messages.drop skip) := by
  induction messages generalizing skip with
  | nil => simp [scan]
  | cons message rest ih =>
      cases skip with
      | zero => rfl
      | succ skip =>
          rw [scan, ih skip]
          rfl

variable {message : ChatMessage}

theorem normalize_tool (rest : List ChatMessage) (tool : message.isTool = true) :
    normalizeChatMessages preserveReasoningOnly (message :: rest) =
      normalizeChatMessages preserveReasoningOnly rest := by
  rw [normalizeChatMessages, scan, if_pos tool]
  rfl

theorem normalize_skipTools (messages : List ChatMessage) :
    normalizeChatMessages preserveReasoningOnly (messages.dropWhile ChatMessage.isTool) =
      normalizeChatMessages preserveReasoningOnly messages := by
  induction messages with
  | nil => rfl
  | cons message rest ih =>
      by_cases tool : message.isTool = true
      · rw [List.dropWhile_cons_of_pos tool, ih, normalize_tool preserveReasoningOnly rest tool]
      · rw [List.dropWhile_cons_of_neg tool]

theorem normalize_other (rest : List ChatMessage) (tool : message.isTool = false)
    (assistant : message.isAssistant = false) :
    normalizeChatMessages preserveReasoningOnly (message :: rest) =
      message :: normalizeChatMessages preserveReasoningOnly rest := by
  rw [normalizeChatMessages, scan, if_neg (by simp [tool]), if_neg (by simp [assistant])]
  rfl

@[simp] theorem normalizeAssistantContent_calls (message : ChatMessage) :
    message.normalizeAssistantContent.calls = message.calls := by
  rw [ChatMessage.normalizeAssistantContent]
  split <;> rfl

theorem tool_of_assistant (assistant : message.isAssistant = true) : message.isTool = false := by
  simp only [ChatMessage.isAssistant, ChatMessage.isTool, decide_eq_true_eq] at assistant ⊢
  rw [assistant]
  decide

theorem normalize_quiet (rest : List ChatMessage) (assistant : message.isAssistant = true)
    (quiet : message.calls = []) :
    normalizeChatMessages preserveReasoningOnly (message :: rest) =
      keepPayload preserveReasoningOnly message.normalizeAssistantContent ++
        normalizeChatMessages preserveReasoningOnly rest := by
  have tool := tool_of_assistant assistant
  rw [normalizeChatMessages, scan, if_neg (by simp [tool]), if_pos assistant,
    if_pos (by simpa using quiet)]
  rfl

theorem normalize_group (rest : List ChatMessage) (assistant : message.isAssistant = true)
    (asks : message.calls ≠ [])
    (complete : completePair message.calls (rest.takeWhile ChatMessage.isTool) = true) :
    normalizeChatMessages preserveReasoningOnly (message :: rest) =
      message.normalizeAssistantContent :: (rest.takeWhile ChatMessage.isTool ++
        normalizeChatMessages preserveReasoningOnly rest) := by
  have tool := tool_of_assistant assistant
  have skipped : rest.drop (rest.takeWhile ChatMessage.isTool).length =
      rest.dropWhile ChatMessage.isTool := by
    conv_lhs => arg 2; rw [← List.takeWhile_append_dropWhile (p := ChatMessage.isTool) (l := rest)]
    exact List.drop_left
  rw [normalizeChatMessages, scan, if_neg (by simp [tool]), if_pos assistant,
    if_neg (by simpa using asks)]
  simp only [normalizeAssistantContent_calls]
  rw [if_pos complete, scan_skip, skipped, normalize_skipTools]

theorem normalize_untied (rest : List ChatMessage) (assistant : message.isAssistant = true)
    (asks : message.calls ≠ [])
    (incomplete : completePair message.calls (rest.takeWhile ChatMessage.isTool) = false) :
    normalizeChatMessages preserveReasoningOnly (message :: rest) =
      keepPayload preserveReasoningOnly message.normalizeAssistantContent.popToolCalls ++
        normalizeChatMessages preserveReasoningOnly rest := by
  have tool := tool_of_assistant assistant
  rw [normalizeChatMessages, scan, if_neg (by simp [tool]), if_pos assistant,
    if_neg (by simpa using asks)]
  simp only [normalizeAssistantContent_calls]
  rw [if_neg (by simp [incomplete])]
  rfl

end Ftre.Llm
