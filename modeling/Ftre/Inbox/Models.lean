import Ftre.Message.Msg

/-!
Queue items and their admission. An item keeps its text next to the messages it
came with; `AdmittedItem` carries what every way of making an item establishes:
the two agree.
-/

namespace Ftre.Inbox

open Lib Message

inductive QueueTarget where
  | nextTurn
  | nextStep
deriving DecidableEq, Repr

inductive QueueSource where
  | user
  | plugin
  | system
deriving DecidableEq, Repr

def QueueSource.value : QueueSource → String
  | .user => "user"
  | .plugin => "plugin"
  | .system => "system"

def QueueSource.ofName : String → QueueSource
  | "plugin" => .plugin
  | "system" => .system
  | _ => .user

structure QueueItem where
  requestId : String
  sequence : Int
  sessionId : String
  channelId : String
  content : String
  attachments : List Json
  source : QueueSource
  historyMessageId : Option String
  messages : List Msg
  agentId : String
deriving DecidableEq

def joinTexts (messages : List Msg) : String :=
  "\n".intercalate ((messages.map fun message => message.getTextContent.getD "").filter
    fun text => text ≠ "")

/-- `UserMsg` of a text; its coordinates are generated. -/
def userMsg (content : String) (metadata : KeyedTable String Json) (id createdAt : String) : Msg :=
  let blocks : List ContentBlock :=
    if content = "" then [] else [.text ⟨content, id, createdAt, none⟩]
  { Msg.plain id .user blocks createdAt with metadata := metadata }

namespace QueueItem

def normalizedMessages (item : QueueItem) (id createdAt : String) : List Msg :=
  if item.messages = [] then
    [userMsg item.content (KeyedTable.empty.set "request_id" (.str item.requestId)) id createdAt]
  else item.messages

def edited (item : QueueItem) (content : String) (attachments : List Json) : QueueItem :=
  { item with content := content, attachments := attachments, messages := [] }

def promoted (item : QueueItem) : QueueItem := { item with source := .user }

end QueueItem

structure InboundMessage where
  sessionId : String
  requestId : String
  channelId : String
  content : String
  attachments : List Json
  source : String
  agentId : String

/-- An item of the queue, whose text is the text of its messages. -/
structure AdmittedItem where
  item : QueueItem
  textual : item.messages = [] ∨ item.content = joinTexts item.messages
  unclaimed : item.historyMessageId = none
  stored : item.sessionId ≠ ""

namespace AdmittedItem

/-- `_item_from_message` for a channel message. -/
def ofInbound (message : InboundMessage) (stored : message.sessionId ≠ "") : AdmittedItem where
  item :=
    { requestId := message.requestId
      sequence := 0
      sessionId := message.sessionId
      channelId := message.channelId
      content := message.content
      attachments := message.attachments
      source := .ofName message.source
      historyMessageId := none
      messages := []
      agentId := message.agentId }
  textual := Or.inl rfl
  unclaimed := rfl
  stored := stored

/-- `_resolve_session_agent`: the agent of an item is filled in before it is queued. -/
def resolved (admitted : AdmittedItem) (agentId : String) : AdmittedItem :=
  { admitted with item := { admitted.item with agentId := agentId } }

theorem joinTexts_userMsg (content id createdAt : String) (metadata : KeyedTable String Json) :
    joinTexts [userMsg content metadata id createdAt] = content := by
  unfold joinTexts userMsg Msg.getTextContent
  by_cases blank : content = ""
  · simp [blank, Msg.plain]
  · simp [blank, Msg.plain, ContentBlock.asText?]

theorem joinTexts_normalizedMessages (admitted : AdmittedItem) (id createdAt : String) :
    joinTexts (admitted.item.normalizedMessages id createdAt) = admitted.item.content := by
  unfold QueueItem.normalizedMessages
  by_cases plain : admitted.item.messages = []
  · rw [if_pos plain, joinTexts_userMsg]
  · rw [if_neg plain]
    rcases admitted.textual with empty | same
    · exact absurd empty plain
    · exact same.symm

end AdmittedItem

end Ftre.Inbox
