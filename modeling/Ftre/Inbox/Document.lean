import Ftre.Inbox.Repository
import Ftre.Message.Load

/-!
The inbox file of a session. A document is what `to_json` writes; `from_json`
checks the schema, the place of every item and the queues themselves before a
state is used again.
-/

namespace Ftre.Inbox

open Lib Message

def QueueTarget.value : QueueTarget → String
  | .nextTurn => "next-turn"
  | .nextStep => "next-step"

/-! ### Items -/

/-- `int(value)`; no writer puts text or a float where a number is read. -/
def intOf : Json → Except String Int
  | .int value => .ok value
  | .bool value => .ok (if value then 1 else 0)
  | other => .error ("invalid literal for int(): " ++ other.repr)

/-- `value[key]`. -/
def required (value : Json) (key : String) : Except String Json :=
  match value.get? key with
  | some found => .ok found
  | none => .error (Json.reprString key)

/-- `dict(value)` of a decoded object. -/
def dictOf : Json → Except String Json
  | .object fields => .ok (.object fields)
  | other => .error ("dictionary update sequence: " ++ other.repr)

def itemsOf : Json → Except String (List Json)
  | .array items => .ok items
  | other => .error ("object is not iterable: " ++ other.repr)

namespace QueueItem

def toJson (item : QueueItem) (target : QueueTarget) : Json :=
  .object [("request_id", .str item.requestId), ("sequence", .int item.sequence),
    ("session_id", .str item.sessionId), ("channel_id", .str item.channelId),
    ("content", .str item.content), ("attachments", .array item.attachments),
    ("source", .str item.source.value), ("history_message_id", optionJson item.historyMessageId),
    ("messages", .array (item.messages.map Msg.modelDump)), ("agent_id", .str item.agentId),
    ("target", .str target.value)]

def readTarget : Option Json → Except String QueueTarget
  | some (.str "next-turn") => .ok .nextTurn
  | some (.str "next-step") => .ok .nextStep
  | other => .error ("未知 Inbox target: " ++ (other.getD .null).repr)

def readSource : Json → Except String QueueSource
  | .str "user" => .ok .user
  | .str "plugin" => .ok .plugin
  | .str "system" => .ok .system
  | other => .error ("未知 Inbox source: " ++ other.repr)

def readMessages (raw : List Json) : Except String (List Msg) :=
  match raw.mapM Msg.modelValidate with
  | some messages => .ok messages
  | none => .error "validation error for Msg"

/-- `str(value[key]) if value.get(key) else None`. -/
def readHistoryId (found : Option Json) : Option String :=
  (found.filter Json.truthy).map Json.toStr

def fromJson (value : Json) : Except String (QueueItem × QueueTarget) := do
  let target ← readTarget (value.get? "target")
  let source ← readSource ((value.get? "source").getD (.str "user"))
  let rawMessages ← match value.get? "messages" with
    | some (.array items) => .ok items
    | _ => .error "messages 必须是数组"
  let item : QueueItem := {
    requestId := (← required value "request_id").toStr
    sequence := ← (required value "sequence").bind intOf
    sessionId := (← required value "session_id").toStr
    channelId := ((value.get? "channel_id").getD (.str "")).toStr
    content := ((value.get? "content").getD (.str "")).toStr
    attachments := ← (itemsOf ((value.get? "attachments").getD (.array []))).bind
      fun items => items.mapM dictOf
    source := source
    historyMessageId := readHistoryId (value.get? "history_message_id")
    messages := ← readMessages rawMessages
    agentId := ((Json.orElse (value.get? "agent_id") none).getD (.str "default")).toStr }
  return (item, target)

structure Storable (item : QueueItem) : Prop where
  agent : item.agentId ≠ ""
  unclaimed : item.historyMessageId = none
  attached : ∀ attachment ∈ item.attachments, ∃ fields, attachment = .object fields
  readable : ∀ message ∈ item.messages, message.WellFormed

theorem mapM_dictOf (attachments : List Json)
    (attached : ∀ attachment ∈ attachments, ∃ fields, attachment = .object fields) :
    attachments.mapM dictOf = .ok attachments := by
  induction attachments with
  | nil => rfl
  | cons attachment rest ih =>
      obtain ⟨fields, same⟩ := attached attachment List.mem_cons_self
      have later := ih fun other member => attached other (List.mem_cons_of_mem _ member)
      rw [List.mapM_cons, later, same]
      rfl

theorem mapM_modelValidate (messages : List Msg)
    (readable : ∀ message ∈ messages, message.WellFormed) :
    ∃ read, (messages.map Msg.modelDump).mapM Msg.modelValidate = some read ∧
      read.map Msg.modelDump = messages.map Msg.modelDump ∧
      ∀ message ∈ read, message.WellFormed := by
  induction messages with
  | nil => exact ⟨[], rfl, rfl, fun _ member => absurd member List.not_mem_nil⟩
  | cons message rest ih =>
      obtain ⟨first, accepted, sameDump, wellFormed⟩ :=
        msg_modelValidate message (readable message List.mem_cons_self)
      obtain ⟨others, restAccepted, restDump, restWellFormed⟩ :=
        ih fun other member => readable other (List.mem_cons_of_mem _ member)
      refine ⟨first :: others, ?_, ?_, ?_⟩
      · rw [List.map_cons, List.mapM_cons, accepted, restAccepted]
        rfl
      · rw [List.map_cons, List.map_cons, sameDump, restDump]
      · intro other member
        rcases List.mem_cons.mp member with same | later
        · rw [same]
          exact wellFormed
        · exact restWellFormed other later

theorem fromJson_read {item : QueueItem} (target : QueueTarget) {messages : List Msg}
    {historyId : Option String} {agentId : String}
    (attached : ∀ attachment ∈ item.attachments, ∃ fields, attachment = .object fields)
    (history : readHistoryId (some (optionJson item.historyMessageId)) = historyId)
    (body : (item.messages.map Msg.modelDump).mapM Msg.modelValidate = some messages)
    (agent : ((Json.orElse (some (.str item.agentId)) none).getD (.str "default")).toStr =
      agentId) :
    fromJson (item.toJson target) =
      .ok ({ item with
        historyMessageId := historyId
        messages := messages
        agentId := agentId }, target) := by
  have place : readTarget ((item.toJson target).get? "target") = .ok target := by
    cases target <;> rfl
  have source : readSource (((item.toJson target).get? "source").getD (.str "user")) =
      .ok item.source := by
    change readSource (.str item.source.value) = _
    cases item.source <;> rfl
  have attachments : (itemsOf (((item.toJson target).get? "attachments").getD (.array []))).bind
      (fun items => items.mapM dictOf) = .ok item.attachments :=
    mapM_dictOf item.attachments attached
  have read : readMessages (item.messages.map Msg.modelDump) = .ok messages := by
    unfold readMessages
    rw [body]
  subst history agent
  unfold fromJson
  rw [place, source, attachments]
  change (readMessages (item.messages.map Msg.modelDump)).bind _ = _
  rw [read]
  rfl

theorem fromJson_toJson (item : QueueItem) (storable : item.Storable) (target : QueueTarget) :
    ∃ messages, fromJson (item.toJson target) = .ok ({ item with messages := messages }, target) ∧
      messages.map Msg.modelDump = item.messages.map Msg.modelDump ∧
      ∀ message ∈ messages, message.WellFormed := by
  obtain ⟨messages, accepted, sameDump, wellFormed⟩ :=
    mapM_modelValidate item.messages storable.readable
  have history : readHistoryId (some (optionJson item.historyMessageId)) =
      item.historyMessageId := by
    rw [storable.unclaimed]
    rfl
  have agent : ((Json.orElse (some (.str item.agentId)) none).getD (.str "default")).toStr =
      item.agentId := by
    have kept : Json.orElse (some (.str item.agentId)) none = some (.str item.agentId) :=
      if_pos (decide_eq_true storable.agent)
    rw [kept]
    rfl
  exact ⟨messages, fromJson_read target storable.attached history accepted agent, sameDump,
    wellFormed⟩

end QueueItem

/-! ### Inboxes -/

namespace MutableInbox

def toJson (inbox : MutableInbox) : Json :=
  .object [("schema_version", .int 3), ("session_id", .str inbox.sessionId),
    ("revision", .int inbox.revision), ("next_sequence", .int inbox.nextSequence),
    ("next_turn", .array (inbox.nextTurn.map fun item => item.toJson .nextTurn)),
    ("next_step", .array (inbox.nextStep.map fun item => item.toJson .nextStep))]

/-- `items == sorted(items)` of the sequences of a queue. -/
def inOrder (items : List QueueItem) : Bool :=
  let sequences := items.map QueueItem.sequence
  decide (sequences = sequences.mergeSort)

def validate (inbox : MutableInbox) : Except String Unit :=
  if ¬ (inbox.pending.map QueueItem.requestId).Nodup then .error "Inbox 中 request_id 重复"
  else if ¬ (inbox.pending.map QueueItem.sequence).Nodup then .error "Inbox sequence 重复"
  else if ¬ (inOrder inbox.nextTurn && inOrder inbox.nextStep) then
    .error "Inbox 每条队列必须按 sequence 有序"
  else .ok ()

def readQueue (value : Json) (target : QueueTarget) (key misplaced : String) :
    Except String (List QueueItem) :=
  (itemsOf ((value.get? key).getD (.array []))).bind fun items =>
    items.mapM fun raw =>
      (QueueItem.fromJson raw).bind fun (item, place) =>
        if place = target then .ok item else .error misplaced

def fromJson (value : Json) : Except String MutableInbox := do
  if (value.get? "schema_version").all fun version =>
      version ∉ [Json.int 1, Json.int 2, Json.int 3] then
    .error ("不支持的 Inbox schema_version: " ++ ((value.get? "schema_version").getD .null).repr)
  else
    let inbox : MutableInbox := {
      sessionId := (← required value "session_id").toStr
      -- A revision counts changes, so a document has no negative one.
      revision := (← intOf ((value.get? "revision").getD (.int 0))).toNat
      nextSequence := ← intOf ((value.get? "next_sequence").getD (.int 1))
      nextTurn := ← readQueue value .nextTurn "next_turn" "next_turn 含有错误 target"
      nextStep := ← readQueue value .nextStep "next_step" "next_step 含有错误 target" }
    inbox.validate
    return inbox

def Storable (inbox : MutableInbox) : Prop := ∀ item ∈ inbox.pending, item.Storable

def keys (items : List QueueItem) : List (String × Int) :=
  items.map fun item => (item.requestId, item.sequence)

theorem inOrder_of_pairwise {items : List QueueItem}
    (sorted : items.Pairwise fun left right => bySequence left right = true) :
    inOrder items = true := by
  apply decide_eq_true
  symm
  apply List.mergeSort_of_pairwise
  rw [List.pairwise_map]
  exact sorted

theorem validate_of_valid {inbox : MutableInbox} (valid : inbox.Valid) :
    inbox.validate = .ok () := by
  unfold validate
  rw [if_neg (not_not_intro valid.distinct), if_neg (not_not_intro valid.numbered),
    inOrder_of_pairwise valid.turnOrder, inOrder_of_pairwise valid.stepOrder]
  rfl

theorem keys_ids (items : List QueueItem) :
    (keys items).map Prod.fst = items.map QueueItem.requestId := by
  unfold keys
  rw [List.map_map]
  rfl

theorem keys_sequences (items : List QueueItem) :
    (keys items).map Prod.snd = items.map QueueItem.sequence := by
  unfold keys
  rw [List.map_map]
  rfl

theorem keys_append (left right : List QueueItem) : keys (left ++ right) = keys left ++ keys right :=
  List.map_append

private theorem pairwise_of_keys {left right : List QueueItem} (same : keys left = keys right)
    (sorted : right.Pairwise fun first second => bySequence first second = true) :
    left.Pairwise fun first second => bySequence first second = true := by
  have sequences : left.map QueueItem.sequence = right.map QueueItem.sequence := by
    rw [← keys_sequences, same, keys_sequences]
  have ordered : (left.map QueueItem.sequence).Pairwise fun first second =>
      decide (first ≤ second) = true := by
    rw [sequences, List.pairwise_map]
    exact sorted
  rw [List.pairwise_map] at ordered
  exact ordered

theorem Valid.of_keys {inbox read : MutableInbox} (valid : inbox.Valid)
    (turns : keys read.nextTurn = keys inbox.nextTurn)
    (steps : keys read.nextStep = keys inbox.nextStep)
    (later : read.nextSequence = inbox.nextSequence) : read.Valid := by
  have pending : keys read.pending = keys inbox.pending := by
    unfold MutableInbox.pending
    rw [keys_append, keys_append, turns, steps]
  constructor
  · rw [← keys_ids, pending, keys_ids]
    exact valid.distinct
  · rw [← keys_sequences, pending, keys_sequences]
    exact valid.numbered
  · exact pairwise_of_keys turns valid.turnOrder
  · exact pairwise_of_keys steps valid.stepOrder
  · intro item member
    have sequence : item.sequence ∈ inbox.pending.map QueueItem.sequence := by
      rw [← keys_sequences, ← pending, keys_sequences]
      exact List.mem_map_of_mem member
    obtain ⟨original, present, same⟩ := List.mem_map.mp sequence
    rw [← same, later]
    exact valid.fresh original present

private theorem readItems_toJson (items : List QueueItem) (target : QueueTarget)
    (misplaced : String) (storable : ∀ item ∈ items, item.Storable) :
    ∃ read, (items.map fun item => item.toJson target).mapM (fun raw =>
        (QueueItem.fromJson raw).bind fun (item, place) =>
          if place = target then Except.ok item else .error misplaced) = .ok read ∧
      (read.map fun item => item.toJson target) = (items.map fun item => item.toJson target) ∧
      keys read = keys items ∧ ∀ item ∈ read, item.Storable := by
  induction items with
  | nil => exact ⟨[], rfl, rfl, rfl, fun _ member => absurd member List.not_mem_nil⟩
  | cons item rest ih =>
      have kept := storable item List.mem_cons_self
      obtain ⟨messages, accepted, sameDump, wellFormed⟩ := item.fromJson_toJson kept target
      obtain ⟨others, restAccepted, restDump, restKeys, restStorable⟩ :=
        ih fun other member => storable other (List.mem_cons_of_mem _ member)
      refine ⟨{ item with messages := messages } :: others, ?_, ?_, ?_, ?_⟩
      · rw [List.map_cons, List.mapM_cons, accepted, restAccepted]
        change (if target = target then Except.ok { item with messages := messages }
          else .error misplaced).bind _ = _
        rw [if_pos rfl]
        rfl
      · rw [List.map_cons, List.map_cons, restDump]
        congr 1
        unfold QueueItem.toJson
        dsimp only
        rw [sameDump]
      · unfold keys at restKeys ⊢
        rw [List.map_cons, List.map_cons, restKeys]
      · intro other member
        rcases List.mem_cons.mp member with same | later
        · rw [same]
          exact ⟨kept.agent, kept.unclaimed, kept.attached, wellFormed⟩
        · exact restStorable other later

theorem fromJson_toJson {inbox : MutableInbox} (valid : inbox.Valid) (storable : inbox.Storable) :
    ∃ read, fromJson inbox.toJson = .ok read ∧ read.toJson = inbox.toJson ∧ read.Valid ∧
      read.Storable ∧ keys read.pending = keys inbox.pending ∧
      read.revision = inbox.revision ∧ read.nextSequence = inbox.nextSequence ∧
      read.sessionId = inbox.sessionId := by
  obtain ⟨turns, turnsRead, turnsDump, turnKeys, turnsStorable⟩ :=
    readItems_toJson inbox.nextTurn .nextTurn "next_turn 含有错误 target"
      fun item member => storable item (List.mem_append_left _ member)
  obtain ⟨steps, stepsRead, stepsDump, stepKeys, stepsStorable⟩ :=
    readItems_toJson inbox.nextStep .nextStep "next_step 含有错误 target"
      fun item member => storable item (List.mem_append_right _ member)
  have readValid : ({ inbox with nextTurn := turns, nextStep := steps } : MutableInbox).Valid :=
    valid.of_keys turnKeys stepKeys rfl
  refine ⟨{ inbox with nextTurn := turns, nextStep := steps }, ?_, ?_, readValid, ?_, ?_,
    rfl, rfl, rfl⟩
  · have turnQueue : readQueue inbox.toJson .nextTurn "next_turn" "next_turn 含有错误 target" =
        .ok turns := turnsRead
    have stepQueue : readQueue inbox.toJson .nextStep "next_step" "next_step 含有错误 target" =
        .ok steps := stepsRead
    unfold fromJson
    rw [turnQueue, stepQueue]
    change (MutableInbox.validate { inbox with nextTurn := turns, nextStep := steps }).bind _ = _
    rw [validate_of_valid readValid]
    rfl
  · unfold toJson
    dsimp only
    rw [turnsDump, stepsDump]
  · intro item member
    rcases List.mem_append.mp member with turn | step
    · exact turnsStorable item turn
    · exact stepsStorable item step
  · change keys (turns ++ steps) = keys (inbox.nextTurn ++ inbox.nextStep)
    rw [keys_append, keys_append, turnKeys, stepKeys]

end MutableInbox

end Ftre.Inbox
