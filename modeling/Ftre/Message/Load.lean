import Ftre.Message.Msg

/-!
Messages on disk.
-/

namespace Ftre.Message

open Lib

def stringField (value : Json) (key : String) : Option String :=
  (value.get? key).bind Json.asString?

/-- A field whose default is `None`. -/
def optionalField (value : Json) (key : String) : Option (Option String) :=
  match value.get? key with
  | none => some none
  | some found => found.asOptionString?

def tableField (value : Json) (key : String) : Option (KeyedTable String Json) :=
  ((value.get? key).bind Json.asFields?).map KeyedTable.ofList

def intField (value : Json) (key : String) : Option Int :=
  (value.get? key).bind Json.asInt?

def ToolCallState.ofValue : String → Option ToolCallState
  | "pending" => some .pending
  | "asking" => some .asking
  | "allowed" => some .allowed
  | "submitted" => some .submitted
  | "finished" => some .finished
  | _ => none

def ToolResultState.ofValue : String → Option ToolResultState
  | "success" => some .success
  | "error" => some .error
  | "interrupted" => some .interrupted
  | "denied" => some .denied
  | "running" => some .running
  | _ => none

/-! ### Blocks -/

def DataSource.modelValidate (value : Json) : Option DataSource := do
  let mediaType ← stringField value "media_type"
  match ← stringField value "type" with
  | "base64" => return .base64 (← stringField value "data") mediaType
  | "url" => return .url (← stringField value "url") mediaType
  | _ => none

def TextBlock.modelValidate (value : Json) : Option TextBlock := do
  return {
    text := ← stringField value "text"
    id := ← stringField value "id"
    createdAt := ← stringField value "created_at"
    finishedAt := ← optionalField value "finished_at" }

def ThinkingBlock.modelValidate (value : Json) : Option ThinkingBlock := do
  return {
    thinking := ← stringField value "thinking"
    id := ← stringField value "id"
    createdAt := ← stringField value "created_at"
    finishedAt := ← optionalField value "finished_at" }

def DataBlock.modelValidate (value : Json) : Option DataBlock := do
  return {
    source := ← DataSource.modelValidate (← value.get? "source")
    name := ← optionalField value "name"
    id := ← stringField value "id"
    createdAt := ← stringField value "created_at"
    finishedAt := ← optionalField value "finished_at" }

def hintShape : Json → Bool
  | .str _ => true
  | .array _ => true
  | _ => false

def HintBlock.modelValidate (value : Json) : Option HintBlock := do
  return {
    hint := ← (value.get? "hint").filter hintShape
    source := ← optionalField value "source"
    id := ← stringField value "id"
    createdAt := ← stringField value "created_at"
    finishedAt := ← optionalField value "finished_at" }

def ToolCallBlock.modelValidate (value : Json) : Option ToolCallBlock := do
  return {
    id := ← stringField value "id"
    name := ← stringField value "name"
    arguments := ← tableField value "arguments"
    state := ← ToolCallState.ofValue (← stringField value "state")
    createdAt := ← stringField value "created_at"
    finishedAt := ← optionalField value "finished_at" }

def ToolOutput.modelValidate : Json → Option ToolOutput
  | .str text => some (.plain text)
  | .array items => some (.parts (items.map .other))
  | _ => none

def ToolResultBlock.modelValidate (value : Json) : Option ToolResultBlock := do
  return {
    id := ← stringField value "id"
    name := ← stringField value "name"
    output := ← (value.get? "output").bind ToolOutput.modelValidate
    state := ← ToolResultState.ofValue (← stringField value "state")
    metadata := ← tableField value "metadata"
    createdAt := ← stringField value "created_at"
    finishedAt := ← optionalField value "finished_at" }

def ExtensionBlock.modelValidate (value : Json) : Option ExtensionBlock := do
  return {
    originalType := ← stringField value "original_type"
    data := ← tableField value "data"
    id := ← stringField value "id"
    createdAt := ← stringField value "created_at"
    finishedAt := ← optionalField value "finished_at" }

def ContentBlock.modelValidate (value : Json) : Option ContentBlock := do
  match ← stringField value "type" with
  | "text" => (TextBlock.modelValidate value).map .text
  | "thinking" => (ThinkingBlock.modelValidate value).map .thinking
  | "data" => (DataBlock.modelValidate value).map .data
  | "hint" => (HintBlock.modelValidate value).map .hint
  | "tool_call" => (ToolCallBlock.modelValidate value).map .toolCall
  | "tool_result" => (ToolResultBlock.modelValidate value).map .toolResult
  | "extension" => (ExtensionBlock.modelValidate value).map .extension
  | _ => none

def ContentBlock.WellShaped : ContentBlock → Prop
  | .hint block => hintShape block.hint = true
  | _ => True

/-! ### Blocks are read back -/

@[simp] theorem asOptionString_optionJson (text : Option String) :
    (optionJson text).asOptionString? = some text := by
  cases text <;> rfl

theorem textBlock_modelValidate (block : TextBlock) :
    TextBlock.modelValidate block.modelDump = some block := by
  rcases block with ⟨text, id, createdAt, finishedAt⟩
  cases finishedAt <;> rfl

theorem dataBlock_modelValidate (block : DataBlock) :
    DataBlock.modelValidate block.modelDump = some block := by
  rcases block with ⟨source, name, id, createdAt, finishedAt⟩
  cases source <;> cases name <;> cases finishedAt <;> rfl

theorem toolOutput_modelValidate (output : ToolOutput) :
    ∃ read, ToolOutput.modelValidate output.modelDump = some read ∧
      read.modelDump = output.modelDump := by
  cases output with
  | plain text => exact ⟨.plain text, rfl, rfl⟩
  | parts items =>
      refine ⟨_, rfl, ?_⟩
      change Json.array _ = Json.array _
      rw [List.map_map]
      congr 1
      exact List.map_id' _

theorem tableField_of_get {value : Json} {key : String} {table : KeyedTable String Json}
    (found : value.get? key = some (.object table.entries)) :
    tableField value key = some table := by
  unfold tableField
  rw [found]
  exact congrArg some table.ofList_entries

theorem contentBlock_modelValidate (block : ContentBlock) (shaped : block.WellShaped) :
    ∃ read, ContentBlock.modelValidate block.modelDump = some read ∧
      read.modelDump = block.modelDump ∧ read.type = block.type ∧ read.WellShaped := by
  cases block with
  | text block =>
      refine ⟨.text block, ?_, rfl, rfl, trivial⟩
      change (TextBlock.modelValidate block.modelDump).map _ = _
      rw [textBlock_modelValidate]
      rfl
  | thinking block =>
      refine ⟨.thinking block, ?_, rfl, rfl, trivial⟩
      rcases block with ⟨thinking, id, createdAt, finishedAt⟩
      cases finishedAt <;> rfl
  | data block =>
      refine ⟨.data block, ?_, rfl, rfl, trivial⟩
      change (DataBlock.modelValidate block.modelDump).map _ = _
      rw [dataBlock_modelValidate]
      rfl
  | hint block =>
      refine ⟨.hint block, ?_, rfl, rfl, shaped⟩
      rcases block with ⟨hint, source, id, createdAt, finishedAt⟩
      change hintShape hint = true at shaped
      cases hint with
      | str _ => cases source <;> cases finishedAt <;> rfl
      | array _ => cases source <;> cases finishedAt <;> rfl
      | _ => cases shaped
  | toolCall block =>
      refine ⟨.toolCall block, ?_, rfl, rfl, trivial⟩
      rcases block with ⟨id, name, arguments, state, createdAt, finishedAt⟩
      have read : tableField (ContentBlock.modelDump (.toolCall
          ⟨id, name, arguments, state, createdAt, finishedAt⟩)) "arguments" = some arguments :=
        tableField_of_get rfl
      change (ToolCallBlock.modelValidate _).map _ = _
      unfold ToolCallBlock.modelValidate
      rw [read]
      cases state <;> cases finishedAt <;> rfl
  | toolResult block =>
      rcases block with ⟨id, name, output, state, metadata, createdAt, finishedAt⟩
      obtain ⟨outputRead, accepted, same⟩ := toolOutput_modelValidate output
      refine ⟨.toolResult ⟨id, name, outputRead, state, metadata, createdAt, finishedAt⟩,
        ?_, ?_, rfl, trivial⟩
      · have read : tableField (ContentBlock.modelDump (.toolResult
            ⟨id, name, output, state, metadata, createdAt, finishedAt⟩)) "metadata" =
              some metadata :=
          tableField_of_get rfl
        have outcome : ((ContentBlock.modelDump (.toolResult
            ⟨id, name, output, state, metadata, createdAt, finishedAt⟩)).get? "output").bind
              ToolOutput.modelValidate = some outputRead :=
          accepted
        change (ToolResultBlock.modelValidate _).map _ = _
        unfold ToolResultBlock.modelValidate
        rw [read, outcome]
        cases state <;> cases finishedAt <;> rfl
      · change Json.object _ = Json.object _
        rw [same]
  | extension block =>
      refine ⟨.extension block, ?_, rfl, rfl, trivial⟩
      rcases block with ⟨originalType, data, id, createdAt, finishedAt⟩
      have read : tableField (ContentBlock.modelDump (.extension
          ⟨originalType, data, id, createdAt, finishedAt⟩)) "data" = some data :=
        tableField_of_get rfl
      change (ExtensionBlock.modelValidate _).map _ = _
      unfold ExtensionBlock.modelValidate
      rw [read]
      cases finishedAt <;> rfl

theorem contentBlocks_modelValidate (blocks : List ContentBlock)
    (shaped : ∀ block ∈ blocks, block.WellShaped) :
    ∃ read, (blocks.map ContentBlock.modelDump).mapM ContentBlock.modelValidate = some read ∧
      read.map ContentBlock.modelDump = blocks.map ContentBlock.modelDump ∧
      read.map ContentBlock.type = blocks.map ContentBlock.type ∧
      ∀ block ∈ read, block.WellShaped := by
  induction blocks with
  | nil => exact ⟨[], rfl, rfl, rfl, nofun⟩
  | cons block rest ih =>
      obtain ⟨first, accepted, sameDump, sameType, firstShaped⟩ :=
        contentBlock_modelValidate block (shaped block List.mem_cons_self)
      obtain ⟨others, restAccepted, restDump, restType, restShaped⟩ :=
        ih fun other member => shaped other (List.mem_cons_of_mem _ member)
      refine ⟨first :: others, ?_, ?_, ?_, ?_⟩
      · rw [List.map_cons, List.mapM_cons, accepted, restAccepted]
        rfl
      · rw [List.map_cons, List.map_cons, sameDump, restDump]
      · rw [List.map_cons, List.map_cons, sameType, restType]
      · intro other member
        rcases List.mem_cons.mp member with same | later
        · rw [same]
          exact firstShaped
        · exact restShaped other later

/-! ### Messages -/

def MsgName.value : MsgName → String
  | .default => "default"
  | .compact => "compact"
  | .compactFast => "compact_fast"

def MsgName.ofValue : String → Option MsgName
  | "default" => some .default
  | "compact" => some .compact
  | "compact_fast" => some .compactFast
  | _ => none

def Role.value : Role → String
  | .user => "user"
  | .assistant => "assistant"
  | .system => "system"

def Role.ofValue : String → Option Role
  | "user" => some .user
  | "assistant" => some .assistant
  | "system" => some .system
  | _ => none

def Role.allows : Role → String → Bool
  | .user, type => ["text", "data", "extension"].contains type
  | .system, type => ["text", "extension"].contains type
  | .assistant, _ => true

def TokenUsage.modelDump (usage : TokenUsage) : Json :=
  .object [("prompt_tokens", .int usage.promptTokens),
    ("completion_tokens", .int usage.completionTokens), ("total_tokens", .int usage.totalTokens)]

def TokenUsage.modelValidate (value : Json) : Option TokenUsage := do
  return {
    promptTokens := ← intField value "prompt_tokens"
    completionTokens := ← intField value "completion_tokens"
    totalTokens := ← intField value "total_tokens" }

def MsgToken.modelDump (token : MsgToken) : Json :=
  .object [("usage", token.usage.modelDump), ("last_call_usage", token.lastCallUsage.modelDump)]

def MsgToken.modelValidate (value : Json) : Option MsgToken := do
  return {
    usage := ← (value.get? "usage").bind TokenUsage.modelValidate
    lastCallUsage := ← (value.get? "last_call_usage").bind TokenUsage.modelValidate }

def nullable {α : Type} (dump : α → Json) : Option α → Json
  | none => .null
  | some value => dump value

def nullableField {α : Type} (read : Json → Option α) (value : Json) (key : String) :
    Option (Option α) :=
  match value.get? key with
  | none => some none
  | some .null => some none
  | some found => (read found).map some

def finishedReasons : List String := ["completed", "interrupted", "exceed_max_iters", "error"]

def readTable (value : Json) : Option (KeyedTable String Json) :=
  value.asFields?.map KeyedTable.ofList

def dumpTable (table : KeyedTable String Json) : Json := .object table.entries

def Msg.modelDump (message : Msg) : Json :=
  .object [("name", .str message.name.value),
    ("content", .array (message.content.map ContentBlock.modelDump)),
    ("role", .str message.role.value), ("id", .str message.id),
    ("metadata", .object message.metadata.entries), ("created_at", .str message.createdAt),
    ("seq", .int message.seq), ("token", nullable MsgToken.modelDump message.token),
    ("finished_at", optionJson message.finishedAt),
    ("finished_reason", optionJson message.finishedReason),
    ("structured_output", nullable dumpTable message.structuredOutput),
    ("error", nullable dumpTable message.error)]

/-- The checks of `_validate_role_content` and of the field types. -/
structure Msg.WellFormed (message : Msg) : Prop where
  roles : ∀ type ∈ message.content.map ContentBlock.type, message.role.allows type = true
  tokens : message.token = none ∨ message.role = .assistant
  reasons : ∀ reason, message.finishedReason = some reason → reason ∈ finishedReasons
  shaped : ∀ block ∈ message.content, block.WellShaped

def Msg.validateRoleContent (message : Msg) : Option Msg :=
  if (message.content.map ContentBlock.type).all message.role.allows &&
      (message.token.isNone || decide (message.role = .assistant)) then some message
  else none

def readReason : Option String → Option (Option String)
  | none => some none
  | some reason => if reason ∈ finishedReasons then some (some reason) else none

def Msg.modelValidate (value : Json) : Option Msg := do
  let message : Msg := {
    name := ← (stringField value "name").bind MsgName.ofValue
    content := ← ((value.get? "content").bind Json.asArray?).bind fun items =>
      items.mapM ContentBlock.modelValidate
    role := ← (stringField value "role").bind Role.ofValue
    id := ← stringField value "id"
    metadata := ← tableField value "metadata"
    createdAt := ← stringField value "created_at"
    seq := ← intField value "seq"
    token := ← nullableField MsgToken.modelValidate value "token"
    finishedAt := ← optionalField value "finished_at"
    finishedReason := ← (optionalField value "finished_reason").bind readReason
    structuredOutput := ← nullableField readTable value "structured_output"
    error := ← nullableField readTable value "error" }
  message.validateRoleContent

theorem nullableField_of_get {α : Type} {dump : α → Json} {read : Json → Option α} {value : Json}
    {key : String} {field : Option α} (found : value.get? key = some (nullable dump field))
    (reads : ∀ item, read (dump item) = some item) (dumped : ∀ item, dump item ≠ .null) :
    nullableField read value key = some field := by
  unfold nullableField
  rw [found]
  cases field with
  | none => rfl
  | some item =>
      unfold nullable
      split
      · contradiction
      · rename_i null
        exact absurd (Option.some.inj null) (dumped item)
      · rename_i other _ same
        rw [← Option.some.inj same, reads item]
        rfl

theorem readTable_dumpTable (table : KeyedTable String Json) :
    readTable (dumpTable table) = some table :=
  congrArg some table.ofList_entries

theorem readReason_of_listed (reason : Option String)
    (listed : ∀ text, reason = some text → text ∈ finishedReasons) :
    readReason reason = some reason := by
  cases reason with
  | none => rfl
  | some text => exact if_pos (listed text rfl)

theorem validateRoleContent_of_wellFormed {message : Msg} (wellFormed : message.WellFormed) :
    message.validateRoleContent = some message := by
  unfold Msg.validateRoleContent
  have tokens : (message.token.isNone || decide (message.role = .assistant)) = true := by
    rcases wellFormed.tokens with none | assistant
    · rw [none]
      rfl
    · rw [assistant, decide_eq_true rfl, Bool.or_true]
  rw [List.all_eq_true.mpr wellFormed.roles, tokens]
  rfl

theorem msg_modelValidate (message : Msg) (wellFormed : message.WellFormed) :
    ∃ read, Msg.modelValidate message.modelDump = some read ∧
      read.modelDump = message.modelDump ∧ read.WellFormed := by
  obtain ⟨content, accepted, sameDump, sameType, shaped⟩ :=
    contentBlocks_modelValidate message.content wellFormed.shaped
  have roles : ∀ type ∈ content.map ContentBlock.type, message.role.allows type = true := by
    rw [sameType]
    exact wellFormed.roles
  refine ⟨{ message with content := content }, ?_, ?_, ?_⟩
  · have name : (stringField message.modelDump "name").bind MsgName.ofValue =
        some message.name := by
      change MsgName.ofValue message.name.value = _
      cases message.name <;> rfl
    have blocks : ((message.modelDump.get? "content").bind Json.asArray?).bind (fun items =>
        items.mapM ContentBlock.modelValidate) = some content := accepted
    have role : (stringField message.modelDump "role").bind Role.ofValue = some message.role := by
      change Role.ofValue message.role.value = _
      cases message.role <;> rfl
    have id : stringField message.modelDump "id" = some message.id := rfl
    have metadata : tableField message.modelDump "metadata" = some message.metadata :=
      tableField_of_get rfl
    have createdAt : stringField message.modelDump "created_at" = some message.createdAt := rfl
    have seq : intField message.modelDump "seq" = some message.seq := rfl
    have token : nullableField MsgToken.modelValidate message.modelDump "token" =
        some message.token :=
      nullableField_of_get rfl (fun _ => rfl) nofun
    have finishedAt : optionalField message.modelDump "finished_at" = some message.finishedAt :=
      asOptionString_optionJson message.finishedAt
    have finishedReason : (optionalField message.modelDump "finished_reason").bind readReason =
        some message.finishedReason := by
      change ((optionJson message.finishedReason).asOptionString?).bind readReason = _
      rw [asOptionString_optionJson]
      exact readReason_of_listed message.finishedReason wellFormed.reasons
    have structuredOutput : nullableField readTable message.modelDump "structured_output" =
        some message.structuredOutput :=
      nullableField_of_get rfl readTable_dumpTable nofun
    have error : nullableField readTable message.modelDump "error" = some message.error :=
      nullableField_of_get rfl readTable_dumpTable nofun
    unfold Msg.modelValidate
    rw [name, blocks, role, id, metadata, createdAt, seq, token, finishedAt, finishedReason,
      structuredOutput, error]
    exact validateRoleContent_of_wellFormed
      ⟨roles, wellFormed.tokens, wellFormed.reasons, shaped⟩
  · change Json.object _ = Json.object _
    dsimp only
    rw [sameDump]
  · exact ⟨roles, wellFormed.tokens, wellFormed.reasons, shaped⟩

end Ftre.Message
