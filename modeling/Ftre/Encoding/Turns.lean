import Ftre.Encoding.Texts

/-!
Turns on both sides, and the condition on a list of pieces: no summary, empty message
or list of several texts, and no silent part between calls and their results.
-/

namespace Ftre.Encoding

open Lib Message Llm

/-! ### Turns -/

def callsOf (blocks : List ContentBlock) : List ToolCallEntry := blocks.filterMap toolCallEntry?

def callIds (blocks : List ContentBlock) : List String :=
  blocks.filterMap fun block => block.asToolCall?.map ToolCallBlock.id

def isShown (block : ContentBlock) : Bool := (contentPart? block).isSome

def thought (blocks : List ContentBlock) : String := "\n".intercalate (blocks.filterMap thinking?)

def Blank (blocks : List ContentBlock) : Prop :=
  (∀ block ∈ blocks, isShown block = false) ∧ callIds blocks = [] ∧ thought blocks = ""

instance (blocks : List ContentBlock) : Decidable (Blank blocks) :=
  inferInstanceAs (Decidable (_ ∧ _ ∧ _))

def Sayable (blocks : List ContentBlock) : Prop :=
  (∃ block ∈ blocks, isShown block = true) ∨ thought blocks ≠ ""

theorem callsOf_eq_nil (blocks : List ContentBlock) :
    callsOf blocks = [] ↔ callIds blocks = [] := by
  rw [callsOf, callIds, List.filterMap_eq_nil_iff, List.filterMap_eq_nil_iff]
  refine forall₂_congr fun block _present => ?_
  cases block <;> simp [ toolCallEntry?, ContentBlock.asToolCall?]

private theorem turn_content (blocks : List ContentBlock) :
    (toOpenaiMessage blocks "assistant").content =
      if blocks.filterMap contentPart? = [] then .text ""
      else .parts (blocks.filterMap contentPart?) := rfl

theorem turn_calls (blocks : List ContentBlock) :
    (toOpenaiMessage blocks "assistant").calls = callsOf blocks := by
  have own : (toOpenaiMessage blocks "assistant").toolCalls =
      if callsOf blocks = [] then none else some (callsOf blocks) := rfl
  rw [ChatMessage.calls, own]
  by_cases none_called : callsOf blocks = []
  · rw [if_pos none_called, none_called]
    rfl
  · rw [if_neg none_called]
    rfl

theorem shown_iff (blocks : List ContentBlock) :
    (toOpenaiMessage blocks "assistant").content.truthy = true ↔
      ∃ block ∈ blocks, isShown block = true := by
  rw [turn_content]
  by_cases silent : blocks.filterMap contentPart? = []
  · rw [if_pos silent]
    refine ⟨fun impossible => absurd impossible (by decide), ?_⟩
    rintro ⟨block, present, shown⟩
    rw [isShown, List.filterMap_eq_nil_iff.mp silent block present] at shown
    cases shown
  · rw [if_neg silent]
    refine ⟨fun _some => ?_, fun _some => by simpa [ChatContent.truthy] using silent⟩
    by_contra nothing
    refine silent (List.filterMap_eq_nil_iff.mpr fun block present => ?_)
    cases part : contentPart? block with
    | none => rfl
    | some value =>
        exact absurd ⟨block, present, by rw [isShown, part]; rfl⟩ nothing

private theorem speaks_iff (blocks : List ContentBlock) :
    speaks (toOpenaiMessage blocks "assistant") = true ↔ ¬ Blank blocks := by
  have reasoning : (toOpenaiMessage blocks "assistant").reasoningContent.getD "" =
      thought blocks := rfl
  have shown := shown_iff blocks
  rw [speaks, Bool.or_eq_true, Bool.or_eq_true, shown, turn_calls, reasoning, Blank,
    ← callsOf_eq_nil]
  simp only [decide_eq_true_eq, Bool.not_eq_true', List.isEmpty_eq_false_iff, ne_eq]
  constructor
  · rintro ((⟨block, present, own⟩ | called) | thinks) blank
    · exact absurd (blank.1 block present) (by simp [own])
    · exact called blank.2.1
    · exact thinks blank.2.2
  · intro heard
    by_contra nothing
    push Not at nothing
    refine heard ⟨fun block present => ?_, nothing.1.2, nothing.2⟩
    exact Bool.eq_false_iff.mpr (nothing.1.1 block present)

theorem inject_fields (legacy : Option String) (message : ChatMessage) :
    (RuntimeExpansion.inject legacy message).role = message.role ∧
      (RuntimeExpansion.inject legacy message).content = message.content ∧
      (RuntimeExpansion.inject legacy message).calls = message.calls := by
  cases legacy with
  | none => exact ⟨rfl, rfl, rfl⟩
  | some text =>
      simp only [RuntimeExpansion.inject]
      split <;> exact ⟨rfl, rfl, rfl⟩

theorem turn_alike (blocks : List ContentBlock) (legacy : Option String) :
    Alike (toOpenaiMessage blocks "assistant") (runtimePiece (.turn blocks legacy)) := by
  obtain ⟨role, content, calls⟩ := inject_fields legacy (toOpenaiMessage blocks "assistant")
  exact
    { left := rfl
      right := decide_eq_true role
      content := content.symm
      calls := calls.symm }

theorem turn_emptied {message : ChatMessage} (blocks : List ContentBlock)
    (content : message.content = (toOpenaiMessage blocks "assistant").content) :
    message.normalizeAssistantContent = message := by
  rw [ChatMessage.normalizeAssistantContent, content, turn_content]
  by_cases silent : blocks.filterMap contentPart? = []
  · rw [if_pos silent]
    rw [turn_content, if_pos silent] at content
    split
    · rw [← content]
    · rfl
  · rw [if_neg silent, if_neg (by simpa [ChatContent.isEmpty] using silent)]

def LegacyUnheard (preserve : Bool) (blocks : List ContentBlock) (legacy : Option String) : Prop :=
  preserve = false ∨ legacy = none ∨ Sayable blocks

theorem turn_payload {preserve : Bool} {blocks : List ContentBlock}
    {legacy : Option String} (unheard : LegacyUnheard preserve blocks legacy) :
    (toOpenaiMessage blocks "assistant").hasAssistantPayload preserve =
      (runtimePiece (.turn blocks legacy)).hasAssistantPayload preserve := by
  have content := (inject_fields legacy (toOpenaiMessage blocks "assistant")).2.1
  have reasoning : (toOpenaiMessage blocks "assistant").reasoningContent.getD "" =
      thought blocks := rfl
  rw [ChatMessage.hasAssistantPayload, ChatMessage.hasAssistantPayload, runtimePiece, content]
  rcases unheard with dropped | absent | shown | thinks
  · subst dropped
    rfl
  · subst absent
    rfl
  · rw [(shown_iff blocks).mpr shown]
    rfl
  · cases legacy with
    | none => rfl
    | some text =>
        rw [RuntimeExpansion.inject, if_neg (by rw [reasoning]; exact thinks)]

def Answered (blocks : List ContentBlock) (results : List ToolResultBlock) : Prop :=
  (callIds blocks).Nodup ∧ (∀ id ∈ callIds blocks, id ≠ "") ∧
    (results.map ToolResultBlock.id).Perm (callIds blocks)

instance (blocks : List ContentBlock) (results : List ToolResultBlock) :
    Decidable (Answered blocks results) :=
  inferInstanceAs (Decidable (_ ∧ _ ∧ _))

private theorem callsOf_ids (blocks : List ContentBlock) :
    (callsOf blocks).map ToolCallEntry.callId? =
      (callIds blocks).map fun id => if id = "" then none else some id := by
  induction blocks with
  | nil => rfl
  | cons block rest ih =>
      cases block with
      | toolCall call =>
          have entry : callsOf (.toolCall call :: rest) =
              .call (some call.id) call.name (Json.object call.arguments.entries).encode ::
                callsOf rest := rfl
          have ids : callIds (.toolCall call :: rest) = call.id :: callIds rest := rfl
          rw [entry, ids, List.map_cons, List.map_cons, ih]
          rfl
      | text own => exact ih
      | thinking own => exact ih
      | data own => exact ih
      | hint own => exact ih
      | toolResult own => exact ih
      | extension own => exact ih

theorem answered_iff (blocks : List ContentBlock) (results : List ToolResultBlock)
    {messages : List ChatMessage}
    (named : messages.map ChatMessage.toolCallId = results.map fun result => some result.id) :
    completePair (callsOf blocks) messages = true ↔ Answered blocks results := by
  have listed : (results.map fun result => some result.id) =
      (results.map ToolResultBlock.id).map some := by
    rw [List.map_map]
    rfl
  rw [completePair_iff, callsOf_ids, named, listed]
  constructor
  · rintro ⟨ids, identified, distinct, complete⟩
    have nonempty : ∀ id ∈ callIds blocks, id ≠ "" := by
      intro id asked blank
      have found : (none : Option String) ∈ ids.map some :=
        identified ▸ List.mem_map.mpr ⟨id, asked, if_pos blank⟩
      obtain ⟨other, _present, impossible⟩ := List.mem_map.mp found
      cases impossible
    have same : callIds blocks = ids := by
      have plain : (callIds blocks).map (fun id => if id = "" then none else some id) =
          (callIds blocks).map some :=
        List.map_congr_left fun id asked => if_neg (nonempty id asked)
      exact List.map_injective_iff.mpr (Option.some_injective String) (plain.symm.trans identified)
    rw [← same] at distinct complete
    exact ⟨distinct, nonempty,
      (List.map_perm_map_iff (Option.some_injective String)).mp complete⟩
  · rintro ⟨distinct, nonempty, complete⟩
    exact ⟨callIds blocks, List.map_congr_left fun id asked => if_neg (nonempty id asked),
      distinct, complete.map some⟩

def resultsBehind : List Piece → List ToolResultBlock
  | .result block :: rest => block :: resultsBehind rest
  | _ => []

def resultsPast : List Piece → List ToolResultBlock
  | .result block :: rest => block :: resultsPast rest
  | .turn blocks _ :: rest => if Blank blocks then resultsPast rest else []
  | _ => []

def CallsAgree (preserve : Bool) (blocks : List ContentBlock) (legacy : Option String)
    (rest : List Piece) : Prop :=
  (Answered blocks (resultsBehind rest) ∧ Answered blocks (resultsPast rest) ∧
      ∀ result ∈ resultsBehind rest, OneChunk result.output) ∨
    (¬ Answered blocks (resultsBehind rest) ∧ ¬ Answered blocks (resultsPast rest) ∧
      LegacyUnheard preserve blocks legacy)

def PieceAgrees (preserve : Bool) (rest : List Piece) : Piece → Prop
  | .turn blocks legacy =>
      (Blank blocks → LegacyUnheard preserve blocks legacy) ∧
        (callIds blocks ≠ [] → CallsAgree preserve blocks legacy rest)
  | .result _ => True
  | .hint block => OneText block.hint
  | .regular _ blocks _ => blocks ≠ []
  | .summary _ _ => False

def Agreeable (preserve : Bool) : List Piece → Prop
  | [] => True
  | piece :: rest => PieceAgrees preserve rest piece ∧ Agreeable preserve rest

def PlainPiece : Piece → Prop
  | .turn _ _ => True
  | .result block => plainOutput block.output
  | .hint block => plainHint block.hint
  | .regular role blocks _ => role ≠ .assistant ∧ ∀ block ∈ blocks, isShown block = true
  | .summary blocks _ => ∃ text, blocks = [.text text]

private theorem cut_plain (legacy : Option String) (pending content : List ContentBlock)
    (plain : ∀ block ∈ content, plainBlock block) :
    ∀ piece ∈ cut legacy pending content, PlainPiece piece := by
  have segmented (legacy : Option String) (pending : List ContentBlock) :
      ∀ piece ∈ segment legacy pending, PlainPiece piece := by
    intro piece present
    rw [segment] at present
    split at present
    · cases present
    · exact (List.mem_singleton.mp present) ▸ trivial
  induction content generalizing legacy pending with
  | nil => exact segmented legacy pending
  | cons block rest ih =>
      have later : ∀ other ∈ rest, plainBlock other :=
        fun other present => plain other (List.mem_cons_of_mem _ present)
      have own := plain block List.mem_cons_self
      intro piece present
      cases block with
      | toolResult result =>
          rcases List.mem_append.mp present with early | late
          · exact segmented legacy pending piece early
          · rcases List.mem_cons.mp late with same | behind
            · exact same ▸ own
            · exact ih _ [] later piece behind
      | hint hint =>
          rcases List.mem_append.mp present with early | late
          · exact segmented legacy pending piece early
          · rcases List.mem_cons.mp late with same | behind
            · exact same ▸ own
            · exact ih _ [] later piece behind
      | text own => exact ih legacy _ later piece present
      | thinking own => exact ih legacy _ later piece present
      | data own => exact ih legacy _ later piece present
      | toolCall own => exact ih legacy _ later piece present
      | extension own => exact ih legacy _ later piece present

private theorem shown_of_allowed {role : Role} (other : role ≠ .assistant) {block : ContentBlock}
    (allowed : role.allows block.type = true) : isShown block = true := by
  have refused (type : String) (hidden : type = "thinking" ∨ type = "tool_call") :
      role.allows type = false := by
    cases role with
    | assistant => exact absurd rfl other
    | user => rcases hidden with same | same <;> rw [same] <;> rfl
    | system => rcases hidden with same | same <;> rw [same] <;> rfl
  cases block with
  | thinking own => exact absurd ((refused _ (Or.inl rfl)).symm.trans allowed) Bool.false_ne_true
  | toolCall own => exact absurd ((refused _ (Or.inr rfl)).symm.trans allowed) Bool.false_ne_true
  | _ => rfl

theorem pieces_plain {history : List Msg} (encodable : ∀ message ∈ history, Encodable message) :
    ∀ piece ∈ pieces history, PlainPiece piece := by
  intro piece present
  obtain ⟨message, listed, own⟩ := List.mem_flatMap.mp present
  have known := encodable message listed
  rw [piecesOf] at own
  by_cases compact : message.name = .compact
  · rw [if_pos compact, List.mem_singleton] at own
    exact own ▸ (known.summary compact).2
  rw [if_neg compact] at own
  by_cases assistant : message.role = .assistant
  · rw [if_pos assistant] at own
    split at own
    · exact (List.mem_singleton.mp own) ▸ trivial
    · exact cut_plain _ [] message.content known.plain piece own
  · rw [if_neg assistant, List.mem_singleton] at own
    exact own ▸ ⟨assistant, fun block listed =>
      shown_of_allowed assistant (known.allowed block listed)⟩

/-! ### Following results on both sides -/

def Sent : Piece → Prop
  | .regular _ blocks _ => blocks ≠ []
  | .summary blocks _ => summaryText blocks ≠ ""
  | _ => True

theorem turn_host (blocks : List ContentBlock) :
    keepSpeaking (toOpenaiMessage blocks "assistant") =
      if Blank blocks then [] else [toOpenaiMessage blocks "assistant"] := by
  rw [keepSpeaking]
  by_cases blank : Blank blocks
  · rw [if_pos blank, if_neg fun heard => (speaks_iff blocks).mp heard blank]
  · rw [if_neg blank, if_pos ((speaks_iff blocks).mpr blank)]

theorem regular_other {role : Role} (other : role ≠ .assistant)
    (blocks : List ContentBlock) : isOther (toOpenaiMessage blocks role.value) = true := by
  cases role with
  | assistant => exact absurd rfl other
  | user => rfl
  | system => rfl

theorem regular_host {role : Role} (other : role ≠ .assistant)
    {blocks : List ContentBlock} (shown : ∀ block ∈ blocks, isShown block = true)
    (nonempty : blocks ≠ []) :
    keepSpeaking (toOpenaiMessage blocks role.value) = [toOpenaiMessage blocks role.value] := by
  have parts : blocks.filterMap contentPart? ≠ [] := by
    intro silent
    obtain ⟨block, present⟩ := List.exists_mem_of_ne_nil blocks nonempty
    have own := shown block present
    rw [isShown, List.filterMap_eq_nil_iff.mp silent block present] at own
    cases own
  have content : (toOpenaiMessage blocks role.value).content =
      .parts (blocks.filterMap contentPart?) := by
    have different : role.value ≠ "tool" := by
      cases role <;> decide
    rw [toOpenaiMessage, if_neg different]
    exact if_neg parts
  rw [keepSpeaking, if_pos]
  rw [speaks, content, ChatContent.truthy]
  simp [parts]

theorem hint_other (includeImages : Bool) (block : HintBlock) :
    isOther (hintMessage includeImages block) = true := by
  rw [hintMessage]
  split <;> rfl

theorem runtimeHint_other (block : HintBlock) : isOther (runtimeHint block) = true := by
  rw [runtimeHint]
  split <;> rfl

private theorem takeWhile_other {message : ChatMessage} (rest : List ChatMessage)
    (other : isOther message = true) : (message :: rest).takeWhile ChatMessage.isTool = [] :=
  List.takeWhile_cons_of_neg (by simp [(other_parts other).1])

private theorem runtime_other (piece : Piece) (rest : List ChatMessage)
    (other : isOther (runtimePiece piece) = true) :
    (runtimePiece piece :: rest).takeWhile ChatMessage.isTool = [] :=
  takeWhile_other rest other

theorem inject_other {legacy : Option String} {message : ChatMessage}
    (other : isOther message = true) :
    isOther (RuntimeExpansion.inject legacy message) = true := by
  have role := (inject_fields legacy message).1
  rw [isOther, ChatMessage.isTool, ChatMessage.isAssistant, role]
  exact other

theorem host_following (includeImages : Bool) {pieces : List Piece}
    (plain : ∀ piece ∈ pieces, PlainPiece piece) (sent : ∀ piece ∈ pieces, Sent piece) :
    (pieces.flatMap (hostPiece includeImages)).takeWhile ChatMessage.isTool =
      (resultsPast pieces).map toolResultMessage := by
  induction pieces with
  | nil => rfl
  | cons piece rest ih =>
      have behind := ih (fun other later => plain other (List.mem_cons_of_mem _ later))
        fun other later => sent other (List.mem_cons_of_mem _ later)
      have own := plain piece List.mem_cons_self
      have given := sent piece List.mem_cons_self
      rw [List.flatMap_cons]
      cases piece with
      | result block =>
          refine (List.takeWhile_cons_of_pos (by rfl)).trans ?_
          exact congrArg (toolResultMessage block :: ·) behind
      | turn blocks legacy =>
          rw [hostPiece, turn_host, resultsPast]
          by_cases blank : Blank blocks
          · rw [if_pos blank, if_pos blank]
            exact behind
          · rw [if_neg blank, if_neg blank]
            exact List.takeWhile_cons_of_neg
              (by simp [tool_of_assistant (turn_alike blocks legacy).left])
      | hint block => exact takeWhile_other _ (hint_other includeImages block)
      | regular role blocks legacy =>
          rw [hostPiece, regular_host own.1 own.2 given]
          exact takeWhile_other _ (regular_other own.1 blocks)
      | summary blocks legacy =>
          rw [hostPiece, if_neg given]
          exact takeWhile_other _ rfl

theorem runtime_following {pieces : List Piece} (plain : ∀ piece ∈ pieces, PlainPiece piece) :
    (pieces.map runtimePiece).takeWhile ChatMessage.isTool =
      (resultsBehind pieces).map fun block => toOpenaiMessage [.toolResult block] "tool" := by
  induction pieces with
  | nil => rfl
  | cons piece rest ih =>
      have behind := ih fun other later => plain other (List.mem_cons_of_mem _ later)
      have own := plain piece List.mem_cons_self
      rw [List.map_cons]
      cases piece with
      | result block =>
          refine (List.takeWhile_cons_of_pos (by rfl)).trans ?_
          exact congrArg (toOpenaiMessage [.toolResult block] "tool" :: ·) behind
      | turn blocks legacy =>
          exact List.takeWhile_cons_of_neg
            (by simp [tool_of_assistant (turn_alike blocks legacy).right])
      | hint block => exact runtime_other (.hint block) _ (runtimeHint_other block)
      | regular role blocks legacy =>
          exact runtime_other (.regular role blocks legacy) _
            (inject_other (regular_other own.1 blocks))
      | summary blocks legacy =>
          exact runtime_other (.summary blocks legacy) _ (inject_other rfl)

end Ftre.Encoding
