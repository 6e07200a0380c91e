import Ftre.Encoding.ToOpenai

/-!
A message as the pieces both encoders cut it into. Cutting does not depend on
the encoder; what a piece becomes does.
-/

namespace Ftre.Encoding

open Lib Message Llm

/-- A run of blocks between results and hints of an assistant message, a result, a
hint, a user or system message, or a compaction summary. `legacy` is the reasoning the
runtime adds from the metadata. -/
inductive Piece where
  | turn (blocks : List ContentBlock) (legacy : Option String)
  | result (block : ToolResultBlock)
  | hint (block : HintBlock)
  | regular (role : Role) (blocks : List ContentBlock) (legacy : Option String)
  | summary (blocks : List ContentBlock) (legacy : Option String)

def segment (legacy : Option String) (pending : List ContentBlock) : List Piece :=
  if pending = [] then [] else [.turn pending legacy]

def leftOver (legacy : Option String) (pending : List ContentBlock) : Option String :=
  if pending = [] then legacy else none

def cut : Option String → List ContentBlock → List ContentBlock → List Piece
  | legacy, pending, [] => segment legacy pending
  | legacy, pending, block :: rest =>
      match block with
      | .toolResult result =>
          segment legacy pending ++ .result result :: cut (leftOver legacy pending) [] rest
      | .hint hint =>
          segment legacy pending ++ .hint hint :: cut (leftOver legacy pending) [] rest
      | other => cut legacy (pending ++ [other]) rest

def piecesOf (message : Msg) : List Piece :=
  if message.name = .compact then [.summary message.content (metadataReasoning message)]
  else if message.role = .assistant then
    if message.content = [] then [.turn [] (metadataReasoning message)]
    else cut (metadataReasoning message) [] message.content
  else [.regular message.role message.content (metadataReasoning message)]

def pieces (history : List Msg) : List Piece := history.flatMap piecesOf

def summaryText (blocks : List ContentBlock) : String :=
  "\n".intercalate ((blocks.filterMap ContentBlock.asText?).map TextBlock.text)

def keepSpeaking (message : ChatMessage) : List ChatMessage :=
  if speaks message then [message] else []

def hostPiece (includeImages : Bool) : Piece → List ChatMessage
  | .turn blocks _ => keepSpeaking (toOpenaiMessage blocks "assistant")
  | .result block => [toolResultMessage block]
  | .hint block => [hintMessage includeImages block]
  | .regular role blocks _ => keepSpeaking (toOpenaiMessage blocks role.value)
  | .summary blocks _ =>
      if summaryText blocks = "" then []
      else [.plain "user" (.text (summaryPrefix ++ summaryText blocks))]

def runtimeHint (block : HintBlock) : ChatMessage :=
  match block.hint with
  | .array _ => toOpenaiMessage [.hint block] "user"
  | text => .plain "user" (.text text.toStr)

def runtimePiece : Piece → ChatMessage
  | .turn blocks legacy => RuntimeExpansion.inject legacy (toOpenaiMessage blocks "assistant")
  | .result block => toOpenaiMessage [.toolResult block] "tool"
  | .hint block => runtimeHint block
  | .regular role blocks legacy =>
      RuntimeExpansion.inject legacy (toOpenaiMessage blocks role.value)
  | .summary blocks legacy => RuntimeExpansion.inject legacy (toOpenaiMessage blocks "user")

def OutputPart.isData : OutputPart → Bool
  | .data _ => true
  | _ => false

def textItem (item : Json) : Prop := ∃ text, item.get? "text" = some (.str text)

def plainHint (hint : Json) : Prop :=
  (∃ text, hint = .str text) ∨
    ∃ items, hint = .array items ∧ ∀ item ∈ items, isTextItem item = true ∧ textItem item

def plainOutput : ToolOutput → Prop
  | .plain _ => True
  | .parts items => ∀ item ∈ items, OutputPart.isData item = false ∧
      ∀ value, item = .other value → isTextItem value = true → textItem value

def plainBlock : ContentBlock → Prop
  | .data _ => False
  | .hint block => plainHint block.hint
  | .toolResult block => plainOutput block.output
  | _ => True

/-- Messages as they are validated, images aside; a summary is a user message of one text. -/
structure Encodable (message : Msg) : Prop where
  allowed : ∀ block ∈ message.content, message.role.allows block.type = true
  plain : ∀ block ∈ message.content, plainBlock block
  summary : message.name = .compact →
    message.role = .user ∧ ∃ text, message.content = [.text text]

/-! ### Both encoders cut alike -/

def bare (message : ChatMessage) : ChatMessage := { message with responsesOutputItems := none }

private theorem bare_toOpenai (blocks : List ContentBlock) (role : String) :
    bare (toOpenaiMessage blocks role) = toOpenaiMessage blocks role := by
  rw [toOpenaiMessage]
  by_cases tool : role = "tool"
  · simp only [if_pos tool]
    rw [toolMessage]
    split <;> rfl
  · simp only [if_neg tool]
    rfl

variable (legacy : Option String) (includeImages : Bool)

private theorem bare_inject (message : ChatMessage) :
    bare (RuntimeExpansion.inject legacy message) =
      RuntimeExpansion.inject legacy (bare message) := by
  cases legacy with
  | none => rfl
  | some text =>
      simp only [RuntimeExpansion.inject]
      by_cases silent : message.reasoningContent.getD "" = ""
      · rw [if_pos silent, if_pos (by exact silent)]
        rfl
      · rw [if_neg silent, if_neg (by exact silent)]

private theorem host_flush (groups : List Json) (legacy : Option String) (state : HostExpansion) :
    (state.flush groups).output.map bare =
        state.output.map bare ++
          (segment legacy state.pending).flatMap (hostPiece includeImages) ∧
      (state.flush groups).pending = [] := by
  rw [HostExpansion.flush, segment]
  by_cases none_pending : state.pending = []
  · rw [if_pos none_pending, if_pos none_pending]
    exact ⟨(List.append_nil _).symm, none_pending⟩
  · simp only [if_neg none_pending, List.flatMap_cons, List.flatMap_nil, List.append_nil,
      hostPiece, keepSpeaking]
    by_cases speaking : speaks (toOpenaiMessage state.pending "assistant") = true
    · simp only [if_pos speaking, List.map_append]
      refine ⟨congrArg (state.output.map bare ++ ·) ?_, trivial⟩
      exact congrArg (fun message => [message]) (bare_toOpenai state.pending "assistant")
    · simp only [if_neg speaking, List.append_nil]
      exact ⟨trivial, trivial⟩

private theorem bare_hint (block : HintBlock) :
    bare (hintMessage includeImages block) = hintMessage includeImages block := by
  rw [hintMessage]
  split <;> rfl

private theorem bare_runtimeHint (block : HintBlock) :
    bare (runtimeHint block) = runtimeHint block := by
  rw [runtimeHint]
  split
  · exact bare_toOpenai _ _
  · rfl

private theorem host_walk (groups : List Json) (content : List ContentBlock)
    (legacy : Option String) (state : HostExpansion) (plain : ∀ block ∈ content, plainBlock block) :
    ((content.foldl (HostExpansion.step includeImages groups) state).flush groups).output.map
        bare =
      state.output.map bare ++
        (cut legacy state.pending content).flatMap (hostPiece includeImages) := by
  induction content generalizing legacy state with
  | nil => exact (host_flush includeImages groups legacy state).1
  | cons block rest ih =>
      have later : ∀ other ∈ rest, plainBlock other :=
        fun other present => plain other (List.mem_cons_of_mem _ present)
      have flushed := host_flush includeImages groups legacy state
      have emitted (message : ChatMessage) (piece : Piece)
          (own : hostPiece includeImages piece = [bare message]) :
          ((rest.foldl (HostExpansion.step includeImages groups)
              ((state.flush groups).emit message)).flush groups).output.map bare =
            state.output.map bare ++ (segment legacy state.pending ++
              piece :: cut (leftOver legacy state.pending) [] rest).flatMap
                (hostPiece includeImages) := by
        have same : ((state.flush groups).emit message).pending = [] := flushed.2
        have step := ih (leftOver legacy state.pending) ((state.flush groups).emit message) later
        rw [same] at step
        rw [step, HostExpansion.emit, List.map_append, flushed.1, List.flatMap_append,
          List.flatMap_cons, own]
        simp only [List.append_assoc, List.map_cons, List.map_nil]
      have pended (other : ContentBlock) :
          ((rest.foldl (HostExpansion.step includeImages groups)
              { state with pending := state.pending ++ [other] }).flush groups).output.map bare =
            state.output.map bare ++
              (cut legacy (state.pending ++ [other]) rest).flatMap (hostPiece includeImages) :=
        ih legacy { state with pending := state.pending ++ [other] } later
      cases block with
      | toolResult result => exact emitted (toolResultMessage result) (.result result) rfl
      | hint hint =>
          exact emitted (hintMessage includeImages hint) (.hint hint)
            (by rw [bare_hint]; rfl)
      | data data => exact False.elim (plain (.data data) List.mem_cons_self)
      | text own => exact pended (.text own)
      | thinking own => exact pended (.thinking own)
      | toolCall own => exact pended (.toolCall own)
      | extension own => exact pended (.extension own)

private theorem runtime_flush (groups : List Json) (state : RuntimeExpansion) :
    (state.flushAssistant "assistant" groups).messages.map bare =
        state.messages.map bare ++ (segment state.reasoning state.blocks).map runtimePiece ∧
      (state.flushAssistant "assistant" groups).blocks = [] ∧
      (state.flushAssistant "assistant" groups).reasoning =
        leftOver state.reasoning state.blocks := by
  rw [RuntimeExpansion.flushAssistant, segment, leftOver]
  by_cases none_pending : state.blocks = []
  · simp only [if_pos none_pending]
    exact ⟨(List.append_nil _).symm, none_pending, trivial⟩
  · simp only [if_neg none_pending, List.map_append]
    refine ⟨congrArg (state.messages.map bare ++ ·) ?_, trivial, trivial⟩
    have encoded := bare_inject state.reasoning (toOpenaiMessage state.blocks "assistant")
    rw [bare_toOpenai] at encoded
    exact congrArg (fun message => [message]) encoded

private theorem runtime_walk (groups : List Json) (content : List ContentBlock)
    (state : RuntimeExpansion) :
    ((content.foldl (RuntimeExpansion.step "assistant" groups) state).flushAssistant "assistant"
        groups).messages.map bare =
      state.messages.map bare ++
        (cut state.reasoning state.blocks content).map runtimePiece := by
  induction content generalizing state with
  | nil => exact (runtime_flush groups state).1
  | cons block rest ih =>
      obtain ⟨flushed, emptied, remaining⟩ := runtime_flush groups state
      have emitted (message : ChatMessage) (piece : Piece)
          (own : runtimePiece piece = bare message) :
          ((rest.foldl (RuntimeExpansion.step "assistant" groups)
              ((state.flushAssistant "assistant" groups).emit message)).flushAssistant "assistant"
                groups).messages.map bare =
            state.messages.map bare ++ (segment state.reasoning state.blocks ++
              piece :: cut (leftOver state.reasoning state.blocks) [] rest).map runtimePiece := by
        have step := ih ((state.flushAssistant "assistant" groups).emit message)
        rw [step, RuntimeExpansion.emit, List.map_append, flushed, emptied, remaining]
        simp only [List.append_assoc, List.map_append, List.map_cons, List.map_nil,
          List.cons_append, List.nil_append, own]
      have pended (other : ContentBlock) :=
        ih { state with blocks := state.blocks ++ [other] }
      cases block with
      | toolResult result =>
          exact emitted (toOpenaiMessage [.toolResult result] "tool") (.result result)
            (bare_toOpenai _ _).symm
      | hint hint =>
          exact emitted (runtimeHint hint) (.hint hint) (bare_runtimeHint hint).symm
      | data own => exact pended (.data own)
      | text own => exact pended (.text own)
      | thinking own => exact pended (.thinking own)
      | toolCall own => exact pended (.toolCall own)
      | extension own => exact pended (.extension own)

private theorem getTextContent_summaryText (message : Msg) :
    message.getTextContent.getD "" = summaryText message.content := by
  rw [Msg.getTextContent, summaryText]
  cases message.content.filterMap ContentBlock.asText? with
  | nil => rfl
  | cons block rest => rfl

private theorem no_images {content : List ContentBlock}
    (plain : ∀ block ∈ content, plainBlock block) :
    content.filter (fun block => decide (block.type = "data")) = [] := by
  refine List.filter_eq_nil_iff.mpr fun block present => ?_
  have own := plain block present
  cases block with
  | data data => exact False.elim own
  | _ => simp [ContentBlock.type]

theorem hostMessages_pieces {message : Msg} (encodable : Encodable message) :
    (hostMessages includeImages message).map bare =
      (piecesOf message).flatMap (hostPiece includeImages) := by
  rw [hostMessages, piecesOf]
  by_cases compact : message.name = .compact
  · simp only [if_pos compact, getTextContent_summaryText, List.flatMap_cons, List.flatMap_nil,
      hostPiece, List.append_nil]
    split <;> rfl
  rw [if_neg compact, if_neg compact]
  by_cases assistant : message.role = .assistant
  · rw [if_pos assistant, if_pos assistant, assistantMessages]
    by_cases empty : message.content = []
    · rw [if_pos empty, empty]
      rfl
    · rw [if_neg empty, host_walk includeImages (itemGroups message) message.content
        (metadataReasoning message) .start encodable.plain]
      rfl
  · rw [if_neg assistant, if_neg assistant, regularMessage, no_images encodable.plain]
    simp only [List.isEmpty_nil, Bool.or_true, if_true, List.flatMap_cons, List.flatMap_nil,
      hostPiece, keepSpeaking, List.append_nil]
    by_cases speaking : speaks (toOpenaiMessage message.content message.role.value) = true
    · rw [if_pos speaking, if_pos speaking]
      exact congrArg (fun encoded => [encoded]) (bare_toOpenai _ _)
    · rw [if_neg speaking, if_neg speaking]
      rfl

theorem toOpenai_pieces {history : List Msg} (encodable : ∀ message ∈ history, Encodable message) :
    (toOpenai includeImages history).map bare =
      (pieces history).flatMap (hostPiece includeImages) := by
  induction history with
  | nil => rfl
  | cons message rest ih =>
      rw [toOpenai, pieces, List.flatMap_cons, List.flatMap_cons, List.map_append,
        List.flatMap_append, hostMessages_pieces includeImages
          (encodable message List.mem_cons_self)]
      exact congrArg _ (ih fun other later => encodable other (List.mem_cons_of_mem _ later))

private theorem cut_nonempty (pending content : List ContentBlock)
    (something : pending ≠ [] ∨ content ≠ []) : cut legacy pending content ≠ [] := by
  induction content generalizing legacy pending with
  | nil =>
      have waiting : pending ≠ [] := something.resolve_right fun claimed => claimed rfl
      rw [cut, segment, if_neg waiting]
      exact List.cons_ne_nil _ _
  | cons block rest ih =>
      cases block with
      | toolResult result => simp [cut]
      | hint hint => simp [cut]
      | _ => exact ih legacy _ (Or.inl (by simp))

private theorem runtime_run (role : String) (groups : List Json) (content : List ContentBlock)
    (state : RuntimeExpansion)
    (whole : ∀ block ∈ content, block.type ≠ "tool_result" ∧ block.type ≠ "hint") :
    content.foldl (RuntimeExpansion.step role groups) state =
      { state with blocks := state.blocks ++ content } := by
  induction content generalizing state with
  | nil => simp
  | cons block rest ih =>
      have own := whole block List.mem_cons_self
      have step : RuntimeExpansion.step role groups state block =
          { state with blocks := state.blocks ++ [block] } := by
        cases block with
        | toolResult result => exact absurd rfl own.1
        | hint hint => exact absurd rfl own.2
        | _ => rfl
      rw [List.foldl_cons, step, ih _ fun other later => whole other (List.mem_cons_of_mem _ later)]
      simp

private theorem user_run {message : Msg} (encodable : Encodable message)
    (other : message.role ≠ .assistant) :
    (msgToDicts message).map bare =
      [RuntimeExpansion.inject (metadataReasoning message)
        (toOpenaiMessage message.content message.role.value)] := by
  have whole : ∀ block ∈ message.content, block.type ≠ "tool_result" ∧ block.type ≠ "hint" := by
    intro block present
    have allowed := encodable.allowed block present
    cases role : message.role with
    | assistant => exact absurd role other
    | user =>
        rw [role] at allowed
        constructor <;> intro same <;> rw [same] at allowed <;> exact absurd allowed (by decide)
    | system =>
        rw [role] at allowed
        constructor <;> intro same <;> rw [same] at allowed <;> exact absurd allowed (by decide)
  have encoded := bare_inject (metadataReasoning message)
    (toOpenaiMessage message.content message.role.value)
  rw [bare_toOpenai] at encoded
  simp only [msgToDicts]
  rw [runtime_run _ _ _ _ whole, RuntimeExpansion.flushAssistant]
  by_cases empty : message.content = []
  · simp only [empty, List.append_nil, if_true]
    rw [empty] at encoded
    exact congrArg (fun only => [only]) encoded
  · simp only [List.nil_append, if_neg empty, List.cons_ne_nil, if_false]
    exact congrArg (fun only => [only]) encoded

theorem msgToDicts_pieces {message : Msg} (encodable : Encodable message) :
    (msgToDicts message).map bare = (piecesOf message).map runtimePiece := by
  rw [piecesOf]
  by_cases compact : message.name = .compact
  · have user := (encodable.summary compact).1
    rw [if_pos compact, user_run encodable (by rw [user]; decide), user]
    rfl
  rw [if_neg compact]
  by_cases assistant : message.role = .assistant
  · have role : message.role.value = "assistant" := by
      rw [assistant]
      rfl
    rw [if_pos assistant]
    by_cases empty : message.content = []
    · have encoded := bare_inject (metadataReasoning message) (toOpenaiMessage [] "assistant")
      rw [bare_toOpenai] at encoded
      rw [if_pos empty, msgToDicts, empty, role]
      exact congrArg (fun only => [only]) encoded
    · have walked := runtime_walk (itemGroups message) message.content
        { messages := [], blocks := [], reasoning := metadataReasoning message, groupUsed := 0 }
      rw [← role] at walked
      rw [if_neg empty, msgToDicts, if_neg, walked]
      · rfl
      · intro silent
        rw [silent] at walked
        exact cut_nonempty _ [] message.content (Or.inr empty)
          (List.map_eq_nil_iff.mp walked.symm)
  · rw [if_neg assistant, user_run encodable assistant]
    rfl

theorem contextMessages_pieces {history : List Msg}
    (encodable : ∀ message ∈ history, Encodable message) :
    (contextMessages history).map bare = (pieces history).map runtimePiece := by
  induction history with
  | nil => rfl
  | cons message rest ih =>
      rw [contextMessages, pieces, List.flatMap_cons, List.flatMap_cons, List.map_append,
        List.map_append, msgToDicts_pieces (encodable message List.mem_cons_self)]
      exact congrArg _ (ih fun other later => encodable other (List.mem_cons_of_mem _ later))

end Ftre.Encoding
