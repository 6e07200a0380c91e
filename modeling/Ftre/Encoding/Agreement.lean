import Ftre.Encoding.Turns

/-!
The token estimate is made on the host's messages, the request on the runtime's. Both
read the same when the condition on the pieces holds, and where every turn is heard
only then.
-/

namespace Ftre.Encoding

open Lib Message Llm

/-! ### The condition is enough -/

private theorem sent_of_agreeable {preserve : Bool} {pieces : List Piece}
    (agreeable : Agreeable preserve pieces) : ∀ piece ∈ pieces, Sent piece := by
  induction pieces with
  | nil => exact fun _piece present => absurd present List.not_mem_nil
  | cons head rest ih =>
      intro piece present
      rcases List.mem_cons.mp present with same | later
      · subst same
        cases piece with
        | regular role blocks legacy => exact agreeable.1
        | summary blocks legacy => exact False.elim agreeable.1
        | _ => trivial
      · exact ih agreeable.2 piece later

private theorem host_ids (results : List ToolResultBlock) :
    (results.map toolResultMessage).map ChatMessage.toolCallId =
      results.map fun result => some result.id := by
  rw [List.map_map]
  rfl

private theorem runtime_ids (results : List ToolResultBlock) :
    (results.map fun block => toOpenaiMessage [.toolResult block] "tool").map
        ChatMessage.toolCallId =
      results.map fun result => some result.id := by
  rw [List.map_map]
  rfl

private theorem host_answered (blocks : List ContentBlock) (results : List ToolResultBlock) :
    completePair (callsOf blocks) (results.map toolResultMessage) = true ↔
      Answered blocks results :=
  answered_iff blocks results (host_ids results)

private theorem runtime_answered (blocks : List ContentBlock) (results : List ToolResultBlock) :
    completePair (callsOf blocks)
        (results.map fun block => toOpenaiMessage [.toolResult block] "tool") = true ↔
      Answered blocks results :=
  answered_iff blocks results (runtime_ids results)

private theorem behind_prefix (pieces : List Piece) :
    ∃ more, resultsPast pieces = resultsBehind pieces ++ more := by
  induction pieces with
  | nil => exact ⟨[], rfl⟩
  | cons piece rest ih =>
      cases piece with
      | result block =>
          obtain ⟨more, same⟩ := ih
          exact ⟨more, congrArg (block :: ·) same⟩
      | turn blocks legacy => exact ⟨resultsPast (.turn blocks legacy :: rest), rfl⟩
      | hint block => exact ⟨[], rfl⟩
      | regular role blocks legacy => exact ⟨[], rfl⟩
      | summary blocks legacy => exact ⟨[], rfl⟩

private theorem results_of_answered {blocks : List ContentBlock} {pieces : List Piece}
    (behind : Answered blocks (resultsBehind pieces))
    (past : Answered blocks (resultsPast pieces)) :
    resultsPast pieces = resultsBehind pieces := by
  obtain ⟨more, same⟩ := behind_prefix pieces
  have lengths := (past.2.2.trans behind.2.2.symm).length_eq
  rw [same, List.length_map, List.length_map, List.length_append] at lengths
  have none_more : more = [] := List.length_eq_zero_iff.mp (by omega)
  rw [same, none_more, List.append_nil]

private theorem result_views {results : List ToolResultBlock}
    (plain : ∀ result ∈ results, plainOutput result.output)
    (chunks : ∀ result ∈ results, OneChunk result.output) :
    (results.map toolResultMessage).map view =
      (results.map fun block => toOpenaiMessage [.toolResult block] "tool").map view := by
  rw [List.map_map, List.map_map]
  refine List.map_congr_left fun result present => ?_
  have same := (output_agrees (plain result present)).mpr (chunks result present)
  change view (toolResultMessage result) = view (toOpenaiMessage [.toolResult result] "tool")
  exact congrArg (fun text => (⟨"tool", text, []⟩ : WireView)) same

private theorem behind_plain {pieces : List Piece} (plain : ∀ piece ∈ pieces, PlainPiece piece) :
    ∀ result ∈ resultsBehind pieces, plainOutput result.output := by
  induction pieces with
  | nil => exact fun _result present => absurd present List.not_mem_nil
  | cons piece rest ih =>
      intro result present
      cases piece with
      | result block =>
          rcases List.mem_cons.mp present with same | later
          · exact same ▸ plain (.result block) List.mem_cons_self
          · exact ih (fun other behind => plain other (List.mem_cons_of_mem _ behind)) result later
      | _ => exact absurd present List.not_mem_nil

theorem aligned_of_agreeable (preserve includeImages : Bool) {pieces : List Piece}
    (plain : ∀ piece ∈ pieces, PlainPiece piece) (agreeable : Agreeable preserve pieces) :
    Aligned preserve (pieces.flatMap (hostPiece includeImages)) (pieces.map runtimePiece) := by
  induction pieces with
  | nil => exact .nil
  | cons piece rest ih =>
      have later : ∀ other ∈ rest, PlainPiece other :=
        fun other present => plain other (List.mem_cons_of_mem _ present)
      have own := plain piece List.mem_cons_self
      have behind := ih later agreeable.2
      have condition := agreeable.1
      rw [List.flatMap_cons, List.map_cons]
      cases piece with
      | result block => exact .tool rfl rfl behind
      | hint block =>
          exact .other (hint_other includeImages block)
            ((hint_agrees includeImages own).mpr condition) behind
      | summary blocks legacy => exact False.elim condition
      | regular role blocks legacy =>
          obtain ⟨sameRole, sameContent, sameCalls⟩ :=
            inject_fields legacy (toOpenaiMessage blocks role.value)
          rw [hostPiece, regular_host own.1 own.2 condition]
          refine .other (regular_other own.1 blocks) ?_ behind
          rw [view, view, runtimePiece, sameRole, sameContent, sameCalls]
      | turn blocks legacy =>
          have alike := turn_alike blocks legacy
          have hostSettled := @turn_emptied (toOpenaiMessage blocks "assistant") blocks rfl
          have runtimeSettled := turn_emptied blocks alike.content.symm
          rw [hostPiece, turn_host]
          by_cases blank : Blank blocks
          · rw [if_pos blank]
            have payload := turn_payload (condition.1 blank)
            refine .silent alike.right ?_ ?_ behind
            · rw [← alike.calls, turn_calls]
              exact (callsOf_eq_nil blocks).mpr blank.2.1
            · have unheard : (toOpenaiMessage blocks "assistant").hasAssistantPayload preserve =
                  false := by
                have hidden : (toOpenaiMessage blocks "assistant").content.truthy = false := by
                  refine Bool.eq_false_iff.mpr fun shown => ?_
                  obtain ⟨block, present, visible⟩ := (shown_iff blocks).mp shown
                  exact absurd visible (by simp [blank.1 block present])
                have silent : (toOpenaiMessage blocks "assistant").reasoningContent.getD "" = "" :=
                  blank.2.2
                rw [ChatMessage.hasAssistantPayload, hidden, silent]
                simp
              rw [runtimeSettled, keepPayload, if_neg (by rw [← payload, unheard]; decide)]
          · rw [if_neg blank, List.singleton_append]
            by_cases asks : callIds blocks = []
            · have heard : Sayable blocks := by
                by_contra unsaid
                rw [Sayable, not_or] at unsaid
                refine blank ⟨fun block present => ?_, asks, not_not.mp unsaid.2⟩
                exact Bool.eq_false_iff.mpr fun shown => unsaid.1 ⟨block, present, shown⟩
              refine .quiet alike ?_ ?_ behind
              · rw [turn_calls]
                exact (callsOf_eq_nil blocks).mpr asks
              · rw [hostSettled, runtimeSettled]
                exact turn_payload (Or.inr (Or.inr heard))
            · have calls : (toOpenaiMessage blocks "assistant").calls ≠ [] := by
                rw [turn_calls]
                exact fun none_called => asks ((callsOf_eq_nil blocks).mp none_called)
              have hostBehind := host_following includeImages later (sent_of_agreeable agreeable.2)
              have runtimeBehind := runtime_following later
              rcases condition.2 asks with ⟨answered, past, chunks⟩ | ⟨open_, past, unheard⟩
              · refine .group alike calls ?_ ?_ ?_ behind
                · rw [turn_calls, hostBehind]
                  exact (host_answered blocks _).mpr past
                · rw [turn_calls, runtimeBehind]
                  exact (runtime_answered blocks _).mpr answered
                · rw [hostBehind, runtimeBehind, results_of_answered answered past]
                  exact result_views (behind_plain later) chunks
              · refine .untied alike calls ?_ ?_ ?_ behind
                · rw [turn_calls, hostBehind]
                  exact Bool.eq_false_iff.mpr fun complete =>
                    past ((host_answered blocks _).mp complete)
                · rw [turn_calls, runtimeBehind]
                  exact Bool.eq_false_iff.mpr fun complete =>
                    open_ ((runtime_answered blocks _).mp complete)
                · rw [hostSettled, runtimeSettled]
                  exact turn_payload unheard

/-! ### The condition is needed -/

/-- Every turn is heard from the host as well. -/
def Voiced (preserve : Bool) (pieces : List Piece) : Prop :=
  ∀ blocks legacy, .turn blocks legacy ∈ pieces →
    ¬ Blank blocks ∧ LegacyUnheard preserve blocks legacy

private theorem voiced_rest {preserve : Bool} {piece : Piece} {rest : List Piece}
    (voiced : Voiced preserve (piece :: rest)) : Voiced preserve rest :=
  fun blocks legacy present => voiced blocks legacy (List.mem_cons_of_mem _ present)

private theorem past_voiced {preserve : Bool} {pieces : List Piece}
    (voiced : Voiced preserve pieces) : resultsPast pieces = resultsBehind pieces := by
  induction pieces with
  | nil => rfl
  | cons piece rest ih =>
      cases piece with
      | result block => exact congrArg (block :: ·) (ih (voiced_rest voiced))
      | turn blocks legacy =>
          exact if_neg (voiced blocks legacy List.mem_cons_self).1
      | hint block => rfl
      | regular role blocks legacy => rfl
      | summary blocks legacy => rfl

private theorem turn_not_other {message : ChatMessage} (assistant : message.isAssistant = true) :
    ¬ isOther message = true := by
  simp [isOther, assistant]

private theorem piece_others (includeImages : Bool) {piece : Piece} (plain : PlainPiece piece) :
    ((hostPiece includeImages piece).filter isOther).length ≤
        ([runtimePiece piece].filter isOther).length ∧
      (((hostPiece includeImages piece).filter isOther).length =
        ([runtimePiece piece].filter isOther).length → Sent piece) := by
  cases piece with
  | result block => exact ⟨Nat.le_refl _, fun _same => trivial⟩
  | hint block =>
      rw [hostPiece, runtimePiece, List.filter_cons_of_pos (hint_other includeImages block),
        List.filter_cons_of_pos (runtimeHint_other block)]
      exact ⟨Nat.le_refl _, fun _same => trivial⟩
  | turn blocks legacy =>
      have alike := turn_alike blocks legacy
      rw [hostPiece, turn_host, List.filter_cons_of_neg (turn_not_other alike.right)]
      refine ⟨?_, fun _same => trivial⟩
      split
      · exact Nat.le_refl _
      · rw [List.filter_cons_of_neg (turn_not_other alike.left)]
  | regular role blocks legacy =>
      have runtime : isOther (runtimePiece (.regular role blocks legacy)) = true :=
        inject_other (regular_other plain.1 blocks)
      rw [List.filter_cons_of_pos runtime]
      by_cases nonempty : blocks = []
      · subst nonempty
        have silent : hostPiece includeImages (.regular role [] legacy) = [] := by
          cases role with
          | assistant => exact absurd rfl plain.1
          | user => rfl
          | system => rfl
        rw [silent]
        exact ⟨Nat.zero_le _, fun impossible => absurd impossible (by simp)⟩
      · rw [hostPiece, regular_host plain.1 plain.2 nonempty,
          List.filter_cons_of_pos (regular_other plain.1 blocks)]
        exact ⟨Nat.le_refl _, fun _same => nonempty⟩
  | summary blocks legacy =>
      have runtime : isOther (runtimePiece (.summary blocks legacy)) = true := inject_other rfl
      rw [List.filter_cons_of_pos runtime, hostPiece]
      by_cases silent : summaryText blocks = ""
      · rw [if_pos silent]
        exact ⟨Nat.zero_le _, fun impossible => absurd impossible (by simp)⟩
      · rw [if_neg silent]
        exact ⟨Nat.le_refl _, fun _same => silent⟩

private theorem others_le (includeImages : Bool) {pieces : List Piece}
    (plain : ∀ piece ∈ pieces, PlainPiece piece) :
    ((pieces.flatMap (hostPiece includeImages)).filter isOther).length ≤
        ((pieces.map runtimePiece).filter isOther).length ∧
      (((pieces.flatMap (hostPiece includeImages)).filter isOther).length =
        ((pieces.map runtimePiece).filter isOther).length → ∀ piece ∈ pieces, Sent piece) := by
  induction pieces with
  | nil => exact ⟨Nat.le_refl _, fun _same _piece present => absurd present List.not_mem_nil⟩
  | cons piece rest ih =>
      obtain ⟨fewer, all⟩ := ih fun other later => plain other (List.mem_cons_of_mem _ later)
      obtain ⟨own, ownSent⟩ := piece_others includeImages (plain piece List.mem_cons_self)
      rw [List.flatMap_cons, List.map_cons, ← @List.singleton_append _ (runtimePiece piece),
        List.filter_append, List.filter_append, List.length_append, List.length_append]
      refine ⟨by omega, fun same other present => ?_⟩
      rcases List.mem_cons.mp present with head | later
      · exact head ▸ ownSent (by omega)
      · exact all (by omega) other later

private theorem others_of_views {left right : List ChatMessage}
    (same : left.map view = right.map view) :
    (left.filter isOther).length = (right.filter isOther).length := by
  have through (messages : List ChatMessage) :
      (messages.filter isOther).length =
        ((messages.map view).filter fun read =>
          decide (read.role ≠ "tool") && decide (read.role ≠ "assistant")).length := by
    rw [List.filter_map, List.length_map]
    congr 2
    funext message
    simp [isOther, ChatMessage.isTool, ChatMessage.isAssistant, view]
    rfl
  rw [through, through, same]

private theorem chunks_of_views {results : List ToolResultBlock}
    (plain : ∀ result ∈ results, plainOutput result.output)
    (same : (results.map toolResultMessage).map view =
      (results.map fun block => toOpenaiMessage [.toolResult block] "tool").map view) :
    ∀ result ∈ results, OneChunk result.output := by
  intro result present
  rw [List.map_map, List.map_map] at same
  have own := List.map_inj_left.mp same result present
  exact (output_agrees (plain result present)).mp (congrArg WireView.text own)

private theorem turn_of_views (preserve includeImages : Bool) {blocks : List ContentBlock}
    {legacy : Option String} {rest : List Piece} (plain : ∀ piece ∈ rest, PlainPiece piece)
    (voiced : Voiced preserve rest) (sent : ∀ piece ∈ rest, Sent piece) (heard : ¬ Blank blocks)
    (unheard : LegacyUnheard preserve blocks legacy)
    (same : (normalizeChatMessages preserve (toOpenaiMessage blocks "assistant" ::
        rest.flatMap (hostPiece includeImages))).map view =
      (normalizeChatMessages preserve
        (runtimePiece (.turn blocks legacy) :: rest.map runtimePiece)).map view) :
    PieceAgrees preserve rest (.turn blocks legacy) ∧
      (normalizeChatMessages preserve (rest.flatMap (hostPiece includeImages))).map view =
        (normalizeChatMessages preserve (rest.map runtimePiece)).map view := by
  have alike := turn_alike blocks legacy
  have payload := turn_payload unheard
  have hostSettled := @turn_emptied (toOpenaiMessage blocks "assistant") blocks rfl
  have runtimeSettled := turn_emptied blocks alike.content.symm
  have calls := turn_calls blocks
  have runtimeCalls := alike.calls.symm.trans calls
  by_cases asks : callIds blocks = []
  · have quiet := (callsOf_eq_nil blocks).mpr asks
    rw [normalize_quiet preserve _ alike.left (calls.trans quiet),
      normalize_quiet preserve _ alike.right (runtimeCalls.trans quiet), List.map_append,
      List.map_append, keepPayload_view (alike_emptied alike)
        (by rw [hostSettled, runtimeSettled, payload])] at same
    exact ⟨⟨fun blank => absurd blank heard, fun called => absurd asks called⟩,
      List.append_cancel_left same⟩
  · have asking : callsOf blocks ≠ [] := fun none_called => asks ((callsOf_eq_nil blocks).mp none_called)
    have hostBehind := host_following includeImages plain sent
    have runtimeBehind := runtime_following plain
    have past := past_voiced voiced
    rw [past] at hostBehind
    by_cases answered : Answered blocks (resultsBehind rest)
    · have left := (host_answered blocks _).mpr answered
      have right := (runtime_answered blocks _).mpr answered
      rw [← hostBehind, ← calls] at left
      rw [← runtimeBehind, ← runtimeCalls] at right
      rw [normalize_group preserve _ alike.left (calls ▸ asking) left,
        normalize_group preserve _ alike.right (runtimeCalls ▸ asking) right, List.map_cons,
        List.map_cons, List.cons.injEq, List.map_append, List.map_append, hostBehind,
        runtimeBehind] at same
      obtain ⟨results, behind⟩ := List.append_inj same.2 (by simp)
      exact ⟨⟨fun blank => absurd blank heard, fun _called => Or.inl ⟨answered, past ▸ answered,
        chunks_of_views (behind_plain plain) results⟩⟩, behind⟩
    · have left : completePair (toOpenaiMessage blocks "assistant").calls
          ((rest.flatMap (hostPiece includeImages)).takeWhile ChatMessage.isTool) = false := by
        rw [hostBehind, calls]
        exact Bool.eq_false_iff.mpr fun complete => answered ((host_answered blocks _).mp complete)
      have right : completePair (runtimePiece (.turn blocks legacy)).calls
          ((rest.map runtimePiece).takeWhile ChatMessage.isTool) = false := by
        rw [runtimeBehind, runtimeCalls]
        exact Bool.eq_false_iff.mpr fun complete =>
          answered ((runtime_answered blocks _).mp complete)
      rw [normalize_untied preserve _ alike.left (calls ▸ asking) left,
        normalize_untied preserve _ alike.right (runtimeCalls ▸ asking) right, List.map_append,
        List.map_append, keepPayload_view (alike_popped alike)
          (by rw [hostSettled, runtimeSettled]; exact payload)] at same
      exact ⟨⟨fun blank => absurd blank heard, fun _called => Or.inr ⟨answered, past ▸ answered,
        unheard⟩⟩, List.append_cancel_left same⟩

theorem agreeable_of_views (preserve includeImages : Bool) {pieces : List Piece}
    (plain : ∀ piece ∈ pieces, PlainPiece piece) (voiced : Voiced preserve pieces)
    (sent : ∀ piece ∈ pieces, Sent piece)
    (same : (normalizeChatMessages preserve (pieces.flatMap (hostPiece includeImages))).map view =
      (normalizeChatMessages preserve (pieces.map runtimePiece)).map view) :
    Agreeable preserve pieces := by
  induction pieces with
  | nil => trivial
  | cons piece rest ih =>
      have later : ∀ other ∈ rest, PlainPiece other :=
        fun other present => plain other (List.mem_cons_of_mem _ present)
      have sentLater : ∀ other ∈ rest, Sent other :=
        fun other present => sent other (List.mem_cons_of_mem _ present)
      have own := plain piece List.mem_cons_self
      have given := sent piece List.mem_cons_self
      have continue_ := ih later (voiced_rest voiced) sentLater
      rw [List.flatMap_cons, List.map_cons] at same
      cases piece with
      | result block =>
          rw [hostPiece, List.singleton_append, normalize_tool preserve _ rfl,
            normalize_tool preserve _ rfl] at same
          exact ⟨trivial, continue_ same⟩
      | hint block =>
          have left := other_parts (hint_other includeImages block)
          have right := other_parts (runtimeHint_other block)
          rw [hostPiece, List.singleton_append, runtimePiece,
            normalize_other preserve _ left.1 left.2, normalize_other preserve _ right.1 right.2,
            List.map_cons, List.map_cons, List.cons.injEq] at same
          exact ⟨(hint_agrees includeImages own).mp same.1, continue_ same.2⟩
      | regular role blocks legacy =>
          have left := other_parts (regular_other own.1 blocks)
          have right := @other_parts (runtimePiece (.regular role blocks legacy))
            (inject_other (regular_other own.1 blocks))
          rw [hostPiece, regular_host own.1 own.2 given, List.singleton_append,
            normalize_other preserve _ left.1 left.2, normalize_other preserve _ right.1 right.2,
            List.map_cons, List.map_cons, List.cons.injEq] at same
          exact ⟨given, continue_ same.2⟩
      | summary blocks legacy =>
          obtain ⟨text, only⟩ := own
          subst only
          have right := @other_parts (runtimePiece (.summary [.text text] legacy))
            (inject_other rfl)
          rw [hostPiece, if_neg given, List.singleton_append, normalize_other preserve _ rfl rfl,
            normalize_other preserve _ right.1 right.2, List.map_cons, List.map_cons,
            List.cons.injEq] at same
          exact absurd same.1 (summary_differs text legacy)
      | turn blocks legacy =>
          obtain ⟨heard, unheard⟩ := voiced blocks legacy List.mem_cons_self
          rw [hostPiece, turn_host, if_neg heard, List.singleton_append] at same
          obtain ⟨condition, behind⟩ := turn_of_views preserve includeImages later
            (voiced_rest voiced) sentLater heard unheard same
          exact ⟨condition, continue_ behind⟩

/-! ### Both encoders -/

/-- Normalised, the host's messages read like the runtime's. -/
def SameReading (preserve includeImages : Bool) (history : List Msg) : Prop :=
  (normalizeChatMessages preserve (toOpenai includeImages history)).map view =
    (normalizeChatMessages preserve (contextMessages history)).map view

private theorem sameReading_pieces (preserve includeImages : Bool) {history : List Msg}
    (encodable : ∀ message ∈ history, Encodable message) :
    SameReading preserve includeImages history ↔
      (normalizeChatMessages preserve
          ((pieces history).flatMap (hostPiece includeImages))).map view =
        (normalizeChatMessages preserve ((pieces history).map runtimePiece)).map view := by
  have through (messages : List ChatMessage) :
      (normalizeChatMessages preserve messages).map view =
        (normalizeChatMessages preserve (messages.map bare)).map view := by
    rw [← normalize_bare, List.map_map]
    rfl
  rw [SameReading, through, through (contextMessages history),
    toOpenai_pieces includeImages encodable, contextMessages_pieces encodable]

/-- The condition makes the two requests read the same, and where every turn is heard it
is needed for that. -/
theorem encoders_agree (preserve includeImages : Bool) {history : List Msg}
    (encodable : ∀ message ∈ history, Encodable message) :
    (Agreeable preserve (pieces history) → SameReading preserve includeImages history) ∧
      (Voiced preserve (pieces history) →
        (SameReading preserve includeImages history ↔ Agreeable preserve (pieces history))) := by
  have plain := pieces_plain encodable
  have enough : Agreeable preserve (pieces history) →
      SameReading preserve includeImages history := fun agreeable =>
    (sameReading_pieces preserve includeImages encodable).mpr
      (aligned_normalize (aligned_of_agreeable preserve includeImages plain agreeable))
  refine ⟨enough, fun voiced => ⟨fun same => ?_, enough⟩⟩
  have read := (sameReading_pieces preserve includeImages encodable).mp same
  have counts := others_of_views read
  rw [normalize_others, normalize_others] at counts
  exact agreeable_of_views preserve includeImages plain voiced
    ((others_le includeImages plain).2 counts) read

private def spoken (text : String) : ContentBlock := .text ⟨text, "b", "t", none⟩

private def lookup (output : ToolOutput) : Msg :=
  Msg.plain "m1" .assistant
    [.toolCall ⟨"call_0", "find", .empty, .finished, "t", none⟩,
      .toolResult ⟨"call_0", "find", output, .success, .empty, "t", none⟩] "t"

private def summary : Msg :=
  { Msg.plain "m0" .user [spoken "earlier"] "t" with name := .compact }

private theorem lookup_encodable {output : ToolOutput} (plain : plainOutput output) :
    Encodable (lookup output) where
  allowed _block _present := rfl
  plain block present := by
    rcases List.mem_cons.mp present with same | later
    · exact same ▸ trivial
    · exact (List.mem_singleton.mp later) ▸ plain
  summary impossible := nomatch impossible

/-- A question, a lookup with one line of output, and the answer. -/
theorem plain_lookup_reads_the_same :
    SameReading false false
      [Msg.plain "m0" .user [spoken "where?"] "t", lookup (.plain "here"),
        Msg.plain "m2" .assistant [spoken "here"] "t"] := by
  refine (encoders_agree false false ?_).1 ?_
  · intro message present
    rcases List.mem_cons.mp present with same | later
    · subst same
      exact
        { allowed := by decide
          plain := fun block held => (List.mem_singleton.mp held) ▸ trivial
          summary := fun impossible => nomatch impossible }
    · rcases List.mem_cons.mp later with same | last
      · exact same ▸ lookup_encodable trivial
      · rw [List.mem_singleton.mp last]
        exact
          { allowed := fun _block _held => rfl
            plain := fun block held => (List.mem_singleton.mp held) ▸ trivial
            summary := fun impossible => nomatch impossible }
  · refine ⟨List.cons_ne_nil _ _, ⟨?_, ?_⟩, trivial, ⟨?_, ?_⟩, trivial⟩
    · exact fun blank => absurd blank.2.1 (by decide)
    · intro _asks
      refine Or.inl ⟨by decide, by decide, fun result held => ?_⟩
      exact (List.mem_singleton.mp held) ▸ trivial
    · exact fun blank => absurd (blank.1 _ List.mem_cons_self) (by decide)
    · exact fun asks => absurd rfl asks

/-- A summary is prefixed on the host's side only, and two lines of output are run
together there. -/
theorem summary_and_lines_read_differently :
    (∀ message ∈ [summary], Encodable message) ∧ ¬ SameReading false false [summary] ∧
      (∀ message ∈ [lookup (.parts [.text ⟨"a", "b", "t", none⟩, .text ⟨"c", "d", "t", none⟩])],
        Encodable message) ∧
      ¬ SameReading false false
        [lookup (.parts [.text ⟨"a", "b", "t", none⟩, .text ⟨"c", "d", "t", none⟩])] := by
  refine ⟨?_, by unfold SameReading; decide, ?_, by unfold SameReading; decide⟩
  · intro message present
    rw [List.mem_singleton.mp present]
    exact
      { allowed := by decide
        plain := fun block held => (List.mem_singleton.mp held) ▸ trivial
        summary := fun _compact => ⟨rfl, _, rfl⟩ }
  · intro message present
    rw [List.mem_singleton.mp present]
    refine lookup_encodable fun item held => ⟨?_, ?_⟩
    · rcases List.mem_cons.mp held with same | later
      · exact same ▸ rfl
      · exact (List.mem_singleton.mp later) ▸ rfl
    · intro value other
      rcases List.mem_cons.mp held with same | later
      · exact nomatch same.symm.trans other
      · exact nomatch (List.mem_singleton.mp later).symm.trans other

end Ftre.Encoding
