import Ftre.Runtime.ReactRunner
import Ftre.Session.FoldFacts

/-!
Open tool blocks of a context. A list of blocks is settled but for some pending calls when its
open blocks are calls among them and no other call has the id of a pending one.
-/

namespace Ftre.Runtime

open Lib Message Session

namespace MessageContext

variable (context : List Msg)

def blocks : List ContentBlock := context.flatMap Msg.content

def callIds (blocks : List ContentBlock) : List String :=
  blocks.filterMap fun block => block.asToolCall?.map ToolCallBlock.id

def setState (blocks : List ContentBlock) (toolCallId : String) (state : ToolCallState) :
    List ContentBlock :=
  (changeFirst (setCall toolCallId state) blocks).getD blocks

def Inert (block : ContentBlock) : Prop := block.asToolCall? = none ∧ openBlock block = false

structure Settled (blocks : List ContentBlock) (pending : List String) : Prop where
  waits : ∀ block ∈ blocks, openBlock block = true →
    ∃ call, block = .toolCall call ∧ call.id ∈ pending
  once : ∀ id ∈ pending, (callIds blocks).count id ≤ 1

theorem changeFirst_append {α : Type} (change : α → Option α) (left right : List α) :
    changeFirst change (left ++ right) =
      ((changeFirst change left).map (· ++ right)).or
        ((changeFirst change right).map (left ++ ·)) := by
  induction left with
  | nil =>
      change changeFirst change right = (changeFirst change right).map id
      rw [Option.map_id_fun, id]
  | cons head rest ih =>
      rw [List.cons_append, changeFirst, changeFirst]
      cases change head with
      | some changed => rfl
      | none =>
          dsimp only
          rw [ih]
          cases changeFirst change rest with
          | some changed => rfl
          | none =>
              dsimp only [Option.map_none, Option.none_or]
              rw [Option.map_map]
              rfl

/-! ### The blocks of a changed context -/

theorem blocks_append (left right : List Msg) :
    blocks (left ++ right) = blocks left ++ blocks right :=
  List.flatMap_append

theorem blocks_cons (message : Msg) (rest : List Msg) :
    blocks (message :: rest) = message.content ++ blocks rest :=
  List.flatMap_cons

theorem toolCalls_eq : toolCalls context = (blocks context).filterMap ContentBlock.asToolCall? :=
  List.filterMap_flatMap.symm

theorem resultIds_eq :
    resultIds context =
      (blocks context).filterMap fun block => block.asToolResult?.map ToolResultBlock.id :=
  List.filterMap_flatMap.symm

theorem callIds_toolCalls :
    (toolCalls context).map ToolCallBlock.id = callIds (blocks context) := by
  rw [toolCalls_eq, List.map_filterMap]
  rfl

private theorem setCallIn_content (toolCallId : String) (state : ToolCallState) (message : Msg) :
    (setCallIn toolCallId state message).map Msg.content =
      changeFirst (setCall toolCallId state) message.content := by
  unfold setCallIn
  rw [Option.map_map]
  exact Option.map_id'

theorem blocks_setToolCallState (toolCallId : String) (state : ToolCallState) :
    blocks (setToolCallState context toolCallId state) =
      setState (blocks context) toolCallId state := by
  suffices changed : (changeFirst (setCallIn toolCallId state) context).map blocks =
      changeFirst (setCall toolCallId state) (blocks context) by
    unfold setToolCallState setState
    rw [← changed]
    cases changeFirst (setCallIn toolCallId state) context <;> rfl
  induction context with
  | nil => rfl
  | cons message rest ih =>
      rw [blocks_cons, changeFirst_append, ← setCallIn_content, ← ih, changeFirst]
      cases setCallIn toolCallId state message with
      | some changed => rfl
      | none =>
          change ((changeFirst (setCallIn toolCallId state) rest).map (message :: ·)).map blocks =
            ((changeFirst (setCallIn toolCallId state) rest).map blocks).map (message.content ++ ·)
          rw [Option.map_map, Option.map_map]
          rfl

variable {added : List ContentBlock} {toolCallId : String}

private theorem extendReply_content {messageId : String} {message extended : Msg}
    (hit : extendReply messageId added message = some extended) :
    extended.content = message.content ++ added := by
  obtain ⟨_, same⟩ := Option.ite_none_right_eq_some.mp hit
  cases same
  rfl

private theorem blocks_extended {messageId : String} {context extended : List Msg}
    (done : changeFirst (extendReply messageId added) context = some extended) :
    (blocks extended).Perm (blocks context ++ added) := by
  induction context generalizing extended with
  | nil => cases done
  | cons message rest ih =>
      unfold changeFirst at done
      cases hit : extendReply messageId added message with
      | some changed =>
          rw [hit] at done
          cases done
          rw [blocks_cons, blocks_cons, extendReply_content hit, List.append_assoc,
            List.append_assoc]
          exact List.Perm.append_left _ List.perm_append_comm
      | none =>
          rw [hit] at done
          obtain ⟨later, found, rfl⟩ := Option.map_eq_some_iff.mp done
          rw [blocks_cons, blocks_cons, List.append_assoc]
          exact (ih found).append_left _

private theorem blocks_reverse : (blocks context.reverse).Perm (blocks context) :=
  List.Perm.flatMap_right _ (List.reverse_perm context)

theorem blocks_appendReplyBlocks (messageId : String) (added : List ContentBlock) (now : String) :
    (blocks (appendReplyBlocks context messageId added now)).Perm (blocks context ++ added) := by
  unfold appendReplyBlocks
  by_cases nothing : added = []
  · rw [if_pos nothing, nothing, List.append_nil]
  · rw [if_neg nothing]
    cases done : changeFirst (extendReply messageId added) context.reverse with
    | none =>
        dsimp only
        rw [blocks_append]
        change (blocks context ++ (added ++ [])).Perm _
        rw [List.append_nil]
    | some extended =>
        dsimp only
        exact (blocks_reverse extended).trans
          ((blocks_extended done).trans ((blocks_reverse context).append_right added))

/-! ### Settled blocks -/

theorem callIds_append (left right : List ContentBlock) :
    callIds (left ++ right) = callIds left ++ callIds right :=
  List.filterMap_append

theorem callIds_inert (inert : ∀ block ∈ added, Inert block) : callIds added = [] := by
  apply List.filterMap_eq_nil_iff.mpr
  intro block member
  rw [(inert block member).1]
  rfl

private theorem setCall_keeps (toolCallId : String) (state : ToolCallState)
    (block changed : ContentBlock) (set : setCall toolCallId state block = some changed) :
    changed.asToolCall?.map ToolCallBlock.id = block.asToolCall?.map ToolCallBlock.id ∧
      changed.asToolResult?.map ToolResultBlock.id =
        block.asToolResult?.map ToolResultBlock.id := by
  cases block with
  | toolCall call =>
      obtain ⟨_, same⟩ := Option.ite_none_right_eq_some.mp set
      cases same
      exact ⟨rfl, rfl⟩
  | _ => cases set

theorem callIds_setState (blocks : List ContentBlock) (toolCallId : String)
    (state : ToolCallState) :
    callIds (setState blocks toolCallId state) = callIds blocks := by
  unfold setState
  cases done : changeFirst (setCall toolCallId state) blocks with
  | none => rfl
  | some changed =>
      exact changeFirst_filterMap
        (fun block after set => (setCall_keeps toolCallId state block after set).1) done

theorem pendingIds_setToolCallState (toolCallId : String) (state : ToolCallState) :
    (pendingToolCalls (setToolCallState context toolCallId state)).map ToolCallBlock.id =
      (pendingToolCalls context).map ToolCallBlock.id := by
  have results : resultIds (setToolCallState context toolCallId state) = resultIds context := by
    rw [resultIds_eq, resultIds_eq, blocks_setToolCallState]
    unfold setState
    cases done : changeFirst (setCall toolCallId state) (blocks context) with
    | none => rfl
    | some changed =>
        exact changeFirst_filterMap
          (fun block after set => (setCall_keeps toolCallId state block after set).2) done
  have ids (messages : List Msg) : (pendingToolCalls messages).map ToolCallBlock.id =
      (callIds (blocks messages)).filter fun id => decide (id ∉ resultIds messages) := by
    rw [← callIds_toolCalls, List.filter_map]
    rfl
  rw [ids, ids, results, blocks_setToolCallState, callIds_setState]

private theorem setCall_none {state : ToolCallState} {block : ContentBlock}
    (missed : setCall toolCallId state block = none) (call : ToolCallBlock)
    (called : block = .toolCall call) : call.id ≠ toolCallId := by
  subst called
  intro same
  unfold setCall at missed
  dsimp only at missed
  rw [if_pos same] at missed
  cases missed

theorem mem_callIds {blocks : List ContentBlock} {call : ToolCallBlock}
    (member : .toolCall call ∈ blocks) : call.id ∈ callIds blocks :=
  List.mem_filterMap.mpr ⟨_, member, rfl⟩

theorem mem_calls {blocks : List ContentBlock} {call : ToolCallBlock} :
    call ∈ blocks.filterMap ContentBlock.asToolCall? ↔ .toolCall call ∈ blocks := by
  constructor
  · intro member
    obtain ⟨block, held, isCall⟩ := List.mem_filterMap.mp member
    cases block with
    | toolCall held =>
        cases isCall
        assumption
    | _ => cases isCall
  · exact fun member => List.mem_filterMap.mpr ⟨_, member, rfl⟩

theorem exists_call {blocks : List ContentBlock} (member : toolCallId ∈ callIds blocks) :
    ∃ call, .toolCall call ∈ blocks ∧ call.id = toolCallId := by
  obtain ⟨block, held, named⟩ := List.mem_filterMap.mp member
  obtain ⟨call, isCall, same⟩ := Option.map_eq_some_iff.mp named
  exact ⟨call, mem_calls.mp (List.mem_filterMap.mpr ⟨block, held, isCall⟩), same⟩

theorem mem_setState {blocks : List ContentBlock} {state : ToolCallState}
    (once : (callIds blocks).count toolCallId ≤ 1) {block : ContentBlock}
    (member : block ∈ setState blocks toolCallId state) :
    (block ∈ blocks ∧ ∀ call, block = .toolCall call → call.id ≠ toolCallId) ∨
      ∃ call, .toolCall call ∈ blocks ∧ call.id = toolCallId ∧
        block = .toolCall { call with state := state } := by
  induction blocks with
  | nil => cases member
  | cons head rest ih =>
      unfold setState changeFirst at member
      cases hit : setCall toolCallId state head with
      | some changed =>
          rw [hit] at member
          cases head with
          | toolCall call =>
              obtain ⟨named, same⟩ := Option.ite_none_right_eq_some.mp hit
              cases same
              have alone : toolCallId ∉ callIds rest := by
                intro again
                have counted := List.count_pos_iff.mpr again
                change (call.id :: callIds rest).count toolCallId ≤ 1 at once
                rw [named, List.count_cons_self] at once
                omega
              rcases List.mem_cons.mp member with rfl | later
              · exact Or.inr ⟨call, List.mem_cons_self, named, rfl⟩
              · refine Or.inl ⟨List.mem_cons_of_mem _ later, ?_⟩
                rintro other rfl same
                exact alone (same ▸ mem_callIds later)
          | _ => cases hit
      | none =>
          rw [hit] at member
          have onceLater : (callIds rest).count toolCallId ≤ 1 := by
            refine le_trans (List.Sublist.count_le _ ?_) once
            exact (List.sublist_cons_self head rest).filterMap _
          have split : block = head ∨ block ∈ setState rest toolCallId state := by
            unfold setState
            cases done : changeFirst (setCall toolCallId state) rest with
            | none =>
                rw [done] at member
                exact List.mem_cons.mp member
            | some changed =>
                rw [done] at member
                exact List.mem_cons.mp member
          rcases split with rfl | later
          · exact Or.inl ⟨List.mem_cons_self, setCall_none hit⟩
          · rcases ih onceLater later with ⟨held, other⟩ | ⟨call, held, named, same⟩
            · exact Or.inl ⟨List.mem_cons_of_mem _ held, other⟩
            · exact Or.inr ⟨call, List.mem_cons_of_mem _ held, named, same⟩

namespace Settled

theorem perm {left right : List ContentBlock} {pending : List String}
    (settled : Settled left pending) (same : right.Perm left) : Settled right pending where
  waits block member waiting := settled.waits block (same.mem_iff.mp member) waiting
  once id member := by
    have counted : (callIds right).count id = (callIds left).count id :=
      (same.filterMap _).count_eq id
    rw [counted]
    exact settled.once id member

theorem congr {blocks : List ContentBlock} {pending others : List String}
    (settled : Settled blocks pending) (same : ∀ id, id ∈ others ↔ id ∈ pending) :
    Settled blocks others where
  waits block member waiting := by
    obtain ⟨call, called, awaited⟩ := settled.waits block member waiting
    exact ⟨call, called, (same _).mpr awaited⟩
  once id member := settled.once id ((same id).mp member)

theorem closed {blocks : List ContentBlock} (settled : Settled blocks []) {block : ContentBlock}
    (member : block ∈ blocks) : openBlock block = false := by
  cases waiting : openBlock block with
  | false => rfl
  | true =>
      obtain ⟨_, _, never⟩ := settled.waits block member waiting
      cases never

theorem of_closed {blocks : List ContentBlock} (closed : ∀ block ∈ blocks, openBlock block = false) :
    Settled blocks [] where
  waits block member waiting := by
    rw [closed block member] at waiting
    cases waiting
  once _ never := by cases never

theorem addInert {blocks added : List ContentBlock} {pending : List String}
    (settled : Settled blocks pending) (inert : ∀ block ∈ added, Inert block) :
    Settled (blocks ++ added) pending where
  waits block member waiting := by
    rcases List.mem_append.mp member with held | new
    · exact settled.waits block held waiting
    · rw [(inert block new).2] at waiting
      cases waiting
  once id member := by
    rw [callIds_append, callIds_inert inert, List.append_nil]
    exact settled.once id member

theorem addCalls {blocks added : List ContentBlock} (settled : Settled blocks [])
    (calls : ∀ block ∈ added, openBlock block = true → ∃ call, block = .toolCall call)
    (distinct : (callIds added).Nodup) (fresh : ∀ id ∈ callIds added, id ∉ callIds blocks) :
    Settled (blocks ++ added) (callIds added) where
  waits block member waiting := by
    rcases List.mem_append.mp member with held | new
    · rw [settled.closed held] at waiting
      cases waiting
    · obtain ⟨call, rfl⟩ := calls block new waiting
      exact ⟨call, rfl, mem_callIds new⟩
  once id member := by
    have unseen : (callIds blocks).count id = 0 := List.count_eq_zero.mpr (fresh id member)
    have single : (callIds added).count id ≤ 1 := List.nodup_iff_count_le_one.mp distinct id
    rw [callIds_append, List.count_append, unseen]
    omega

theorem setPending {blocks : List ContentBlock} {pending : List String} {toolCallId : String}
    (settled : Settled blocks pending) (awaited : toolCallId ∈ pending) (state : ToolCallState) :
    Settled (setState blocks toolCallId state) pending where
  waits block member waiting := by
    rcases mem_setState (settled.once toolCallId awaited) member with
      ⟨held, _⟩ | ⟨call, _, named, rfl⟩
    · exact settled.waits block held waiting
    · exact ⟨_, rfl, named.symm ▸ awaited⟩
  once id member := by
    rw [callIds_setState]
    exact settled.once id member

theorem finish {blocks : List ContentBlock} {pending : List String} {toolCallId : String}
    (settled : Settled blocks (toolCallId :: pending)) :
    Settled (setState blocks toolCallId .finished) pending where
  waits block member waiting := by
    rcases mem_setState (settled.once toolCallId List.mem_cons_self) member with
      ⟨held, other⟩ | ⟨call, _, _, rfl⟩
    · obtain ⟨call, called, awaited⟩ := settled.waits block held waiting
      rcases List.mem_cons.mp awaited with same | later
      · exact absurd same (other call called)
      · exact ⟨call, called, later⟩
    · cases waiting
  once id member := by
    rw [callIds_setState]
    exact settled.once id (List.mem_cons_of_mem _ member)

end Settled

end MessageContext

end Ftre.Runtime
