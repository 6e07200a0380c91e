import Ftre.Runtime.ContextSettlement

/-!
The blocks of a context with the ids of the messages that hold them.
-/

namespace Ftre.Runtime

open Lib Message Session

namespace MessageContext

/-- Every block of the context with the id of its message. -/
def owned (context : List Msg) : List (String × ContentBlock) :=
  context.flatMap fun message => message.content.map fun block => (message.id, block)

theorem owned_cons (message : Msg) (rest : List Msg) :
    owned (message :: rest) =
      (message.content.map fun block => (message.id, block)) ++ owned rest :=
  List.flatMap_cons

theorem owned_append (left right : List Msg) : owned (left ++ right) = owned left ++ owned right :=
  List.flatMap_append

theorem owned_blocks (context : List Msg) : (owned context).map Prod.snd = blocks context := by
  unfold owned blocks
  rw [List.map_flatMap]
  congr 1
  funext message
  rw [List.map_map]
  exact List.map_id _

private theorem owned_extended {messageId : String} {added : List ContentBlock}
    {context extended : List Msg}
    (done : changeFirst (extendReply messageId added) context = some extended) :
    (owned extended).Perm (owned context ++ added.map fun block => (messageId, block)) := by
  induction context generalizing extended with
  | nil => cases done
  | cons message rest ih =>
      unfold changeFirst at done
      cases hit : extendReply messageId added message with
      | some changed =>
          rw [hit] at done
          cases done
          obtain ⟨⟨_, named⟩, same⟩ := Option.ite_none_right_eq_some.mp hit
          cases same
          rw [owned_cons, owned_cons, List.map_append, List.append_assoc, List.append_assoc, named]
          exact List.Perm.append_left _ List.perm_append_comm
      | none =>
          rw [hit] at done
          obtain ⟨later, found, rfl⟩ := Option.map_eq_some_iff.mp done
          rw [owned_cons, owned_cons, List.append_assoc]
          exact (ih found).append_left _

private theorem owned_reverse (context : List Msg) :
    (owned context.reverse).Perm (owned context) :=
  List.Perm.flatMap_right _ (List.reverse_perm context)

theorem owned_appendReplyBlocks (context : List Msg) (messageId : String)
    (added : List ContentBlock) (now : String) :
    (owned (appendReplyBlocks context messageId added now)).Perm
      (owned context ++ added.map fun block => (messageId, block)) := by
  unfold appendReplyBlocks
  by_cases nothing : added = []
  · rw [if_pos nothing, nothing, List.map_nil, List.append_nil]
  · rw [if_neg nothing]
    cases done : changeFirst (extendReply messageId added) context.reverse with
    | none =>
        dsimp only
        rw [owned_append]
        change (owned context ++ ((added.map fun block => (messageId, block)) ++ [])).Perm _
        rw [List.append_nil]
    | some extended =>
        dsimp only
        exact (owned_reverse extended).trans
          ((owned_extended done).trans ((owned_reverse context).append_right _))

/-! ### States -/

def restate (state : ToolCallBlock → ToolCallState) : ContentBlock → ContentBlock
  | .toolCall call => .toolCall { call with state := state call }
  | block => block

def stateOf (toolCallIds : List String) (state : ToolCallState) (call : ToolCallBlock) :
    ToolCallState :=
  if call.id ∈ toolCallIds then state else call.state

def restateOwned (state : ToolCallBlock → ToolCallState) (entries : List (String × ContentBlock)) :
    List (String × ContentBlock) :=
  entries.map fun (owner, block) => (owner, restate state block)

variable {state : ToolCallBlock → ToolCallState} {left right : List (String × ContentBlock)}
  {entries : List (String × ContentBlock)}

theorem restate_same {block : ContentBlock}
    (same : ∀ call, block = .toolCall call → state call = call.state) :
    restate state block = block := by
  cases block with
  | toolCall call => exact congrArg ContentBlock.toolCall (by rw [same call rfl])
  | _ => rfl

private theorem restate_absent {toolCallId : String} {state : ToolCallState}
    {blocks : List ContentBlock} (absent : toolCallId ∉ callIds blocks) :
    blocks.map (restate (stateOf [toolCallId] state)) = blocks := by
  refine (List.map_congr_left ?_).trans (List.map_id _)
  intro block member
  apply restate_same
  rintro call rfl
  unfold stateOf
  rw [if_neg]
  intro same
  exact absent (List.mem_singleton.mp same ▸ mem_callIds member)

private theorem changeFirst_setCall {toolCallId : String} {state : ToolCallState}
    {blocks : List ContentBlock} (distinct : (callIds blocks).Nodup) :
    changeFirst (setCall toolCallId state) blocks =
      if toolCallId ∈ callIds blocks then
        some (blocks.map (restate (stateOf [toolCallId] state)))
      else none := by
  induction blocks with
  | nil => rfl
  | cons head rest ih =>
      have later : changeFirst (setCall toolCallId state) rest =
          if toolCallId ∈ callIds rest then
            some (rest.map (restate (stateOf [toolCallId] state)))
          else none :=
        ih (distinct.sublist ((List.sublist_cons_self head rest).filterMap _))
      have passed : setCall toolCallId state head = none → toolCallId ∉ callIds [head] →
          restate (stateOf [toolCallId] state) head = head →
          changeFirst (setCall toolCallId state) (head :: rest) =
            if toolCallId ∈ callIds (head :: rest) then
              some ((head :: rest).map (restate (stateOf [toolCallId] state)))
            else none := by
        intro missed absent same
        have listed : toolCallId ∈ callIds (head :: rest) ↔ toolCallId ∈ callIds rest := by
          rw [← List.singleton_append, callIds_append, List.mem_append]
          exact or_iff_right absent
        unfold changeFirst
        rw [missed, later, List.map_cons, same]
        by_cases again : toolCallId ∈ callIds rest
        · rw [if_pos again, if_pos (listed.mpr again)]
          rfl
        · rw [if_neg again, if_neg fun member => again (listed.mp member)]
          rfl
      cases head with
      | toolCall call =>
          by_cases same : call.id = toolCallId
          · have hit : setCall toolCallId state (.toolCall call) =
                some (.toolCall { call with state := state }) := if_pos same
            have fresh : toolCallId ∉ callIds rest := same ▸ (List.nodup_cons.mp distinct).1
            have set : restate (stateOf [toolCallId] state) (.toolCall call) =
                .toolCall { call with state := state } := by
              unfold restate stateOf
              dsimp only
              rw [if_pos (List.mem_singleton.mpr same)]
            unfold changeFirst
            rw [hit, List.map_cons, restate_absent fresh, set,
              if_pos (same ▸ mem_callIds List.mem_cons_self)]
          · refine passed (if_neg same) ?_ ?_
            · intro member
              exact same (List.mem_singleton.mp member).symm
            · apply restate_same
              rintro other called
              cases called
              exact if_neg fun member => same (List.mem_singleton.mp member)
      | _ => exact passed rfl List.not_mem_nil rfl

theorem owned_setToolCallState {context : List Msg} (toolCallId : String) (state : ToolCallState)
    (distinct : (callIds (blocks context)).Nodup) :
    owned (setToolCallState context toolCallId state) =
      restateOwned (stateOf [toolCallId] state) (owned context) := by
  unfold setToolCallState restateOwned
  induction context with
  | nil => rfl
  | cons message rest ih =>
      rw [blocks_cons, callIds_append] at distinct
      have apart := List.nodup_append.mp distinct
      have later := ih apart.2.1
      have here : setCallIn toolCallId state message =
          (if toolCallId ∈ callIds message.content then
            some (message.content.map (restate (stateOf [toolCallId] state)))
          else none).map fun content => { message with content := content } := by
        unfold setCallIn
        rw [changeFirst_setCall apart.1]
      have restated : ∀ blocks : List ContentBlock,
          ((blocks.map fun block => (message.id, block)).map fun (owner, block) =>
            (owner, restate (stateOf [toolCallId] state) block)) =
          (blocks.map (restate (stateOf [toolCallId] state))).map
            fun block => (message.id, block) := by
        intro blocks
        rw [List.map_map, List.map_map]
        rfl
      unfold changeFirst
      rw [here, owned_cons, List.map_append, restated]
      by_cases member : toolCallId ∈ callIds message.content
      · have fresh : toolCallId ∉ callIds (blocks rest) := fun again =>
          apart.2.2 _ member _ again rfl
        have kept : ((owned rest).map fun (owner, block) =>
            (owner, restate (stateOf [toolCallId] state) block)) = owned rest := by
          refine (List.map_congr_left ?_).trans (List.map_id _)
          intro entry listed
          refine Prod.ext rfl (restate_same ?_)
          intro call called
          refine if_neg fun same => fresh ?_
          rw [← List.mem_singleton.mp same, ← owned_blocks]
          apply mem_callIds
          rw [← called]
          exact List.mem_map_of_mem listed
        rw [if_pos member, kept]
        exact owned_cons _ _
      · rw [if_neg member, restate_absent member, ← later]
        cases changeFirst (setCallIn toolCallId state) rest with
        | some changed =>
            change owned (message :: changed) = _
            rw [owned_cons, Option.getD_some]
        | none =>
            change owned (message :: rest) = _
            rw [owned_cons, Option.getD_none]

/-! ### Calls and results of entries -/

def callIdsOf (entries : List (String × ContentBlock)) : List String :=
  callIds (entries.map Prod.snd)

def resultIdsOf (entries : List (String × ContentBlock)) : List String :=
  (entries.map Prod.snd).filterMap fun block => block.asToolResult?.map ToolResultBlock.id

theorem callIdsOf_owned (context : List Msg) : callIdsOf (owned context) = callIds (blocks context) :=
  congrArg callIds (owned_blocks context)

theorem resultIdsOf_owned (context : List Msg) : resultIdsOf (owned context) = resultIds context := by
  unfold resultIdsOf
  rw [owned_blocks, resultIds_eq]

theorem callIdsOf_append (left right : List (String × ContentBlock)) :
    callIdsOf (left ++ right) = callIdsOf left ++ callIdsOf right := by
  unfold callIdsOf
  rw [List.map_append, callIds_append]

theorem resultIdsOf_append (left right : List (String × ContentBlock)) :
    resultIdsOf (left ++ right) = resultIdsOf left ++ resultIdsOf right := by
  unfold resultIdsOf
  rw [List.map_append, List.filterMap_append]

theorem callIdsOf_perm (same : left.Perm right) : (callIdsOf left).Perm (callIdsOf right) :=
  (same.map Prod.snd).filterMap _

theorem resultIdsOf_perm (same : left.Perm right) : (resultIdsOf left).Perm (resultIdsOf right) :=
  (same.map Prod.snd).filterMap _

theorem restateOwned_append (state : ToolCallBlock → ToolCallState)
    (left right : List (String × ContentBlock)) :
    restateOwned state (left ++ right) = restateOwned state left ++ restateOwned state right :=
  List.map_append

theorem restateOwned_perm (state : ToolCallBlock → ToolCallState) (same : left.Perm right) :
    (restateOwned state left).Perm (restateOwned state right) :=
  same.map _

theorem callIdsOf_restateOwned (state : ToolCallBlock → ToolCallState)
    (entries : List (String × ContentBlock)) :
    callIdsOf (restateOwned state entries) = callIdsOf entries := by
  unfold callIdsOf callIds restateOwned
  rw [List.map_map, List.filterMap_map, List.filterMap_map]
  congr 1
  funext entry
  obtain ⟨owner, block⟩ := entry
  cases block <;> rfl

theorem resultIdsOf_restateOwned (state : ToolCallBlock → ToolCallState)
    (entries : List (String × ContentBlock)) :
    resultIdsOf (restateOwned state entries) = resultIdsOf entries := by
  unfold resultIdsOf restateOwned
  rw [List.map_map, List.filterMap_map, List.filterMap_map]
  congr 1
  funext entry
  obtain ⟨owner, block⟩ := entry
  cases block <;> rfl

theorem mem_restateOwned_call {owner : String} {call : ToolCallBlock} :
    (owner, ContentBlock.toolCall call) ∈ restateOwned state entries ↔
      ∃ held, (owner, ContentBlock.toolCall held) ∈ entries ∧
        call = { held with state := state held } := by
  unfold restateOwned
  constructor
  · intro member
    obtain ⟨⟨name, block⟩, held, same⟩ := List.mem_map.mp member
    cases block with
    | toolCall other =>
        cases same
        exact ⟨other, held, rfl⟩
    | _ => cases same
  · rintro ⟨held, member, rfl⟩
    exact List.mem_map.mpr ⟨_, member, rfl⟩

theorem mem_restateOwned_result {owner : String} {result : ToolResultBlock} :
    (owner, ContentBlock.toolResult result) ∈ restateOwned state entries ↔
      (owner, ContentBlock.toolResult result) ∈ entries := by
  unfold restateOwned
  constructor
  · intro member
    obtain ⟨⟨name, block⟩, held, same⟩ := List.mem_map.mp member
    cases block with
    | toolResult other =>
        cases same
        exact held
    | _ => cases same
  · intro member
    exact List.mem_map.mpr ⟨_, member, rfl⟩

theorem restateOwned_comp (first second : ToolCallBlock → ToolCallState)
    (entries : List (String × ContentBlock)) :
    restateOwned second (restateOwned first entries) =
      restateOwned (fun call => second { call with state := first call }) entries := by
  unfold restateOwned
  rw [List.map_map]
  apply List.map_congr_left
  rintro ⟨owner, block⟩ _
  cases block <;> rfl

theorem restateOwned_twice (first second : List String) (state : ToolCallState)
    (entries : List (String × ContentBlock)) :
    restateOwned (stateOf second state) (restateOwned (stateOf first state) entries) =
      restateOwned (stateOf (first ++ second) state) entries := by
  rw [restateOwned_comp]
  congr 1
  funext call
  unfold stateOf
  dsimp only
  by_cases early : call.id ∈ first
  · rw [if_pos early, if_pos (List.mem_append_left _ early), ite_self]
  · by_cases late : call.id ∈ second
    · rw [if_pos late, if_pos (List.mem_append_right _ late)]
    · rw [if_neg late, if_neg early, if_neg fun both => (List.mem_append.mp both).elim early late]

theorem restateOwned_nil (state : ToolCallState) (entries : List (String × ContentBlock)) :
    restateOwned (stateOf [] state) entries = entries := by
  refine (List.map_congr_left ?_).trans (List.map_id _)
  intro entry _
  exact Prod.ext rfl (restate_same fun call _ => if_neg List.not_mem_nil)

theorem mem_resultIdsOf {id : String} :
    id ∈ resultIdsOf entries ↔
      ∃ owner result, (owner, ContentBlock.toolResult result) ∈ entries ∧ result.id = id := by
  unfold resultIdsOf
  constructor
  · intro member
    obtain ⟨block, listed, named⟩ := List.mem_filterMap.mp member
    obtain ⟨⟨owner, held⟩, present, rfl⟩ := List.mem_map.mp listed
    obtain ⟨result, isResult, same⟩ := Option.map_eq_some_iff.mp named
    cases held with
    | toolResult other =>
        cases isResult
        exact ⟨owner, result, present, same⟩
    | _ => cases isResult
  · rintro ⟨owner, result, member, rfl⟩
    exact List.mem_filterMap.mpr ⟨_, List.mem_map_of_mem member, rfl⟩

theorem mem_callIdsOf {id : String} :
    id ∈ callIdsOf entries ↔
      ∃ owner call, (owner, ContentBlock.toolCall call) ∈ entries ∧ call.id = id := by
  constructor
  · intro member
    obtain ⟨call, listed, named⟩ := exists_call member
    obtain ⟨⟨owner, block⟩, present, same⟩ := List.mem_map.mp listed
    cases same
    exact ⟨owner, call, present, named⟩
  · rintro ⟨owner, call, member, rfl⟩
    exact mem_callIds (List.mem_map_of_mem member)

theorem restateOwned_absent {toolCallIds : List String} {state : ToolCallState}
    (absent : ∀ id ∈ toolCallIds, id ∉ callIdsOf entries) :
    restateOwned (stateOf toolCallIds state) entries = entries := by
  refine (List.map_congr_left ?_).trans (List.map_id _)
  rintro ⟨owner, block⟩ member
  refine Prod.ext rfl (restate_same ?_)
  rintro call rfl
  exact if_neg fun listed => absent _ listed (mem_callIdsOf.mpr ⟨owner, call, member, rfl⟩)

end MessageContext

end Ftre.Runtime
