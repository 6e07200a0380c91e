import Ftre.Runtime.ContextOwnership
import Ftre.Runtime.ConfirmCommand
import Ftre.Runtime.PauseLaw

/-!
Batches of tool calls over any number of pauses and confirmations.
-/

namespace Ftre.Runtime

open Lib Message Session

namespace MessageContext

def resultBlock (call : ToolCall) (outcome : ToolOutcome) (now : String) : ToolResultBlock where
  id := call.id
  name := call.name
  output := .plain (if outcome.result = "" then "[" ++ call.name ++ "] 已完成" else outcome.result)
  state := if outcome.failed then .error else .success
  metadata := outcome.metadata
  createdAt := now
  finishedAt := none

def deniedBlock (call : ToolCall) (now : String) : ToolResultBlock where
  id := call.id
  name := call.name
  output := .plain (Reply.deniedText call)
  state := .denied
  metadata := .empty
  createdAt := now
  finishedAt := none

def recordCall (target now : String) (context : List Msg) (result : ToolCall × ToolOutcome) :
    List Msg :=
  appendReplyBlocks (setToolCallState context result.1.id .finished) target
    [.toolResult (resultBlock result.1 result.2 now)] now

def denyCall (target now : String) (context : List Msg) (call : ToolCall) : List Msg :=
  setToolCallState (appendReplyBlocks context target [.toolResult (deniedBlock call now)] now)
    call.id .finished

def askCall (context : List Msg) (call : ToolCall) : List Msg :=
  setToolCallState context call.id .asking

def toolHint (target now : String) (context : List Msg) (hint : String) : List Msg :=
  appendReplyBlocks context target [.hint ⟨.str hint, some "tool", "", now, some now⟩] now

def askedCalls (results : List (ToolCall × ToolOutcome)) : List ToolCall :=
  (results.filter fun (_, outcome) => outcome.approval.isSome).map Prod.fst

/-- `_execute_calls` on the context: a batch that asks records nothing. -/
def executeCalls (target now : String) (context : List Msg)
    (results : List (ToolCall × ToolOutcome)) : List Msg :=
  match askedCalls results with
  | [] =>
      (results.filterMap fun (_, outcome) => outcome.hint).foldl (toolHint target now)
        (results.foldl (recordCall target now) context)
  | asked => asked.foldl askCall context

def enterCalls (target now : String) (context : List Msg) (calls : List ToolCall) : List Msg :=
  appendReplyBlocks context target
    (calls.map fun call => .toolCall ⟨call.id, call.name, call.arguments, .pending, now, none⟩) now

def allowedCalls (context : List Msg) : List ToolCall :=
  ((pendingToolCalls context).filter fun call => decide (call.state = .allowed)).map Reply.ofBlock

def refusedCalls (context : List Msg) : List ToolCall :=
  ((pendingToolCalls context).filter fun call => decide (call.state ≠ .allowed)).map Reply.ofBlock

def resumeTarget (context : List Msg) (event : ConfirmEvent) : String :=
  let owner := (Reply.ownerOf context event.toolCallId).getD ""
  if owner = "" then event.replyId else owner

/-! ### What the executor leaves -/

variable {context : List Msg} {entries : List (String × ContentBlock)}

private theorem distinct_of_owned (same : (owned context).Perm entries)
    (distinct : (callIdsOf entries).Nodup) : (callIds (blocks context)).Nodup := by
  rw [← callIdsOf_owned]
  exact (callIdsOf_perm same).nodup_iff.mpr distinct

private theorem restateOwned_blocks {owner : String} {blocks : List ContentBlock}
    (state : ToolCallBlock → ToolCallState) (none : callIds blocks = []) :
    restateOwned state (blocks.map fun block => (owner, block)) =
      blocks.map fun block => (owner, block) := by
  unfold restateOwned
  rw [List.map_map]
  apply List.map_congr_left
  intro block member
  refine Prod.ext rfl (restate_same ?_)
  rintro call rfl
  have listed := mem_callIds member
  rw [none] at listed
  cases listed

private theorem callIdsOf_placed (owner : String) (blocks : List ContentBlock) :
    callIdsOf (blocks.map fun block => (owner, block)) = callIds blocks := by
  unfold callIdsOf
  rw [List.map_map]
  exact congrArg callIds (List.map_id blocks)

theorem owned_recordCalls (target now : String) (results : List (ToolCall × ToolOutcome))
    (same : (owned context).Perm entries) (distinct : (callIdsOf entries).Nodup) :
    (owned (results.foldl (recordCall target now) context)).Perm
      (restateOwned (stateOf (results.map fun result => result.1.id) .finished) entries ++
        (results.map fun result => .toolResult (resultBlock result.1 result.2 now)).map
          fun block => (target, block)) := by
  induction results generalizing context entries with
  | nil =>
      rw [List.map_nil, restateOwned_nil, List.map_nil, List.map_nil, List.append_nil]
      exact same
  | cons result rest ih =>
      have set := owned_setToolCallState result.1.id .finished (distinct_of_owned same distinct)
      have next : (owned (recordCall target now context result)).Perm
          (restateOwned (stateOf [result.1.id] .finished) entries ++
            [(target, .toolResult (resultBlock result.1 result.2 now))]) := by
        refine (owned_appendReplyBlocks _ _ _ _).trans (List.Perm.append_right _ ?_)
        rw [set]
        exact restateOwned_perm _ same
      have apart : (callIdsOf (restateOwned (stateOf [result.1.id] .finished) entries ++
          [(target, ContentBlock.toolResult (resultBlock result.1 result.2 now))])).Nodup := by
        rw [callIdsOf_append, callIdsOf_restateOwned]
        exact (List.append_nil (callIdsOf entries)).symm ▸ distinct
      refine (ih next apart).trans ?_
      rw [restateOwned_append, restateOwned_twice]
      change (_ ++ [(target, _)] ++ _).Perm (_ ++ ((target, _) :: _))
      rw [List.append_assoc, List.singleton_append]
      exact List.Perm.refl _

theorem owned_denyCalls (target now : String) (calls : List ToolCall)
    (same : (owned context).Perm entries) (distinct : (callIdsOf entries).Nodup) :
    (owned (calls.foldl (denyCall target now) context)).Perm
      (restateOwned (stateOf (calls.map ToolCall.id) .finished) entries ++
        (calls.map fun call => .toolResult (deniedBlock call now)).map
          fun block => (target, block)) := by
  induction calls generalizing context entries with
  | nil =>
      rw [List.map_nil, restateOwned_nil, List.map_nil, List.map_nil, List.append_nil]
      exact same
  | cons call rest ih =>
      have added : (owned (appendReplyBlocks context target [.toolResult (deniedBlock call now)]
          now)).Perm (entries ++ [(target, .toolResult (deniedBlock call now))]) :=
        (owned_appendReplyBlocks _ _ _ _).trans (same.append_right _)
      have apart : (callIdsOf (entries ++
          [(target, ContentBlock.toolResult (deniedBlock call now))])).Nodup := by
        rw [callIdsOf_append]
        exact (List.append_nil (callIdsOf entries)).symm ▸ distinct
      have next : (owned (denyCall target now context call)).Perm
          (restateOwned (stateOf [call.id] .finished) entries ++
            [(target, .toolResult (deniedBlock call now))]) := by
        unfold denyCall
        rw [owned_setToolCallState call.id .finished (distinct_of_owned added apart)]
        refine (restateOwned_perm _ added).trans ?_
        rw [restateOwned_append]
        exact List.Perm.refl _
      have later : (callIdsOf (restateOwned (stateOf [call.id] .finished) entries ++
          [(target, ContentBlock.toolResult (deniedBlock call now))])).Nodup := by
        rw [callIdsOf_append, callIdsOf_restateOwned]
        exact (List.append_nil (callIdsOf entries)).symm ▸ distinct
      refine (ih next later).trans ?_
      rw [restateOwned_append, restateOwned_twice]
      change (_ ++ [(target, _)] ++ _).Perm (_ ++ ((target, _) :: _))
      rw [List.append_assoc, List.singleton_append]
      exact List.Perm.refl _

theorem owned_askCalls (calls : List ToolCall) (same : (owned context).Perm entries)
    (distinct : (callIdsOf entries).Nodup) :
    (owned (calls.foldl askCall context)).Perm
      (restateOwned (stateOf (calls.map ToolCall.id) .asking) entries) := by
  induction calls generalizing context entries with
  | nil =>
      rw [List.map_nil, restateOwned_nil]
      exact same
  | cons call rest ih =>
      have next : (owned (askCall context call)).Perm
          (restateOwned (stateOf [call.id] .asking) entries) := by
        unfold askCall
        rw [owned_setToolCallState call.id .asking (distinct_of_owned same distinct)]
        exact restateOwned_perm _ same
      refine (ih next ?_).trans ?_
      · rw [callIdsOf_restateOwned]
        exact distinct
      · rw [restateOwned_twice]
        exact List.Perm.refl _

def hintBlock (now hint : String) : ContentBlock :=
  .hint ⟨.str hint, some "tool", "", now, some now⟩

theorem owned_hints (target now : String) (hints : List String) (context : List Msg) :
    (owned (hints.foldl (toolHint target now) context)).Perm
      (owned context ++ (hints.map (hintBlock now)).map fun block => (target, block)) := by
  induction hints generalizing context with
  | nil =>
      rw [List.map_nil, List.map_nil, List.append_nil]
      exact List.Perm.refl _
  | cons hint rest ih =>
      refine (ih (toolHint target now context hint)).trans ?_
      refine ((owned_appendReplyBlocks context target _ now).append_right _).trans ?_
      rw [List.append_assoc]
      exact List.Perm.refl _

end MessageContext

open MessageContext

/-- The messages of a session as every turn leaves and the next one reads them,
with what was run and what the user refused. -/
structure Approvals where
  context : List Msg
  ran : List (ToolCall × ToolOutcome) := []
  denials : List String := []

inductive ApprovalAction where
  | told (message : Msg)
  /-- Texts and hints of a turn. -/
  | said (target now : String) (blocks : List ContentBlock)
  /-- A response with these calls is executed as a batch. -/
  | batch (target now : String) (calls : List ToolCall) (facts : ToolCall → ToolFacts)
  /-- The user decides on a call; a run that resumes executes with `facts`, and
  its wait for the tools may be interrupted. -/
  | confirm (event : ConfirmEvent) (now : String) (facts : ToolCall → ToolFacts)
      (interrupted : Bool)

namespace Approvals

def executed (permissions : ToolPermissions) (facts : ToolCall → ToolFacts)
    (calls : List ToolCall) : List (ToolCall × ToolOutcome × Bool) :=
  calls.map fun call => (call, permissions.execute call (facts call))

def outcomes (permissions : ToolPermissions) (facts : ToolCall → ToolFacts)
    (calls : List ToolCall) : List (ToolCall × ToolOutcome) :=
  (executed permissions facts calls).map fun (call, outcome, _) => (call, outcome)

def runs (permissions : ToolPermissions) (facts : ToolCall → ToolFacts) (calls : List ToolCall) :
    List (ToolCall × ToolOutcome) :=
  ((executed permissions facts calls).filter fun (_, _, ran) => ran).map
    fun (call, outcome, _) => (call, outcome)

def execute (permissions : ToolPermissions) (state : Approvals) (target now : String)
    (calls : List ToolCall) (facts : ToolCall → ToolFacts) : Approvals :=
  { state with
    context := executeCalls target now state.context (outcomes permissions facts calls)
    ran := state.ran ++ runs permissions facts calls }

/-- A batch is cancelled with its wait, or by one of its calls. -/
def cancelledBy (permissions : ToolPermissions) (facts : ToolCall → ToolFacts) (interrupted : Bool)
    (calls : List ToolCall) : Bool :=
  interrupted || calls.any fun call => permissions.stops call (facts call)

/-- `_execute_calls` raises behind the results of a cancelled batch. -/
def raises (permissions : ToolPermissions) (facts : ToolCall → ToolFacts) (interrupted : Bool)
    (calls : List ToolCall) : Bool :=
  (askedCalls (outcomes permissions facts calls)).isEmpty &&
    cancelledBy permissions facts interrupted calls

/-- `resume_execute`. -/
def resume (permissions : ToolPermissions) (state : Approvals) (target now : String)
    (facts : ToolCall → ToolFacts) (interrupted : Bool) : Approvals :=
  let allowed := allowedCalls state.context
  let refused := refusedCalls state.context
  if allowed = [] then { state with context := refused.foldl (denyCall target now) state.context }
  else
    let executed := state.execute permissions target now allowed facts
    -- `CancelledError` leaves the resume in front of the refused calls
    if raises permissions facts interrupted allowed then executed
    else { executed with context := refused.foldl (denyCall target now) executed.context }

def confirmed (permissions : ToolPermissions) (state : Approvals) (event : ConfirmEvent)
    (now : String) (facts : ToolCall → ToolFacts) (interrupted : Bool) : Approvals :=
  match Reply.acceptConfirmation state.context event.toolCallId event.approved with
  | none => state
  | some context =>
      let accepted := { state with
        context := context
        denials := if event.approved then state.denials else event.toolCallId :: state.denials }
      if (toolCallsInState context .asking).isEmpty then
        accepted.resume permissions (resumeTarget state.context event) now facts interrupted
      else accepted

def hasToolBlock (blocks : List ContentBlock) : Bool :=
  blocks.any fun block => block.asToolCall?.isSome || block.asToolResult?.isSome

def step (permissions : ToolPermissions) (state : Approvals) : ApprovalAction → Option Approvals
  | .told message =>
      if hasToolBlock message.content then none
      else some { state with context := state.context ++ [message] }
  | .said target now blocks =>
      if hasToolBlock blocks then none
      else some { state with context := appendReplyBlocks state.context target blocks now }
  | .batch target now calls facts =>
      some ({ state with context := enterCalls target now state.context calls }.execute permissions
        target now calls facts)
  | .confirm event now facts interrupted =>
      some (state.confirmed permissions event now facts interrupted)

def system (permissions : ToolPermissions) : StepSystem Approvals ApprovalAction :=
  ⟨step permissions⟩

structure ApprovalLaw (state : Approvals) : Prop where
  once : (state.ran.map fun run => run.1.id).Nodup
  real : ∀ run ∈ state.ran, ∃ owner now,
    (owner, .toolResult (resultBlock run.1 run.2 now)) ∈ owned state.context
  answered : toolCallsInState state.context .asking = [] →
    ∀ owner call, (owner, .toolCall call) ∈ owned state.context →
      (resultIds state.context).count call.id = 1 ∧
        ∃ result, (owner, .toolResult result) ∈ owned state.context ∧ result.id = call.id
  refused : ∀ owner result, (owner, .toolResult result) ∈ owned state.context →
    result.state = .denied → result.id ∈ state.denials

def Decided (denials : List String) (call : ToolCallBlock) : Prop :=
  call.state = .allowed ∨ call.state = .finished ∧ call.id ∈ denials

def Uniform (permissions : ToolPermissions) (facts : ToolCall → ToolFacts)
    (calls : List ToolCall) : Prop :=
  (∀ call ∈ calls, (permissions.execute call (facts call)).1.approval = none) ∨
    ∀ call ∈ calls, (permissions.execute call (facts call)).1.approval ≠ none ∧
      (permissions.execute call (facts call)).2 = false

/-- Batches have new, distinct call ids and are uniform, and a confirmation that
resumes finds only calls of the message it goes on with, uniform again, and is
not cancelled in front of a refused one. -/
def Whole (permissions : ToolPermissions) (state : Approvals) : ApprovalAction → Prop
  | .told _ => True
  | .said _ _ _ => True
  | .batch _ _ calls facts =>
      (calls.map ToolCall.id).Nodup ∧
        (∀ call ∈ calls, call.id ∉ callIds (blocks state.context) ∧
          call.id ∉ resultIds state.context) ∧
        Uniform permissions facts calls
  | .confirm event _ facts interrupted =>
      ∀ context, Reply.acceptConfirmation state.context event.toolCallId event.approved =
        some context → toolCallsInState context .asking = [] →
        (∀ owner call, (owner, .toolCall call) ∈ owned context → call.id ∉ resultIds context →
          owner = resumeTarget state.context event) ∧
        Uniform permissions facts (allowedCalls context) ∧
        (raises permissions facts interrupted (allowedCalls context) = true →
          allowedCalls context = [] ∨ refusedCalls context = [])

/-! ### What holds of the entries -/

structure Core (entries : List (String × ContentBlock)) (ran : List (ToolCall × ToolOutcome))
    (denials : List String) : Prop where
  calls : (callIdsOf entries).Nodup
  results : (resultIdsOf entries).Nodup
  once : (ran.map fun run => run.1.id).Nodup
  real : ∀ run ∈ ran, ∃ owner now, (owner, .toolResult (resultBlock run.1 run.2 now)) ∈ entries
  held : ∀ owner call holder result, (owner, ContentBlock.toolCall call) ∈ entries →
    (holder, ContentBlock.toolResult result) ∈ entries → result.id = call.id → holder = owner
  refused : ∀ owner result, (owner, ContentBlock.toolResult result) ∈ entries →
    result.state = .denied → result.id ∈ denials

structure Adds (entries added : List (String × ContentBlock))
    (runs : List (ToolCall × ToolOutcome)) (denials : List String) : Prop where
  calls : (callIdsOf added).Nodup
  apart : ∀ id ∈ callIdsOf added, id ∉ callIdsOf entries ∧ id ∉ resultIdsOf entries
  results : (resultIdsOf added).Nodup
  unanswered : ∀ id ∈ resultIdsOf added, id ∉ resultIdsOf entries
  placed : ∀ owner call holder result, (owner, ContentBlock.toolCall call) ∈ entries ++ added →
    (holder, ContentBlock.toolResult result) ∈ added → result.id = call.id → holder = owner
  once : (runs.map fun run => run.1.id).Nodup
  real : ∀ run ∈ runs, ∃ owner now, (owner, .toolResult (resultBlock run.1 run.2 now)) ∈ added
  refused : ∀ owner result, (owner, ContentBlock.toolResult result) ∈ added →
    result.state = .denied → result.id ∈ denials

variable {denials : List String} {state : Approvals} {entries : List (String × ContentBlock)}
  {context : List Msg} {permissions : ToolPermissions} {facts : ToolCall → ToolFacts}
  {calls : List ToolCall}

theorem Core.perm {left right : List (String × ContentBlock)} {ran : List (ToolCall × ToolOutcome)}
    (core : Core left ran denials) (same : right.Perm left) : Core right ran denials where
  calls := (callIdsOf_perm same).nodup_iff.mpr core.calls
  results := (resultIdsOf_perm same).nodup_iff.mpr core.results
  once := core.once
  real run member := by
    obtain ⟨owner, now, held⟩ := core.real run member
    exact ⟨owner, now, same.mem_iff.mpr held⟩
  held owner call holder result called resulted :=
    core.held owner call holder result (same.mem_iff.mp called) (same.mem_iff.mp resulted)
  refused owner result member := core.refused owner result (same.mem_iff.mp member)

theorem Core.extend {entries added : List (String × ContentBlock)}
    {ran runs : List (ToolCall × ToolOutcome)} {denials more : List String}
    (core : Core entries ran denials) (adds : Adds entries added runs more)
    (grown : ∀ id ∈ denials, id ∈ more) (state : ToolCallBlock → ToolCallState) :
    Core (restateOwned state entries ++ added) (ran ++ runs) more where
  calls := by
    rw [callIdsOf_append, callIdsOf_restateOwned]
    refine List.nodup_append.mpr ⟨core.calls, adds.calls, ?_⟩
    rintro id member other later rfl
    exact (adds.apart id later).1 member
  results := by
    rw [resultIdsOf_append, resultIdsOf_restateOwned]
    refine List.nodup_append.mpr ⟨core.results, adds.results, ?_⟩
    rintro id member other later rfl
    exact adds.unanswered id later member
  once := by
    rw [List.map_append]
    refine List.nodup_append.mpr ⟨core.once, adds.once, ?_⟩
    rintro id member other later rfl
    obtain ⟨run, before, named⟩ := List.mem_map.mp member
    obtain ⟨again, after, same⟩ := List.mem_map.mp later
    obtain ⟨_, _, held⟩ := core.real run before
    obtain ⟨_, _, new⟩ := adds.real again after
    exact adds.unanswered id (mem_resultIdsOf.mpr ⟨_, _, new, same⟩)
      (mem_resultIdsOf.mpr ⟨_, _, held, named⟩)
  real run member := by
    rcases List.mem_append.mp member with before | after
    · obtain ⟨owner, now, held⟩ := core.real run before
      exact ⟨owner, now, List.mem_append_left _ (mem_restateOwned_result.mpr held)⟩
    · obtain ⟨owner, now, held⟩ := adds.real run after
      exact ⟨owner, now, List.mem_append_right _ held⟩
  held owner call holder result called resulted same := by
    have source : ∃ held, (owner, ContentBlock.toolCall held) ∈ entries ++ added ∧
        held.id = call.id := by
      rcases List.mem_append.mp called with old | new
      · obtain ⟨held, member, rfl⟩ := mem_restateOwned_call.mp old
        exact ⟨held, List.mem_append_left _ member, rfl⟩
      · exact ⟨call, List.mem_append_right _ new, rfl⟩
    obtain ⟨held, member, named⟩ := source
    rcases List.mem_append.mp resulted with old | new
    · have present := mem_restateOwned_result.mp old
      rcases List.mem_append.mp member with here | added
      · exact core.held owner held holder result here present (same.trans named.symm)
      · exact absurd (mem_resultIdsOf.mpr ⟨holder, result, present, same.trans named.symm⟩)
          (adds.apart _ (mem_callIdsOf.mpr ⟨owner, held, added, rfl⟩)).2
    · exact adds.placed owner held holder result member new (same.trans named.symm)
  refused owner result member denied := by
    rcases List.mem_append.mp member with old | new
    · exact grown _ (core.refused owner result (mem_restateOwned_result.mp old) denied)
    · exact adds.refused owner result new denied

def Open (entries : List (String × ContentBlock)) (denials : List String) : Prop :=
  ∀ owner call, (owner, ContentBlock.toolCall call) ∈ entries → call.id ∉ resultIdsOf entries →
    call.state = .asking ∨
      Decided denials call ∧
        ∃ holder other, (holder, ContentBlock.toolCall other) ∈ entries ∧ other.state = .asking

structure Sound (state : Approvals) : Prop where
  core : Core (owned state.context) state.ran state.denials
  waits : Open (owned state.context) state.denials

theorem Sound.of_perm (same : (owned state.context).Perm entries)
    (core : Core entries state.ran state.denials) (waits : Open entries state.denials) :
    state.Sound where
  core := core.perm same
  waits owner call member pending := by
    have left : call.id ∉ resultIdsOf entries := fun listed =>
      pending ((resultIdsOf_perm same).mem_iff.mpr listed)
    rcases waits owner call (same.mem_iff.mp member) left with
      asking | ⟨decided, holder, other, held, asks⟩
    · exact Or.inl asking
    · exact Or.inr ⟨decided, holder, other, same.mem_iff.mpr held, asks⟩

private theorem asking_owned :
    toolCallsInState context .asking = [] ↔
      ∀ owner call, (owner, ContentBlock.toolCall call) ∈ owned context →
        call.state ≠ .asking := by
  unfold toolCallsInState
  rw [List.flatMap_eq_nil_iff]
  constructor
  · intro none owner call member asking
    obtain ⟨message, held, listed⟩ := List.mem_flatMap.mp member
    obtain ⟨block, inside, same⟩ := List.mem_map.mp listed
    cases same
    have missed := List.filterMap_eq_nil_iff.mp (none message held) _ inside
    dsimp only [ContentBlock.asToolCall?, Option.bind_some] at missed
    rw [if_pos asking] at missed
    cases missed
  · intro none message held
    rw [List.filterMap_eq_nil_iff]
    intro block inside
    cases block with
    | toolCall call =>
        refine if_neg (none message.id call ?_)
        exact List.mem_flatMap.mpr ⟨message, held, List.mem_map_of_mem inside⟩
    | _ => rfl

theorem Sound.law (sound : state.Sound) : state.ApprovalLaw where
  once := sound.core.once
  real := sound.core.real
  refused := sound.core.refused
  answered quiet owner call member := by
    have unasking := asking_owned.mp quiet
    have listed : call.id ∈ resultIdsOf (owned state.context) := by
      by_contra pending
      rcases sound.waits owner call member pending with asking | ⟨_, holder, other, held, asking⟩
      · exact unasking owner call member asking
      · exact unasking holder other held asking
    obtain ⟨holder, result, held, named⟩ := mem_resultIdsOf.mp listed
    have same := sound.core.held owner call holder result member held named
    refine ⟨?_, result, same ▸ held, named⟩
    rw [← resultIdsOf_owned]
    exact List.count_eq_one_of_mem sound.core.results listed

/-! ### Batches -/

private theorem outcomes_ids (permissions : ToolPermissions) (facts : ToolCall → ToolFacts)
    (calls : List ToolCall) :
    (outcomes permissions facts calls).map (fun result => result.1.id) =
      calls.map ToolCall.id := by
  unfold outcomes executed
  rw [List.map_map, List.map_map]
  rfl

private theorem askedCalls_none
    (none : ∀ call ∈ calls, (permissions.execute call (facts call)).1.approval = none) :
    askedCalls (outcomes permissions facts calls) = [] := by
  unfold askedCalls
  rw [List.map_eq_nil_iff, List.filter_eq_nil_iff]
  intro result member
  obtain ⟨entry, listed, rfl⟩ := List.mem_map.mp member
  obtain ⟨call, held, rfl⟩ := List.mem_map.mp listed
  dsimp only
  rw [none call held]
  exact Bool.noConfusion

private theorem askedCalls_all
    (all : ∀ call ∈ calls, (permissions.execute call (facts call)).1.approval ≠ none) :
    askedCalls (outcomes permissions facts calls) = calls := by
  unfold askedCalls
  have kept : (outcomes permissions facts calls).filter
      (fun (_, outcome) => outcome.approval.isSome) = outcomes permissions facts calls := by
    rw [List.filter_eq_self]
    intro result member
    obtain ⟨entry, listed, rfl⟩ := List.mem_map.mp member
    obtain ⟨call, held, rfl⟩ := List.mem_map.mp listed
    exact Option.isSome_iff_ne_none.mpr (all call held)
  rw [kept]
  unfold outcomes executed
  rw [List.map_map, List.map_map]
  exact List.map_id _

private theorem runs_none {permissions : ToolPermissions} {facts : ToolCall → ToolFacts}
    {calls : List ToolCall}
    (none : ∀ call ∈ calls, (permissions.execute call (facts call)).2 = false) :
    runs permissions facts calls = [] := by
  unfold runs
  rw [List.map_eq_nil_iff, List.filter_eq_nil_iff]
  intro entry member
  obtain ⟨call, held, rfl⟩ := List.mem_map.mp member
  dsimp only
  rw [none call held]
  exact Bool.noConfusion

private theorem mem_runs {run : ToolCall × ToolOutcome}
    (member : run ∈ runs permissions facts calls) : run ∈ outcomes permissions facts calls := by
  obtain ⟨entry, listed, rfl⟩ := List.mem_map.mp member
  exact List.mem_map.mpr ⟨entry, List.mem_of_mem_filter listed, rfl⟩

private theorem runs_once (distinct : (calls.map ToolCall.id).Nodup) :
    ((runs permissions facts calls).map fun run => run.1.id).Nodup := by
  have shorter : ((runs permissions facts calls).map fun run => run.1.id).Sublist
      (calls.map ToolCall.id) := by
    rw [← outcomes_ids permissions facts calls]
    exact (List.filter_sublist.map _).map _
  exact distinct.sublist shorter

def resultsOf (permissions : ToolPermissions) (facts : ToolCall → ToolFacts) (now : String)
    (calls : List ToolCall) : List ContentBlock :=
  (outcomes permissions facts calls).map fun result =>
    .toolResult (resultBlock result.1 result.2 now)

private theorem owned_executed (target now : String) (same : (owned context).Perm entries)
    (distinct : (callIdsOf entries).Nodup)
    (none : ∀ call ∈ calls, (permissions.execute call (facts call)).1.approval = none) :
    ∃ hints : List String,
      (owned (executeCalls target now context (outcomes permissions facts calls))).Perm
        (restateOwned (stateOf (calls.map ToolCall.id) .finished) entries ++
          (resultsOf permissions facts now calls ++ hints.map (hintBlock now)).map
            fun block => (target, block)) := by
  refine ⟨(outcomes permissions facts calls).filterMap fun (_, outcome) => outcome.hint, ?_⟩
  unfold executeCalls
  rw [askedCalls_none none, List.map_append, ← List.append_assoc]
  refine (owned_hints target now _ _).trans (List.Perm.append_right _ ?_)
  have recorded := owned_recordCalls target now (outcomes permissions facts calls) same distinct
  rw [outcomes_ids] at recorded
  exact recorded

private theorem owned_asked (target now : String) (same : (owned context).Perm entries)
    (distinct : (callIdsOf entries).Nodup) (filled : calls ≠ [])
    (all : ∀ call ∈ calls, (permissions.execute call (facts call)).1.approval ≠ none) :
    (owned (executeCalls target now context (outcomes permissions facts calls))).Perm
      (restateOwned (stateOf (calls.map ToolCall.id) .asking) entries) := by
  unfold executeCalls
  rw [askedCalls_all all]
  cases calls with
  | nil => exact absurd rfl filled
  | cons call rest => exact owned_askCalls (call :: rest) same distinct

private theorem Open.append {entries added : List (String × ContentBlock)} {denials : List String}
    (waits : Open entries denials)
    (new : ∀ owner call, (owner, ContentBlock.toolCall call) ∈ added →
      call.id ∉ resultIdsOf added → call.state = .asking) :
    Open (entries ++ added) denials := by
  intro owner call member pending
  rw [resultIdsOf_append, List.mem_append, not_or] at pending
  rcases List.mem_append.mp member with old | fresh
  · rcases waits owner call old pending.1 with asking | ⟨decided, holder, other, held, asks⟩
    · exact Or.inl asking
    · exact Or.inr ⟨decided, holder, other, List.mem_append_left _ held, asks⟩
  · exact Or.inl (new owner call fresh pending.2)

private theorem sound_plain (sound : state.Sound) {owner : String} {blocks : List ContentBlock}
    (plain : hasToolBlock blocks = false)
    (grown : (owned context).Perm (owned state.context ++ blocks.map fun block => (owner, block))) :
    Sound { state with context := context } := by
  have inert : ∀ block ∈ blocks, block.asToolCall? = none ∧ block.asToolResult? = none := by
    intro block member
    have none := List.any_eq_false.mp plain block member
    rw [Bool.or_eq_true, not_or] at none
    exact ⟨Option.not_isSome_iff_eq_none.mp none.1, Option.not_isSome_iff_eq_none.mp none.2⟩
  have noCall : callIdsOf (blocks.map fun block => (owner, block)) = [] := by
    rw [callIdsOf_placed]
    exact List.filterMap_eq_nil_iff.mpr fun block member => by rw [(inert block member).1]; rfl
  have noResult : resultIdsOf (blocks.map fun block => (owner, block)) = [] := by
    unfold resultIdsOf
    rw [List.map_map]
    refine List.filterMap_eq_nil_iff.mpr fun block member => ?_
    obtain ⟨held, listed, rfl⟩ := List.mem_map.mp member
    change held.asToolResult?.map _ = none
    rw [(inert held listed).2]
    rfl
  have nothing : ∀ holder result,
      (holder, ContentBlock.toolResult result) ∉ blocks.map fun block => (owner, block) := by
    intro holder result member
    have listed := mem_resultIdsOf.mpr ⟨holder, result, member, rfl⟩
    rw [noResult] at listed
    cases listed
  have adds : Adds (owned state.context) (blocks.map fun block => (owner, block)) []
      state.denials :=
    { calls := noCall ▸ List.nodup_nil
      apart := fun id member => by rw [noCall] at member; cases member
      results := noResult ▸ List.nodup_nil
      unanswered := fun id member => by rw [noResult] at member; cases member
      placed := fun _ _ holder result _ member => absurd member (nothing holder result)
      once := List.nodup_nil
      real := fun run never => by cases never
      refused := fun holder result member => absurd member (nothing holder result) }
  have core := sound.core.extend adds (fun _ held => held) (stateOf [] .asking)
  rw [List.append_nil, restateOwned_nil] at core
  refine Sound.of_perm grown core ?_
  refine sound.waits.append fun holder call member _ => ?_
  have listed := mem_callIdsOf.mpr ⟨holder, call, member, rfl⟩
  rw [noCall] at listed
  cases listed

private theorem owned_told (context : List Msg) (message : Msg) :
    owned (context ++ [message]) =
      owned context ++ message.content.map fun block => (message.id, block) := by
  rw [owned_append]
  exact congrArg _ (List.append_nil _)

private theorem callIds_entered (calls : List ToolCall) (now : String) :
    callIds (calls.map fun call =>
      .toolCall ⟨call.id, call.name, call.arguments, .pending, now, none⟩) =
      calls.map ToolCall.id := by
  unfold callIds
  rw [List.filterMap_map]
  change calls.filterMap (some ∘ ToolCall.id) = _
  rw [List.filterMap_eq_map]

private theorem callIds_answers (permissions : ToolPermissions) (facts : ToolCall → ToolFacts)
    (now : String) (calls : List ToolCall) (hints : List String) :
    callIds (resultsOf permissions facts now calls ++ hints.map (hintBlock now)) = [] := by
  rw [callIds_append, List.append_eq_nil_iff]
  constructor
  · refine List.filterMap_eq_nil_iff.mpr fun block member => ?_
    obtain ⟨result, _, rfl⟩ := List.mem_map.mp member
    rfl
  · refine List.filterMap_eq_nil_iff.mpr fun block member => ?_
    obtain ⟨hint, _, rfl⟩ := List.mem_map.mp member
    rfl

private theorem resultIdsOf_placed (owner : String) (blocks : List ContentBlock) :
    resultIdsOf (blocks.map fun block => (owner, block)) =
      blocks.filterMap fun block => block.asToolResult?.map ToolResultBlock.id := by
  unfold resultIdsOf
  rw [List.map_map]
  exact congrArg (List.filterMap _) (List.map_id blocks)

private theorem resultIds_answers (permissions : ToolPermissions) (facts : ToolCall → ToolFacts)
    (now target : String) (calls : List ToolCall) (hints : List String) :
    resultIdsOf ((resultsOf permissions facts now calls ++ hints.map (hintBlock now)).map
      fun block => (target, block)) = calls.map ToolCall.id := by
  rw [resultIdsOf_placed, List.filterMap_append, ← outcomes_ids permissions facts calls]
  have hinted : (hints.map (hintBlock now)).filterMap
      (fun block => block.asToolResult?.map ToolResultBlock.id) = [] := by
    refine List.filterMap_eq_nil_iff.mpr fun block member => ?_
    obtain ⟨hint, _, rfl⟩ := List.mem_map.mp member
    rfl
  rw [hinted, List.append_nil]
  unfold resultsOf
  rw [List.filterMap_map]
  change (outcomes permissions facts calls).filterMap
    (some ∘ fun result : ToolCall × ToolOutcome => result.1.id) = _
  rw [List.filterMap_eq_map]

private theorem mem_answers {permissions : ToolPermissions} {facts : ToolCall → ToolFacts}
    {now target owner : String} {calls : List ToolCall} {hints : List String}
    {result : ToolResultBlock}
    (member : (owner, ContentBlock.toolResult result) ∈
      (resultsOf permissions facts now calls ++ hints.map (hintBlock now)).map
        fun block => (target, block)) :
    owner = target ∧ result.id ∈ calls.map ToolCall.id ∧ result.state ≠ .denied := by
  have listed := mem_resultIdsOf.mpr ⟨owner, result, member, rfl⟩
  rw [resultIds_answers] at listed
  obtain ⟨block, held, same⟩ := List.mem_map.mp member
  cases same
  refine ⟨rfl, listed, ?_⟩
  rcases List.mem_append.mp held with answer | hint
  · obtain ⟨given, _, same⟩ := List.mem_map.mp answer
    cases same
    unfold resultBlock
    dsimp only
    split <;> exact ToolResultState.noConfusion
  · obtain ⟨_, _, same⟩ := List.mem_map.mp hint
    cases same

private theorem real_answers {run : ToolCall × ToolOutcome} (now target : String)
    (hints : List String) (member : run ∈ runs permissions facts calls) :
    (target, ContentBlock.toolResult (resultBlock run.1 run.2 now)) ∈
      (resultsOf permissions facts now calls ++ hints.map (hintBlock now)).map
        fun block => (target, block) :=
  List.mem_map.mpr ⟨_, List.mem_append_left _ (List.mem_map.mpr ⟨run, mem_runs member, rfl⟩), rfl⟩

def placedCalls (target now : String) (calls : List ToolCall) : List (String × ContentBlock) :=
  (calls.map fun call => .toolCall ⟨call.id, call.name, call.arguments, .pending, now, none⟩).map
    fun block => (target, block)

private theorem callIdsOf_placedCalls (target now : String) (calls : List ToolCall) :
    callIdsOf (placedCalls target now calls) = calls.map ToolCall.id :=
  (callIdsOf_placed target _).trans (callIds_entered calls now)

private theorem placedCalls_noResult (target now : String) (calls : List ToolCall)
    (owner : String) (result : ToolResultBlock) :
    (owner, ContentBlock.toolResult result) ∉ placedCalls target now calls := by
  intro member
  obtain ⟨block, listed, same⟩ := List.mem_map.mp member
  obtain ⟨call, _, rfl⟩ := List.mem_map.mp listed
  cases same

private theorem resultIdsOf_placedCalls (target now : String) (calls : List ToolCall) :
    resultIdsOf (placedCalls target now calls) = [] := by
  rw [List.eq_nil_iff_forall_not_mem]
  intro id member
  obtain ⟨owner, result, held, _⟩ := mem_resultIdsOf.mp member
  exact placedCalls_noResult target now calls owner result held

private theorem placedCalls_owner {target now owner : String} {block : ContentBlock}
    (member : (owner, block) ∈ placedCalls target now calls) : owner = target := by
  obtain ⟨_, _, same⟩ := List.mem_map.mp member
  exact (congrArg Prod.fst same).symm

private theorem Uniform.recorded_or_asked (uniform : Uniform permissions facts calls) :
    (∀ call ∈ calls, (permissions.execute call (facts call)).1.approval = none) ∨
      calls ≠ [] ∧ (∀ call ∈ calls, (permissions.execute call (facts call)).1.approval ≠ none) ∧
        ∀ call ∈ calls, (permissions.execute call (facts call)).2 = false := by
  rcases uniform with none | all
  · exact Or.inl none
  · cases calls with
    | nil => exact Or.inl fun call never => (List.not_mem_nil never).elim
    | cons call rest =>
        exact Or.inr ⟨List.cons_ne_nil call rest, fun other member => (all other member).1,
          fun other member => (all other member).2⟩

private theorem sound_batch {permissions : ToolPermissions} {state : Approvals}
    (sound : state.Sound) {target now : String} {calls : List ToolCall}
    {facts : ToolCall → ToolFacts}
    (distinct : (calls.map ToolCall.id).Nodup)
    (fresh : ∀ call ∈ calls, call.id ∉ callIds (blocks state.context) ∧
      call.id ∉ resultIds state.context)
    (uniform : Uniform permissions facts calls) :
    Sound ({ state with context := enterCalls target now state.context calls }.execute permissions
      target now calls facts) := by
  have uncalled : ∀ id ∈ calls.map ToolCall.id, id ∉ callIdsOf (owned state.context) := by
    intro id member
    obtain ⟨call, held, rfl⟩ := List.mem_map.mp member
    rw [callIdsOf_owned]
    exact (fresh call held).1
  have unanswered : ∀ id ∈ calls.map ToolCall.id, id ∉ resultIdsOf (owned state.context) := by
    intro id member
    obtain ⟨call, held, rfl⟩ := List.mem_map.mp member
    rw [resultIdsOf_owned]
    exact (fresh call held).2
  have entered : (owned (enterCalls target now state.context calls)).Perm
      (owned state.context ++ placedCalls target now calls) :=
    owned_appendReplyBlocks ..
  have apart : (callIdsOf (owned state.context ++ placedCalls target now calls)).Nodup := by
    rw [callIdsOf_append, callIdsOf_placedCalls]
    refine List.nodup_append.mpr ⟨sound.core.calls, distinct, ?_⟩
    rintro id member other later rfl
    exact uncalled id later member
  rcases uniform.recorded_or_asked with none | ⟨filled, all, unrun⟩
  · obtain ⟨hints, left⟩ := owned_executed target now entered apart none
    rw [restateOwned_append, restateOwned_absent uncalled, List.append_assoc] at left
    have adds : Adds (owned state.context) (restateOwned (stateOf (calls.map ToolCall.id) .finished)
        (placedCalls target now calls) ++
          (resultsOf permissions facts now calls ++ hints.map (hintBlock now)).map
            fun block => (target, block)) (runs permissions facts calls) state.denials :=
      { calls := by
          rw [callIdsOf_append, callIdsOf_restateOwned, callIdsOf_placedCalls, callIdsOf_placed,
            callIds_answers, List.append_nil]
          exact distinct
        apart := by
          intro id member
          rw [callIdsOf_append, callIdsOf_restateOwned, callIdsOf_placedCalls, callIdsOf_placed,
            callIds_answers, List.append_nil] at member
          exact ⟨uncalled id member, unanswered id member⟩
        results := by
          rw [resultIdsOf_append, resultIdsOf_restateOwned, resultIdsOf_placedCalls,
            resultIds_answers]
          exact distinct
        unanswered := by
          intro id member
          rw [resultIdsOf_append, resultIdsOf_restateOwned, resultIdsOf_placedCalls,
            resultIds_answers] at member
          exact unanswered id member
        placed := by
          intro owner call holder result called resulted same
          rcases List.mem_append.mp resulted with restated | answer
          · exact absurd (mem_restateOwned_result.mp restated) (placedCalls_noResult target now calls _ _)
          · obtain ⟨rfl, listed, _⟩ := mem_answers answer
            rcases List.mem_append.mp called with old | new
            · exact absurd (mem_callIdsOf.mpr ⟨owner, call, old, same.symm⟩)
                (uncalled result.id listed)
            · rcases List.mem_append.mp new with restated | answer
              · obtain ⟨held, member, _⟩ := mem_restateOwned_call.mp restated
                exact (placedCalls_owner member).symm
              · obtain ⟨_, _, placed⟩ := List.mem_map.mp answer
                exact congrArg Prod.fst placed
        once := runs_once distinct
        real := fun run member =>
          ⟨target, now, List.mem_append_right _ (real_answers now target hints member)⟩
        refused := by
          intro owner result member denied
          rcases List.mem_append.mp member with restated | answer
          · exact absurd (mem_restateOwned_result.mp restated) (placedCalls_noResult target now calls _ _)
          · exact absurd denied (mem_answers answer).2.2 }
    have core := sound.core.extend adds (fun _ held => held) (stateOf [] .asking)
    rw [restateOwned_nil] at core
    refine Sound.of_perm left core (sound.waits.append ?_)
    intro owner call member pending
    refine absurd ?_ pending
    have listed := mem_callIdsOf.mpr ⟨owner, call, member, rfl⟩
    rw [callIdsOf_append, callIdsOf_restateOwned, callIdsOf_placedCalls, callIdsOf_placed,
      callIds_answers, List.append_nil] at listed
    rw [resultIdsOf_append, resultIdsOf_restateOwned, resultIdsOf_placedCalls, resultIds_answers]
    exact listed
  · have left := owned_asked target now entered apart filled all
    rw [restateOwned_append, restateOwned_absent uncalled] at left
    have noResult : resultIdsOf (restateOwned (stateOf (calls.map ToolCall.id) .asking)
        (placedCalls target now calls)) = [] := by
      rw [resultIdsOf_restateOwned, resultIdsOf_placedCalls]
    have nothing : ∀ owner result, (owner, ContentBlock.toolResult result) ∉
        restateOwned (stateOf (calls.map ToolCall.id) .asking) (placedCalls target now calls) :=
      fun owner result member =>
        absurd (mem_restateOwned_result.mp member) (placedCalls_noResult target now calls _ _)
    have adds : Adds (owned state.context) (restateOwned (stateOf (calls.map ToolCall.id) .asking)
        (placedCalls target now calls)) [] state.denials :=
      { calls := by
          rw [callIdsOf_restateOwned, callIdsOf_placedCalls]
          exact distinct
        apart := by
          intro id member
          rw [callIdsOf_restateOwned, callIdsOf_placedCalls] at member
          exact ⟨uncalled id member, unanswered id member⟩
        results := noResult ▸ List.nodup_nil
        unanswered := fun id member => by rw [noResult] at member; cases member
        placed := fun owner call holder result _ member => absurd member (nothing holder result)
        once := List.nodup_nil
        real := fun run never => by cases never
        refused := fun owner result member => absurd member (nothing owner result) }
    have core := sound.core.extend adds (fun _ held => held) (stateOf [] .asking)
    rw [restateOwned_nil, ← runs_none unrun] at core
    refine Sound.of_perm left core (sound.waits.append ?_)
    intro owner call member _
    obtain ⟨held, present, rfl⟩ := mem_restateOwned_call.mp member
    have listed := mem_callIdsOf.mpr ⟨owner, held, present, rfl⟩
    rw [callIdsOf_placedCalls] at listed
    exact if_pos listed

/-! ### Confirmations -/

private theorem mem_pending {call : ToolCallBlock} :
    call ∈ pendingToolCalls context ↔
      (∃ owner, (owner, ContentBlock.toolCall call) ∈ owned context) ∧
        call.id ∉ resultIdsOf (owned context) := by
  unfold pendingToolCalls
  rw [List.mem_filter, decide_eq_true_eq, resultIdsOf_owned, toolCalls_eq, mem_calls]
  refine and_congr_left fun _ => ?_
  rw [← owned_blocks, List.mem_map]
  constructor
  · rintro ⟨⟨owner, block⟩, member, rfl⟩
    exact ⟨owner, member⟩
  · rintro ⟨owner, member⟩
    exact ⟨_, member, rfl⟩

private theorem mem_allowed {id : String} :
    id ∈ (allowedCalls context).map ToolCall.id ↔
      ∃ call ∈ pendingToolCalls context, call.state = .allowed ∧ call.id = id := by
  unfold allowedCalls
  rw [List.map_map, List.mem_map]
  constructor
  · rintro ⟨call, member, rfl⟩
    obtain ⟨listed, allowed⟩ := List.mem_filter.mp member
    exact ⟨call, listed, of_decide_eq_true allowed, rfl⟩
  · rintro ⟨call, listed, allowed, rfl⟩
    exact ⟨call, List.mem_filter.mpr ⟨listed, decide_eq_true allowed⟩, rfl⟩

private theorem mem_refused {id : String} :
    id ∈ (refusedCalls context).map ToolCall.id ↔
      ∃ call ∈ pendingToolCalls context, call.state ≠ .allowed ∧ call.id = id := by
  unfold refusedCalls
  rw [List.map_map, List.mem_map]
  constructor
  · rintro ⟨call, member, rfl⟩
    obtain ⟨listed, refused⟩ := List.mem_filter.mp member
    exact ⟨call, listed, of_decide_eq_true refused, rfl⟩
  · rintro ⟨call, listed, refused, rfl⟩
    exact ⟨call, List.mem_filter.mpr ⟨listed, decide_eq_true refused⟩, rfl⟩

private theorem decided_nodup (distinct : (callIdsOf (owned context)).Nodup) :
    ((allowedCalls context).map ToolCall.id ++ (refusedCalls context).map ToolCall.id).Nodup := by
  have pending : ((pendingToolCalls context).map ToolCallBlock.id).Nodup := by
    rw [callIdsOf_owned, ← callIds_toolCalls] at distinct
    exact distinct.sublist (List.filter_sublist.map _)
  have split := (List.filter_append_perm (fun call : ToolCallBlock =>
    decide (call.state = .allowed)) (pendingToolCalls context)).map ToolCallBlock.id
  have ids : (allowedCalls context).map ToolCall.id ++ (refusedCalls context).map ToolCall.id =
      (((pendingToolCalls context).filter fun call => decide (call.state = .allowed)) ++
        (pendingToolCalls context).filter fun call =>
          !decide (call.state = .allowed)).map ToolCallBlock.id := by
    unfold allowedCalls refusedCalls
    rw [List.map_map, List.map_map, List.map_append]
    congr 2
    exact List.filter_congr fun call _ => decide_not
  rw [ids]
  exact split.nodup_iff.mpr pending

private def refusals (target now : String) (calls : List ToolCall) :
    List (String × ContentBlock) :=
  (calls.map fun call => .toolResult (deniedBlock call now)).map fun block => (target, block)

private theorem callIdsOf_refusals (target now : String) (calls : List ToolCall) :
    callIdsOf (refusals target now calls) = [] := by
  refine (callIdsOf_placed target _).trans ?_
  refine List.filterMap_eq_nil_iff.mpr fun block member => ?_
  obtain ⟨call, _, rfl⟩ := List.mem_map.mp member
  rfl

private theorem resultIdsOf_refusals (target now : String) (calls : List ToolCall) :
    resultIdsOf (refusals target now calls) = calls.map ToolCall.id := by
  unfold refusals
  rw [resultIdsOf_placed, List.filterMap_map]
  change calls.filterMap (some ∘ ToolCall.id) = _
  rw [List.filterMap_eq_map]

private theorem mem_refusals {target now owner : String} {result : ToolResultBlock}
    (member : (owner, ContentBlock.toolResult result) ∈ refusals target now calls) :
    owner = target ∧ result.id ∈ calls.map ToolCall.id := by
  obtain ⟨block, listed, same⟩ := List.mem_map.mp member
  obtain ⟨call, held, rfl⟩ := List.mem_map.mp listed
  cases same
  exact ⟨rfl, List.mem_map_of_mem held⟩

private theorem execute_nothing (permissions : ToolPermissions) (state : Approvals)
    (target now : String) (facts : ToolCall → ToolFacts) :
    state.execute permissions target now [] facts = state := by
  cases state
  exact congrArg (Approvals.mk _ · _) (List.append_nil _)

structure Resumable (entries : List (String × ContentBlock)) (denials : List String)
    (target : String) : Prop where
  quiet : ∀ owner call, (owner, ContentBlock.toolCall call) ∈ entries → call.state ≠ .asking
  decided : ∀ owner call, (owner, ContentBlock.toolCall call) ∈ entries →
    call.id ∉ resultIdsOf entries → Decided denials call
  placed : ∀ owner call, (owner, ContentBlock.toolCall call) ∈ entries →
    call.id ∉ resultIdsOf entries → owner = target

private theorem adds_resume {context : List Msg} {denials : List String}
    {target : String} (now : String) (distinct : (callIdsOf (owned context)).Nodup)
    (resumable : Resumable (owned context) denials target)
    {answers : List (String × ContentBlock)} {runs : List (ToolCall × ToolOutcome)}
    {answered : List ToolCall}
    (noCall : callIdsOf answers = [])
    (answering : resultIdsOf answers = answered.map ToolCall.id)
    (allowed : answered.Sublist (allowedCalls context))
    (given : ∀ owner result, (owner, ContentBlock.toolResult result) ∈ answers →
      owner = target ∧ result.state ≠ .denied)
    (once : (runs.map fun run => run.1.id).Nodup)
    (real : ∀ run ∈ runs, ∃ owner now,
      (owner, ContentBlock.toolResult (resultBlock run.1 run.2 now)) ∈ answers) :
    Adds (owned context) (answers ++ refusals target now (refusedCalls context)) runs denials where
  calls := by
    rw [callIdsOf_append, noCall, callIdsOf_refusals]
    exact List.nodup_nil
  apart id member := by
    rw [callIdsOf_append, noCall, callIdsOf_refusals] at member
    cases member
  results := by
    rw [resultIdsOf_append, answering, resultIdsOf_refusals]
    exact (decided_nodup distinct).sublist ((allowed.map _).append_right _)
  unanswered id member := by
    rw [resultIdsOf_append, answering, resultIdsOf_refusals] at member
    rcases List.mem_append.mp member with first | second
    · obtain ⟨call, pending, _, rfl⟩ := mem_allowed.mp ((allowed.map _).subset first)
      exact (mem_pending.mp pending).2
    · obtain ⟨call, pending, _, rfl⟩ := mem_refused.mp second
      exact (mem_pending.mp pending).2
  placed owner call holder result called resulted same := by
    have unanswered : result.id ∉ resultIdsOf (owned context) ∧ holder = target := by
      rcases List.mem_append.mp resulted with first | second
      · have listed := mem_resultIdsOf.mpr ⟨holder, result, first, rfl⟩
        rw [answering] at listed
        obtain ⟨held, pending, _, named⟩ := mem_allowed.mp ((allowed.map _).subset listed)
        exact ⟨named ▸ (mem_pending.mp pending).2, (given holder result first).1⟩
      · obtain ⟨here, listed⟩ := mem_refusals second
        obtain ⟨held, pending, _, named⟩ := mem_refused.mp listed
        exact ⟨named ▸ (mem_pending.mp pending).2, here⟩
    rcases List.mem_append.mp called with old | new
    · rw [same] at unanswered
      exact unanswered.2.trans (resumable.placed owner call old unanswered.1).symm
    · have listed := mem_callIdsOf.mpr ⟨owner, call, new, rfl⟩
      rw [callIdsOf_append, noCall, callIdsOf_refusals] at listed
      cases listed
  once := once
  real run member := by
    obtain ⟨owner, now, held⟩ := real run member
    exact ⟨owner, now, List.mem_append_left _ held⟩
  refused owner result member denied := by
    rcases List.mem_append.mp member with first | second
    · exact absurd denied (given owner result first).2
    · obtain ⟨_, listed⟩ := mem_refusals second
      obtain ⟨held, pending, other, named⟩ := mem_refused.mp listed
      obtain ⟨⟨holder, present⟩, left⟩ := mem_pending.mp pending
      rcases resumable.decided holder held present left with allowed | ⟨_, denied⟩
      · exact absurd allowed other
      · exact named ▸ denied

private theorem allowed_or_refused {owner : String} {call : ToolCallBlock}
    (member : (owner, ContentBlock.toolCall call) ∈ owned context)
    (pending : call.id ∉ resultIdsOf (owned context)) :
    call.id ∈ (allowedCalls context).map ToolCall.id ∨
      call.id ∈ (refusedCalls context).map ToolCall.id := by
  have listed := mem_pending.mpr ⟨⟨owner, member⟩, pending⟩
  by_cases allowed : call.state = .allowed
  · exact Or.inl (mem_allowed.mpr ⟨call, listed, allowed, rfl⟩)
  · exact Or.inr (mem_refused.mpr ⟨call, listed, allowed, rfl⟩)

private theorem resume_whole {interrupted : Bool} (target now : String)
    (goesOn : raises permissions facts interrupted (allowedCalls state.context) = true →
      allowedCalls state.context = [] ∨ refusedCalls state.context = []) :
    state.resume permissions target now facts interrupted =
      { state.execute permissions target now (allowedCalls state.context) facts with
        context := (refusedCalls state.context).foldl (denyCall target now)
          (state.execute permissions target now (allowedCalls state.context) facts).context } := by
  unfold resume
  dsimp only
  by_cases nothing : allowedCalls state.context = []
  · rw [if_pos nothing, nothing, execute_nothing]
  · rw [if_neg nothing]
    by_cases raised : raises permissions facts interrupted (allowedCalls state.context) = true
    · have unrefused := (goesOn raised).resolve_left nothing
      rw [if_pos raised, unrefused]
      rfl
    · rw [if_neg raised]

private theorem sound_resume {interrupted : Bool} {target now : String}
    (core : Core (owned state.context) state.ran state.denials)
    (resumable : Resumable (owned state.context) state.denials target)
    (uniform : Uniform permissions facts (allowedCalls state.context))
    (goesOn : raises permissions facts interrupted (allowedCalls state.context) = true →
      allowedCalls state.context = [] ∨ refusedCalls state.context = []) :
    Sound (state.resume permissions target now facts interrupted) := by
  rw [resume_whole target now goesOn]
  rcases uniform.recorded_or_asked with none | ⟨filled, all, unrun⟩
  · obtain ⟨hints, recorded⟩ := owned_executed target now (List.Perm.refl _) core.calls none
    have answers := callIds_answers permissions facts now (allowedCalls state.context) hints
    have distinct : (callIdsOf (restateOwned
        (stateOf ((allowedCalls state.context).map ToolCall.id) .finished) (owned state.context) ++
          (resultsOf permissions facts now (allowedCalls state.context) ++
            hints.map (hintBlock now)).map fun block => (target, block))).Nodup := by
      rw [callIdsOf_append, callIdsOf_restateOwned, callIdsOf_placed, answers, List.append_nil]
      exact core.calls
    have left := owned_denyCalls target now (refusedCalls state.context) recorded distinct
    rw [restateOwned_append, restateOwned_twice, restateOwned_blocks _ answers,
      List.append_assoc] at left
    have adds := adds_resume now core.calls resumable
      ((callIdsOf_placed target _).trans answers)
      (resultIds_answers permissions facts now target (allowedCalls state.context) hints)
      (List.Sublist.refl _)
      (fun owner result member => ⟨(mem_answers member).1, (mem_answers member).2.2⟩)
      (runs_once ((decided_nodup core.calls).sublist (List.sublist_append_left _ _)))
      (fun run member => ⟨target, now, real_answers now target hints member⟩)
    refine Sound.of_perm left (core.extend adds (fun _ held => held) _) ?_
    intro owner call member pending
    rw [resultIdsOf_append, resultIdsOf_restateOwned, resultIdsOf_append, resultIds_answers,
      List.mem_append, not_or] at pending
    rcases List.mem_append.mp member with old | new
    · obtain ⟨held, present, rfl⟩ := mem_restateOwned_call.mp old
      rcases allowed_or_refused present pending.1 with allowed | refused
      · exact absurd (List.mem_append_left _ allowed) pending.2
      · exact absurd (List.mem_append_right _ ((resultIdsOf_refusals ..).symm ▸ refused)) pending.2
    · have listed := mem_callIdsOf.mpr ⟨owner, call, new, rfl⟩
      have noCall := congrArg₂ (· ++ ·) ((callIdsOf_placed target _).trans answers)
        (callIdsOf_refusals target now (refusedCalls state.context))
      rw [callIdsOf_append] at listed
      exact absurd (noCall ▸ listed) List.not_mem_nil
  · have asked := owned_asked target now (List.Perm.refl _) core.calls filled all
    have distinct : (callIdsOf (restateOwned
        (stateOf ((allowedCalls state.context).map ToolCall.id) .asking)
        (owned state.context))).Nodup := by
      rw [callIdsOf_restateOwned]
      exact core.calls
    have left := owned_denyCalls target now (refusedCalls state.context) asked distinct
    rw [restateOwned_comp] at left
    have adds : Adds (owned state.context) ([] ++ refusals target now (refusedCalls state.context))
        [] state.denials :=
      adds_resume now core.calls resumable rfl rfl (List.nil_sublist _)
        (fun _ _ never => by cases never) List.nodup_nil (fun _ never => by cases never)
    have after := core.extend adds (fun _ held => held)
      (fun call => stateOf ((refusedCalls state.context).map ToolCall.id) .finished
        { call with state := stateOf ((allowedCalls state.context).map ToolCall.id) .asking call })
    rw [← runs_none unrun] at after
    refine Sound.of_perm left after ?_
    intro owner call member pending
    rw [resultIdsOf_append, resultIdsOf_restateOwned, List.mem_append, not_or] at pending
    rcases List.mem_append.mp member with old | new
    · obtain ⟨held, present, rfl⟩ := mem_restateOwned_call.mp old
      have unrefused : held.id ∉ (refusedCalls state.context).map ToolCall.id := fun refused =>
        pending.2 ((resultIdsOf_refusals ..).symm ▸ refused)
      have allowed := (allowed_or_refused present pending.1).resolve_right unrefused
      left
      unfold stateOf
      dsimp only
      rw [if_neg unrefused, if_pos allowed]
    · have listed := mem_callIdsOf.mpr ⟨owner, call, new, rfl⟩
      have noCall := callIdsOf_refusals target now (refusedCalls state.context)
      exact absurd (noCall ▸ listed) List.not_mem_nil

private theorem owned_accepted {context accepted : List Msg} {event : ConfirmEvent}
    (distinct : (callIds (blocks context)).Nodup)
    (done : Reply.acceptConfirmation context event.toolCallId event.approved = some accepted) :
    ∃ state : ToolCallBlock → ToolCallState,
      owned accepted = restateOwned state (owned context) ∧
        ∀ call, state call = call.state ∨
          call.id = event.toolCallId ∧ state call = Reply.expectedState event.approved := by
  unfold Reply.acceptConfirmation at done
  split at done
  · cases done
  · rename_i call _
    by_cases asking : call.state = .asking
    · rw [if_pos asking] at done
      cases done
      refine ⟨stateOf [event.toolCallId] (Reply.expectedState event.approved),
        owned_setToolCallState _ _ distinct, fun other => ?_⟩
      unfold stateOf
      by_cases same : other.id ∈ [event.toolCallId]
      · exact Or.inr ⟨List.mem_singleton.mp same, if_pos same⟩
      · exact Or.inl (if_neg same)
    · rw [if_neg asking] at done
      obtain ⟨_, same⟩ := Option.ite_none_right_eq_some.mp done
      cases same
      refine ⟨stateOf [] .asking, (restateOwned_nil _ _).symm, fun other => ?_⟩
      exact Or.inl (if_neg List.not_mem_nil)

private theorem adds_nothing (entries : List (String × ContentBlock)) (denials : List String) :
    Adds entries [] [] denials where
  calls := List.nodup_nil
  apart _ never := by cases never
  results := List.nodup_nil
  unanswered _ never := by cases never
  placed _ _ _ _ _ never := by cases never
  once := List.nodup_nil
  real _ never := by cases never
  refused _ _ never := by cases never

private theorem sound_confirm {permissions : ToolPermissions} {state : Approvals}
    (sound : state.Sound) {event : ConfirmEvent} {now : String} {facts : ToolCall → ToolFacts}
    {interrupted : Bool} (whole : Whole permissions state (.confirm event now facts interrupted)) :
    Sound (state.confirmed permissions event now facts interrupted) := by
  unfold confirmed
  cases done : Reply.acceptConfirmation state.context event.toolCallId event.approved with
  | none => exact sound
  | some context =>
      dsimp only
      have distinct : (callIds (blocks state.context)).Nodup := by
        rw [← callIdsOf_owned]
        exact sound.core.calls
      obtain ⟨set, same, kept⟩ := owned_accepted distinct done
      have grown : ∀ id ∈ state.denials, id ∈ if event.approved then state.denials
          else event.toolCallId :: state.denials := by
        intro id member
        split
        · exact member
        · exact List.mem_cons_of_mem _ member
      have core := sound.core.extend (adds_nothing _ _) grown set
      rw [List.append_nil, List.append_nil, ← same] at core
      have decided : ∀ owner call, (owner, ContentBlock.toolCall call) ∈ owned context →
          call.id ∉ resultIdsOf (owned context) → call.state = .asking ∨
            Decided (if event.approved then state.denials
              else event.toolCallId :: state.denials) call := by
        intro owner call member pending
        rw [same, resultIdsOf_restateOwned] at pending
        rw [same] at member
        obtain ⟨held, present, rfl⟩ := mem_restateOwned_call.mp member
        rcases kept held with unchanged | ⟨named, expected⟩
        · dsimp only at pending ⊢
          unfold Decided
          dsimp only
          rw [unchanged]
          rcases sound.waits owner held present pending with asking | ⟨allowed | refused, _⟩
          · exact Or.inl asking
          · exact Or.inr (Or.inl allowed)
          · exact Or.inr (Or.inr ⟨refused.1, grown _ refused.2⟩)
        · right
          unfold Decided
          dsimp only
          rw [expected]
          cases event.approved with
          | true => exact Or.inl rfl
          | false => exact Or.inr ⟨rfl, named ▸ List.mem_cons_self⟩
      by_cases settled : (toolCallsInState context .asking).isEmpty = true
      · rw [if_pos settled]
        have quiet := List.isEmpty_iff.mp settled
        obtain ⟨placed, uniform, goesOn⟩ := whole context done quiet
        refine sound_resume core ?_ uniform goesOn
        exact
          { quiet := asking_owned.mp quiet
            decided := fun owner call member pending =>
              (decided owner call member pending).resolve_left
                (asking_owned.mp quiet owner call member)
            placed := fun owner call member pending =>
              placed owner call member (resultIdsOf_owned context ▸ pending) }
      · rw [if_neg settled]
        have waiting : ∃ holder other, (holder, ContentBlock.toolCall other) ∈ owned context ∧
            other.state = .asking := by
          by_contra none
          push Not at none
          exact settled (List.isEmpty_iff.mpr (asking_owned.mpr none))
        exact ⟨core, fun owner call member pending =>
          (decided owner call member pending).imp_right fun held => ⟨held, waiting⟩⟩

theorem sound_step {before after : Approvals} {action : ApprovalAction} (sound : before.Sound)
    (whole : Whole permissions before action)
    (stepped : (system permissions).step before action = some after) : after.Sound := by
  cases action with
  | told message =>
      simp only [system, step] at stepped
      split at stepped
      · cases stepped
      · rename_i plain
        cases stepped
        exact sound_plain sound (Bool.eq_false_iff.mpr plain)
          (List.Perm.of_eq (owned_told _ message))
  | said target now blocks =>
      simp only [system, step] at stepped
      split at stepped
      · cases stepped
      · rename_i plain
        cases stepped
        exact sound_plain sound (Bool.eq_false_iff.mpr plain) (owned_appendReplyBlocks _ _ _ _)
  | batch target now calls facts =>
      cases stepped
      obtain ⟨distinct, fresh, uniform⟩ := whole
      exact sound_batch sound distinct fresh uniform
  | confirm event now facts interrupted =>
      cases stepped
      exact sound_confirm sound whole

/-- Over any history of whole batches and their confirmations every call is run
at most once, answered once in its own message with what came out, and refused
only by the user. -/
theorem approvalLaw_of_whole {permissions : ToolPermissions} {state : Approvals}
    (reached : (system permissions).Reaches (Whole permissions) { context := [] } state) :
    state.ApprovalLaw := by
  have initially : Sound { context := [] } :=
    { core :=
        { calls := List.nodup_nil
          results := List.nodup_nil
          once := List.nodup_nil
          real := fun _ never => by cases never
          held := fun _ _ _ _ never => by cases never
          refused := fun _ _ never => by cases never }
      waits := fun _ _ never => by cases never }
  exact (reached.invariant initially fun _ _ _ sound whole stepped =>
    sound_step sound whole stepped).law

private def asksForShell : ToolPermissions where
  fullmatch := fun _ _ => false
  context := some ⟨[⟨"rule", "shell", .empty, .ask, 0, true⟩], .allow⟩
  hasApproval := true

private def reading : ToolCall := ⟨"first", "read", .empty⟩

private def running : ToolCall := ⟨"second", "shell", .empty⟩

private def answered (outcome : ApprovalOutcome) : ToolCall → ToolFacts := fun _ =>
  { before := .proceed
    approval := ⟨outcome, ""⟩
    cancelled := false
    outcome := ⟨"done", none, .empty, none, none⟩ }

/-- The user allows the call that asks, and the one that was run beside it is recorded as refused.
-/
theorem run_beside_asking_is_denied :
    ∃ state, (system asksForShell).Reaches StepSystem.anyStep { context := [] } state ∧
      state.denials = [] ∧ reading ∈ state.ran.map Prod.fst ∧
      ("message", .toolResult (deniedBlock reading "")) ∈
        owned state.context ∧ ¬ state.ApprovalLaw := by
  refine ⟨?final, ?run, ?undenied, ?ran, ?denied, ?fact⟩
  case run =>
    refine .head (.batch "message" "" [reading, running] (answered .unavailable)) trivial rfl ?_
    refine .head (.confirm ⟨"message", "second", true⟩ "" (answered .allowed) false) trivial rfl ?_
    exact Relation.ReflTransGen.refl
  case undenied => rfl
  case ran => exact List.mem_cons_self
  case denied => decide
  case fact =>
    intro law
    have never := law.refused "message" (deniedBlock reading "") (by decide) rfl
    exact absurd never List.not_mem_nil

private def removing : ToolCall := ⟨"third", "shell", .empty⟩

private def waitingBatch : ApprovalAction :=
  .batch "message" "" [running, removing] (answered .unavailable)

private def waitingState : Approvals :=
  execute asksForShell { context := enterCalls "message" "" [] [running, removing] } "message" ""
    [running, removing] (answered .unavailable)

private def allowing : ApprovalAction :=
  .confirm ⟨"message", "second", true⟩ "" (answered .allowed) false

private def refusing : ApprovalAction :=
  .confirm ⟨"message", "third", false⟩ "" (answered .allowed) false

private def allowedState : Approvals :=
  { waitingState with context := setToolCallState waitingState.context "second" .allowed }

private theorem whole_waitingBatch : Whole asksForShell { context := [] } waitingBatch := by
  refine ⟨by decide, fun call _ => ⟨List.not_mem_nil, List.not_mem_nil⟩, Or.inr ?_⟩
  intro call member
  have shell : call.name = "shell" := by
    rcases List.mem_pair.mp member with rfl | rfl <;> rfl
  obtain ⟨id, name, arguments⟩ := call
  cases shell
  exact ⟨nofun, rfl⟩

private theorem whole_allowing : Whole asksForShell waitingState allowing := by
  intro context done quiet
  have accepted : Reply.acceptConfirmation waitingState.context "second" true =
      some allowedState.context := rfl
  cases accepted.symm.trans done
  cases quiet

private theorem whole_refusing : Whole asksForShell allowedState refusing := by
  intro context done quiet
  have accepted : Reply.acceptConfirmation allowedState.context "third" false =
      some (setToolCallState allowedState.context "third" .finished) := rfl
  cases accepted.symm.trans done
  refine ⟨fun owner call member pending => ?_, Or.inl fun call member => ?_, nofun⟩
  · rcases List.mem_pair.mp member with same | same <;> cases same <;> rfl
  · cases List.mem_singleton.mp member
    rfl

/-- The allowed call is run and the refused one is answered without it. -/
theorem allowed_call_is_answered :
    ∃ state, (system asksForShell).Reaches (Whole asksForShell) { context := [] } state ∧
      state.ran.map Prod.fst = [running] ∧ state.denials = ["third"] ∧
      resultIds state.context = ["second", "third"] ∧ state.ApprovalLaw := by
  refine ⟨?final, ?run, ?ran, ?refused, ?results, approvalLaw_of_whole ?run⟩
  case run =>
    refine .head waitingBatch whole_waitingBatch rfl ?_
    refine .head allowing whole_allowing rfl ?_
    refine .head refusing whole_refusing rfl ?_
    exact Relation.ReflTransGen.refl
  case ran => rfl
  case refused => rfl
  case results => rfl

end Approvals

end Ftre.Runtime
