import Ftre.Runtime.ContextSettlement

/-!
Open tool blocks after a turn.
-/

namespace Ftre.Runtime

open Lib Message Session

namespace Reply

open MessageContext

/-! ### Messages after an event -/

theorem stable_of_content {left right : Msg} (same : left.content = right.content) :
    isStableMessage left = isStableMessage right := by
  unfold isStableMessage
  rw [same]

theorem stable_iff (message : Msg) :
    isStableMessage message = true ↔ ∀ block ∈ message.content, openBlock block = false := by
  unfold isStableMessage
  rw [Bool.not_eq_true', List.any_eq_false]
  exact ⟨fun none block member => Bool.eq_false_iff.mpr (none block member),
    fun none block member => Bool.eq_false_iff.mp (none block member)⟩

private theorem stable_userBlock (messageId timeIso : String) (index : Nat) (raw : Json) :
    openBlock (userBlock messageId timeIso index raw) = false := by
  unfold userBlock
  dsimp only
  repeat' split
  all_goals rfl

theorem stable_userMessageOf (event : Event) (content : List Json)
    (metadata : KeyedTable String Json) :
    isStableMessage (userMessageOf event content metadata) = true := by
  rw [stable_iff]
  intro block member
  obtain ⟨index, bound, rfl⟩ := List.mem_mapIdx.mp member
  exact stable_userBlock ..

theorem stable_compactMessageOf (event : Event) (data : CompactData) :
    isStableMessage (compactMessageOf event data) = true := by
  unfold compactMessageOf
  split <;> rfl

def KeepsContent (before after : FoldState) : Prop :=
  ∀ message ∈ after.messages.items, isStableMessage message = true ∨
    ∃ held ∈ before.messages.items, held.id = message.id ∧ held.content = message.content

theorem keepsContent_refl (fold : FoldState) : KeepsContent fold fold :=
  fun message member => Or.inr ⟨message, member, rfl, rfl⟩

variable {before after : FoldState} {emitted : List String} {reply : Reply} {item : Yield}
  {entry : Appended} {response : Response}

private theorem keepsContent_update (keeps : KeepsContent before after) {message changed : Msg}
    (member : message ∈ after.messages.items) (sameId : changed.id = message.id)
    (sameContent : changed.content = message.content) :
    KeepsContent before (after.update changed) := by
  intro other held
  rcases KeyedList.mem_put held with rfl | there
  · rcases keeps message member with stable | ⟨source, found, named, filled⟩
    · exact Or.inl ((stable_of_content sameContent).trans stable)
    · exact Or.inr ⟨source, found, named.trans sameId.symm, filled.trans sameContent.symm⟩
  · exact keeps other there

private theorem keepsContent_insert (keeps : KeepsContent before after) {message : Msg}
    (stable : isStableMessage message = true) : KeepsContent before (after.insert message) := by
  intro other held
  rcases KeyedList.mem_put held with rfl | there
  · exact Or.inl stable
  · exact keeps other there

private theorem keepsContent_seal (fold : FoldState) (event : Event) :
    KeepsContent fold (fold.sealPreviousAssistant event) := by
  unfold FoldState.sealPreviousAssistant
  cases target : FoldState.sealTarget fold.messages.items with
  | none => exact keepsContent_refl fold
  | some message =>
      exact keepsContent_update (keepsContent_refl fold) (FoldState.sealTarget_mem target) rfl rfl

theorem keepsContent_foreign (fold : FoldState) (event : Event)
    (foreign : isForeign event.data = true) : KeepsContent fold (applyEvent fold event) := by
  unfold applyEvent
  cases shape : event.data with
  | userMessage content metadata requestId =>
      exact keepsContent_insert (keepsContent_seal fold event) (stable_userMessageOf ..)
  | compactMessage data =>
      exact keepsContent_insert (keepsContent_seal fold event) (stable_compactMessageOf ..)
  | turnStart data => exact keepsContent_refl fold
  | sessionStatus status reason => exact keepsContent_refl fold
  | _ =>
      rw [shape] at foreign
      cases foreign

theorem keepsContent_turnEnd (fold : FoldState) (seq time : Int) (messageId : Option String)
    (data : TurnEndData) :
    KeepsContent fold (applyEvent fold ⟨seq, time, messageId, .turnEnd data⟩) := by
  change KeepsContent fold (fold.finishTurn _ data)
  unfold FoldState.finishTurn
  cases target : (Event.target ⟨seq, time, messageId, .turnEnd data⟩).bind fold.messages.find? with
  | none => exact keepsContent_refl fold
  | some message =>
      dsimp only
      by_cases assistant : message.role = .assistant
      · rw [if_pos assistant]
        obtain ⟨_, _, found⟩ := Option.bind_eq_some_iff.mp target
        exact keepsContent_update (keepsContent_refl fold) (KeyedList.find?_mem found).1 rfl rfl
      · rw [if_neg assistant]
        exact keepsContent_refl fold

theorem AllStable.keeps (stable : AllStable before) (keeps : KeepsContent before after) :
    AllStable after := by
  intro message member
  rcases keeps message member with closed | ⟨held, found, _, same⟩
  · exact closed
  · exact (stable_of_content same).symm.trans (stable held found)

structure Covers (fold : FoldState) (finals : List Msg) (emitted : List String) : Prop where
  closed : ∀ payload ∈ finals, isStableMessage payload = true
  replaced : ∀ message ∈ fold.messages.items, isStableMessage message = true ∨
    ∃ payload ∈ finals, payload.id = message.id ∧ (payload.id = "" ∨ payload.id ∉ emitted)

theorem Covers.keeps {finals : List Msg} (covers : Covers before finals emitted)
    (keeps : KeepsContent before after) :
    Covers after finals emitted where
  closed := covers.closed
  replaced message member := by
    rcases keeps message member with closed | ⟨held, found, named, same⟩
    · exact Or.inl closed
    · rcases covers.replaced held found with closed | ⟨payload, later, named', fresh⟩
      · exact Or.inl ((stable_of_content same).symm.trans closed)
      · exact Or.inr ⟨payload, later, named'.trans named, fresh⟩

variable {fold : FoldState} {payload : Msg} {rest : List Msg} {cancelled : Bool}
  {context : List Msg} {reply next : Reply} {inputs : List ContextInput}

theorem Covers.of_stable (stable : AllStable fold) (emitted : List String) :
    Covers fold [] emitted where
  closed _ never := by cases never
  replaced message member := Or.inl (stable message member)

theorem Covers.done {fold : FoldState} {emitted : List String} (covers : Covers fold [] emitted) :
    AllStable fold := by
  intro message member
  rcases covers.replaced message member with closed | ⟨_, never, _⟩
  · exact closed
  · cases never

private theorem Covers.append {emitted appended : List String}
    (covers : Covers fold (payload :: rest) emitted)
    (grown : ∀ id, id ≠ payload.id → id ∉ emitted → id ∉ appended) (seq time : Int) :
    Covers (applyEvent fold ⟨seq, time, some payload.id, .assistantMessage payload⟩) rest
      appended where
  closed other member := covers.closed other (List.mem_cons_of_mem _ member)
  replaced message member := by
    change message ∈ (fold.messages.put (assistantMessageOf _ payload)).items at member
    have named := assistantMessageOf_id seq time payload (.assistantMessage payload)
    have stable : isStableMessage (assistantMessageOf
        ⟨seq, time, some payload.id, .assistantMessage payload⟩ payload) = true :=
      (stable_of_content rfl).trans (covers.closed payload List.mem_cons_self)
    by_cases same : message.id = payload.id
    · have found := KeyedList.find?_of_mem member
      rw [KeyedList.find?_put, if_pos (named.trans same.symm)] at found
      cases found
      exact Or.inl stable
    · rcases KeyedList.mem_put member with rfl | held
      · exact absurd named same
      · rcases covers.replaced message held with closed | ⟨other, later, identified, fresh⟩
        · exact Or.inl closed
        · rcases List.mem_cons.mp later with rfl | remaining
          · exact absurd identified.symm same
          · refine Or.inr ⟨other, remaining, identified, fresh.imp_right ?_⟩
            exact grown other.id (identified.symm ▸ same)

private theorem Covers.pass (covers : Covers fold (payload :: rest) emitted)
    (identified : payload.id ≠ "") (seen : payload.id ∈ emitted) : Covers fold rest emitted where
  closed other member := covers.closed other (List.mem_cons_of_mem _ member)
  replaced message member := by
    rcases covers.replaced message member with closed | ⟨other, later, same, fresh⟩
    · exact Or.inl closed
    · rcases List.mem_cons.mp later with rfl | remaining
      · exact absurd seen (fresh.resolve_left identified)
      · exact Or.inr ⟨other, remaining, same, fresh⟩

/-! ### The calls that a run still has to finish -/

def denied (reply : Reply) : List ToolCall := reply.prologue.getD []

def pending (reply : Reply) : List String :=
  match reply.phase with
  | .deciding (some prev) => if prev.failed then [] else prev.toolCalls.map ToolCall.id
  | .starting calls _ => (calls ++ reply.denied).map ToolCall.id
  | .waiting calls => (calls ++ reply.denied).map ToolCall.id
  | .recording calls _ _ _ => (calls.map Prod.fst ++ reply.denied).map ToolCall.id
  | .denying calls => calls.map ToolCall.id
  | .denyingStarted calls => calls.map ToolCall.id
  | .denyingSaid _ calls => calls.map ToolCall.id
  | _ => []

def inBatch : RunPhase → Bool
  | .starting _ _ => true
  | .waiting _ => true
  | .recording _ _ _ _ => true
  | _ => false

def inRun : RunPhase → Bool
  | .idle => false
  | .building => false
  | .retrying _ => false
  | .entering _ => false
  | .closing _ _ => false
  | _ => true

structure Running (reply : Reply) : Prop where
  settled : Settled (blocks reply.context) reply.pending
  unpaused : reply.paused = false
  unresumed : inBatch reply.phase = false → reply.prologue = none
  refused : ∀ calls saying hints, reply.phase = .recording calls saying hints true →
    reply.denied = []

def Kept (reply : Reply) : Prop :=
  match reply.phase with
  | .idle => reply.ended = some false → AllStable reply.fold
  | .building => reply.paused = false
  | .entering _ => reply.paused = false
  | .retrying _ => reply.paused = false ∧ Settled (blocks reply.context) []
  | .asking _ => reply.prologue = none
  | .exited => reply.paused = true ∨ Settled (blocks reply.context) []
  | .closing finals emitted => reply.paused = true ∨ Covers reply.fold finals emitted
  | _ => reply.Running

structure Onward (reply : Reply) : Prop where
  kept : reply.Kept
  settled : Settled (blocks reply.context) reply.pending
  running : inRun reply.phase = true

theorem Running.congr {left right : Reply} (running : left.Running)
    (phase : right.phase = left.phase) (context : right.context = left.context)
    (prologue : right.prologue = left.prologue) (paused : right.paused = left.paused) :
    right.Running where
  settled := by
    have same : right.pending = left.pending := by
      unfold pending denied
      rw [phase, prologue]
    rw [same, context]
    exact running.settled
  unpaused := paused.trans running.unpaused
  unresumed outside := prologue.trans (running.unresumed (phase ▸ outside))
  refused calls saying hints recording := by
    unfold denied
    rw [prologue]
    exact running.refused calls saying hints (phase.symm.trans recording)

theorem Kept.congr {left right : Reply} (kept : left.Kept) (phase : right.phase = left.phase)
    (context : right.context = left.context) (prologue : right.prologue = left.prologue)
    (paused : right.paused = left.paused) (ended : right.ended = left.ended)
    (safe : inRun left.phase = true ∨ KeepsContent left.fold right.fold) : right.Kept := by
  have running := fun held : left.Running => held.congr phase context prologue paused
  unfold Kept at kept ⊢
  rw [phase, paused, context, prologue, ended]
  cases shape : left.phase with
  | idle =>
      rw [shape] at kept safe
      intro finished
      exact (kept finished).keeps (safe.resolve_left Bool.false_ne_true)
  | closing finals emitted =>
      rw [shape] at kept safe
      exact kept.imp_right fun covers => covers.keeps (safe.resolve_left Bool.false_ne_true)
  | _ =>
      rw [shape] at kept
      first
        | exact kept
        | exact running kept

theorem noted_fields (reply : Reply) (entry : Appended) :
    (reply.noted entry).phase = reply.phase ∧ (reply.noted entry).context = reply.context ∧
      (reply.noted entry).prologue = reply.prologue ∧ (reply.noted entry).paused = reply.paused ∧
      (reply.noted entry).ended = reply.ended ∧ (reply.noted entry).fold = reply.fold := by
  rw [noted_eq]
  exact ⟨rfl, rfl, rfl, rfl, rfl, rfl⟩

theorem kept_noted (kept : reply.Kept) (entry : Appended) : (reply.noted entry).Kept := by
  obtain ⟨phase, context, prologue, paused, ended, fold⟩ := reply.noted_fields entry
  exact kept.congr phase context prologue paused ended (Or.inr (fold ▸ keepsContent_refl _))

theorem kept_push (kept : reply.Kept) (entry : Appended)
    (safe : inRun reply.phase = true ∨ KeepsContent reply.fold (reply.push entry).fold) :
    (reply.push entry).Kept :=
  kept.congr rfl rfl rfl rfl rfl safe

theorem onward_finalize {reply : Reply} (settled : Settled (blocks reply.context) [])
    (reason : ReplyFinishedReason) : (reply.finalize reason).Onward where
  kept := Or.inr settled
  settled := settled
  running := rfl

theorem Running.onward {reply : Reply} (running : reply.Running) (kept : reply.Running → reply.Kept)
    (active : inRun reply.phase = true) : reply.Onward :=
  ⟨kept running, running.settled, active⟩

private theorem onward_deny {calls : List ToolCall}
    (settled : Settled (blocks reply.context) (calls.map ToolCall.id))
    (unpaused : reply.paused = false) : (reply.deny calls).Onward := by
  cases calls with
  | nil => exact Running.onward ⟨settled, unpaused, fun _ => rfl, nofun⟩ id rfl
  | cons call rest => exact Running.onward ⟨settled, unpaused, fun _ => rfl, nofun⟩ id rfl

private theorem onward_afterBatch
    (settled : Settled (blocks reply.context) (reply.denied.map ToolCall.id))
    (unpaused : reply.paused = false) (refused : cancelled = true → reply.denied = []) :
    (reply.afterBatch cancelled).Onward := by
  unfold afterBatch
  cases prologue : reply.prologue with
  | none =>
      have nobody : reply.denied = [] := by rw [denied, prologue, Option.getD_none]
      rw [nobody] at settled
      cases cancelled with
      | true => exact onward_finalize settled .interrupted
      | false => exact Running.onward ⟨settled, unpaused, fun _ => rfl, nofun⟩ id rfl
  | some calls =>
      have same : reply.denied = calls := by rw [denied, prologue, Option.getD_some]
      rw [same] at settled
      cases cancelled with
      | true =>
          have nobody : calls = [] := same.symm.trans (refused rfl)
          rw [nobody] at settled
          exact onward_finalize settled .error
      | false => exact onward_deny settled unpaused

private theorem onward_record {reply : Reply} {calls : List (ToolCall × ToolOutcome)}
    {saying : Option (ToolCall × ToolOutcome)} {hints : List String} {cancelled : Bool}
    (settled : Settled (blocks reply.context)
      ((calls.map Prod.fst ++ reply.denied).map ToolCall.id))
    (unpaused : reply.paused = false) (refused : cancelled = true → reply.denied = []) :
    (reply.record calls saying hints cancelled).Onward := by
  have recording : Running { reply with phase := .recording calls saying hints cancelled } := by
    refine ⟨settled, unpaused, nofun, ?_⟩
    intro _ _ _ shape
    cases shape
    exact refused rfl
  cases calls with
  | cons call rest => exact recording.onward id rfl
  | nil =>
      cases saying with
      | some said => exact recording.onward id rfl
      | none =>
          cases hints with
          | cons hint rest => exact recording.onward id rfl
          | nil => exact onward_afterBatch settled unpaused refused

/-! ### What a yield does -/

theorem settled_addBlocks {pending : List String} (settled : Settled (blocks reply.context) pending)
    {added : List ContentBlock} (inert : ∀ block ∈ added, Inert block) :
    Settled (blocks (reply.addBlocks added).context) pending :=
  (settled.addInert inert).perm (blocks_appendReplyBlocks ..)

theorem settled_addHint {pending : List String} (settled : Settled (blocks reply.context) pending)
    (hint source : String) : Settled (blocks (reply.addHint hint source).context) pending := by
  apply settled_addBlocks settled
  intro block member
  rw [List.mem_singleton.mp member]
  exact ⟨rfl, rfl⟩

private theorem settled_addToolResult {pending : List String}
    (settled : Settled (blocks context) pending) (messageId toolCallId name content : String)
    (state : ToolResultState) (settledState : state ≠ .running) (metadata : KeyedTable String Json)
    (now : String) :
    Settled (blocks (addToolResult context messageId toolCallId name content state metadata now))
      pending := by
  refine (settled.addInert ?_).perm (blocks_appendReplyBlocks ..)
  intro block member
  rw [List.mem_singleton.mp member]
  exact ⟨rfl, decide_eq_false settledState⟩

theorem settled_recordResult {call : ToolCall} {rest : List String}
    (settled : Settled (blocks reply.context) (call.id :: rest)) (outcome : ToolOutcome) :
    Settled (blocks (reply.recordResult call outcome).context) rest := by
  apply settled_addToolResult
  · rw [blocks_setToolCallState]
    exact settled.finish
  · cases outcome.failed <;> exact nofun

theorem settled_denyCall {call : ToolCall} {rest : List String}
    (settled : Settled (blocks reply.context) (call.id :: rest)) :
    Settled (blocks (reply.denyCall call).context) rest := by
  change Settled (blocks (setToolCallState (addToolResult ..) _ _)) rest
  rw [blocks_setToolCallState]
  exact (settled_addToolResult settled _ _ _ _ .denied nofun _ _).finish

theorem onward_advance (running : reply.Running) (quiet : ∀ asks, reply.phase ≠ .asking asks)
    (advanced : reply.advance item = some (next, entry)) : next.Onward := by
  obtain ⟨settled, unpaused, unresumed, refused⟩ := running
  unfold advance at advanced
  unfold pending at settled
  split at advanced
  all_goals rename_i shape
  case h_1 =>
    cases advanced
    rw [shape] at settled unresumed
    exact Running.onward ⟨settled, unpaused, unresumed, nofun⟩ id rfl
  case h_2 =>
    cases advanced
    rw [shape] at settled unresumed
    exact Running.onward ⟨settled, unpaused, unresumed, nofun⟩ id rfl
  case h_3 =>
    split at advanced
    · cases advanced
    · cases advanced
      rw [shape] at settled unresumed
      exact Running.onward ⟨settled, unpaused, unresumed, nofun⟩ id rfl
  case h_4 =>
    cases advanced
    rw [shape] at settled unresumed
    exact Running.onward ⟨settled, unpaused, unresumed, nofun⟩ id rfl
  case h_5 =>
    cases advanced
    rw [shape] at settled unresumed
    exact Running.onward ⟨settled_addHint settled _ _, unpaused, unresumed, nofun⟩ id rfl
  case h_6 =>
    rename_i calls call rest
    cases advanced
    rw [shape] at settled
    cases rest with
    | nil => exact Running.onward ⟨settled, unpaused, nofun, nofun⟩ id rfl
    | cons _ _ => exact Running.onward ⟨settled, unpaused, nofun, nofun⟩ id rfl
  case h_7 => exact absurd shape (quiet _)
  case h_8 =>
    rename_i call outcome rest hints cancelled
    rw [shape] at settled
    have recorded := @settled_recordResult reply _ _ settled outcome
    have left : cancelled = true → reply.denied = [] := by
      rintro rfl
      exact refused _ _ _ shape
    split at advanced
    · cases advanced
      exact onward_record recorded unpaused left
    · cases advanced
      exact onward_record recorded unpaused left
  case h_9 =>
    rename_i rest call outcome hints cancelled
    cases advanced
    rw [shape] at settled
    apply onward_record settled unpaused
    rintro rfl
    exact refused _ _ _ shape
  case h_10 =>
    rename_i hint hints cancelled
    cases advanced
    rw [shape] at settled
    apply onward_record (settled_addHint settled _ _) unpaused
    rintro rfl
    exact refused _ _ _ shape
  case h_11 =>
    cases advanced
    rw [shape] at settled unresumed
    exact Running.onward ⟨settled, unpaused, unresumed, nofun⟩ id rfl
  case h_12 =>
    cases advanced
    rw [shape] at settled unresumed
    exact Running.onward ⟨settled_denyCall settled, unpaused, unresumed, nofun⟩ id rfl
  case h_13 =>
    cases advanced
    rw [shape] at settled
    exact onward_deny settled unpaused
  case h_14 =>
    split at advanced
    · cases advanced
      rw [shape] at settled unresumed
      exact Running.onward ⟨settled_addHint settled _ _, unpaused, unresumed, nofun⟩ id rfl
    · cases advanced
  case h_15 => cases advanced

private theorem kept_asking {asks : List (ToolCall × String × Option String)}
    (unresumed : reply.prologue = none) (shape : reply.phase = .asking asks)
    (advanced : reply.advance item = some (next, entry)) : next.Kept ∧ inRun next.phase = true := by
  unfold advance at advanced
  rw [shape] at advanced
  cases asks with
  | nil => cases item <;> cases advanced
  | cons ask rest =>
      obtain ⟨call, reason, rule⟩ := ask
      cases item with
      | next =>
          dsimp only at advanced
          rw [unresumed] at advanced
          cases advanced
          cases rest with
          | nil => exact ⟨Or.inl rfl, rfl⟩
          | cons _ _ => exact ⟨rfl, rfl⟩
      | _ => cases advanced

/-! ### Entering a run -/

def inputBlocks : ContextInput → List ContentBlock
  | .typed message => message.content
  | .raw raw => raw.blocks

def Closed (blocks : List ContentBlock) : Prop := ∀ block ∈ blocks, openBlock block = false

private theorem closed_addRaw (closed : Closed (blocks context)) {input : ContextInput}
    (clean : Closed (inputBlocks input)) : Closed (blocks (addRaw context input)) := by
  have both (added : List ContentBlock) (same : added = inputBlocks input) :
      Closed (blocks context ++ (added ++ [])) := by
    rw [List.append_nil, same]
    intro block member
    rcases List.mem_append.mp member with held | new
    · exact closed block held
    · exact clean block new
  cases input with
  | typed message =>
      change Closed (blocks (context ++ [message]))
      rw [blocks_append]
      exact both message.content rfl
  | raw raw =>
      unfold addRaw
      dsimp only
      split
      · exact closed
      · rw [blocks_append]
        exact both raw.blocks rfl

theorem closed_addAll (closed : Closed (blocks context))
    (clean : ∀ input ∈ inputs, Closed (inputBlocks input)) :
    Closed (blocks (inputs.foldl addRaw context)) := by
  induction inputs generalizing context with
  | nil => exact closed
  | cons input rest ih =>
      apply ih (closed_addRaw closed (clean input List.mem_cons_self))
      exact fun other member => clean other (List.mem_cons_of_mem _ member)

structure Confirmable (context : List Msg) (toolCallId : String) (approved : Bool) : Prop where
  waiting : Settled (blocks context) ((pendingToolCalls context).map ToolCallBlock.id)
  accepted : acceptConfirmation context toolCallId approved = none → Closed (blocks context)

def EntersSettled (context : List Msg) : Entering → Prop
  | .messages inputs =>
      Closed (blocks context) ∧ ∀ input ∈ inputs, Closed (inputBlocks input)
  | .confirm toolCallId approved _ => Confirmable context toolCallId approved

private theorem kept_enterMessages (closed : Closed (blocks reply.context))
    (clean : ∀ input ∈ inputs, Closed (inputBlocks input)) (unpaused : reply.paused = false)
    (replyId messageId : String) : (reply.enterMessages inputs replyId messageId).Kept := by
  have settled := Settled.of_closed (closed_addAll closed clean)
  unfold enterMessages Runner.prepareNewReply
  split
  · exact Or.inr (Settled.of_closed closed)
  · rename_i runner prepared
    split at prepared
    · cases prepared
    · split at prepared
      · cases prepared
      · cases prepared
        exact Running.mk settled unpaused (fun _ => rfl) nofun

private theorem mem_allowed_or_not (calls : List ToolCallBlock) (id : String) :
    id ∈ ((calls.filter fun call => decide (call.state = .allowed)).map ofBlock ++
        (calls.filter fun call => decide (call.state ≠ .allowed)).map ofBlock).map ToolCall.id ↔
      id ∈ calls.map ToolCallBlock.id := by
  rw [List.map_append, List.map_map, List.map_map, List.mem_append, List.mem_map, List.mem_map,
    List.mem_map]
  constructor
  · rintro (⟨call, member, rfl⟩ | ⟨call, member, rfl⟩)
    · exact ⟨call, (List.mem_filter.mp member).1, rfl⟩
    · exact ⟨call, (List.mem_filter.mp member).1, rfl⟩
  · rintro ⟨call, member, rfl⟩
    by_cases allowed : call.state = .allowed
    · exact Or.inl ⟨call, List.mem_filter.mpr ⟨member, decide_eq_true allowed⟩, rfl⟩
    · exact Or.inr ⟨call, List.mem_filter.mpr ⟨member, decide_eq_true allowed⟩, rfl⟩

private theorem kept_resumeExecute {reply : Reply}
    (settled : Settled (blocks reply.context)
      ((pendingToolCalls reply.context).map ToolCallBlock.id))
    (unpaused : reply.paused = false) : reply.resumeExecute.Kept := by
  have resumed := settled.congr (mem_allowed_or_not (pendingToolCalls reply.context))
  unfold resumeExecute
  dsimp only
  split
  · rename_i nobody
    rw [nobody, List.nil_append] at resumed
    exact (onward_deny resumed unpaused).kept
  · exact Running.mk resumed unpaused nofun nofun

private theorem settled_acceptConfirmation {context accepted : List Msg} {toolCallId : String}
    {approved : Bool}
    (settled : Settled (blocks context) ((pendingToolCalls context).map ToolCallBlock.id))
    (accepts : acceptConfirmation context toolCallId approved = some accepted) :
    Settled (blocks accepted) ((pendingToolCalls accepted).map ToolCallBlock.id) := by
  unfold acceptConfirmation at accepts
  split at accepts
  · cases accepts
  · rename_i call found
    split at accepts
    · rename_i asking
      cases accepts
      have hit := List.find?_some found
      have named : call.id = toolCallId := of_decide_eq_true hit
      have member := List.mem_of_find?_eq_some found
      rw [toolCalls_eq, List.mem_filterMap] at member
      obtain ⟨block, held, called⟩ := member
      have waiting : openBlock block = true := by
        cases block with
        | toolCall other =>
            cases called
            exact decide_eq_true (asking ▸ nofun)
        | _ => cases called
      obtain ⟨other, same, awaited⟩ := settled.waits block held waiting
      rw [same] at called
      cases called
      rw [blocks_setToolCallState, pendingIds_setToolCallState]
      exact settled.setPending (named ▸ awaited) _
    · split at accepts
      · cases accepts
        exact settled
      · cases accepts

private theorem kept_enterConfirm {toolCallId : String} {approved : Bool}
    (confirmable : Confirmable reply.context toolCallId approved) (unpaused : reply.paused = false)
    (replyId : String) : (reply.enterConfirm toolCallId approved replyId).Kept := by
  unfold enterConfirm
  dsimp only
  split
  · rename_i refused
    exact Or.inr (Settled.of_closed (confirmable.accepted refused))
  · rename_i context accepts
    have settled := settled_acceptConfirmation confirmable.waiting accepts
    split
    · exact kept_resumeExecute settled unpaused
    · exact Or.inl rfl

/-! ### The loop -/

private theorem onward_reason (settled : Settled (blocks reply.context) [])
    (unpaused : reply.paused = false) (unresumed : reply.prologue = none) (hint : Option String) :
    (reply.reason hint).Onward :=
  Running.onward ⟨settled, unpaused, fun _ => unresumed, nofun⟩ id rfl

private theorem onward_decideNext {prev : Option TurnResult} (running : reply.Running)
    (shape : reply.phase = .deciding prev) : (reply.decideNext prev).Onward := by
  obtain ⟨settled, unpaused, unresumed, refused⟩ := running
  unfold pending at settled
  rw [shape] at settled unresumed
  have plain : reply.prologue = none := unresumed rfl
  unfold decideNext
  cases prev with
  | none =>
      dsimp only
      split
      · split
        · exact onward_finalize settled _
        · exact onward_reason settled unpaused plain _
      · exact onward_reason settled unpaused plain _
  | some prev =>
      dsimp only at settled ⊢
      cases failed : prev.failed with
      | true =>
          rw [failed] at settled
          exact onward_finalize settled .error
      | false =>
          rw [failed] at settled
          rw [if_neg Bool.false_ne_true]
          by_cases calls : prev.toolCalls = []
          · rw [calls] at settled
            rw [if_neg (not_not_intro calls)]
            split
            · exact Running.onward ⟨settled, unpaused, fun _ => plain, nofun⟩ id rfl
            · split
              · exact onward_finalize settled .error
              · split
                · apply onward_reason
                  exacts [settled, unpaused, plain]
                · apply onward_reason
                  exacts [settled, unpaused, plain]
          · rw [if_pos calls]
            refine Running.onward ⟨?_, unpaused, nofun, nofun⟩ id rfl
            change Settled _ ((prev.toolCalls ++ reply.denied).map ToolCall.id)
            rw [denied, plain, Option.getD_none, List.append_nil]
            exact settled

private theorem onward_afterHook {hint : Option String} {messages : List ContextInput}
    (running : reply.Running) (shape : reply.phase = .reasoning hint)
    (clean : ∀ input ∈ messages, Closed (inputBlocks input)) (freshId : String) :
    (reply.afterHook hint messages freshId).Onward := by
  obtain ⟨settled, unpaused, unresumed, refused⟩ := running
  unfold pending at settled
  rw [shape] at settled unresumed
  have closed : Closed (blocks reply.context) := fun _ member => settled.closed member
  have grown := Settled.of_closed (closed_addAll closed clean)
  have phases : hintOrView hint = .viewing ∨ ∃ text, hintOrView hint = .hinting text := by
    unfold hintOrView
    cases hint with
    | none => exact Or.inl rfl
    | some text =>
        by_cases nothing : text = ""
        · exact Or.inl (if_pos nothing)
        · exact Or.inr ⟨text, if_neg nothing⟩
  unfold afterHook
  rcases phases with next | ⟨text, next⟩
  · rw [next]
    exact Running.onward ⟨grown, unpaused, fun _ => unresumed rfl, nofun⟩ id rfl
  · rw [next]
    exact Running.onward ⟨grown, unpaused, fun _ => unresumed rfl, nofun⟩ id rfl

private theorem inert_partialBlocks (reply : Reply) (response : Response) :
    ∀ block ∈ reply.partialBlocks response, Inert block := by
  intro block member
  unfold partialBlocks at member
  rcases List.mem_append.mp member with thought | said
  · split at thought
    · cases thought
    · rw [List.mem_singleton.mp thought]
      exact ⟨rfl, rfl⟩
  · split at said
    · cases said
    · rw [List.mem_singleton.mp said]
      exact ⟨rfl, rfl⟩

def FreshCalls (context : List Msg) (calls : List ToolCall) : Prop :=
  (calls.map ToolCall.id).Nodup ∧ ∀ call ∈ calls, call.id ∉ callIds (blocks context)

private theorem onward_complete {reason : String} (running : reply.Running)
    (shape : reply.phase = .streaming response)
    (fresh : FreshCalls reply.context (keptCalls response reason)) (usage : Option TokenUsage) :
    (reply.complete response reason usage).Onward := by
  obtain ⟨settled, unpaused, unresumed, refused⟩ := running
  unfold pending at settled
  rw [shape] at settled unresumed
  obtain ⟨distinct, unseen⟩ := fresh
  generalize kept : keptCalls response reason = calls at distinct unseen
  have ids : callIds (reply.partialBlocks response ++ calls.map reply.callBlock) =
      calls.map ToolCall.id := by
    rw [callIds_append, callIds_inert (reply.inert_partialBlocks response), List.nil_append]
    unfold callIds
    rw [List.filterMap_map]
    exact congrFun List.filterMap_eq_map calls
  have entered : Settled (blocks (reply.addBlocks
      (reply.partialBlocks response ++ calls.map reply.callBlock)).context)
      (calls.map ToolCall.id) := by
    rw [← ids]
    refine (settled.addCalls ?_ ?_ ?_).perm (blocks_appendReplyBlocks ..)
    · intro block member waiting
      rcases List.mem_append.mp member with streamed | called
      · rw [(reply.inert_partialBlocks response block streamed).2] at waiting
        cases waiting
      · obtain ⟨call, _, rfl⟩ := List.mem_map.mp called
        exact ⟨_, rfl⟩
    · rw [ids]
      exact distinct
    · intro id member
      rw [ids] at member
      obtain ⟨call, listed, rfl⟩ := List.mem_map.mp member
      exact unseen call listed
  unfold complete
  dsimp only
  rw [kept]
  exact Running.onward ⟨entered, unpaused, fun _ => unresumed rfl, nofun⟩ id rfl

private theorem kept_gather {reply : Reply} {calls : List ToolCall} {outcomes : List ToolOutcome}
    {cancelled : Bool} (running : reply.Running) (shape : reply.phase = .waiting calls)
    (each : outcomes.length = calls.length)
    (resumed : reply.prologue ≠ none → (∀ outcome ∈ outcomes, outcome.approval = none) ∧
      (cancelled = true → reply.denied = [])) :
    (reply.gather (calls.zip outcomes) cancelled).Kept := by
  obtain ⟨settled, unpaused, _, _⟩ := running
  unfold pending at settled
  rw [shape] at settled
  have same : (calls.zip outcomes).map Prod.fst = calls := List.map_fst_zip (le_of_eq each.symm)
  have refused : cancelled = true → reply.denied = [] := by
    intro stopped
    by_cases prologue : reply.prologue = none
    · rw [denied, prologue, Option.getD_none]
    · exact (resumed prologue).2 stopped
  unfold gather
  split
  · apply (onward_record _ unpaused refused).kept
    rw [same]
    exact settled
  · rename_i asked
    by_contra prologue
    apply asked
    apply List.filterMap_eq_nil_iff.mpr
    rintro ⟨call, outcome⟩ member
    dsimp only
    rw [(resumed prologue).1 outcome (List.of_mem_zip member).2, Option.map_none]

/-! ### Steps -/

def inLoop : RunPhase → Bool
  | .asking _ => false
  | .exited => false
  | phase => inRun phase

theorem Kept.running (kept : reply.Kept) (looping : inLoop reply.phase = true) : reply.Running := by
  unfold Kept at kept
  cases shape : reply.phase with
  | idle => rw [shape] at looping; cases looping
  | building => rw [shape] at looping; cases looping
  | retrying input => rw [shape] at looping; cases looping
  | entering input => rw [shape] at looping; cases looping
  | asking calls => rw [shape] at looping; cases looping
  | exited => rw [shape] at looping; cases looping
  | closing finals emitted => rw [shape] at looping; cases looping
  | _ =>
      rw [shape] at kept
      exact kept

theorem inLoop_of_awaits {phase : RunPhase} (waiting : awaits phase = true) :
    inLoop phase = true := by
  cases phase <;> first | rfl | cases waiting

/-- The run makes a message, or changes it, whose copy in the session is `message`. -/
def Replaces (reply : Reply) (message : Msg) : Prop :=
  ∃ copy ∈ reply.context, reply.changed copy = true ∧ copy.id = message.id

/-- A step leaves no tool block open behind the runner: every call of the context
is finished before the runner is left, and every message with an open block is
replaced by the cleanup. -/
def KeepsToolBlocks (reply : Reply) : Action → Prop
  | .buildFails => AllStable reply.fold
  | .enter _ _ => ∀ input, reply.phase = .entering input → EntersSettled reply.context input
  | .hookAnswers messages _ => ∀ input ∈ messages, Closed (inputBlocks input)
  | .cut item => (∀ asks, reply.phase ≠ .asking asks) ∧
      ∀ next entry, reply.advance item = some (next, entry) → next.pending = []
  | .responseEnds reason _ => ∀ response, reply.phase = .streaming response →
      FreshCalls reply.context (keptCalls response reason)
  | .toolsDone outcomes cancelled => reply.prologue ≠ none →
      (∀ outcome ∈ outcomes, outcome.approval = none) ∧ (cancelled = true → reply.denied = [])
  | .interrupted => reply.pending = []
  | .raised => reply.pending = []
  | .recovers view _ => Closed (blocks view)
  | .closes => reply.paused = true ∨ ∀ message ∈ reply.fold.messages.items,
      isStableMessage message = true ∨ reply.Replaces message
  | .finalRaises => reply.paused = true ∨ AllStable reply.fold
  | _ => True

private theorem advance_phase (advanced : reply.advance item = some (next, entry)) :
    inLoop reply.phase = true ∨ ∃ asks, reply.phase = .asking asks := by
  unfold advance at advanced
  split at advanced
  all_goals rename_i shape
  case h_7 => exact Or.inr ⟨_, shape⟩
  case h_15 => cases advanced
  all_goals
    rw [shape]
    exact Or.inl rfl

private theorem kept_yields {reply next : Reply} (kept : reply.Kept)
    (advanced : reply.advance item = some (next, entry)) : next.Kept ∧ inRun next.phase = true := by
  rcases advance_phase advanced with looping | ⟨asks, shape⟩
  · have onward := onward_advance (kept.running looping) ?_ advanced
    · exact ⟨onward.kept, onward.running⟩
    · intro asks shape
      rw [shape] at looping
      cases looping
  · unfold Kept at kept
    rw [shape] at kept
    exact kept_asking kept shape advanced

private theorem covers_finals {reply : Reply} (settled : Settled (blocks reply.context) [])
    (replaced : ∀ message ∈ reply.fold.messages.items,
      isStableMessage message = true ∨ reply.Replaces message) :
    Covers reply.fold reply.finals [] where
  closed payload member := by
    obtain ⟨copy, made, rfl⟩ := List.mem_map.mp member
    have held : copy ∈ reply.context := (List.mem_filter.mp made).1
    refine (stable_of_content rfl).trans ((stable_iff copy).mpr fun block inside => ?_)
    exact settled.closed (List.mem_flatMap.mpr ⟨copy, held, inside⟩)
  replaced message member := by
    rcases replaced message member with stable | ⟨copy, held, made, same⟩
    · exact Or.inl stable
    · refine Or.inr ⟨reply.finalPayload copy, ?_, same, Or.inr nofun⟩
      exact List.mem_map_of_mem (List.mem_filter.mpr ⟨held, made⟩)

private theorem kept_closeNext
    (kept : reply.paused = true ∨ Covers reply.fold (payload :: rest) emitted) :
    (reply.closeNext payload rest emitted).Kept := by
  unfold closeNext
  dsimp only
  split
  · exact kept.imp_right fun covers => covers.append (fun _ _ unseen => unseen) _ _
  · rename_i identified
    split
    · rename_i seen
      exact kept.imp_right fun covers => covers.pass identified seen
    · unfold noted
      dsimp only
      rw [if_neg identified]
      refine kept.imp_right fun covers => covers.append ?_ _ _
      intro id other unseen
      exact List.not_mem_cons_of_ne_of_not_mem other unseen

private theorem kept_streaming (running : reply.Running) (nothing : reply.pending = [])
    (outside : inBatch reply.phase = false) (response : Response) :
    Kept { reply with phase := .streaming response } := by
  have settled := running.settled
  rw [nothing] at settled
  have onward : Onward { reply with phase := .streaming response } :=
    Running.onward ⟨settled, running.unpaused, fun _ => running.unresumed outside, nofun⟩ id rfl
  exact onward.kept

private theorem pending_streaming (shape : reply.phase = .streaming response) :
    reply.pending = [] := by
  unfold pending
  rw [shape]

private theorem kept_left (kept : reply.Kept) (waiting : awaits reply.phase = true)
    (nothing : reply.pending = []) (reason : ReplyFinishedReason) :
    (reply.finalize reason).Kept := by
  have settled := (kept.running (inLoop_of_awaits waiting)).settled
  rw [nothing] at settled
  exact (onward_finalize settled reason).kept

private theorem settled_streamed (running : reply.Running)
    (shape : reply.phase = .streaming response) :
    Settled (blocks (reply.addBlocks (reply.partialBlocks response)).context) [] := by
  have settled := running.settled
  rw [pending_streaming shape] at settled
  exact settled_addBlocks settled (reply.inert_partialBlocks response)

private theorem kept_fail (running : reply.Running) (shape : reply.phase = .streaming response) :
    (reply.fail response).Kept := by
  have unresumed := running.unresumed
  rw [shape] at unresumed
  have onward : (reply.fail response).Onward := Running.onward
    ⟨settled_streamed running shape, running.unpaused, fun _ => unresumed rfl, nofun⟩ id rfl
  exact onward.kept

private theorem kept_recover {view : List Msg} (kept : reply.Kept) (left : reply.phase = .exited)
    (may : reply.mayRecover = true) (closed : Closed (blocks view)) (input : Entering) :
    (reply.recover view input).Kept := by
  have unpaused : reply.paused = false := by
    unfold mayRecover at may
    exact Bool.not_eq_true' _ ▸ (Bool.and_eq_true_iff.mp may).1
  unfold Kept at kept
  rw [left, unpaused] at kept
  have settled := kept.resolve_left Bool.false_ne_true
  refine ⟨unpaused, ?_⟩
  unfold recover
  dsimp only
  split
  · exact settled
  · exact Settled.of_closed closed

private theorem kept_cut (kept : reply.Kept) (quiet : ∀ asks, reply.phase ≠ .asking asks)
    (advanced : reply.advance item = some (next, entry)) (nothing : next.pending = []) :
    Kept { next.noted entry with paused := reply.paused, phase := .exited } := by
  have looping := (advance_phase advanced).resolve_right fun ⟨asks, shape⟩ => quiet asks shape
  have settled := (onward_advance (kept.running looping) quiet advanced).settled
  rw [nothing, ← (next.noted_fields entry).2.1] at settled
  exact Or.inr settled

private theorem kept_step {before after : Reply} {action : Action} (kept : before.Kept)
    (allowed : before.KeepsToolBlocks action) (stepped : before.step action = some after) :
    after.Kept := by
  cases action with
  | begin turnId model maxIterations maxContinuations =>
      dsimp only [step] at stepped
      split at stepped
      · cases stepped
        rfl
      · cases stepped
  | built input context =>
      dsimp only [step] at stepped
      split at stepped
      · rename_i shape
        cases stepped
        unfold Kept at kept
        rw [shape] at kept
        exact kept
      · cases stepped
  | buildFails =>
      dsimp only [step] at stepped
      split at stepped
      · cases stepped
        exact Or.inr (Covers.of_stable allowed [])
      · cases stepped
  | enter replyId messageId =>
      dsimp only [step] at stepped
      split at stepped
      · rename_i input shape
        cases stepped
        have enters := allowed input shape
        unfold Kept at kept
        rw [shape] at kept
        cases input with
        | messages inputs => exact kept_enterMessages enters.1 enters.2 kept replyId messageId
        | confirm toolCallId approved confirmed => exact kept_enterConfirm enters kept confirmed
      · cases stepped
  | decides =>
      dsimp only [step] at stepped
      split at stepped
      · rename_i prev shape
        cases stepped
        exact (onward_decideNext (kept.running (shape ▸ rfl)) shape).kept
      · cases stepped
  | hookAnswers messages freshId =>
      dsimp only [step] at stepped
      split at stepped
      · rename_i hint shape
        cases stepped
        exact (onward_afterHook (kept.running (shape ▸ rfl)) shape allowed freshId).kept
      · cases stepped
  | viewBuilt =>
      dsimp only [step] at stepped
      split at stepped
      · rename_i shape
        cases stepped
        apply kept_streaming (kept.running (shape ▸ rfl))
        · unfold pending
          rw [shape]
        · rw [shape]
          rfl
      · cases stepped
  | yields item =>
      dsimp only [step] at stepped
      obtain ⟨⟨next, entry⟩, advanced, rfl⟩ := Option.map_eq_some_iff.mp stepped
      obtain ⟨onward, running⟩ := kept_yields kept advanced
      apply kept_push (kept_noted onward entry)
      rw [(next.noted_fields entry).1]
      exact Or.inl running
  | cut item =>
      dsimp only [step] at stepped
      obtain ⟨⟨next, entry⟩, advanced, rfl⟩ := Option.map_eq_some_iff.mp stepped
      exact kept_cut kept allowed.1 advanced (allowed.2 next entry advanced)
  | textBlockEnds | thinkingBlockEnds | callRepeated =>
      obtain ⟨response, later, shape, rfl⟩ := step_stays stepped rfl
      apply kept_streaming (kept.running (shape ▸ rfl)) (pending_streaming shape)
      rw [shape]
      rfl
  | responseEnds reason usage =>
      dsimp only [step] at stepped
      split at stepped
      · rename_i response shape
        cases stepped
        have running := kept.running (shape ▸ rfl)
        exact (onward_complete running shape (allowed response shape) usage).kept
      · cases stepped
  | responseFails =>
      dsimp only [step] at stepped
      split at stepped
      · rename_i response shape
        cases stepped
        exact kept_fail (kept.running (shape ▸ rfl)) shape
      · cases stepped
  | responseCancelled =>
      dsimp only [step] at stepped
      split at stepped
      · rename_i response shape
        cases stepped
        have settled := settled_streamed (kept.running (shape ▸ rfl)) shape
        exact (onward_finalize settled .interrupted).kept
      · cases stepped
  | toolsDone outcomes cancelled =>
      dsimp only [step] at stepped
      split at stepped
      · rename_i calls shape
        split at stepped
        · rename_i each
          cases stepped
          exact kept_gather (kept.running (shape ▸ rfl)) shape each allowed
        · cases stepped
      · cases stepped
  | stops =>
      dsimp only [step] at stepped
      split at stepped
      · rename_i shape
        cases stepped
        apply kept_left kept
        · rw [shape]
          rfl
        · unfold pending
          rw [shape]
      · cases stepped
  | interrupted =>
      dsimp only [step] at stepped
      split at stepped
      · rename_i waiting
        cases stepped
        exact kept_left kept waiting allowed .interrupted
      · cases stepped
  | raised =>
      dsimp only [step] at stepped
      split at stepped
      · rename_i waiting
        cases stepped
        exact kept_left kept waiting allowed .error
      · cases stepped
  | recovers view input =>
      dsimp only [step] at stepped
      split at stepped
      · rename_i shape
        split at stepped
        · rename_i may
          cases stepped
          exact kept_recover kept shape may allowed input
        · cases stepped
      · cases stepped
  | retryAppended code message attempt maxAttempts =>
      dsimp only [step] at stepped
      split at stepped
      · rename_i shape
        cases stepped
        unfold Kept at kept
        rw [shape] at kept
        exact kept.1
      · cases stepped
  | retryLost =>
      dsimp only [step] at stepped
      split at stepped
      · rename_i shape
        cases stepped
        unfold Kept at kept
        rw [shape] at kept
        exact Or.inr kept.2
      · cases stepped
  | closes =>
      dsimp only [step] at stepped
      split at stepped
      · rename_i shape
        cases stepped
        unfold Kept at kept
        rw [shape] at kept
        rcases kept with paused | settled
        · exact Or.inl paused
        · exact allowed.imp_right (covers_finals settled)
      · cases stepped
  | finalAppended =>
      dsimp only [step] at stepped
      split at stepped
      · rename_i payload rest emitted shape
        cases stepped
        unfold Kept at kept
        rw [shape] at kept
        exact kept_closeNext kept
      · cases stepped
  | finalRaises =>
      dsimp only [step] at stepped
      split at stepped
      · cases stepped
        apply kept_noted
        exact allowed.imp_right fun stable => Covers.of_stable stable _
      · cases stepped
  | turnEnds data =>
      dsimp only [step] at stepped
      split at stepped
      · rename_i shape
        cases stepped
        unfold Kept at kept
        rw [shape] at kept
        intro ended
        have unpaused : before.paused = false := Option.some.inj ended
        rw [unpaused] at kept
        have covers := kept.resolve_left Bool.false_ne_true
        exact covers.done.keeps (keepsContent_turnEnd _ _ _ _ data)
      · cases stepped
  | endLost =>
      dsimp only [step] at stepped
      split at stepped
      · cases stepped
        exact nofun
      · cases stepped
        exact nofun
      · cases stepped
  | appended entry =>
      dsimp only [step] at stepped
      split at stepped
      · rename_i foreign
        cases stepped
        exact kept_push kept entry (Or.inr (keepsContent_foreign _ _ foreign))
      · cases stepped
  | tick time =>
      cases stepped
      exact kept.congr rfl rfl rfl rfl rfl (Or.inr (keepsContent_refl _))

/-- In every run whose steps leave no tool block open behind the runner, every
message is stable after the end of a turn that did not pause. -/
theorem stableWhenEnded_of_keepsToolBlocks {time : Int} {reply : Reply}
    (ran : system.Reaches KeepsToolBlocks (fresh time) reply) : reply.StableWhenEnded := by
  have kept : reply.Kept := by
    apply StepSystem.Reaches.invariant ran
    · exact nofun
    · intro before action after held allowed stepped
      exact kept_step held allowed stepped
  intro idle ended
  unfold Kept at kept
  rw [idle] at kept
  exact kept ended

private def streamedCall : ToolCall := ⟨"call-1", "bash", .empty⟩

private def closingTurn (outcome : String) : TurnEndData :=
  ⟨"turn", "request", outcome, outcome, none, none, 1, .empty⟩

/-- An attempt starts a call and fails; the turn ends and the call is pending. -/
theorem failed_attempt_leaves_call_open :
    ∃ reply, system.Reaches StepSystem.anyStep (fresh 0) reply ∧ ¬ reply.StableWhenEnded := by
  refine ⟨?final, ?run, ?fact⟩
  case run =>
    refine .head (.begin "turn" "model" none 3) trivial rfl ?_
    refine .head (.built (.messages []) []) trivial rfl ?_
    refine .head (.enter "reply" "message") trivial rfl ?_
    refine .head .decides trivial rfl ?_
    refine .head (.hookAnswers [] "other") trivial rfl ?_
    refine .head .viewBuilt trivial rfl ?_
    refine .head (.yields (.callStart streamedCall)) trivial rfl ?_
    refine .head .responseFails trivial rfl ?_
    refine .head .decides trivial rfl ?_
    refine .head .closes trivial rfl ?_
    refine .head (.turnEnds (closingTurn "error")) trivial rfl ?_
    exact Relation.ReflTransGen.refl
  case fact =>
    intro stable
    have closed := stable rfl rfl _ List.mem_cons_self
    cases closed

private def ranWell : ToolOutcome := ⟨"", none, .empty, none, none⟩

private theorem nothingEnters : EntersSettled [] (.messages []) :=
  ⟨fun _ never => absurd never List.not_mem_nil, fun _ never => absurd never List.not_mem_nil⟩

private theorem freshCall : FreshCalls [] [streamedCall] :=
  ⟨List.nodup_singleton _, fun _ _ never => by cases never⟩

/-- A turn executes a call in its only iteration and ends; its message is stable. -/
theorem finished_call_is_stable :
    ∃ reply, system.Reaches KeepsToolBlocks (fresh 0) reply ∧ reply.phase = .idle ∧
      reply.ended = some false ∧ reply.StableWhenEnded := by
  refine ⟨?final, ?run, ?idle, ?ended, stableWhenEnded_of_keepsToolBlocks ?run⟩
  case run =>
    refine .head (.begin "turn" "model" (some 1) 3) trivial rfl ?_
    refine .head (.built (.messages []) []) trivial rfl ?_
    refine .head (.enter "reply" "message")
      (fun input same => RunPhase.entering.inj same ▸ nothingEnters) rfl ?_
    refine .head .decides trivial rfl ?_
    refine .head (.hookAnswers [] "other")
      (fun _ never => absurd never List.not_mem_nil) rfl ?_
    refine .head .viewBuilt trivial rfl ?_
    refine .head (.yields (.callStart streamedCall)) trivial rfl ?_
    refine .head (.responseEnds "tool-calls" none)
      (fun response same => RunPhase.streaming.inj same ▸ freshCall) rfl ?_
    refine .head .decides trivial rfl ?_
    refine .head (.yields .next) trivial rfl ?_
    refine .head (.toolsDone [ranWell] false) (fun resumed => absurd rfl resumed) rfl ?_
    refine .head (.yields .next) trivial rfl ?_
    refine .head .decides trivial rfl ?_
    refine .head .closes
      (Or.inr fun message member => Or.inl (List.mem_singleton.mp member ▸ rfl)) rfl ?_
    refine .head .finalAppended trivial rfl ?_
    refine .head (.turnEnds (closingTurn "completed")) trivial rfl ?_
    exact Relation.ReflTransGen.refl
  case idle => rfl
  case ended => rfl

end Reply

end Ftre.Runtime
