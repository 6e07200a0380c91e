import Ftre.Message.Load
import Ftre.Runtime.ContextSettlement

/-!
The commands that allow or deny asking tool calls.
-/

namespace Ftre.Runtime

open Lib Message Session

/-- `UserConfirmResultEvent`. -/
structure ConfirmEvent where
  replyId : String
  toolCallId : String
  approved : Bool

/-- What else makes up the turn of a confirmation. -/
structure ConfirmFacts where
  turnId : String
  model : String
  maxIterations : Option Nat
  maxContinuations : Int
  ended : TurnEndData

inductive ConfirmError where
  | usage (command : String)
  | missing (toolCallIds : List String)
  | notAsking (toolCallIds : List String)
  | severalReplies
deriving DecidableEq

def ConfirmError.text : ConfirmError → String
  | .usage command => "用法：" ++ command ++ " <tool_id> [tool_id...]"
  | .missing toolCallIds => "找不到待确认的工具调用：" ++ ", ".intercalate toolCallIds
  | .notAsking toolCallIds => "工具调用已不在待确认状态：" ++ ", ".intercalate toolCallIds
  | .severalReplies => "一次确认只能处理同一条回复中的工具调用"

namespace MessageContext

def ownedCalls (messages : List Msg) : List (String × ToolCallBlock) :=
  messages.flatMap fun message =>
    (message.content.filterMap ContentBlock.asToolCall?).map fun call => (message.id, call)

/-- The command's `targets` at an id: a later call replaces an earlier one. -/
def confirmTarget (messages : List Msg) (toolCallId : String) : Option (String × ToolCallBlock) :=
  (ownedCalls messages).reverse.find? fun (_, call) => decide (call.id = toolCallId)

end MessageContext

open MessageContext

/-- `confirm`: the events of the ids, or the command's error. -/
def confirm (command : String) (messages : List Msg) (arguments : List String) (approved : Bool) :
    Except ConfirmError (List ConfirmEvent) :=
  let toolCallIds := arguments.eraseDups
  let missing := toolCallIds.filter fun id => (confirmTarget messages id).isNone
  let notAsking := toolCallIds.filter fun id =>
    decide ((confirmTarget messages id).map (fun (_, call) => call.state) ≠ some .asking)
  let replyIds := (toolCallIds.filterMap fun id => (confirmTarget messages id).map Prod.fst).eraseDups
  if toolCallIds = [] then .error (.usage command)
  else if missing ≠ [] then .error (.missing missing)
  else if notAsking ≠ [] then .error (.notAsking notAsking)
  else
    match replyIds with
    | [replyId] => .ok (toolCallIds.map fun id => ⟨replyId, id, approved⟩)
    | _ => .error .severalReplies

namespace Reply

def confirmed (facts : ConfirmFacts) (reply : Reply) (event : ConfirmEvent) : Option Reply :=
  system.run reply
    [.begin facts.turnId facts.model facts.maxIterations facts.maxContinuations,
      .built (.confirm event.toolCallId event.approved event.replyId) reply.fold.messages.items,
      .enter "" ""]

def closed (facts : ConfirmFacts) (reply : Reply) : Option Reply :=
  system.run reply
    (.closes :: (List.replicate reply.finals.length .finalAppended ++ [.turnEnds facts.ended]))

def confirmTurn (facts : ConfirmFacts) (reply : Reply) (event : ConfirmEvent) : Option Reply :=
  (confirmed facts reply event).bind fun entered =>
    match entered.phase with
    | .exited => closed facts entered
    | _ => some entered

/-- `resume_confirmation`: a session with a turn is left alone, and only the
last event enters a turn. -/
def resumeConfirmation (facts : String → ConfirmFacts) (reply : Reply)
    (events : List ConfirmEvent) : Reply :=
  match events.getLast?, reply.phase with
  | some event, .idle => (confirmTurn (facts event.toolCallId) reply event).getD reply
  | _, _ => reply

def confirmAll (facts : String → ConfirmFacts) (command : String) (reply : Reply)
    (toolCallIds : List String) (approved : Bool) : Reply :=
  match confirm command reply.fold.messages.items toolCallIds approved with
  | .ok events => resumeConfirmation facts reply events
  | .error _ => reply

def confirmEach (facts : String → ConfirmFacts) (command : String) (reply : Reply)
    (toolCallIds : List String) (approved : Bool) : Reply :=
  toolCallIds.foldl (fun reply id => confirmAll facts command reply [id] approved) reply

def view (messages : List Msg) : List (String × List ContentBlock) :=
  messages.map fun message => (message.id, message.content)

/-- The blocks of the session, or of the agent that goes on with it, and where
the run is. -/
structure Outcome where
  messages : List (String × List ContentBlock)
  phase : RunPhase

def outcome (reply : Reply) : Outcome :=
  match reply.phase with
  | .idle => ⟨view reply.fold.messages.items, .idle⟩
  | phase => ⟨view reply.context, phase⟩

def Outcome.blocks (outcome : Outcome) : List ContentBlock := outcome.messages.flatMap Prod.snd

def Asks (blocks : List ContentBlock) (toolCallId : String) : Prop :=
  ∃ call, .toolCall call ∈ blocks ∧ call.id = toolCallId ∧ call.state = .asking

/-- The ids belong to asking calls of one reply. -/
def AskInOneReply (messages : List Msg) (toolCallIds : List String) : Prop :=
  ∃ replyId, ∀ id ∈ toolCallIds, ∃ call, confirmTarget messages id = some (replyId, call) ∧
    call.state = .asking

/-- A batch does what its ids do one by one, and none of them is left asking. -/
def BatchIsSequence (facts : String → ConfirmFacts) (command : String) (reply : Reply)
    (toolCallIds : List String) (approved : Bool) : Prop :=
  (confirmAll facts command reply toolCallIds approved).outcome =
      (confirmEach facts command reply toolCallIds approved).outcome ∧
    ∀ id ∈ toolCallIds,
      ¬ Asks (confirmAll facts command reply toolCallIds approved).outcome.blocks id

theorem changeFirst_split {α : Type} {change : α → Option α} {items changed : List α}
    (done : changeFirst change items = some changed) :
    ∃ before item after next, items = before ++ item :: after ∧
      changed = before ++ next :: after ∧ change item = some next ∧
      ∀ other ∈ before, change other = none := by
  induction items generalizing changed with
  | nil => cases done
  | cons head rest ih =>
      unfold changeFirst at done
      cases hit : change head with
      | some next =>
          rw [hit] at done
          cases done
          exact ⟨[], head, rest, next, rfl, rfl, hit, fun _ never => by cases never⟩
      | none =>
          rw [hit] at done
          obtain ⟨later, found, rfl⟩ := Option.map_eq_some_iff.mp done
          obtain ⟨before, item, after, next, rfl, rfl, hits, passed⟩ := ih found
          refine ⟨head :: before, item, after, next, rfl, rfl, hits, ?_⟩
          intro other member
          rcases List.mem_cons.mp member with rfl | earlier
          · exact hit
          · exact passed other earlier

variable {message changed : Msg} {messages : List Msg} {reply : Reply} {call : ToolCallBlock}
  {event : ConfirmEvent} {replyId : String}

theorem putItem_split {before after : List Msg} (sameId : changed.id = message.id)
    (distinct : ((before ++ message :: after).map Msg.id).Nodup) :
    KeyedList.putItem Msg.id changed (before ++ message :: after) = before ++ changed :: after := by
  induction before with
  | nil =>
      unfold KeyedList.putItem
      exact if_pos sameId.symm
  | cons head rest ih =>
      rw [List.cons_append, List.map_cons, List.nodup_cons] at distinct
      have different : head.id ≠ changed.id := by
        intro same
        apply distinct.1
        rw [same, sameId]
        exact List.mem_map_of_mem (List.mem_append_right _ List.mem_cons_self)
      rw [List.cons_append, KeyedList.putItem, if_neg different, ih distinct.2]
      rfl

theorem view_put {messages : MessageTable} (member : message ∈ messages.items)
    (sameId : changed.id = message.id) (sameContent : changed.content = message.content) :
    view (messages.put changed).items = view messages.items := by
  obtain ⟨before, after, split⟩ := List.append_of_mem member
  change view (KeyedList.putItem Msg.id changed messages.items) = _
  have distinct := messages.distinct
  rw [split] at distinct ⊢
  rw [putItem_split sameId distinct]
  unfold view
  rw [List.map_append, List.map_append, List.map_cons, List.map_cons, sameId, sameContent]

theorem view_turnEnd (fold : FoldState) (seq time : Int) (messageId : Option String)
    (data : TurnEndData) :
    view (applyEvent fold ⟨seq, time, messageId, .turnEnd data⟩).messages.items =
      view fold.messages.items := by
  change view (fold.finishTurn _ data).messages.items = _
  unfold FoldState.finishTurn
  cases hit : (Event.target ⟨seq, time, messageId, .turnEnd data⟩).bind fold.messages.find? with
  | none => rfl
  | some message =>
      dsimp only
      by_cases assistant : message.role = .assistant
      · rw [if_pos assistant]
        obtain ⟨_, _, found⟩ := Option.bind_eq_some_iff.mp hit
        exact view_put (KeyedList.find?_mem found).1 rfl rfl
      · rw [if_neg assistant]

/-! ### What the cleanup publishes -/

private theorem find?_captured (distinct : (messages.map Msg.id).Nodup)
    (table : KeyedTable String Msg) :
    (∀ message ∈ messages,
      (messages.foldl (fun table message => table.set message.id message) table).find?
        message.id = some message) ∧
    ∀ id, id ∉ messages.map Msg.id →
      (messages.foldl (fun table message => table.set message.id message) table).find? id =
        table.find? id := by
  induction messages generalizing table with
  | nil => exact ⟨fun _ never => (List.not_mem_nil never).elim, fun _ _ => rfl⟩
  | cons head rest ih =>
      rw [List.map_cons, List.nodup_cons] at distinct
      obtain ⟨kept, passed⟩ := ih distinct.2 (table.set head.id head)
      constructor
      · intro message member
        rcases List.mem_cons.mp member with rfl | later
        · rw [List.foldl_cons, passed _ distinct.1, KeyedTable.find?_set_self]
        · exact kept message later
      · intro id absent
        rw [List.map_cons, List.mem_cons, not_or] at absent
        rw [List.foldl_cons, passed id absent.2, KeyedTable.find?_set_ne _ _ (Ne.symm absent.1)]

theorem not_changed {message : Msg} (captured : reply.baseline = captureBaseline messages)
    (distinct : (messages.map Msg.id).Nodup) (member : message ∈ messages) :
    reply.changed message = false := by
  unfold changed
  by_cases assistant : message.role = .assistant
  · have held : reply.baseline.find? message.id = some message := by
      rw [captured]
      exact (find?_captured (distinct.sublist (List.filter_sublist.map Msg.id)) .empty).1 message
        (List.mem_filter.mpr ⟨member, decide_eq_true assistant⟩)
    rw [decide_eq_false (not_not.mpr held), Bool.and_false]
  · rw [decide_eq_false assistant, Bool.false_and, Bool.false_and]

theorem finals_unchanged (captured : reply.baseline = captureBaseline messages)
    (distinct : (messages.map Msg.id).Nodup) (same : reply.context = messages) :
    reply.finals = [] := by
  unfold finals
  rw [List.map_eq_nil_iff, List.filter_eq_nil_iff, same]
  intro message member hit
  rw [not_changed captured distinct member] at hit
  cases hit

theorem finals_of_change {before after : List Msg}
    (captured : reply.baseline = captureBaseline (before ++ message :: after))
    (distinct : ((before ++ message :: after).map Msg.id).Nodup)
    (context : reply.context = before ++ changed :: after) (sameId : changed.id = message.id)
    (assistant : changed.role = .assistant) (filled : changed.content ≠ [])
    (differs : changed ≠ message) (held : message.role = .assistant) :
    reply.finals = [reply.finalPayload changed] := by
  have unchanged : ∀ other ∈ before ++ message :: after, ¬ reply.changed other = true := by
    intro other member hit
    rw [not_changed captured distinct member] at hit
    cases hit
  have old : reply.baseline.find? changed.id = some message := by
    rw [captured, sameId]
    exact (find?_captured (distinct.sublist (List.filter_sublist.map Msg.id)) .empty).1 message
      (List.mem_filter.mpr ⟨List.mem_append_right _ List.mem_cons_self, decide_eq_true held⟩)
  have fresh : some message ≠ some changed :=
    fun same => differs (Option.some.inj same).symm
  have published : reply.changed changed = true := by
    unfold Reply.changed
    rw [decide_eq_true assistant, old, decide_eq_true fresh]
    cases content : changed.content with
    | nil => exact absurd content filled
    | cons _ _ => rfl
  unfold finals
  rw [context, List.filter_append, List.filter_cons_of_pos published,
    List.filter_eq_nil_iff.mpr fun other member =>
      unchanged other (List.mem_append_left _ member),
    List.filter_eq_nil_iff.mpr fun other member =>
      unchanged other (List.mem_append_right _ (List.mem_cons_of_mem _ member))]
  rfl

private theorem run_turnEnds (reply : Reply) {emitted : List String} (data : TurnEndData)
    (closing : reply.phase = .closing [] emitted) :
    ∃ after, system.run reply [.turnEnds data] = some after ∧ after.phase = .idle ∧
      view after.fold.messages.items = view reply.fold.messages.items := by
  refine ⟨{ reply with phase := .idle, ended := some reply.paused }.push
    ⟨reply.lastMessageId, .turnEnd data⟩, ?_, rfl, view_turnEnd ..⟩
  simp only [StepSystem.run, system, step, closing, Option.bind_some]

private theorem closed_nothing (facts : ConfirmFacts) (exited : reply.phase = .exited)
    (nothing : reply.finals = []) :
    ∃ after, closed facts reply = some after ∧ after.phase = .idle ∧
      view after.fold.messages.items = view reply.fold.messages.items := by
  obtain ⟨after, ran, idle, same⟩ :=
    run_turnEnds { reply with phase := .closing [] [] } facts.ended rfl
  refine ⟨after, ?_, idle, same⟩
  unfold closed
  rw [nothing, StepSystem.run]
  simp only [system, step, exited, nothing, Option.bind_some]
  exact ran

private theorem closed_one (facts : ConfirmFacts) {payload : Msg} (exited : reply.phase = .exited)
    (published : reply.finals = [payload]) :
    ∃ after changed, closed facts reply = some after ∧ after.phase = .idle ∧
      view after.fold.messages.items = view (reply.fold.messages.put changed).items ∧
      changed.id = payload.id ∧ changed.content = payload.content := by
  obtain ⟨closing, emitted, appended, left, put⟩ :
      ∃ (closing : Reply) (emitted : List String),
        { reply with phase := .closing [payload] [] }.closeNext payload [] [] = closing ∧
        closing.phase = .closing [] emitted ∧
        closing.fold = applyEvent reply.fold
          ⟨reply.nextSeq, reply.time, some payload.id, .assistantMessage payload⟩ := by
    unfold closeNext
    by_cases unnamed : payload.id = ""
    · rw [if_pos unnamed]
      exact ⟨_, [], rfl, rfl, rfl⟩
    · rw [if_neg unnamed, if_neg List.not_mem_nil]
      rw [noted_eq]
      exact ⟨_, [payload.id], rfl, rfl, rfl⟩
  obtain ⟨after, ran, idle, same⟩ := run_turnEnds closing facts.ended left
  refine ⟨after, assistantMessageOf
    ⟨reply.nextSeq, reply.time, some payload.id, .assistantMessage payload⟩ payload,
    ?_, idle, ?_, ?_, rfl⟩
  · unfold closed
    rw [published, StepSystem.run]
    simp only [system, step, exited, published, Option.bind_some, List.length_singleton,
      List.replicate_one, List.singleton_append, StepSystem.run, appended]
    exact ran
  · rw [same, put]
    rfl
  · exact assistantMessageOf_id ..

/-! ### The turn -/

def acceptedMessages (messages : List Msg) (event : ConfirmEvent) : List Msg :=
  (acceptConfirmation messages event.toolCallId event.approved).getD messages

private theorem setCall_isCall {toolCallId : String} {state : ToolCallState}
    {block changed : ContentBlock} (hit : setCall toolCallId state block = some changed) :
    ∃ call, block = .toolCall call ∧ call.id = toolCallId ∧
      changed = .toolCall { call with state := state } := by
  cases block with
  | toolCall call =>
      obtain ⟨same, result⟩ := Option.ite_none_right_eq_some.mp hit
      cases result
      exact ⟨call, rfl, same, rfl⟩
  | _ => cases hit

private theorem role_of_call {message : Msg}
    (validated : message.validateRoleContent = some message)
    (member : .toolCall call ∈ message.content) : message.role = .assistant := by
  have allowed : (message.content.map ContentBlock.type).all message.role.allows = true := by
    unfold Msg.validateRoleContent at validated
    obtain ⟨met, _⟩ := Option.ite_none_right_eq_some.mp validated
    exact (Bool.and_eq_true_iff.mp met).1
  have mine := List.all_eq_true.mp allowed _ (List.mem_map_of_mem member)
  cases role : message.role with
  | assistant => rfl
  | user =>
      rw [role] at mine
      cases mine
  | system =>
      rw [role] at mine
      cases mine

private theorem accepted_split {messages context : List Msg}
    (accepted : acceptConfirmation messages event.toolCallId event.approved = some context) :
    context = messages ∨ ∃ before message after changed call,
      messages = before ++ message :: after ∧ context = before ++ changed :: after ∧
        changed.id = message.id ∧ changed.role = message.role ∧ changed.content ≠ [] ∧
        .toolCall call ∈ message.content := by
  unfold acceptConfirmation at accepted
  cases found : (toolCalls messages).find? fun call => decide (call.id = event.toolCallId) with
  | none =>
      rw [found] at accepted
      cases accepted
  | some call =>
      rw [found] at accepted
      dsimp only at accepted
      by_cases asking : call.state = .asking
      · rw [if_pos asking] at accepted
        cases accepted
        unfold setToolCallState
        cases done : changeFirst (setCallIn event.toolCallId (expectedState event.approved))
            messages with
        | none => exact Or.inl rfl
        | some changed =>
            obtain ⟨before, message, after, next, split, result, hit, _⟩ := changeFirst_split done
            obtain ⟨content, inside, rfl⟩ := Option.map_eq_some_iff.mp hit
            obtain ⟨left, block, right, set, shape, rebuilt, isCall, _⟩ := changeFirst_split inside
            obtain ⟨held, rfl, _, _⟩ := setCall_isCall isCall
            refine Or.inr ⟨before, message, after, _, held, split, result, rfl, rfl, ?_, ?_⟩
            · rw [rebuilt]
              exact List.append_ne_nil_of_right_ne_nil _ (List.cons_ne_nil _ _)
            · rw [shape]
              exact List.mem_append_right _ List.mem_cons_self
      · rw [if_neg asking] at accepted
        obtain ⟨_, same⟩ := Option.ite_none_right_eq_some.mp accepted
        cases same
        exact Or.inl rfl

private theorem closed_view (facts : ConfirmFacts) {reply : Reply} {event : ConfirmEvent}
    (exited : reply.phase = .exited)
    (captured : reply.baseline = captureBaseline reply.fold.messages.items)
    (validated : ∀ message ∈ reply.fold.messages.items,
      message.validateRoleContent = some message)
    (context : reply.context = reply.fold.messages.items ∨
      acceptConfirmation reply.fold.messages.items event.toolCallId event.approved =
        some reply.context) :
    ∃ after, closed facts reply = some after ∧ after.phase = .idle ∧
      view after.fold.messages.items = view reply.context := by
  have distinct := reply.fold.messages.distinct
  have kept : reply.context = reply.fold.messages.items →
      ∃ after, closed facts reply = some after ∧ after.phase = .idle ∧
        view after.fold.messages.items = view reply.context := by
    intro same
    obtain ⟨after, ran, idle, view⟩ :=
      closed_nothing facts exited (finals_unchanged captured distinct same)
    exact ⟨after, ran, idle, by rw [view, same]⟩
  rcases context with same | accepted
  · exact kept same
  · rcases accepted_split accepted with same | ⟨before, message, after, changed, call, split,
      result, sameId, sameRole, filled, holds⟩
    · exact kept same
    · by_cases differs : changed = message
      · exact kept (by rw [result, split, differs])
      · have assistant : message.role = .assistant :=
          role_of_call (validated message
            (split ▸ List.mem_append_right _ List.mem_cons_self)) holds
        rw [split] at captured distinct
        obtain ⟨final, published, ran, idle, seen, named, filledAs⟩ :=
          closed_one facts exited (finals_of_change captured distinct result sameId
            (sameRole.trans assistant) filled differs assistant)
        refine ⟨final, ran, idle, seen.trans ?_⟩
        change view (KeyedList.putItem Msg.id published reply.fold.messages.items) = _
        rw [split, putItem_split (named.trans sameId) distinct, result]
        unfold view
        rw [List.map_append, List.map_append, List.map_cons, List.map_cons, named, filledAs]
        rfl

def built (facts : ConfirmFacts) (reply : Reply) (event : ConfirmEvent) : Reply :=
  { reply.begin facts.turnId facts.model facts.maxIterations facts.maxContinuations with
    context := reply.fold.messages.items
    phase := .entering (.confirm event.toolCallId event.approved event.replyId) }

private theorem confirmed_eq (facts : ConfirmFacts) (event : ConfirmEvent)
    (idle : reply.phase = .idle) :
    confirmed facts reply event =
      some ((built facts reply event).enterConfirm event.toolCallId event.approved
        event.replyId) := by
  unfold confirmed
  simp only [StepSystem.run, system, step, idle, Option.bind_some]
  rfl

theorem outcome_of_idle (idle : reply.phase = .idle) :
    reply.outcome = ⟨view reply.fold.messages.items, .idle⟩ := by
  unfold outcome
  rw [idle]

private theorem confirmTurn_ends {facts : ConfirmFacts} {reply entered : Reply}
    (validated : ∀ message ∈ reply.fold.messages.items, message.validateRoleContent = some message)
    (done : confirmed facts reply event = some entered) (exited : entered.phase = .exited)
    (fold : entered.fold = reply.fold)
    (captured : entered.baseline = captureBaseline reply.fold.messages.items)
    (context : entered.context = acceptedMessages reply.fold.messages.items event) :
    ∃ after, confirmTurn facts reply event = some after ∧
      after.outcome.messages = view (acceptedMessages reply.fold.messages.items event) := by
  have source : entered.context = entered.fold.messages.items ∨
      acceptConfirmation entered.fold.messages.items event.toolCallId event.approved =
        some entered.context := by
    rw [context, fold]
    unfold acceptedMessages
    cases acceptConfirmation reply.fold.messages.items event.toolCallId event.approved with
    | none => exact Or.inl rfl
    | some _ => exact Or.inr rfl
  obtain ⟨after, ran, idle, same⟩ := closed_view facts exited
    (by rw [captured, fold]) (by rwa [fold]) source
  refine ⟨after, ?_, ?_⟩
  · unfold confirmTurn
    rw [done, Option.bind_some, exited]
    exact ran
  · rw [outcome_of_idle idle, ← context]
    exact same

theorem outcome_of_running (running : reply.phase ≠ .idle) :
    reply.outcome = ⟨view reply.context, reply.phase⟩ := by
  unfold outcome
  cases phase : reply.phase with
  | idle => exact absurd phase running
  | _ => rfl

private theorem resumeExecute_goes (reply : Reply) :
    reply.resumeExecute.context = reply.context ∧ reply.resumeExecute.phase ≠ .idle ∧
      reply.resumeExecute.phase ≠ .exited := by
  unfold resumeExecute
  dsimp only
  split
  · unfold deny
    split <;> exact ⟨rfl, RunPhase.noConfusion, RunPhase.noConfusion⟩
  · exact ⟨rfl, RunPhase.noConfusion, RunPhase.noConfusion⟩

private theorem confirmTurn_goes {facts : ConfirmFacts} {reply entered : Reply}
    (done : confirmed facts reply event = some entered) (going : entered.phase ≠ .exited) :
    confirmTurn facts reply event = some entered := by
  unfold confirmTurn
  rw [done, Option.bind_some]
  cases phase : entered.phase with
  | exited => exact absurd phase going
  | _ => rfl

theorem confirmTurn_view (facts : ConfirmFacts) {reply : Reply} (event : ConfirmEvent)
    (idle : reply.phase = .idle)
    (validated : ∀ message ∈ reply.fold.messages.items,
      message.validateRoleContent = some message) :
    ∃ after, confirmTurn facts reply event = some after ∧
      after.outcome.messages = view (acceptedMessages reply.fold.messages.items event) := by
  have entered := confirmed_eq facts event idle
  have accepting : (built facts reply event).context = reply.fold.messages.items := rfl
  unfold enterConfirm at entered
  rw [accepting] at entered
  cases accepted : acceptConfirmation reply.fold.messages.items event.toolCallId
      event.approved with
  | none =>
      rw [accepted] at entered
      refine confirmTurn_ends validated entered rfl rfl rfl ?_
      unfold acceptedMessages
      rw [accepted]
      rfl
  | some context =>
      have result : acceptedMessages reply.fold.messages.items event = context := by
        unfold acceptedMessages
        rw [accepted]
        rfl
      rw [accepted] at entered
      dsimp only at entered
      by_cases settled : (toolCallsInState context .asking).isEmpty = true
      · rw [if_pos settled] at entered
        obtain ⟨same, running, going⟩ := resumeExecute_goes _
        refine ⟨_, confirmTurn_goes entered going, ?_⟩
        rw [outcome_of_running running, same, result]
      · rw [if_neg settled] at entered
        exact confirmTurn_ends validated entered rfl rfl rfl result.symm

/-! ### The asking calls of the blocks -/

structure FirstCall (blocks : List ContentBlock) (toolCallId : String)
    (before : List ContentBlock) (call : ToolCallBlock) (after : List ContentBlock) : Prop where
  split : blocks = before ++ .toolCall call :: after
  named : call.id = toolCallId
  fresh : toolCallId ∉ callIds before

namespace FirstCall

variable {blocks before after : List ContentBlock} {toolCallId : String} {call : ToolCallBlock}

theorem setState (first : FirstCall blocks toolCallId before call after) (state : ToolCallState) :
    MessageContext.setState blocks toolCallId state =
      before ++ .toolCall { call with state := state } :: after := by
  have passed : changeFirst (setCall toolCallId state) before = none := by
    have fresh := first.fresh
    clear first
    induction before with
    | nil => rfl
    | cons head rest ih =>
        have later : toolCallId ∉ callIds rest := fun member =>
          fresh ((List.sublist_cons_self head rest).filterMap _ |>.subset member)
        unfold changeFirst
        have missed : setCall toolCallId state head = none := by
          cases hit : setCall toolCallId state head with
          | none => rfl
          | some changed =>
              obtain ⟨held, rfl, same, _⟩ := setCall_isCall hit
              exact absurd (same ▸ mem_callIds List.mem_cons_self) fresh
        rw [missed, ih later]
        rfl
  have hit : setCall toolCallId state (.toolCall call) =
      some (.toolCall { call with state := state }) := if_pos first.named
  unfold MessageContext.setState
  rw [first.split, changeFirst_append, passed, changeFirst, hit]
  rfl

theorem count (first : FirstCall blocks toolCallId before call after) :
    (callIds blocks).count toolCallId = (callIds after).count toolCallId + 1 := by
  rw [first.split, callIds_append, List.count_append, List.count_eq_zero.mpr first.fresh]
  change 0 + (call.id :: callIds after).count toolCallId = _
  rw [first.named, List.count_cons_self, Nat.zero_add]

theorem calls_eq (first : FirstCall blocks toolCallId before call after) :
    blocks.filterMap ContentBlock.asToolCall? =
      before.filterMap ContentBlock.asToolCall? ++
        call :: after.filterMap ContentBlock.asToolCall? := by
  rw [first.split, List.filterMap_append]
  rfl

private theorem find_fresh {blocks : List ContentBlock} {toolCallId : String}
    (fresh : toolCallId ∉ callIds blocks) :
    (blocks.filterMap ContentBlock.asToolCall?).find?
      (fun call => decide (call.id = toolCallId)) = none := by
  rw [List.find?_eq_none]
  intro call member
  rw [decide_eq_true_eq]
  intro same
  exact fresh (same ▸ mem_callIds (mem_calls.mp member))

theorem found (first : FirstCall blocks toolCallId before call after) :
    (blocks.filterMap ContentBlock.asToolCall?).find?
      (fun call => decide (call.id = toolCallId)) = some call := by
  rw [first.calls_eq, List.find?_append, find_fresh first.fresh, Option.none_or, List.find?_cons,
    decide_eq_true first.named]

theorem last (first : FirstCall blocks toolCallId before call after) {other : ToolCallBlock}
    (found : (blocks.filterMap ContentBlock.asToolCall?).reverse.find?
      (fun call => decide (call.id = toolCallId)) = some other) :
    if toolCallId ∈ callIds after then .toolCall other ∈ after else other = call := by
  rw [first.calls_eq, List.reverse_append, List.reverse_cons, List.append_assoc,
    List.find?_append] at found
  by_cases again : toolCallId ∈ callIds after
  · rw [if_pos again]
    cases late : (after.filterMap ContentBlock.asToolCall?).reverse.find?
        (fun call => decide (call.id = toolCallId)) with
    | none =>
        obtain ⟨held, member, same⟩ := exists_call again
        exact absurd (decide_eq_true same)
          (List.find?_eq_none.mp late held (List.mem_reverse.mpr (mem_calls.mpr member)))
    | some later =>
        rw [late, Option.some_or] at found
        cases found
        exact mem_calls.mp (List.mem_reverse.mp (List.mem_of_find?_eq_some late))
  · rw [if_neg again]
    have passed : (after.filterMap ContentBlock.asToolCall?).reverse.find?
        (fun call => decide (call.id = toolCallId)) = none := by
      rw [List.find?_eq_none]
      intro held member
      exact List.find?_eq_none.mp (find_fresh again) held (List.mem_reverse.mp member)
    rw [passed, Option.none_or, List.singleton_append, List.find?_cons,
      decide_eq_true first.named] at found
    exact (Option.some.inj found).symm

end FirstCall

theorem exists_firstCall {blocks : List ContentBlock} {toolCallId : String}
    (member : toolCallId ∈ callIds blocks) :
    ∃ before call after, FirstCall blocks toolCallId before call after := by
  induction blocks with
  | nil => cases member
  | cons head rest ih =>
      by_cases here : head.asToolCall?.map ToolCallBlock.id = some toolCallId
      · obtain ⟨call, isCall, named⟩ := Option.map_eq_some_iff.mp here
        have called : head = .toolCall call := by
          have listed : call ∈ [head].filterMap ContentBlock.asToolCall? :=
            List.mem_filterMap.mpr ⟨head, List.mem_singleton_self head, isCall⟩
          exact (List.mem_singleton.mp (mem_calls.mp listed)).symm
        exact ⟨[], call, rest, by rw [called]; rfl, named, List.not_mem_nil⟩
      · have later : toolCallId ∈ callIds rest := by
          obtain ⟨block, held, named⟩ := List.mem_filterMap.mp member
          rcases List.mem_cons.mp held with rfl | remaining
          · exact absurd named here
          · exact List.mem_filterMap.mpr ⟨block, remaining, named⟩
        obtain ⟨before, call, after, rfl, named, fresh⟩ := ih later
        refine ⟨head :: before, call, after, rfl, named, ?_⟩
        intro earlier
        obtain ⟨block, held, same⟩ := List.mem_filterMap.mp earlier
        rcases List.mem_cons.mp held with rfl | remaining
        · exact here same
        · exact fresh (List.mem_filterMap.mpr ⟨block, remaining, same⟩)

/-! ### What a confirmation leaves asking -/

theorem toolCalls_ownedCalls (messages : List Msg) :
    (ownedCalls messages).map Prod.snd = (blocks messages).filterMap ContentBlock.asToolCall? := by
  rw [← toolCalls_eq]
  unfold ownedCalls toolCalls
  rw [List.map_flatMap]
  congr 1
  funext message
  rw [List.map_map]
  exact List.map_id _

theorem last_of_target {toolCallId replyId : String}
    (targeted : confirmTarget messages toolCallId = some (replyId, call)) :
    ((blocks messages).filterMap ContentBlock.asToolCall?).reverse.find?
      (fun call => decide (call.id = toolCallId)) = some call := by
  rw [← toolCalls_ownedCalls, ← List.map_reverse, List.find?_map]
  unfold confirmTarget at targeted
  change Option.map Prod.snd ((ownedCalls messages).reverse.find?
    fun owned => decide (owned.2.id = toolCallId)) = _
  rw [targeted]
  rfl

theorem target_mem {toolCallId replyId : String}
    (targeted : confirmTarget messages toolCallId = some (replyId, call)) :
    .toolCall call ∈ blocks messages ∧ call.id = toolCallId := by
  have last := last_of_target targeted
  have named := List.find?_some last
  exact ⟨mem_calls.mp (List.mem_reverse.mp (List.mem_of_find?_eq_some last)),
    of_decide_eq_true named⟩

theorem blocks_accepted {before after : List ContentBlock}
    (first : FirstCall (blocks messages) event.toolCallId before call after) :
    blocks (acceptedMessages messages event) =
      if call.state = .asking then
        before ++ .toolCall { call with state := expectedState event.approved } :: after
      else blocks messages := by
  unfold acceptedMessages acceptConfirmation
  rw [toolCalls_eq, first.found]
  dsimp only
  by_cases asking : call.state = .asking
  · rw [if_pos asking, if_pos asking, Option.getD_some, blocks_setToolCallState, first.setState]
  · rw [if_neg asking, if_neg asking]
    split <;> rfl

theorem expectedState_settled (approved : Bool) : expectedState approved ≠ .asking := by
  cases approved <;> exact ToolCallState.noConfusion

theorem asks_of_other {messages : List Msg} {event : ConfirmEvent} {other : String}
    (asks : Asks (blocks messages) other) (different : other ≠ event.toolCallId)
    (present : event.toolCallId ∈ callIds (blocks messages)) :
    Asks (blocks (acceptedMessages messages event)) other := by
  obtain ⟨before, call, after, first⟩ := exists_firstCall present
  rw [blocks_accepted first]
  by_cases asking : call.state = .asking
  · rw [if_pos asking]
    obtain ⟨held, member, named, waits⟩ := asks
    rw [first.split] at member
    refine ⟨held, ?_, named, waits⟩
    rcases List.mem_append.mp member with earlier | rest
    · exact List.mem_append_left _ earlier
    · rcases List.mem_cons.mp rest with same | later
      · cases same
        exact absurd (named.symm.trans first.named) different
      · exact List.mem_append_right _ (List.mem_cons_of_mem _ later)
  · rw [if_neg asking]
    exact asks

theorem asks_accepted_iff (event : ConfirmEvent)
    (targeted : confirmTarget messages event.toolCallId = some (replyId, call))
    (asking : call.state = .asking) :
    ¬ Asks (blocks (acceptedMessages messages event)) event.toolCallId ↔
      (callIds (blocks messages)).count event.toolCallId = 1 := by
  obtain ⟨member, named⟩ := target_mem targeted
  obtain ⟨before, held, after, first⟩ := exists_firstCall (named ▸ mem_callIds member)
  have last := first.last (last_of_target targeted)
  rw [blocks_accepted first, first.count]
  by_cases again : event.toolCallId ∈ callIds after
  · rw [if_pos again] at last
    have counted := List.count_pos_iff.mpr again
    refine iff_of_false ?_ (by omega)
    rw [not_not]
    refine ⟨call, ?_, named, asking⟩
    by_cases waits : held.state = .asking
    · rw [if_pos waits]
      exact List.mem_append_right _ (List.mem_cons_of_mem _ last)
    · rw [if_neg waits]
      exact member
  · rw [if_neg again] at last
    rw [last] at asking
    rw [if_pos asking, List.count_eq_zero.mpr again]
    refine iff_of_true ?_ rfl
    rintro ⟨other, listed, same, waits⟩
    rcases List.mem_append.mp listed with earlier | rest
    · exact first.fresh (same ▸ mem_callIds earlier)
    · rcases List.mem_cons.mp rest with here | later
      · cases here
        exact expectedState_settled _ waits
      · exact again (same ▸ mem_callIds later)

/-! ### Batches -/

theorem blocks_view (messages : List Msg) :
    (view messages).flatMap Prod.snd = blocks messages := by
  unfold view
  rw [List.flatMap_map]
  rfl

private theorem eraseDups_of_nodup {ids : List String} (distinct : ids.Nodup) :
    ids.eraseDups = ids := by
  induction ids with
  | nil => rfl
  | cons head rest ih =>
      rw [List.nodup_cons] at distinct
      have others : rest.filter (fun id => !id == head) = rest := by
        rw [List.filter_eq_self]
        intro id member
        have different : id ≠ head := fun same => distinct.1 (same ▸ member)
        rw [Bool.not_eq_true']
        exact beq_false_of_ne different
      rw [List.eraseDups_cons, others, ih distinct.2]

private theorem eraseDups_same {ids : List String} (same : ∀ id ∈ ids, id = replyId)
    (filled : ids ≠ []) : ids.eraseDups = [replyId] := by
  cases ids with
  | nil => exact absurd rfl filled
  | cons head rest =>
      have first : head = replyId := same head List.mem_cons_self
      have others : rest.filter (fun id => !id == head) = [] := by
        rw [List.filter_eq_nil_iff]
        intro id member
        rw [same id (List.mem_cons_of_mem _ member), first, beq_self_eq_true]
        exact Bool.noConfusion
      rw [List.eraseDups_cons, others, first]
      rfl

theorem confirm_ok {command : String} {messages : List Msg} {toolCallIds : List String}
    {approved : Bool} {replyId : String} (filled : toolCallIds ≠ [])
    (distinct : toolCallIds.Nodup)
    (asked : ∀ id ∈ toolCallIds, ∃ call, confirmTarget messages id = some (replyId, call) ∧
      call.state = .asking) :
    confirm command messages toolCallIds approved =
      .ok (toolCallIds.map fun id => ⟨replyId, id, approved⟩) := by
  have missing : (toolCallIds.filter fun id => (confirmTarget messages id).isNone) = [] := by
    rw [List.filter_eq_nil_iff]
    intro id member
    obtain ⟨call, targeted, _⟩ := asked id member
    rw [targeted]
    exact Bool.noConfusion
  have notAsking : (toolCallIds.filter fun id => decide
      ((confirmTarget messages id).map (fun (_, call) => call.state) ≠ some .asking)) = [] := by
    rw [List.filter_eq_nil_iff]
    intro id member
    obtain ⟨call, targeted, asking⟩ := asked id member
    have waits : (confirmTarget messages id).map (fun (_, call) => call.state) = some .asking := by
      rw [targeted]
      exact congrArg some asking
    rw [decide_eq_true_eq]
    exact not_not.mpr waits
  have replies : (toolCallIds.filterMap fun id =>
      (confirmTarget messages id).map Prod.fst).eraseDups = [replyId] := by
    apply eraseDups_same
    · intro other member
      obtain ⟨id, listed, owner⟩ := List.mem_filterMap.mp member
      obtain ⟨call, targeted, _⟩ := asked id listed
      rw [targeted] at owner
      cases owner
      rfl
    · cases toolCallIds with
      | nil => exact absurd rfl filled
      | cons head rest =>
          obtain ⟨call, targeted, _⟩ := asked head List.mem_cons_self
          rw [List.filterMap_cons, targeted]
          exact List.cons_ne_nil _ _
  unfold confirm
  dsimp only
  rw [eraseDups_of_nodup distinct, if_neg filled, missing, notAsking, replies]
  rfl

theorem confirmAll_blocks (facts : String → ConfirmFacts) (command : String) {reply : Reply}
    {toolCallIds : List String} (approved : Bool) {replyId : String} (idle : reply.phase = .idle)
    (validated : ∀ message ∈ reply.fold.messages.items,
      message.validateRoleContent = some message)
    (filled : toolCallIds ≠ []) (distinct : toolCallIds.Nodup)
    (asked : ∀ id ∈ toolCallIds, ∃ call,
      confirmTarget reply.fold.messages.items id = some (replyId, call) ∧ call.state = .asking) :
    (confirmAll facts command reply toolCallIds approved).outcome.blocks =
      blocks (acceptedMessages reply.fold.messages.items
        ⟨replyId, toolCallIds.getLast filled, approved⟩) := by
  obtain ⟨after, ran, seen⟩ := confirmTurn_view (facts (toolCallIds.getLast filled))
    ⟨replyId, toolCallIds.getLast filled, approved⟩ idle validated
  unfold confirmAll resumeConfirmation
  rw [confirm_ok filled distinct asked]
  dsimp only
  rw [List.getLast?_map, List.getLast?_eq_some_getLast filled, idle]
  dsimp only [Option.map_some]
  rw [ran, Option.getD_some]
  unfold Outcome.blocks
  rw [seen, blocks_view]

/-- A batch does what its ids do one by one, with none left asking, exactly
when it has at most one id and that is the id of one call alone. -/
theorem batchIsSequence_iff (facts : String → ConfirmFacts) (command : String) {reply : Reply}
    {toolCallIds : List String} (approved : Bool) (idle : reply.phase = .idle)
    (validated : ∀ message ∈ reply.fold.messages.items,
      message.validateRoleContent = some message)
    (distinct : toolCallIds.Nodup)
    (asked : AskInOneReply reply.fold.messages.items toolCallIds) :
    BatchIsSequence facts command reply toolCallIds approved ↔
      toolCallIds.length ≤ 1 ∧
        ∀ id ∈ toolCallIds, (callIds (blocks reply.fold.messages.items)).count id = 1 := by
  obtain ⟨replyId, asked⟩ := asked
  match toolCallIds, distinct, asked with
  | [], _, _ =>
      refine iff_of_true ⟨rfl, ?_⟩ ⟨Nat.zero_le _, ?_⟩
      · intro id member
        cases member
      · intro id member
        cases member
  | [id], distinct, asked =>
      obtain ⟨call, targeted, asking⟩ := asked id (List.mem_singleton_self id)
      have settled := asks_accepted_iff ⟨replyId, id, approved⟩ targeted asking
      have left := confirmAll_blocks facts command approved idle validated
        (List.cons_ne_nil id []) distinct asked
      unfold BatchIsSequence
      rw [left]
      simp only [List.mem_singleton, forall_eq]
      exact ⟨fun both => ⟨le_rfl, settled.mp both.2⟩, fun both => ⟨rfl, settled.mpr both.2⟩⟩
  | first :: second :: rest, distinct, asked =>
      refine iff_of_false ?_ (fun both => absurd both.1 (by simp))
      rintro ⟨_, none⟩
      apply none first List.mem_cons_self
      rw [confirmAll_blocks facts command approved idle validated (List.cons_ne_nil _ _) distinct
        asked]
      have last : List.getLast (first :: second :: rest) (List.cons_ne_nil _ _) ∈
          second :: rest := by
        rw [List.getLast_cons (List.cons_ne_nil _ _)]
        exact List.getLast_mem _
      have different : first ≠ List.getLast (first :: second :: rest) (List.cons_ne_nil _ _) :=
        fun same => (List.nodup_cons.mp distinct).1 (same ▸ last)
      obtain ⟨call, targeted, asking⟩ := asked first List.mem_cons_self
      obtain ⟨member, named⟩ := target_mem targeted
      obtain ⟨other, aimed, _⟩ := asked _ (List.mem_cons_of_mem _ last)
      obtain ⟨present, called⟩ := target_mem aimed
      exact asks_of_other ⟨call, member, named, asking⟩ different (called ▸ mem_callIds present)

private def askingCall (id : String) : ContentBlock :=
  .toolCall ⟨id, "shell", .empty, .asking, "", none⟩

private def waitingForTwo : Reply :=
  { fresh 0 with
    fold := FoldState.empty.insert
      (Msg.plain "m" .assistant [askingCall "first", askingCall "second"] "") }

private def confirmFacts : ConfirmFacts where
  turnId := "confirm"
  model := ""
  maxIterations := none
  maxContinuations := 0
  ended := ⟨"confirm", "", "paused", "paused", none, none, 0, .empty⟩

/-- Two calls allowed at once stay paused with the first one asking; allowed one
by one they are executed. -/
theorem batch_leaves_first_asking :
    ¬ BatchIsSequence (fun _ => confirmFacts) "/allow" waitingForTwo ["first", "second"] true := by
  rintro ⟨same, -⟩
  have phases := congrArg Outcome.phase same
  have batch : (confirmAll (fun _ => confirmFacts) "/allow" waitingForTwo ["first", "second"]
      true).outcome.phase = .idle := rfl
  have each : (confirmEach (fun _ => confirmFacts) "/allow" waitingForTwo ["first", "second"]
      true).outcome.phase = .starting
        [⟨"first", "shell", .empty⟩, ⟨"second", "shell", .empty⟩]
        [⟨"first", "shell", .empty⟩, ⟨"second", "shell", .empty⟩] := rfl
  rw [batch, each] at phases
  cases phases

/-- The command with one of the two ids is its own sequence. -/
theorem single_is_sequence :
    BatchIsSequence (fun _ => confirmFacts) "/allow" waitingForTwo ["first"] true := by
  refine (batchIsSequence_iff (fun _ => confirmFacts) "/allow" true rfl ?_
    (List.nodup_singleton _) ⟨"m", ?_⟩).mpr ⟨le_rfl, ?_⟩
  · intro message member
    cases List.mem_singleton.mp member
    rfl
  · intro id member
    cases List.mem_singleton.mp member
    exact ⟨_, rfl, rfl⟩
  · intro id member
    cases List.mem_singleton.mp member
    rfl

end Reply

end Ftre.Runtime
