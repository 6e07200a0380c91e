import Ftre.Session.RepairTurns

/-!
What the import of an old log leaves: the messages of the repaired log compared
with those of the log itself, call by call and message by message, and the logs
on which every promise of the import is kept.
-/

namespace Ftre.Session

open Lib Message

/-! ### Blocks of a call -/

def resultsOf (id : String) (content : List ContentBlock) : List ToolResultBlock :=
  content.filterMap fun block =>
    block.asToolResult?.bind fun result => if result.id = id then some result else none

def callsOf (id : String) (content : List ContentBlock) : List ToolCallBlock :=
  content.filterMap fun block =>
    block.asToolCall?.bind fun call => if call.id = id then some call else none

variable {content : List ContentBlock} {now : Int}

theorem mem_resultsOf {id : String} {result : ToolResultBlock} :
    result ∈ resultsOf id content ↔ ContentBlock.toolResult result ∈ content ∧ result.id = id := by
  unfold resultsOf
  rw [List.mem_filterMap]
  constructor
  · rintro ⟨block, present, picked⟩
    obtain ⟨found, read, chosen⟩ := Option.bind_eq_some_iff.mp picked
    obtain ⟨own, same⟩ := Option.ite_none_right_eq_some.mp chosen
    cases same
    cases block with
    | toolResult held =>
        cases read
        exact ⟨present, own⟩
    | _ => cases read
  · rintro ⟨present, own⟩
    exact ⟨.toolResult result, present, if_pos own⟩

theorem mem_callsOf {id : String} {call : ToolCallBlock} :
    call ∈ callsOf id content ↔ ContentBlock.toolCall call ∈ content ∧ call.id = id := by
  unfold callsOf
  rw [List.mem_filterMap]
  constructor
  · rintro ⟨block, present, picked⟩
    obtain ⟨found, read, chosen⟩ := Option.bind_eq_some_iff.mp picked
    obtain ⟨own, same⟩ := Option.ite_none_right_eq_some.mp chosen
    cases same
    cases block with
    | toolCall held =>
        cases read
        exact ⟨present, own⟩
    | _ => cases read
  · rintro ⟨present, own⟩
    exact ⟨.toolCall call, present, if_pos own⟩

/-- The first element that `pick` reads is the one `change` turns into another. -/
theorem changeFirst_modifyHead {α β : Type} {change : α → Option α} {pick : α → Option β}
    {alter : β → β}
    (reads : ∀ element, match change element with
      | some changed => pick changed = (pick element).map alter ∧ (pick element).isSome
      | none => pick element = none) (elements : List α) :
    ((changeFirst change elements).getD elements).filterMap pick =
      (elements.filterMap pick).modifyHead alter := by
  induction elements with
  | nil => rfl
  | cons head rest ih =>
      have own := reads head
      unfold changeFirst
      cases hit : change head with
      | some changed =>
          rw [hit] at own
          obtain ⟨picked, some⟩ := own
          obtain ⟨value, held⟩ := Option.isSome_iff_exists.mp some
          rw [held, Option.map_some] at picked
          simp [held, picked]
      | none =>
          rw [hit] at own
          cases later : changeFirst change rest with
          | none =>
              rw [later] at ih
              simpa [List.filterMap_cons, own] using ih
          | some changed =>
              rw [later] at ih
              simpa [List.filterMap_cons, own] using ih

theorem eraseP_filterMap_tail {α β : Type} {accept : α → Bool} {pick : α → Option β}
    (same : ∀ element, (pick element).isSome = accept element) (elements : List α) :
    (elements.eraseP accept).filterMap pick = (elements.filterMap pick).tail := by
  induction elements with
  | nil => rfl
  | cons head rest ih =>
      have own := same head
      cases hit : accept head with
      | true =>
          rw [hit] at own
          obtain ⟨value, held⟩ := Option.isSome_iff_exists.mp own
          rw [List.eraseP_cons_of_pos hit, List.filterMap_cons, held]
          rfl
      | false =>
          rw [hit] at own
          have unread : pick head = none := by simpa using own
          rw [List.eraseP_cons_of_neg (by simp [hit]), List.filterMap_cons, unread,
            List.filterMap_cons, unread]
          exact ih

theorem eraseP_filterMap_of_unread {α β : Type} {accept : α → Bool} {pick : α → Option β}
    (unread : ∀ element, accept element = true → pick element = none) (elements : List α) :
    (elements.eraseP accept).filterMap pick = elements.filterMap pick := by
  induction elements with
  | nil => rfl
  | cons head rest ih =>
      cases hit : accept head with
      | true =>
          rw [List.eraseP_cons_of_pos hit, List.filterMap_cons, unread head hit]
      | false =>
          rw [List.eraseP_cons_of_neg (by simp [hit]), List.filterMap_cons, List.filterMap_cons, ih]

def finishedCall (finishedAt : String) (call : ToolCallBlock) : ToolCallBlock :=
  { call with
    state := .finished
    finishedAt := some finishedAt }

section

variable (event : Event) (result : ToolResultBlock) (message : Msg)

theorem resultsOf_record (id : String) :
    resultsOf id (recordToolResult event result message).content =
      if result.id = id then (resultsOf id message.content).tail ++ [result]
      else resultsOf id message.content := by
  have finishing : ∀ content : List ContentBlock,
      resultsOf id ((changeFirst (finishCall result.id (isoFromMs event.time)) content).getD
        content) = resultsOf id content := by
    intro content
    unfold resultsOf
    cases finished : changeFirst (finishCall result.id (isoFromMs event.time)) content with
    | none => rfl
    | some changed =>
        apply changeFirst_filterMap _ finished
        intro block other done
        cases block with
        | toolCall call =>
            obtain ⟨_, same⟩ := Option.ite_none_right_eq_some.mp done
            cases same
            rfl
        | _ => cases done
  have appended : ∀ content : List ContentBlock,
      resultsOf id (content ++ [.toolResult result]) =
        resultsOf id content ++ if result.id = id then [result] else [] := by
    intro content
    unfold resultsOf
    rw [List.filterMap_append]
    by_cases own : result.id = id <;> simp [ContentBlock.asToolResult?, own]
  refine (finishing _).trans ((appended _).trans ?_)
  by_cases own : result.id = id
  · rw [if_pos own, if_pos own]
    subst own
    congr 1
    apply eraseP_filterMap_tail
    intro block
    cases block with
    | toolResult held =>
        by_cases same : held.id = result.id <;>
          simp [ContentBlock.asToolResult?, isToolResultOf, same]
    | _ => rfl
  · rw [if_neg own, if_neg own, List.append_nil]
    apply eraseP_filterMap_of_unread
    intro block accepted
    cases block with
    | toolResult held =>
        have same : held.id = result.id := of_decide_eq_true accepted
        have other : held.id ≠ id := fun equal => own (same.symm.trans equal)
        simp [ContentBlock.asToolResult?, other]
    | _ => cases accepted

theorem callsOf_record (id : String) :
    callsOf id (recordToolResult event result message).content =
      if result.id = id then
        (callsOf id message.content).modifyHead (finishedCall (isoFromMs event.time))
      else callsOf id message.content := by
  have kept : callsOf id (message.content.eraseP (isToolResultOf result.id) ++
      [.toolResult result]) = callsOf id message.content := by
    unfold callsOf
    rw [List.filterMap_append, eraseP_filterMap_of_unread]
    · exact List.append_nil _
    · intro block accepted
      cases block with
      | toolResult held => rfl
      | _ => cases accepted
  by_cases own : result.id = id
  · rw [if_pos own, ← kept]
    subst own
    apply changeFirst_modifyHead
    intro block
    cases block with
    | toolCall call =>
        by_cases same : call.id = result.id <;>
          simp [finishCall, ContentBlock.asToolCall?, same, finishedCall]
    | _ => rfl
  · rw [if_neg own, ← kept]
    change callsOf id ((changeFirst (finishCall result.id (isoFromMs event.time)) _).getD _) = _
    cases finished : changeFirst (finishCall result.id (isoFromMs event.time))
        (message.content.eraseP (isToolResultOf result.id) ++ [.toolResult result]) with
    | none => rfl
    | some changed =>
        apply changeFirst_filterMap _ finished
        intro block other done
        cases block with
        | toolCall call =>
            obtain ⟨same, equal⟩ := Option.ite_none_right_eq_some.mp done
            cases equal
            have different : call.id ≠ id := fun held => own (same.symm.trans held)
            simp [ContentBlock.asToolCall?, different]
        | _ => cases done

end

/-! ### Messages of the repaired log -/

/-- The message after the calls in `closed` got an interrupted result in it. -/
def Answered (now : Int) (closed : String → Prop) (before after : Msg) : Prop :=
  ∀ id,
    (closed id →
      (∃ result : ToolResultBlock, result.state = .interrupted ∧
        resultsOf id after.content = (resultsOf id before.content).tail ++ [result]) ∧
      callsOf id after.content =
        (callsOf id before.content).modifyHead (finishedCall (isoFromMs now))) ∧
    (¬ closed id →
      resultsOf id after.content = resultsOf id before.content ∧
        callsOf id after.content = callsOf id before.content)

theorem Answered.refl {closed : String → Prop} (none : ∀ id, ¬ closed id) (message : Msg) :
    Answered now closed message message :=
  fun id => ⟨fun impossible => absurd impossible (none id), fun _ => ⟨rfl, rfl⟩⟩

theorem Answered.trans {first second both : String → Prop} {before middle after : Msg}
    (one : Answered now first before middle) (other : Answered now second middle after)
    (disjoint : ∀ id, first id → ¬ second id) (split : ∀ id, both id ↔ first id ∨ second id) :
    Answered now both before after := by
  intro id
  constructor
  · intro closed
    rcases (split id).mp closed with here | there
    · obtain ⟨⟨result, interrupted, results⟩, calls⟩ := (one id).1 here
      obtain ⟨sameResults, sameCalls⟩ := (other id).2 (disjoint id here)
      exact ⟨⟨result, interrupted, sameResults.trans results⟩, sameCalls.trans calls⟩
    · have untouched : ¬ first id := fun here => disjoint id here there
      obtain ⟨sameResults, sameCalls⟩ := (one id).2 untouched
      obtain ⟨⟨result, interrupted, results⟩, calls⟩ := (other id).1 there
      rw [sameResults] at results
      rw [sameCalls] at calls
      exact ⟨⟨result, interrupted, results⟩, calls⟩
  · intro open_
    have neither := fun closed => open_ ((split id).mpr closed)
    obtain ⟨sameResults, sameCalls⟩ := (one id).2 fun here => neither (Or.inl here)
    obtain ⟨nextResults, nextCalls⟩ := (other id).2 fun there => neither (Or.inr there)
    exact ⟨nextResults.trans sameResults, nextCalls.trans sameCalls⟩

/-- The transcript after results were added for the calls in `ids`: each went to
the message that the index names. -/
structure Closed (now : Int) (ids : List String) (before after : FoldState) : Prop where
  index : after.toolCalls = before.toolCalls
  absent : ∀ owner, before.messages.find? owner = none → after.messages.find? owner = none
  answered : ∀ owner message, before.messages.find? owner = some message →
    ∃ repaired, after.messages.find? owner = some repaired ∧
      Answered now (fun id => id ∈ ids ∧ before.toolCalls.find? id = some owner) message repaired

theorem Closed.trans {ids others : List String} {before middle after : FoldState}
    (first : Closed now ids before middle) (second : Closed now others middle after)
    (disjoint : ∀ id ∈ ids, id ∉ others) : Closed now (ids ++ others) before after := by
  refine ⟨second.index.trans first.index, ?_, ?_⟩
  · exact fun owner missing => second.absent owner (first.absent owner missing)
  · intro owner message found
    obtain ⟨between, reached, one⟩ := first.answered owner message found
    obtain ⟨last, ended, other⟩ := second.answered owner between reached
    refine ⟨last, ended, one.trans other ?_ ?_⟩
    · rintro id ⟨here, _⟩ ⟨there, _⟩
      exact disjoint id here there
    · intro id
      rw [first.index, List.mem_append]
      exact or_and_right

theorem closed_of_content {now : Int} {before after : FoldState}
    (index : after.toolCalls = before.toolCalls)
    (absent : ∀ owner, before.messages.find? owner = none → after.messages.find? owner = none)
    (kept : ∀ owner message, before.messages.find? owner = some message →
      ∃ later, after.messages.find? owner = some later ∧ later.content = message.content) :
    Closed now [] before after := by
  refine ⟨index, absent, ?_⟩
  intro owner message found
  obtain ⟨later, held, same⟩ := kept owner message found
  refine ⟨later, held, fun id => ⟨?_, ?_⟩⟩
  · rintro ⟨impossible, _⟩
    cases impossible
  · intro _
    rw [same]
    exact ⟨rfl, rfl⟩

theorem closed_finishTurn (now : Int) (state : FoldState) (event : Event) (data : TurnEndData) :
    Closed now [] state (state.finishTurn event data) := by
  unfold FoldState.finishTurn
  cases target : event.target.bind state.messages.find? with
  | none => exact closed_of_content rfl (fun _ => id) fun _ message found => ⟨message, found, rfl⟩
  | some message =>
      dsimp only
      by_cases assistant : message.role = .assistant
      · rw [if_pos assistant]
        obtain ⟨id, _, held⟩ := Option.bind_eq_some_iff.mp target
        have look : ∀ owner, (state.update (endTurn event data message)).messages.find? owner =
            if message.id = owner then some (endTurn event data message)
            else state.messages.find? owner := fun owner => KeyedList.find?_put _ _ owner
        have present : state.messages.find? message.id = some message :=
          KeyedList.find?_of_mem (KeyedList.find?_mem held).1
        refine closed_of_content (by rfl) ?_ ?_
        · intro owner missing
          have other : message.id ≠ owner := by
            rintro rfl
            rw [present] at missing
            cases missing
          rw [look, if_neg other]
          exact missing
        · intro owner found kept
          rw [look]
          by_cases own : message.id = owner
          · rw [if_pos own]
            rw [← own, present] at kept
            cases kept
            exact ⟨_, rfl, rfl⟩
          · rw [if_neg own]
            exact ⟨found, kept, rfl⟩
      · rw [if_neg assistant]
        exact closed_of_content rfl (fun _ => id) fun _ message found => ⟨message, found, rfl⟩

section

variable (now : Int) (textId : String → String)

variable {state : FoldState} {result : ToolResultBlock}

theorem finishToolResult_none {event : Event} (nobody : state.toolOwner result.id = none) :
    state.finishToolResult event result = state := by
  unfold FoldState.finishToolResult
  rw [nobody]

theorem finishToolResult_some {event : Event} {message : Msg}
    (owner : state.toolOwner result.id = some message) :
    state.finishToolResult event result =
      state.update (recordToolResult event result message) := by
  unfold FoldState.finishToolResult
  rw [owner]

def interruptedBlock (seq : Int) (call : String × String × String) : ToolResultBlock :=
  finalResult (interruptedResult now textId seq call) call.1 call.2.1
    [.text ⟨"[CRASHED] 执行中断，结果未知", textId call.1, isoFromMs now, none⟩] "interrupted" synthetic

theorem interruptedBlock_state (seq : Int) (call : String × String × String) :
    (interruptedBlock now textId seq call).state = .interrupted := rfl

private theorem closed_one {state : FoldState} (indexed : state.Indexed) (seq : Int)
    (call : String × String × String) :
    Closed now [call.1] state (applyEvent state (interruptedResult now textId seq call)) := by
  change Closed now [call.1] state (state.finishToolResult (interruptedResult now textId seq call)
    (interruptedBlock now textId seq call))
  have owner : state.toolOwner (interruptedBlock now textId seq call).id =
      (state.toolCalls.find? call.1).bind state.messages.find? := FoldState.toolOwner_eq indexed _
  cases known : state.toolCalls.find? call.1 with
  | none =>
      rw [known] at owner
      rw [finishToolResult_none owner]
      refine ⟨rfl, fun owner => id, fun owner message found => ⟨message, found, ?_⟩⟩
      apply Answered.refl
      rintro id ⟨only, indexedAt⟩
      rw [List.mem_singleton.mp only, known] at indexedAt
      cases indexedAt
  | some holder =>
      obtain ⟨held, found⟩ := Option.isSome_iff_exists.mp (indexed.owned _ _ known)
      have named := (KeyedList.find?_mem found).2
      rw [known, Option.bind_some, found] at owner
      rw [finishToolResult_some owner]
      have look : ∀ wanted, (state.update (recordToolResult (interruptedResult now textId seq call)
          (interruptedBlock now textId seq call) held)).messages.find? wanted =
            if held.id = wanted then
              some (recordToolResult (interruptedResult now textId seq call)
                (interruptedBlock now textId seq call) held)
            else state.messages.find? wanted := fun wanted => KeyedList.find?_put _ _ wanted
      refine ⟨rfl, ?_, ?_⟩
      · intro wanted missing
        have other : held.id ≠ wanted := by
          rintro rfl
          rw [named, found] at missing
          cases missing
        rw [look, if_neg other]
        exact missing
      · intro wanted message present
        rw [look]
        by_cases own : held.id = wanted
        · rw [if_pos own]
          subst own
          rw [named, found] at present
          cases present
          refine ⟨_, rfl, ?_⟩
          intro id
          rw [resultsOf_record, callsOf_record]
          constructor
          · rintro ⟨only, _⟩
            have same : (interruptedBlock now textId seq call).id = id :=
              (List.mem_singleton.mp only).symm
            rw [if_pos same, if_pos same]
            exact ⟨⟨_, interruptedBlock_state now textId seq call, rfl⟩, rfl⟩
          · intro elsewhere
            have other : (interruptedBlock now textId seq call).id ≠ id := by
              intro same
              apply elsewhere
              have equal : id = call.1 := same.symm
              rw [equal, named]
              exact ⟨List.mem_cons_self, known⟩
            rw [if_neg other, if_neg other]
            exact ⟨rfl, rfl⟩
        · rw [if_neg own]
          refine ⟨message, present, Answered.refl ?_ message⟩
          rintro id ⟨only, indexedAt⟩
          rw [List.mem_singleton.mp only, known] at indexedAt
          exact own (named.trans (Option.some.inj indexedAt))

theorem closed_results (indexed : state.Indexed) (calls : List (String × String × String))
    (distinct : (calls.map Prod.fst).Nodup) (seq : Int) :
    Closed now (calls.map Prod.fst) state
      (foldEvents state (interruptedResults now textId seq calls)) := by
  induction calls generalizing state seq with
  | nil => exact closed_of_content rfl (fun _ => id) fun _ message found => ⟨message, found, rfl⟩
  | cons call rest ih =>
      obtain ⟨fresh, restDistinct⟩ := List.nodup_cons.mp distinct
      have first := closed_one now textId indexed seq call
      have others := ih (indexed.applyEvent (interruptedResult now textId seq call)) restDistinct
        (seq + 1)
      apply first.trans others
      intro id here there
      rw [List.mem_singleton.mp here] at there
      exact fresh there

private theorem closed_end (state : FoldState) (seq : Int) (messageId : Option String)
    (turn : TurnStartData) :
    Closed now [] state (applyEvent state (crashedEnd now seq messageId turn)) :=
  closed_finishTurn now state _ _

theorem closed_repair {events turn : List Event} (opened : openTurnOf events = some turn) :
    Closed now (RepairScan.readAll events).openToolCalls.keys (foldEvents .empty events)
      (foldEvents .empty (repairLegacyEvents now textId events)) := by
  obtain ⟨data, _, repaired⟩ := repair_open now textId opened
  have results := closed_results now textId
    (FoldState.indexed_fold events FoldState.indexed_empty)
    (RepairScan.readAll events).openToolCalls.entries
    (RepairScan.readAll events).openToolCalls.distinct events.length
  have ended := results.trans (closed_end now _
    (events.length + (RepairScan.readAll events).openToolCalls.entries.length)
    (RepairScan.readAll events).assistantId data) (fun _ _ => List.not_mem_nil)
  rw [List.append_nil] at ended
  rw [repaired]
  unfold foldEvents at ended ⊢
  rw [List.foldl_append, List.foldl_append]
  exact ended

end

/-! ### The migration -/

/-- An event list of an old log: numbered from 0 on. -/
structure LegacyLog where
  events : List Event
  numbered : NumberedFrom 0 events

def NoneRunning (messages : MessageTable) : Prop :=
  ∀ message ∈ messages.items, ∀ result : ToolResultBlock,
    ContentBlock.toolResult result ∈ message.content → result.state ≠ .running

def Started (turn : List Event) (owner id : String) : Prop :=
  ∃ event ∈ turn, event.target = some owner ∧
    ∃ name arguments, event.data = .toolCallStart id name arguments

def CallsFinished (turn : List Event) (messages : MessageTable) : Prop :=
  ∀ owner id, Started turn owner id → ∀ message, messages.find? owner = some message →
    ∀ call : ToolCallBlock, ContentBlock.toolCall call ∈ message.content → call.id = id →
      call.state = .finished

/-- What an import promises of a log and its repaired form. -/
structure Migrated (now : Int) (textId : String → String) (events : List Event) : Prop where
  numbered : NumberedFrom 0 (repairLegacyEvents now textId events)
  extended : ∃ added, repairLegacyEvents now textId events = events ++ added ∧
    ∀ turn, openTurnOf events = some turn → ∀ id, unanswered id (turn ++ added) = false
  ended : turnsOf (repairLegacyEvents now textId events) = some false
  settled : ∀ later otherId, repairLegacyEvents later otherId
    (repairLegacyEvents now textId events) = repairLegacyEvents now textId events
  finished : ∀ turn, openTurnOf events = some turn →
    NoneRunning (deriveMessages (repairLegacyEvents now textId events)) ∧
      CallsFinished turn (deriveMessages (repairLegacyEvents now textId events))

def WaitsIn (events turn : List Event) (owner id : String) : Prop :=
  id ≠ "" ∧ unanswered id turn = true ∧
    (foldEvents .empty events).toolCalls.find? id = some owner

instance (events turn : List Event) (owner id : String) :
    Decidable (WaitsIn events turn owner id) :=
  inferInstanceAs (Decidable (_ ∧ _))

def unreached {α : Type} (waits : Prop) [Decidable waits] (blocks : List α) : List α :=
  if waits then blocks.tail else blocks

/-- No turn was started in another; and if the last one is open, it leaves no
call without an id unanswered, every result that still runs is the first one of
a call that waits in the turn, in the message that holds this call, and so is
every unfinished call of the turn. -/
structure Repairable (events : List Event) : Prop where
  apart : (turnsOf events).isSome
  named : ∀ turn, openTurnOf events = some turn → unanswered "" turn = false
  results : ∀ turn, openTurnOf events = some turn → ∀ owner message,
    (deriveMessages events).find? owner = some message → ∀ id,
      ∀ result ∈ unreached (WaitsIn events turn owner id) (resultsOf id message.content),
        result.state ≠ .running
  calls : ∀ turn, openTurnOf events = some turn → ∀ owner id, Started turn owner id →
    ∀ message, (deriveMessages events).find? owner = some message →
      ∀ call ∈ unreached (WaitsIn events turn owner id) (callsOf id message.content),
        call.state = .finished

section

variable {now : Int} {closed : String → Prop} {before after : Msg}

theorem Answered.results (answered : Answered now closed before after) (id : String)
    (waits : Prop) [Decidable waits] (same : closed id ↔ waits) :
    (∀ result ∈ resultsOf id after.content, result.state ≠ .running) ↔
      ∀ result ∈ unreached waits (resultsOf id before.content), result.state ≠ .running := by
  unfold unreached
  by_cases reached : waits
  · obtain ⟨⟨result, interrupted, results⟩, _⟩ := (answered id).1 (same.mpr reached)
    rw [if_pos reached, results]
    constructor
    · exact fun none held present => none held (List.mem_append_left _ present)
    · intro none held present
      rcases List.mem_append.mp present with old | new
      · exact none held old
      · rw [List.mem_singleton.mp new, interrupted]
        exact ToolResultState.noConfusion
  · obtain ⟨results, _⟩ := (answered id).2 fun here => reached (same.mp here)
    rw [if_neg reached, results]

theorem Answered.calls (answered : Answered now closed before after) (id : String)
    (waits : Prop) [Decidable waits] (same : closed id ↔ waits) :
    (∀ call ∈ callsOf id after.content, call.state = .finished) ↔
      ∀ call ∈ unreached waits (callsOf id before.content), call.state = .finished := by
  unfold unreached
  by_cases reached : waits
  · obtain ⟨_, calls⟩ := (answered id).1 (same.mpr reached)
    rw [if_pos reached, calls]
    cases callsOf id before.content with
    | nil => exact Iff.rfl
    | cons first rest =>
        rw [List.modifyHead_cons, List.tail_cons]
        constructor
        · exact fun all call present => all call (List.mem_cons_of_mem _ present)
        · intro all call present
          rcases List.mem_cons.mp present with own | other
          · rw [own]
            rfl
          · exact all call other
  · obtain ⟨_, calls⟩ := (answered id).2 fun here => reached (same.mp here)
    rw [if_neg reached, calls]

end

section

variable (now : Int) (textId : String → String) {events turn : List Event}

theorem answered_repair (opened : openTurnOf events = some turn) :
    (∀ owner, (deriveMessages events).find? owner = none →
      (deriveMessages (repairLegacyEvents now textId events)).find? owner = none) ∧
    ∀ owner message, (deriveMessages events).find? owner = some message →
      ∃ repaired,
        (deriveMessages (repairLegacyEvents now textId events)).find? owner = some repaired ∧
        Answered now (WaitsIn events turn owner) message repaired := by
  have closed := closed_repair now textId opened
  refine ⟨closed.absent, ?_⟩
  intro owner message found
  obtain ⟨repaired, held, answered⟩ := closed.answered owner message found
  have same : (fun id => id ∈ (RepairScan.readAll events).openToolCalls.keys ∧
      (foldEvents .empty events).toolCalls.find? id = some owner) = WaitsIn events turn owner := by
    funext id
    rw [(scan_agrees events).waiting turn opened id]
    exact propext and_assoc
  rw [same] at answered
  exact ⟨repaired, held, answered⟩

theorem noneRunning_iff (opened : openTurnOf events = some turn) :
    NoneRunning (deriveMessages (repairLegacyEvents now textId events)) ↔
      ∀ owner message, (deriveMessages events).find? owner = some message → ∀ id,
        ∀ result ∈ unreached (WaitsIn events turn owner id) (resultsOf id message.content),
          result.state ≠ .running := by
  obtain ⟨absent, answered⟩ := answered_repair now textId opened
  constructor
  · intro none owner message found id
    obtain ⟨repaired, held, answer⟩ := answered owner message found
    apply (answer.results id _ Iff.rfl).mp
    intro result present
    exact none repaired (KeyedList.find?_mem held).1 result (mem_resultsOf.mp present).1
  · intro left repaired present result shown
    have held := KeyedList.find?_of_mem present
    cases found : (deriveMessages events).find? repaired.id with
    | none =>
        rw [absent _ found] at held
        cases held
    | some message =>
        obtain ⟨other, same, answer⟩ := answered _ message found
        rw [held] at same
        cases same
        have all := (answer.results result.id _ Iff.rfl).mpr (left _ message found result.id)
        exact all result (mem_resultsOf.mpr ⟨shown, rfl⟩)

theorem callsFinished_iff (opened : openTurnOf events = some turn) :
    CallsFinished turn (deriveMessages (repairLegacyEvents now textId events)) ↔
      ∀ owner id, Started turn owner id → ∀ message,
        (deriveMessages events).find? owner = some message →
          ∀ call ∈ unreached (WaitsIn events turn owner id) (callsOf id message.content),
            call.state = .finished := by
  obtain ⟨absent, answered⟩ := answered_repair now textId opened
  constructor
  · intro finished owner id started message found
    obtain ⟨repaired, held, answer⟩ := answered owner message found
    apply (answer.calls id _ Iff.rfl).mp
    intro call present
    obtain ⟨shown, own⟩ := mem_callsOf.mp present
    exact finished owner id started repaired held call shown own
  · intro left owner id started repaired held call shown own
    cases found : (deriveMessages events).find? owner with
    | none =>
        rw [absent _ found] at held
        cases held
    | some message =>
        obtain ⟨other, same, answer⟩ := answered _ message found
        rw [held] at same
        cases same
        have all := (answer.calls id _ Iff.rfl).mpr (left owner id started message found)
        exact all call (mem_callsOf.mpr ⟨shown, own⟩)

end

theorem repair_numbered (now : Int) (textId : String → String) (log : LegacyLog) :
    NumberedFrom 0 (repairLegacyEvents now textId log.events) := by
  unfold repairLegacyEvents
  dsimp only
  split
  · exact log.numbered
  · rw [numberedFrom_append, Int.zero_add]
    exact ⟨log.numbered, closing_numbered now textId _ _⟩

/-- An import keeps its promises on exactly the repairable logs, and every
packed row is read back as it was. -/
theorem migrated_iff (now : Int) (textId : String → String) (log : LegacyLog) :
    (Migrated now textId log.events ∧
        ∀ run : ChunkRun, decodeLegacyRow run.pack = .ok run.records) ↔
      Repairable log.events := by
  constructor
  · rintro ⟨migrated, _⟩
    obtain ⟨added, repaired, answers⟩ := migrated.extended
    refine ⟨(repair_ended now textId log.events).mp migrated.ended, ?_, ?_, ?_⟩
    · intro turn opened
      exact (repair_answers now textId opened repaired).mp (answers turn opened)
    · intro turn opened
      exact (noneRunning_iff now textId opened).mp (migrated.finished turn opened).1
    · intro turn opened
      exact (callsFinished_iff now textId opened).mp (migrated.finished turn opened).2
  · intro repairable
    refine ⟨⟨repair_numbered now textId log, ?_, ?_, ?_, ?_⟩, ChunkRun.decode_pack⟩
    · cases opened : openTurnOf log.events with
      | none =>
          refine ⟨[], ?_, fun turn impossible => by cases impossible⟩
          rw [repair_closed now textId opened, List.append_nil]
      | some turn =>
          obtain ⟨data, _, repaired⟩ := repair_open now textId opened
          refine ⟨_, repaired, fun other same => ?_⟩
          cases same
          exact (repair_answers now textId opened repaired).mpr (repairable.named turn opened)
    · exact (repair_ended now textId log.events).mpr repairable.apart
    · exact fun later otherId => repair_idempotent now textId later otherId log.events
    · intro turn opened
      exact ⟨(noneRunning_iff now textId opened).mpr (repairable.results turn opened),
        (callsFinished_iff now textId opened).mpr (repairable.calls turn opened)⟩

/-- A turn asks for approval and pauses; the next one runs the approved call and
is cut off before its result. -/
def resumedTurn : LegacyLog where
  events := [
    ⟨0, 1000, some "ask", .userMessage [.object [("type", .str "text"), ("text", .str "list")]]
      .empty "r1"⟩,
    ⟨1, 1001, none, .turnStart ⟨"t1", "r1", "user", "", "main", "m"⟩⟩,
    ⟨2, 1002, some "msg", .toolCallStart "call" "bash" .empty⟩,
    ⟨3, 1003, some "msg", .toolResultStart "call" "bash"⟩,
    ⟨4, 1004, some "msg", .approvalAsked "call" "bash" .empty "" none⟩,
    ⟨5, 1005, some "msg", .assistantMessage (Msg.plain "msg" .assistant
      [.toolCall ⟨"call", "bash", .empty, .asking, "2026-09-05", none⟩] "2026-09-05")⟩,
    ⟨6, 1006, some "msg", .turnEnd ⟨"t1", "r1", "paused", "paused", none, none, 1, .empty⟩⟩,
    ⟨7, 2000, none, .turnStart ⟨"t2", "r1", "confirm", "", "main", "m"⟩⟩,
    ⟨8, 2001, some "msg", .toolResultStart "call" "bash"⟩]
  numbered := by simp [NumberedFrom]

/-- The import leaves the result of the resumed call running. -/
theorem resumed_call_keeps_running :
    ¬ Migrated 3000 (fun id => id ++ "_text") resumedTurn.events := by
  intro migrated
  have opened : openTurnOf resumedTurn.events =
      some [⟨8, 2001, some "msg", .toolResultStart "call" "bash"⟩] := rfl
  have none := (migrated.finished _ opened).1
  have running : ∃ message ∈ (deriveMessages
      (repairLegacyEvents 3000 (fun id => id ++ "_text") resumedTurn.events)).items,
        ∃ block ∈ message.content,
          block.asToolResult?.map ToolResultBlock.state = some .running := by
    decide
  obtain ⟨message, present, block, shown, runs⟩ := running
  obtain ⟨result, read, state⟩ := Option.map_eq_some_iff.mp runs
  cases block with
  | toolResult held =>
      have same : held = result := Option.some.inj read
      subst same
      exact none message present held shown state
  | _ => cases read

end Ftre.Session
