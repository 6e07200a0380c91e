import Mathlib.Data.List.Induction
import Ftre.Session.RequestIndex

/-!
The status of a request over runs of the service.
-/

namespace Ftre.Session

open Lib Message

def RequestStatus.isTerminal : RequestStatus → Bool
  | .completed => true
  | .failed => true
  | .pending => false
  | .running => false

def isTerminalOutcome (outcome : String) : Bool :=
  decide (outcome = "completed" ∨ outcome = "error" ∨ outcome = "cancelled")

/-! ### The status of a record -/

def isTurnOf (requestId : String) (event : Event) : Bool :=
  decide (event.data.requestId = requestId) &&
    match event.data with
    | .turnStart _ => true
    | .turnEnd _ => true
    | _ => false

def turnStatus (event : Event) : RequestStatus :=
  match event.data with
  | .turnEnd data => if data.outcome = "completed" then .completed else .failed
  | _ => .running

namespace Checkpoint

def status (checkpoint : Checkpoint) (requestId : String) : Option RequestStatus :=
  if requestId = "" then none
  else
    match checkpoint.events.reverse.find? (isTurnOf requestId) with
    | some turn => some (turnStatus turn)
    | none =>
        if (checkpoint.firstEvent requestId).isSome ∨ (checkpoint.firstMessage requestId).isSome then
          some .pending
        else none

end Checkpoint

private theorem eventRecord_status {requestId : String} (named : requestId ≠ "")
    (record : Option RequestRecord) (event : Event) :
    (eventRecord requestId record event).map RequestRecord.status =
      if isTurnOf requestId event then some (some (turnStatus event))
      else if event.data.requestId = requestId then
        some ((record.map RequestRecord.status).getD (some .pending))
      else record.map RequestRecord.status := by
  unfold eventRecord isTurnOf turnStatus
  by_cases same : event.data.requestId = requestId
  · rw [if_pos same, if_pos same]
    cases data : event.data with
    | userMessage content metadata bound =>
        cases record <;> simp
    | turnStart turn =>
        have equal : turn.requestId = requestId := by rw [data] at same; exact same
        simp [EventData.requestId, equal]
    | turnEnd turn =>
        have equal : turn.requestId = requestId := by rw [data] at same; exact same
        simp [EventData.requestId, equal]
    | _ =>
        rw [data] at same
        exact absurd same.symm named
  · rw [if_neg same, if_neg same]
    simp [same]

theorem foldl_eventRecord_status {requestId : String} (named : requestId ≠ "")
    (events : List Event) :
    (events.foldl (eventRecord requestId) none).map RequestRecord.status =
      match events.reverse.find? (isTurnOf requestId) with
      | some turn => some (some (turnStatus turn))
      | none =>
          if (events.find? fun event => decide (event.data.requestId = requestId)).isSome then
            some (some .pending)
          else none := by
  induction events using List.reverseRecOn with
  | nil => rfl
  | append_singleton earlier event ih =>
      rw [List.foldl_append, List.foldl_cons, List.foldl_nil, eventRecord_status named, ih,
        List.reverse_append, List.reverse_singleton, List.singleton_append, List.find?_cons,
        List.find?_append]
      cases turn : isTurnOf requestId event with
      | true => rfl
      | false =>
          simp only [Bool.false_eq_true, if_false]
          by_cases same : event.data.requestId = requestId
          · rw [if_pos same]
            cases earlier.reverse.find? (isTurnOf requestId) with
            | some last => rfl
            | none =>
                simp [same]
                split <;> rfl
          · rw [if_neg same]
            simp [same]

private theorem foldl_messageRecord_status (requestId : String) (messages : List Msg)
    (record : Option RequestRecord) :
    (messages.foldl (messageRecord requestId) record).map RequestRecord.status =
      match record with
      | some known => some known.status
      | none =>
          if (messages.find? fun message => decide (requestOf message = requestId)).isSome then
            some (some .pending)
          else none := by
  induction messages generalizing record with
  | nil => cases record <;> rfl
  | cons message rest ih =>
      rw [List.foldl_cons, ih]
      unfold messageRecord
      by_cases same : requestOf message = requestId
      · cases record <;> simp [same]
      · cases record <;> simp [same]

private theorem find?_requests_blank (checkpoint : Checkpoint) :
    checkpoint.requests.find? "" = none := by
  have indexed : ∀ (events : List Event) (index : RequestIndex), index.find? "" = none →
      (events.foldl indexEvent index).find? "" = none := by
    intro events
    induction events with
    | nil => intro index absent; exact absent
    | cons event rest ih =>
        intro index absent
        rw [List.foldl_cons]
        apply ih
        unfold indexEvent
        cases event.data with
        | userMessage content metadata requestId =>
            dsimp only
            split
            · exact absent
            · rw [KeyedTable.find?_setDefault, if_neg ‹_›, absent]
        | turnStart turn =>
            dsimp only
            split
            · exact absent
            · rw [KeyedTable.find?_set, if_neg ‹_›, absent]
        | turnEnd turn =>
            dsimp only
            split
            · exact absent
            · rw [KeyedTable.find?_set, if_neg ‹_›, absent]
        | _ => exact absent
  have written : ∀ (messages : List Msg) (index : RequestIndex), index.find? "" = none →
      (messages.foldl indexMessage index).find? "" = none := by
    intro messages
    induction messages with
    | nil => intro index absent; exact absent
    | cons message rest ih =>
        intro index absent
        rw [List.foldl_cons]
        apply ih
        unfold indexMessage
        split
        · exact absent
        · rw [KeyedTable.find?_set, if_neg ‹_›, absent]
  exact written _ _ (indexed _ _ rfl)

theorem Checkpoint.status_requests (checkpoint : Checkpoint) (requestId : String) :
    (checkpoint.requests.find? requestId).map RequestRecord.status =
      (checkpoint.status requestId).map some := by
  unfold status
  by_cases blank : requestId = ""
  · subst blank
    rw [find?_requests_blank, if_pos rfl]
    rfl
  rw [if_neg blank, find?_requests blank, foldl_messageRecord_status]
  have folded := foldl_eventRecord_status blank checkpoint.events
  unfold firstEvent firstMessage
  cases last : checkpoint.events.reverse.find? (isTurnOf requestId) with
  | some turn =>
      rw [last] at folded
      obtain ⟨record, found, same⟩ := Option.map_eq_some_iff.mp folded
      rw [found]
      simp [same]
  | none =>
      rw [last] at folded
      dsimp only at folded ⊢
      by_cases seen : (checkpoint.events.find? fun event =>
          decide (event.data.requestId = requestId)).isSome
      · rw [if_pos seen] at folded
        obtain ⟨record, found, same⟩ := Option.map_eq_some_iff.mp folded
        rw [found, if_pos (Or.inl seen)]
        simp [same]
      · rw [if_neg seen] at folded
        rw [Option.map_eq_none_iff.mp folded]
        simp only [seen, Bool.false_eq_true, false_or]
        split <;> rfl

namespace ServiceState

def storedStatus (state : ServiceState) (requestId : String) : Option RequestStatus :=
  (state.stored.requests.find? requestId).bind RequestRecord.status

def endedInLog (state : ServiceState) (requestId : String) : Bool :=
  (state.liveSession.log.requestState requestId).isSome

/-- `request_state` reports a terminal status. -/
def reportsTerminal (state : ServiceState) (requestId : String) : Bool :=
  (state.requestState requestId).any RequestStatus.isTerminal

theorem reportsTerminal_eq (state : ServiceState) (requestId : String) :
    state.reportsTerminal requestId =
      match state.storedStatus requestId with
      | some .completed => true
      | some .failed => true
      | some .running => false
      | _ => state.endedInLog requestId := by
  unfold reportsTerminal requestState storedStatus endedInLog
  cases (state.stored.requests.find? requestId).bind RequestRecord.status with
  | none =>
      cases state.liveSession.log.requestState requestId with
      | none => rfl
      | some ended => cases ended <;> rfl
  | some status =>
      cases status with
      | pending =>
          cases state.liveSession.log.requestState requestId with
          | none => rfl
          | some ended => cases ended <;> rfl
      | running => rfl
      | completed => rfl
      | failed => rfl

theorem not_executes_of_reportsTerminal {state : ServiceState} {requestId : String}
    (named : requestId ≠ "") (terminal : state.reportsTerminal requestId = true) :
    state.executes requestId = false := by
  unfold executes reportsTerminal at *
  cases reported : state.requestState requestId with
  | none => rw [reported] at terminal; cases terminal
  | some status => simp [named]

def keepsTerminal (requestId : String) (state : ServiceState) : Action → Bool
  | .append _ (.turnEnd data) _ =>
      decide (data.requestId ≠ requestId) || isTerminalOutcome data.outcome ||
        (state.storedStatus requestId).any RequestStatus.isTerminal
  | .commit => state.checkpoint.all fun checkpoint =>
      decide (state.stored.seq > checkpoint.seq) ||
        match checkpoint.status requestId with
        | none => true
        | some .running => false
        | some .pending => state.endedInLog requestId
        | some _ => true
  | .restart => (state.storedStatus requestId).any RequestStatus.isTerminal
  | _ => true

def KeepsTerminal (requestId : String) (state : ServiceState) (action : Action) : Prop :=
  keepsTerminal requestId state action = true

instance (requestId : String) (state : ServiceState) (action : Action) :
    Decidable (KeepsTerminal requestId state action) := instDecidableEqBool _ _

/-! ### Steps -/

private theorem requestState_isSome (log : SessionLog) (requestId : String) :
    (log.requestState requestId).isSome =
      (decide (requestId ≠ "") && (log.turnOutcomes.find? requestId).any isTerminalOutcome) := by
  unfold SessionLog.requestState
  by_cases blank : requestId = ""
  · simp [blank]
  rw [if_neg blank, decide_eq_true blank, Bool.true_and]
  cases log.turnOutcomes.find? requestId with
  | none => rfl
  | some outcome =>
      rw [Option.any_some]
      unfold isTerminalOutcome
      split <;> simp_all

private theorem requestState_push_turnEnd (log : SessionLog) (event : Event) {turn : TurnEndData}
    (data : event.data = .turnEnd turn) (requestId : String) :
    ((log.push event).requestState requestId).isSome =
      if requestId ≠ "" ∧ turn.requestId = requestId then isTerminalOutcome turn.outcome
      else (log.requestState requestId).isSome := by
  rw [requestState_isSome, requestState_isSome]
  unfold SessionLog.push
  rw [data]
  dsimp only
  by_cases blank : requestId = ""
  · simp [blank]
  by_cases unnamed : turn.requestId = ""
  · have different : ¬ turn.requestId = requestId := by
      intro same
      exact blank (same.symm.trans unnamed)
    rw [if_pos unnamed, if_neg (fun both => different (And.right both))]
  · rw [if_neg unnamed]
    dsimp only
    rw [KeyedTable.find?_set]
    by_cases same : turn.requestId = requestId
    · rw [if_pos same, if_pos ⟨blank, same⟩, decide_eq_true blank]
      rfl
    · rw [if_neg same, if_neg (fun both => same (And.right both))]

private theorem requestState_push_other (log : SessionLog) (event : Event)
    (other : ∀ turn, event.data ≠ .turnEnd turn) (requestId : String) :
    (log.push event).requestState requestId = log.requestState requestId := by
  unfold SessionLog.push
  cases data : event.data with
  | turnEnd turn => exact absurd data (other turn)
  | userMessage content metadata bound =>
      dsimp only
      split <;> rfl
  | _ => rfl

private theorem reportsTerminal_withLog (state : ServiceState) (log : SessionLog)
    (requestId : String)
    (same : (log.requestState requestId).isSome = state.endedInLog requestId) :
    (state.withLog log).reportsTerminal requestId = state.reportsTerminal requestId := by
  rw [reportsTerminal_eq, reportsTerminal_eq, ← same]
  rfl

private theorem storedStatus_commit (state : ServiceState) (checkpoint : Checkpoint)
    (requestId : String) (current : ¬ state.stored.seq > checkpoint.seq) :
    ({ state with stored := checkpoint.commit state.stored, checkpoint := none }).storedStatus
        requestId =
      (checkpoint.status requestId).or (state.storedStatus requestId) := by
  unfold storedStatus
  rw [Checkpoint.find?_commit, if_neg current]
  have statuses := checkpoint.status_requests requestId
  cases found : checkpoint.requests.find? requestId with
  | none =>
      rw [found] at statuses
      rw [Option.map_eq_none_iff.mp statuses.symm]
      rfl
  | some record =>
      rw [found] at statuses
      obtain ⟨status, known, same⟩ := Option.map_eq_some_iff.mp statuses.symm
      rw [known, Option.some_or, Option.bind_some, ← same, Option.some_or]

private theorem endedInLog_start (sessionId requestId : String) (startSeq : Int) :
    ((SessionLog.start sessionId startSeq).requestState requestId).isSome = false := by
  rw [requestState_isSome]
  exact Bool.and_false _

private theorem reportsTerminal_restart (state : ServiceState) (requestId : String) :
    (opened state.sessionId state.stored).reportsTerminal requestId =
      (state.storedStatus requestId).any RequestStatus.isTerminal := by
  have silent : (opened state.sessionId state.stored).endedInLog requestId = false :=
    endedInLog_start ..
  rw [reportsTerminal_eq, silent]
  change (match state.storedStatus requestId with
    | some .completed => true
    | some .failed => true
    | some .running => false
    | _ => false) = _
  cases state.storedStatus requestId with
  | none => rfl
  | some status => cases status <;> rfl

private theorem append_step_iff {before : ServiceState} {requestId : String} {time : Int}
    {data : EventData} {messageId : Option String}
    (terminal : before.reportsTerminal requestId = true) :
    (before.appendEvent time data messageId).reportsTerminal requestId = true ↔
      KeepsTerminal requestId before (.append time data messageId) := by
  rcases appendEvent_cases before time data messageId with
    ⟨refused, loaded⟩ | ⟨event, same, _, pushed⟩
  · rw [loaded]
    refine iff_of_true terminal ?_
    cases data with
    | turnEnd turn => cases refused
    | _ => rfl
  · rw [pushed]
    subst same
    cases data : event.data with
    | turnEnd turn =>
        unfold KeepsTerminal keepsTerminal
        have ended := requestState_push_turnEnd before.liveSession.log event data requestId
        change (before.withLog (before.liveSession.log.push event)).endedInLog requestId =
          if requestId ≠ "" ∧ turn.requestId = requestId then isTerminalOutcome turn.outcome
          else before.endedInLog requestId at ended
        rw [reportsTerminal_eq, ended]
        rw [reportsTerminal_eq] at terminal
        change (match before.storedStatus requestId with
          | some .completed => true
          | some .failed => true
          | some .running => false
          | _ => _) = true ↔ _
        have unstored : before.endedInLog requestId = true →
            ((if requestId ≠ "" ∧ turn.requestId = requestId then isTerminalOutcome turn.outcome
              else before.endedInLog requestId) = true ↔
            (decide (turn.requestId ≠ requestId) || isTerminalOutcome turn.outcome || false) =
              true) := by
          intro inLog
          have named : requestId ≠ "" := by
            intro blank
            unfold endedInLog at inLog
            rw [requestState_isSome, blank] at inLog
            cases inLog
          by_cases own : turn.requestId = requestId
          · simp [own, named]
          · simp [own, inLog]
        cases stored : before.storedStatus requestId with
        | none =>
            rw [stored] at terminal
            exact unstored terminal
        | some status =>
            rw [stored] at terminal
            cases status with
            | pending => exact unstored terminal
            | running => cases terminal
            | completed => simp [RequestStatus.isTerminal]
            | failed => simp [RequestStatus.isTerminal]
    | _ =>
        refine iff_of_true ?_ rfl
        rw [reportsTerminal_withLog]
        · exact terminal
        · rw [requestState_push_other]
          · rfl
          · intro turn ended
            rw [data] at ended
            cases ended

private theorem endedInLog_commit (state : ServiceState) (checkpoint : Checkpoint)
    (requestId : String) :
    ({ state with stored := checkpoint.commit state.stored, checkpoint := none }).endedInLog
        requestId = state.endedInLog requestId := by
  unfold endedInLog liveSession
  cases state.live with
  | some live => rfl
  | none => exact (endedInLog_start ..).trans (endedInLog_start ..).symm

private theorem commit_step_iff {before : ServiceState} {requestId : String}
    {checkpoint : Checkpoint} (terminal : before.reportsTerminal requestId = true)
    (captured : before.checkpoint = some checkpoint) :
    ({ before with stored := checkpoint.commit before.stored, checkpoint := none }).reportsTerminal
        requestId = true ↔
      KeepsTerminal requestId before .commit := by
  unfold KeepsTerminal keepsTerminal
  rw [captured, Option.all_some]
  by_cases stale : before.stored.seq > checkpoint.seq
  · rw [decide_eq_true stale, Bool.true_or]
    refine iff_of_true ?_ rfl
    have unchanged : checkpoint.commit before.stored = before.stored := if_pos stale
    rw [unchanged]
    exact terminal
  · rw [decide_eq_false stale, Bool.false_or, reportsTerminal_eq,
      storedStatus_commit before checkpoint requestId stale, endedInLog_commit]
    rw [reportsTerminal_eq] at terminal
    cases checkpoint.status requestId with
    | none => exact iff_of_true terminal rfl
    | some status => cases status <;> exact Iff.rfl

theorem reportsTerminal_step_iff (requestId : String) (before : ServiceState) (action : Action)
    (after : ServiceState) (terminal : before.reportsTerminal requestId = true)
    (stepped : system.step before action = some after) :
    after.reportsTerminal requestId = true ↔ KeepsTerminal requestId before action := by
  cases action with
  | load =>
      cases stepped
      exact iff_of_true terminal rfl
  | append time data messageId =>
      cases stepped
      exact append_step_iff terminal
  | appendUser time generated other content metadata =>
      cases stepped
      refine iff_of_true ?_ rfl
      rcases appendUser_cases before time generated other content metadata with
        unchanged | loaded | ⟨event, data, _, pushed⟩
      · rw [unchanged]
        exact terminal
      · rw [loaded]
        exact terminal
      · have other : ∀ turn, event.data ≠ .turnEnd turn := by
          intro turn ended
          rw [data] at ended
          cases ended
        rw [pushed, reportsTerminal_withLog]
        · exact terminal
        · rw [requestState_push_other _ _ other]
          rfl
  | capture =>
      obtain ⟨live, _, _, captured⟩ := step_capture stepped
      subst captured
      exact iff_of_true terminal rfl
  | commit =>
      obtain ⟨checkpoint, captured, committed⟩ := Option.map_eq_some_iff.mp stepped
      subst committed
      exact commit_step_iff terminal captured
  | checkpointFails =>
      obtain ⟨checkpoint, _, dropped⟩ := Option.map_eq_some_iff.mp stepped
      subst dropped
      exact iff_of_true terminal rfl
  | restart =>
      cases stepped
      rw [reportsTerminal_restart]
      rfl

/-- After a terminal status was reported, a run reports it throughout, and
never executes the request again, exactly when each of its steps keeps it. -/
theorem request_state_stays_terminal_iff (requestId : String) (state : ServiceState)
    (reported : state.reportsTerminal requestId = true) (actions : List Action) :
    system.Always (fun reached => reached.reportsTerminal requestId = true ∧
        (requestId ≠ "" → reached.executes requestId = false)) state actions ↔
      system.EachStep (KeepsTerminal requestId) state actions := by
  apply StepSystem.always_iff_eachStep
  · intro before action after terminal stepped
    rw [← reportsTerminal_step_iff requestId before action after terminal.1 stepped]
    constructor
    · intro kept
      exact kept.1
    · intro kept
      exact ⟨kept, fun named => not_executes_of_reportsTerminal named kept⟩
  · exact ⟨reported, fun named => not_executes_of_reportsTerminal named reported⟩

def completedTurn : List Action :=
  [.appendUser 1000 "" "request-1" [.object [("type", .str "text"), ("text", .str "hello")]]
      (KeyedTable.empty.set "request_id" (.str "request-1")),
    .append 2000 (.turnStart ⟨"turn-1", "request-1", "user", "", "default", ""⟩) (some "turn-1"),
    .append 3000 (.turnEnd ⟨"turn-1", "request-1", "completed", "completed", none, none, 1, .empty⟩)
      (some "turn-1")]

/-- The checkpoint after a restart stores the completed request as pending,
and the request is executed again. -/
theorem completed_request_executes_again :
    ((system.run (created "session-1") (completedTurn ++ [.capture, .commit])).map fun state =>
        state.requestState "request-1") = some (some .completed) ∧
      ((system.run (created "session-1") (completedTurn ++
          [.capture, .commit, .restart, .load, .capture, .commit])).map fun state =>
        (state.requestState "request-1", state.executes "request-1")) = some (none, true) := by
  decide

def completedSession : ServiceState :=
  ((system.run (created "session-1") (completedTurn ++ [.capture, .commit])).getD
    (created "session-1"))

/-- A restart right after the checkpoint keeps the status. -/
theorem completed_request_stays_completed :
    system.Always (fun reached => reached.reportsTerminal "request-1" = true ∧
        ("request-1" ≠ "" → reached.executes "request-1" = false))
      completedSession [.restart, .load] := by
  have reported : completedSession.reportsTerminal "request-1" = true := by
    decide
  rw [request_state_stays_terminal_iff "request-1" completedSession reported]
  rintro _ ⟨⟩
  refine ⟨by decide, ?_⟩
  rintro _ ⟨⟩
  exact ⟨by decide, trivial⟩

end ServiceState

end Ftre.Session
