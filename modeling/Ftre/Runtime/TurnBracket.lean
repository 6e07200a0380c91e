import Ftre.Runtime.TurnExecution

/-!
The bracket of a turn: one turn/start, one turn/end after it, and a result with the status that
the end states.
-/

namespace Ftre.Runtime

open Lib Message Session

namespace Execution

open Throwing

def boundaries (log : List Appended) : List EventData :=
  (log.map Appended.data).filter isBoundary

def statedStatus (outcome : String) : Option PublicStatus :=
  if outcome = "completed" ∨ outcome = "paused" then some .completed
  else if outcome = "cancelled" then some .cancelled
  else if outcome = "error" then some .failed
  else none

/-- One start, one end after it with the same turn id, and every result that
`run_input` returns has the status the end states. -/
def Bracketed (input : TurnInput) (behaviour : Behaviour) (message : String) : Prop :=
  ∃ start finish, boundaries (runInput input behaviour message fresh).2.log =
      [.turnStart start, .turnEnd finish] ∧ start.turnId = finish.turnId ∧
    ∀ result, (runInput input behaviour message fresh).1 = .ok result →
      statedStatus finish.outcome = some result.status

def finalsEnding (seen : List String) : List (AgentEvent × Signal) → Signal
  | [] => .returns
  | (event, signal) :: rest =>
      match idOf event with
      | some id =>
          if id ∈ seen then finalsEnding seen rest
          else
            match signal with
            | .returns => finalsEnding (id :: seen) rest
            | .raises => .raises
            | .cancelled => .cancelled
      | none =>
          match signal with
          | .returns => finalsEnding seen rest
          | .raises => .raises
          | .cancelled => .cancelled

def finalsCancelled (behaviour : Behaviour) : Bool :=
  behaviour.built.agent.isSome && !behaviour.finals.buildRaises &&
    decide (finalsEnding [] behaviour.finals.events = .cancelled)

/-- What comes between the end of the turn and the result of `run_input`. -/
def interruption (input : TurnInput) (behaviour : Behaviour) : Signal :=
  if behaviour.flush = .cancelled ∨ behaviour.interrupted = true then .cancelled
  else if input.requestId = "" then .returns
  else behaviour.complete

/-- A handler of `run_input` gets its result out. -/
def answers (input : TurnInput) (behaviour : Behaviour) : Bool :=
  (decide (input.requestId = "") || decide (behaviour.completeLate = .returns)) &&
    decide (behaviour.afterRun ≠ .cancelled)

def worked (input : TurnInput) (behaviour : Behaviour) : Execution :=
  (finishWork input behaviour (appendTurnStarted input behaviour fresh).2).2

/-- The start and the end are appended, and nothing comes behind the end that
states another status than the turn's. -/
structure Undisturbed (input : TurnInput) (behaviour : Behaviour) : Prop where
  resolves : behaviour.resolve = .returns
  starts : behaviour.start = .returns
  finals : finalsCancelled behaviour = false
  ends : behaviour.turnEnd = .returns
  reports : interruption input behaviour = .returns ∨ answers input behaviour = false ∨
    (interruption input behaviour = .cancelled ∧
      (worked input behaviour).outcome.1 = .cancelled) ∨
    (interruption input behaviour = .raises ∧ (worked input behaviour).outcome.1 = .error)

/-! ### Inside the bracket -/

theorem boundaries_append (log : List Appended) (entry : Appended) :
    boundaries (log ++ [entry]) =
      boundaries log ++ if isBoundary entry.data then [entry.data] else [] := by
  unfold boundaries
  rw [List.map_append, List.filter_append]
  congr 1
  change [entry.data].filter isBoundary = _
  cases inside : isBoundary entry.data with
  | false => exact List.filter_cons_of_neg (by rw [inside]; exact Bool.false_ne_true)
  | true => exact List.filter_cons_of_pos inside

structure Worked (before after : Execution) : Prop where
  boundaries : boundaries after.log = boundaries before.log
  emitted : after.emittedIds = before.emittedIds
  agent : before.agent.isSome → after.agent.isSome

theorem Worked.refl (execution : Execution) : Worked execution execution := ⟨rfl, rfl, id⟩

theorem Worked.trans (first second third : Execution) (left : Worked first second)
    (right : Worked second third) : Worked first third where
  boundaries := right.boundaries.trans left.boundaries
  emitted := right.emitted.trans left.emitted
  agent := right.agent ∘ left.agent

structure Inside (before after : Execution) : Prop extends Worked before after where
  paused : after.paused = before.paused

theorem Inside.refl (execution : Execution) : Inside execution execution :=
  ⟨Worked.refl execution, rfl⟩

theorem Inside.trans (first second third : Execution) (left : Inside first second)
    (right : Inside second third) : Inside first third where
  toWorked := Worked.trans _ _ _ left.toWorked right.toWorked
  paused := right.paused.trans left.paused

theorem Inside.worked {α : Type} {body : Course α} (kept : Keeps Inside body) : Keeps Worked body :=
  kept.mono fun _ _ => Inside.toWorked

theorem await_state (signal : Signal) (execution : Execution) :
    (await signal execution).2 = execution := by
  cases signal <;> rfl

theorem inside_await (signal : Signal) : Keeps Inside (await signal) := by
  intro execution
  rw [await_state]
  exact Inside.refl execution

theorem Inside.absorbing {body : Course Unit} (kept : Keeps Inside body) :
    Keeps Inside (absorbing body) := by
  apply Keeps.catching Inside.trans kept
  intro thrown
  cases thrown with
  | error => exact keeps_pure Inside.refl ()
  | cancelled => exact keeps_throws Inside.refl Thrown.cancelled

theorem inside_append {entry : Appended} (inner : isBoundary entry.data = false)
    (signal : Signal) : Keeps Inside (append entry signal) := by
  apply Keeps.bind Inside.trans (inside_await signal)
  intro _
  apply keeps_change
  intro execution
  refine ⟨⟨?_, rfl, id⟩, rfl⟩
  rw [boundaries_append, inner]
  exact List.append_nil _

theorem inside_appendEvent (event : AgentEvent) (signal : Signal) :
    Keeps Inside (appendEvent event signal) := by
  apply Keeps.bind Inside.trans
  · exact keeps_change fun _ => ⟨⟨rfl, rfl, id⟩, rfl⟩
  · intro _
    exact inside_append event.inner signal

theorem inside_recovery (input : TurnInput) (recovery : Recovery) :
    Keeps Inside (requestErrorRecovery input recovery) := by
  unfold requestErrorRecovery
  split
  · exact keeps_pure Inside.refl false
  · exact keeps_throws Inside.refl _
  · exact keeps_pure Inside.refl false
  · apply Keeps.bind Inside.trans (keeps_look Inside.refl)
    intro execution
    split
    · exact keeps_pure Inside.refl false
    · split
      · exact keeps_pure Inside.refl false
      · split
        · exact keeps_pure Inside.refl false
        · apply Keeps.bind Inside.trans
          · exact keeps_change fun _ => ⟨⟨rfl, rfl, id⟩, rfl⟩
          · intro _
            apply Keeps.bind Inside.trans (Inside.absorbing (inside_await recovery.refresh))
            intro _
            apply Keeps.bind Inside.trans
            · exact inside_append rfl recovery.retry
            · intro _
              exact keeps_pure Inside.refl true

theorem inside_afterRecovery (input : TurnInput) (recovery : Recovery) (otherwise : TurnStatus) :
    Keeps Inside (do
      if ← requestErrorRecovery input recovery then return TurnStatus.running
      return otherwise) := by
  apply Keeps.bind Inside.trans (inside_recovery input recovery)
  intro accepted
  cases accepted with
  | false => exact keeps_pure Inside.refl otherwise
  | true => exact keeps_pure Inside.refl TurnStatus.running

theorem worked_settleAttempt (input : TurnInput) (attempt : Attempt) :
    Keeps Worked (settleAttempt input attempt) := by
  unfold settleAttempt
  split
  · apply Keeps.bind Worked.trans
    · exact keeps_change fun _ => ⟨rfl, rfl, id⟩
    · intro _
      exact keeps_pure Worked.refl TurnStatus.finalizing
  · split
    · exact Inside.worked (inside_afterRecovery input attempt.recovery .finalizing)
    · exact keeps_pure Worked.refl TurnStatus.finalizing

theorem inside_events (attempt : Attempt) :
    Keeps Inside (forEach attempt.events fun (event, signal) => appendEvent event signal) :=
  Keeps.forEach Inside.refl Inside.trans (fun item => inside_appendEvent item.1 item.2)
    attempt.events

theorem worked_consume (input : TurnInput) (attempt : Attempt) :
    Keeps Worked (consume input attempt) := by
  apply Keeps.bind Worked.trans (Inside.worked (inside_events attempt))
  intro _
  apply Keeps.bind Worked.trans (Inside.worked (inside_await attempt.ending))
  intro _
  exact worked_settleAttempt input attempt

theorem worked_runAttempt (input : TurnInput) (attempt : Attempt) :
    Keeps Worked (runAttempt input attempt) := by
  apply Keeps.bind Worked.trans
  · exact keeps_change fun _ => ⟨rfl, rfl, fun _ => rfl⟩
  · intro _
    apply Keeps.catching Worked.trans
    · exact worked_consume input attempt
    · intro thrown
      cases thrown with
      | cancelled => exact keeps_pure Worked.refl TurnStatus.cancelled
      | error =>
          exact Inside.worked (inside_afterRecovery input attempt.rescue .error)

theorem worked_setStatus (status : TurnStatus) : Keeps Worked (setStatus status) :=
  keeps_change fun _ => ⟨rfl, rfl, id⟩

theorem worked_runAttempts (input : TurnInput) (attempts : List Attempt) :
    Keeps Worked (runAttempts input attempts) := by
  induction attempts with
  | nil => exact keeps_throws Worked.refl Thrown.cancelled
  | cons attempt rest ih =>
      apply Keeps.bind Worked.trans (worked_runAttempt input attempt)
      intro status
      apply Keeps.bind Worked.trans (worked_setStatus status)
      intro _
      cases status with
      | running => exact ih
      | finalizing => exact worked_setStatus .completed
      | building => exact keeps_pure Worked.refl ()
      | completed => exact keeps_pure Worked.refl ()
      | cancelled => exact keeps_pure Worked.refl ()
      | error => exact keeps_pure Worked.refl ()

theorem yields_afterRecovery {property : TurnStatus → Prop} (input : TurnInput)
    (recovery : Recovery) {otherwise : TurnStatus} (running : property .running)
    (left : property otherwise) :
    Yields property (do
      if ← requestErrorRecovery input recovery then return TurnStatus.running
      return otherwise) := by
  apply Yields.bind
  intro accepted
  cases accepted with
  | false => exact yields_pure left
  | true => exact yields_pure running

def LeftByAttempt (status : TurnStatus) : Prop := status ≠ .building ∧ status ≠ .completed

theorem left_running : LeftByAttempt .running := ⟨nofun, nofun⟩

theorem left_finalizing : LeftByAttempt .finalizing := ⟨nofun, nofun⟩

theorem left_cancelled : LeftByAttempt .cancelled := ⟨nofun, nofun⟩

theorem left_error : LeftByAttempt .error := ⟨nofun, nofun⟩

theorem runAttempt_leaves (input : TurnInput) (attempt : Attempt) :
    Yields LeftByAttempt (runAttempt input attempt) := by
  apply Yields.bind
  intro _
  apply Yields.catching
  · apply Yields.bind
    intro _
    apply Yields.bind
    intro _
    unfold settleAttempt
    split
    · apply Yields.bind
      intro _
      exact yields_pure left_finalizing
    · split
      · exact yields_afterRecovery input attempt.recovery left_running left_finalizing
      · exact yields_pure left_finalizing
  · intro thrown
    cases thrown with
    | cancelled => exact yields_pure left_cancelled
    | error => exact yields_afterRecovery input attempt.rescue left_running left_error

theorem runAttempts_terminal (input : TurnInput) (attempts : List Attempt)
    {execution after : Execution} (ended : runAttempts input attempts execution = (.ok (), after)) :
    (publicRunStatus after.status).isSome := by
  induction attempts generalizing execution with
  | nil => cases ended
  | cons attempt rest ih =>
      rcases ran : runAttempt input attempt execution with ⟨thrown | status, between⟩
      · rw [runAttempts, bind_of_error ran] at ended
        cases ended
      · rw [runAttempts, bind_of_ok ran] at ended
        have left := runAttempt_leaves input attempt ran
        cases status with
        | running => exact ih ended
        | finalizing =>
            cases ended
            rfl
        | building => exact absurd rfl left.1
        | completed => exact absurd rfl left.2
        | cancelled =>
            cases ended
            rfl
        | error =>
            cases ended
            rfl

/-! ### Pausing -/

variable {execution : Execution} {input : TurnInput} {behaviour : Behaviour}

theorem settleAttempt_paused (input : TurnInput) (attempt : Attempt)
    (running : execution.paused = false)
    (paused : (settleAttempt input attempt execution).2.paused = true) :
    (settleAttempt input attempt execution).1 = .ok .finalizing := by
  unfold settleAttempt at paused ⊢
  split
  · rfl
  · rename_i unpaused
    rw [if_neg unpaused] at paused
    split at paused
    · rw [(inside_afterRecovery input attempt.recovery .finalizing execution).paused, running]
        at paused
      cases paused
    · rw [(keeps_pure Inside.refl TurnStatus.finalizing execution).paused, running] at paused
      cases paused

theorem consume_paused (input : TurnInput) (attempt : Attempt) (running : execution.paused = false)
    (paused : (consume input attempt execution).2.paused = true) :
    (consume input attempt execution).1 = .ok .finalizing := by
  have appended := inside_events attempt execution
  unfold consume at paused ⊢
  rcases yielded : forEach attempt.events (fun item => appendEvent item.1 item.2) execution with
    ⟨thrown | done, after⟩
  · rw [yielded] at appended
    rw [bind_of_error yielded, appended.paused, running] at paused
    cases paused
  · rw [yielded] at appended
    rw [bind_of_ok yielded] at paused ⊢
    have unpaused : after.paused = false := appended.paused.trans running
    cases ended : attempt.ending with
    | returns =>
        rw [ended] at paused
        exact settleAttempt_paused input attempt unpaused paused
    | raises =>
        rw [ended] at paused
        exact absurd (unpaused.symm.trans paused) Bool.false_ne_true
    | cancelled =>
        rw [ended] at paused
        exact absurd (unpaused.symm.trans paused) Bool.false_ne_true

theorem runAttempt_paused (input : TurnInput) (attempt : Attempt)
    (running : execution.paused = false)
    (paused : (runAttempt input attempt execution).2.paused = true) :
    (runAttempt input attempt execution).1 = .ok .finalizing := by
  have begun : change (fun execution : Execution =>
      { execution with agent := some attempt.state, finalContent := "" }) execution =
      ((.ok () : Except Thrown Unit),
        { execution with agent := some attempt.state, finalContent := "" }) := rfl
  have pauses := consume_paused input attempt
    (running : { execution with agent := some attempt.state, finalContent := "" }.paused = false)
  unfold runAttempt at paused ⊢
  rw [bind_of_ok begun] at paused ⊢
  rcases consumed : consume input attempt
      { execution with agent := some attempt.state, finalContent := "" } with
    ⟨thrown | status, after⟩
  · rw [consumed] at pauses
    rw [catching_of_error consumed] at paused
    have unpaused : after.paused = true := by
      cases thrown with
      | cancelled => exact paused
      | error => exact (inside_afterRecovery input attempt.rescue .error after).paused ▸ paused
    cases pauses unpaused
  · rw [consumed] at pauses
    rw [catching_of_ok consumed] at paused ⊢
    exact pauses paused

theorem runAttempts_paused (input : TurnInput) (attempts : List Attempt)
    (running : execution.paused = false)
    (paused : (runAttempts input attempts execution).2.paused = true) :
    (runAttempts input attempts execution).1 = .ok () ∧
      (runAttempts input attempts execution).2.status = .completed := by
  induction attempts generalizing execution with
  | nil =>
      change execution.paused = true at paused
      rw [running] at paused
      cases paused
  | cons attempt rest ih =>
      have pauses := runAttempt_paused input attempt running
      rcases ran : runAttempt input attempt execution with ⟨thrown | status, between⟩
      · rw [ran] at pauses
        rw [runAttempts, bind_of_error ran] at paused
        cases pauses paused
      · rw [ran] at pauses
        rw [runAttempts, bind_of_ok ran] at paused ⊢
        cases status with
        | running =>
            apply ih _ paused
            by_contra early
            cases pauses (Bool.eq_true_of_not_eq_false early)
        | finalizing => exact ⟨rfl, rfl⟩
        | building => cases pauses paused
        | completed => cases pauses paused
        | cancelled => cases pauses paused
        | error => cases pauses paused

theorem worked_build (built : Built) (absent : execution.agent = none) :
    Worked execution (build built execution).2 := by
  have noAgent : ∀ {state : Option RunState}, execution.agent.isSome = true →
      state.isSome = true := by
    intro state made
    rw [absent] at made
    cases made
  cases built with
  | ready agent => exact ⟨rfl, rfl, noAgent⟩
  | raises agent => exact ⟨rfl, rfl, noAgent⟩
  | cancelled => exact Worked.refl execution

structure Ended (execution : Execution) : Prop where
  terminal : (publicRunStatus execution.status).isSome
  paused : execution.paused = true → execution.status = .completed

theorem work_spec (input : TurnInput) (behaviour : Behaviour) (absent : execution.agent = none)
    (running : execution.paused = false) :
    Worked execution (work input behaviour execution).2 ∧
      (work input behaviour execution).2.agent.isSome = behaviour.built.agent.isSome ∧
      ((work input behaviour execution).1 = .ok () →
        (publicRunStatus (work input behaviour execution).2.status).isSome) ∧
      ((work input behaviour execution).2.paused = true →
        (work input behaviour execution).1 = .ok () ∧
          (work input behaviour execution).2.status = .completed) := by
  have built := worked_build behaviour.built absent
  unfold work
  rcases made : behaviour.built with agent | agent | _
  · have ready : build (.ready agent) execution =
        (.ok .running, { execution with agent := some agent }) := rfl
    rw [made, ready] at built
    rw [bind_of_ok ready]
    have attempted : Worked { execution with agent := some agent }
        (runAttempts input behaviour.attempts
          { execution with agent := some agent, status := .running }).2 :=
      Worked.trans _ { execution with agent := some agent, status := .running } _
        ⟨rfl, rfl, id⟩ (worked_runAttempts input behaviour.attempts _)
    refine ⟨Worked.trans _ _ _ built attempted, attempted.agent rfl, fun ended => ?_, ?_⟩
    · exact runAttempts_terminal input behaviour.attempts (Prod.ext ended rfl)
    · exact runAttempts_paused input behaviour.attempts running
  · have raised : build (.raises agent) execution =
        (.error .error, { execution with agent := agent }) := rfl
    rw [made, raised] at built
    rw [bind_of_error raised]
    refine ⟨built, rfl, (fun ended => by cases ended), fun paused => ?_⟩
    exact absurd (running.symm.trans paused) Bool.false_ne_true
  · have stopped : build .cancelled execution = (.error .cancelled, execution) := rfl
    rw [bind_of_error stopped]
    refine ⟨Worked.refl execution, ?_, (fun ended => by cases ended), fun paused => ?_⟩
    · exact congrArg Option.isSome absent
    · exact absurd (running.symm.trans paused) Bool.false_ne_true

theorem finishWork_spec (input : TurnInput) (behaviour : Behaviour)
    (absent : execution.agent = none) (running : execution.paused = false) :
    ∃ after, finishWork input behaviour execution = (.ok (), after) ∧ Worked execution after ∧
      after.agent.isSome = behaviour.built.agent.isSome ∧ Ended after := by
  obtain ⟨kept, agent, terminal, paused⟩ := work_spec input behaviour absent running
  unfold finishWork
  rcases ran : work input behaviour execution with ⟨thrown | done, after⟩
  · rw [ran] at kept agent paused
    rw [catching_of_error ran]
    have unpaused : after.paused = true → ∀ {status : TurnStatus}, status = .completed :=
      fun now => by cases (paused now).1
    cases thrown with
    | cancelled =>
        exact ⟨_, rfl, Worked.trans _ _ _ kept (worked_setStatus .cancelled after), agent,
          rfl, fun now => unpaused now⟩
    | error =>
        exact ⟨_, rfl, Worked.trans _ _ _ kept (worked_setStatus .error after), agent,
          rfl, fun now => unpaused now⟩
  · rw [ran] at kept agent terminal paused
    rw [catching_of_ok ran]
    exact ⟨after, rfl, kept, agent, terminal rfl, fun now => (paused now).2⟩

/-! ### The cleanup -/

def outcomeOf : Signal → Except Thrown Unit
  | .returns => .ok ()
  | .raises => .error .error
  | .cancelled => .error .cancelled

def absorbed : Signal → Except Thrown Unit
  | .cancelled => .error .cancelled
  | _ => .ok ()

theorem await_eq (signal : Signal) (execution : Execution) :
    await signal execution = (outcomeOf signal, execution) := by
  cases signal <;> rfl

theorem append_eq (entry : Appended) (signal : Signal) (execution : Execution) :
    append entry signal execution = (outcomeOf signal,
      if signal = .returns then { execution with log := execution.log ++ [entry] }
      else execution) := by
  cases signal <;> rfl

theorem absorbing_eq {body : Course Unit} {signal : Signal} {execution after : Execution}
    (ended : body execution = (outcomeOf signal, after)) :
    absorbing body execution = (absorbed signal, after) := by
  cases signal with
  | returns => exact catching_of_ok ended
  | raises => exact catching_of_error ended
  | cancelled => exact catching_of_error ended

structure Closing (before after : Execution) : Prop where
  boundaries : boundaries after.log = boundaries before.log
  status : after.status = before.status

theorem Closing.refl (execution : Execution) : Closing execution execution := ⟨rfl, rfl⟩

theorem Closing.trans {first second third : Execution} (left : Closing first second)
    (right : Closing second third) : Closing first third where
  boundaries := right.boundaries.trans left.boundaries
  status := right.status.trans left.status

theorem appendEvent_spec (event : AgentEvent) (signal : Signal) (execution : Execution) :
    ∃ after, appendEvent event signal execution = (outcomeOf signal, after) ∧
      Closing execution after ∧ after.emittedIds = execution.emittedIds := by
  have inside := inside_appendEvent event signal execution
  have closing : (appendEvent event signal execution).1 = outcomeOf signal ∧
      (appendEvent event signal execution).2.status = execution.status := by
    cases signal <;> exact ⟨rfl, rfl⟩
  exact ⟨_, Prod.ext closing.1 rfl, ⟨inside.boundaries, closing.2⟩, inside.emitted⟩

theorem appendFinal_spec (event : AgentEvent) (signal : Signal) (execution : Execution) :
    (∃ id, idOf event = some id ∧ id ∈ execution.emittedIds ∧
      appendFinal event signal execution = (.ok (), execution)) ∨
    (∃ after, (∀ id, idOf event = some id → id ∉ execution.emittedIds) ∧
      appendFinal event signal execution = (outcomeOf signal, after) ∧ Closing execution after ∧
      (signal = .returns → after.emittedIds =
        ((idOf event).map fun id => id :: execution.emittedIds).getD execution.emittedIds)) := by
  obtain ⟨after, appended, closing, emitted⟩ := appendEvent_spec event signal execution
  cases named : idOf event with
  | none =>
      right
      refine ⟨after, (fun id same => by cases same), ?_, closing, fun _ => emitted⟩
      unfold appendFinal
      rw [named]
      exact appended
  | some id =>
      by_cases seen : id ∈ execution.emittedIds
      · left
        refine ⟨id, rfl, seen, ?_⟩
        unfold appendFinal
        rw [named]
        change (if id ∈ execution.emittedIds then _ else _ : Course Unit) execution = _
        rw [if_pos seen]
        rfl
      · right
        have fresh : ∀ other, some id = some other → other ∉ execution.emittedIds := by
          intro other same
          cases same
          exact seen
        have body : appendFinal event signal execution =
            (do appendEvent event signal
                change fun execution =>
                  { execution with emittedIds := id :: execution.emittedIds } : Course Unit)
              execution := by
          unfold appendFinal
          rw [named]
          change (if id ∈ execution.emittedIds then _ else _ : Course Unit) execution = _
          rw [if_neg seen]
        cases signal with
        | returns =>
            refine ⟨{ after with emittedIds := id :: after.emittedIds }, fresh, ?_,
              ⟨closing.boundaries, closing.status⟩, fun _ => ?_⟩
            · rw [body, bind_of_ok appended]
              rfl
            · exact congrArg (id :: ·) emitted
        | raises =>
            refine ⟨after, fresh, ?_, closing, fun impossible => by cases impossible⟩
            rw [body, bind_of_error appended]
            rfl
        | cancelled =>
            refine ⟨after, fresh, ?_, closing, fun impossible => by cases impossible⟩
            rw [body, bind_of_error appended]
            rfl

theorem appendFinals_spec (events : List (AgentEvent × Signal)) (execution : Execution) :
    ∃ after, forEach events (fun item => appendFinal item.1 item.2) execution =
      (outcomeOf (finalsEnding execution.emittedIds events), after) ∧ Closing execution after := by
  induction events generalizing execution with
  | nil => exact ⟨execution, rfl, Closing.refl execution⟩
  | cons item rest ih =>
      obtain ⟨event, signal⟩ := item
      unfold finalsEnding
      change ∃ after, (appendFinal event signal >>= fun _ =>
        forEach rest fun item => appendFinal item.1 item.2) execution = _ ∧ _
      rcases appendFinal_spec event signal execution with
        ⟨id, named, seen, passed⟩ | ⟨after, fresh, appended, closing, emitted⟩
      · rw [bind_of_ok passed, named]
        dsimp only
        rw [if_pos seen]
        exact ih execution
      · have ending : ∀ seen, (signal = .returns → after.emittedIds = seen) →
            ∃ final, (appendFinal event signal >>= fun _ =>
              forEach rest fun item => appendFinal item.1 item.2) execution =
              (outcomeOf (match signal with
                | .returns => finalsEnding seen rest
                | .raises => .raises
                | .cancelled => .cancelled), final) ∧ Closing execution final := by
          intro seen same
          cases signal with
          | returns =>
              obtain ⟨final, ended, closed⟩ := ih after
              rw [bind_of_ok appended]
              rw [same rfl] at ended
              exact ⟨final, ended, closing.trans closed⟩
          | raises => exact ⟨after, bind_of_error appended, closing⟩
          | cancelled => exact ⟨after, bind_of_error appended, closing⟩
        cases named : idOf event with
        | none =>
            rw [named] at emitted
            exact ending execution.emittedIds emitted
        | some id =>
            rw [named] at emitted
            dsimp only
            rw [if_neg (fresh id named)]
            exact ending (id :: execution.emittedIds) emitted

theorem finals_spec (finals : Finals) (execution : Execution) :
    ∃ after, absorbing (appendFinalAssistant finals) execution =
      (if execution.agent.isSome && !finals.buildRaises &&
          decide (finalsEnding execution.emittedIds finals.events = .cancelled) then
        .error .cancelled else .ok (), after) ∧ Closing execution after := by
  cases agent : execution.agent with
  | none =>
      have skipped : appendFinalAssistant finals execution = (outcomeOf .returns, execution) := by
        change (if execution.agent.isNone then _ else _ : Course Unit) execution = _
        rw [agent]
        rfl
      exact ⟨execution, absorbing_eq skipped, Closing.refl execution⟩
  | some state =>
      have built : appendFinalAssistant finals execution =
          (if finals.buildRaises then throws .error
            else forEach finals.events fun item => appendFinal item.1 item.2) execution := by
        change (if execution.agent.isNone then _ else _ : Course Unit) execution = _
        rw [agent]
        rfl
      cases raises : finals.buildRaises with
      | true =>
          rw [raises] at built
          have failed : appendFinalAssistant finals execution = (outcomeOf .raises, execution) :=
            built
          exact ⟨execution, absorbing_eq failed, Closing.refl execution⟩
      | false =>
          rw [raises] at built
          obtain ⟨after, ended, closing⟩ := appendFinals_spec finals.events execution
          refine ⟨after, ?_, closing⟩
          rw [absorbing_eq (built.trans ended)]
          cases finalsEnding execution.emittedIds finals.events <;> rfl

/-! ### The turn -/

theorem stated_of_ended (ended : Ended execution) :
    ∃ status, resultStatus execution.outcome.1 execution.status = some status ∧
      statedStatus execution.outcome.1.value = some status := by
  unfold outcome
  dsimp only
  split
  · rename_i paused
    rw [ended.paused paused]
    exact ⟨.completed, rfl, rfl⟩
  · split
    · exact ⟨.cancelled, rfl, rfl⟩
    · split
      · exact ⟨.failed, rfl, rfl⟩
      · rename_i calm sound
        have completed : execution.status = .completed := by
          have terminal := ended.terminal
          cases status : execution.status with
          | completed => rfl
          | cancelled => exact absurd (Or.inl status) calm
          | error => exact absurd (Or.inl status) sound
          | building =>
              rw [status] at terminal
              cases terminal
          | running =>
              rw [status] at terminal
              cases terminal
          | finalizing =>
              rw [status] at terminal
              cases terminal
        rw [completed]
        exact ⟨.completed, rfl, rfl⟩

theorem appendTurnEnd_spec (input : TurnInput) (outcome : TurnOutcome) (reason : String)
    (signal : Signal) (execution : Execution) :
    ∃ after finish, absorbing (appendTurnEnd input outcome reason signal) execution =
        (absorbed signal, after) ∧ after.status = execution.status ∧
      finish.turnId = input.turnId ∧ finish.outcome = outcome.value ∧
      boundaries after.log =
        boundaries execution.log ++ if signal = .returns then [.turnEnd finish] else [] := by
  have appended : appendTurnEnd input outcome reason signal execution =
      append ⟨execution.lastMessageId, .turnEnd (endOf input outcome reason execution.agent)⟩
        signal execution := rfl
  rw [append_eq] at appended
  refine ⟨_, endOf input outcome reason execution.agent, absorbing_eq appended, ?_, rfl, rfl, ?_⟩
  · split <;> rfl
  · split
    · exact boundaries_append _ _
    · exact (List.append_nil _).symm

theorem report_spec (input : TurnInput) (outcome : TurnOutcome) (execution : Execution) :
    (report input outcome execution).2 = execution ∧
      ∀ status, resultStatus outcome execution.status = some status →
        ∃ result, (report input outcome execution).1 = .ok result ∧ result.status = status := by
  have looked : look execution = ((.ok execution : Except Thrown Execution), execution) := rfl
  unfold report
  rw [bind_of_ok looked]
  cases resultStatus outcome execution.status with
  | none => exact ⟨rfl, fun status same => by cases same⟩
  | some status =>
      refine ⟨rfl, fun other same => ?_⟩
      cases same
      exact ⟨_, rfl, rfl⟩

theorem flushed_spec (input : TurnInput) (outcome : TurnOutcome) (flush : Signal)
    (execution : Execution) :
    ((absorbing (await flush) >>= fun _ => report input outcome) execution).2 = execution ∧
      (flush = .cancelled →
        ((absorbing (await flush) >>= fun _ => report input outcome) execution).1 =
          .error .cancelled) ∧
      (flush ≠ .cancelled → ∀ status, resultStatus outcome execution.status = some status →
        ∃ result, ((absorbing (await flush) >>= fun _ => report input outcome) execution).1 =
          .ok result ∧ result.status = status) := by
  have flushed := absorbing_eq (await_eq flush execution)
  obtain ⟨reported, resulting⟩ := report_spec input outcome execution
  cases flush with
  | cancelled =>
      rw [bind_of_error flushed]
      exact ⟨rfl, fun _ => rfl, fun different => absurd rfl different⟩
  | returns =>
      rw [bind_of_ok flushed]
      exact ⟨reported, (fun same => by cases same), fun _ => resulting⟩
  | raises =>
      rw [bind_of_ok flushed]
      exact ⟨reported, (fun same => by cases same), fun _ => resulting⟩

theorem drive_spec (input : TurnInput) (behaviour : Behaviour) {started : Execution}
    (absent : started.agent = none) (running : started.paused = false)
    (unsent : started.emittedIds = []) :
    (finalsCancelled behaviour = true ∨ behaviour.turnEnd ≠ .returns) ∧
        boundaries (drive input behaviour started).2.log = boundaries started.log ∨
    (finalsCancelled behaviour = false ∧ behaviour.turnEnd = .returns) ∧
      ∃ finish, boundaries (drive input behaviour started).2.log =
          boundaries started.log ++ [.turnEnd finish] ∧
        finish.turnId = input.turnId ∧
        finish.outcome = (finishWork input behaviour started).2.outcome.1.value ∧
        (behaviour.flush = .cancelled →
          (drive input behaviour started).1 = .error .cancelled) ∧
        (behaviour.flush ≠ .cancelled → ∃ result, (drive input behaviour started).1 = .ok result ∧
          statedStatus finish.outcome = some result.status) := by
  obtain ⟨left, worked, kept, agent, ended⟩ := finishWork_spec input behaviour absent running
  obtain ⟨closed, finals, closing⟩ := finals_spec behaviour.finals left
  rw [agent, kept.emitted, unsent] at finals
  obtain ⟨final, finish, finished, status, turnId, outcome, appended⟩ :=
    appendTurnEnd_spec input left.outcome.1 left.outcome.2 behaviour.turnEnd closed
  obtain ⟨same, interrupted, resulting⟩ :=
    flushed_spec input left.outcome.1 behaviour.flush final
  have shape : drive input behaviour started =
      (absorbing (appendFinalAssistant behaviour.finals) >>= fun _ =>
        absorbing (appendTurnEnd input left.outcome.1 left.outcome.2 behaviour.turnEnd) >>=
          fun _ => absorbing (await behaviour.flush) >>= fun _ =>
            report input left.outcome.1) left := by
    unfold drive
    rw [bind_of_ok worked]
    rfl
  have before : boundaries closed.log = boundaries started.log :=
    closing.boundaries.trans kept.boundaries
  rw [worked, shape]
  cases cancelled : finalsCancelled behaviour with
  | true =>
      unfold finalsCancelled at cancelled
      rw [if_pos cancelled] at finals
      rw [bind_of_error finals]
      exact Or.inl ⟨Or.inl rfl, before⟩
  | false =>
      unfold finalsCancelled at cancelled
      rw [if_neg (by rw [cancelled]; exact Bool.false_ne_true)] at finals
      rw [bind_of_ok finals]
      cases ending : behaviour.turnEnd with
      | cancelled =>
          rw [ending] at finished appended
          rw [bind_of_error finished]
          refine Or.inl ⟨Or.inr (fun impossible => by cases impossible), ?_⟩
          exact (appended.trans (List.append_nil _)).trans before
      | raises =>
          rw [ending] at finished appended
          rw [bind_of_ok finished, same]
          refine Or.inl ⟨Or.inr (fun impossible => by cases impossible), ?_⟩
          exact (appended.trans (List.append_nil _)).trans before
      | returns =>
          rw [ending] at finished appended
          rw [bind_of_ok finished, same]
          refine Or.inr ⟨⟨rfl, rfl⟩, finish, ?_, turnId, outcome, interrupted, fun calm => ?_⟩
          · rw [appended, before]
            rfl
          · obtain ⟨stated, reports, states⟩ := stated_of_ended ended
            rw [← closing.status, ← status] at reports
            obtain ⟨result, returned, agrees⟩ := resulting calm stated reports
            refine ⟨result, returned, ?_⟩
            rw [outcome, states, agrees]

theorem appendTurnStarted_spec (input : TurnInput) (behaviour : Behaviour) :
    (behaviour.resolve = .returns ∧ behaviour.start = .returns ∧
      appendTurnStarted input behaviour fresh = (.ok (), { fresh with
        log := [⟨none, .turnStart (startOf input behaviour.agentId)⟩] })) ∨
    ((behaviour.resolve ≠ .returns ∨ behaviour.start ≠ .returns) ∧
      ∃ thrown, appendTurnStarted input behaviour fresh = (.error thrown, fresh)) := by
  unfold appendTurnStarted
  cases resolved : behaviour.resolve with
  | raises => exact Or.inr ⟨Or.inl (fun same => by cases same), .error, rfl⟩
  | cancelled => exact Or.inr ⟨Or.inl (fun same => by cases same), .cancelled, rfl⟩
  | returns =>
      cases starts : behaviour.start with
      | returns => exact Or.inl ⟨rfl, rfl, rfl⟩
      | raises => exact Or.inr ⟨Or.inr (fun same => by cases same), .error, rfl⟩
      | cancelled => exact Or.inr ⟨Or.inr (fun same => by cases same), .cancelled, rfl⟩

/-! ### The result of `run_input` -/

def told (input : TurnInput) (signal : Signal) : Except Thrown Unit :=
  if input.requestId = "" then .ok () else outcomeOf signal

theorem tell_eq (input : TurnInput) (signal : Signal) (execution : Execution) :
    tell input signal execution = (told input signal, execution) := by
  unfold tell told
  split
  · rfl
  · exact await_eq signal execution

def handledStatus : Thrown → PublicStatus
  | .cancelled => .cancelled
  | .error => .failed

theorem answerThrown_spec (input : TurnInput) (behaviour : Behaviour) (message : String)
    (thrown : Thrown) (execution : Execution) :
    (answerThrown input behaviour message thrown execution).2 = execution ∧
      (told input behaviour.completeLate = .ok () →
        ∃ result, (answerThrown input behaviour message thrown execution).1 = .ok result ∧
          result.status = handledStatus thrown) ∧
      (told input behaviour.completeLate ≠ .ok () →
        ∀ result, (answerThrown input behaviour message thrown execution).1 ≠ .ok result) := by
  have telling := tell_eq input behaviour.completeLate execution
  unfold answerThrown
  cases outcome : told input behaviour.completeLate with
  | ok done =>
      rw [outcome] at telling
      rw [bind_of_ok telling]
      refine ⟨rfl, fun _ => ⟨_, rfl, ?_⟩, fun silent => absurd rfl silent⟩
      cases thrown <;> rfl
  | error late =>
      rw [outcome] at telling
      rw [bind_of_error telling]
      exact ⟨rfl, (fun heard => by cases heard), fun _ result returned => by cases returned⟩

theorem afterRun_spec (body : Course AgentRunResult) (signal : Signal) (execution : Execution) :
    (ensuring body (absorbing (await signal)) execution).2 = (body execution).2 ∧
      (signal = .cancelled → (ensuring body (absorbing (await signal)) execution).1 =
        .error .cancelled) ∧
      (signal ≠ .cancelled →
        (ensuring body (absorbing (await signal)) execution).1 = (body execution).1) := by
  have cleaned := absorbing_eq (await_eq signal (body execution).2)
  cases signal with
  | cancelled =>
      rw [ensuring_of_error cleaned]
      exact ⟨rfl, fun _ => rfl, fun different => absurd rfl different⟩
  | returns =>
      rw [ensuring_of_ok cleaned]
      exact ⟨rfl, (fun same => by cases same), fun _ => rfl⟩
  | raises =>
      rw [ensuring_of_ok cleaned]
      exact ⟨rfl, (fun same => by cases same), fun _ => rfl⟩

theorem answers_iff (input : TurnInput) (behaviour : Behaviour) :
    answers input behaviour = true ↔
      told input behaviour.completeLate = .ok () ∧ behaviour.afterRun ≠ .cancelled := by
  unfold answers told
  by_cases unnamed : input.requestId = ""
  · rw [if_pos unnamed, decide_eq_true unnamed, Bool.true_or, Bool.true_and, decide_eq_true_iff]
    exact ⟨fun heard => ⟨rfl, heard⟩, fun both => both.2⟩
  · rw [if_neg unnamed, decide_eq_false unnamed, Bool.false_or, Bool.and_eq_true,
      decide_eq_true_iff, decide_eq_true_iff]
    cases behaviour.completeLate with
    | returns => exact ⟨fun both => ⟨rfl, both.2⟩, fun both => ⟨rfl, both.2⟩⟩
    | raises => exact ⟨(fun both => by cases both.1), fun both => by cases both.1⟩
    | cancelled => exact ⟨(fun both => by cases both.1), fun both => by cases both.1⟩

/-- A result the turn's task gave is the one `run_input` returns, if any. -/
theorem runInput_kept {input : TurnInput} {behaviour : Behaviour} (message : String)
    {result : AgentRunResult} {after : Execution}
    (awaited : awaitTurn input behaviour fresh = (.ok result, after)) :
    (runInput input behaviour message fresh).2 = after ∧
      ∀ returned, (runInput input behaviour message fresh).1 = .ok returned → returned = result := by
  unfold runInput
  obtain ⟨state, interrupted, calm⟩ := afterRun_spec
    (catching (awaitTurn input behaviour) (answerThrown input behaviour message))
    behaviour.afterRun fresh
  have caught : catching (awaitTurn input behaviour) (answerThrown input behaviour message) fresh =
      (.ok result, after) := catching_of_ok awaited
  rw [caught] at state calm
  refine ⟨state, fun returned same => ?_⟩
  by_cases stopped : behaviour.afterRun = .cancelled
  · rw [interrupted stopped] at same
    cases same
  · rw [calm stopped] at same
    cases same
    rfl

theorem runInput_handled (message : String) {thrown : Thrown} {after : Execution}
    (awaited : awaitTurn input behaviour fresh = (.error thrown, after)) :
    (runInput input behaviour message fresh).2 = after ∧
      (answers input behaviour = true →
        ∃ result, (runInput input behaviour message fresh).1 = .ok result ∧
          result.status = handledStatus thrown) ∧
      (answers input behaviour = false →
        ∀ result, (runInput input behaviour message fresh).1 ≠ .ok result) := by
  unfold runInput
  obtain ⟨state, interrupted, calm⟩ := afterRun_spec
    (catching (awaitTurn input behaviour) (answerThrown input behaviour message))
    behaviour.afterRun fresh
  have caught : catching (awaitTurn input behaviour) (answerThrown input behaviour message) fresh =
      answerThrown input behaviour message thrown after := catching_of_error awaited
  obtain ⟨same, heard, silent⟩ := answerThrown_spec input behaviour message thrown after
  rw [caught] at state calm
  refine ⟨state.trans same, fun answered => ?_, fun unanswered result returned => ?_⟩
  · obtain ⟨telling, running⟩ := (answers_iff input behaviour).mp answered
    rw [calm running]
    exact heard telling
  · by_cases stopped : behaviour.afterRun = .cancelled
    · rw [interrupted stopped] at returned
      cases returned
    · rw [calm stopped] at returned
      by_cases telling : told input behaviour.completeLate = .ok ()
      · have answered := (answers_iff input behaviour).mpr ⟨telling, stopped⟩
        rw [unanswered] at answered
        cases answered
      · exact silent telling result returned

theorem awaitTurn_spec (input : TurnInput) (behaviour : Behaviour) :
    (awaitTurn input behaviour fresh).2 = (execute input behaviour fresh).2 ∧
      (behaviour.interrupted = true →
        (awaitTurn input behaviour fresh).1 = .error .cancelled) ∧
      (behaviour.interrupted = false → ∀ thrown,
        (execute input behaviour fresh).1 = .error thrown →
          (awaitTurn input behaviour fresh).1 = .error thrown) ∧
      (behaviour.interrupted = false → ∀ result,
        (execute input behaviour fresh).1 = .ok result →
          (awaitTurn input behaviour fresh).1 =
            (told input behaviour.complete).map fun _ => result) := by
  unfold awaitTurn
  cases interrupted : behaviour.interrupted with
  | true =>
      have stopped : ensuring (execute input behaviour) (if true then throws .cancelled else pure ())
          fresh = (.error .cancelled, (execute input behaviour fresh).2) := ensuring_of_error rfl
      rw [bind_of_error stopped]
      exact ⟨rfl, fun _ => rfl, (fun calm => by cases calm), fun calm => by cases calm⟩
  | false =>
      have passed : ensuring (execute input behaviour)
          (if false then throws .cancelled else pure ()) fresh =
          ((execute input behaviour fresh).1, (execute input behaviour fresh).2) :=
        ensuring_of_ok rfl
      cases outcome : (execute input behaviour fresh).1 with
      | error thrown =>
          rw [outcome] at passed
          rw [bind_of_error passed]
          exact ⟨rfl, (fun stopped => by cases stopped), fun _ other same => by rw [← same],
            fun _ result same => by cases same⟩
      | ok result =>
          rw [outcome] at passed
          have telling := tell_eq input behaviour.complete (execute input behaviour fresh).2
          rw [bind_of_ok passed]
          cases heard : told input behaviour.complete with
          | ok done =>
              rw [heard] at telling
              rw [bind_of_ok telling]
              refine ⟨rfl, (fun stopped => by cases stopped), (fun _ thrown same => by cases same), ?_⟩
              intro _ other same
              cases same
              rfl
          | error thrown =>
              rw [heard] at telling
              rw [bind_of_error telling]
              refine ⟨rfl, (fun stopped => by cases stopped), (fun _ other same => by cases same), ?_⟩
              intro _ other same
              rfl

/-- `run_input` appends what the turn appends. -/
theorem runInput_state (input : TurnInput) (behaviour : Behaviour) (message : String) :
    (runInput input behaviour message fresh).2 = (execute input behaviour fresh).2 := by
  rw [← (awaitTurn_spec input behaviour).1]
  rcases awaited : awaitTurn input behaviour fresh with ⟨thrown | result, after⟩
  · exact (runInput_handled message awaited).1
  · exact (runInput_kept message awaited).1

theorem awaitTurn_of_interruption {input : TurnInput} {behaviour : Behaviour} {finish : TurnEndData}
    (stopped : behaviour.flush = .cancelled →
      (execute input behaviour fresh).1 = .error .cancelled)
    (calm : behaviour.flush ≠ .cancelled → ∃ result,
      (execute input behaviour fresh).1 = .ok result ∧
        statedStatus finish.outcome = some result.status) :
    (interruption input behaviour = .returns → ∃ result,
      (awaitTurn input behaviour fresh).1 = .ok result ∧
        statedStatus finish.outcome = some result.status) ∧
    (interruption input behaviour = .raises →
      (awaitTurn input behaviour fresh).1 = .error .error) ∧
    (interruption input behaviour = .cancelled →
      (awaitTurn input behaviour fresh).1 = .error .cancelled) := by
  obtain ⟨_, interrupted, threw, returned⟩ := awaitTurn_spec input behaviour
  unfold interruption
  by_cases early : behaviour.flush = .cancelled ∨ behaviour.interrupted = true
  · rw [if_pos early]
    refine ⟨(fun same => by cases same), (fun same => by cases same), fun _ => ?_⟩
    cases late : behaviour.interrupted with
    | true => exact interrupted late
    | false =>
        have flushed := early.resolve_right (fun now => by rw [late] at now; cases now)
        exact threw late .cancelled (stopped flushed)
  · rw [if_neg early]
    have running : behaviour.interrupted = false :=
      Bool.eq_false_of_not_eq_true fun now => early (Or.inr now)
    obtain ⟨result, gave, agrees⟩ := calm fun now => early (Or.inl now)
    have kept := returned running result gave
    unfold told at kept
    split
    · rename_i unnamed
      rw [if_pos unnamed] at kept
      exact ⟨fun _ => ⟨result, kept, agrees⟩, (fun same => by cases same),
        fun same => by cases same⟩
    · rename_i named
      rw [if_neg named] at kept
      refine ⟨fun tells => ?_, fun tells => ?_, fun tells => ?_⟩
      · rw [tells] at kept
        exact ⟨result, kept, agrees⟩
      · rw [tells] at kept
        exact kept
      · rw [tells] at kept
        exact kept

/-! ### The bracket -/

theorem stated_cancelled_iff (outcome : TurnOutcome) :
    statedStatus outcome.value = some .cancelled ↔ outcome = .cancelled := by
  cases outcome <;> decide

theorem stated_failed_iff (outcome : TurnOutcome) :
    statedStatus outcome.value = some .failed ↔ outcome = .error := by
  cases outcome <;> decide

theorem handled_iff (message : String) {thrown : Thrown}
    (awaited : (awaitTurn input behaviour fresh).1 = .error thrown) (outcome : String) :
    (∀ result, (runInput input behaviour message fresh).1 = .ok result →
      statedStatus outcome = some result.status) ↔
    (answers input behaviour = false ∨ statedStatus outcome = some (handledStatus thrown)) := by
  obtain ⟨_, heard, silent⟩ := runInput_handled message (Prod.ext awaited rfl)
  cases answered : answers input behaviour with
  | false => exact ⟨fun _ => Or.inl rfl, fun _ result same => absurd same (silent answered result)⟩
  | true =>
      obtain ⟨result, returned, status⟩ := heard answered
      constructor
      · intro agrees
        right
        rw [agrees result returned, status]
      · intro agrees other same
        rw [returned] at same
        cases same
        rw [agrees.resolve_left (fun impossible => by cases impossible), status]

/-- The results of `run_input` state the outcome of an ended turn, unless an
interruption behind its end makes another one. -/
theorem reports_iff {input : TurnInput} {behaviour : Behaviour} (message : String)
    {finish : TurnEndData} {outcome : TurnOutcome} (states : finish.outcome = outcome.value)
    (stopped : behaviour.flush = .cancelled →
      (execute input behaviour fresh).1 = .error .cancelled)
    (calm : behaviour.flush ≠ .cancelled → ∃ result,
      (execute input behaviour fresh).1 = .ok result ∧
        statedStatus finish.outcome = some result.status) :
    (∀ result, (runInput input behaviour message fresh).1 = .ok result →
      statedStatus finish.outcome = some result.status) ↔
    (interruption input behaviour = .returns ∨ answers input behaviour = false ∨
      (interruption input behaviour = .cancelled ∧ outcome = .cancelled) ∨
      (interruption input behaviour = .raises ∧ outcome = .error)) := by
  obtain ⟨quiet, raised, cut⟩ := awaitTurn_of_interruption stopped calm
  cases between : interruption input behaviour with
  | returns =>
      obtain ⟨result, awaited, agrees⟩ := quiet between
      refine iff_of_true ?_ (Or.inl rfl)
      intro returned same
      rw [(runInput_kept message (Prod.ext awaited rfl)).2 returned same]
      exact agrees
  | raises =>
      rw [handled_iff message (raised between), states]
      change _ ∨ statedStatus outcome.value = some .failed ↔ _
      rw [stated_failed_iff]
      simp only [reduceCtorEq, false_or, false_and, true_and]
  | cancelled =>
      rw [handled_iff message (cut between), states]
      change _ ∨ statedStatus outcome.value = some .cancelled ↔ _
      rw [stated_cancelled_iff]
      simp only [reduceCtorEq, false_or, false_and, true_and, or_false]

/-- The bracket of a turn is complete and its result states the outcome exactly
where nothing disturbs its start, its end and what follows the end. -/
theorem bracketed_iff_undisturbed (input : TurnInput) (behaviour : Behaviour) (message : String) :
    Bracketed input behaviour message ↔ Undisturbed input behaviour := by
  unfold Bracketed
  rw [runInput_state]
  rcases appendTurnStarted_spec input behaviour with ⟨resolves, starts, started⟩ | ⟨missing, lost⟩
  · have executed : execute input behaviour fresh = drive input behaviour { fresh with
        log := [⟨none, .turnStart (startOf input behaviour.agentId)⟩] } := bind_of_ok started
    have left : worked input behaviour = (finishWork input behaviour { fresh with
        log := [⟨none, .turnStart (startOf input behaviour.agentId)⟩] }).2 := by
      unfold worked
      rw [started]
    rcases @drive_spec input behaviour { fresh with
        log := [⟨none, .turnStart (startOf input behaviour.agentId)⟩] } rfl rfl rfl with
      ⟨disturbed, appended⟩ | ⟨⟨finals, ends⟩, finish, appended, turnId, states, stopped, calm⟩
    · rw [executed, appended]
      constructor
      · rintro ⟨start, finish, both, _⟩
        cases both
      · intro undisturbed
        rcases disturbed with cancelled | lost
        · rw [undisturbed.finals] at cancelled
          cases cancelled
        · exact absurd undisturbed.ends lost
    · rw [← executed] at stopped calm
      rw [← left] at states
      have reports := reports_iff message states stopped calm
      rw [executed, appended]
      constructor
      · rintro ⟨start, last, both, _, agrees⟩
        cases both
        exact ⟨resolves, starts, finals, ends, reports.mp agrees⟩
      · intro undisturbed
        refine ⟨_, finish, rfl, turnId.symm, reports.mpr undisturbed.reports⟩
  · obtain ⟨thrown, failed⟩ := lost
    have executed : execute input behaviour fresh = (.error thrown, fresh) := bind_of_error failed
    rw [executed]
    constructor
    · rintro ⟨start, finish, both, _⟩
      cases both
    · intro undisturbed
      rcases missing with unresolved | unstarted
      · exact absurd undisturbed.resolves unresolved
      · exact absurd undisturbed.starts unstarted

private def asked : TurnInput where
  sessionId := "session-1"
  turnId := "turn_1"
  requestId := "request-1"
  channelId := "ws"
  source := "user"
  model := "model-1"
  userMessageId := "user_1"
  confirms := false

private def finishedRun : RunState where
  status := .completed
  iteration := 1
  doneReason := some .completed
  error := none
  errorCode := none
  promptTokens := 0
  completionTokens := 0
  totalTokens := 0

private def noRecovery : Recovery := ⟨.answers none, false, .returns, .returns⟩

/-- A turn that completes in one attempt; `flush` is how its last flush ends. -/
private def answering (flush : Signal) : Behaviour where
  agentId := "default"
  resolve := .returns
  start := .returns
  built := .ready finishedRun
  attempts := [⟨[], .returns, finishedRun, noRecovery, noRecovery⟩]
  finals := ⟨false, []⟩
  turnEnd := .returns
  flush := flush
  interrupted := false
  complete := .returns
  completeLate := .returns
  afterRun := .returns

/-- A turn that ended as completed is answered as cancelled when its task is
cancelled in the flush behind the end. -/
theorem cancelled_flush_breaks_bracket :
    boundaries (runInput asked (answering .cancelled) "" fresh).2.log =
        [.turnStart (startOf asked "default"),
          .turnEnd (endOf asked .completed "completed" (some finishedRun))] ∧
      ((runInput asked (answering .cancelled) "" fresh).1.toOption.map AgentRunResult.status) =
        some .cancelled ∧
      ¬ Bracketed asked (answering .cancelled) "" := by
  have ended : boundaries (runInput asked (answering .cancelled) "" fresh).2.log =
      [.turnStart (startOf asked "default"),
        .turnEnd (endOf asked .completed "completed" (some finishedRun))] := rfl
  refine ⟨ended, rfl, ?_⟩
  rintro ⟨start, finish, both, _, agrees⟩
  rw [ended] at both
  cases both
  have stated := agrees (ownResult asked .cancelled none) rfl
  exact absurd stated (by decide)

end Execution

end Ftre.Runtime
