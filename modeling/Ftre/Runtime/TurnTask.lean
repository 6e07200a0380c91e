import Ftre.Runtime.Engine
import Ftre.Runtime.TurnExecution

/-!
The task of a turn under its cancellation.
-/

namespace Ftre.Runtime

inductive YieldPoint where
  | hinted
  | responding
  | retried
  | started (resumed : Bool)
  | asked (resumed : Bool)
  | recorded (resumed cancelled : Bool)
  | refused
  | wentOn
deriving DecidableEq, Repr

inductive TurnAwait where
  /-- The task is made and did not run yet. -/
  | created
  | starting
  | building
  | reasoning
  | appending (yielded : YieldPoint)
  | viewing
  | calling
  | failing
  | backingOff
  | executing (resumed : Bool)
  | settling (resumed : Bool)
  | exiting
  | recovering
  | refreshing
  | retrying
  | closing (outcome : TurnOutcome)
  | returned (status : PublicStatus)
deriving DecidableEq, Repr

namespace TurnAwait

/-- `_dispatch_before_reasoning` raises in a cancelled turn. -/
def reason (signal : Bool) : TurnAwait := if signal then .closing .cancelled else .reasoning

def iterate (signal : Bool) : List TurnAwait := [.closing .completed, reason signal]

def refuse (signal : Bool) : List TurnAwait := .appending .refused :: iterate signal

/-- `run` of the agent: it may raise before the loop; a confirmation may leave
other calls asking, or resume. -/
def enter (signal : Bool) : Entry → List TurnAwait
  | .input => .recovering :: iterate signal
  | .confirmation => [.recovering, .closing .paused, .appending (.started true)] ++ refuse signal

def decided (signal : Bool) : List TurnAwait :=
  [.appending (.started false), .exiting, .recovering, reason signal]

def afterBatch (signal resumed : Bool) : Bool → List TurnAwait
  | true => [if resumed then .recovering else .closing .cancelled]
  | false => if resumed then refuse signal else iterate signal

def appended (signal : Bool) : YieldPoint → List TurnAwait
  | .hinted => [.viewing]
  | .responding => [.calling]
  | .retried => [.backingOff]
  | .started resumed => [.appending (.started resumed), .executing resumed]
  | .asked resumed =>
      .appending (.asked resumed) :: if resumed then refuse signal else [.closing .paused]
  | .recorded resumed cancelled =>
      .appending (.recorded resumed cancelled) :: afterBatch signal resumed cancelled
  | .refused => refuse signal
  | .wentOn => iterate signal

def statusOf : TurnOutcome → PublicStatus
  | .error => .failed
  | .cancelled => .cancelled
  | .paused => .completed
  | .completed => .completed

def next (entry : Entry) (signal : Bool) : TurnAwait → List TurnAwait
  | .created => [.starting]
  | .starting => [.building, .returned .failed]
  | .building => .closing .error :: enter signal entry
  | .reasoning => if signal then [.closing .cancelled] else [.appending .hinted, .viewing, .recovering]
  | .appending yielded => .recovering :: appended signal yielded
  | .viewing => [.calling, .recovering]
  | .calling => [.appending .responding, .failing] ++ decided signal
  | .failing => [.appending .retried, .recovering]
  | .backingOff => [.calling]
  | .executing resumed =>
      [.appending (.asked resumed), .appending (.recorded resumed false),
        .appending (.recorded resumed true)]
  | .settling resumed => [.appending (.asked resumed), .appending (.recorded resumed true)]
  | .exiting => [.closing .completed, .appending .wentOn, .recovering]
  | .recovering => .closing .error :: if signal then [] else [.refreshing]
  | .refreshing => [.retrying]
  | .retrying => [.recovering, .closing .error] ++ enter signal entry
  | .closing outcome => [.closing outcome, .returned (statusOf outcome)]
  | .returned _ => []

def thrown : TurnAwait → TurnAwait
  | .created => .returned .cancelled
  | .starting => .returned .cancelled
  | .executing resumed => .settling resumed
  | .closing _ => .returned .cancelled
  | .returned status => .returned status
  | _ => .closing .cancelled

def calls (before after : TurnAwait) : Bool :=
  decide (after = .calling ∧ (before = .viewing ∨ before = .backingOff))

end TurnAwait

/-- `signal` is the turn's cancellation event; `pending` says that a cancellation
of the task is to be thrown. -/
structure TurnTask where
  place : TurnAwait := .created
  signal : Bool := false
  pending : Bool := false

inductive TurnMove where
  | resumed (place : TurnAwait)
  | thrown
deriving DecidableEq

namespace TurnTask

def isDone (task : TurnTask) : Bool :=
  match task.place with
  | .returned _ => true
  | _ => false

def cancel (task : TurnTask) : TurnTask :=
  { task with signal := true, pending := task.pending || !task.isDone }

def step (entry : Entry) (task : TurnTask) : TurnMove → Option TurnTask
  | .resumed place =>
      if task.pending then none
      else if place ∈ task.place.next entry task.signal then some { task with place := place }
      else none
  | .thrown =>
      if task.pending then some { task with place := task.place.thrown, pending := false }
      else none

def loses : TurnMove → Bool
  | .resumed .recovering => true
  | .resumed (.appending (.asked false)) => true
  | .resumed (.appending (.recorded true true)) => true
  | .resumed (.closing .completed) => true
  | _ => false

/-! ### A cancellation that is heard -/

def yielding : TurnAwait → Bool
  | .settling _ => true
  | .appending (.asked true) => true
  | .appending (.recorded false true) => true
  | .appending .refused => true
  | .closing .cancelled => true
  | .returned .cancelled => true
  | _ => false

structure Hears (task : TurnTask) : Prop where
  signalled : task.signal = true
  bound : task.pending = true ∧ task.isDone = false ∨ yielding task.place = true

theorem hears_cancel {task : TurnTask}
    (open' : ∀ status, task.place = .returned status → status = .cancelled) : task.cancel.Hears where
  signalled := rfl
  bound := by
    cases place : task.place with
    | returned status =>
        right
        change yielding task.place = true
        rw [place, open' status place]
        rfl
    | _ =>
        left
        have running : task.isDone = false := by
          unfold isDone
          rw [place]
        exact ⟨by unfold cancel; rw [running, Bool.not_false, Bool.or_true], running⟩

theorem Hears.cancel {task : TurnTask} (hears : task.Hears) : task.cancel.Hears := by
  refine hears_cancel fun status ended => ?_
  rcases hears.bound with ⟨_, running⟩ | yields
  · unfold isDone at running
    rw [ended] at running
    cases running
  · rw [ended] at yields
    cases status with
    | cancelled => rfl
    | _ => cases yields

private theorem yielding_refuse {after : TurnAwait} (kept : loses (.resumed after) = false)
    (follows : after ∈ TurnAwait.refuse true) : yielding after = true := by
  unfold TurnAwait.refuse TurnAwait.iterate TurnAwait.reason at follows
  rw [List.mem_cons, List.mem_cons, List.mem_singleton] at follows
  rcases follows with rfl | rfl | rfl
  · rfl
  · cases kept
  · rfl

private theorem yielding_appended {yielded : YieldPoint} {after : TurnAwait}
    (yields : yielding (.appending yielded) = true) (kept : loses (.resumed after) = false)
    (follows : after ∈ TurnAwait.appended true yielded) : yielding after = true := by
  cases yielded with
  | asked resumed =>
      cases resumed with
      | false => cases yields
      | true =>
          rcases List.mem_cons.mp follows with rfl | later
          · rfl
          · exact yielding_refuse kept later
  | recorded resumed cancelled =>
      cases resumed with
      | true => cases cancelled <;> cases yields
      | false =>
          cases cancelled with
          | false => cases yields
          | true =>
              rcases List.mem_cons.mp follows with rfl | ended
              · rfl
              · rw [List.mem_singleton.mp ended]
                rfl
  | refused => exact yielding_refuse kept follows
  | _ => cases yields

private theorem yielding_next {entry : Entry} {before after : TurnAwait}
    (yields : yielding before = true) (kept : loses (.resumed after) = false)
    (follows : after ∈ before.next entry true) : yielding after = true := by
  cases before with
  | settling resumed =>
      unfold TurnAwait.next at follows
      rw [List.mem_cons, List.mem_singleton] at follows
      rcases follows with rfl | rfl
      · cases resumed with
        | false => cases kept
        | true => rfl
      · cases resumed with
        | false => rfl
        | true => cases kept
  | appending yielded =>
      rcases List.mem_cons.mp follows with rfl | later
      · cases kept
      · exact yielding_appended yields kept later
  | closing outcome =>
      cases outcome with
      | cancelled =>
          unfold TurnAwait.next at follows
          rw [List.mem_cons, List.mem_singleton] at follows
          rcases follows with rfl | rfl <;> rfl
      | _ => cases yields
  | returned status => cases follows
  | _ => cases yields

private theorem yielding_thrown {before : TurnAwait}
    (running : ∀ status, before ≠ .returned status) :
    yielding before.thrown = true := by
  cases before with
  | returned status => exact absurd rfl (running status)
  | _ => rfl

theorem Hears.step {entry : Entry} {before after : TurnTask} {move : TurnMove}
    (hears : before.Hears) (kept : loses move = false)
    (stepped : before.step entry move = some after) :
    after.Hears ∧ TurnAwait.calls before.place after.place = false := by
  cases move with
  | resumed place =>
      simp only [TurnTask.step] at stepped
      split at stepped
      · cases stepped
      · rename_i idle
        obtain ⟨follows, same⟩ := Option.ite_none_right_eq_some.mp stepped
        cases same
        have yields := hears.bound.resolve_left fun bound => idle bound.1
        rw [hears.signalled] at follows
        have again := yielding_next yields kept follows
        refine ⟨⟨hears.signalled, Or.inr again⟩, ?_⟩
        refine decide_eq_false fun called => ?_
        change place = .calling ∧ _ at called
        rw [called.1] at again
        cases again
  | thrown =>
      obtain ⟨pending, same⟩ := Option.ite_none_right_eq_some.mp stepped
      cases same
      have yields : yielding before.place.thrown = true := by
        rcases hears.bound with ⟨_, running⟩ | yields
        · refine yielding_thrown fun status ended => ?_
          unfold isDone at running
          rw [ended] at running
          cases running
        · cases place : before.place with
          | returned status =>
              rw [place] at yields
              exact yields
          | _ => rfl
      refine ⟨⟨hears.signalled, Or.inr yields⟩, ?_⟩
      refine decide_eq_false fun called => ?_
      change before.place.thrown = .calling ∧ _ at called
      rw [called.1] at yields
      cases yields

theorem Hears.ended {task : TurnTask} {status : PublicStatus} (hears : task.Hears)
    (returned : task.place = .returned status) : status = .cancelled := by
  rcases hears.bound with ⟨_, running⟩ | yields
  · unfold isDone at running
    rw [returned] at running
    cases running
  · rw [returned] at yields
    cases status with
    | cancelled => rfl
    | _ => cases yields

end TurnTask

end Ftre.Runtime
