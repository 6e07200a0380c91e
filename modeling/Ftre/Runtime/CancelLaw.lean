import Ftre.Runtime.EngineStages
import Ftre.Runtime.TurnTask

/-!
Cancelling the run of a session.
-/

namespace Ftre.Runtime

open Lib

namespace Stage

/-- A run that `is_active_session` is true of: from its reservation to the drop
of its guards. -/
def active : Stage → Bool
  | .admitting _ => true
  | .executing _ => true
  | .completing _ => true
  | _ => false

end Stage

/-- The loop of a session with the task of every run's turn, and what became of
the cancellations. -/
structure CancelRun where
  engine : Engine := .idle
  turns : Nat → TurnTask := fun _ => {}
  status : Nat → Option PublicStatus := fun _ => none
  /-- The run was active when `cancel_session` was called. -/
  cancelled : Nat → Bool := fun _ => false
  /-- It was active when `cancel_session` returned False. -/
  missed : Nat → Bool := fun _ => false
  calledLate : Nat → Bool := fun _ => false

inductive CancelAction where
  /-- `status` is what a run ends with that is not admitted. -/
  | engine (action : Engine.Action) (status : PublicStatus)
  | turn (call : Nat) (move : TurnMove)

namespace CancelRun

def cancelTask (run : CancelRun) : Nat → TurnTask :=
  match run.engine.directTask with
  | some turn => Function.update run.turns turn (run.turns turn).cancel
  | none => run.turns

/-- `cancel_session`, with what it returns. -/
def cancelSession (run : CancelRun) : CancelRun × Bool :=
  ({ run with engine := run.engine.cancelSession, turns := run.cancelTask },
    run.engine.directTask.isSome)

/-- What a call of `cancel_session` meets. -/
def observe (before after : CancelRun) (answer : Bool) : CancelRun :=
  { after with
    cancelled := fun call => before.cancelled call || (before.engine.calls call).active
    missed := fun call =>
      before.missed call || (before.engine.calls call).active && !answer }

/-- A deletion cancels the turn as `cancel_session` does. -/
def deletes (run : CancelRun) (call : Nat) : CancelRun :=
  match run.engine.calls call with
  | .deleting .readingMetadata => { run with turns := run.cancelTask }
  | _ => run

def moveTurn (run : CancelRun) (call : Nat) (move : TurnMove) (entry : Entry) : Option CancelRun :=
  ((run.turns call).step entry move).map fun task =>
    { run with
      turns := Function.update run.turns call task
      calledLate := Function.update run.calledLate call
        (run.calledLate call ||
          run.cancelled call && TurnAwait.calls (run.turns call).place task.place) }

def moveEngine (run : CancelRun) (action : Engine.Action) (status : PublicStatus) :
    Option CancelRun :=
  match action with
  | .cancelSession =>
      let (after, answer) := run.cancelSession
      some (run.observe after answer)
  | .turnEnds call tells =>
      match (run.turns call).place with
      | .returned ended =>
          (run.engine.step (.turnEnds call tells)).map fun engine =>
            { run with engine := engine, status := Function.update run.status call (some ended) }
      | _ => none
  | .admissionStops call tells =>
      (run.engine.step (.admissionStops call tells)).map fun engine =>
        { run with engine := engine, status := Function.update run.status call (some status) }
  | .deletionAdvances call =>
      (run.engine.step (.deletionAdvances call)).map fun engine =>
        { run.deletes call with engine := engine }
  | action => (run.engine.step action).map fun engine => { run with engine := engine }

def step (run : CancelRun) : CancelAction → Option CancelRun
  | .engine action status => run.moveEngine action status
  | .turn call move =>
      match run.engine.calls call with
      | .executing entry => run.moveTurn call move entry
      | _ => none

def system : StepSystem CancelRun CancelAction := ⟨step⟩

/-- No cancellation is ignored. -/
structure CancelLaw (run : CancelRun) : Prop where
  /-- `cancel_session` returns True where a run is active. -/
  answered : ∀ call, run.missed call = false
  silent : ∀ call, run.calledLate call = false
  ended : ∀ call, run.cancelled call = true → (run.engine.calls call).past = true →
    run.status call = some .cancelled

def Reached (run : CancelRun) (call : Nat) : Prop :=
  run.engine.directTask = some call ∧
    ((∃ entry, run.engine.calls call = .executing entry ∧
        ∀ status, (run.turns call).place = .returned status → status = .cancelled) ∨
      ∃ executed, run.engine.calls call = .completing executed ∧
        run.status call = some .cancelled)

/-- A cancellation meets the task of every active run, and a cancelled task does
not lose it. -/
def Heeded (run : CancelRun) : CancelAction → Prop
  | .engine .cancelSession _ =>
      ∀ call, (run.engine.calls call).active = true → run.Reached call
  | .turn call move => run.cancelled call = true → TurnTask.loses move = false
  | _ => True

/-! ### Cancelled runs end cancelled -/

def Bound (run : CancelRun) (call : Nat) : Prop :=
  (∃ entry, run.engine.calls call = .executing entry ∧ (run.turns call).Hears) ∨
    ((run.engine.calls call).past = true ∧ run.status call = some .cancelled)

structure Sound (run : CancelRun) : Prop where
  answered : ∀ call, run.missed call = false
  silent : ∀ call, run.calledLate call = false
  bound : ∀ call, run.cancelled call = true → run.Bound call

variable {run : CancelRun} {call : Nat} {before : CancelRun}

theorem Sound.law (sound : run.Sound) : run.CancelLaw where
  answered := sound.answered
  silent := sound.silent
  ended call cancelled past := by
    rcases sound.bound call cancelled with ⟨entry, executing, _⟩ | ⟨_, status⟩
    · rw [executing] at past
      cases past
    · exact status

private theorem bound_executing {entry : Entry} (bound : run.Bound call)
    (executing : run.engine.calls call = .executing entry) : (run.turns call).Hears := by
  rcases bound with ⟨_, _, hears⟩ | ⟨past, _⟩
  · exact hears
  · rw [executing] at past
    cases past

private theorem sound_turn {before after : CancelRun} {move : TurnMove} {entry : Entry}
    (sound : before.Sound) (executing : before.engine.calls call = .executing entry)
    (kept : before.cancelled call = true → TurnTask.loses move = false)
    (moved : before.moveTurn call move entry = some after) : after.Sound := by
  obtain ⟨task, stepped, rfl⟩ := Option.map_eq_some_iff.mp moved
  have heard : before.cancelled call = true →
      task.Hears ∧ TurnAwait.calls (before.turns call).place task.place = false := fun cancelled =>
    (bound_executing (sound.bound call cancelled) executing).step (kept cancelled) stepped
  refine ⟨sound.answered, fun other => ?_, fun other cancelled => ?_⟩
  · dsimp only
    by_cases same : other = call
    · rw [same, Function.update_self, sound.silent call, Bool.false_or]
      cases cancelled : before.cancelled call with
      | false => rfl
      | true => rw [(heard cancelled).2]; rfl
    · rw [Function.update_of_ne same]
      exact sound.silent other
  · by_cases same : other = call
    · rw [same] at cancelled ⊢
      refine Or.inl ⟨entry, executing, ?_⟩
      dsimp only
      rw [Function.update_self]
      exact (heard cancelled).1
    · rcases sound.bound other cancelled with ⟨own, stands, hears⟩ | returned
      · refine Or.inl ⟨own, stands, ?_⟩
        dsimp only
        rw [Function.update_of_ne same]
        exact hears
      · exact Or.inr returned

private theorem hears_cancelTask (hears : (run.turns call).Hears) :
    (run.cancelTask call).Hears := by
  unfold cancelTask
  cases run.engine.directTask with
  | none => exact hears
  | some turn =>
      dsimp only
      by_cases same : call = turn
      · rw [same, Function.update_self]
        exact (same ▸ hears).cancel
      · rw [Function.update_of_ne same]
        exact hears

private theorem sound_engine {action : Engine.Action} {engine : Engine} {turns : Nat → TurnTask}
    {status : Nat → Option PublicStatus} (sound : before.Sound)
    (stepped : before.engine.step action = some engine)
    (ongoing : ∀ call tells, action ≠ .turnEnds call tells)
    (heard : ∀ call, (before.turns call).Hears → (turns call).Hears)
    (kept : ∀ call, before.Bound call → status call = before.status call) :
    Sound { before with engine := engine, turns := turns, status := status } := by
  refine ⟨sound.answered, sound.silent, fun call cancelled => ?_⟩
  have bound := sound.bound call cancelled
  rcases bound with ⟨entry, executing, hears⟩ | ⟨past, ended⟩
  · rcases Engine.step_executing stepped executing with still | ⟨tells, ends, _⟩
    · exact Or.inl ⟨entry, still, heard call hears⟩
    · exact absurd ends (ongoing call tells)
  · exact Or.inr ⟨Engine.step_past stepped past,
      (kept call (Or.inr ⟨past, ended⟩)).trans ended⟩

private theorem stops_unbound {tells : Bool} {engine : Engine}
    (stepped : before.engine.step (.admissionStops call tells) = some engine)
    (bound : before.Bound call) : False := by
  rcases bound with ⟨entry, executing, _⟩ | ⟨past, _⟩
  · simp only [Engine.step, executing, reduceCtorEq] at stepped
  · cases stands : before.engine.calls call with
    | admitting point =>
        rw [stands] at past
        cases past
    | _ => simp only [Engine.step, stands, reduceCtorEq] at stepped

private theorem sound_turnEnds {tells : Bool} {engine : Engine} {ended : PublicStatus}
    (sound : before.Sound) (stepped : before.engine.step (.turnEnds call tells) = some engine)
    (returned : (before.turns call).place = .returned ended) :
    Sound { before with
      engine := engine, status := Function.update before.status call (some ended) } := by
  refine ⟨sound.answered, sound.silent, fun other cancelled => ?_⟩
  rcases sound.bound other cancelled with ⟨entry, executing, hears⟩ | ⟨past, status⟩
  · rcases Engine.step_executing stepped executing with still | ⟨_, ends, past⟩
    · exact Or.inl ⟨entry, still, hears⟩
    · cases ends
      refine Or.inr ⟨past, ?_⟩
      dsimp only
      rw [Function.update_self, hears.ended returned]
  · refine Or.inr ⟨Engine.step_past stepped past, ?_⟩
    have apart : other ≠ call := by
      rintro rfl
      simp only [Engine.step] at stepped
      split at stepped
      · rename_i stands
        rw [stands] at past
        cases past
      · rename_i stands
        rw [stands] at past
        cases past
      · cases stepped
    dsimp only
    rw [Function.update_of_ne apart]
    exact status

private theorem sound_cancel (sound : before.Sound)
    (reached : ∀ call, (before.engine.calls call).active = true → before.Reached call) :
    Sound (before.observe before.cancelSession.1 before.cancelSession.2) := by
  have stages : before.engine.cancelSession.calls = before.engine.calls := by
    unfold Engine.cancelSession
    split <;> rfl
  refine ⟨fun call => ?_, sound.silent, fun call cancelled => ?_⟩
  · change (before.missed call || (before.engine.calls call).active && !_) = false
    rw [sound.answered call, Bool.false_or]
    cases active : (before.engine.calls call).active with
    | false => rfl
    | true =>
        change (!before.engine.directTask.isSome) = false
        rw [(reached call active).1]
        rfl
  · have heard : before.cancelled call = true ∨ (before.engine.calls call).active = true :=
      (Bool.or_eq_true _ _).mp cancelled
    change (∃ entry, before.engine.cancelSession.calls call = _ ∧ (before.cancelTask call).Hears) ∨
      (before.engine.cancelSession.calls call).past = true ∧ before.status call = _
    rw [stages]
    rcases heard with earlier | active
    · rcases sound.bound call earlier with ⟨entry, executing, hears⟩ | returned
      · exact Or.inl ⟨entry, executing, hears_cancelTask hears⟩
      · exact Or.inr returned
    · obtain ⟨registered, ⟨entry, executing, running⟩ | ⟨executed, completing, status⟩⟩ :=
        reached call active
      · refine Or.inl ⟨entry, executing, ?_⟩
        unfold cancelTask
        rw [registered]
        dsimp only
        rw [Function.update_self]
        exact TurnTask.hears_cancel running
      · rw [completing]
        exact Or.inr ⟨rfl, status⟩

private theorem sound_moveEngine {before after : CancelRun} {action : Engine.Action}
    {status : PublicStatus} (sound : before.Sound)
    (heeded : Heeded before (.engine action status))
    (stepped : before.moveEngine action status = some after) : after.Sound := by
  cases action with
  | cancelSession =>
      cases stepped
      exact sound_cancel sound heeded
  | turnEnds call tells =>
      simp only [moveEngine] at stepped
      split at stepped
      · rename_i ended returned
        obtain ⟨engine, moved, rfl⟩ := Option.map_eq_some_iff.mp stepped
        exact sound_turnEnds sound moved returned
      · cases stepped
  | admissionStops call tells =>
      obtain ⟨engine, moved, rfl⟩ := Option.map_eq_some_iff.mp stepped
      refine sound_engine sound moved nofun (fun _ hears => hears) fun other bound => ?_
      have apart : other ≠ call := by
        rintro rfl
        exact stops_unbound moved bound
      exact Function.update_of_ne apart _ _
  | deletionAdvances call =>
      obtain ⟨engine, moved, rfl⟩ := Option.map_eq_some_iff.mp stepped
      unfold deletes
      split
      · exact @sound_engine before _ engine before.cancelTask before.status sound moved nofun
          (fun _ => hears_cancelTask) fun _ _ => rfl
      · exact sound_engine sound moved nofun (fun _ hears => hears) fun _ _ => rfl
  | _ =>
      obtain ⟨engine, moved, rfl⟩ := Option.map_eq_some_iff.mp stepped
      exact sound_engine sound moved nofun (fun _ hears => hears) fun _ _ => rfl

theorem sound_step {before after : CancelRun} {action : CancelAction} (sound : before.Sound)
    (heeded : Heeded before action) (stepped : system.step before action = some after) :
    after.Sound := by
  cases action with
  | engine action status => exact sound_moveEngine sound heeded stepped
  | turn call move =>
      simp only [system, step] at stepped
      split at stepped
      · rename_i entry executing
        exact sound_turn sound executing heeded stepped
      · cases stepped

/-- In every run whose cancellations meet the task of the run that is active, and
whose cancelled tasks do not lose them, no cancellation is ignored. -/
theorem cancelLaw_of_heeded {run : CancelRun} (reached : system.Reaches Heeded {} run) :
    run.CancelLaw :=
  (reached.invariant ⟨fun _ => rfl, fun _ => rfl, fun _ never => by cases never⟩
    fun _ _ _ sound heeded stepped => sound_step sound heeded stepped).law

private def admitted : List CancelAction :=
  [.engine (.runInput 0) .failed, .engine (.requestStateRead 0 none) .failed,
    .engine (.admissionAdvances 0) .failed, .engine (.admissionAdvances 0) .failed,
    .engine (.admissionAdvances 0) .failed]

private def called : List CancelAction :=
  [.engine (.admissionAdvances 0) .failed, .engine (.admissionAdvances 0) .failed,
    .turn 0 (.resumed .starting), .turn 0 (.resumed .building), .turn 0 (.resumed .reasoning),
    .turn 0 (.resumed .viewing), .turn 0 (.resumed .calling)]

private def completed : List CancelAction :=
  [.turn 0 (.resumed .exiting), .turn 0 (.resumed (.closing .completed)),
    .turn 0 (.resumed (.returned .completed)), .engine (.turnEnds 0 false) .failed]

/-- The session is cancelled in the before-run hook; `cancel_session` returns
False, the model is called and the run completes. -/
theorem cancelled_admission_completes :
    ∃ run, system.Reaches StepSystem.anyStep {} run ∧ run.missed 0 = true ∧
      run.calledLate 0 = true ∧ run.status 0 = some .completed ∧ ¬ run.CancelLaw := by
  have ran : ∃ run, system.run {} (admitted ++ .engine .cancelSession .failed ::
      (called ++ completed)) = some run ∧ run.missed 0 = true ∧ run.calledLate 0 = true ∧
        run.status 0 = some .completed := ⟨_, rfl, rfl, rfl, rfl⟩
  obtain ⟨run, ran, missed, late, status⟩ := ran
  refine ⟨run, StepSystem.reaches_of_run ran, missed, late, status, fun law => ?_⟩
  have answered := law.answered 0
  rw [missed] at answered
  cases answered

private theorem heeded_cancel {entry : Entry} {status : PublicStatus}
    (registered : run.engine.directTask = some call)
    (executing : run.engine.calls call = .executing entry)
    (running : ∀ status, (run.turns call).place ≠ .returned status)
    (alone : ∀ other, other ≠ call → (run.engine.calls other).active = false) :
    Heeded run (.engine .cancelSession status) := by
  intro other active
  by_cases same : other = call
  · rw [same]
    exact ⟨registered, Or.inl ⟨entry, executing, fun status returned => absurd returned (running status)⟩⟩
  · rw [alone other same] at active
    cases active

/-- The session is cancelled during the call of the model. -/
theorem cancelled_call_ends_cancelled :
    ∃ run, system.Reaches Heeded {} run ∧ run.cancelled 0 = true ∧
      run.status 0 = some .cancelled ∧ run.CancelLaw := by
  refine ⟨?final, ?run, ?cancelled, ?status, cancelLaw_of_heeded ?run⟩
  case run =>
    refine .head (.engine (.runInput 0) .failed) trivial rfl ?_
    refine .head (.engine (.requestStateRead 0 none) .failed) trivial rfl ?_
    iterate 5 refine .head (.engine (.admissionAdvances 0) .failed) trivial rfl ?_
    refine .head (.turn 0 (.resumed .starting)) nofun rfl ?_
    refine .head (.turn 0 (.resumed .building)) nofun rfl ?_
    refine .head (.turn 0 (.resumed .reasoning)) nofun rfl ?_
    refine .head (.turn 0 (.resumed .viewing)) nofun rfl ?_
    refine .head (.turn 0 (.resumed .calling)) nofun rfl ?_
    refine .head (.engine .cancelSession .failed) (heeded_cancel rfl rfl nofun fun other apart => by
      cases other with
      | zero => exact absurd rfl apart
      | succ other => rfl) rfl ?_
    refine .head (.turn 0 .thrown) (fun _ => rfl) rfl ?_
    refine .head (.turn 0 (.resumed (.returned .cancelled))) (fun _ => rfl) rfl ?_
    refine .head (.engine (.turnEnds 0 false) .failed) trivial rfl ?_
    exact Relation.ReflTransGen.refl
  case cancelled => rfl
  case status => rfl

end CancelRun

end Ftre.Runtime

