import Ftre.Runtime.Engine

/-!
The stages of the loop's calls. A step of the loop moves one call at most, along
the code of its entry point; the turn of a call leaves its task only with the
turn's end.
-/

namespace Ftre.Runtime

namespace Stage

def past : Stage → Bool
  | .completing _ => true
  | .afterRun _ _ _ => true
  | .finished _ => true
  | _ => false

def follows : Stage → Stage → Bool
  | .absent, .requestState => true
  | .absent, .resolving _ => true
  | .absent, .deleting _ => true
  | .absent, .finished _ => true
  | .requestState, .admitting _ => true
  | .requestState, .finished _ => true
  | .admitting _, .admitting _ => true
  | .admitting _, .executing .input => true
  | .admitting _, .completing false => true
  | .admitting _, .finished .notAdmitted => true
  | .resolving _, .resolving _ => true
  | .resolving _, .executing .confirmation => true
  | .resolving _, .finished .notAdmitted => true
  | .executing .input, .completing true => true
  | .executing .input, .afterRun .input _ _ => true
  | .executing .confirmation, .afterRun .confirmation _ _ => true
  | .completing _, .afterRun .input _ _ => true
  | .completing _, .finished .notAdmitted => true
  | .afterRun .input _ _, .afterRun .input _ _ => true
  | .afterRun .confirmation _ _, .afterRun .confirmation _ _ => true
  | .afterRun _ _ _, .finished .ran => true
  | .afterRun _ _ _, .finished .interrupted => true
  | .deleting _, .deleting _ => true
  | .deleting _, .finished .deleted => true
  | _, _ => false

theorem past_of_follows {before after : Stage} (follows : before.follows after = true)
    (past : before.past = true) : after.past = true := by
  unfold Stage.follows at follows
  split at follows <;> first | rfl | cases past | cases follows

theorem past_of_executing {entry : Entry} {after : Stage}
    (follows : (Stage.executing entry).follows after = true) : after.past = true := by
  cases entry <;> cases after <;> first | rfl | cases follows

theorem follows_absent (stage : Stage) : stage.follows .absent = false := by
  cases stage with
  | executing entry => cases entry <;> rfl
  | afterRun entry since point => cases entry <;> rfl
  | _ => rfl

end Stage

namespace Engine

def callOf : Action → Option Nat
  | .runInput call => some call
  | .requestStateRead call _ => some call
  | .admissionAdvances call => some call
  | .admissionStops call _ => some call
  | .turnEnds call _ => some call
  | .waitersTold call => some call
  | .resumeConfirmation call _ => some call
  | .resolutionAdvances call => some call
  | .resolutionFails call => some call
  | .hookReached call _ => some call
  | .hookAnswered call _ => some call
  | .hookResumed call _ => some call
  | .hookRechecked call => some call
  | .hookLeft call => some call
  | .hookInterrupted call => some call
  | .hookCancelled call => some call
  | .deleteSession call => some call
  | .deletionAdvances call => some call
  | _ => none

structure StageStep (action : Action) (before after : Nat → Stage) (call : Nat) (stage : Stage) :
    Prop where
  named : callOf action = some call
  moved : after = Function.update before call stage
  follows : (before call).follows stage = true
  ends : ∀ entry, before call = .executing entry → ∃ tells, action = .turnEnds call tells

def StageMove (action : Action) (before after : Nat → Stage) : Prop :=
  after = before ∨ ∃ call stage, StageStep action before after call stage

variable {action : Action} {before after : Engine} {call : Nat}

private theorem moves {stage : Stage} (stands : before.calls call = stage) (next : Stage)
    (named : callOf action = some call)
    (moved : after.calls = Function.update before.calls call next)
    (follows : stage.follows next = true) (idle : ∀ entry, stage ≠ .executing entry) :
    StageMove action before.calls after.calls := by
  rw [← stands] at follows idle
  exact Or.inr ⟨call, next, named, moved, follows, fun entry executing =>
    absurd executing (idle entry)⟩

private theorem hook_follows (entry : Entry) (since later : Nat) (point next : HookPoint) :
    (Stage.afterRun entry since point).follows (.afterRun entry later next) = true := by
  cases entry <;> rfl

private theorem turn_moves {tells : Bool} {stage : Stage} (stands : before.calls call = stage)
    (next : Stage) (moved : after.calls = Function.update before.calls call next)
    (follows : stage.follows next = true) :
    StageMove (.turnEnds call tells) before.calls after.calls := by
  rw [← stands] at follows
  exact Or.inr ⟨call, next, rfl, moved, follows, fun _ _ => ⟨tells, rfl⟩⟩

private theorem create_calls (engine : Engine) :
    engine.getOrCreateCompactTask.1.calls = engine.calls := by
  unfold getOrCreateCompactTask
  split <;> rfl

private theorem cancel_calls (engine : Engine) : engine.cancelSession.calls = engine.calls := by
  unfold cancelSession
  split <;> rfl

theorem step_stages (stepped : before.step action = some after) :
    StageMove action before.calls after.calls := by
  cases action with
  | runInput call =>
      simp only [step] at stepped
      split at stepped
      · rename_i stands
        cases stepped
        exact moves stands _ rfl rfl rfl nofun
      · cases stepped
  | requestStateRead call duplicate =>
      simp only [step] at stepped
      split at stepped
      · rename_i stands
        cases stepped
        unfold checkInput
        repeat' split
        all_goals exact moves stands _ rfl rfl rfl nofun
      · cases stepped
  | admissionAdvances call =>
      simp only [step] at stepped
      split at stepped
      · rename_i stands
        cases stepped
        unfold admitInput
        split <;> exact moves stands _ rfl rfl rfl nofun
      · cases stepped
  | admissionStops call tells =>
      simp only [step] at stepped
      split at stepped
      · rename_i stands
        split at stepped <;> cases stepped <;> exact moves stands _ rfl rfl rfl nofun
      · cases stepped
  | turnEnds call tells =>
      simp only [step] at stepped
      split at stepped
      · rename_i stands
        split at stepped <;> cases stepped <;> exact turn_moves stands _ rfl rfl
      · rename_i stands
        cases stepped
        exact turn_moves stands _ rfl rfl
      · cases stepped
  | waitersTold call =>
      simp only [step] at stepped
      split at stepped
      · rename_i stands
        cases stepped
        unfold releaseInput
        dsimp only
        split <;> exact moves stands _ rfl rfl rfl nofun
      · cases stepped
  | resumeConfirmation call hasEvents =>
      simp only [step] at stepped
      split at stepped
      · rename_i stands
        cases stepped
        unfold checkConfirmation
        repeat' split
        all_goals exact moves stands _ rfl rfl rfl nofun
      · cases stepped
  | resolutionAdvances call =>
      simp only [step] at stepped
      split at stepped
      · rename_i point stands
        cases stepped
        cases point <;> exact moves stands _ rfl rfl rfl nofun
      · cases stepped
  | resolutionFails call =>
      simp only [step] at stepped
      split at stepped
      · rename_i stands
        cases stepped
        exact moves stands _ rfl rfl rfl nofun
      · cases stepped
  | hookReached call configured =>
      simp only [step] at stepped
      split at stepped
      · rename_i stands
        split at stepped <;> cases stepped <;> exact moves stands _ rfl rfl (hook_follows ..) nofun
      · cases stepped
  | hookAnswered call needed =>
      simp only [step] at stepped
      split at stepped
      · rename_i entry since stands
        split at stepped
        · cases stepped
          refine moves stands (.afterRun entry since
            (.compacting { before with maintenance := true }.getOrCreateCompactTask.2)) rfl ?_
            (hook_follows ..) nofun
          exact congrArg (Function.update · call _) (create_calls _)
        · cases stepped
          exact moves stands _ rfl rfl (hook_follows ..) nofun
      · cases stepped
  | hookResumed call failed =>
      simp only [step] at stepped
      split at stepped
      · rename_i stands
        split at stepped
        · cases stepped
        · split at stepped <;> cases stepped <;> exact moves stands _ rfl rfl (hook_follows ..) nofun
      · cases stepped
  | hookRechecked call =>
      simp only [step] at stepped
      split at stepped
      · rename_i stands
        cases stepped
        exact moves stands _ rfl rfl (hook_follows ..) nofun
      · cases stepped
  | hookLeft call =>
      simp only [step] at stepped
      split at stepped
      · rename_i entry _ stands
        cases stepped
        cases entry <;> exact moves stands _ rfl rfl rfl nofun
      · cases stepped
  | hookInterrupted call =>
      simp only [step] at stepped
      split at stepped
      · rename_i entry _ point stands
        cases stepped
        cases entry <;> cases point <;> exact moves stands _ rfl rfl rfl nofun
      · cases stepped
  | hookCancelled call =>
      simp only [step] at stepped
      split at stepped
      · rename_i entry _ _ stands
        obtain ⟨_, same⟩ := Option.ite_none_left_eq_some.mp stepped
        cases same
        cases entry <;> exact moves stands _ rfl rfl rfl nofun
      · cases stepped
  | gateOpened gate =>
      simp only [step] at stepped
      split at stepped
      · cases stepped
        exact Or.inl rfl
      · cases stepped
  | gateAnswered gate needed =>
      simp only [step] at stepped
      split at stepped
      · split at stepped <;> cases stepped
        · exact Or.inl (create_calls before)
        · exact Or.inl rfl
      · cases stepped
  | gateResumed gate =>
      simp only [step] at stepped
      split at stepped
      · obtain ⟨_, same⟩ := Option.ite_none_left_eq_some.mp stepped
        cases same
        exact Or.inl rfl
      · cases stepped
  | gateInterrupted gate =>
      simp only [step] at stepped
      split at stepped
      · cases stepped
      · cases stepped
        exact Or.inl rfl
  | compactTaskEnds =>
      simp only [step] at stepped
      split at stepped <;> cases stepped
      exact Or.inl rfl
  | cancelSession =>
      cases stepped
      exact Or.inl (cancel_calls before)
  | deleteSession call =>
      simp only [step] at stepped
      split at stepped
      · rename_i stands
        cases stepped
        exact moves stands _ rfl rfl rfl nofun
      · cases stepped
  | deletionAdvances call =>
      simp only [step] at stepped
      split at stepped
      · rename_i point stands
        cases point with
        | readingMetadata =>
            simp only [deletion] at stepped
            split at stepped <;> cases stepped
            · rename_i turn _
              refine moves stands (.deleting (.awaitingTask turn)) rfl ?_ rfl nofun
              exact congrArg (Function.update · call _) (cancel_calls before)
            · exact moves stands _ rfl rfl rfl nofun
        | awaitingTask turn =>
            simp only [deletion] at stepped
            split at stepped <;> cases stepped <;> exact moves stands _ rfl rfl rfl nofun
        | awaitingCompletion run =>
            simp only [deletion] at stepped
            obtain ⟨_, same⟩ := Option.ite_none_right_eq_some.mp stepped
            cases same
            exact moves stands _ rfl rfl rfl nofun
        | removing =>
            cases stepped
            exact moves stands _ rfl rfl rfl nofun
      · cases stepped


theorem step_frame (stepped : before.step action = some after) (apart : callOf action ≠ some call) :
    after.calls call = before.calls call := by
  rcases step_stages stepped with same | ⟨other, stage, moves⟩
  · rw [same]
  · have different : call ≠ other := by
      rintro rfl
      exact apart moves.named
    rw [moves.moved, Function.update_of_ne different]

theorem step_follows (stepped : before.step action = some after) :
    after.calls call = before.calls call ∨
      callOf action = some call ∧ (before.calls call).follows (after.calls call) = true := by
  rcases step_stages stepped with same | ⟨other, stage, moves⟩
  · rw [same]
    exact Or.inl rfl
  · by_cases same : call = other
    · rw [moves.moved, same, Function.update_self]
      exact Or.inr ⟨moves.named, moves.follows⟩
    · rw [moves.moved, Function.update_of_ne same]
      exact Or.inl rfl

theorem step_past (stepped : before.step action = some after)
    (past : (before.calls call).past = true) : (after.calls call).past = true := by
  rcases @step_follows _ _ _ call stepped with same | ⟨_, follows⟩
  · rw [same]
    exact past
  · exact Stage.past_of_follows follows past

theorem step_executing {entry : Entry} (stepped : before.step action = some after)
    (executing : before.calls call = .executing entry) :
    after.calls call = .executing entry ∨
      ∃ tells, action = .turnEnds call tells ∧ (after.calls call).past = true := by
  rcases step_stages stepped with same | ⟨other, stage, moves⟩
  · rw [same]
    exact Or.inl executing
  · rw [moves.moved]
    by_cases same : call = other
    · subst same
      obtain ⟨tells, ended⟩ := moves.ends entry executing
      have follows := moves.follows
      rw [executing] at follows
      rw [Function.update_self]
      exact Or.inr ⟨tells, ended, Stage.past_of_executing follows⟩
    · rw [Function.update_of_ne same]
      exact Or.inl executing

end Engine

end Ftre.Runtime
