import Ftre.Runtime.Engine

/-!
The agent loop moves a session's occupancy.
-/

namespace Ftre.Runtime

open Lib Lib.Parties

namespace Engine

def view (engine : Engine) : Occupancy where
  standings call := (engine.calls call).standing
  reserved := engine.directReservation
  registered := engine.directTask.isSome
  maintenance := engine.maintenance
  compacting := engine.isCompacting
  inputsAdmitted := engine.inputsAdmitted

def moveOf (engine : Engine) : Action → Move
  | .requestStateRead call duplicate =>
      if duplicate.isSome || engine.isActiveSession then .rest else .admits call
  | .admissionAdvances call =>
      match engine.calls call with
      | .admitting .persisting => .registersInput call
      | _ => .rest
  | .admissionStops call tells => if tells then .rest else .quits call
  | .turnEnds call tells =>
      match engine.calls call with
      | .executing .confirmation => .dropsConfirmation call
      | _ => if tells then .rest else .dropsInput call
  | .waitersTold call =>
      match engine.calls call with
      | .completing true => .dropsInput call
      | _ => .quits call
  | .resumeConfirmation call hasEvents =>
      if !hasEvents || engine.isActiveSession then .rest else .passesCheck call
  | .resolutionAdvances call =>
      match engine.calls call with
      | .resolving .resolvingAgent => .registersConfirmation call
      | _ => .rest
  | .resolutionFails call => .abandons call
  | .hookAnswered call needed =>
      match engine.calls call with
      | .afterRun _ since _ => if needed then .marks call since else .rest
      | _ => .rest
  | .hookResumed call failed =>
      match engine.calls call with
      | .afterRun _ since _ => if failed then .unmarks call since else .rest
      | _ => .rest
  | .hookRechecked call =>
      match engine.calls call with
      | .afterRun _ since _ => .unmarks call since
      | _ => .rest
  | .hookLeft call =>
      match engine.calls call with
      | .afterRun .input since _ => .closes call since
      | .afterRun .confirmation since _ => .leaves call since
      | _ => .rest
  | .hookInterrupted call =>
      match engine.calls call with
      | .afterRun _ since (.cancelling _) => .breaksOff call since
      | .afterRun _ since point => if point.marked then .rest else .leaves call since
      | _ => .rest
  | .hookCancelled call =>
      match engine.calls call with
      | .afterRun _ since _ => .breaksOff call since
      | _ => .rest
  | .gateAnswered _ needed => if needed then .compacts else .rest
  | .compactTaskEnds => .compactionEnds
  | _ => .rest

variable (engine : Engine)

theorem active_view : engine.view.active = engine.isActiveSession := by
  unfold Occupancy.active Occupancy.running isActiveSession isSessionRunning view
  cases engine.directTask.isSome <;> cases engine.directReservation <;> rfl

theorem view_setStage (call : Nat) (stage : Stage) :
    (engine.setStage call stage).view = engine.view.move call stage.standing := by
  have standings : (engine.setStage call stage).view.standings =
      Function.update engine.view.standings call stage.standing := by
    funext other
    exact Function.apply_update (fun _ => Stage.standing) engine.calls call stage other
  unfold Occupancy.move
  rw [← standings]
  rfl

theorem view_setStage_same {engine : Engine} {call : Nat} {stands stage : Stage}
    (stood : engine.calls call = stands) (same : stands.standing = stage.standing) :
    (engine.setStage call stage).view = engine.view := by
  have unmoved : stage.standing = engine.view.standings call := by
    rw [← same, ← stood]
    rfl
  rw [view_setStage, unmoved]
  unfold Occupancy.move
  rw [Function.update_eq_self]

theorem view_getOrCreateCompactTask :
    engine.getOrCreateCompactTask.1.view = { engine.view with compacting := true } := by
  unfold getOrCreateCompactTask
  cases task : engine.compactTask with
  | none => rfl
  | some number =>
      have compacting : engine.view.compacting = true := by
        unfold view isCompacting
        rw [task]
        rfl
      rw [← compacting]

theorem view_cancelSession : engine.cancelSession.view = engine.view := by
  unfold cancelSession
  split <;> rfl

theorem view_finishInput (call : Nat) (outcome : Outcome) :
    (engine.finishInput call outcome).view =
      { engine.view with maintenance := false }.move call .outside := by
  cases outcome <;> exact view_setStage _ call _

/-! ### Every step is a move -/

def Refines (before : Engine) (action : Action) (after : Engine) : Prop :=
  (before.moveOf action).Enabled before.view ∧ after.view = (before.moveOf action).apply before.view

variable {before after : Engine} {action : Action}

private theorem refines_rest (rests : before.moveOf action = .rest)
    (same : after.view = before.view) : Refines before action after := by
  unfold Refines
  rw [rests]
  exact ⟨trivial, same⟩

private theorem refines_move (move : Move) (moves : before.moveOf action = move)
    (enabled : move.Enabled before.view) (applied : after.view = move.apply before.view) :
    Refines before action after := by
  unfold Refines
  rw [moves]
  exact ⟨enabled, applied⟩

private theorem standing_eq {engine : Engine} {call : Nat} {stage : Stage}
    (stands : engine.calls call = stage) : engine.view.standings call = stage.standing :=
  congrArg Stage.standing stands

private theorem refines_requestStateRead (call : Nat) (duplicate : Option String)
    (stands : engine.calls call = .requestState) :
    Refines engine (.requestStateRead call duplicate) (engine.checkInput call duplicate) := by
  unfold checkInput
  cases duplicate with
  | some state => exact refines_rest rfl (view_setStage_same stands rfl)
  | none =>
      dsimp only
      by_cases active : engine.isActiveSession = true
      · rw [if_pos active]
        apply refines_rest
        · exact if_pos active
        · exact view_setStage_same stands rfl
      · rw [if_neg active]
        apply refines_move (.admits call)
        · exact if_neg active
        · refine ⟨standing_eq stands, ?_⟩
          rw [active_view]
          exact Bool.eq_false_iff.mpr active
        · exact view_setStage _ call _

private theorem refines_releaseInput (call : Nat) (executed : Bool)
    (owning : (engine.calls call).standing = .owning)
    (moves : engine.moveOf action = if executed then .dropsInput call else .quits call) :
    Refines engine action (engine.releaseInput call executed) := by
  cases executed with
  | true => exact refines_move (.dropsInput call) moves owning (view_setStage _ call _)
  | false => exact refines_move (.quits call) moves owning (view_finishInput _ call _)

private theorem refines_admit (call : Nat) (point : AdmissionPoint)
    (stands : engine.calls call = .admitting point) :
    Refines engine (.admissionAdvances call) (engine.admitInput call point) := by
  unfold admitInput
  cases point with
  | persisting =>
      apply refines_move (.registersInput call)
      · simp only [moveOf, stands]
      · exact standing_eq stands
      · let registered := { engine with directTask := some call }
        have stays : (registered.setStage call (.executing .input)).view = registered.view :=
          view_setStage_same stands rfl
        exact stays
  | _ =>
      apply refines_rest
      · simp only [moveOf, stands]
      · exact view_setStage_same stands rfl

private theorem refines_checkConfirmation (call : Nat) (hasEvents : Bool)
    (stands : engine.calls call = .absent) :
    Refines engine (.resumeConfirmation call hasEvents)
      (engine.checkConfirmation call hasEvents) := by
  unfold checkConfirmation
  cases hasEvents with
  | false => exact refines_rest rfl (view_setStage_same stands rfl)
  | true =>
      by_cases active : engine.isActiveSession = true
      · rw [if_neg (by decide), if_pos active]
        apply refines_rest
        · exact if_pos active
        · exact view_setStage_same stands rfl
      · rw [if_neg (by decide), if_neg active]
        apply refines_move (.passesCheck call)
        · exact if_neg active
        · refine ⟨standing_eq stands, ?_⟩
          rw [active_view]
          exact Bool.eq_false_iff.mpr active
        · exact view_setStage _ call _

private theorem refines_resolve (call : Nat) (point : ResolutionPoint)
    (stands : engine.calls call = .resolving point) :
    Refines engine (.resolutionAdvances call) (engine.resolve call point) := by
  cases point with
  | resolvingConfig =>
      apply refines_rest
      · simp only [moveOf, stands]
      · exact view_setStage_same stands rfl
  | resolvingAgent =>
      apply refines_move (.registersConfirmation call)
      · simp only [moveOf, stands]
      · exact standing_eq stands
      · exact view_setStage _ call _

private theorem view_startHookCompaction (call : Nat) (entry : Entry) (since : Nat) :
    (engine.startHookCompaction call entry since).view =
      { engine.view with maintenance := true, compacting := true }.move call
        (.maintaining since) := by
  unfold startHookCompaction
  rw [view_setStage, view_getOrCreateCompactTask]
  rfl

private theorem refines_interruptHook (call : Nat) (entry : Entry) (since : Nat) (point : HookPoint)
    (stands : engine.calls call = .afterRun entry since point) :
    Refines engine (.hookInterrupted call) (engine.interruptHook call entry since point) := by
  cases point with
  | compacting task =>
      apply refines_rest
      · simp only [moveOf, stands, HookPoint.marked, if_true]
      · exact view_setStage_same stands rfl
  | rechecking =>
      apply refines_rest
      · simp only [moveOf, stands, HookPoint.marked, if_true]
      · exact view_setStage_same stands rfl
  | cancelling task =>
      apply refines_move (.breaksOff call since)
      · simp only [moveOf, stands]
      · exact standing_eq stands
      · exact view_setStage _ call _
  | _ =>
      apply refines_move (.leaves call since)
      · simp only [moveOf, stands, HookPoint.marked, Bool.false_eq_true, if_false]
      · exact standing_eq stands
      · exact view_setStage _ call _

private theorem refines_deletion (engine : Engine) (call : Nat) (point : DeletionPoint)
    {after : Engine} (stands : engine.calls call = .deleting point)
    (moved : engine.deletion call point = some after) :
    Refines engine (.deletionAdvances call) after := by
  apply refines_rest rfl
  unfold deletion at moved
  split at moved
  · split at moved
    · cases moved
      have stood : engine.cancelSession.calls call = .deleting .readingMetadata := by
        unfold cancelSession
        split <;> exact stands
      rw [← view_cancelSession engine]
      exact view_setStage_same stood rfl
    · cases moved
      exact view_setStage_same stands rfl
  · split at moved
    · cases moved
    · cases moved
      exact view_setStage_same stands rfl
    · cases moved
      exact view_setStage_same stands rfl
  · split at moved
    · cases moved
      exact view_setStage_same stands rfl
    · cases moved
  · cases moved
    exact view_setStage_same stands rfl

theorem step_refines (stepped : system.step before action = some after) :
    Refines before action after := by
  change before.step action = some after at stepped
  cases action with
  | runInput call =>
      dsimp only [step] at stepped
      split at stepped
      next stands =>
        cases stepped
        exact refines_rest rfl (view_setStage_same stands rfl)
      next => cases stepped
  | requestStateRead call duplicate =>
      dsimp only [step] at stepped
      split at stepped
      next stands =>
        cases stepped
        exact refines_requestStateRead before call duplicate stands
      next => cases stepped
  | admissionAdvances call =>
      dsimp only [step] at stepped
      split at stepped
      next point stands =>
        cases stepped
        exact refines_admit before call point stands
      next => cases stepped
  | admissionStops call tells =>
      dsimp only [step] at stepped
      split at stepped
      next point stands =>
        cases tells with
        | true =>
            cases stepped
            exact refines_rest rfl (view_setStage_same stands rfl)
        | false =>
            cases stepped
            exact refines_releaseInput before call false (congrArg Stage.standing stands) rfl
      next => cases stepped
  | turnEnds call tells =>
      dsimp only [step] at stepped
      split at stepped
      next stands =>
        cases tells with
        | true =>
            cases stepped
            apply refines_rest
            · simp only [moveOf, stands, if_true]
            · exact view_setStage_same stands rfl
        | false =>
            cases stepped
            apply refines_releaseInput before call true (congrArg Stage.standing stands)
            simp only [moveOf, stands, Bool.false_eq_true, if_false, if_true]
      next stands =>
        cases stepped
        apply refines_move (.dropsConfirmation call)
        · simp only [moveOf, stands]
        · exact standing_eq stands
        · exact view_setStage _ call _
      next => cases stepped
  | waitersTold call =>
      dsimp only [step] at stepped
      split at stepped
      next executed stands =>
        cases stepped
        apply refines_releaseInput before call executed (congrArg Stage.standing stands)
        cases executed <;> simp only [moveOf, stands, Bool.false_eq_true, if_false, if_true]
      next => cases stepped
  | resumeConfirmation call hasEvents =>
      dsimp only [step] at stepped
      split at stepped
      next stands =>
        cases stepped
        exact refines_checkConfirmation before call hasEvents stands
      next => cases stepped
  | resolutionAdvances call =>
      dsimp only [step] at stepped
      split at stepped
      next point stands =>
        cases stepped
        exact refines_resolve before call point stands
      next => cases stepped
  | resolutionFails call =>
      dsimp only [step] at stepped
      split at stepped
      next point stands =>
        cases stepped
        exact refines_move (.abandons call) rfl (standing_eq stands) (view_setStage _ call _)
      next => cases stepped
  | hookReached call configured =>
      dsimp only [step] at stepped
      split at stepped
      next entry since stands =>
        apply refines_rest rfl
        split at stepped <;> cases stepped <;> exact view_setStage_same stands rfl
      next => cases stepped
  | hookAnswered call needed =>
      dsimp only [step] at stepped
      split at stepped
      next entry since stands =>
        cases needed with
        | true =>
            cases stepped
            apply refines_move (.marks call since)
            · simp only [moveOf, stands, if_true]
            · exact standing_eq stands
            · exact view_startHookCompaction before call entry since
        | false =>
            cases stepped
            apply refines_rest
            · simp only [moveOf, stands, Bool.false_eq_true, if_false]
            · exact view_setStage_same stands rfl
      next => cases stepped
  | hookResumed call failed =>
      dsimp only [step] at stepped
      split at stepped
      next entry since task stands =>
        split at stepped
        next => cases stepped
        next =>
          cases failed with
          | true =>
              cases stepped
              apply refines_move (.unmarks call since)
              · simp only [moveOf, stands, if_true]
              · exact standing_eq stands
              · exact view_setStage _ call _
          | false =>
              cases stepped
              apply refines_rest
              · simp only [moveOf, stands, Bool.false_eq_true, if_false]
              · exact view_setStage_same stands rfl
      next => cases stepped
  | hookRechecked call =>
      dsimp only [step] at stepped
      split at stepped
      next entry since stands =>
        cases stepped
        apply refines_move (.unmarks call since)
        · simp only [moveOf, stands]
        · exact standing_eq stands
        · exact view_setStage _ call _
      next => cases stepped
  | hookLeft call =>
      dsimp only [step] at stepped
      split at stepped
      next entry since stands =>
        cases stepped
        cases entry with
        | input =>
            apply refines_move (.closes call since)
            · simp only [moveOf, stands]
            · exact standing_eq stands
            · exact view_finishInput before call .ran
        | confirmation =>
            apply refines_move (.leaves call since)
            · simp only [moveOf, stands]
            · exact standing_eq stands
            · exact view_setStage _ call _
      next => cases stepped
  | hookInterrupted call =>
      dsimp only [step] at stepped
      split at stepped
      next entry since point stands =>
        cases stepped
        exact refines_interruptHook before call entry since point stands
      next => cases stepped
  | hookCancelled call =>
      dsimp only [step] at stepped
      split at stepped
      next entry since task stands =>
        split at stepped
        next => cases stepped
        next =>
          cases stepped
          apply refines_move (.breaksOff call since)
          · simp only [moveOf, stands]
          · exact standing_eq stands
          · exact view_setStage _ call _
      next => cases stepped
  | gateOpened gate =>
      dsimp only [step] at stepped
      split at stepped
      next =>
        cases stepped
        exact refines_rest rfl rfl
      next => cases stepped
  | gateAnswered gate needed =>
      dsimp only [step] at stepped
      split at stepped
      next =>
        cases needed with
        | true =>
            cases stepped
            exact refines_move .compacts rfl trivial (view_getOrCreateCompactTask before)
        | false =>
            cases stepped
            exact refines_rest rfl rfl
      next => cases stepped
  | gateResumed gate =>
      dsimp only [step] at stepped
      split at stepped
      next =>
        split at stepped
        next => cases stepped
        next =>
          cases stepped
          exact refines_rest rfl rfl
      next => cases stepped
  | gateInterrupted gate =>
      dsimp only [step] at stepped
      split at stepped
      next => cases stepped
      next =>
        cases stepped
        exact refines_rest rfl rfl
  | compactTaskEnds =>
      dsimp only [step] at stepped
      split at stepped
      next =>
        cases stepped
        exact refines_move .compactionEnds rfl trivial rfl
      next => cases stepped
  | cancelSession =>
      cases stepped
      exact refines_rest rfl (view_cancelSession before)
  | deleteSession call =>
      dsimp only [step] at stepped
      split at stepped
      next stands =>
        cases stepped
        exact refines_rest rfl (view_setStage_same stands rfl)
      next => cases stepped
  | deletionAdvances call =>
      dsimp only [step] at stepped
      split at stepped
      next point stands => exact refines_deletion before call point stands stepped
      next => cases stepped

end Engine

end Ftre.Runtime
