import Ftre.Runtime.EngineOccupancy

/-!
At most one turn of a session at a time. `run_input` takes its reservation with the check;
`resume_confirmation` awaits twice between its check and its task.
-/

namespace Ftre.Runtime

open Lib Lib.Parties

namespace Engine

def NoneResolving (engine : Engine) : Prop :=
  ∀ call point, engine.calls call ≠ .resolving point

/-- A check is passed only where no confirmation stands between its check and its task. -/
def ChecksAlone (engine : Engine) : Action → Prop
  | .requestStateRead _ duplicate =>
      duplicate = none → engine.isActiveSession = false → engine.NoneResolving
  | .resumeConfirmation _ hasEvents =>
      hasEvents = true → engine.isActiveSession = false → engine.NoneResolving
  | _ => True

/-- At most one turn executes, and from its check to the drop of its guards no
other call passes the check. -/
structure TurnExclusion (engine : Engine) : Prop where
  executing : ∀ first second firstEntry secondEntry,
    engine.calls first = .executing firstEntry → engine.calls second = .executing secondEntry →
      first = second
  inside : ∀ first second, (engine.calls first).standing.inside →
    (engine.calls second).standing.inside → first = second

theorem turnExclusion_iff (engine : Engine) :
    engine.TurnExclusion ↔ Exclusive Standing.inside engine.view.standings := by
  constructor
  · intro exclusion
    exact exclusion.inside
  · intro inside
    refine ⟨?_, inside⟩
    intro first second firstEntry secondEntry firstExecutes secondExecutes
    apply inside
    · change (engine.calls first).standing.inside
      rw [firstExecutes]
      trivial
    · change (engine.calls second).standing.inside
      rw [secondExecutes]
      trivial

private theorem resolving_of_resolves (stage : Stage) (resolves : stage.standing.resolves) :
    ∃ point, stage = .resolving point := by
  cases stage with
  | resolving point => exact ⟨point, rfl⟩
  | afterRun entry since point =>
      change Standing.resolves (if point.marked then .maintaining since else .afterTurn since)
        at resolves
      split at resolves <;> cases resolves
  | _ => cases resolves

private theorem noneResolving_iff (engine : Engine) :
    engine.NoneResolving ↔ Vacant Standing.resolves engine.view.standings := by
  constructor
  · intro none call resolves
    obtain ⟨point, stands⟩ := resolving_of_resolves (engine.calls call) resolves
    exact none call point stands
  · intro vacant call point stands
    apply vacant call
    change (engine.calls call).standing.resolves
    rw [stands]
    trivial

private theorem checksAlone_iff (engine : Engine) (action : Action) :
    engine.ChecksAlone action ↔ Occupancy.PassesAlone engine.view (engine.moveOf action) := by
  cases action with
  | requestStateRead call duplicate =>
      unfold ChecksAlone moveOf
      cases duplicate with
      | some state => exact iff_of_true nofun trivial
      | none =>
          cases active : engine.isActiveSession with
          | true => exact iff_of_true nofun trivial
          | false =>
              rw [noneResolving_iff]
              constructor
              · intro alone
                exact alone rfl rfl
              · intro vacant _ _
                exact vacant
  | resumeConfirmation call hasEvents =>
      unfold ChecksAlone moveOf
      cases hasEvents with
      | false => exact iff_of_true nofun trivial
      | true =>
          cases active : engine.isActiveSession with
          | true => exact iff_of_true nofun trivial
          | false =>
              rw [noneResolving_iff]
              constructor
              · intro alone
                exact alone rfl rfl
              · intro vacant _ _
                exact vacant
  | _ =>
      apply iff_of_true trivial
      unfold moveOf
      repeat' split
      all_goals trivial

private theorem exclusion_idle : Occupancy.Exclusion idle.view :=
  Occupancy.Exclusion.initial fun _ => id

/-- In every run of any number of calls, turns exclude each other throughout if
and only if every check is passed with no confirmation between its check and its task. -/
theorem turnExclusion_iff_checksAlone (actions : List Action) :
    system.Always TurnExclusion idle actions ↔ system.EachStep ChecksAlone idle actions := by
  apply StepSystem.always_iff_eachStep_of_invariant fun engine => Occupancy.Exclusion engine.view
  · intro engine exclusion
    exact (turnExclusion_iff engine).mpr exclusion.inside
  · intro before action after exclusion stepped alone
    obtain ⟨enabled, applied⟩ := step_refines stepped
    rw [applied]
    exact exclusion.apply enabled ((checksAlone_iff before action).mp alone)
  · intro before action after _ stepped exclusive
    obtain ⟨enabled, applied⟩ := step_refines stepped
    apply (checksAlone_iff before action).mpr
    apply Occupancy.Exclusion.passesAlone enabled
    rw [← applied]
    exact (turnExclusion_iff after).mp exclusive
  · exact exclusion_idle

/-- A confirmation resolves its config while an input is admitted; both execute. -/
theorem input_and_confirmation_execute :
    ∃ final, system.run idle
        [.resumeConfirmation 0 true, .runInput 1, .requestStateRead 1 none,
          .admissionAdvances 1, .admissionAdvances 1, .admissionAdvances 1, .admissionAdvances 1,
          .admissionAdvances 1, .resolutionAdvances 0, .resolutionAdvances 0] = some final ∧
      final.calls 0 = .executing .confirmation ∧ final.calls 1 = .executing .input ∧
      ¬ final.TurnExclusion := by
  refine ⟨_, rfl, rfl, rfl, ?_⟩
  intro exclusion
  cases exclusion.executing 0 1 .confirmation .input rfl rfl

end Engine

end Ftre.Runtime
