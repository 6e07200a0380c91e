import Ftre.Runtime.EngineOccupancy

/-!
No turn beside a compaction.
-/

namespace Ftre.Runtime

open Lib Lib.Parties

namespace Engine

/-- An input was admitted since the call's turn dropped its guards. -/
def overtaken (engine : Engine) (call : Nat) : Bool :=
  match engine.calls call with
  | .afterRun _ since _ => decide (since < engine.inputsAdmitted)
  | _ => false

/-- A compaction starts only in an idle session, after a turn only if no input
was admitted meanwhile; no check is passed and no confirmation's task made beside a
compaction, the latter only in an idle session; no mark stands when an input's
call clears the maintenance table at its end. -/
def KeepsBarrier (engine : Engine) : Action → Prop
  | .requestStateRead _ duplicate =>
      duplicate = none → engine.isActiveSession = false → engine.isCompacting = false
  | .resolutionAdvances call =>
      engine.calls call = .resolving .resolvingAgent →
        engine.isActiveSession = false ∧ engine.isCompacting = false
  | .hookAnswered call needed =>
      needed = true → engine.isActiveSession = false ∧ engine.overtaken call = false
  | .gateAnswered _ needed => needed = true → engine.isActiveSession = false
  | .hookLeft call =>
      (∃ since, engine.calls call = .afterRun .input since .leaving) →
        ∀ other, ¬ (engine.calls other).standing.marked
  | _ => True

/-- A turn and a compaction never run together, and no input is admitted, or can
be, from the end of a turn to the end of its compaction. -/
structure MaintenanceBarrier (engine : Engine) : Prop where
  apart : ∀ call entry, engine.calls call = .executing entry → engine.isCompacting = false
  guarded : ∀ call, (engine.calls call).standing.owns → engine.isActiveSession = true
  marked : ∀ call entry since point, engine.calls call = .afterRun entry since point →
    point.marked = true → engine.isActiveSession = true ∧ engine.overtaken call = false

private theorem keepsApart_of_keepsBarrier {before after : Engine} {action : Action}
    (stepped : system.step before action = some after) (keeps : before.KeepsBarrier action) :
    Occupancy.KeepsApart before.view (before.moveOf action) := by
  change before.step action = some after at stepped
  cases action with
  | requestStateRead call duplicate =>
      dsimp only [moveOf]
      cases duplicate with
      | some state => trivial
      | none =>
          cases active : before.isActiveSession with
          | true => trivial
          | false => exact keeps rfl active
  | resolutionAdvances call =>
      dsimp only [moveOf]
      split
      next stands =>
        obtain ⟨quiet, apart⟩ := keeps stands
        rw [← active_view] at quiet
        exact ⟨quiet, apart⟩
      next => trivial
  | hookAnswered call needed =>
      dsimp only [moveOf]
      split
      next entry since point stands =>
        cases needed with
        | true =>
            obtain ⟨quiet, current⟩ := keeps rfl
            rw [← active_view] at quiet
            unfold overtaken at current
            rw [stands] at current
            refine ⟨quiet, ?_⟩
            exact Nat.not_lt.mp (of_decide_eq_false current)
        | false => trivial
      next => trivial
  | gateAnswered gate needed =>
      cases needed with
      | true =>
          have quiet := keeps rfl
          rw [← active_view] at quiet
          exact quiet
      | false => trivial
  | hookLeft call =>
      dsimp only [step] at stepped
      split at stepped
      next entry since stands =>
        dsimp only [moveOf]
        rw [stands]
        cases entry with
        | input => exact keeps ⟨since, stands⟩
        | confirmation => trivial
      next => cases stepped
  | _ =>
      unfold moveOf
      repeat' split
      all_goals trivial

private theorem separation_idle : Occupancy.Separation idle.view :=
  Occupancy.Separation.of_vacant (fun _ => id) (fun _ => id)

private theorem barrier_of_separation {engine : Engine}
    (separation : Occupancy.Separation engine.view) : engine.MaintenanceBarrier where
  apart call entry stands := by
    have owns : (engine.view.standings call).owns := by
      change (engine.calls call).standing.owns
      rw [stands]
      trivial
    apply Bool.eq_false_iff.mpr
    intro compacting
    exact separation.idle compacting call owns
  guarded call owns := by
    rw [← active_view]
    exact separation.active_of_owns call owns
  marked call entry since point stands raised := by
    have standing : engine.view.standings call = .maintaining since := by
      change (engine.calls call).standing = .maintaining since
      rw [stands]
      exact if_pos raised
    constructor
    · rw [← active_view]
      apply separation.active_of_marked call
      rw [standing]
      trivial
    · have current := separation.current call since standing
      unfold overtaken
      rw [stands]
      exact decide_eq_false (Nat.not_lt.mpr current)

/-- In every run of calls, hooks and compactions whose steps meet the condition,
every state reached has the barrier. -/
theorem maintenanceBarrier_of_keepsBarrier {engine : Engine}
    (reached : system.Reaches KeepsBarrier idle engine) : engine.MaintenanceBarrier := by
  apply barrier_of_separation
  apply reached.invariant separation_idle
  intro before action after separation keeps stepped
  obtain ⟨enabled, applied⟩ := step_refines stepped
  rw [applied]
  exact separation.apply enabled (keepsApart_of_keepsBarrier stepped keeps)

private def turnOf (call : Nat) : List Action :=
  [.runInput call, .requestStateRead call none, .admissionAdvances call, .admissionAdvances call,
    .admissionAdvances call, .admissionAdvances call, .admissionAdvances call]

/-- The second input passes the check while the hook of the first is at its own, and runs beside the
compaction. -/
theorem turn_executes_beside_compaction :
    ∃ final, system.run idle
        (turnOf 0 ++ [.turnEnds 0 false, .hookReached 0 true] ++ (turnOf 1).take 2 ++
          [.hookAnswered 0 true] ++ (turnOf 1).drop 2) = some final ∧
      final.calls 1 = .executing .input ∧ final.isCompacting = true ∧
      final.overtaken 0 = true ∧ ¬ final.MaintenanceBarrier := by
  refine ⟨_, rfl, rfl, rfl, rfl, ?_⟩
  intro barrier
  cases barrier.apart 1 .input rfl

/-- A turn with its compaction, with nobody else about. -/
theorem barrier_through_compaction :
    ∃ final, system.run idle
        (turnOf 0 ++ [.turnEnds 0 false, .hookReached 0 true, .hookAnswered 0 true]) = some final ∧
      final.isCompacting = true ∧ final.MaintenanceBarrier := by
  refine ⟨_, rfl, rfl, ?_⟩
  apply maintenanceBarrier_of_keepsBarrier
  refine .head (.runInput 0) trivial rfl ?_
  refine .head (.requestStateRead 0 none) (fun _ _ => rfl) rfl ?_
  iterate 5 refine .head (.admissionAdvances 0) trivial rfl ?_
  refine .head (.turnEnds 0 false) trivial rfl ?_
  refine .head (.hookReached 0 true) trivial rfl ?_
  apply Relation.ReflTransGen.head ⟨.hookAnswered 0 true, fun _ => ⟨rfl, rfl⟩, rfl⟩
  exact Relation.ReflTransGen.refl

end Engine

end Ftre.Runtime
