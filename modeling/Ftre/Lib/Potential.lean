import Ftre.Lib.StepSystem

/-!
Bounds by potentials.
-/

namespace Ftre.Lib.StepSystem

variable {σ α : Type}

/-- The counted steps that a run takes before it stops. -/
def countUntil (system : StepSystem σ α) (stopped : σ → Bool) (counted : σ → α → Bool)
    (state : σ) : List α → Nat
  | [] => 0
  | action :: rest =>
      if stopped state then 0
      else
        match system.step state action with
        | none => 0
        | some next =>
            (counted state action).toNat + countUntil system stopped counted next rest

/-- An unending run from a state. -/
structure IsRun (system : StepSystem σ α) (start : σ) (states : Nat → σ) (moves : Nat → α) :
    Prop where
  begins : states 0 = start
  goesOn : ∀ time, system.step (states time) (moves time) = some (states (time + 1))

structure Pays (system : StepSystem σ α) (stopped : σ → Bool) (counted : σ → α → Bool)
    (invariant : σ → Prop) (potential : σ → Nat) : Prop where
  keeps : ∀ before action after, invariant before → stopped before = false →
    system.step before action = some after → invariant after
  pays : ∀ before action after, invariant before → stopped before = false →
    system.step before action = some after →
    potential after + (counted before action).toNat ≤ potential before

variable {system : StepSystem σ α} {stopped : σ → Bool} {counted : σ → α → Bool}
  {invariant : σ → Prop} {potential : σ → Nat}

theorem Pays.countUntil_le (paid : system.Pays stopped counted invariant potential) {start : σ}
    (initially : invariant start) (actions : List α) :
    system.countUntil stopped counted start actions ≤ potential start := by
  induction actions generalizing start with
  | nil => exact Nat.zero_le _
  | cons action rest ih =>
      unfold countUntil
      cases ended : stopped start with
      | true => exact Nat.zero_le _
      | false =>
          rw [if_neg Bool.false_ne_true]
          cases moved : system.step start action with
          | none => exact Nat.zero_le _
          | some next =>
              have later := ih (paid.keeps start action next initially ended moved)
              have spent := paid.pays start action next initially ended moved
              dsimp only
              omega

theorem Pays.spent (paid : system.Pays stopped counted invariant potential) {start : σ}
    {states : Nat → σ} {moves : Nat → α} (runs : system.IsRun start states moves)
    (initially : invariant start) (running : ∀ time, stopped (states time) = false) (time : Nat) :
    invariant (states time) ∧
      ∀ further, potential (states (time + further)) ≤ potential (states time) := by
  have kept : ∀ moment, invariant (states moment) := by
    intro moment
    induction moment with
    | zero => exact runs.begins ▸ initially
    | succ before ih => exact paid.keeps _ _ _ ih (running before) (runs.goesOn before)
  refine ⟨kept time, fun further => ?_⟩
  induction further with
  | zero => exact Nat.le_refl _
  | succ before ih =>
      have spent := paid.pays _ _ _ (kept (time + before)) (running _) (runs.goesOn _)
      rw [Nat.add_assoc] at spent
      omega

theorem Pays.stops (paid : system.Pays stopped counted invariant potential) {start : σ}
    {states : Nat → σ} {moves : Nat → α} (runs : system.IsRun start states moves)
    (initially : invariant start)
    (returns : ∀ time, ∃ later, time ≤ later ∧
      (stopped (states later) = true ∨ counted (states later) (moves later) = true)) :
    ∃ time, stopped (states time) = true := by
  refine Classical.byContradiction fun unending => ?_
  have running : ∀ time, stopped (states time) = false := fun time =>
    Bool.eq_false_iff.mpr fun ended => unending ⟨time, ended⟩
  have never : ∀ bound time, potential (states time) = bound → False := by
    intro bound
    induction bound using Nat.strongRecOn with
    | ind bound ih =>
        intro time same
        obtain ⟨later, after, stop | count⟩ := returns time
        · exact unending ⟨later, stop⟩
        · have reached := (paid.spent runs initially running time).2 (later - time)
          rw [Nat.add_sub_cancel' after] at reached
          have spent := paid.pays _ _ _ (paid.spent runs initially running later).1
            (running later) (runs.goesOn later)
          rw [count, Bool.toNat_true] at spent
          exact ih _ (by omega) (later + 1) rfl
  exact never _ 0 rfl

end Ftre.Lib.StepSystem
