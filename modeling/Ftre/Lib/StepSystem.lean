import Mathlib.Logic.Relation

/-!
Transition systems given by an executable partial step function, with runs whose every step meets
a condition on the state before it.
-/

namespace Ftre.Lib

/-- A system moves by taking actions; a disabled action yields no state. -/
structure StepSystem (σ α : Type) where
  step : σ → α → Option σ

namespace StepSystem

variable {σ α : Type} (system : StepSystem σ α)

/-- One enabled step taken under `guard`. -/
def StepUnder (guard : σ → α → Prop) (before after : σ) : Prop :=
  ∃ action, guard before action ∧ system.step before action = some after

/-- Some run leads from one state to the other with every step under `guard`. -/
def Reaches (guard : σ → α → Prop) : σ → σ → Prop :=
  Relation.ReflTransGen (system.StepUnder guard)

/-- The condition that every step meets. -/
def anyStep : σ → α → Prop := fun _ _ => True

variable {guard : σ → α → Prop} {system}

theorem Reaches.invariant {property : σ → Prop} {start final : σ}
    (reached : system.Reaches guard start final) (initially : property start)
    (preserved : ∀ before action after, property before → guard before action →
      system.step before action = some after → property after) :
    property final := by
  induction reached with
  | refl => exact initially
  | tail _ last ih =>
      obtain ⟨action, allowed, stepped⟩ := last
      exact preserved _ action _ ih allowed stepped

theorem Reaches.head {start next final : σ} (action : α) (allowed : guard start action)
    (stepped : system.step start action = some next) (later : system.Reaches guard next final) :
    system.Reaches guard start final :=
  Relation.ReflTransGen.head ⟨action, allowed, stepped⟩ later

theorem Reaches.weaken {weaker : σ → α → Prop} {start final : σ}
    (reached : system.Reaches guard start final)
    (implied : ∀ state action, guard state action → weaker state action) :
    system.Reaches weaker start final := by
  induction reached with
  | refl => exact Relation.ReflTransGen.refl
  | tail _ last ih =>
      obtain ⟨action, allowed, stepped⟩ := last
      exact Relation.ReflTransGen.tail ih ⟨action, implied _ action allowed, stepped⟩

/-! ### Runs given by their actions -/

variable (system) in
/-- Every state of the run has the property, the first one included; a disabled
action ends the run. -/
def Always (property : σ → Prop) (state : σ) : List α → Prop
  | [] => property state
  | action :: rest =>
      property state ∧ ∀ next, system.step state action = some next → Always property next rest

variable (system) in
/-- Every step of the run meets the guard. -/
def EachStep (guard : σ → α → Prop) (state : σ) : List α → Prop
  | [] => True
  | action :: rest => ∀ next, system.step state action = some next →
      guard state action ∧ EachStep guard next rest

theorem always_iff_eachStep_of_invariant {property : σ → Prop} (invariant : σ → Prop)
    (gives : ∀ state, invariant state → property state)
    (keeps : ∀ before action after, invariant before →
      system.step before action = some after → guard before action → invariant after)
    (needs : ∀ before action after, invariant before →
      system.step before action = some after → property after → guard before action)
    {start : σ} (initially : invariant start) (actions : List α) :
    system.Always property start actions ↔ system.EachStep guard start actions := by
  induction actions generalizing start with
  | nil => exact iff_of_true (gives start initially) trivial
  | cons action rest ih =>
      constructor
      · rintro ⟨_, later⟩ next stepped
        have remaining := later next stepped
        have kept : property next := by
          cases rest with
          | nil => exact remaining
          | cons _ _ => exact remaining.1
        have allowed := needs start action next initially stepped kept
        exact ⟨allowed, (ih (keeps start action next initially stepped allowed)).mp remaining⟩
      · intro guarded
        refine ⟨gives start initially, fun next stepped => ?_⟩
        obtain ⟨allowed, remaining⟩ := guarded next stepped
        exact (ih (keeps start action next initially stepped allowed)).mpr remaining

theorem eachStep_iff_of_invariant {wanted : σ → α → Prop} (invariant : σ → Prop)
    (keeps : ∀ before action after, invariant before →
      system.step before action = some after → guard before action → invariant after)
    (exactly : ∀ before action after, invariant before →
      system.step before action = some after → (wanted before action ↔ guard before action))
    {start : σ} (initially : invariant start) (actions : List α) :
    system.EachStep wanted start actions ↔ system.EachStep guard start actions := by
  induction actions generalizing start with
  | nil => exact Iff.rfl
  | cons action rest ih =>
      constructor
      · intro each next stepped
        obtain ⟨met, remaining⟩ := each next stepped
        have allowed := (exactly start action next initially stepped).mp met
        exact ⟨allowed, (ih (keeps start action next initially stepped allowed)).mp remaining⟩
      · intro each next stepped
        obtain ⟨allowed, remaining⟩ := each next stepped
        have met := (exactly start action next initially stepped).mpr allowed
        exact ⟨met, (ih (keeps start action next initially stepped allowed)).mpr remaining⟩

theorem always_iff_eachStep {property : σ → Prop}
    (exactly : ∀ before action after, property before → system.step before action = some after →
      (property after ↔ guard before action))
    {start : σ} (initially : property start) (actions : List α) :
    system.Always property start actions ↔ system.EachStep guard start actions := by
  apply always_iff_eachStep_of_invariant property (fun _ holds => holds)
  · intro before action after holds stepped
    exact (exactly before action after holds stepped).mpr
  · intro before action after holds stepped
    exact (exactly before action after holds stepped).mp
  · exact initially

theorem always_of_eachStep {property : σ → Prop} (invariant : σ → Prop)
    (gives : ∀ state, invariant state → property state)
    (keeps : ∀ before action after, invariant before →
      system.step before action = some after → guard before action → invariant after)
    {start : σ} (initially : invariant start) {actions : List α}
    (each : system.EachStep guard start actions) : system.Always property start actions := by
  induction actions generalizing start with
  | nil => exact gives start initially
  | cons action rest ih =>
      refine ⟨gives start initially, fun next stepped => ?_⟩
      obtain ⟨allowed, remaining⟩ := each next stepped
      exact ih (keeps start action next initially stepped allowed) remaining

theorem eachStep_cons {state next : σ} {action : α} {rest : List α}
    (stepped : system.step state action = some next) (allowed : guard state action)
    (later : system.EachStep guard next rest) : system.EachStep guard state (action :: rest) := by
  intro other same
  rw [stepped] at same
  cases same
  exact ⟨allowed, later⟩

theorem eachStep_of_forall (everywhere : ∀ state action, guard state action) (start : σ)
    (actions : List α) : system.EachStep guard start actions := by
  induction actions generalizing start with
  | nil => trivial
  | cons action rest ih => exact fun next _ => ⟨everywhere start action, ih next⟩

variable (system) in
/-- Take the listed actions in order. -/
def run (state : σ) : List α → Option σ
  | [] => some state
  | action :: rest => (system.step state action).bind fun next => run next rest

variable (system) in
/-- Take the listed actions in order, stopping at one that fails `guard`. -/
def runUnder (guard : σ → α → Prop) [∀ state action, Decidable (guard state action)]
    (state : σ) : List α → Option σ
  | [] => some state
  | action :: rest =>
      if guard state action then
        (system.step state action).bind fun next => runUnder guard next rest
      else none

theorem reaches_of_run {start final : σ} {actions : List α}
    (ran : system.run start actions = some final) : system.Reaches anyStep start final := by
  induction actions generalizing start with
  | nil =>
      cases ran
      exact Relation.ReflTransGen.refl
  | cons action rest ih =>
      obtain ⟨next, stepped, remaining⟩ := Option.bind_eq_some_iff.mp ran
      exact Relation.ReflTransGen.head ⟨action, trivial, stepped⟩ (ih remaining)

theorem reaches_of_runUnder [∀ state action, Decidable (guard state action)]
    {start final : σ} {actions : List α}
    (ran : system.runUnder guard start actions = some final) :
    system.Reaches guard start final := by
  induction actions generalizing start with
  | nil =>
      cases ran
      exact Relation.ReflTransGen.refl
  | cons action rest ih =>
      unfold runUnder at ran
      by_cases allowed : guard start action
      · rw [if_pos allowed] at ran
        obtain ⟨next, stepped, remaining⟩ := Option.bind_eq_some_iff.mp ran
        exact Relation.ReflTransGen.head ⟨action, allowed, stepped⟩ (ih remaining)
      · rw [if_neg allowed] at ran
        cases ran

theorem reaches_of_eachStep {start final : σ} {actions : List α}
    (each : system.EachStep guard start actions)
    (ran : system.run start actions = some final) : system.Reaches guard start final := by
  induction actions generalizing start with
  | nil =>
      cases ran
      exact Relation.ReflTransGen.refl
  | cons action rest ih =>
      obtain ⟨next, stepped, remaining⟩ := Option.bind_eq_some_iff.mp ran
      obtain ⟨allowed, later⟩ := each next stepped
      exact Relation.ReflTransGen.head ⟨action, allowed, stepped⟩ (ih later remaining)

theorem reaches_of_run_each {start final : σ} {actions : List α}
    (allowed : ∀ action ∈ actions, ∀ state, guard state action)
    (ran : system.run start actions = some final) : system.Reaches guard start final := by
  induction actions generalizing start with
  | nil =>
      cases ran
      exact Relation.ReflTransGen.refl
  | cons action rest ih =>
      obtain ⟨next, stepped, remaining⟩ := Option.bind_eq_some_iff.mp ran
      have later := ih (fun other present => allowed other (List.mem_cons_of_mem _ present)) remaining
      exact Relation.ReflTransGen.head
        ⟨action, allowed action List.mem_cons_self start, stepped⟩ later

end StepSystem

end Ftre.Lib
