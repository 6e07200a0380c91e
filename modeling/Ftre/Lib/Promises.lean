import Mathlib.Logic.Function.Basic

/-!
A table of one-shot futures. A key is registered with a pending future, and settling a key drops
it from the table and resolves its future.
-/

namespace Ftre.Lib

inductive Future (ρ : Type) where
  | pending
  | result (value : ρ)
  | exception (error : String)
deriving DecidableEq, Repr

structure Promises (κ ρ : Type) where
  entries : κ → Option Nat
  futures : Nat → Future ρ
  made : Nat

namespace Promises

variable {κ ρ : Type}

def empty : Promises κ ρ where
  entries _ := none
  futures _ := .pending
  made := 0

structure Linked (promises : Promises κ ρ) : Prop where
  pending : ∀ key future, promises.entries key = some future →
    future < promises.made ∧ promises.futures future = .pending
  owned : ∀ first second future, promises.entries first = some future →
    promises.entries second = some future → first = second

def Awaits (promises : Promises κ ρ) (key : κ) (future : Nat) : Prop :=
  future < promises.made ∧ (promises.futures future = .pending → promises.entries key = some future)

variable {promises : Promises κ ρ}

theorem linked_empty : (empty : Promises κ ρ).Linked where
  pending := nofun
  owned := nofun

theorem Linked.awaits (linked : promises.Linked) {key : κ} {future : Nat}
    (registered : promises.entries key = some future) : promises.Awaits key future :=
  ⟨(linked.pending key future registered).1, fun _ => registered⟩

variable [DecidableEq κ]

def setDefault (promises : Promises κ ρ) (key : κ) : Promises κ ρ :=
  match promises.entries key with
  | some _ => promises
  | none =>
      { entries := Function.update promises.entries key (some promises.made)
        futures := Function.update promises.futures promises.made .pending
        made := promises.made + 1 }

def settle (promises : Promises κ ρ) (key : κ) (outcome : Future ρ) : Promises κ ρ :=
  match promises.entries key with
  | none => promises
  | some future =>
      { promises with
        entries := Function.update promises.entries key none
        futures := Function.update promises.futures future outcome }

theorem Linked.setDefault (linked : promises.Linked) (key : κ) :
    (promises.setDefault key).Linked := by
  unfold Promises.setDefault
  cases absent : promises.entries key with
  | some _ => exact linked
  | none =>
      dsimp only
      have older : ∀ other future, promises.entries other = some future →
          future < promises.made := fun other future found => (linked.pending other future found).1
      constructor
      · intro other future found
        dsimp only at found ⊢
        by_cases same : other = key
        · subst same
          have new : promises.made = future := by
            rw [Function.update_self] at found
            exact Option.some.inj found
          subst new
          exact ⟨Nat.lt_succ_self _, Function.update_self _ _ _⟩
        · rw [Function.update_of_ne same] at found
          obtain ⟨made, pending⟩ := linked.pending other future found
          refine ⟨Nat.lt_succ_of_lt made, ?_⟩
          rw [Function.update_of_ne (Nat.ne_of_lt made)]
          exact pending
      · intro first second future firstFound secondFound
        dsimp only at firstFound secondFound
        by_cases isFirst : first = key
        · by_cases isSecond : second = key
          · rw [isFirst, isSecond]
          · rw [Function.update_of_ne isSecond] at secondFound
            rw [isFirst, Function.update_self] at firstFound
            have bound := older second future secondFound
            have new := Option.some.inj firstFound
            omega
        · rw [Function.update_of_ne isFirst] at firstFound
          by_cases isSecond : second = key
          · rw [isSecond, Function.update_self] at secondFound
            have bound := older first future firstFound
            have new := Option.some.inj secondFound
            omega
          · rw [Function.update_of_ne isSecond] at secondFound
            exact linked.owned first second future firstFound secondFound

theorem Awaits.setDefault {key : κ} {future : Nat} (awaits : promises.Awaits key future)
    (registered : κ) : (promises.setDefault registered).Awaits key future := by
  unfold Promises.setDefault
  cases absent : promises.entries registered with
  | some _ => exact awaits
  | none =>
      dsimp only
      refine ⟨Nat.lt_succ_of_lt awaits.1, ?_⟩
      dsimp only
      rw [Function.update_of_ne (Nat.ne_of_lt awaits.1)]
      intro pending
      have found := awaits.2 pending
      have different : key ≠ registered := by
        intro same
        rw [same, absent] at found
        cases found
      rw [Function.update_of_ne different]
      exact found

theorem setDefault_entries_of_ne (promises : Promises κ ρ) {key other : κ} (different : other ≠ key) :
    (promises.setDefault key).entries other = promises.entries other := by
  unfold setDefault
  cases promises.entries key with
  | some _ => rfl
  | none => exact Function.update_of_ne different _ _

theorem settle_entries (promises : Promises κ ρ) (key other : κ) (outcome : Future ρ)
    {future : Nat} (registered : (promises.settle key outcome).entries other = some future) :
    promises.entries other = some future := by
  unfold settle at registered
  cases present : promises.entries key with
  | none =>
      rw [present] at registered
      exact registered
  | some dropped =>
      rw [present] at registered
      dsimp only at registered
      by_cases same : other = key
      · rw [same, Function.update_self] at registered
        cases registered
      · rw [Function.update_of_ne same] at registered
        exact registered

theorem setDefault_futures {future : Nat} (made : future < promises.made) (registered : κ) :
    (promises.setDefault registered).futures future = promises.futures future := by
  unfold setDefault
  cases promises.entries registered with
  | some _ => rfl
  | none => exact Function.update_of_ne (Nat.ne_of_lt made) _ _

theorem Linked.settle (linked : promises.Linked) (key : κ) (outcome : Future ρ) :
    (promises.settle key outcome).Linked := by
  unfold Promises.settle
  cases present : promises.entries key with
  | none => exact linked
  | some future =>
      have kept : ∀ other found, Function.update promises.entries key none other = some found →
          other ≠ key ∧ promises.entries other = some found := by
        intro other found registered
        have different : other ≠ key := by
          intro same
          rw [same, Function.update_self] at registered
          cases registered
        rw [Function.update_of_ne different] at registered
        exact ⟨different, registered⟩
      constructor
      · intro other found registered
        obtain ⟨different, before⟩ := kept other found registered
        obtain ⟨made, pending⟩ := linked.pending other found before
        refine ⟨made, ?_⟩
        have elsewhere : found ≠ future := by
          intro same
          rw [same] at before
          exact different (linked.owned other key future before present)
        change Function.update promises.futures future outcome found = .pending
        rw [Function.update_of_ne elsewhere]
        exact pending
      · intro first second found firstFound secondFound
        exact linked.owned first second found (kept first found firstFound).2
          (kept second found secondFound).2

theorem Awaits.settle {key : κ} {future : Nat} (awaits : promises.Awaits key future)
    (linked : promises.Linked) (settled : κ) {outcome : Future ρ} (resolves : outcome ≠ .pending) :
    (promises.settle settled outcome).Awaits key future ∧
      ((promises.settle settled outcome).futures future = promises.futures future ∨
        key = settled ∧ (promises.settle settled outcome).futures future = outcome) ∧
      (key = settled → (promises.settle settled outcome).futures future ≠ .pending) := by
  unfold Promises.settle
  cases present : promises.entries settled with
  | none =>
      refine ⟨awaits, Or.inl rfl, ?_⟩
      intro same pending
      have found := awaits.2 pending
      rw [same, present] at found
      cases found
  | some dropped =>
      by_cases same : future = dropped
      · subst same
        have owner : promises.futures future = .pending → key = settled := by
          intro pending
          exact linked.owned key settled future (awaits.2 pending) present
        have pending := (linked.pending settled future present).2
        have resolved : Function.update promises.futures future outcome future = outcome :=
          Function.update_self _ _ _
        refine ⟨⟨awaits.1, ?_⟩, Or.inr ⟨owner pending, resolved⟩, ?_⟩
        · intro still
          exact absurd (resolved.symm.trans still) resolves
        · intro _ still
          exact resolves (resolved.symm.trans still)
      · have unchanged : Function.update promises.futures dropped outcome future =
            promises.futures future :=
          Function.update_of_ne same _ _
        have notPending : key = settled → promises.futures future ≠ .pending := by
          intro owner pending
          have found := awaits.2 pending
          rw [owner, present] at found
          exact same (Option.some.inj found).symm
        refine ⟨⟨awaits.1, ?_⟩, Or.inl unchanged, ?_⟩
        · intro pending
          have before : promises.futures future = .pending := unchanged.symm.trans pending
          have different : key ≠ settled := fun owner => notPending owner before
          change Function.update promises.entries settled none key = some future
          rw [Function.update_of_ne different]
          exact awaits.2 before
        · intro owner pending
          exact notPending owner (unchanged.symm.trans pending)

end Promises

end Ftre.Lib
