import Mathlib.Logic.Function.Basic

/-!
Parties that each stand at a place, one of which moves at a time.
-/

namespace Ftre.Lib.Parties

variable {ι κ : Type} {places : κ → Prop} {stands : ι → κ}

def Exclusive (places : κ → Prop) (stands : ι → κ) : Prop :=
  ∀ first second, places (stands first) → places (stands second) → first = second

def Vacant (places : κ → Prop) (stands : ι → κ) : Prop :=
  ∀ party, ¬ places (stands party)

theorem Vacant.mono {fewer : κ → Prop} (vacant : Vacant places stands)
    (implied : ∀ place, fewer place → places place) : Vacant fewer stands := by
  intro party inside
  exact vacant party (implied _ inside)

theorem Vacant.exclusive (vacant : Vacant places stands) : Exclusive places stands := by
  intro first second left
  exact absurd left (vacant first)

section Moves

variable [DecidableEq ι] {party : ι} {place : κ}

theorem stands_after_move {other : ι} (inside : places (Function.update stands party place other)) :
    (other = party ∧ places place) ∨ (other ≠ party ∧ places (stands other)) := by
  by_cases same : other = party
  · subst same
    rw [Function.update_self] at inside
    exact Or.inl ⟨rfl, inside⟩
  · rw [Function.update_of_ne same] at inside
    exact Or.inr ⟨same, inside⟩

theorem Vacant.move_outside (vacant : Vacant places stands) (outside : ¬ places place) :
    Vacant places (Function.update stands party place) := by
  intro other inside
  rcases stands_after_move inside with ⟨_, entered⟩ | ⟨_, stood⟩
  · exact outside entered
  · exact vacant other stood

theorem Vacant.enter (vacant : Vacant places stands) :
    Exclusive places (Function.update stands party place) := by
  intro first second left right
  rcases stands_after_move left with ⟨sameFirst, _⟩ | ⟨_, stood⟩
  · rcases stands_after_move right with ⟨sameSecond, _⟩ | ⟨_, stood⟩
    · rw [sameFirst, sameSecond]
    · exact absurd stood (vacant second)
  · exact absurd stood (vacant first)

theorem Exclusive.move_outside (exclusive : Exclusive places stands) (outside : ¬ places place) :
    Exclusive places (Function.update stands party place) := by
  intro first second left right
  rcases stands_after_move left with ⟨_, entered⟩ | ⟨_, stoodFirst⟩
  · exact absurd entered outside
  · rcases stands_after_move right with ⟨_, entered⟩ | ⟨_, stoodSecond⟩
    · exact absurd entered outside
    · exact exclusive first second stoodFirst stoodSecond

theorem Exclusive.move (exclusive : Exclusive places stands) (inside : places (stands party)) :
    Exclusive places (Function.update stands party place) := by
  intro first second left right
  have mover : ∀ other, places (Function.update stands party place other) → other = party := by
    intro other stood
    rcases stands_after_move stood with ⟨same, _⟩ | ⟨_, before⟩
    · exact same
    · exact exclusive other party before inside
  rw [mover first left, mover second right]

theorem Exclusive.leave (exclusive : Exclusive places stands) (inside : places (stands party))
    (outside : ¬ places place) : Vacant places (Function.update stands party place) := by
  intro other stood
  rcases stands_after_move stood with ⟨_, entered⟩ | ⟨different, before⟩
  · exact outside entered
  · exact different (exclusive other party before inside)

end Moves

end Ftre.Lib.Parties
