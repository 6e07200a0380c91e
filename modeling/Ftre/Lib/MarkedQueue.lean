import Mathlib.Data.List.Basic
import Mathlib.Logic.Relation

/-!
A queue that one reader empties until it meets an end marker. A queue carries a
list of items when what was read and what waits make it up; the marker is behind
all of them.
-/

namespace Ftre.Lib

/-- What waits in the queue, a missing item being the marker, and what its reader
has got. -/
structure MarkedQueue (α : Type) where
  waiting : List (Option α) := []
  read : List α := []
  ended : Bool := false

namespace MarkedQueue

variable {α : Type}

def put (queue : MarkedQueue α) (item : Option α) : MarkedQueue α :=
  { queue with waiting := queue.waiting ++ [item] }

/-- The reader takes the next item; none where it has to wait. -/
def take (queue : MarkedQueue α) : Option (MarkedQueue α) :=
  match queue.ended, queue.waiting with
  | false, some item :: rest => some { waiting := rest, read := queue.read ++ [item] }
  | false, none :: rest => some { waiting := rest, read := queue.read, ended := true }
  | _, _ => none

/-- The queue has these items, with the marker behind them once it is `marked`. -/
def Carries (queue : MarkedQueue α) (items : List α) (marked : Bool) : Prop :=
  ∃ left, queue.read ++ left = items ∧
    if queue.ended then marked = true ∧ left = [] ∧ queue.waiting = []
    else queue.waiting = left.map some ++ if marked then [none] else []

theorem carries_new : Carries ({} : MarkedQueue α) [] false :=
  ⟨[], rfl, rfl⟩

variable {queue : MarkedQueue α} {items : List α}

theorem Carries.running (carries : queue.Carries items false) : queue.ended = false := by
  obtain ⟨left, _, waits⟩ := carries
  cases ended : queue.ended with
  | false => rfl
  | true =>
      rw [if_pos ended] at waits
      cases waits.1

theorem Carries.put (carries : queue.Carries items false) (item : α) :
    (queue.put (some item)).Carries (items ++ [item]) false := by
  have running := carries.running
  obtain ⟨left, whole, waits⟩ := carries
  rw [running] at waits
  refine ⟨left ++ [item], ?_, ?_⟩
  · rw [← whole, List.append_assoc]
    rfl
  · change if queue.ended then _ else queue.waiting ++ [some item] = _
    rw [running, waits]
    change left.map some ++ [] ++ [some item] = (left ++ [item]).map some ++ []
    rw [List.map_append, List.append_nil, List.append_nil]
    rfl

theorem Carries.mark (carries : queue.Carries items false) :
    (queue.put none).Carries items true := by
  have running := carries.running
  obtain ⟨left, whole, waits⟩ := carries
  rw [running] at waits
  refine ⟨left, whole, ?_⟩
  change if queue.ended then _ else queue.waiting ++ [none] = _
  rw [running, waits]
  change left.map some ++ [] ++ [none] = left.map some ++ [none]
  rw [List.append_nil]

theorem Carries.take {queue after : MarkedQueue α} {marked : Bool}
    (carries : queue.Carries items marked) (taken : queue.take = some after) :
    after.Carries items marked := by
  obtain ⟨left, whole, waits⟩ := carries
  unfold MarkedQueue.take at taken
  split at taken
  · rename_i item rest running waiting
    cases taken
    rw [running, waiting] at waits
    cases left with
    | nil => cases marked <;> cases waits
    | cons first later =>
        cases waits
        refine ⟨later, ?_, ?_⟩
        · rw [← whole, List.append_assoc]
          rfl
        · exact rfl
  · rename_i rest running waiting
    cases taken
    rw [running, waiting] at waits
    cases left with
    | cons first later => cases waits
    | nil =>
        cases marked with
        | false => cases waits
        | true =>
            cases waits
            exact ⟨[], whole, rfl, rfl, rfl⟩
  · cases taken

theorem Carries.isPrefix {marked : Bool} (carries : queue.Carries items marked) :
    queue.read <+: items := by
  obtain ⟨left, whole, _⟩ := carries
  exact ⟨left, whole⟩

theorem Carries.ended {marked : Bool} (carries : queue.Carries items marked)
    (ended : queue.ended = true) : marked = true ∧ queue.read = items := by
  obtain ⟨left, whole, waits⟩ := carries
  rw [if_pos ended] at waits
  obtain ⟨done, rfl, _⟩ := waits
  rw [List.append_nil] at whole
  exact ⟨done, whole⟩

theorem Carries.drains (carries : queue.Carries items true) :
    ∃ after, Relation.ReflTransGen (fun before next => before.take = some next) queue after ∧
      after.ended = true := by
  by_cases done : queue.ended = true
  · exact ⟨queue, Relation.ReflTransGen.refl, done⟩
  · obtain ⟨left, whole, waits⟩ := carries
    clear whole
    rw [if_neg done] at waits
    have running := Bool.eq_false_iff.mpr done
    clear done
    induction left generalizing queue with
    | nil =>
        refine ⟨{ queue with waiting := [], ended := true }, Relation.ReflTransGen.single ?_, rfl⟩
        unfold MarkedQueue.take
        rw [running, waits]
        rfl
    | cons first later ih =>
        let next : MarkedQueue α :=
          { waiting := later.map some ++ [none], read := queue.read ++ [first] }
        obtain ⟨after, reached, ended⟩ := @ih next rfl rfl
        refine ⟨after, Relation.ReflTransGen.head ?_ reached, ended⟩
        unfold MarkedQueue.take
        rw [running, waits]
        rfl

end MarkedQueue

end Ftre.Lib
