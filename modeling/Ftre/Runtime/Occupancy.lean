import Ftre.Lib.Parties

/-!
Who occupies a session. A call passes the check of the session's guards, takes a guard, drops it
when its turn is over, and may then hold the session for maintenance.
-/

namespace Ftre.Runtime

open Lib.Parties

inductive Standing where
  | outside
  | resolving
  | owning
  /-- Past the turn; `since` inputs had been admitted when the guard was dropped. -/
  | afterTurn (since : Nat)
  | maintaining (since : Nat)
deriving DecidableEq, Repr

namespace Standing

def inside : Standing → Prop
  | .resolving => True
  | .owning => True
  | _ => False

def resolves : Standing → Prop
  | .resolving => True
  | _ => False

def owns : Standing → Prop
  | .owning => True
  | _ => False

def marked : Standing → Prop
  | .maintaining _ => True
  | _ => False

theorem inside_of_owns : ∀ standing : Standing, standing.owns → standing.inside
  | .owning, _ => trivial

theorem inside_of_resolves : ∀ standing : Standing, standing.resolves → standing.inside
  | .resolving, _ => trivial

theorem owns_or_resolves : ∀ standing : Standing, standing.inside →
    standing.owns ∨ standing.resolves
  | .resolving, _ => Or.inr trivial
  | .owning, _ => Or.inl trivial

end Standing

structure Occupancy where
  standings : Nat → Standing
  reserved : Bool
  registered : Bool
  maintenance : Bool
  compacting : Bool
  inputsAdmitted : Nat

inductive Move where
  | rest
  | passesCheck (call : Nat)
  | abandons (call : Nat)
  | admits (call : Nat)
  | registersInput (call : Nat)
  | registersConfirmation (call : Nat)
  | dropsInput (call : Nat)
  | dropsConfirmation (call : Nat)
  | quits (call : Nat)
  | marks (call since : Nat)
  | unmarks (call since : Nat)
  | breaksOff (call since : Nat)
  | closes (call since : Nat)
  | leaves (call since : Nat)
  | compacts
  | compactionEnds

namespace Occupancy

def running (occupancy : Occupancy) : Bool := occupancy.reserved || occupancy.registered

def active (occupancy : Occupancy) : Bool := occupancy.running || occupancy.maintenance

def move (occupancy : Occupancy) (call : Nat) (standing : Standing) : Occupancy :=
  { occupancy with standings := Function.update occupancy.standings call standing }

end Occupancy

namespace Move

def Enabled (occupancy : Occupancy) : Move → Prop
  | .rest => True
  | .passesCheck call => occupancy.standings call = .outside ∧ occupancy.active = false
  | .abandons call => occupancy.standings call = .resolving
  | .admits call => occupancy.standings call = .outside ∧ occupancy.active = false
  | .registersInput call => occupancy.standings call = .owning
  | .registersConfirmation call => occupancy.standings call = .resolving
  | .dropsInput call => occupancy.standings call = .owning
  | .dropsConfirmation call => occupancy.standings call = .owning
  | .quits call => occupancy.standings call = .owning
  | .marks call since => occupancy.standings call = .afterTurn since
  | .unmarks call since => occupancy.standings call = .maintaining since
  | .breaksOff call since => occupancy.standings call = .maintaining since
  | .closes call since => occupancy.standings call = .afterTurn since
  | .leaves call since => occupancy.standings call = .afterTurn since
  | .compacts => True
  | .compactionEnds => True

def apply (occupancy : Occupancy) : Move → Occupancy
  | .rest => occupancy
  | .passesCheck call => occupancy.move call .resolving
  | .abandons call => occupancy.move call .outside
  | .admits call =>
      { occupancy with reserved := true, inputsAdmitted := occupancy.inputsAdmitted + 1 }.move
        call .owning
  | .registersInput _ => { occupancy with registered := true }
  | .registersConfirmation call => { occupancy with registered := true }.move call .owning
  | .dropsInput call =>
      { occupancy with reserved := false, registered := false }.move call
        (.afterTurn occupancy.inputsAdmitted)
  | .dropsConfirmation call =>
      { occupancy with registered := false }.move call (.afterTurn occupancy.inputsAdmitted)
  | .quits call =>
      { occupancy with reserved := false, registered := false, maintenance := false }.move call
        .outside
  | .marks call since =>
      { occupancy with maintenance := true, compacting := true }.move call (.maintaining since)
  | .unmarks call since => { occupancy with maintenance := false }.move call (.afterTurn since)
  | .breaksOff call _ => { occupancy with maintenance := false }.move call .outside
  | .closes call _ => { occupancy with maintenance := false }.move call .outside
  | .leaves call _ => occupancy.move call .outside
  | .compacts => { occupancy with compacting := true }
  | .compactionEnds => { occupancy with compacting := false }

end Move

namespace Occupancy

private theorem not_running_of_not_active {occupancy : Occupancy}
    (idle : occupancy.active = false) : occupancy.running = false :=
  (Bool.or_eq_false_iff.mp idle).1

private theorem not_maintenance_of_not_active {occupancy : Occupancy}
    (idle : occupancy.active = false) : occupancy.maintenance = false :=
  (Bool.or_eq_false_iff.mp idle).2

/-! ### One call inside -/

structure Exclusion (occupancy : Occupancy) : Prop where
  inside : Exclusive Standing.inside occupancy.standings
  held : occupancy.running = false → Vacant Standing.owns occupancy.standings

def PassesAlone (occupancy : Occupancy) : Move → Prop
  | .passesCheck _ => Vacant Standing.resolves occupancy.standings
  | .admits _ => Vacant Standing.resolves occupancy.standings
  | _ => True

namespace Exclusion

variable {occupancy : Occupancy}

theorem initial (vacant : Vacant Standing.inside occupancy.standings) :
    Exclusion occupancy where
  inside := vacant.exclusive
  held _ := vacant.mono Standing.inside_of_owns

private theorem vacant_inside (exclusion : Exclusion occupancy) (idle : occupancy.active = false)
    (alone : Vacant Standing.resolves occupancy.standings) :
    Vacant Standing.inside occupancy.standings := by
  intro call inside
  rcases Standing.owns_or_resolves _ inside with owns | resolves
  · exact exclusion.held (not_running_of_not_active idle) call owns
  · exact alone call resolves

variable {after : Occupancy} {call : Nat} {standing : Standing}

private theorem stays (exclusion : Exclusion occupancy) (inside : (occupancy.standings call).inside)
    (moved : after.standings = Function.update occupancy.standings call standing)
    (running : after.running = true) : Exclusion after where
  inside := by
    rw [moved]
    exact exclusion.inside.move inside
  held quiet := by
    rw [running] at quiet
    cases quiet

private theorem leaves (exclusion : Exclusion occupancy)
    (inside : (occupancy.standings call).inside)
    (moved : after.standings = Function.update occupancy.standings call standing)
    (outside : ¬ standing.inside) : Exclusion after := by
  apply initial
  rw [moved]
  exact exclusion.inside.leave inside outside

private theorem moves_outside (exclusion : Exclusion occupancy)
    (moved : after.standings = Function.update occupancy.standings call standing)
    (outside : ¬ standing.inside) (same : after.running = occupancy.running) :
    Exclusion after where
  inside := by
    rw [moved]
    exact exclusion.inside.move_outside outside
  held quiet := by
    rw [moved]
    rw [same] at quiet
    apply (exclusion.held quiet).move_outside
    intro owns
    exact outside (Standing.inside_of_owns _ owns)

private theorem inside_of_owning (owning : occupancy.standings call = .owning) :
    (occupancy.standings call).inside := by
  rw [owning]
  trivial

private theorem inside_of_resolving (resolving : occupancy.standings call = .resolving) :
    (occupancy.standings call).inside := by
  rw [resolving]
  trivial

theorem apply {move : Move} (exclusion : Exclusion occupancy) (enabled : move.Enabled occupancy)
    (alone : PassesAlone occupancy move) : Exclusion (move.apply occupancy) := by
  cases move with
  | rest => exact exclusion
  | passesCheck call =>
      have empty := exclusion.vacant_inside enabled.2 alone
      exact
        { inside := empty.enter
          held := fun quiet => (exclusion.held quiet).move_outside id }
  | abandons call => exact exclusion.leaves (inside_of_resolving enabled) rfl id
  | admits call =>
      have empty := exclusion.vacant_inside enabled.2 alone
      exact ⟨empty.enter, nofun⟩
  | registersInput call =>
      refine ⟨exclusion.inside, fun quiet => ?_⟩
      cases (Bool.or_eq_false_iff.mp quiet).2
  | registersConfirmation call =>
      exact exclusion.stays (inside_of_resolving enabled) rfl (Bool.or_true _)
  | dropsInput call => exact exclusion.leaves (inside_of_owning enabled) rfl id
  | dropsConfirmation call => exact exclusion.leaves (inside_of_owning enabled) rfl id
  | quits call => exact exclusion.leaves (inside_of_owning enabled) rfl id
  | marks call since => exact exclusion.moves_outside rfl id rfl
  | unmarks call since => exact exclusion.moves_outside rfl id rfl
  | breaksOff call since => exact exclusion.moves_outside rfl id rfl
  | closes call since => exact exclusion.moves_outside rfl id rfl
  | leaves call since => exact exclusion.moves_outside rfl id rfl
  | compacts => exact ⟨exclusion.inside, exclusion.held⟩
  | compactionEnds => exact ⟨exclusion.inside, exclusion.held⟩

private theorem entered_beside (outside : occupancy.standings call = .outside)
    (moved : after.standings = Function.update occupancy.standings call standing)
    (entered : standing.inside) (one : Exclusive Standing.inside after.standings) :
    Vacant Standing.resolves occupancy.standings := by
  intro other resolves
  have different : other ≠ call := by
    intro same
    rw [same, outside] at resolves
    exact resolves
  apply different
  apply one
  · rw [moved, Function.update_of_ne different]
    exact Standing.inside_of_resolves _ resolves
  · rw [moved, Function.update_self]
    exact entered

theorem passesAlone {move : Move} (enabled : move.Enabled occupancy)
    (one : Exclusive Standing.inside (move.apply occupancy).standings) :
    PassesAlone occupancy move := by
  cases move with
  | passesCheck call => exact entered_beside enabled.1 rfl (by trivial) one
  | admits call => exact entered_beside enabled.1 rfl (by trivial) one
  | _ => trivial

end Exclusion

/-! ### Maintenance apart from turns -/

structure Separation (occupancy : Occupancy) : Prop where
  owner : Exclusive Standing.owns occupancy.standings
  held : occupancy.running = false → Vacant Standing.owns occupancy.standings
  marker : Exclusive Standing.marked occupancy.standings
  raised : occupancy.maintenance = false → Vacant Standing.marked occupancy.standings
  apart : Vacant Standing.owns occupancy.standings ∨ Vacant Standing.marked occupancy.standings
  idle : occupancy.compacting = true → Vacant Standing.owns occupancy.standings
  current : ∀ call since, occupancy.standings call = .maintaining since →
    occupancy.inputsAdmitted ≤ since

def KeepsApart (occupancy : Occupancy) : Move → Prop
  | .admits _ => occupancy.compacting = false
  | .registersConfirmation _ => occupancy.active = false ∧ occupancy.compacting = false
  | .marks _ since => occupancy.active = false ∧ occupancy.inputsAdmitted ≤ since
  | .closes _ _ => Vacant Standing.marked occupancy.standings
  | .compacts => occupancy.active = false
  | _ => True

namespace Separation

variable {occupancy : Occupancy}

theorem of_vacant (owns : Vacant Standing.owns occupancy.standings)
    (marked : Vacant Standing.marked occupancy.standings) : Separation occupancy where
  owner := owns.exclusive
  held _ := owns
  marker := marked.exclusive
  raised _ := marked
  apart := Or.inl owns
  idle _ := owns
  current call since stands := by
    have vacant := marked call
    rw [stands] at vacant
    exact absurd trivial vacant

variable {call : Nat} {after : Occupancy}

private theorem vacant_marked (separation : Separation occupancy)
    (owns : (occupancy.standings call).owns) : Vacant Standing.marked occupancy.standings :=
  separation.apart.resolve_left fun vacant => vacant call owns

private theorem vacant_owns (separation : Separation occupancy)
    (marked : (occupancy.standings call).marked) : Vacant Standing.owns occupancy.standings :=
  separation.apart.resolve_right fun vacant => vacant call marked

private theorem vacant_of_idle (separation : Separation occupancy)
    (idle : occupancy.active = false) :
    Vacant Standing.owns occupancy.standings ∧ Vacant Standing.marked occupancy.standings :=
  ⟨separation.held (not_running_of_not_active idle),
    separation.raised (not_maintenance_of_not_active idle)⟩

private theorem moves_outside {standing : Standing} (separation : Separation occupancy)
    (moved : after.standings = Function.update occupancy.standings call standing)
    (unowned : ¬ standing.owns) (unmarked : ¬ standing.marked)
    (running : after.running = occupancy.running)
    (raised : after.maintenance = false → Vacant Standing.marked occupancy.standings)
    (compacting : after.compacting = occupancy.compacting)
    (admitted : after.inputsAdmitted = occupancy.inputsAdmitted) : Separation after where
  owner := by
    rw [moved]
    exact separation.owner.move_outside unowned
  held quiet := by
    rw [moved]
    rw [running] at quiet
    exact (separation.held quiet).move_outside unowned
  marker := by
    rw [moved]
    exact separation.marker.move_outside unmarked
  raised lowered := by
    rw [moved]
    exact (raised lowered).move_outside unmarked
  apart := by
    rw [moved]
    rcases separation.apart with owns | marked
    · exact Or.inl (owns.move_outside unowned)
    · exact Or.inr (marked.move_outside unmarked)
  idle compacts := by
    rw [moved]
    rw [compacting] at compacts
    exact (separation.idle compacts).move_outside unowned
  current other since stands := by
    rw [moved] at stands
    rw [admitted]
    by_cases same : other = call
    · subst same
      rw [Function.update_self] at stands
      rw [stands] at unmarked
      exact absurd trivial unmarked
    · rw [Function.update_of_ne same] at stands
      exact separation.current other since stands

private theorem occupies (owns : Vacant Standing.owns occupancy.standings)
    (marked : Vacant Standing.marked occupancy.standings)
    (moved : after.standings = Function.update occupancy.standings call .owning)
    (running : after.running = true) (compacting : after.compacting = false) :
    Separation after := by
  have unmarked : Vacant Standing.marked after.standings := by
    rw [moved]
    exact marked.move_outside id
  constructor
  · rw [moved]
    exact owns.enter
  · intro quiet
    rw [running] at quiet
    cases quiet
  · exact unmarked.exclusive
  · exact fun _ => unmarked
  · exact Or.inr unmarked
  · intro compacts
    rw [compacting] at compacts
    cases compacts
  · intro other since stands
    have vacant := unmarked other
    rw [stands] at vacant
    exact absurd trivial vacant

private theorem owner_leaves {standing : Standing} (separation : Separation occupancy)
    (owning : occupancy.standings call = .owning)
    (moved : after.standings = Function.update occupancy.standings call standing)
    (unowned : ¬ standing.owns) (unmarked : ¬ standing.marked) : Separation after := by
  have owns : (occupancy.standings call).owns := by
    rw [owning]
    trivial
  apply of_vacant
  · rw [moved]
    exact separation.owner.leave owns unowned
  · rw [moved]
    exact (separation.vacant_marked owns).move_outside unmarked

private theorem mark_drops {call since : Nat} {standing : Standing}
    (separation : Separation occupancy) (stands : occupancy.standings call = .maintaining since)
    (moved : after.standings = Function.update occupancy.standings call standing)
    (unowned : ¬ standing.owns) (unmarked : ¬ standing.marked) : Separation after := by
  have marked : (occupancy.standings call).marked := by
    rw [stands]
    trivial
  apply of_vacant
  · rw [moved]
    exact (separation.vacant_owns marked).move_outside unowned
  · rw [moved]
    exact separation.marker.leave marked unmarked

private theorem mark_raised {call since : Nat} (owns : Vacant Standing.owns occupancy.standings)
    (marked : Vacant Standing.marked occupancy.standings)
    (moved : after.standings = Function.update occupancy.standings call (.maintaining since))
    (raised : after.maintenance = true) (current : after.inputsAdmitted ≤ since) :
    Separation after := by
  have unowned : Vacant Standing.owns after.standings := by
    rw [moved]
    exact owns.move_outside id
  constructor
  · exact unowned.exclusive
  · exact fun _ => unowned
  · rw [moved]
    exact marked.enter
  · intro lowered
    rw [raised] at lowered
    cases lowered
  · exact Or.inl unowned
  · exact fun _ => unowned
  · intro other later stands
    rw [moved] at stands
    by_cases same : other = call
    · subst same
      rw [Function.update_self] at stands
      cases stands
      exact current
    · rw [Function.update_of_ne same] at stands
      have vacant := marked other
      rw [stands] at vacant
      exact absurd trivial vacant

theorem apply {move : Move} (separation : Separation occupancy)
    (enabled : move.Enabled occupancy) (apart : KeepsApart occupancy move) :
    Separation (move.apply occupancy) := by
  cases move with
  | rest => exact separation
  | passesCheck call =>
      exact separation.moves_outside rfl id id rfl separation.raised rfl rfl
  | abandons call => exact separation.moves_outside rfl id id rfl separation.raised rfl rfl
  | admits call =>
      obtain ⟨owns, marked⟩ := separation.vacant_of_idle enabled.2
      exact occupies owns marked rfl rfl apart
  | registersInput call =>
      refine { separation with held := fun quiet => ?_ }
      cases (Bool.or_eq_false_iff.mp quiet).2
  | registersConfirmation call =>
      obtain ⟨owns, marked⟩ := separation.vacant_of_idle apart.1
      exact occupies owns marked rfl (Bool.or_true _) apart.2
  | dropsInput call => exact separation.owner_leaves enabled rfl id id
  | dropsConfirmation call => exact separation.owner_leaves enabled rfl id id
  | quits call => exact separation.owner_leaves enabled rfl id id
  | marks call since =>
      obtain ⟨owns, marked⟩ := separation.vacant_of_idle apart.1
      exact mark_raised owns marked rfl rfl apart.2
  | unmarks call since => exact separation.mark_drops enabled rfl id id
  | breaksOff call since => exact separation.mark_drops enabled rfl id id
  | closes call since =>
      exact separation.moves_outside rfl id id rfl (fun _ => apart) rfl rfl
  | leaves call since => exact separation.moves_outside rfl id id rfl separation.raised rfl rfl
  | compacts =>
      have owns := (separation.vacant_of_idle apart).1
      exact { separation with idle := fun _ => owns }
  | compactionEnds => exact { separation with idle := nofun }

theorem active_of_owns (separation : Separation occupancy) (call : Nat)
    (owns : (occupancy.standings call).owns) : occupancy.active = true := by
  cases running : occupancy.running with
  | true =>
      unfold active
      rw [running]
      rfl
  | false => exact absurd owns (separation.held running call)

theorem active_of_marked (separation : Separation occupancy) (call : Nat)
    (marked : (occupancy.standings call).marked) : occupancy.active = true := by
  cases maintenance : occupancy.maintenance with
  | true =>
      unfold active
      rw [maintenance, Bool.or_true]
  | false => exact absurd marked (separation.raised maintenance call)

end Separation

end Occupancy

end Ftre.Runtime
