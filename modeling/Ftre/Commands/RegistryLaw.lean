import Ftre.Commands.CommandRuntime

/-!
The registry. Its tables are ordered by the length of the names, so the first match is a longest
one; a disposer undoes its own registration as long as no other entry has the name.
-/

namespace Ftre.Commands

open Lib

namespace Registry

/-- The match of the system table, else of the other one, that no longer match exists for. -/
structure Chosen (registry : Registry) (content : Text) (found : Registration) : Prop where
  listed : found ∈ registry.table found.definition.system
  matched : matches? (Session.stripChars content) found = true
  longest : ∀ entry ∈ registry.table found.definition.system,
    matches? (Session.stripChars content) entry = true →
      entry.definition.command.length ≤ found.definition.command.length
  systemFirst : found.definition.system = false → ∀ entry ∈ registry.systemEntries,
    matches? (Session.stripChars content) entry = false

structure Sound (registry : Registry) (issued : List CommandDef) : Prop where
  once : (registry.all.map Registration.number).Nodup
  issued : ∀ entry ∈ registry.all, issued[entry.number]? = some entry.definition
  placed : ∀ system, ∀ entry ∈ registry.table system, entry.definition.system = system
  unique : ∀ system, ((registry.table system).map fun entry => entry.definition.command).Nodup
  ordered : ∀ system, (registry.table system).Pairwise fun left right =>
    longerFirst left right = true

theorem table_true (registry : Registry) : registry.table true = registry.systemEntries := rfl

theorem table_false (registry : Registry) : registry.table false = registry.entries := rfl

theorem mem_all {registry : Registry} {entry : Registration} :
    entry ∈ registry.all ↔ ∃ system, entry ∈ registry.table system := by
  unfold all
  rw [List.mem_append]
  constructor
  · rintro (first | second)
    · exact ⟨true, first⟩
    · exact ⟨false, second⟩
  · rintro ⟨system, member⟩
    cases system with
    | true => exact Or.inl member
    | false => exact Or.inr member

theorem sound_empty : empty.Sound [] where
  once := List.nodup_nil
  issued := fun _ member => absurd member List.not_mem_nil
  placed := by
    intro system entry member
    cases system <;> exact absurd member List.not_mem_nil
  unique := by
    intro system
    cases system <;> exact List.nodup_nil
  ordered := by
    intro system
    cases system <;> exact List.Pairwise.nil

theorem table_withTable (registry : Registry) (system other : Bool)
    (entries : List Registration) :
    (registry.withTable system entries).table other =
      if other = system then entries else registry.table other := by
  cases system <;> cases other <;> rfl

private theorem find_longest {entries : List Registration} {accepts : Registration → Bool}
    (ordered : entries.Pairwise fun left right => longerFirst left right = true)
    {found : Registration} (first : entries.find? accepts = some found) :
    ∀ entry ∈ entries, accepts entry = true →
      entry.definition.command.length ≤ found.definition.command.length := by
  induction entries with
  | nil => cases first
  | cons head rest ih =>
      rw [List.pairwise_cons] at ordered
      intro entry member accepted
      by_cases hit : accepts head = true
      · rw [List.find?_cons_of_pos hit] at first
        cases first
        rcases List.mem_cons.mp member with same | later
        · rw [same]
        · exact of_decide_eq_true (ordered.1 entry later)
      · rw [List.find?_cons_of_neg hit] at first
        rcases List.mem_cons.mp member with same | later
        · rw [same] at accepted
          exact absurd accepted hit
        · exact ih ordered.2 first entry later accepted

variable {issued : List CommandDef} {registry after : Registry}

theorem Sound.chosen {registry : Registry} (sound : registry.Sound issued) {content : Text}
    {found : Registration} (parsed : registry.parse content = some found) :
    registry.Chosen content found := by
  obtain ⟨raw, read, first⟩ := Option.bind_eq_some_iff.mp parsed
  have same : raw = content := by
    unfold textFrom at read
    split at read
    · exact (Option.some.inj read).symm
    · cases read
  rw [same] at first
  unfold findMatch all at first
  rw [List.find?_append] at first
  cases hit : registry.systemEntries.find? (matches? (Session.stripChars content)) with
  | some entry =>
      rw [hit] at first
      cases first
      have member := List.mem_of_find?_eq_some hit
      have place := sound.placed true found member
      refine ⟨?_, List.find?_some hit, ?_, ?_⟩
      · rw [place]
        exact member
      · rw [place]
        exact find_longest (sound.ordered true) hit
      · intro ordinary
        rw [place] at ordinary
        cases ordinary
  | none =>
      rw [hit] at first
      change registry.entries.find? (matches? (Session.stripChars content)) = some found at first
      have member := List.mem_of_find?_eq_some first
      have place := sound.placed false found member
      refine ⟨?_, List.find?_some first, ?_, ?_⟩
      · rw [place]
        exact member
      · rw [place]
        exact find_longest (sound.ordered false) first
      · intro _ entry listed
        exact Bool.eq_false_of_not_eq_true (List.find?_eq_none.mp hit entry listed)

/-! ### Registering -/

private theorem longerFirst_trans (first second third : Registration)
    (left : longerFirst first second = true) (right : longerFirst second third = true) :
    longerFirst first third = true :=
  decide_eq_true (Nat.le_trans (of_decide_eq_true right) (of_decide_eq_true left))

private theorem longerFirst_total (left right : Registration) :
    (longerFirst left right || longerFirst right left) = true := by
  unfold longerFirst
  rw [Bool.or_eq_true, decide_eq_true_iff, decide_eq_true_iff]
  exact Nat.le_total _ _

theorem registerDef_table {added : Registration}
    (registered : registry.registerDef added = some after) :
    (∀ entry ∈ registry.table added.definition.system,
      entry.definition.command ≠ added.definition.command) ∧
    after = registry.withTable added.definition.system
      ((registry.table added.definition.system ++ [added]).mergeSort longerFirst) := by
  unfold registerDef at registered
  dsimp only at registered
  split at registered
  · cases registered
  · rename_i free
    refine ⟨?_, (Option.some.inj registered).symm⟩
    intro entry member same
    exact free (List.any_eq_true.mpr ⟨entry, member, decide_eq_true same⟩)

theorem registerDef_perm {added : Registration}
    (registered : registry.registerDef added = some after) :
    after.all.Perm (registry.all ++ [added]) := by
  have sorted := List.mergeSort_perm (registry.table added.definition.system ++ [added])
    longerFirst
  rw [(registerDef_table registered).2]
  unfold all
  cases place : added.definition.system with
  | true =>
      rw [place] at sorted
      change (List.mergeSort (registry.systemEntries ++ [added]) longerFirst ++
        registry.entries).Perm _
      apply (sorted.append_right _).trans
      change (registry.systemEntries ++ [added] ++ registry.entries).Perm
        (registry.systemEntries ++ registry.entries ++ [added])
      rw [List.append_assoc, List.append_assoc]
      exact List.perm_append_comm.append_left _
  | false =>
      rw [place] at sorted
      change (registry.systemEntries ++
        List.mergeSort (registry.entries ++ [added]) longerFirst).Perm _
      apply (sorted.append_left _).trans
      rw [List.append_assoc]
      rfl

theorem Sound.register (sound : registry.Sound issued) {definition : CommandDef}
    (registered : registry.registerDef ⟨issued.length, definition⟩ = some after) :
    after.Sound (issued ++ [definition]) := by
  obtain ⟨free, same⟩ := registerDef_table registered
  have perm := registerDef_perm registered
  have below : ∀ entry ∈ registry.all, entry.number < issued.length := by
    intro entry member
    exact (List.getElem?_eq_some_iff.mp (sound.issued entry member)).1
  have sorted := List.mergeSort_perm
    (registry.table definition.system ++ [⟨issued.length, definition⟩]) longerFirst
  refine ⟨?_, ?_, ?_, ?_, ?_⟩
  · apply ((perm.map Registration.number).nodup_iff).mpr
    rw [List.map_append, List.nodup_append]
    refine ⟨sound.once, List.nodup_singleton _, ?_⟩
    intro number listed other own equal
    obtain ⟨entry, member, number_eq⟩ := List.mem_map.mp listed
    have last : other = issued.length := List.mem_singleton.mp own
    have smaller := below entry member
    omega
  · intro entry member
    rcases List.mem_append.mp (perm.mem_iff.mp member) with old | own
    · rw [List.getElem?_append_left (below entry old)]
      exact sound.issued entry old
    · rw [List.mem_singleton.mp own]
      exact List.getElem?_concat_length
  · intro system entry member
    rw [same, table_withTable] at member
    split at member
    · rename_i own
      rcases List.mem_append.mp (sorted.mem_iff.mp member) with old | new
      · rw [own]
        exact sound.placed _ entry old
      · rw [List.mem_singleton.mp new, own]
    · exact sound.placed system entry member
  · intro system
    rw [same, table_withTable]
    split
    · apply ((sorted.map _).nodup_iff).mpr
      rw [List.map_append, List.nodup_append]
      refine ⟨sound.unique _, List.nodup_singleton _, ?_⟩
      intro name listed other own equal
      obtain ⟨entry, member, name_eq⟩ := List.mem_map.mp listed
      have last : other = definition.command := List.mem_singleton.mp own
      apply free entry member
      change entry.definition.command = definition.command
      rw [← last, ← equal, ← name_eq]
    · exact sound.unique system
  · intro system
    rw [same, table_withTable]
    split
    · exact List.pairwise_mergeSort longerFirst_trans longerFirst_total _
    · exact sound.ordered system

/-! ### Disposing -/

def Clear (registry : Registry) (number : Nat) (definition : CommandDef) : Prop :=
  if ∃ entry ∈ registry.all, entry.number = number then
    definition.system = true ∨ ∀ entry ∈ registry.systemEntries,
      entry.definition.command ≠ definition.command
  else ∀ entry ∈ registry.all, entry.definition.command ≠ definition.command

theorem unregister_sublist (registry : Registry) (command : Text) (system : Bool) :
    ((registry.unregister command).table system).Sublist (registry.table system) := by
  unfold unregister
  split
  · cases system with
    | true => exact List.eraseP_sublist
    | false => exact List.Sublist.refl _
  · cases system with
    | true => exact List.Sublist.refl _
    | false => exact List.eraseP_sublist

theorem Sound.unregister {registry : Registry} (sound : registry.Sound issued) (command : Text) :
    (registry.unregister command).Sound issued := by
  have sublist := unregister_sublist registry command
  have all : (registry.unregister command).all.Sublist registry.all :=
    (sublist true).append (sublist false)
  refine ⟨sound.once.sublist (all.map _), ?_, ?_, ?_, ?_⟩
  · exact fun entry member => sound.issued entry (all.subset member)
  · exact fun system entry member => sound.placed system entry ((sublist system).subset member)
  · exact fun system => (sound.unique system).sublist ((sublist system).map _)
  · exact fun system => (sound.ordered system).sublist (sublist system)

private theorem mem_eraseP_named {entries : List Registration} {command : Text}
    (distinct : (entries.map fun entry => entry.definition.command).Nodup)
    {entry : Registration} :
    entry ∈ entries.eraseP (named command) ↔
      entry ∈ entries ∧ entry.definition.command ≠ command := by
  induction entries with
  | nil => exact ⟨fun member => absurd member List.not_mem_nil, fun found => found.1⟩
  | cons head rest ih =>
      rw [List.map_cons, List.nodup_cons] at distinct
      by_cases hit : head.definition.command = command
      · have first : named command head = true := decide_eq_true hit
        rw [List.eraseP_cons_of_pos first, List.mem_cons]
        constructor
        · intro later
          refine ⟨Or.inr later, fun same => distinct.1 ?_⟩
          rw [hit, ← same]
          exact List.mem_map_of_mem later
        · rintro ⟨same | later, other⟩
          · rw [same] at other
            exact absurd hit other
          · exact later
      · have kept : ¬ named command head = true := fun found => hit (of_decide_eq_true found)
        rw [List.eraseP_cons_of_neg kept, List.mem_cons, List.mem_cons, ih distinct.2]
        constructor
        · rintro (same | ⟨later, other⟩)
          · rw [same]
            exact ⟨Or.inl rfl, hit⟩
          · exact ⟨Or.inr later, other⟩
        · rintro ⟨same | later, other⟩
          · exact Or.inl same
          · exact Or.inr ⟨later, other⟩

theorem Sound.dispose {registry : Registry} (sound : registry.Sound issued) {number : Nat}
    {definition : CommandDef} (known : issued[number]? = some definition)
    (clear : registry.Clear number definition) (entry : Registration) :
    entry ∈ (registry.unregister definition.command).all ↔
      entry ∈ registry.all ∧ entry.number ≠ number := by
  have systemNames := sound.unique true
  have names := sound.unique false
  rw [table_true] at systemNames
  rw [table_false] at names
  have member : entry ∈ (registry.unregister definition.command).all ↔
      if registry.systemEntries.any (named definition.command) = true then
        (entry ∈ registry.systemEntries ∧ entry.definition.command ≠ definition.command) ∨
          entry ∈ registry.entries
      else entry ∈ registry.systemEntries ∨
        (entry ∈ registry.entries ∧ entry.definition.command ≠ definition.command) := by
    unfold Registry.unregister all
    split
    · rw [List.mem_append, mem_eraseP_named systemNames]
    · rw [List.mem_append, mem_eraseP_named names]
  have own : ∀ other ∈ registry.all, other.number = number → other.definition = definition := by
    intro other listed same
    have recorded := sound.issued other listed
    rw [same, known] at recorded
    exact (Option.some.inj recorded).symm
  rw [member]
  unfold Clear at clear
  split at clear
  · rename_i registered
    obtain ⟨mine, listed, numbered⟩ := registered
    have defined := own mine listed numbered
    -- Names are distinct in a table, so the entry of the name there is the disposer's own.
    have single : ∀ other ∈ registry.table definition.system,
        other.definition.command = definition.command → other.number = number := by
      intro other inside same
      obtain ⟨system, place⟩ := mem_all.mp listed
      have mineThere : system = definition.system := by
        rw [← sound.placed system mine place, defined]
      rw [mineThere] at place
      have equal := List.inj_on_of_nodup_map (sound.unique definition.system) inside place
        (by rw [same, defined])
      rw [equal]
      exact numbered
    have numbers : ∀ other ∈ registry.all, other.number = number → other = mine :=
      fun other inside same =>
        List.inj_on_of_nodup_map sound.once inside listed (same.trans numbered.symm)
    cases place : definition.system with
    | true =>
        rw [place] at single
        have mineSystem : mine ∈ registry.systemEntries := by
          obtain ⟨system, inside⟩ := mem_all.mp listed
          have same := sound.placed system mine inside
          rw [defined, place] at same
          rw [← same] at inside
          exact inside
        have any : registry.systemEntries.any (named definition.command) = true :=
          List.any_eq_true.mpr ⟨mine, mineSystem, decide_eq_true (by rw [defined])⟩
        rw [if_pos any]
        unfold all
        rw [List.mem_append]
        constructor
        · rintro (⟨system, other⟩ | ordinary)
          · refine ⟨Or.inl system, fun same => other ?_⟩
            rw [own entry (List.mem_append_left _ system) same]
          · refine ⟨Or.inr ordinary, fun same => ?_⟩
            have placed := sound.placed false entry ordinary
            rw [own entry (List.mem_append_right _ ordinary) same, place] at placed
            cases placed
        · rintro ⟨system | ordinary, other⟩
          · exact Or.inl ⟨system, fun same => other (single entry system same)⟩
          · exact Or.inr ordinary
    | false =>
        rw [place] at single
        have free := clear.resolve_left (by rw [place]; exact Bool.false_ne_true)
        have none : ¬ registry.systemEntries.any (named definition.command) = true := by
          intro found
          obtain ⟨other, inside, same⟩ := List.any_eq_true.mp found
          exact free other inside (of_decide_eq_true same)
        rw [if_neg none]
        unfold all
        rw [List.mem_append]
        constructor
        · rintro (system | ⟨ordinary, other⟩)
          · refine ⟨Or.inl system, fun same => ?_⟩
            have placed := sound.placed true entry system
            rw [own entry (List.mem_append_left _ system) same, place] at placed
            cases placed
          · refine ⟨Or.inr ordinary, fun same => other ?_⟩
            rw [own entry (List.mem_append_right _ ordinary) same]
        · rintro ⟨system | ordinary, other⟩
          · exact Or.inl system
          · exact Or.inr ⟨ordinary, fun same => other (single entry ordinary same)⟩
  · rename_i absent
    have other : ∀ found ∈ registry.all, found.number ≠ number :=
      fun found inside same => absent ⟨found, inside, same⟩
    have none : ¬ registry.systemEntries.any (named definition.command) = true := by
      intro found
      obtain ⟨hit, inside, same⟩ := List.any_eq_true.mp found
      exact clear hit (List.mem_append_left _ inside) (of_decide_eq_true same)
    rw [if_neg none]
    unfold all
    rw [List.mem_append]
    constructor
    · rintro (system | ⟨ordinary, _⟩)
      · exact ⟨Or.inl system, other entry (List.mem_append_left _ system)⟩
      · exact ⟨Or.inr ordinary, other entry (List.mem_append_right _ ordinary)⟩
    · rintro ⟨system | ordinary, _⟩
      · exact Or.inl system
      · exact Or.inr ⟨ordinary, clear entry (List.mem_append_right _ ordinary)⟩

end Registry

end Ftre.Commands
