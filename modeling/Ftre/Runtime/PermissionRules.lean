import Ftre.Runtime.ToolPermission

/-!
What the permission engine decides depends on the rules that lead: the ones that match
with the highest priority. Neither their order nor the other rules play a part.
-/

namespace Ftre.Runtime

open Lib

namespace PermissionEngine

variable {fullmatch : String → Json → Bool} {request : PermissionRequest}

structure Leads (fullmatch : String → Json → Bool) (request : PermissionRequest)
    (rules : List PermissionRule) (rule : PermissionRule) : Prop where
  listed : rule ∈ rules
  matched : ruleMatches fullmatch request rule = true
  highest : ∀ other ∈ rules, ruleMatches fullmatch request other = true →
    other.priority ≤ rule.priority

theorem priority_le_highest (rule : PermissionRule) (others : List PermissionRule) :
    ∀ other ∈ rule :: others, other.priority ≤ highestPriority rule others := by
  unfold highestPriority
  generalize begun : rule.priority = start
  have least : ∀ (rest : List PermissionRule) (start : Int),
      start ≤ rest.foldl (fun highest other => max highest other.priority) start ∧
        ∀ other ∈ rest,
          other.priority ≤ rest.foldl (fun highest other => max highest other.priority) start := by
    intro rest
    induction rest with
    | nil => exact fun start => ⟨le_refl start, fun other member => by cases member⟩
    | cons head rest ih =>
        intro start
        obtain ⟨first, later⟩ := ih (max start head.priority)
        rw [List.foldl_cons]
        refine ⟨le_trans (le_max_left _ _) first, fun other member => ?_⟩
        cases List.mem_cons.mp member with
        | inl same =>
            rw [same]
            exact le_trans (le_max_right _ _) first
        | inr within => exact later other within
  intro other member
  cases List.mem_cons.mp member with
  | inl same =>
      rw [same, begun]
      exact (least others start).1
  | inr within => exact (least others start).2 other within

theorem exists_highest (rule : PermissionRule) (others : List PermissionRule) :
    ∃ leader ∈ rule :: others, leader.priority = highestPriority rule others := by
  unfold highestPriority
  induction others generalizing rule with
  | nil => exact ⟨rule, List.mem_singleton_self rule, rfl⟩
  | cons head rest ih =>
      rw [List.foldl_cons]
      cases le_total head.priority rule.priority with
      | inl lower =>
          rw [max_eq_left lower]
          obtain ⟨leader, member, same⟩ := ih rule
          refine ⟨leader, ?_, same⟩
          cases List.mem_cons.mp member with
          | inl first => exact first ▸ List.mem_cons_self
          | inr later => exact List.mem_cons_of_mem _ (List.mem_cons_of_mem _ later)
      | inr higher =>
          rw [max_eq_right higher]
          obtain ⟨leader, member, same⟩ := ih head
          exact ⟨leader, List.mem_cons_of_mem _ member, same⟩

def leaders (fullmatch : String → Json → Bool) (request : PermissionRequest)
    (rules : List PermissionRule) : List PermissionRule :=
  match rules.filter (ruleMatches fullmatch request) with
  | [] => []
  | rule :: others =>
      (rule :: others).filter fun other => decide (other.priority = highestPriority rule others)

theorem mem_leaders {rules : List PermissionRule} {rule : PermissionRule} :
    rule ∈ leaders fullmatch request rules ↔ Leads fullmatch request rules rule := by
  have within : ∀ {other}, other ∈ rules.filter (ruleMatches fullmatch request) ↔
      other ∈ rules ∧ ruleMatches fullmatch request other = true := List.mem_filter
  unfold leaders
  cases matching : rules.filter (ruleMatches fullmatch request) with
  | nil =>
      refine iff_of_false (List.not_mem_nil) fun leads => ?_
      have member := within.mpr ⟨leads.listed, leads.matched⟩
      rw [matching] at member
      exact List.not_mem_nil member
  | cons first others =>
      rw [matching] at within
      dsimp only
      rw [List.mem_filter, decide_eq_true_iff]
      constructor
      · intro ⟨member, top⟩
        refine ⟨(within.mp member).1, (within.mp member).2, fun other listed matched => ?_⟩
        rw [top]
        exact priority_le_highest first others other (within.mpr ⟨listed, matched⟩)
      · intro leads
        obtain ⟨leader, member, top⟩ := exists_highest first others
        have listed := within.mpr ⟨leads.listed, leads.matched⟩
        refine ⟨listed, le_antisymm (priority_le_highest first others rule listed) ?_⟩
        rw [← top]
        exact leads.highest leader (within.mp member).1 (within.mp member).2

theorem leaders_eq_nil_iff {rules : List PermissionRule} :
    leaders fullmatch request rules = [] ↔
      ∀ rule ∈ rules, ruleMatches fullmatch request rule = false := by
  unfold leaders
  constructor
  · intro unled
    cases matching : rules.filter (ruleMatches fullmatch request) with
    | nil =>
        intro rule listed
        exact Bool.eq_false_iff.mpr (List.filter_eq_nil_iff.mp matching rule listed)
    | cons first others =>
        rw [matching] at unled
        obtain ⟨leader, member, top⟩ := exists_highest first others
        exact absurd (decide_eq_true top) (List.filter_eq_nil_iff.mp unled leader member)
  · intro unmatched
    rw [List.filter_eq_nil_iff.mpr fun rule listed =>
      Bool.eq_false_iff.mp (unmatched rule listed)]

theorem evaluate_behavior (rules : List PermissionRule) (defaultBehavior : PermissionBehavior) :
    (evaluate fullmatch request rules defaultBehavior).behavior =
      match leaders fullmatch request rules with
      | [] => defaultBehavior
      | rule :: others =>
          if others.all fun other => decide (other.behavior = rule.behavior) then rule.behavior
          else .deny := by
  unfold evaluate leaders
  cases rules.filter (ruleMatches fullmatch request) with
  | nil => rfl
  | cons first others =>
      dsimp only
      cases (first :: others).filter fun other =>
          decide (other.priority = highestPriority first others) with
      | nil => rfl
      | cons leader rest =>
          dsimp only
          split <;> rfl

inductive Verdict (fullmatch : String → Json → Bool) (request : PermissionRequest)
    (rules : List PermissionRule) (defaultBehavior : PermissionBehavior) :
    PermissionBehavior → Prop where
  | unmatched (none : ∀ rule ∈ rules, ruleMatches fullmatch request rule = false) :
      Verdict fullmatch request rules defaultBehavior defaultBehavior
  | agreed (leader : PermissionRule) (leads : Leads fullmatch request rules leader)
      (same : ∀ other, Leads fullmatch request rules other → other.behavior = leader.behavior) :
      Verdict fullmatch request rules defaultBehavior leader.behavior
  | conflict (left right : PermissionRule) (leftLeads : Leads fullmatch request rules left)
      (rightLeads : Leads fullmatch request rules right)
      (differ : left.behavior ≠ right.behavior) :
      Verdict fullmatch request rules defaultBehavior .deny

theorem evaluate_verdict (rules : List PermissionRule) (defaultBehavior : PermissionBehavior) :
    Verdict fullmatch request rules defaultBehavior
      (evaluate fullmatch request rules defaultBehavior).behavior := by
  rw [evaluate_behavior]
  cases led : leaders fullmatch request rules with
  | nil => exact .unmatched (leaders_eq_nil_iff.mp led)
  | cons leader others =>
      have leads : ∀ {other}, other ∈ leader :: others ↔ Leads fullmatch request rules other := by
        intro other
        rw [← led]
        exact mem_leaders
      dsimp only
      split
      next agree =>
        refine .agreed leader (leads.mp List.mem_cons_self) fun other otherLeads => ?_
        cases List.mem_cons.mp (leads.mpr otherLeads) with
        | inl same => rw [same]
        | inr member => exact of_decide_eq_true (List.all_eq_true.mp agree other member)
      next disagree =>
        obtain ⟨other, member, differs⟩ : ∃ other ∈ others, other.behavior ≠ leader.behavior := by
          simpa using disagree
        exact .conflict other leader (leads.mp (List.mem_cons_of_mem _ member))
          (leads.mp List.mem_cons_self) differs

theorem Verdict.unique {rules : List PermissionRule}
    {defaultBehavior left right : PermissionBehavior}
    (leftVerdict : Verdict fullmatch request rules defaultBehavior left)
    (rightVerdict : Verdict fullmatch request rules defaultBehavior right) : left = right := by
  cases leftVerdict with
  | unmatched none =>
      cases rightVerdict with
      | unmatched _ => rfl
      | agreed leader leads _ =>
          exact absurd leads.matched (Bool.eq_false_iff.mp (none leader leads.listed))
      | conflict leader _ leads _ _ =>
          exact absurd leads.matched (Bool.eq_false_iff.mp (none leader leads.listed))
  | agreed leader leads same =>
      cases rightVerdict with
      | unmatched none =>
          exact absurd leads.matched (Bool.eq_false_iff.mp (none leader leads.listed))
      | agreed other otherLeads _ => exact (same other otherLeads).symm
      | conflict one two oneLeads twoLeads differ =>
          exact absurd ((same one oneLeads).trans (same two twoLeads).symm) differ
  | conflict one two oneLeads twoLeads differ =>
      cases rightVerdict with
      | unmatched none =>
          exact absurd oneLeads.matched (Bool.eq_false_iff.mp (none one oneLeads.listed))
      | agreed leader leads same =>
          exact absurd ((same one oneLeads).trans (same two twoLeads).symm) differ
      | conflict _ _ _ _ _ => rfl

theorem evaluate_congr {left right : List PermissionRule}
    (same : ∀ rule, rule ∈ left ↔ rule ∈ right) (defaultBehavior : PermissionBehavior) :
    (evaluate fullmatch request left defaultBehavior).behavior =
      (evaluate fullmatch request right defaultBehavior).behavior := by
  have leads : ∀ rule, Leads fullmatch request left rule ↔ Leads fullmatch request right rule :=
    fun rule =>
      ⟨fun leads => ⟨(same rule).mp leads.listed, leads.matched,
          fun other listed => leads.highest other ((same other).mpr listed)⟩,
        fun leads => ⟨(same rule).mpr leads.listed, leads.matched,
          fun other listed => leads.highest other ((same other).mp listed)⟩⟩
  have transferred : Verdict fullmatch request right defaultBehavior
      (evaluate fullmatch request left defaultBehavior).behavior := by
    have verdict : Verdict fullmatch request left defaultBehavior
        (evaluate fullmatch request left defaultBehavior).behavior :=
      evaluate_verdict left defaultBehavior
    generalize (evaluate fullmatch request left defaultBehavior).behavior = behavior at verdict ⊢
    cases verdict with
    | unmatched none => exact .unmatched fun rule listed => none rule ((same rule).mpr listed)
    | agreed leader led agree =>
        exact .agreed leader ((leads leader).mp led) fun other otherLeads =>
          agree other ((leads other).mpr otherLeads)
    | conflict one two oneLeads twoLeads differ =>
        exact .conflict one two ((leads one).mp oneLeads) ((leads two).mp twoLeads) differ
  exact transferred.unique (evaluate_verdict right defaultBehavior)

theorem evaluate_added (rules : List PermissionRule) (defaultBehavior : PermissionBehavior)
    (added : PermissionRule) :
    (evaluate fullmatch request (added :: rules) defaultBehavior).behavior = added.behavior ∨
      (evaluate fullmatch request (added :: rules) defaultBehavior).behavior = .deny ∨
      (evaluate fullmatch request (added :: rules) defaultBehavior).behavior =
        (evaluate fullmatch request rules defaultBehavior).behavior := by
  have verdict : Verdict fullmatch request (added :: rules) defaultBehavior
      (evaluate fullmatch request (added :: rules) defaultBehavior).behavior :=
    evaluate_verdict (added :: rules) defaultBehavior
  generalize (evaluate fullmatch request (added :: rules) defaultBehavior).behavior = behavior
    at verdict ⊢
  by_cases leading : Leads fullmatch request (added :: rules) added
  · cases verdict with
    | unmatched none =>
        exact absurd leading.matched (Bool.eq_false_iff.mp (none added leading.listed))
    | agreed leader leads same => exact Or.inl (same added leading).symm
    | conflict _ _ _ _ _ => exact Or.inr (Or.inl rfl)
  · -- A rule that does not lead is below a leading one, which is among the others.
    have older : ∀ {rule}, Leads fullmatch request (added :: rules) rule →
        Leads fullmatch request rules rule := by
      intro rule leads
      refine ⟨?_, leads.matched, fun other listed =>
        leads.highest other (List.mem_cons_of_mem _ listed)⟩
      cases List.mem_cons.mp leads.listed with
      | inl same => exact absurd (same ▸ leads) leading
      | inr member => exact member
    have newer : ∀ {leader rule}, Leads fullmatch request (added :: rules) leader →
        Leads fullmatch request rules rule → Leads fullmatch request (added :: rules) rule := by
      intro leader rule top leads
      refine ⟨List.mem_cons_of_mem _ leads.listed, leads.matched, fun other listed matched => ?_⟩
      exact le_trans (top.highest other listed matched)
        (leads.highest leader (older top).listed top.matched)
    have transferred : Verdict fullmatch request rules defaultBehavior behavior := by
      cases verdict with
      | unmatched none =>
          exact .unmatched fun rule listed => none rule (List.mem_cons_of_mem _ listed)
      | agreed leader leads same =>
          exact .agreed leader (older leads) fun other otherLeads =>
            same other (newer leads otherLeads)
      | conflict one two oneLeads twoLeads differ =>
          exact .conflict one two (older oneLeads) (older twoLeads) differ
    exact Or.inr (Or.inr (transferred.unique (evaluate_verdict rules defaultBehavior)))

end PermissionEngine

end Ftre.Runtime
