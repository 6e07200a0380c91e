import Ftre.Lib.KeyedList
import Ftre.Lib.StepSystem

/-!
The tool registry: contributions of a scope, restrictions up to a scope, and the tools an
agent sees in a session. Of contributions with one name the last one registered is seen.
-/

namespace Ftre.Tools

open Lib

/-- `global`, `agent:<id>` and `session:<id>`; contributions of other scopes are never seen. -/
inductive ToolScope where
  | global
  | agent (id : String)
  | session (id : String)
  | other (name : String)
deriving DecidableEq, Repr

def scopeRank : ToolScope → Nat
  | .session _ => 2
  | .agent _ => 1
  | _ => 0

structure ToolContribution (δ : Type) where
  name : String
  owner : String
  source : String
  scope : ToolScope
  definition : δ
deriving DecidableEq

inductive MaxScope where
  | global
  | agent
  | session
deriving DecidableEq, Repr

def MaxScope.rank : MaxScope → Nat
  | .global => 0
  | .agent => 1
  | .session => 2

/-- A restriction of an agent, in one session or in all. -/
structure ToolRestriction where
  agentId : String
  owner : String
  allow : List String
  deny : List String
  sessionId : Option String
  maxScope : MaxScope
deriving DecidableEq

structure ToolService (δ : Type) where
  items : List (ToolContribution δ)
  restrictions : List ToolRestriction
deriving DecidableEq

variable {δ : Type}

def ToolService.empty : ToolService δ := ⟨[], []⟩

def inScope (agentId : String) (sessionId : Option String) (item : ToolContribution δ) : Bool :=
  match item.scope with
  | .global => true
  | .agent id => decide (id = agentId)
  | .session id => decide (sessionId = some id)
  | .other _ => false

def ToolRestriction.applies (restriction : ToolRestriction) (agentId : String)
    (sessionId : Option String) : Bool :=
  decide (restriction.agentId = agentId) &&
    restriction.sessionId.all fun id => decide (some id = sessionId)

def ToolRestriction.passes (restriction : ToolRestriction) (item : ToolContribution δ) : Bool :=
  decide (scopeRank item.scope > restriction.maxScope.rank) ||
    (restriction.allow.isEmpty || decide (item.name ∈ restriction.allow)) &&
      decide (item.name ∉ restriction.deny)

def restrictCandidates (restriction : ToolRestriction) (candidates : List (ToolContribution δ)) :
    List (ToolContribution δ) :=
  let maxRank := restriction.maxScope.rank
  let allowed :=
    if restriction.allow.isEmpty then candidates
    else candidates.filter fun item =>
      decide (item.name ∈ restriction.allow) || decide (scopeRank item.scope > maxRank)
  if restriction.deny.isEmpty then allowed
  else allowed.filter fun item =>
    decide (item.name ∉ restriction.deny) || decide (scopeRank item.scope > maxRank)

def candidates (service : ToolService δ) (agentId : String) (sessionId : Option String) :
    List (ToolContribution δ) :=
  service.restrictions.reverse.foldl
    (fun current restriction =>
      if restriction.applies agentId sessionId then restrictCandidates restriction current
      else current)
    (service.items.filter (inScope agentId sessionId))

abbrev ToolsByName (δ : Type) := KeyedList (ToolContribution.name : ToolContribution δ → String)

/-- `_visible` for an agent: a later candidate takes the place of an earlier one. -/
def visible (service : ToolService δ) (agentId : String) (sessionId : Option String) :
    ToolsByName δ :=
  (candidates service agentId sessionId).foldl KeyedList.put .empty

inductive ToolAction (δ : Type) where
  | register (contribution : ToolContribution δ)
  | dispose (contribution : ToolContribution δ)
  | restrict (restriction : ToolRestriction)
  | disposeRestriction (restriction : ToolRestriction)

def toolStep [DecidableEq δ] (service : ToolService δ) : ToolAction δ → Option (ToolService δ)
  | .register contribution =>
      if service.items.any fun item =>
          decide (item.name = contribution.name ∧ item.scope = contribution.scope) then none
      else some { service with items := service.items ++ [contribution] }
  | .dispose contribution =>
      if contribution ∈ service.items then
        some { service with items := service.items.erase contribution }
      else none
  | .restrict restriction =>
      some { service with restrictions := service.restrictions ++ [restriction] }
  | .disposeRestriction restriction =>
      if restriction ∈ service.restrictions then
        some { service with restrictions := service.restrictions.erase restriction }
      else none

def toolRegistry (δ : Type) [DecidableEq δ] : StepSystem (ToolService δ) (ToolAction δ) :=
  ⟨toolStep⟩

/-- No contribution is registered behind one of its name with a higher scope. -/
def registersUpward (service : ToolService δ) : ToolAction δ → Prop
  | .register contribution => (service.items.all fun item =>
      decide (item.name = contribution.name → scopeRank item.scope ≤ scopeRank contribution.scope)) =
        true
  | _ => True

instance (service : ToolService δ) (action : ToolAction δ) :
    Decidable (registersUpward service action) := by
  cases action with
  | register contribution => exact inferInstanceAs (Decidable (_ = true))
  | dispose contribution => exact inferInstanceAs (Decidable True)
  | restrict restriction => exact inferInstanceAs (Decidable True)
  | disposeRestriction restriction => exact inferInstanceAs (Decidable True)

/-! ### Survivors -/

def Survives (service : ToolService δ) (agentId : String) (sessionId : Option String)
    (item : ToolContribution δ) : Prop :=
  item ∈ service.items ∧ inScope agentId sessionId item = true ∧
    ∀ restriction ∈ service.restrictions, restriction.applies agentId sessionId = true →
      restriction.passes item = true

/-- What is seen is the survivor of the highest scope; a restriction changes nothing above
its scope. -/
structure ScopePrecedence (service : ToolService δ) : Prop where
  highest : ∀ agentId sessionId item,
    (visible service agentId sessionId).find? item.name = some item ↔
      Survives service agentId sessionId item ∧
        ∀ other, Survives service agentId sessionId other → other.name = item.name →
          scopeRank other.scope ≤ scopeRank item.scope
  seen : ∀ agentId sessionId item, Survives service agentId sessionId item →
    ((visible service agentId sessionId).find? item.name).isSome = true
  above : ∀ agentId sessionId restriction item,
    restriction.maxScope.rank < scopeRank item.scope →
      ((visible { service with restrictions := service.restrictions ++ [restriction] }
          agentId sessionId).find? item.name = some item ↔
        (visible service agentId sessionId).find? item.name = some item)

variable {item : ToolContribution δ} {service : ToolService δ} {sessionId : Option String}

theorem mem_restrictCandidates {restriction : ToolRestriction}
    {candidates : List (ToolContribution δ)} :
    item ∈ restrictCandidates restriction candidates ↔
      item ∈ candidates ∧ restriction.passes item = true := by
  unfold restrictCandidates ToolRestriction.passes
  cases allow : restriction.allow with
  | nil =>
      cases deny : restriction.deny with
      | nil => simp
      | cons name others => simp [or_comm]
  | cons allowed rest =>
      cases deny : restriction.deny with
      | nil =>
          simp [or_comm]
      | cons name others =>
          simp
          tauto

theorem restrictCandidates_sublist (restriction : ToolRestriction)
    (candidates : List (ToolContribution δ)) :
    (restrictCandidates restriction candidates).Sublist candidates := by
  unfold restrictCandidates
  dsimp only
  split
  · split
    · exact List.Sublist.refl _
    · exact List.filter_sublist
  · split
    · exact List.filter_sublist
    · exact List.filter_sublist.trans List.filter_sublist

theorem mem_candidates {agentId : String} :
    item ∈ candidates service agentId sessionId ↔ Survives service agentId sessionId item := by
  have folded : ∀ (restrictions : List ToolRestriction) (current : List (ToolContribution δ)),
      item ∈ restrictions.foldl (fun current restriction =>
        if restriction.applies agentId sessionId then restrictCandidates restriction current
        else current) current ↔
      item ∈ current ∧ ∀ restriction ∈ restrictions,
        restriction.applies agentId sessionId = true → restriction.passes item = true := by
    intro restrictions
    induction restrictions with
    | nil => intro current; simp
    | cons restriction rest ih =>
        intro current
        rw [List.foldl_cons, ih, List.forall_mem_cons]
        by_cases applies : restriction.applies agentId sessionId = true
        · rw [if_pos applies, mem_restrictCandidates]
          tauto
        · rw [if_neg applies]
          tauto
  rw [candidates, folded, List.mem_filter, Survives, and_assoc]
  simp only [List.mem_reverse]

theorem candidates_sublist (service : ToolService δ) (agentId : String)
    (sessionId : Option String) :
    (candidates service agentId sessionId).Sublist service.items := by
  have folded : ∀ (restrictions : List ToolRestriction) (current : List (ToolContribution δ)),
      (restrictions.foldl (fun current restriction =>
        if restriction.applies agentId sessionId then restrictCandidates restriction current
        else current) current).Sublist current := by
    intro restrictions
    induction restrictions with
    | nil => exact fun current => List.Sublist.refl _
    | cons restriction rest ih =>
        intro current
        rw [List.foldl_cons]
        refine (ih _).trans ?_
        split
        · exact restrictCandidates_sublist restriction current
        · exact List.Sublist.refl _
  exact (folded _ _).trans List.filter_sublist

/-! ### Order of registration -/

def Upward (left right : ToolContribution δ) : Prop :=
  left.name = right.name → left.scope ≠ right.scope ∧ scopeRank left.scope ≤ scopeRank right.scope

theorem scope_of_rank {agentId : String} {left right : ToolContribution δ}
    (first : inScope agentId sessionId left = true)
    (second : inScope agentId sessionId right = true)
    (same : scopeRank left.scope = scopeRank right.scope) : left.scope = right.scope := by
  unfold inScope at first second
  cases leftScope : left.scope <;> cases rightScope : right.scope <;>
    rw [leftScope] at first same <;> rw [rightScope] at second same <;>
    simp_all [scopeRank]

theorem candidates_upward (upward : service.items.Pairwise Upward) (agentId : String)
    (sessionId : Option String) :
    (candidates service agentId sessionId).Pairwise fun left right =>
      left.name = right.name → scopeRank left.scope < scopeRank right.scope := by
  have ordered := upward.sublist (candidates_sublist service agentId sessionId)
  refine ordered.imp_of_mem ?_
  intro left right leftIn rightIn up named
  obtain ⟨different, notLower⟩ := up named
  apply Nat.lt_of_le_of_ne notLower
  intro same
  exact different (scope_of_rank (mem_candidates.mp leftIn).2.1 (mem_candidates.mp rightIn).2.1 same)

theorem last_iff_highest {items : List (ToolContribution δ)}
    (upward : items.Pairwise fun left right =>
      left.name = right.name → scopeRank left.scope < scopeRank right.scope)
    {item : ToolContribution δ} :
    (items.reverse.find? fun other => decide (other.name = item.name)) = some item ↔
      item ∈ items ∧ ∀ other ∈ items, other.name = item.name →
        scopeRank other.scope ≤ scopeRank item.scope := by
  have parted : ∀ last, (items.reverse.find? fun other => decide (other.name = item.name)) =
      some last → last ∈ items ∧ last.name = item.name ∧
        ∀ other ∈ items, other.name = item.name →
          other = last ∨ scopeRank other.scope < scopeRank last.scope := by
    intro last found
    obtain ⟨named, behind, before, split, plain⟩ := List.find?_eq_some_iff_append.mp found
    have name : last.name = item.name := of_decide_eq_true named
    have whole : items = before.reverse ++ last :: behind.reverse := by
      rw [← List.reverse_reverse items, split]
      simp
    refine ⟨by rw [whole]; simp, name, ?_⟩
    intro other present own
    rw [whole] at present
    rcases List.mem_append.mp present with front | back
    · right
      rw [whole] at upward
      exact (List.pairwise_append.mp upward).2.2 other front last List.mem_cons_self
        (own.trans name.symm)
    · rcases List.mem_cons.mp back with same | later
      · exact Or.inl same
      · have absent := plain other (List.mem_reverse.mp later)
        rw [own] at absent
        simp at absent
  constructor
  · intro found
    obtain ⟨member, _, others⟩ := parted item found
    refine ⟨member, ?_⟩
    intro other present own
    rcases others other present own with same | lower
    · subst same
      exact Nat.le_refl _
    · exact Nat.le_of_lt lower
  · rintro ⟨member, highest⟩
    cases found : items.reverse.find? fun other => decide (other.name = item.name) with
    | none =>
        have absent := List.find?_eq_none.mp found item (List.mem_reverse.mpr member)
        simp at absent
    | some last =>
        obtain ⟨present, name, others⟩ := parted last found
        rcases others item member rfl with same | lower
        · rw [same]
        · exact absurd (highest last present name) (Nat.not_le.mpr lower)

theorem find?_visible (service : ToolService δ) (agentId : String) (sessionId : Option String)
    (name : String) :
    (visible service agentId sessionId).find? name =
      (candidates service agentId sessionId).reverse.find? fun item => decide (item.name = name) := by
  rw [visible, KeyedList.find?_foldl_put_last, KeyedList.find?_empty, Option.or_none]

theorem visible_iff (upward : service.items.Pairwise Upward) (agentId : String)
    (sessionId : Option String) (item : ToolContribution δ) :
    (visible service agentId sessionId).find? item.name = some item ↔
      Survives service agentId sessionId item ∧
        ∀ other, Survives service agentId sessionId other → other.name = item.name →
          scopeRank other.scope ≤ scopeRank item.scope := by
  rw [find?_visible, last_iff_highest (candidates_upward upward agentId sessionId)]
  simp only [mem_candidates]

theorem survives_restricted {agentId : String} {restriction : ToolRestriction}
    (above : restriction.maxScope.rank < scopeRank item.scope) :
    Survives { service with restrictions := service.restrictions ++ [restriction] }
        agentId sessionId item ↔ Survives service agentId sessionId item := by
  have passes : restriction.passes item = true := by
    unfold ToolRestriction.passes
    rw [decide_eq_true above]
    rfl
  unfold Survives
  simp only [List.mem_append, List.mem_singleton]
  constructor
  · rintro ⟨member, own, all⟩
    exact ⟨member, own, fun other present => all other (Or.inl present)⟩
  · rintro ⟨member, own, all⟩
    refine ⟨member, own, ?_⟩
    intro other present applies
    rcases present with old | new
    · exact all other old applies
    · rw [new]
      exact passes

theorem scopePrecedence (upward : service.items.Pairwise Upward) :
    ScopePrecedence service where
  highest := visible_iff upward
  seen := by
    intro agentId sessionId item survives
    rw [find?_visible, List.find?_isSome]
    exact ⟨item, List.mem_reverse.mpr (mem_candidates.mpr survives), decide_eq_true rfl⟩
  above := by
    intro agentId sessionId restriction item above
    rw [visible_iff upward, @visible_iff _ { service with
      restrictions := service.restrictions ++ [restriction] } upward, survives_restricted above]
    apply and_congr_right
    intro survives
    constructor
    · intro highest other present named
      -- What the restriction takes away is not above its scope.
      by_cases higher : scopeRank item.scope < scopeRank other.scope
      · exact highest other ((survives_restricted (Nat.lt_trans above higher)).mpr present) named
      · exact Nat.le_of_not_lt higher
    · intro highest other present named
      refine highest other ⟨present.1, present.2.1, ?_⟩ named
      intro given listed applies
      exact present.2.2 given (List.mem_append_left _ listed) applies

theorem upward_step [DecidableEq δ] {before after : ToolService δ} {action : ToolAction δ}
    (upward : before.items.Pairwise Upward) (allowed : registersUpward before action)
    (stepped : (toolRegistry δ).step before action = some after) :
    after.items.Pairwise Upward := by
  cases action with
  | register contribution =>
      change (if before.items.any (fun item =>
        decide (item.name = contribution.name ∧ item.scope = contribution.scope)) then none
        else some { before with items := before.items ++ [contribution] }) = some after at stepped
      obtain ⟨fresh, moved⟩ := Option.ite_none_left_eq_some.mp stepped
      cases moved
      rw [List.pairwise_append]
      refine ⟨upward, List.pairwise_singleton _ _, ?_⟩
      intro item present other only named
      rw [List.mem_singleton.mp only] at named ⊢
      constructor
      · intro same
        apply fresh
        rw [List.any_eq_true]
        exact ⟨item, present, decide_eq_true ⟨named, same⟩⟩
      · exact of_decide_eq_true (List.all_eq_true.mp allowed item present) named
  | dispose contribution =>
      obtain ⟨_, moved⟩ := Option.ite_none_right_eq_some.mp stepped
      cases moved
      exact upward.sublist List.erase_sublist
  | restrict restriction =>
      cases stepped
      exact upward
  | disposeRestriction restriction =>
      obtain ⟨_, moved⟩ := Option.ite_none_right_eq_some.mp stepped
      cases moved
      exact upward

/-- Where names are registered upward, tools are seen by the precedence of their scopes. -/
theorem tools_seen_by_scope [DecidableEq δ] {service : ToolService δ}
    (reached : (toolRegistry δ).Reaches registersUpward ToolService.empty service) :
    ScopePrecedence service := by
  have upward : service.items.Pairwise Upward := reached.invariant List.Pairwise.nil
    fun _ _ _ upward allowed stepped => upward_step upward allowed stepped
  exact scopePrecedence upward

def globalGrep : ToolContribution Nat := ⟨"grep", "base", "builtin", .global, 1⟩

def projectGrep : ToolContribution Nat := ⟨"grep", "mcp", "mcp", .session "s1", 2⟩

theorem project_tool_seen :
    ∃ service, (toolRegistry Nat).runUnder registersUpward ToolService.empty
        [.register globalGrep, .register projectGrep] = some service ∧
      (visible service "agent" (some "s1")).find? "grep" = some projectGrep ∧
      ScopePrecedence service :=
  ⟨⟨[globalGrep, projectGrep], []⟩, by decide, by decide,
    tools_seen_by_scope (@StepSystem.reaches_of_runUnder _ _ _ _ _ _ _
      [.register globalGrep, .register projectGrep] (by decide))⟩

theorem late_global_tool_hides_project :
    ∃ service, (toolRegistry Nat).run ToolService.empty
        [.register projectGrep, .register globalGrep] = some service ∧
      (visible service "agent" (some "s1")).find? "grep" = some globalGrep ∧
      ¬ ScopePrecedence service := by
  refine ⟨⟨[projectGrep, globalGrep], []⟩, by decide, by decide, ?_⟩
  intro precedence
  have seen : (visible (⟨[projectGrep, globalGrep], []⟩ : ToolService Nat) "agent"
      (some "s1")).find? "grep" = some globalGrep := by decide
  have survives : Survives (⟨[projectGrep, globalGrep], []⟩ : ToolService Nat) "agent" (some "s1")
      projectGrep := ⟨List.mem_cons_self, rfl, fun _ present => absurd present List.not_mem_nil⟩
  have lower := ((precedence.highest "agent" (some "s1") globalGrep).mp seen).2 projectGrep
    survives rfl
  exact absurd lower (by decide)

end Ftre.Tools
