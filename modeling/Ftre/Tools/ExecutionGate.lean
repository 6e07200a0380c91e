import Ftre.Tools.ToolExecution

/-!
The gate in front of every callable of a view. A call with a context passes it.
-/

namespace Ftre.Tools

open Lib Ftre.Runtime

def ToolHost.rules (host : ToolHost) : List PermissionRule :=
  match host.permissions.context with
  | none => []
  | some context => context.permissionRules

def ToolHost.withRules (host : ToolHost) (rules : List PermissionRule) : ToolHost where
  before := host.before
  permissions :=
    { host.permissions with
      context := host.permissions.context.map fun context => ⟨rules, context.defaultBehavior⟩ }
  approval := host.approval
  cancelled := host.cancelled
  after := host.after

def ToolHost.behaviorFor (host : ToolHost) (name : String) (arguments : KeyedTable String Json) :
    Option PermissionBehavior :=
  (host.permissions.permissionDecision name arguments).map PermissionDecision.behavior

/-- The values are the arguments, and injected values for parameters that had none. -/
structure Invocation.Injects (invocation : Invocation) : Prop where
  kept : ∀ name value, invocation.arguments.find? name = some value →
    invocation.values.find? name = some value
  injected : ∀ name value, invocation.values.find? name = some value →
    invocation.arguments.find? name = some value ∨
      name ∈ invocation.tool.injections.map Prod.fst

structure ExecutionGate (view : ToolView) (service : ToolService ToolDefinition)
    (host : ToolHost) (call : ViewCall) : Prop where
  passed : ∀ invocation, (viewExecute view service host call).invoked = some invocation →
    invocation.Injects ∧ host.Permits call.name invocation.arguments ∧
      ∃ item, findTool view call.name = some item ∧ invocation.tool = item.definition
  refused : (¬ ∃ item, findTool view call.name = some item ∧
      host.Permits call.name (host.given call.arguments)) →
    (viewExecute view service host call).Refused
  unordered : ∀ rules, host.rules.Perm rules → ∀ name arguments,
    (host.withRules rules).behaviorFor name arguments = host.behaviorFor name arguments
  denying : ∀ earlier rule later, host.rules = earlier ++ later → rule.enabled = true →
    rule.behavior = .deny → (viewExecute view service host call).invoked = none →
      (viewExecute view service (host.withRules (earlier ++ rule :: later)) call).invoked = none

def serviceRuns (service : ToolService ToolDefinition) (name : String) (running : Bool) :
    Option ToolDefinition :=
  ((globalTool service name).map ToolContribution.definition).filter fun definition =>
    definition.executeCallable.isSome && !(definition.coroutine && running)

/-- With a context: the approval answers where it is asked. Without one: the gate lets the
call through, with the arguments as given and as the hook replaces them, and what the
service runs is the tool of the view. -/
def Guarded (view : ToolView) (service : ToolService ToolDefinition) (host : ToolHost)
    (call : ViewCall) : Prop :=
  match call.convention with
  | .context _ =>
      ∀ item, findTool view call.name = some item →
        ¬ host.Breaks call.name (host.given call.arguments)
  | .plain _ running =>
      ∃ item, findTool view call.name = some item ∧
        host.Permits call.name (host.given call.arguments) ∧
          ∀ definition, serviceRuns service call.name running = some definition →
            definition = item.definition ∧ host.Permits call.name call.arguments

variable {name : String} {host : ToolHost} {earlier later : List PermissionRule}
  {rule : PermissionRule}

theorem resolveInjections_kept (definition : ToolDefinition)
    (arguments runtimeContext : KeyedTable String Json) {value : Json}
    (given : arguments.find? name = some value) :
    (resolveInjections definition arguments runtimeContext).find? name = some value := by
  unfold resolveInjections
  induction definition.injections generalizing arguments with
  | nil => exact given
  | cons head rest ih =>
      rw [List.foldl_cons]
      apply ih
      dsimp only
      rw [KeyedTable.find?_setDefault]
      by_cases same : head.1 = name
      · rw [if_pos same, same, given]
        rfl
      · rw [if_neg same]
        exact given

theorem resolveInjections_injected (definition : ToolDefinition)
    (arguments runtimeContext : KeyedTable String Json) {value : Json}
    (found : (resolveInjections definition arguments runtimeContext).find? name = some value) :
    arguments.find? name = some value ∨ name ∈ definition.injections.map Prod.fst := by
  unfold resolveInjections at found
  generalize definition.injections = injections at found ⊢
  induction injections generalizing arguments with
  | nil => exact Or.inl found
  | cons head rest ih =>
      rw [List.foldl_cons] at found
      rw [List.map_cons, List.mem_cons]
      cases ih _ found with
      | inl within =>
          dsimp only at within
          rw [KeyedTable.find?_setDefault] at within
          by_cases same : head.1 = name
          · exact Or.inr (Or.inl same.symm)
          · rw [if_neg same] at within
            exact Or.inl within
      | inr later => exact Or.inr (Or.inr later)

theorem injects (definition : ToolDefinition) (arguments runtimeContext : KeyedTable String Json) :
    Invocation.Injects
      ⟨definition, arguments, resolveInjections definition arguments runtimeContext⟩ :=
  ⟨fun _ _ => resolveInjections_kept definition arguments runtimeContext,
    fun _ _ => resolveInjections_injected definition arguments runtimeContext⟩

/-! ### Rules -/

theorem admits_iff (host : ToolHost) (name : String) (arguments : KeyedTable String Json) :
    host.Admits name arguments ↔
      host.behaviorFor name arguments = none ∨ host.behaviorFor name arguments = some .allow ∨
        host.behaviorFor name arguments = some .ask ∧ host.permissions.hasApproval = true ∧
          ∃ approval, host.approval = .answers approval ∧ approval.outcome = .allowed := by
  unfold ToolHost.Admits ToolHost.behaviorFor
  cases host.permissions.permissionDecision name arguments with
  | none => simp
  | some decision =>
      dsimp only [Option.map_some]
      cases decision.behavior with
      | allow => simp
      | deny => simp
      | ask => simp

theorem behaviorFor_withRules (host : ToolHost) (rules : List PermissionRule) (name : String)
    (arguments : KeyedTable String Json) :
    (host.withRules rules).behaviorFor name arguments =
      host.permissions.context.map fun context =>
        (PermissionEngine.evaluate host.permissions.fullmatch ⟨name, arguments⟩ rules
          context.defaultBehavior).behavior := by
  unfold ToolHost.behaviorFor ToolPermissions.permissionDecision ToolHost.withRules
  cases host.permissions.context <;> rfl

theorem withRules_rules (host : ToolHost) : host.withRules host.rules = host := by
  unfold ToolHost.withRules ToolHost.rules
  cases host with
  | mk before permissions approval cancelled after =>
      cases permissions with
      | mk fullmatch context hasApproval => cases context <;> rfl

theorem behaviorFor_perm {rules : List PermissionRule} (same : host.rules.Perm rules)
    (name : String) (arguments : KeyedTable String Json) :
    (host.withRules rules).behaviorFor name arguments = host.behaviorFor name arguments := by
  have now : host.behaviorFor name arguments =
      (host.withRules host.rules).behaviorFor name arguments := by
    rw [withRules_rules]
  rw [now, behaviorFor_withRules, behaviorFor_withRules]
  refine congrArg (fun behavior => host.permissions.context.map behavior) (funext fun context => ?_)
  exact PermissionEngine.evaluate_congr (fun rule => same.symm.mem_iff) context.defaultBehavior

theorem behaviorFor_denying (rules : host.rules = earlier ++ later) (denies : rule.behavior = .deny)
    (name : String) (arguments : KeyedTable String Json) :
    (host.withRules (earlier ++ rule :: later)).behaviorFor name arguments = some .deny ∨
      (host.withRules (earlier ++ rule :: later)).behaviorFor name arguments =
        host.behaviorFor name arguments := by
  have now : host.behaviorFor name arguments =
      (host.withRules (earlier ++ later)).behaviorFor name arguments := by
    rw [← rules, withRules_rules]
  rw [now, behaviorFor_withRules, behaviorFor_withRules]
  cases host.permissions.context with
  | none => exact Or.inr rfl
  | some context =>
      have moved : ∀ other, other ∈ earlier ++ rule :: later ↔ other ∈ rule :: (earlier ++ later) :=
        fun other => List.perm_middle.mem_iff
      dsimp only [Option.map_some]
      rw [PermissionEngine.evaluate_congr moved context.defaultBehavior]
      rcases PermissionEngine.evaluate_added (earlier ++ later) context.defaultBehavior rule with
        added | denied | same
      · rw [added, denies]
        exact Or.inl rfl
      · rw [denied]
        exact Or.inl rfl
      · rw [same]
        exact Or.inr rfl

theorem permits_of_denying (rules : host.rules = earlier ++ later) (denies : rule.behavior = .deny)
    {arguments : KeyedTable String Json}
    (permits : (host.withRules (earlier ++ rule :: later)).Permits name arguments) :
    host.Permits name arguments := by
  refine ⟨permits.undenied, ?_⟩
  have admits := (admits_iff _ _ _).mp permits.admits
  rcases behaviorFor_denying rules denies name arguments with denied | same
  · rw [denied] at admits
    simp at admits
  · rw [same] at admits
    exact (admits_iff _ _ _).mpr admits

theorem viewExecute_denying (view : ToolView) (service : ToolService ToolDefinition)
    (call : ViewCall) (rules : host.rules = earlier ++ later) (denies : rule.behavior = .deny)
    (kept : (viewExecute view service host call).invoked = none) :
    (viewExecute view service (host.withRules (earlier ++ rule :: later)) call).invoked = none := by
  unfold viewExecute at kept ⊢
  cases call with
  | mk name arguments convention =>
      cases convention with
      | plain runtimeContext running => exact kept
      | context metadata =>
          dsimp only at kept ⊢
          cases found : findTool view name with
          | none => rfl
          | some item =>
              rw [found] at kept
              dsimp only at kept ⊢
              have passage := executeContribution_passage
                (host.withRules (earlier ++ rule :: later)) item.definition arguments metadata
              generalize (host.withRules (earlier ++ rule :: later)).executeContribution
                item.definition arguments metadata = run at passage ⊢
              cases passage with
              | refused _ refused _ _ => exact refused.1
              | broken _ _ _ => rfl
              | called permits _ =>
                  have permitted := permits_of_denying rules denies permits
                  have original := executeContribution_passage host item.definition arguments
                    metadata
                  generalize host.executeContribution item.definition arguments metadata = first
                    at original kept
                  cases original with
                  | refused _ _ unpermitted _ => exact absurd permitted unpermitted
                  | broken _ unpermitted _ => exact absurd permitted unpermitted
                  | called _ _ => exact kept

/-! ### The gate -/

theorem findTool_name {view : ToolView} {item : ToolContribution ToolDefinition}
    (found : findTool view name = some item) : item.definition.name = name :=
  of_decide_eq_true (List.find?_some found :)

variable (service : ToolService ToolDefinition)

theorem serviceExecute_invoked (name : String) (executionContext arguments : KeyedTable String Json)
    (running : Bool) :
    (serviceExecute service name executionContext arguments running).invoked =
      (serviceRuns service name running).map fun definition =>
        ⟨definition, arguments, resolveInjections definition arguments executionContext⟩ := by
  unfold serviceExecute serviceRuns
  cases globalTool service name with
  | none => rfl
  | some item =>
      dsimp only [Option.map_some]
      cases callable : item.definition.executeCallable with
      | none => simp [Option.filter, callable]
      | some function =>
          dsimp only
          cases blocked : item.definition.coroutine && running with
          | true => simp [Option.filter, callable, blocked]
          | false => simp [Option.filter, callable, blocked]

theorem serviceExecute_unrefused (name : String)
    (executionContext arguments : KeyedTable String Json) (running : Bool) :
    ¬ (serviceExecute service name executionContext arguments running).Refused := by
  have ended : (serviceExecute service name executionContext arguments running).invoked = none →
      ∃ error, (serviceExecute service name executionContext arguments running).result =
        .error error := by
    unfold serviceExecute
    cases globalTool service name with
    | none => exact fun _ => ⟨_, rfl⟩
    | some item =>
        dsimp only
        cases item.definition.executeCallable with
        | none => exact fun _ => ⟨_, rfl⟩
        | some function =>
            dsimp only
            split
            next blocked => exact fun _ => ⟨_, rfl⟩
            next runs => exact fun uninvoked => by cases uninvoked
  intro ⟨uninvoked, result, succeeded, _⟩
  obtain ⟨error, failed⟩ := ended uninvoked
  rw [succeeded] at failed
  cases failed

private theorem gate_plain (view : ToolView) (service : ToolService ToolDefinition)
    (host : ToolHost) (name : String) (arguments runtimeContext : KeyedTable String Json)
    (running : Bool) :
    ExecutionGate view service host ⟨name, arguments, .plain runtimeContext running⟩ ↔
      Guarded view service host ⟨name, arguments, .plain runtimeContext running⟩ := by
  have invoked : (viewExecute view service host
      ⟨name, arguments, .plain runtimeContext running⟩).invoked =
        (serviceRuns service name running).map fun definition =>
          ⟨definition, arguments, resolveInjections definition arguments runtimeContext⟩ :=
    serviceExecute_invoked service name runtimeContext arguments running
  constructor
  · intro gate
    have permitted : ∃ item, findTool view name = some item ∧
        host.Permits name (host.given arguments) := by
      by_contra unpermitted
      exact serviceExecute_unrefused service name runtimeContext arguments running
        (gate.refused unpermitted)
    obtain ⟨item, found, permits⟩ := permitted
    refine ⟨item, found, permits, fun definition runs => ?_⟩
    have ran : (viewExecute view service host
        ⟨name, arguments, .plain runtimeContext running⟩).invoked =
          some ⟨definition, arguments, resolveInjections definition arguments runtimeContext⟩ := by
      rw [invoked, runs]
      rfl
    obtain ⟨_, admitted, other, listed, same⟩ := gate.passed _ ran
    rw [found] at listed
    cases listed
    exact ⟨same, admitted⟩
  · intro ⟨item, found, permits, ours⟩
    refine
      { passed := fun invocation ran => ?_
        refused := fun unpermitted => absurd ⟨item, found, permits⟩ unpermitted
        unordered := fun rules same => behaviorFor_perm same
        denying := fun earlier rule later rules _ denies =>
          viewExecute_denying view service _ rules denies }
    rw [invoked] at ran
    obtain ⟨definition, runs, same⟩ := Option.map_eq_some_iff.mp ran
    obtain ⟨tool, admitted⟩ := ours definition runs
    rw [← same]
    exact ⟨injects definition arguments runtimeContext, admitted, item, found, tool⟩

private theorem viewExecute_missing {view : ToolView} (host : ToolHost)
    (arguments metadata : KeyedTable String Json) (missing : findTool view name = none) :
    viewExecute view service host ⟨name, arguments, .context metadata⟩ =
      refuse ("tool '" ++ name ++ "' is not visible") .empty := by
  unfold viewExecute
  dsimp only
  rw [missing]

private theorem viewExecute_found {view : ToolView} (host : ToolHost)
    (arguments metadata : KeyedTable String Json) {item : ToolContribution ToolDefinition}
    (found : findTool view name = some item) :
    viewExecute view service host ⟨name, arguments, .context metadata⟩ =
      host.executeContribution item.definition arguments metadata := by
  unfold viewExecute
  dsimp only
  rw [found]

private theorem gate_context (view : ToolView) (service : ToolService ToolDefinition)
    (host : ToolHost) (name : String) (arguments metadata : KeyedTable String Json) :
    ExecutionGate view service host ⟨name, arguments, .context metadata⟩ ↔
      Guarded view service host ⟨name, arguments, .context metadata⟩ := by
  constructor
  · intro gate item found breaks
    have refused := gate.refused
    rw [viewExecute_found service host arguments metadata found] at refused
    have passage := executeContribution_passage host item.definition arguments metadata
    have named : item.definition.name = name := findTool_name found
    rw [← named] at breaks
    generalize host.executeContribution item.definition arguments metadata = run
      at passage refused
    cases passage with
    | refused _ _ _ unbroken => exact unbroken breaks
    | called _ unbroken => exact unbroken breaks
    | broken error unpermitted _ =>
        rw [← named] at refused
        obtain ⟨_, result, ended, _⟩ := refused fun ⟨_, _, permits⟩ => unpermitted permits
        cases ended
  · intro unbroken
    refine
      { passed := fun invocation ran => ?_
        refused := fun unpermitted => ?_
        unordered := fun rules same => behaviorFor_perm same
        denying := fun earlier rule later rules _ denies =>
          viewExecute_denying view service _ rules denies }
    · cases found : findTool view name with
      | none =>
          rw [viewExecute_missing service host arguments metadata found] at ran
          cases ran
      | some item =>
          rw [viewExecute_found service host arguments metadata found] at ran
          have passage := executeContribution_passage host item.definition arguments metadata
          generalize host.executeContribution item.definition arguments metadata = run
            at passage ran
          cases passage with
          | refused _ refused _ _ => exact absurd (refused.1.symm.trans ran) (by simp)
          | broken _ _ _ => cases ran
          | called permits _ =>
              rw [findTool_name found] at permits
              rw [callTool_invoked ran]
              exact ⟨injects _ _ _, permits, item, rfl, rfl⟩
    · cases found : findTool view name with
      | none =>
          rw [viewExecute_missing service host arguments metadata found]
          exact refuse_refused _ _
      | some item =>
          rw [viewExecute_found service host arguments metadata found]
          have passage := executeContribution_passage host item.definition arguments metadata
          have named := findTool_name found
          have unlucky := unbroken item found
          generalize host.executeContribution item.definition arguments metadata = run
            at passage ⊢
          cases passage with
          | refused _ refused _ _ => exact refused
          | broken _ _ breaks => exact absurd (named ▸ breaks) unlucky
          | called permits _ => exact absurd ⟨item, found, named ▸ permits⟩ unpermitted

/-! A call without a context of a tool that every rule denies. -/

def wipe : ToolDefinition where
  name := "wipe"
  injections := []
  coroutine := false
  executeCallable := some fun _ => .returns ⟨"wiped", .completed, none, .empty⟩

def wipeContribution : ToolContribution ToolDefinition :=
  ⟨"wipe", "builtin", "builtin", .global, wipe⟩

def denyingHost : ToolHost where
  before := .proceed
  permissions := ⟨fun _ _ => true, some ⟨[⟨"all", "*", .empty, .deny, 0, true⟩], .allow⟩, false⟩
  approval := .raises "no handler"
  cancelled := false
  after := id

end Ftre.Tools
