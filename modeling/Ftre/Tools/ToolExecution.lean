import Ftre.Runtime.PermissionRules
import Ftre.Tools.ToolScopes

/-!
The execution of a tool in both conventions of a view.
-/

namespace Ftre.Tools

open Lib Ftre.Runtime

inductive ToolStatus where
  | completed
  | failed
  | cancelled
deriving DecidableEq, Repr

structure ToolExecutionResult where
  output : String
  status : ToolStatus
  error : Option String
  metadata : KeyedTable String Json

def ToolExecutionResult.failure (error : String) (metadata : KeyedTable String Json) :
    ToolExecutionResult where
  output := ""
  status := .failed
  error := some error
  metadata := metadata

def ToolExecutionResult.cancellation : ToolExecutionResult where
  output := ""
  status := .cancelled
  error := some "cancelled"
  metadata := .empty

inductive CallableOutcome where
  | returns (result : ToolExecutionResult)
  | raises (error : String)
  | cancelled

/-- A declared tool. `injections` has the parameters whose default is `Injected`, with the
key of each; `coroutine` says that the callable is a coroutine function. -/
structure ToolDefinition where
  name : String
  injections : List (String × String)
  coroutine : Bool
  executeCallable : Option (KeyedTable String Json → CallableOutcome)

/-- `_resolve_injections`: a value that is there stays. -/
def resolveInjections (definition : ToolDefinition) (arguments : KeyedTable String Json)
    (runtimeContext : KeyedTable String Json) : KeyedTable String Json :=
  definition.injections.foldl
    (fun values (name, key) => values.setDefault name ((runtimeContext.find? key).getD .null))
    arguments

structure Invocation where
  tool : ToolDefinition
  arguments : KeyedTable String Json
  values : KeyedTable String Json

structure ToolRun where
  invoked : Option Invocation
  result : Except String ToolExecutionResult

abbrev ToolView := List (ToolContribution ToolDefinition)

/-- `item.definition.name == name`. -/
def findTool (view : ToolView) (name : String) : Option (ToolContribution ToolDefinition) :=
  view.find? fun item => decide (item.definition.name = name)

inductive ApprovalAnswer where
  | answers (decision : ApprovalDecision)
  | raises (error : String)

/-- What a call meets: the before hook, the rules, the approval, a cancellation in front of
the tool, and the after hook. -/
structure ToolHost where
  before : ToolBefore
  permissions : ToolPermissions
  approval : ApprovalAnswer
  cancelled : Bool
  after : ToolExecutionResult → ToolExecutionResult

def ToolHost.given (host : ToolHost) (arguments : KeyedTable String Json) :
    KeyedTable String Json :=
  match host.before with
  | .arguments replaced => replaced
  | _ => arguments

def refuse (error : String) (metadata : KeyedTable String Json) : ToolRun :=
  ⟨none, .ok (.failure error metadata)⟩

/-- `_execute_contribution` from the injections on. -/
def ToolHost.callTool (host : ToolHost) (definition : ToolDefinition)
    (arguments metadata : KeyedTable String Json) : ToolRun :=
  if host.cancelled then ⟨none, .ok (host.after .cancellation)⟩
  else
    match definition.executeCallable with
    | none =>
        ⟨none, .ok (host.after (.failure
          ("Tool '" ++ definition.name ++ "' has no execute callable") .empty))⟩
    | some callable =>
        let values := resolveInjections definition arguments metadata
        let result :=
          match callable values with
          | .returns result => result
          | .raises error => .failure error .empty
          | .cancelled => .cancellation
        ⟨some ⟨definition, arguments, values⟩, .ok (host.after result)⟩

def rejectedMetadata (reason : String) : KeyedTable String Json :=
  (KeyedTable.empty.set "approval_required" (.bool true)).set "reason" (.str reason)

def ToolHost.executeContribution (host : ToolHost) (definition : ToolDefinition)
    (arguments metadata : KeyedTable String Json) : ToolRun :=
  match host.before with
  | .deny reason => refuse (if reason = "" then "Tool denied" else reason) .empty
  | _ =>
      let given := host.given arguments
      match host.permissions.permissionDecision definition.name given with
      | none => host.callTool definition given metadata
      | some decision =>
          match decision.behavior with
          | .allow => host.callTool definition given metadata
          | .deny => refuse decision.reason .empty
          | .ask =>
              if host.permissions.hasApproval then
                match host.approval with
                | .raises error => ⟨none, .error error⟩
                | .answers approval =>
                    if approval.outcome = .allowed then host.callTool definition given metadata
                    else
                      refuse
                        (if approval.reason = "" then approval.outcome.value else approval.reason)
                        (rejectedMetadata approval.reason)
              else
                refuse "approval unavailable"
                  (ToolPermissions.approvalMetadata decision.reason decision.ruleId)

/-- The service's `get` without an agent and a session: of the global tools and those of an
agent called `None` the last of the name, if it is global. -/
def globalTool (service : ToolService ToolDefinition) (name : String) :
    Option (ToolContribution ToolDefinition) :=
  let candidates := service.items.filter fun item =>
    decide (item.scope = .global) || decide (item.scope = .agent "None")
  let byName : ToolsByName ToolDefinition := candidates.foldl KeyedList.put .empty
  (byName.find? name).filter fun item => decide (item.scope = .global)

/-- `ToolService.execute`. A coroutine is not run where an event loop is running. -/
def serviceExecute (service : ToolService ToolDefinition) (name : String)
    (executionContext arguments : KeyedTable String Json) (running : Bool) : ToolRun :=
  match globalTool service name with
  | none => ⟨none, .error ("Tool '" ++ name ++ "' not found")⟩
  | some item =>
      match item.definition.executeCallable with
      | none => ⟨none, .error ("Tool '" ++ item.definition.name ++ "' has no execute callable")⟩
      | some callable =>
          if item.definition.coroutine && running then
            ⟨none, .error "async ToolDefinition requires await ToolView.execute()"⟩
          else
            let values := resolveInjections item.definition arguments executionContext
            ⟨some ⟨item.definition, arguments, values⟩,
              match callable values with
              | .returns result => .ok result
              | .raises error => .error error
              | .cancelled => .error "cancelled"⟩

/-- How the view is called: with the metadata of a context, or with a plain runtime context
where a loop is running or not. -/
inductive Convention where
  | context (metadata : KeyedTable String Json)
  | plain (runtimeContext : KeyedTable String Json) (running : Bool)

structure ViewCall where
  name : String
  arguments : KeyedTable String Json
  convention : Convention

/-- `_ToolView.execute`. -/
def viewExecute (view : ToolView) (service : ToolService ToolDefinition) (host : ToolHost)
    (call : ViewCall) : ToolRun :=
  match call.convention with
  | .context metadata =>
      match findTool view call.name with
      | none => refuse ("tool '" ++ call.name ++ "' is not visible") .empty
      | some item => host.executeContribution item.definition call.arguments metadata
  | .plain runtimeContext running =>
      serviceExecute service call.name runtimeContext call.arguments running

/-! ### The gate -/

def ToolHost.Admits (host : ToolHost) (name : String) (arguments : KeyedTable String Json) :
    Prop :=
  match host.permissions.permissionDecision name arguments with
  | none => True
  | some decision =>
      match decision.behavior with
      | .allow => True
      | .deny => False
      | .ask =>
          host.permissions.hasApproval = true ∧
            ∃ approval, host.approval = .answers approval ∧ approval.outcome = .allowed

/-- The before hook does not deny, and the decision lets the arguments through. -/
structure ToolHost.Permits (host : ToolHost) (name : String)
    (arguments : KeyedTable String Json) : Prop where
  undenied : ∀ reason, host.before ≠ .deny reason
  admits : host.Admits name arguments

def ToolHost.Breaks (host : ToolHost) (name : String) (arguments : KeyedTable String Json) :
    Prop :=
  (∀ reason, host.before ≠ .deny reason) ∧ host.permissions.hasApproval = true ∧
    (∃ error, host.approval = .raises error) ∧
    ∃ decision, host.permissions.permissionDecision name arguments = some decision ∧
      decision.behavior = .ask

def ToolRun.Refused (run : ToolRun) : Prop :=
  run.invoked = none ∧
    ∃ result, run.result = .ok result ∧ (result.status = .failed ∨ result.status = .cancelled)

theorem refuse_refused (error : String) (metadata : KeyedTable String Json) :
    (refuse error metadata).Refused :=
  ⟨rfl, _, rfl, Or.inl rfl⟩

theorem callTool_invoked {host : ToolHost} {definition : ToolDefinition}
    {arguments metadata : KeyedTable String Json} {invocation : Invocation}
    (invoked : (host.callTool definition arguments metadata).invoked = some invocation) :
    invocation = ⟨definition, arguments, resolveInjections definition arguments metadata⟩ := by
  unfold ToolHost.callTool at invoked
  split at invoked
  · cases invoked
  · split at invoked
    · cases invoked
    · exact (Option.some.inj invoked).symm

inductive Passage (host : ToolHost) (definition : ToolDefinition)
    (arguments metadata : KeyedTable String Json) : ToolRun → Prop where
  | refused (run : ToolRun) (refused : run.Refused)
      (unpermitted : ¬ host.Permits definition.name (host.given arguments))
      (unbroken : ¬ host.Breaks definition.name (host.given arguments)) :
      Passage host definition arguments metadata run
  | broken (error : String)
      (unpermitted : ¬ host.Permits definition.name (host.given arguments))
      (breaks : host.Breaks definition.name (host.given arguments)) :
      Passage host definition arguments metadata ⟨none, .error error⟩
  | called (permits : host.Permits definition.name (host.given arguments))
      (unbroken : ¬ host.Breaks definition.name (host.given arguments)) :
      Passage host definition arguments metadata
        (host.callTool definition (host.given arguments) metadata)

private theorem decided_passage {host : ToolHost} (definition : ToolDefinition)
    (arguments metadata : KeyedTable String Json)
    (undenied : ∀ reason, host.before ≠ .deny reason) :
    Passage host definition arguments metadata
      (host.executeContribution definition arguments metadata) := by
  have unfolded : host.executeContribution definition arguments metadata =
      match host.permissions.permissionDecision definition.name (host.given arguments) with
      | none => host.callTool definition (host.given arguments) metadata
      | some decision =>
          match decision.behavior with
          | .allow => host.callTool definition (host.given arguments) metadata
          | .deny => refuse decision.reason .empty
          | .ask =>
              if host.permissions.hasApproval then
                match host.approval with
                | .raises error => ⟨none, .error error⟩
                | .answers approval =>
                    if approval.outcome = .allowed then
                      host.callTool definition (host.given arguments) metadata
                    else
                      refuse
                        (if approval.reason = "" then approval.outcome.value else approval.reason)
                        (rejectedMetadata approval.reason)
              else
                refuse "approval unavailable"
                  (ToolPermissions.approvalMetadata decision.reason decision.ruleId) := by
    unfold ToolHost.executeContribution
    cases hooked : host.before with
    | deny reason => exact absurd hooked (undenied reason)
    | proceed => rfl
    | arguments replaced => rfl
  rw [unfolded]
  cases decided : host.permissions.permissionDecision definition.name (host.given arguments) with
  | none =>
      refine .called ⟨undenied, ?_⟩ fun breaks => ?_
      · unfold ToolHost.Admits
        rw [decided]
        trivial
      · obtain ⟨_, _, _, decision, asked, _⟩ := breaks
        rw [decided] at asked
        cases asked
  | some decision =>
      have only : ∀ other, host.permissions.permissionDecision definition.name
          (host.given arguments) = some other → other = decision := by
        intro other same
        rw [decided] at same
        exact (Option.some.inj same).symm
      have admits : host.Admits definition.name (host.given arguments) ↔
          match decision.behavior with
          | .allow => True
          | .deny => False
          | .ask =>
              host.permissions.hasApproval = true ∧
                ∃ approval, host.approval = .answers approval ∧ approval.outcome = .allowed := by
        unfold ToolHost.Admits
        rw [decided]
      dsimp only
      cases behavior : decision.behavior with
      | allow =>
          rw [behavior] at admits
          refine .called ⟨undenied, admits.mpr trivial⟩ fun breaks => ?_
          obtain ⟨_, _, _, other, asked, asks⟩ := breaks
          rw [only other asked, behavior] at asks
          cases asks
      | deny =>
          rw [behavior] at admits
          refine .refused _ (refuse_refused _ _) (fun permits => admits.mp permits.admits)
            fun breaks => ?_
          obtain ⟨_, _, _, other, asked, asks⟩ := breaks
          rw [only other asked, behavior] at asks
          cases asks
      | ask =>
          rw [behavior] at admits
          dsimp only
          cases service : host.permissions.hasApproval with
          | false =>
              rw [if_neg Bool.false_ne_true]
              refine .refused _ (refuse_refused _ _) (fun permits => ?_) fun breaks => ?_
              · exact Bool.noConfusion (service.symm.trans (admits.mp permits.admits).1)
              · exact Bool.noConfusion (service.symm.trans breaks.2.1)
          | true =>
              rw [if_pos rfl]
              cases answer : host.approval with
              | raises error =>
                  refine .broken error (fun permits => ?_)
                    ⟨undenied, service, ⟨error, answer⟩, decision, decided, behavior⟩
                  obtain ⟨_, approval, answered, _⟩ := admits.mp permits.admits
                  rw [answer] at answered
                  cases answered
              | answers approval =>
                  have unbroken : ¬ host.Breaks definition.name (host.given arguments) := by
                    intro breaks
                    obtain ⟨_, _, ⟨error, raised⟩, _⟩ := breaks
                    rw [answer] at raised
                    cases raised
                  dsimp only
                  by_cases allowed : approval.outcome = .allowed
                  · rw [if_pos allowed]
                    exact .called
                      ⟨undenied, admits.mpr ⟨service, approval, answer, allowed⟩⟩ unbroken
                  · rw [if_neg allowed]
                    refine .refused _ (refuse_refused _ _) (fun permits => ?_) unbroken
                    obtain ⟨_, other, answered, accepts⟩ := admits.mp permits.admits
                    rw [answer] at answered
                    cases answered
                    exact allowed accepts

theorem executeContribution_passage (host : ToolHost) (definition : ToolDefinition)
    (arguments metadata : KeyedTable String Json) :
    Passage host definition arguments metadata
      (host.executeContribution definition arguments metadata) := by
  by_cases denied : ∃ reason, host.before = .deny reason
  · obtain ⟨reason, hooked⟩ := denied
    unfold ToolHost.executeContribution
    rw [hooked]
    exact .refused _ (refuse_refused _ _) (fun permits => permits.undenied reason hooked)
      fun breaks => breaks.1 reason hooked
  · exact decided_passage definition arguments metadata fun reason hooked =>
      denied ⟨reason, hooked⟩

end Ftre.Tools
