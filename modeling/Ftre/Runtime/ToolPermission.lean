import Ftre.Runtime.ReactRunner

/-!
The permission gate in front of a tool.
-/

namespace Ftre.Runtime

open Lib

inductive PermissionBehavior where
  | allow
  | deny
  | ask
deriving DecidableEq, Repr

structure PermissionRequest where
  toolName : String
  arguments : KeyedTable String Json

structure PermissionRule where
  id : String
  toolName : String
  argumentRegex : KeyedTable String String
  behavior : PermissionBehavior
  priority : Int
  enabled : Bool

structure PermissionDecision where
  behavior : PermissionBehavior
  reason : String
  ruleId : Option String
deriving DecidableEq

structure PermissionContext where
  permissionRules : List PermissionRule
  defaultBehavior : PermissionBehavior

namespace PermissionEngine

/-- `fullmatch` says whether a pattern matches the whole text of an argument; a
pattern that is no regular expression matches nothing. -/
def ruleMatches (fullmatch : String → Json → Bool) (request : PermissionRequest)
    (rule : PermissionRule) : Bool :=
  rule.enabled && (decide (rule.toolName = "*") || decide (rule.toolName = request.toolName)) &&
    rule.argumentRegex.entries.all fun (name, pattern) =>
      match request.arguments.find? name with
      | some value => fullmatch pattern value
      | none => false

def highestPriority (rule : PermissionRule) (rules : List PermissionRule) : Int :=
  rules.foldl (fun highest other => max highest other.priority) rule.priority

def evaluate (fullmatch : String → Json → Bool) (request : PermissionRequest)
    (rules : List PermissionRule) (defaultBehavior : PermissionBehavior) : PermissionDecision :=
  match rules.filter (ruleMatches fullmatch request) with
  | [] => ⟨defaultBehavior, "No permission rule matched", none⟩
  | rule :: others =>
      let highest := highestPriority rule others
      match (rule :: others).filter fun rule => decide (rule.priority = highest) with
      | [] => ⟨defaultBehavior, "No permission rule matched", none⟩
      | rule :: candidates =>
          if candidates.all fun other => decide (other.behavior = rule.behavior) then
            ⟨rule.behavior, "Matched permission rule: " ++ rule.id, some rule.id⟩
          else ⟨.deny, "Conflicting permission rules at the same priority", none⟩

end PermissionEngine

inductive ApprovalOutcome where
  | allowed
  | rejected
  | cancelled
  | unavailable
deriving DecidableEq, Repr

def ApprovalOutcome.value : ApprovalOutcome → String
  | .allowed => "allowed"
  | .rejected => "rejected"
  | .cancelled => "cancelled"
  | .unavailable => "unavailable"

structure ApprovalDecision where
  outcome : ApprovalOutcome
  reason : String

inductive ToolBefore where
  | proceed
  | deny (reason : String)
  | arguments (arguments : KeyedTable String Json)

/-- The service's engine, the permission context of the run, and whether an
approval service is there. -/
structure ToolPermissions where
  fullmatch : String → Json → Bool
  context : Option PermissionContext
  hasApproval : Bool

/-- What one execution meets: the before hook, the answer of the approval
service, whether the turn is cancelled in front of the tool, what comes out of
the after hook, and whether the response's arguments are no JSON. -/
structure ToolFacts where
  before : ToolBefore
  approval : ApprovalDecision
  cancelled : Bool
  outcome : ToolOutcome
  parseFailed : Bool := false

namespace ToolPermissions

/-- `_permission_decision`: none without an engine or a context. -/
def permissionDecision (permissions : ToolPermissions) (toolName : String)
    (arguments : KeyedTable String Json) : Option PermissionDecision :=
  permissions.context.map fun context =>
    PermissionEngine.evaluate permissions.fullmatch ⟨toolName, arguments⟩
      context.permissionRules context.defaultBehavior

def givenArguments (call : ToolCall) (facts : ToolFacts) : KeyedTable String Json :=
  match facts.before with
  | .arguments arguments => arguments
  | _ => call.arguments

inductive Gate where
  | malformed
  | denied (reason : String)
  | asks (error reason : String) (ruleId : Option String)
  | passes

def gateOf (permissions : ToolPermissions) (facts : ToolFacts) : Option PermissionDecision → Gate
  | none => .passes
  | some decision =>
      match decision.behavior with
      | .allow => .passes
      | .deny => .denied decision.reason
      | .ask =>
          if permissions.hasApproval then
            match facts.approval.outcome with
            | .allowed => .passes
            | outcome =>
                .asks (if facts.approval.reason = "" then outcome.value else facts.approval.reason)
                  facts.approval.reason none
          else .asks "approval unavailable" decision.reason decision.ruleId

/-- `run_one` and `_execute_contribution` up to the tool. -/
def gate (permissions : ToolPermissions) (call : ToolCall) (facts : ToolFacts) : Gate :=
  if facts.parseFailed then .malformed
  else
    match facts.before with
    | .deny reason => .denied (if reason = "" then "Tool denied" else reason)
    | _ =>
        permissions.gateOf facts
          (permissions.permissionDecision call.name (givenArguments call facts))

def approvalMetadata (reason : String) (ruleId : Option String) : KeyedTable String Json :=
  ((KeyedTable.empty.set "approval_required" (.bool true)).set "reason" (.str reason)).set
    "rule_id" ((ruleId.map Json.str).getD .null)

def failure (error : String) (metadata : KeyedTable String Json)
    (approval : Option (String × Option String)) : ToolOutcome :=
  ⟨if error = "" then "Tool failed" else error, some error, metadata, none, approval⟩

def execute (permissions : ToolPermissions) (call : ToolCall) (facts : ToolFacts) :
    ToolOutcome × Bool :=
  match permissions.gate call facts with
  | .malformed =>
      (⟨"[PARSE_ERROR] Tool call arguments were malformed JSON.", some "malformed JSON arguments",
        .empty, none, none⟩, false)
  | .denied reason => (failure reason .empty none, false)
  | .asks error reason ruleId =>
      (failure error (approvalMetadata reason ruleId) (some (reason, ruleId)), false)
  | .passes => (facts.outcome, !facts.cancelled)

def stops (permissions : ToolPermissions) (call : ToolCall) (facts : ToolFacts) : Bool :=
  match permissions.gate call facts with
  | .passes => facts.cancelled
  | _ => false

def Approves (permissions : ToolPermissions) (facts : ToolFacts) : Prop :=
  permissions.hasApproval = true ∧ facts.approval.outcome = .allowed

theorem gateOf_ask {permissions : ToolPermissions} {facts : ToolFacts}
    {decision : PermissionDecision} (asks : decision.behavior = .ask) :
    permissions.gateOf facts (some decision) = .passes ↔ permissions.Approves facts := by
  unfold gateOf Approves
  dsimp only
  rw [asks]
  dsimp only
  cases permissions.hasApproval with
  | false => exact iff_of_false Gate.noConfusion (fun both => Bool.noConfusion both.1)
  | true =>
      cases facts.approval.outcome with
      | allowed => exact iff_of_true rfl ⟨rfl, rfl⟩
      | _ => exact iff_of_false Gate.noConfusion (fun both => nomatch both.2)

theorem execute_runs_iff (permissions : ToolPermissions) (call : ToolCall) (facts : ToolFacts) :
    (permissions.execute call facts).2 = true ↔
      permissions.gate call facts = .passes ∧ facts.cancelled = false := by
  unfold execute
  cases permissions.gate call facts with
  | passes =>
      rw [Bool.not_eq_true']
      exact ⟨fun running => ⟨rfl, running⟩, And.right⟩
  | malformed => exact iff_of_false Bool.noConfusion (fun both => nomatch both.1)
  | denied reason => exact iff_of_false Bool.noConfusion (fun both => nomatch both.1)
  | asks error reason ruleId => exact iff_of_false Bool.noConfusion (fun both => nomatch both.1)

end ToolPermissions

end Ftre.Runtime
