import Ftre.Runtime.Injections
import Ftre.Session.UserContent

/-!
The tools that refuse subagents. Each compares an injected channel with the subagents'
before it does anything, so that the refusal is as good as the injection.
-/

namespace Ftre.Runtime

open Lib

variable {η : Type}

def subagentChannelId : String := "subagent"

/-- How far a tool gets: to its refusal, to an exception, or past its guard. -/
inductive ToolEntry where
  | refused (error : String)
  | raised
  | entered
deriving DecidableEq, Repr

def receivedValue (bound : Bound η) (name : String) : Received η :=
  ((bound.find? fun pair => decide (pair.1.name = name)).map Prod.snd).getD .collected

def Received.isNone : Received η → Bool
  | .value (.json .null) => true
  | _ => false

def Received.truthy : Received η → Bool
  | .value (.json given) => given.truthy
  | _ => true

def Received.isText (text : String) : Received η → Bool
  | .value (.json (.str given)) => decide (given = text)
  | _ => false

/-- `not text or not text.strip()`; none is a value without `strip`. -/
def Received.blank : Received η → Option Bool
  | .value (.json (.str text)) => some (decide (Session.strip text = ""))
  | .value (.json given) => if given.truthy then none else some true
  | _ => none

def runtimeContextMissing : String := "[error] runtime context 未注入完整"

def guardNotSubagent (callerChannel : Received η) : Option String :=
  if callerChannel.isText subagentChannelId then
    some ("[error] 团队成员（subagent）内不允许调用 team 工具，" ++
      "不能创建子团队或管理团队。请专注完成 leader 交给你的任务。")
  else none

def teamEntry (sessionParameter : String) (services : List String) (needsInbox inbox : Bool)
    (bound : Bound η) : ToolEntry :=
  if !(receivedValue bound sessionParameter).truthy ||
      services.any fun service => (receivedValue bound service).isNone then
    .refused runtimeContextMissing
  else if needsInbox && !inbox then .refused "[error] Inbox Service 未就绪"
  else
    match guardNotSubagent (receivedValue bound "caller_channel") with
    | some error => .refused error
    | none => .entered

def teamCreate (inbox : Bool) (bound : Bound η) : ToolEntry :=
  teamEntry "session_id" ["event_loop", "session_manager"] false inbox bound

def teamAddAgent (inbox : Bool) (bound : Bound η) : ToolEntry :=
  teamEntry "session_id" ["event_loop", "session_manager"] false inbox bound

def teamSay (inbox : Bool) (bound : Bound η) : ToolEntry :=
  teamEntry "parent_session_id" ["event_loop", "session_manager"] true inbox bound

def teamAgentStatus (inbox : Bool) (bound : Bound η) : ToolEntry :=
  teamEntry "parent_session_id" ["event_loop", "session_manager"] false inbox bound

def teamDelete (inbox : Bool) (bound : Bound η) : ToolEntry :=
  teamEntry "session_id" ["event_loop", "session_manager"] false inbox bound

def waitAgent (inbox : Bool) (bound : Bound η) : ToolEntry :=
  teamEntry "parent_session_id" ["event_loop", "agent_service", "session_manager"] true inbox bound

def task (inbox : Bool) (bound : Bound η) : ToolEntry :=
  match (receivedValue bound "prompt").blank with
  | none => .raised
  | some true => .refused "[error] prompt 不能为空"
  | some false =>
      if (receivedValue bound "event_loop").isNone ||
          (receivedValue bound "session_manager").isNone ||
          (receivedValue bound "agent_service").isNone then
        .refused runtimeContextMissing
      else if !inbox then .refused "[error] Inbox Service 未就绪，无法派发 subagent"
      else if (receivedValue bound "caller_channel").isText subagentChannelId then
        .refused ("[error] subagent 内不允许再次调用 task，" ++
          "避免无限递归。请直接完成任务或用 send_message 通知调用方")
      else .entered

def sendMessage (_inbox : Bool) (bound : Bound η) : ToolEntry :=
  if (receivedValue bound "caller_channel").isText subagentChannelId then
    .refused ("[error] subagent 内不允许调用 send_message，" ++
      "请通过你的最后一条消息总结结果给调用方")
  else .entered

/-! ### Their parameters -/

def requiredParameter (name : String) : Parameter η := ⟨name, .positionalOrKeyword, .empty⟩

def optionalParameter (name : String) (default : Json) : Parameter η :=
  ⟨name, .positionalOrKeyword, .plain (.json default)⟩

def injectedParameter (name key : String) : Parameter η :=
  ⟨name, .positionalOrKeyword, .injected key⟩

def teamInjections (sessionParameter : String) : List (Parameter η) :=
  [injectedParameter sessionParameter "session_id", injectedParameter "event_loop" "event_loop",
    injectedParameter "session_manager" "sessions", injectedParameter "agent_service" "agent",
    injectedParameter "caller_channel" "channel_id"]

def teamCreateParameters : List (Parameter η) :=
  [requiredParameter "team_name", optionalParameter "team_id" (.str "")] ++
    teamInjections "session_id"

def teamAddAgentParameters : List (Parameter η) :=
  [requiredParameter "team_id", requiredParameter "agent_name", optionalParameter "profile" .null,
    optionalParameter "invoke" (.str "")] ++ teamInjections "session_id" ++
    [injectedParameter "workspace" "workspace"]

def teamSayParameters : List (Parameter η) :=
  [requiredParameter "team_id", requiredParameter "session_id", requiredParameter "content"] ++
    teamInjections "parent_session_id"

def teamAgentStatusParameters : List (Parameter η) :=
  [requiredParameter "team_id", optionalParameter "session_id" (.str "")] ++
    teamInjections "parent_session_id"

def teamDeleteParameters : List (Parameter η) :=
  [requiredParameter "team_id"] ++ teamInjections "session_id"

def waitAgentParameters : List (Parameter η) :=
  [optionalParameter "session_ids" .null] ++ teamInjections "parent_session_id"

def taskParameters : List (Parameter η) :=
  [requiredParameter "prompt", optionalParameter "session_id" (.str ""),
    optionalParameter "working_dir" (.str ""), injectedParameter "caller_channel" "channel_id",
    injectedParameter "event_loop" "event_loop", injectedParameter "session_manager" "sessions",
    injectedParameter "agent_service" "agent", injectedParameter "workspace" "workspace"]

def sendMessageParameters : List (Parameter η) :=
  [requiredParameter "channel_id", requiredParameter "session_id", requiredParameter "content",
    optionalParameter "kind" (.str "notify"), injectedParameter "caller_channel" "channel_id",
    injectedParameter "caller_session" "session_id", injectedParameter "event_loop" "event_loop",
    injectedParameter "bus" "bus", injectedParameter "session_manager" "sessions",
    injectedParameter "agent_service" "agent"]

structure GuardedTool (η : Type) where
  name : String
  signature : Signature η
  enter : Bool → Bound η → ToolEntry
  channel : injectedParameter "caller_channel" "channel_id" ∈ signature.items
  refuses : ∀ inbox bound, (receivedValue bound "caller_channel").isText subagentChannelId = true →
    enter inbox bound ≠ .entered

theorem teamEntry_refuses (sessionParameter : String) (services : List String)
    (needsInbox inbox : Bool) (bound : Bound η)
    (subagent : (receivedValue bound "caller_channel").isText subagentChannelId = true) :
    teamEntry sessionParameter services needsInbox inbox bound ≠ .entered := by
  unfold teamEntry guardNotSubagent
  rw [if_pos subagent]
  split
  · nofun
  · split
    · nofun
    · nofun

theorem task_refuses (inbox : Bool) (bound : Bound η)
    (subagent : (receivedValue bound "caller_channel").isText subagentChannelId = true) :
    task inbox bound ≠ .entered := by
  unfold task
  rw [if_pos subagent]
  cases (receivedValue bound "prompt").blank with
  | none => nofun
  | some empty =>
      cases empty with
      | true => nofun
      | false =>
          simp only
          split
          · nofun
          · split
            · nofun
            · nofun

theorem sendMessage_refuses (inbox : Bool) (bound : Bound η)
    (subagent : (receivedValue bound "caller_channel").isText subagentChannelId = true) :
    sendMessage inbox bound ≠ .entered := by
  unfold sendMessage
  rw [if_pos subagent]
  nofun

def signatureOf (parameters : List (Parameter η)) (names : List String)
    (named : parameters.map Parameter.name = names) (distinct : names.Nodup) : Signature η :=
  ⟨parameters, by rw [named]; exact distinct⟩

def teamCreateTool : GuardedTool η where
  name := "team_create"
  signature := signatureOf teamCreateParameters
    ["team_name", "team_id", "session_id", "event_loop", "session_manager", "agent_service",
      "caller_channel"] rfl (by decide)
  enter := teamCreate
  channel := by simp [signatureOf, teamCreateParameters, teamInjections]
  refuses := teamEntry_refuses _ _ _

def teamAddAgentTool : GuardedTool η where
  name := "team_add_agent"
  signature := signatureOf teamAddAgentParameters
    ["team_id", "agent_name", "profile", "invoke", "session_id", "event_loop", "session_manager",
      "agent_service", "caller_channel", "workspace"] rfl (by decide)
  enter := teamAddAgent
  channel := by simp [signatureOf, teamAddAgentParameters, teamInjections]
  refuses := teamEntry_refuses _ _ _

def teamSayTool : GuardedTool η where
  name := "team_say"
  signature := signatureOf teamSayParameters
    ["team_id", "session_id", "content", "parent_session_id", "event_loop", "session_manager",
      "agent_service", "caller_channel"] rfl (by decide)
  enter := teamSay
  channel := by simp [signatureOf, teamSayParameters, teamInjections]
  refuses := teamEntry_refuses _ _ _

def teamAgentStatusTool : GuardedTool η where
  name := "team_agent_status"
  signature := signatureOf teamAgentStatusParameters
    ["team_id", "session_id", "parent_session_id", "event_loop", "session_manager",
      "agent_service", "caller_channel"] rfl (by decide)
  enter := teamAgentStatus
  channel := by simp [signatureOf, teamAgentStatusParameters, teamInjections]
  refuses := teamEntry_refuses _ _ _

def teamDeleteTool : GuardedTool η where
  name := "team_delete"
  signature := signatureOf teamDeleteParameters
    ["team_id", "session_id", "event_loop", "session_manager", "agent_service",
      "caller_channel"] rfl (by decide)
  enter := teamDelete
  channel := by simp [signatureOf, teamDeleteParameters, teamInjections]
  refuses := teamEntry_refuses _ _ _

def waitAgentTool : GuardedTool η where
  name := "wait_agent"
  signature := signatureOf waitAgentParameters
    ["session_ids", "parent_session_id", "event_loop", "session_manager", "agent_service",
      "caller_channel"] rfl (by decide)
  enter := waitAgent
  channel := by simp [signatureOf, waitAgentParameters, teamInjections]
  refuses := teamEntry_refuses _ _ _

def taskTool : GuardedTool η where
  name := "task"
  signature := signatureOf taskParameters
    ["prompt", "session_id", "working_dir", "caller_channel", "event_loop", "session_manager",
      "agent_service", "workspace"] rfl (by decide)
  enter := task
  channel := by simp [signatureOf, taskParameters]
  refuses := task_refuses

def sendMessageTool : GuardedTool η where
  name := "send_message"
  signature := signatureOf sendMessageParameters
    ["channel_id", "session_id", "content", "kind", "caller_channel", "caller_session",
      "event_loop", "bus", "session_manager", "agent_service"] rfl (by decide)
  enter := sendMessage
  channel := by simp [signatureOf, sendMessageParameters]
  refuses := sendMessage_refuses

def guardedTools : List (GuardedTool η) :=
  [taskTool, teamCreateTool, teamAddAgentTool, teamSayTool, teamAgentStatusTool, teamDeleteTool,
    waitAgentTool, sendMessageTool]

/-! ### Isolation of a call -/

/-- What a tool is given by the host is what the turn has, and a tool that refuses subagents
refuses every call of a subagent. -/
structure InjectionIsolated (view : List (ToolContribution η)) (permissions : ToolPermissions)
    (call : ToolCall) (facts : ToolFacts) (context : RuntimeContext η) : Prop where
  values : ∀ bound, toolReceives view permissions call facts context = some bound →
    Isolated context bound
  guards : ∀ tool ∈ @guardedTools η,
    (view.find? fun contribution => decide (contribution.name = call.name)) =
      some ⟨tool.name, some tool.signature⟩ →
    contextValue context "channel_id" = .json (.str subagentChannelId) →
    ∀ bound, toolReceives view permissions call facts context = some bound →
      ∀ inbox, tool.enter inbox bound ≠ .entered

/-- Where the call reaches the tool and its names fit, no injected parameter is shadowed. -/
def NothingShadowed (view : List (ToolContribution η)) (permissions : ToolPermissions)
    (call : ToolCall) (facts : ToolFacts) (context : RuntimeContext η) : Prop :=
  ∀ contribution signature,
    (view.find? fun contribution => decide (contribution.name = call.name)) =
      some contribution →
    contribution.callable = some signature →
    permissions.gate call facts = .passes → facts.cancelled = false →
    Fits signature (ToolPermissions.givenArguments call facts) →
    ∀ parameter ∈ signature.items,
      KeepsInjection (ToolPermissions.givenArguments call facts) context parameter

theorem toolReceives_some {view : List (ToolContribution η)} {permissions : ToolPermissions}
    {call : ToolCall} {facts : ToolFacts} {context : RuntimeContext η} {bound : Bound η}
    (receives : toolReceives view permissions call facts context = some bound) :
    ∃ contribution signature,
      (view.find? fun contribution => decide (contribution.name = call.name)) =
        some contribution ∧
      contribution.callable = some signature ∧
      (permissions.gate call facts = .passes ∧ facts.cancelled = false) ∧
      bindCall signature (resolveInjections signature
        (ToolPermissions.givenArguments call facts) context) = some bound := by
  unfold toolReceives at receives
  cases found : view.find? fun contribution => decide (contribution.name = call.name) with
  | none =>
      rw [found] at receives
      cases receives
  | some contribution =>
      rw [found] at receives
      obtain ⟨runs, called⟩ := Option.ite_none_right_eq_some.mp receives
      obtain ⟨signature, callable, binds⟩ := Option.bind_eq_some_iff.mp called
      exact ⟨contribution, signature, rfl, callable,
        (ToolPermissions.execute_runs_iff permissions call facts).mp runs, binds⟩

theorem toolReceives_of_gate {view : List (ToolContribution η)} {permissions : ToolPermissions}
    {call : ToolCall} {facts : ToolFacts} {contribution : ToolContribution η}
    {signature : Signature η}
    (found : (view.find? fun contribution => decide (contribution.name = call.name)) =
      some contribution)
    (callable : contribution.callable = some signature)
    (passes : permissions.gate call facts = .passes) (running : facts.cancelled = false)
    (context : RuntimeContext η) :
    toolReceives view permissions call facts context =
      bindCall signature (resolveInjections signature
        (ToolPermissions.givenArguments call facts) context) := by
  have runs := (ToolPermissions.execute_runs_iff permissions call facts).mpr ⟨passes, running⟩
  rw [toolReceives, found]
  simp only
  rw [if_pos runs, callable, Option.bind_some]

theorem receivedValue_channel {tool : GuardedTool η} {context : RuntimeContext η}
    {bound : Bound η} {arguments : KeyedTable String Json}
    (binds : bindCall tool.signature (resolveInjections tool.signature arguments context) =
      some bound) (isolated : Isolated context bound)
    (subagent : contextValue context "channel_id" = .json (.str subagentChannelId)) :
    (receivedValue bound "caller_channel").isText subagentChannelId = true := by
  obtain ⟨_, all⟩ := Option.ite_none_right_eq_some.mp binds
  obtain ⟨names, _⟩ := bindAll_some all
  have listed : injectedParameter "caller_channel" "channel_id" ∈ bound.map Prod.fst := by
    rw [names]
    exact tool.channel
  obtain ⟨own, present, same⟩ := List.mem_map.mp listed
  cases found : bound.find? fun pair => decide (pair.1.name = "caller_channel") with
  | none =>
      have absent := List.find?_eq_none.mp found own present
      rw [same] at absent
      exact absurd (decide_eq_true rfl) absent
  | some pair =>
      have member := List.mem_of_find?_eq_some found
      have named : pair.1.name = "caller_channel" := by
        have kept := List.find?_some found
        exact of_decide_eq_true kept
      have equal : pair.1 = injectedParameter "caller_channel" "channel_id" := by
        have first : pair.1 ∈ tool.signature.items := by
          rw [← names]
          exact List.mem_map_of_mem member
        have one := KeyedList.find?_of_mem first
        have two := KeyedList.find?_of_mem tool.channel
        rw [named] at one
        exact Option.some.inj (one.symm.trans two)
      have value := isolated pair member "channel_id" (by rw [equal]; rfl)
      rw [receivedValue, found, Option.map_some, Option.getD_some, value, subagent]
      simp only [Received.isText, decide_true]

/-- Injected values are those of the turn, and the guards of the tools hold, exactly when no
argument shadows an injected parameter. -/
theorem injections_isolated_iff (view : List (ToolContribution η)) (permissions : ToolPermissions)
    (call : ToolCall) (facts : ToolFacts) (context : RuntimeContext η) :
    InjectionIsolated view permissions call facts context ↔
      NothingShadowed view permissions call facts context := by
  constructor
  · intro isolated contribution signature found callable passes running fits
    have receives := toolReceives_of_gate found callable passes running context
    have bindable := (bindCall_isSome signature _ context).mpr fits
    obtain ⟨bound, binds⟩ := Option.isSome_iff_exists.mp bindable
    exact (isolated_iff binds).mp (isolated.values bound (receives.trans binds))
  · intro plain
    have values : ∀ bound, toolReceives view permissions call facts context = some bound →
        Isolated context bound := by
      intro bound receives
      obtain ⟨contribution, signature, found, callable, reached, binds⟩ :=
        toolReceives_some receives
      have fits : Fits signature (ToolPermissions.givenArguments call facts) := by
        rw [← bindCall_isSome signature _ context, binds]
        rfl
      exact (isolated_iff binds).mpr
        (plain contribution signature found callable reached.1 reached.2 fits)
    refine ⟨values, ?_⟩
    intro tool _ visible subagent bound receives inbox
    obtain ⟨contribution, signature, found, callable, _, binds⟩ := toolReceives_some receives
    rw [visible] at found
    cases found
    cases callable
    exact tool.refuses inbox bound
      (receivedValue_channel binds (values bound receives) subagent)

def subagentContext : RuntimeContext String :=
  .ofList [("channel_id", .json (.str subagentChannelId)), ("event_loop", .host "loop"),
    ("sessions", .host "sessions"), ("agent", .host "agent"), ("workspace", .host "workspace")]

def shadowingCall : ToolCall :=
  ⟨"call_1", "task", .ofList [("prompt", .str "go on"), ("caller_channel", .str "websocket")]⟩

def openPermissions : ToolPermissions := ⟨fun _ _ => false, none, false⟩

def plainFacts : ToolFacts where
  before := .proceed
  approval := ⟨.unavailable, ""⟩
  cancelled := false
  outcome := ⟨"done", none, .empty, none, none⟩

def taskView : List (ToolContribution String) := [⟨"task", some taskTool.signature⟩]

theorem shadowed_channel_passes_the_guard :
    (toolReceives taskView openPermissions shadowingCall plainFacts subagentContext).map
        (task true) = some .entered ∧
      ¬ InjectionIsolated taskView openPermissions shadowingCall plainFacts subagentContext := by
  have entered : (toolReceives taskView openPermissions shadowingCall plainFacts
      subagentContext).map (task true) = some .entered := by decide
  refine ⟨entered, ?_⟩
  intro isolated
  obtain ⟨bound, receives, passed⟩ := Option.map_eq_some_iff.mp entered
  exact isolated.guards taskTool List.mem_cons_self rfl rfl bound receives true passed

end Ftre.Runtime
