import Ftre.Lib.KeyedTable
import Ftre.Lib.StepSystem
import Mathlib.Logic.Function.Basic

/-!
Teams of agents. The session of a leader lists the members of its teams, the session of a member
is bound to its leader and its team.
-/

namespace Ftre.Team

open Lib

/-- `metadata["team_member"]`. -/
structure Binding where
  leaderSession : String
  teamId : String
  name : String
deriving DecidableEq

/-- A team, with the names of its members by their sessions. -/
structure TeamEntry where
  name : String
  members : KeyedTable String String
deriving DecidableEq

/-- `SUBAGENT_CHANNEL_ID`. -/
def subagentChannel : String := "subagent"

/-- A session, with what its metadata says about teams. -/
structure TeamSession where
  channelId : String
  teams : KeyedTable String TeamEntry
  binding : Option Binding
deriving DecidableEq

def TeamSession.fresh (channelId : String) : TeamSession := ⟨channelId, .empty, none⟩

def TeamSession.memberIds (session : TeamSession) : List String :=
  session.teams.values.flatMap fun team => team.members.keys

/-- The arguments of `team_add_agent`, stripped, once they passed their checks. -/
structure AddCall where
  leader : String
  teamId : String
  agentName : String
deriving DecidableEq

/-- `build_team_member_binding`. -/
def AddCall.memberBinding (call : AddCall) : Binding := ⟨call.leader, call.teamId, call.agentName⟩

inductive AddPhase where
  | reading
  | creating
  | writingProfile (member : String)
  | binding (member : String)
  | registering (member : String)
deriving DecidableEq

/-- A deletion. The runtime cancels the turns of the session and of its members while it is at
`reading`; the service reads the metadata and then removes the members and the session itself. -/
inductive DeleteRun where
  | reading (session : String)
  | removing (session : String) (binding : Option Binding) (members : List String)
  | unbinding (binding : Binding) (session : String)
deriving DecidableEq

/-- An operation under way. A tool waits ten seconds at most for what it awaits, so the deletions
it asks for are operations of their own. -/
inductive Task where
  | adding (call : AddCall) (phase : AddPhase)
  | disbanding (leader teamId : String)
  | dissolving (members : List String)
  | deleting (run : DeleteRun)
deriving DecidableEq

/-- How a step goes. A change that comes late is made after the tool gave up waiting for it, and
before anything that the tool asks for then: locks are taken in the order they are asked for. -/
inductive Outcome where
  | done
  | failed
  | late
deriving DecidableEq

structure TeamWorld where
  sessions : String → Option TeamSession
  issued : List String
  tasks : List Task

namespace TeamWorld

def put (world : TeamWorld) (id : String) (session : Option TeamSession) : TeamWorld :=
  { world with sessions := Function.update world.sessions id session }

/-- `create_session` with a new id. -/
def openSession (world : TeamWorld) (id channelId : String) : TeamWorld :=
  { world.put id (some (.fresh channelId)) with issued := id :: world.issued }

/-- `mutate_session_metadata` on the teams: none if there is no such session, or the updater
raises. -/
def mutateTeams (world : TeamWorld) (leader : String)
    (updater : KeyedTable String TeamEntry → Option (KeyedTable String TeamEntry)) :
    Option TeamWorld :=
  (world.sessions leader).bind fun session =>
    (updater session.teams).map fun teams => world.put leader (some { session with teams := teams })

def create (teamId name : String) (teams : KeyedTable String TeamEntry) :
    Option (KeyedTable String TeamEntry) :=
  if teams.contains teamId then none else some (teams.set teamId ⟨name, .empty⟩)

def register (call : AddCall) (member : String) (teams : KeyedTable String TeamEntry) :
    Option (KeyedTable String TeamEntry) :=
  (teams.find? call.teamId).map fun team =>
    teams.set call.teamId { team with members := team.members.set member call.agentName }

def pop (teamId : String) (teams : KeyedTable String TeamEntry) :
    Option (KeyedTable String TeamEntry) :=
  if teams.contains teamId then some (teams.erase teamId) else none

def remove (binding : Binding) (member : String) (teams : KeyedTable String TeamEntry) :
    Option (KeyedTable String TeamEntry) :=
  match teams.find? binding.teamId with
  | some team =>
      some (teams.set binding.teamId { team with members := team.members.erase member })
  | none => some teams

def team? (world : TeamWorld) (leader teamId : String) : Option TeamEntry :=
  (world.sessions leader).bind fun session => session.teams.find? teamId

/-- `update_session_metadata` with the binding. -/
def bindMember (world : TeamWorld) (call : AddCall) (member : String) : Option TeamWorld :=
  (world.sessions member).map fun session =>
    world.put member (some { session with binding := some call.memberBinding })

def rollback (member : String) : List Task := [.deleting (.reading member)]

/-- The next step of `team_add_agent`; none where the drawn id is not new. -/
def add (world : TeamWorld) (call : AddCall) (outcome : Outcome) (drawn : String) :
    AddPhase → Option (TeamWorld × List Task)
  | .reading =>
      some (world,
        if (world.team? call.leader call.teamId).isSome then [.adding call .creating] else [])
  | .creating =>
      if outcome = .failed then some (world, [])
      else if drawn ∈ world.issued then none
      else
        some (world.openSession drawn subagentChannel,
          if outcome = .done then [.adding call (.writingProfile drawn)] else [])
  | .writingProfile member =>
      some (world, if outcome = .done then [.adding call (.binding member)] else rollback member)
  | .binding member =>
      if outcome = .failed then some (world, rollback member)
      else
        match world.bindMember call member with
        | none => some (world, rollback member)
        | some after =>
            some (after,
              if outcome = .done then [.adding call (.registering member)] else rollback member)
  | .registering member =>
      if outcome = .failed then some (world, rollback member)
      else
        match world.mutateTeams call.leader (register call member) with
        | none => some (world, rollback member)
        | some after => some (after, if outcome = .done then [] else rollback member)

/-- The next step of `delete_session`. It raises before it reads where the agent service is
closed. A removal that fails has taken the session out of memory; a leader that is gone does not
matter to the unbinding. -/
def delete (world : TeamWorld) (outcome : Outcome) : DeleteRun → TeamWorld × List Task
  | .reading session =>
      if outcome = .failed then (world, [])
      else
        let found := world.sessions session
        (world,
          [.deleting (.removing session (found.bind TeamSession.binding)
            ((found.map TeamSession.memberIds).getD []))])
  | .removing session binding (member :: rest) =>
      (world.put member none,
        if outcome = .failed then [] else [.deleting (.removing session binding rest)])
  | .removing session binding [] =>
      (world.put session none,
        if outcome = .failed then []
        else (binding.map fun own => Task.deleting (.unbinding own session)).toList)
  | .unbinding binding session =>
      if outcome = .failed then (world, [])
      else ((world.mutateTeams binding.leaderSession (remove binding session)).getD world, [])

def advance (world : TeamWorld) (outcome : Outcome) (drawn : String) :
    Task → Option (TeamWorld × List Task)
  | .adding call phase => world.add call outcome drawn phase
  | .disbanding leader teamId =>
      if outcome = .failed then some (world, [])
      else
        match world.mutateTeams leader (pop teamId), world.team? leader teamId with
        | some after, some team =>
            some (after, if outcome = .done then [.dissolving team.members.keys] else [])
        | _, _ => some (world, [])
  | .dissolving [] => some (world, [])
  | .dissolving (member :: rest) => some (world, [.deleting (.reading member), .dissolving rest])
  | .deleting run => some (world.delete outcome run)

end TeamWorld

inductive Request where
  | addAgent (call : AddCall)
  | teamDelete (leader teamId : String)
  /-- The router answers 404 for a session that does not exist. -/
  | deleteSession (session : String)

inductive TeamAction where
  | openSession (id channelId : String)
  | teamCreate (leader teamId name : String)
  | start (request : Request)
  /-- The operation at the index takes its next step. -/
  | advance (index : Nat) (outcome : Outcome) (drawn : String)

namespace TeamWorld

/-- `_guard_not_subagent`; the channel a tool is called in is that of the session. -/
def mayLead (world : TeamWorld) (caller : String) : Bool :=
  (world.sessions caller).all fun session => decide (session.channelId ≠ subagentChannel)

def begin (world : TeamWorld) : Request → Option Task
  | .addAgent call => if world.mayLead call.leader then some (.adding call .reading) else none
  | .teamDelete leader teamId =>
      if world.mayLead leader then some (.disbanding leader teamId) else none
  | .deleteSession session =>
      (world.sessions session).map fun _ => .deleting (.reading session)

def step (world : TeamWorld) : TeamAction → Option TeamWorld
  | .openSession id channelId =>
      if id ∈ world.issued then none else some (world.openSession id channelId)
  | .teamCreate leader teamId name =>
      if world.mayLead leader then world.mutateTeams leader (create teamId name) else none
  | .start request =>
      (world.begin request).map fun task => { world with tasks := world.tasks ++ [task] }
  | .advance index outcome drawn =>
      (world.tasks[index]?).bind fun task =>
        (world.advance outcome drawn task).map fun (after, nexts) =>
          { after with tasks := world.tasks.take index ++ nexts ++ world.tasks.drop (index + 1) }

def system : StepSystem TeamWorld TeamAction := ⟨step⟩

def Alive (world : TeamWorld) (id : String) : Prop := (world.sessions id).isSome = true

def Bound (world : TeamWorld) (member leader teamId : String) : Prop :=
  ∃ session own, world.sessions member = some session ∧ session.binding = some own ∧
    own.leaderSession = leader ∧ own.teamId = teamId

def Listed (world : TeamWorld) (leader teamId member : String) : Prop :=
  ∃ session team, world.sessions leader = some session ∧
    session.teams.find? teamId = some team ∧ member ∈ team.members.keys

def Subagent (world : TeamWorld) (id : String) : Prop :=
  ∃ session, world.sessions id = some session ∧ session.channelId = subagentChannel

def Leads (world : TeamWorld) (id : String) : Prop :=
  ∃ session teamId team, world.sessions id = some session ∧
    session.teams.find? teamId = some team

/-- Every listed member has a session bound to the leader and the team, and every bound session
is listed there. -/
structure Consistent (world : TeamWorld) : Prop where
  bound : ∀ leader teamId member, world.Listed leader teamId member →
    world.Bound member leader teamId
  listed : ∀ member leader teamId, world.Bound member leader teamId →
    world.Listed leader teamId member

/-- No operation is under way, and the sessions are as the tools leave them: members are
subagents, and these lead no team. -/
structure Settled (world : TeamWorld) : Prop where
  quiet : world.tasks = []
  consistent : world.Consistent
  members : ∀ member leader teamId, world.Bound member leader teamId → world.Subagent member
  leaves : ∀ id, world.Subagent id → ¬ world.Leads id
  issued : ∀ id, world.Alive id → id ∈ world.issued

end TeamWorld

end Ftre.Team
