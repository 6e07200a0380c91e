import Ftre.Team.Membership

/-!
What the operations under way still owe: which session will be removed, which entry will be taken
out of a team, which member will be listed.
-/

namespace Ftre.Team

open Lib

structure TeamWorld.Free (world : TeamWorld) (member : String) : Prop where
  issued : member ∈ world.issued
  unbound : ∀ leader teamId, ¬ world.Bound member leader teamId
  subagent : world.Alive member → world.Subagent member

namespace Task

def Dooms (task : Task) (member : String) : Prop :=
  match task with
  | .dissolving members => member ∈ members
  | .deleting (.reading session) => session = member
  | .deleting (.removing session _ members) => session = member ∨ member ∈ members
  | _ => False

def Unbinds (task : Task) (leader teamId member : String) : Prop :=
  match task with
  | .deleting (.removing session (some own) _) =>
      session = member ∧ own.leaderSession = leader ∧ own.teamId = teamId
  | .deleting (.unbinding own session) =>
      session = member ∧ own.leaderSession = leader ∧ own.teamId = teamId
  | _ => False

def Ends (task : Task) (leader : String) : Prop :=
  match task with
  | .deleting (.removing session _ _) => session = leader
  | _ => False

def Forgets (task : Task) (leader teamId member : String) : Prop :=
  match task with
  | .deleting (.removing session binding _) =>
      session = member ∧
        ∀ own, binding = some own → ¬ (own.leaderSession = leader ∧ own.teamId = teamId)
  | _ => False

def Registers (task : Task) (leader teamId member : String) : Prop :=
  match task with
  | .adding call (.registering newcomer) =>
      newcomer = member ∧ call.leader = leader ∧ call.teamId = teamId
  | _ => False

theorem ends_of_forgets {task : Task} {leader teamId member : String}
    (forgets : task.Forgets leader teamId member) : task.Ends member := by
  unfold Forgets at forgets
  split at forgets
  · exact forgets.1
  · exact forgets.elim

structure Idle (task : Task) : Prop where
  dooms : ∀ member, ¬ task.Dooms member
  unbinds : ∀ leader teamId member, ¬ task.Unbinds leader teamId member
  ends : ∀ leader, ¬ task.Ends leader
  registers : ∀ leader teamId member, ¬ task.Registers leader teamId member

def newcomer? : Task → Option String
  | .adding _ (.writingProfile member) => some member
  | .adding _ (.binding member) => some member
  | .adding _ (.registering member) => some member
  | _ => none

def Sound (world : TeamWorld) (task : Task) : Prop :=
  match task with
  | .adding _ (.writingProfile member) => world.Free member
  | .adding _ (.binding member) => world.Free member
  | .adding call (.registering member) =>
      member ∈ world.issued ∧ (world.Alive member → world.Bound member call.leader call.teamId)
  | .dissolving members => ∀ member ∈ members, member ∈ world.issued
  | .deleting (.reading session) => session ∈ world.issued
  | .deleting (.removing session _ members) =>
      session ∈ world.issued ∧ ∀ member ∈ members, member ∈ world.issued ∧
        (world.Alive member → ∃ teamId, world.Bound member session teamId)
  | .deleting (.unbinding _ session) => session ∈ world.issued ∧ ¬ world.Alive session
  | _ => True

end Task

namespace TeamWorld

def MayList (world : TeamWorld) (leader teamId member : String) : Prop :=
  (∃ task ∈ world.tasks, task.Unbinds leader teamId member) ∨
    world.Alive member ∧
      ∀ task ∈ world.tasks, ¬ task.Forgets leader teamId member ∧ ¬ task.Ends leader

def Spared (world : TeamWorld) (leader teamId member : String) : Prop :=
  (world.Listed leader teamId member ∨
    ∃ task ∈ world.tasks, task.Registers leader teamId member) ∧
      ∀ task ∈ world.tasks, ¬ task.Ends leader

def Mends (world : TeamWorld) (outcome : Outcome) : Task → Prop
  | .adding call (.registering member) =>
      outcome ≠ .failed → (world.mutateTeams call.leader (register call member)).isSome = true →
        world.MayList call.leader call.teamId member
  | .disbanding leader teamId =>
      outcome = .late → ∀ member, ¬ world.Listed leader teamId member
  | .deleting (.reading session) =>
      outcome = .failed → ∀ leader teamId, world.Bound session leader teamId →
        world.Spared leader teamId session
  | .deleting (.removing _ binding members) =>
      outcome = .failed → members = [] ∧ binding = none
  | .deleting (.unbinding own session) =>
      outcome = .failed → ¬ world.Listed own.leaderSession own.teamId session
  | _ => True

def Undisturbed (world : TeamWorld) : TeamAction → Prop
  | .advance index outcome _ =>
      ∀ task, world.tasks[index]? = some task → world.Mends outcome task
  | _ => True

structure Owed (world : TeamWorld) : Prop where
  bound : ∀ leader teamId member, world.Listed leader teamId member → world.Alive member →
    world.Bound member leader teamId
  covered : ∀ leader teamId member, world.Listed leader teamId member →
    (∃ task ∈ world.tasks, task.Ends leader) ∨
      (∃ task ∈ world.tasks, task.Unbinds leader teamId member) ∨
        world.Alive member ∧ ∀ task ∈ world.tasks, ¬ task.Forgets leader teamId member
  kept : ∀ member leader teamId, world.Bound member leader teamId →
    world.Listed leader teamId member ∨
      (∃ task ∈ world.tasks, task.Registers leader teamId member) ∨
        ∃ task ∈ world.tasks, task.Dooms member
  swept : ∀ leader teamId member, (∃ task ∈ world.tasks, task.Ends leader) →
    world.Listed leader teamId member → world.Alive member →
      ∃ task ∈ world.tasks, task.Dooms member
  sound : ∀ task ∈ world.tasks, task.Sound world
  newcomers : (world.tasks.filterMap Task.newcomer?).Nodup
  members : ∀ member leader teamId, world.Bound member leader teamId → world.Subagent member
  leaves : ∀ id, world.Subagent id → ¬ world.Leads id
  alive : ∀ id, world.Alive id → id ∈ world.issued
  listed : ∀ leader teamId member, world.Listed leader teamId member → member ∈ world.issued

theorem owed_of_settled {world : TeamWorld} (settled : world.Settled) : world.Owed where
  bound leader teamId member listed _ := settled.consistent.bound leader teamId member listed
  covered leader teamId member listed := by
    obtain ⟨session, _, found, _⟩ := settled.consistent.bound leader teamId member listed
    have alive : world.Alive member := by
      unfold Alive
      rw [found]
      rfl
    refine Or.inr (Or.inr ⟨alive, ?_⟩)
    rw [settled.quiet]
    exact fun _ present => absurd present List.not_mem_nil
  kept member leader teamId bound :=
    Or.inl (settled.consistent.listed member leader teamId bound)
  swept leader teamId member ends := by
    obtain ⟨_, present, _⟩ := ends
    rw [settled.quiet] at present
    exact absurd present List.not_mem_nil
  sound := by
    rw [settled.quiet]
    exact fun _ present => absurd present List.not_mem_nil
  newcomers := by
    rw [settled.quiet]
    exact List.nodup_nil
  members := settled.members
  leaves := settled.leaves
  alive := settled.issued
  listed leader teamId member listed := by
    obtain ⟨session, _, found, _⟩ := settled.consistent.bound leader teamId member listed
    apply settled.issued
    unfold Alive
    rw [found]
    rfl

theorem consistent_of_owed {world : TeamWorld} (owed : world.Owed) (quiet : world.tasks = []) :
    world.Consistent where
  bound leader teamId member listed := by
    rcases owed.covered leader teamId member listed with ⟨_, present, _⟩ | ⟨_, present, _⟩ | alive
    · rw [quiet] at present
      exact absurd present List.not_mem_nil
    · rw [quiet] at present
      exact absurd present List.not_mem_nil
    · exact owed.bound leader teamId member listed alive.1
  listed member leader teamId bound := by
    rcases owed.kept member leader teamId bound with listed | ⟨_, present, _⟩ | ⟨_, present, _⟩
    · exact listed
    · rw [quiet] at present
      exact absurd present List.not_mem_nil
    · rw [quiet] at present
      exact absurd present List.not_mem_nil

end TeamWorld

end Ftre.Team
