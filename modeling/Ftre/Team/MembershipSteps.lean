import Ftre.Team.Handover

/-!
Each step of an operation does what it owes or hands it on.
-/

namespace Ftre.Team.TeamWorld

open Lib

variable {world after : TeamWorld} {front back others nexts : List Task} {task : Task}

private theorem sound_retask (sound : task.Sound world) (tasks : List Task) :
    task.Sound { world with tasks := tasks } := by
  cases task with
  | adding call phase =>
      cases phase with
      | writingProfile member => exact ⟨sound.issued, sound.unbound, sound.subagent⟩
      | binding member => exact ⟨sound.issued, sound.unbound, sound.subagent⟩
      | _ => exact sound
  | deleting run =>
      cases run with
      | _ => exact sound
  | _ => exact sound

theorem Handover.retask {before : TeamWorld} {removed : List Task}
    (handover : Handover before after removed nexts others) (tasks : List Task) :
    Handover before { after with tasks := tasks } removed nexts others where
  issued := handover.issued
  alive := handover.alive
  bound := handover.bound
  rebound := handover.rebound
  listed := handover.listed
  dooms := handover.dooms
  unbinds := handover.unbinds
  ends := handover.ends
  registers := handover.registers
  unlisted := handover.unlisted
  gone := handover.gone
  forgets := handover.forgets
  swept := handover.swept
  sound next new := sound_retask (handover.sound next new) tasks
  subagent := handover.subagent
  members := handover.members
  leaves := handover.leaves

theorem owed_of_handover {removed : List Task} (owed : world.Owed)
    (split : world.tasks = front ++ removed ++ back)
    (handover : Handover world after removed nexts (front ++ back))
    (fewer : (nexts.filterMap Task.newcomer?).Sublist (removed.filterMap Task.newcomer?)) :
    ({ after with tasks := front ++ nexts ++ back } : TeamWorld).Owed := by
  have distinct := owed.newcomers
  rw [split] at distinct
  exact owed_handover owed split rfl (handover.retask _) (newcomers_nodup distinct fewer)

/-! ### Steps that change no session -/

theorem handover_same {removed : List Task} (owed : world.Owed)
    (dooms : ∀ task ∈ removed, ∀ member, task.Dooms member → world.Alive member →
      ∃ next ∈ nexts, next.Dooms member)
    (unbinds : ∀ task ∈ removed, ∀ leader teamId member, task.Unbinds leader teamId member →
      world.Listed leader teamId member → ∃ next ∈ nexts, next.Unbinds leader teamId member)
    (ends : ∀ task ∈ removed, ∀ leader teamId member, task.Ends leader →
      world.Listed leader teamId member → ∃ next ∈ nexts, next.Ends leader)
    (registers : ∀ task ∈ removed, ∀ leader teamId member,
      task.Registers leader teamId member → world.Bound member leader teamId →
        world.Listed leader teamId member ∨ ∃ next ∈ nexts, next.Dooms member)
    (forgets : ∀ next ∈ nexts, ∀ leader teamId member, next.Forgets leader teamId member →
      world.Bound member leader teamId → ∃ task ∈ removed, task.Forgets leader teamId member)
    (swept : ∀ next ∈ nexts, ∀ leader teamId member, next.Ends leader →
      world.Listed leader teamId member → world.Alive member →
        (∃ task ∈ removed, task.Ends leader) ∨ ∃ next ∈ nexts, next.Dooms member)
    (sound : ∀ next ∈ nexts, next.Sound world) :
    Handover world world removed nexts others where
  issued := rfl
  alive _ alive := alive
  bound _ _ _ bound _ := bound
  rebound _ _ _ bound := Or.inl bound
  listed _ _ _ listed := listed
  dooms := dooms
  unbinds := unbinds
  ends := ends
  registers := registers
  unlisted _ _ _ listed _ := Or.inl listed
  gone _ _ _ _ bound dead _ := absurd (bound_alive bound) dead
  forgets := forgets
  swept := swept
  sound := sound
  subagent _ subagent _ := subagent
  members := owed.members
  leaves := owed.leaves

theorem handover_idle {removed : List Task} (owed : world.Owed)
    (idle : ∀ task ∈ removed, task.Idle) (plain : ∀ next ∈ nexts, ∀ leader, ¬ next.Ends leader)
    (sound : ∀ next ∈ nexts, next.Sound world) :
    Handover world world removed nexts others := by
  apply handover_same owed
  · exact fun task ours member dooms => absurd dooms ((idle task ours).dooms member)
  · exact fun task ours _ _ _ unbinds => absurd unbinds ((idle task ours).unbinds _ _ _)
  · exact fun task ours _ _ _ ends => absurd ends ((idle task ours).ends _)
  · exact fun task ours _ _ _ registers => absurd registers ((idle task ours).registers _ _ _)
  · exact fun next new _ _ _ forgets => absurd (Task.ends_of_forgets forgets) (plain next new _)
  · exact fun next new _ _ _ ends => absurd ends (plain next new _)
  · exact sound

variable {call : AddCall} {member : String} {session : String}

theorem idle_adding {phase : AddPhase} (early : ∀ member, phase ≠ .registering member) :
    (Task.adding call phase).Idle where
  dooms _ dooms := dooms
  unbinds _ _ _ unbinds := unbinds
  ends _ ends := ends
  registers _ _ _ registers := by
    cases phase with
    | registering member => exact early member rfl
    | reading => exact registers
    | creating => exact registers
    | writingProfile _ => exact registers
    | binding _ => exact registers

theorem idle_disbanding (leader teamId : String) : (Task.disbanding leader teamId).Idle where
  dooms _ dooms := dooms
  unbinds _ _ _ unbinds := unbinds
  ends _ ends := ends
  registers _ _ _ registers := registers

theorem plain_adding {call : AddCall} {phase : AddPhase} :
    ∀ next ∈ [Task.adding call phase], ∀ leader, ¬ next.Ends leader := by
  intro next new leader ends
  rw [List.mem_singleton.mp new] at ends
  exact ends

theorem plain_rollback : ∀ next ∈ rollback member, ∀ leader, ¬ next.Ends leader := by
  intro next new leader ends
  rw [List.mem_singleton.mp new] at ends
  exact ends

theorem plain_none : ∀ next ∈ ([] : List Task), ∀ leader, ¬ next.Ends leader :=
  fun _ present => absurd present List.not_mem_nil

theorem sound_none : ∀ next ∈ ([] : List Task), next.Sound world :=
  fun _ present => absurd present List.not_mem_nil

theorem sound_one {next : Task} (sound : next.Sound world) :
    ∀ other ∈ [next], other.Sound world := by
  intro other new
  rw [List.mem_singleton.mp new]
  exact sound

theorem sound_rollback (issued : member ∈ world.issued) :
    ∀ next ∈ rollback member, next.Sound world :=
  sound_one (show (Task.deleting (.reading member)).Sound world from issued)

theorem handover_giveUp (owed : world.Owed) (issued : member ∈ world.issued) :
    Handover world world [.adding call (.registering member)] (rollback member) others := by
  apply handover_same owed
  · exact List.forall_mem_singleton.mpr fun _ dooms => dooms.elim
  · exact List.forall_mem_singleton.mpr fun _ _ _ unbinds => unbinds.elim
  · exact List.forall_mem_singleton.mpr fun _ _ _ ends => ends.elim
  · intro task ours leader teamId other registers _
    rw [List.mem_singleton.mp ours] at registers
    exact Or.inr ⟨_, List.mem_singleton_self _, registers.1⟩
  · exact fun next new _ _ _ forgets =>
      absurd (Task.ends_of_forgets forgets) (plain_rollback next new _)
  · exact fun next new _ _ _ ends => absurd ends (plain_rollback next new _)
  · exact sound_rollback issued

theorem handover_registered (owed : world.Owed)
    (listed : world.Listed call.leader call.teamId member) :
    Handover world world [.adding call (.registering member)] [] others := by
  apply handover_same owed
  · exact List.forall_mem_singleton.mpr fun _ dooms => dooms.elim
  · exact List.forall_mem_singleton.mpr fun _ _ _ unbinds => unbinds.elim
  · exact List.forall_mem_singleton.mpr fun _ _ _ ends => ends.elim
  · intro task ours leader teamId other registers _
    rw [List.mem_singleton.mp ours] at registers
    obtain ⟨rfl, rfl, rfl⟩ := registers
    exact Or.inl listed
  · exact fun _ present => absurd present List.not_mem_nil
  · exact fun _ present => absurd present List.not_mem_nil
  · exact sound_none

theorem handover_dissolve (owed : world.Owed) {rest : List String}
    (sound : (Task.dissolving (member :: rest)).Sound world) :
    Handover world world [.dissolving (member :: rest)]
      [.deleting (.reading member), .dissolving rest] others := by
  apply handover_same owed
  · intro task ours other dooms _
    rw [List.mem_singleton.mp ours] at dooms
    rcases List.mem_cons.mp dooms with same | later
    · exact ⟨.deleting (.reading member), List.mem_cons_self, same.symm⟩
    · exact ⟨.dissolving rest, List.mem_cons_of_mem _ (List.mem_singleton_self _), later⟩
  · exact List.forall_mem_singleton.mpr fun _ _ _ unbinds => unbinds.elim
  · exact List.forall_mem_singleton.mpr fun _ _ _ ends => ends.elim
  · exact List.forall_mem_singleton.mpr fun _ _ _ registers => registers.elim
  · intro next new _ _ _ forgets
    rcases List.mem_cons.mp new with same | later
    · rw [same] at forgets
      exact forgets.elim
    · rw [List.mem_singleton.mp later] at forgets
      exact forgets.elim
  · intro next new _ _ _ ends
    rcases List.mem_cons.mp new with same | later
    · rw [same] at ends
      exact ends.elim
    · rw [List.mem_singleton.mp later] at ends
      exact ends.elim
  · intro next new
    rcases List.mem_cons.mp new with same | later
    · rw [same]
      exact sound member List.mem_cons_self
    · rw [List.mem_singleton.mp later]
      exact fun other present => sound other (List.mem_cons_of_mem _ present)

section Unread

variable {tasks : List Task}

private theorem mem_unread (split : tasks = front ++ [.deleting (.reading session)] ++ back)
    (present : task ∈ front ++ [] ++ back) : task ∈ tasks := by
  rw [split]
  rcases mem_swap.mp present with none | other
  · exact absurd none List.not_mem_nil
  · exact mem_swap.mpr (Or.inr other)

private theorem remains_unread (split : tasks = front ++ [.deleting (.reading session)] ++ back)
    {property : Task → Prop} (found : ∃ task ∈ tasks, property task)
    (spares : ¬ property (.deleting (.reading session))) :
    ∃ task ∈ front ++ [] ++ back, property task := by
  obtain ⟨task, present, held⟩ := found
  rw [split] at present
  rcases mem_swap.mp present with ours | other
  · rw [List.mem_singleton.mp ours] at held
    exact absurd held spares
  · exact ⟨task, mem_swap.mpr (Or.inr other), held⟩

end Unread

theorem handover_read (owed : world.Owed) (issued : session ∈ world.issued) :
    Handover world world [.deleting (.reading session)]
      [.deleting (.removing session ((world.sessions session).bind TeamSession.binding)
        (((world.sessions session).map TeamSession.memberIds).getD []))] others := by
  have listed : ∀ member,
      member ∈ ((world.sessions session).map TeamSession.memberIds).getD [] ↔
        ∃ teamId, world.Listed session teamId member := by
    intro member
    cases found : world.sessions session with
    | none =>
        constructor
        · exact fun present => absurd present List.not_mem_nil
        · rintro ⟨teamId, _, _, held, _⟩
          rw [found] at held
          cases held
    | some metadata =>
        rw [Option.map_some, Option.getD_some, mem_memberIds]
        constructor
        · rintro ⟨teamId, team, held, present⟩
          exact ⟨teamId, (listed_self found _ _).mpr ⟨team, held, present⟩⟩
        · rintro ⟨teamId, present⟩
          obtain ⟨team, held, member⟩ := (listed_self found _ _).mp present
          exact ⟨teamId, team, held, member⟩
  apply handover_same owed
  · intro task ours other dooms _
    rw [List.mem_singleton.mp ours] at dooms
    exact ⟨_, List.mem_singleton_self _, Or.inl dooms⟩
  · exact List.forall_mem_singleton.mpr fun _ _ _ unbinds => unbinds.elim
  · exact List.forall_mem_singleton.mpr fun _ _ _ ends => ends.elim
  · exact List.forall_mem_singleton.mpr fun _ _ _ registers => registers.elim
  · intro next new leader teamId member forgets bound
    rw [List.mem_singleton.mp new] at forgets
    obtain ⟨rfl, other⟩ := forgets
    obtain ⟨metadata, own, found, held, rfl, rfl⟩ := bound
    exact absurd ⟨rfl, rfl⟩ (other own (by rw [found]; exact held))
  · intro next new leader teamId member ends present _
    rw [List.mem_singleton.mp new] at ends
    refine Or.inr ⟨_, List.mem_singleton_self _, Or.inr ?_⟩
    change session = leader at ends
    rw [← ends] at present
    exact (listed member).mpr ⟨teamId, present⟩
  · apply sound_one
    refine ⟨issued, fun member present => ?_⟩
    obtain ⟨teamId, held⟩ := (listed member).mp present
    exact ⟨owed.listed _ _ _ held, fun alive => ⟨teamId, owed.bound _ _ _ held alive⟩⟩

theorem owed_unread (owed : world.Owed)
    (split : world.tasks = front ++ [.deleting (.reading session)] ++ back)
    (spared : ∀ leader teamId, world.Bound session leader teamId →
      world.Spared leader teamId session) :
    ({ world with tasks := front ++ [] ++ back } : TeamWorld).Owed where
  bound := owed.bound
  covered leader teamId member listed := by
    rcases owed.covered leader teamId member listed with ends | unbinds | ⟨alive, remembered⟩
    · exact Or.inl (remains_unread split ends fun ends => ends)
    · exact Or.inr (Or.inl (remains_unread split unbinds fun unbinds => unbinds))
    · exact Or.inr (Or.inr ⟨alive, fun task present =>
        remembered task (mem_unread split present)⟩)
  kept member leader teamId bound := by
    have stays : world.Listed leader teamId member ∨
        (∃ task ∈ world.tasks, task.Registers leader teamId member) ∨
          ∃ task ∈ front ++ [] ++ back, task.Dooms member := by
      by_cases same : session = member
      · rcases (spared leader teamId (same ▸ bound)).1 with listed | registers
        · exact Or.inl (same ▸ listed)
        · exact Or.inr (Or.inl (same ▸ registers))
      · rcases owed.kept member leader teamId bound with listed | registers | dooms
        · exact Or.inl listed
        · exact Or.inr (Or.inl registers)
        · exact Or.inr (Or.inr (remains_unread split dooms same))
    rcases stays with listed | registers | dooms
    · exact Or.inl listed
    · exact Or.inr (Or.inl (remains_unread split registers fun registers => registers))
    · exact Or.inr (Or.inr dooms)
  swept leader teamId member ends listed alive := by
    obtain ⟨task, present, held⟩ := ends
    have before := mem_unread split present
    have apart : ¬ session = member := by
      intro same
      have bound := owed.bound leader teamId member listed alive
      exact (spared leader teamId (same ▸ bound)).2 task before held
    exact remains_unread split (owed.swept leader teamId member ⟨task, before, held⟩ listed alive)
      apart
  sound task present := sound_retask (owed.sound task (mem_unread split present)) _
  newcomers := by
    have distinct := owed.newcomers
    rw [split] at distinct
    exact newcomers_nodup distinct (List.nil_sublist _)
  members := owed.members
  leaves := owed.leaves
  alive := owed.alive
  listed := owed.listed

/-! ### Steps that change a session -/

theorem handover_bind (owed : world.Owed) (free : world.Free member)
    (done : world.bindMember call member = some after)
    (owes : ∃ next ∈ nexts, next.Registers call.leader call.teamId member ∨ next.Dooms member)
    (plain : ∀ next ∈ nexts, ∀ leader, ¬ next.Ends leader)
    (sound : ∀ next ∈ nexts, next.Sound after) :
    Handover world after [.adding call (.binding member)] nexts others where
  issued := by
    obtain ⟨_, _, rfl⟩ := Option.map_eq_some_iff.mp done
    rfl
  alive id alive := (alive_bindMember done id).mp alive
  bound other leader teamId bound _ := by
    rw [bound_bindMember done]
    have apart : other ≠ member := fun same => free.unbound leader teamId (same ▸ bound)
    rw [if_neg apart]
    exact bound
  rebound other leader teamId bound := by
    rw [bound_bindMember done] at bound
    split at bound
    · rename_i same
      obtain ⟨rfl, rfl⟩ := bound
      exact Or.inr ⟨same ▸ List.mem_singleton_self _, same ▸ owes⟩
    · exact Or.inl bound
  listed leader teamId other listed := (listed_bindMember done _ _ _).mp listed
  dooms := List.forall_mem_singleton.mpr fun _ dooms => dooms.elim
  unbinds := List.forall_mem_singleton.mpr fun _ _ _ unbinds => unbinds.elim
  ends := List.forall_mem_singleton.mpr fun _ _ _ ends => ends.elim
  registers := List.forall_mem_singleton.mpr fun _ _ _ registers => registers.elim
  unlisted leader teamId other listed _ := Or.inl ((listed_bindMember done _ _ _).mpr listed)
  gone leader teamId other _ bound dead _ :=
    absurd ((alive_bindMember done other).mpr (bound_alive bound)) dead
  forgets next new _ _ _ forgets := absurd (Task.ends_of_forgets forgets) (plain next new _)
  swept next new _ _ _ ends := absurd ends (plain next new _)
  sound := sound
  subagent id subagent _ := (subagent_bindMember done id).mpr subagent
  members other leader teamId bound := by
    rw [subagent_bindMember done]
    rw [bound_bindMember done] at bound
    split at bound
    · rename_i same
      obtain ⟨session, found, _⟩ := Option.map_eq_some_iff.mp done
      rw [same]
      apply free.subagent
      unfold Alive
      rw [found]
      rfl
    · exact owed.members other leader teamId bound
  leaves id subagent leads :=
    owed.leaves id ((subagent_bindMember done id).mp subagent) ((leads_bindMember done id).mp leads)

theorem handover_pop (owed : world.Owed) {leader teamId : String}
    (done : world.mutateTeams leader (pop teamId) = some after)
    (dooms : ∀ member, world.Listed leader teamId member → ∃ next ∈ nexts, next.Dooms member)
    (plain : ∀ next ∈ nexts, ∀ leader, ¬ next.Ends leader)
    (sound : ∀ next ∈ nexts, next.Sound after) :
    Handover world after [.disbanding leader teamId] nexts others where
  issued := (rest_mutateTeams done).1
  alive id alive := (alive_mutateTeams done id).mp alive
  bound member owner team bound _ := (bound_mutateTeams done _ _ _).mpr bound
  rebound member owner team bound := Or.inl ((bound_mutateTeams done _ _ _).mp bound)
  listed owner team member listed := ((listed_pop done _ _ _).mp listed).1
  dooms := List.forall_mem_singleton.mpr fun _ dooms => dooms.elim
  unbinds := List.forall_mem_singleton.mpr fun _ _ _ unbinds => unbinds.elim
  ends := List.forall_mem_singleton.mpr fun _ _ _ ends => ends.elim
  registers := List.forall_mem_singleton.mpr fun _ _ _ registers => registers.elim
  unlisted owner team member listed _ := by
    rw [listed_pop done]
    by_cases popped : owner = leader ∧ team = teamId
    · obtain ⟨rfl, rfl⟩ := popped
      obtain ⟨next, new, held⟩ := dooms member listed
      exact Or.inr ⟨next, List.mem_append_left _ new, held⟩
    · exact Or.inl ⟨listed, popped⟩
  gone owner team member _ bound dead _ :=
    absurd ((alive_mutateTeams done member).mpr (bound_alive bound)) dead
  forgets next new _ _ _ forgets := absurd (Task.ends_of_forgets forgets) (plain next new _)
  swept next new _ _ _ ends := absurd ends (plain next new _)
  sound := sound
  subagent id subagent _ := (subagent_mutateTeams done id).mpr subagent
  members member owner team bound :=
    (subagent_mutateTeams done member).mpr
      (owed.members member owner team ((bound_mutateTeams done _ _ _).mp bound))
  leaves id subagent leads :=
    owed.leaves id ((subagent_mutateTeams done id).mp subagent) (leads_pop done leads)

theorem handover_unbind (owed : world.Owed) {own : Binding} (dead : ¬ world.Alive session)
    (done : world.mutateTeams own.leaderSession (remove own session) = some after) :
    Handover world after [.deleting (.unbinding own session)] [] others where
  issued := (rest_mutateTeams done).1
  alive id alive := (alive_mutateTeams done id).mp alive
  bound member owner team bound _ := (bound_mutateTeams done _ _ _).mpr bound
  rebound member owner team bound := Or.inl ((bound_mutateTeams done _ _ _).mp bound)
  listed owner team member listed := ((listed_remove done _ _ _).mp listed).1
  dooms := List.forall_mem_singleton.mpr fun _ dooms => dooms.elim
  unbinds task ours owner team member unbinds listed := by
    rw [List.mem_singleton.mp ours] at unbinds
    obtain ⟨same, leads, named⟩ := unbinds
    exact absurd ⟨leads.symm, named.symm, same.symm⟩ ((listed_remove done _ _ _).mp listed).2
  ends := List.forall_mem_singleton.mpr fun _ _ _ ends => ends.elim
  registers := List.forall_mem_singleton.mpr fun _ _ _ registers => registers.elim
  unlisted owner team member listed bound := by
    rw [listed_remove done]
    refine Or.inl ⟨listed, ?_⟩
    rintro ⟨_, _, same⟩
    apply dead
    rw [← same]
    exact (alive_mutateTeams done member).mp (bound_alive bound)
  gone owner team member _ bound gone _ :=
    absurd ((alive_mutateTeams done member).mpr (bound_alive bound)) gone
  forgets := fun _ present => absurd present List.not_mem_nil
  swept := fun _ present => absurd present List.not_mem_nil
  sound := sound_none
  subagent id subagent _ := (subagent_mutateTeams done id).mpr subagent
  members member owner team bound :=
    (subagent_mutateTeams done member).mpr
      (owed.members member owner team ((bound_mutateTeams done _ _ _).mp bound))
  leaves id subagent leads :=
    owed.leaves id ((subagent_mutateTeams done id).mp subagent) (leads_remove done leads)

theorem handover_unbound (owed : world.Owed) {own : Binding}
    (absent : ¬ world.Listed own.leaderSession own.teamId session) :
    Handover world world [.deleting (.unbinding own session)] [] others := by
  apply handover_same owed
  · exact List.forall_mem_singleton.mpr fun _ dooms => dooms.elim
  · intro task ours leader teamId member unbinds listed
    rw [List.mem_singleton.mp ours] at unbinds
    obtain ⟨rfl, rfl, rfl⟩ := unbinds
    exact absurd listed absent
  · exact List.forall_mem_singleton.mpr fun _ _ _ ends => ends.elim
  · exact List.forall_mem_singleton.mpr fun _ _ _ registers => registers.elim
  · exact fun _ present => absurd present List.not_mem_nil
  · exact fun _ present => absurd present List.not_mem_nil
  · exact sound_none

private theorem put_none_members (owed : world.Owed) {id member leader teamId : String}
    (bound : (world.put id none).Bound member leader teamId) :
    (world.put id none).Subagent member := by
  obtain ⟨apart, held⟩ := (bound_put_none id member leader teamId).mp bound
  exact (subagent_put_none id member).mpr ⟨apart, owed.members _ _ _ held⟩

theorem handover_removeMember (owed : world.Owed) {session member : String}
    {binding : Option Binding} {rest : List String}
    (sound : (Task.deleting (.removing session binding (member :: rest))).Sound world) :
    Handover world (world.put member none)
      [.deleting (.removing session binding (member :: rest))]
      [.deleting (.removing session binding rest)] others where
  issued := rfl
  alive id alive := ((alive_put_none member id).mp alive).2
  bound other leader teamId bound alive :=
    (bound_put_none _ _ _ _).mpr ⟨((alive_put_none member other).mp alive).1, bound⟩
  rebound other leader teamId bound := Or.inl ((bound_put_none _ _ _ _).mp bound).2
  listed leader teamId other listed := ((listed_put_none _ _ _ _).mp listed).2
  dooms task ours other dooms alive := by
    rw [List.mem_singleton.mp ours] at dooms
    refine ⟨_, List.mem_singleton_self _, ?_⟩
    rcases dooms with own | listed
    · exact Or.inl own
    · rcases List.mem_cons.mp listed with same | later
      · exact absurd same ((alive_put_none member other).mp alive).1
      · exact Or.inr later
  unbinds task ours leader teamId other unbinds _ := by
    rw [List.mem_singleton.mp ours] at unbinds
    refine ⟨_, List.mem_singleton_self _, ?_⟩
    cases binding with
    | none => exact unbinds
    | some own => exact unbinds
  ends task ours leader _ _ ends _ := by
    rw [List.mem_singleton.mp ours] at ends
    exact ⟨_, List.mem_singleton_self _, ends⟩
  registers := List.forall_mem_singleton.mpr fun _ _ _ registers => registers.elim
  unlisted leader teamId other listed bound := by
    rw [listed_put_none]
    by_cases same : leader = member
    · -- A member leads no team.
      subst same
      have known := (sound.2 leader List.mem_cons_self).2
      obtain ⟨metadata, team, found, held, _⟩ := listed
      have alive : world.Alive leader := by
        unfold Alive
        rw [found]
        rfl
      obtain ⟨own, isBound⟩ := known alive
      exact absurd ⟨metadata, teamId, team, found, held⟩
        (owed.leaves leader (owed.members _ _ _ isBound))
    · exact Or.inl ⟨same, listed⟩
  gone leader teamId other listed bound dead _ := by
    have same : other = member := by
      by_contra apart
      exact dead ((alive_put_none member other).mpr ⟨apart, bound_alive bound⟩)
    subst same
    obtain ⟨own, isBound⟩ := (sound.2 other List.mem_cons_self).2 (bound_alive bound)
    exact Or.inl ⟨_, List.mem_singleton_self _, (bound_unique isBound bound).1⟩
  forgets next new leader teamId other forgets _ := by
    rw [List.mem_singleton.mp new] at forgets
    exact ⟨_, List.mem_singleton_self _, forgets⟩
  swept next new leader _ _ ends _ _ := by
    rw [List.mem_singleton.mp new] at ends
    exact Or.inl ⟨_, List.mem_singleton_self _, ends⟩
  sound := by
    apply sound_one
    refine ⟨sound.1, fun other present => ?_⟩
    obtain ⟨issued, bound⟩ := sound.2 other (List.mem_cons_of_mem _ present)
    refine ⟨issued, fun alive => ?_⟩
    obtain ⟨apart, living⟩ := (alive_put_none member other).mp alive
    obtain ⟨teamId, held⟩ := bound living
    exact ⟨teamId, (bound_put_none _ _ _ _).mpr ⟨apart, held⟩⟩
  subagent id subagent alive :=
    (subagent_put_none _ _).mpr ⟨((alive_put_none member id).mp alive).1, subagent⟩
  members _ _ _ bound := put_none_members owed bound
  leaves id subagent leads :=
    owed.leaves id ((subagent_put_none _ _).mp subagent).2 (leads_put_none leads)

theorem handover_removeSelf (owed : world.Owed) {binding : Option Binding}
    (split : world.tasks = front ++ [.deleting (.removing session binding [])] ++ back)
    (sound : (Task.deleting (.removing session binding [])).Sound world) :
    Handover world (world.put session none) [.deleting (.removing session binding [])]
      (binding.map fun own => Task.deleting (.unbinding own session)).toList
      (front ++ back) where
  issued := rfl
  alive id alive := ((alive_put_none session id).mp alive).2
  bound other leader teamId bound alive :=
    (bound_put_none _ _ _ _).mpr ⟨((alive_put_none session other).mp alive).1, bound⟩
  rebound other leader teamId bound := Or.inl ((bound_put_none _ _ _ _).mp bound).2
  listed leader teamId other listed := ((listed_put_none _ _ _ _).mp listed).2
  dooms task ours other dooms alive := by
    rw [List.mem_singleton.mp ours] at dooms
    rcases dooms with own | listed
    · exact absurd own.symm ((alive_put_none session other).mp alive).1
    · exact absurd listed List.not_mem_nil
  unbinds task ours leader teamId other unbinds _ := by
    rw [List.mem_singleton.mp ours] at unbinds
    cases binding with
    | none => exact unbinds.elim
    | some own => exact ⟨_, List.mem_singleton_self _, unbinds⟩
  ends task ours leader teamId other ends listed := by
    rw [List.mem_singleton.mp ours] at ends
    exact absurd ends.symm ((listed_put_none _ _ _ _).mp listed).1
  registers := List.forall_mem_singleton.mpr fun _ _ _ registers => registers.elim
  unlisted leader teamId other listed bound := by
    rw [listed_put_none]
    by_cases same : leader = session
    · -- Whom the removed leader listed, another task removes.
      obtain ⟨apart, held⟩ := (bound_put_none _ _ _ _).mp bound
      have ending : ∃ task ∈ world.tasks, task.Ends leader := by
        refine ⟨.deleting (.removing session binding []), ?_, same.symm⟩
        rw [split]
        exact mem_swap.mpr (Or.inl (List.mem_singleton_self _))
      obtain ⟨task, present, dooms⟩ :=
        owed.swept leader teamId other ending listed (bound_alive held)
      rw [split] at present
      rcases mem_swap.mp present with ours | others
      · rw [List.mem_singleton.mp ours] at dooms
        rcases dooms with own | none
        · exact absurd own.symm apart
        · exact absurd none List.not_mem_nil
      · exact Or.inr ⟨task, List.mem_append_right _ others, dooms⟩
    · exact Or.inl ⟨same, listed⟩
  gone leader teamId other listed bound dead remembered := by
    have same : other = session := by
      by_contra apart
      exact dead ((alive_put_none session other).mpr ⟨apart, bound_alive bound⟩)
    have forgets := remembered _ (List.mem_singleton_self _)
    cases binding with
    | none => exact absurd ⟨same.symm, fun _ impossible => by cases impossible⟩ forgets
    | some own =>
        by_cases names : own.leaderSession = leader ∧ own.teamId = teamId
        · exact Or.inr ⟨_, List.mem_singleton_self _, same.symm, names⟩
        · refine absurd ⟨same.symm, fun other held => ?_⟩ forgets
          cases held
          exact names
  forgets next new _ _ _ forgets := by
    cases binding with
    | none => exact absurd new List.not_mem_nil
    | some own =>
        rw [List.mem_singleton.mp new] at forgets
        exact forgets.elim
  swept next new _ _ _ ends := by
    cases binding with
    | none => exact absurd new List.not_mem_nil
    | some own =>
        rw [List.mem_singleton.mp new] at ends
        exact ends.elim
  sound := by
    cases binding with
    | none => exact fun _ new => absurd new List.not_mem_nil
    | some own =>
        exact sound_one ⟨sound.1, fun alive => ((alive_put_none session session).mp alive).1 rfl⟩
  subagent id subagent alive :=
    (subagent_put_none _ _).mpr ⟨((alive_put_none session id).mp alive).1, subagent⟩
  members _ _ _ bound := put_none_members owed bound
  leaves id subagent leads :=
    owed.leaves id ((subagent_put_none _ _).mp subagent).2 (leads_put_none leads)

end Ftre.Team.TeamWorld
