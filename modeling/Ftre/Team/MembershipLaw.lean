import Ftre.Team.MembershipSteps

/-!
Membership over whole runs: where every step meets the condition, members and lists agree whenever
no operation is under way.
-/

namespace Ftre.Team.TeamWorld

open Lib

variable {world after : TeamWorld} {front back nexts : List Task} {task : Task}

/-! ### Sessions that are drawn -/

private theorem sound_of_old {before : TeamWorld}
    (issued : ∀ id, id ∈ before.issued → id ∈ after.issued)
    (alive : ∀ id, id ∈ before.issued → after.Alive id → before.Alive id)
    (bound : ∀ id leader teamId, before.Bound id leader teamId → after.Bound id leader teamId)
    (back : ∀ id leader teamId, after.Bound id leader teamId → before.Bound id leader teamId)
    (subagent : ∀ id, before.Subagent id → after.Subagent id)
    (sound : task.Sound before) : task.Sound after := by
  have free : ∀ member, before.Free member → after.Free member := fun member held =>
    ⟨issued _ held.issued, fun leader teamId isBound => held.unbound _ _ (back _ _ _ isBound),
      fun living => subagent _ (held.subagent (alive _ held.issued living))⟩
  cases task with
  | adding call phase =>
      cases phase with
      | reading => trivial
      | creating => trivial
      | writingProfile member => exact free member sound
      | binding member => exact free member sound
      | registering member =>
          exact ⟨issued _ sound.1, fun living =>
            bound _ _ _ (sound.2 (alive _ sound.1 living))⟩
  | disbanding leader teamId => trivial
  | dissolving members => exact fun member present => issued _ (sound member present)
  | deleting run =>
      cases run with
      | reading session => exact issued _ sound
      | removing session binding members =>
          refine ⟨issued _ sound.1, fun member present => ?_⟩
          obtain ⟨known, isBound⟩ := sound.2 member present
          refine ⟨issued _ known, fun living => ?_⟩
          obtain ⟨teamId, held⟩ := isBound (alive _ known living)
          exact ⟨teamId, bound _ _ _ held⟩
      | unbinding binding session =>
          exact ⟨issued _ sound.1, fun living => sound.2 (alive _ sound.1 living)⟩

section Open

variable {id channelId : String}

private theorem openSession_found (other : String) (apart : other ≠ id) :
    (world.openSession id channelId).sessions other = world.sessions other :=
  Function.update_of_ne apart _ _

private theorem openSession_new :
    (world.openSession id channelId).sessions id = some (.fresh channelId) :=
  Function.update_self _ _ _

private theorem alive_open (other : String) :
    (world.openSession id channelId).Alive other ↔ other = id ∨ world.Alive other := by
  unfold Alive
  by_cases same : other = id
  · rw [same, openSession_new]
    simp
  · rw [openSession_found other same]
    simp [same]

private theorem dead_of_new (owed : world.Owed) (new : id ∉ world.issued) :
    world.sessions id = none := by
  rw [← Option.not_isSome_iff_eq_none]
  exact fun alive => new (owed.alive id alive)

private theorem bound_open (owed : world.Owed) (new : id ∉ world.issued)
    (member leader teamId : String) :
    (world.openSession id channelId).Bound member leader teamId ↔
      world.Bound member leader teamId := by
  unfold Bound
  by_cases same : member = id
  · rw [same, openSession_new, dead_of_new owed new]
    simp [TeamSession.fresh]
  · rw [openSession_found member same]

private theorem listed_open (owed : world.Owed) (new : id ∉ world.issued)
    (leader teamId member : String) :
    (world.openSession id channelId).Listed leader teamId member ↔
      world.Listed leader teamId member := by
  unfold Listed
  by_cases same : leader = id
  · rw [same, openSession_new, dead_of_new owed new]
    simp [TeamSession.fresh]
  · rw [openSession_found leader same]

private theorem subagent_open (owed : world.Owed) (new : id ∉ world.issued) {other : String}
    (subagent : world.Subagent other) : (world.openSession id channelId).Subagent other := by
  obtain ⟨session, found, channel⟩ := subagent
  have apart : other ≠ id := by
    intro same
    rw [same, dead_of_new owed new] at found
    cases found
  exact ⟨session, (openSession_found other apart).trans found, channel⟩

private theorem leads_open {other : String}
    (leads : (world.openSession id channelId).Leads other) : other ≠ id ∧ world.Leads other := by
  obtain ⟨session, teamId, team, found, held⟩ := leads
  by_cases same : other = id
  · rw [same, openSession_new] at found
    cases found
    cases held
  · rw [openSession_found other same] at found
    exact ⟨same, session, teamId, team, found, held⟩

theorem owed_open (owed : world.Owed) (new : id ∉ world.issued) :
    (world.openSession id channelId).Owed where
  bound leader teamId member listed alive := by
    have old := (listed_open owed new _ _ _).mp listed
    rcases (alive_open member).mp alive with same | living
    · exact absurd (owed.listed _ _ _ old) (same ▸ new)
    · exact (bound_open owed new _ _ _).mpr (owed.bound _ _ _ old living)
  covered leader teamId member listed := by
    rcases owed.covered _ _ _ ((listed_open owed new _ _ _).mp listed) with ends | unbinds | held
    · exact Or.inl ends
    · exact Or.inr (Or.inl unbinds)
    · exact Or.inr (Or.inr ⟨(alive_open member).mpr (Or.inr held.1), held.2⟩)
  kept member leader teamId bound := by
    rcases owed.kept _ _ _ ((bound_open owed new _ _ _).mp bound) with listed | owes
    · exact Or.inl ((listed_open owed new _ _ _).mpr listed)
    · exact Or.inr owes
  swept leader teamId member ends listed alive := by
    have old := (listed_open owed new _ _ _).mp listed
    rcases (alive_open member).mp alive with same | living
    · exact absurd (owed.listed _ _ _ old) (same ▸ new)
    · exact owed.swept leader teamId member ends old living
  sound task present :=
    sound_of_old (fun _ old => List.mem_cons_of_mem _ old)
      (fun other old alive => ((alive_open other).mp alive).resolve_left
        fun same => new (same ▸ old))
      (fun _ _ _ => (bound_open owed new _ _ _).mpr) (fun _ _ _ => (bound_open owed new _ _ _).mp)
      (fun _ => subagent_open owed new) (owed.sound task present)
  newcomers := owed.newcomers
  members member leader teamId bound :=
    subagent_open owed new (owed.members _ _ _ ((bound_open owed new _ _ _).mp bound))
  leaves other subagent leads := by
    obtain ⟨apart, led⟩ := leads_open leads
    obtain ⟨session, found, channel⟩ := subagent
    rw [openSession_found other apart] at found
    exact owed.leaves other ⟨session, found, channel⟩ led
  alive other alive := by
    rcases (alive_open other).mp alive with same | living
    · exact same ▸ List.mem_cons_self
    · exact List.mem_cons_of_mem _ (owed.alive other living)
  listed leader teamId member listed :=
    List.mem_cons_of_mem _ (owed.listed _ _ _ ((listed_open owed new _ _ _).mp listed))

private theorem free_open (owed : world.Owed) (new : id ∉ world.issued) :
    (world.openSession id subagentChannel).Free id where
  issued := List.mem_cons_self
  unbound leader teamId bound := by
    have dead := bound_alive ((bound_open owed new _ _ _).mp bound)
    exact new (owed.alive id dead)
  subagent _ := ⟨_, openSession_new, rfl⟩

end Open

theorem owed_register {call : AddCall} {member : String} (owed : world.Owed)
    (issued : member ∈ world.issued)
    (bound : world.Alive member → world.Bound member call.leader call.teamId)
    (allowed : world.MayList call.leader call.teamId member)
    (done : world.mutateTeams call.leader (register call member) = some after) :
    after.Owed := by
  obtain ⟨sameIssued, sameTasks⟩ := rest_mutateTeams done
  have alive := alive_mutateTeams done
  have isBound := bound_mutateTeams done
  have subagent := subagent_mutateTeams done
  have listed := listed_register done
  constructor
  · intro leader teamId other held living
    rw [isBound]
    rw [alive] at living
    rcases (listed _ _ _).mp held with old | ⟨rfl, rfl, rfl⟩
    · exact owed.bound _ _ _ old living
    · exact bound living
  · intro leader teamId other held
    rw [sameTasks, alive]
    rcases (listed _ _ _).mp held with old | ⟨rfl, rfl, rfl⟩
    · exact owed.covered _ _ _ old
    · rcases allowed with unbinds | ⟨living, quiet⟩
      · exact Or.inr (Or.inl unbinds)
      · exact Or.inr (Or.inr ⟨living, fun task present => (quiet task present).1⟩)
  · intro other leader teamId held
    rw [sameTasks]
    rcases owed.kept _ _ _ ((isBound _ _ _).mp held) with old | owes
    · exact Or.inl ((listed _ _ _).mpr (Or.inl old))
    · exact Or.inr owes
  · intro leader teamId other ends held living
    rw [sameTasks] at ends ⊢
    rw [alive] at living
    rcases (listed _ _ _).mp held with old | ⟨rfl, rfl, rfl⟩
    · exact owed.swept leader teamId other ends old living
    · rcases allowed with ⟨task, present, unbinds⟩ | ⟨_, quiet⟩
      · refine ⟨task, present, ?_⟩
        have sound := owed.sound task present
        unfold Task.Unbinds at unbinds
        split at unbinds
        · exact Or.inl unbinds.1
        · exact absurd (unbinds.1 ▸ living) sound.2
        · exact unbinds.elim
      · obtain ⟨task, present, held⟩ := ends
        exact absurd held (quiet task present).2
  · intro task present
    rw [sameTasks] at present
    exact sound_of_old (fun _ old => sameIssued ▸ old) (fun other _ => (alive other).mp)
      (fun _ _ _ => (isBound _ _ _).mpr) (fun _ _ _ => (isBound _ _ _).mp)
      (fun other => (subagent other).mpr) (owed.sound task present)
  · rw [sameTasks]
    exact owed.newcomers
  · intro other leader teamId held
    exact (subagent other).mpr (owed.members _ _ _ ((isBound _ _ _).mp held))
  · intro other isSubagent leads
    exact owed.leaves other ((subagent other).mp isSubagent) (leads_register done leads)
  · intro other living
    rw [sameIssued]
    exact owed.alive other ((alive other).mp living)
  · intro leader teamId other held
    rw [sameIssued]
    rcases (listed _ _ _).mp held with old | ⟨_, _, rfl⟩
    · exact owed.listed _ _ _ old
    · exact issued

/-! ### Steps -/

private theorem sublist_one {before later : Task}
    (same : later.newcomer? = before.newcomer?) :
    ([later].filterMap Task.newcomer?).Sublist ([before].filterMap Task.newcomer?) := by
  rw [List.filterMap_cons, List.filterMap_cons, same]

private theorem newcomer_issued (owed : world.Owed) {member : String}
    (adds : member ∈ world.tasks.filterMap Task.newcomer?) : member ∈ world.issued := by
  obtain ⟨task, present, named⟩ := List.mem_filterMap.mp adds
  have sound := owed.sound task present
  cases task with
  | adding call phase =>
      cases phase with
      | reading => cases named
      | creating => cases named
      | writingProfile _ =>
          cases named
          exact sound.issued
      | binding _ =>
          cases named
          exact sound.issued
      | registering _ =>
          cases named
          exact sound.1
  | disbanding _ _ => cases named
  | dissolving _ => cases named
  | deleting _ => cases named

variable {drawn : String} {outcome : Outcome}

private theorem newcomers_drawn (owed : world.Owed) {call : AddCall}
    (split : world.tasks = front ++ [.adding call .creating] ++ back) (new : drawn ∉ world.issued) :
    ((front ++ [Task.adding call (.writingProfile drawn)] ++ back).filterMap
      Task.newcomer?).Nodup := by
  have distinct := owed.newcomers
  have issued : ∀ member ∈ world.tasks.filterMap Task.newcomer?, member ∈ world.issued :=
    fun member => newcomer_issued owed
  rw [split] at distinct issued
  rw [List.filterMap_append, List.filterMap_append] at distinct issued ⊢
  have middle : ([.adding call .creating] : List Task).filterMap Task.newcomer? = [] := rfl
  have drawnOnly : ([.adding call (.writingProfile drawn)] : List Task).filterMap
      Task.newcomer? = [drawn] := rfl
  rw [middle, List.append_nil] at distinct issued
  rw [drawnOnly, List.append_assoc, List.singleton_append]
  apply List.nodup_middle.mpr
  rw [List.nodup_cons]
  exact ⟨fun present => new (issued drawn present), distinct⟩

private theorem owed_add (owed : world.Owed) {call : AddCall} {phase : AddPhase}
    (split : world.tasks = front ++ [.adding call phase] ++ back)
    (advanced : world.add call outcome drawn phase = some (after, nexts))
    (mends : world.Mends outcome (.adding call phase)) :
    ({ after with tasks := front ++ nexts ++ back } : TeamWorld).Owed := by
  have sound : (Task.adding call phase).Sound world := by
    apply owed.sound
    rw [split]
    exact mem_swap.mpr (Or.inl (List.mem_singleton_self _))
  cases phase with
  | reading =>
      have idle : ∀ task ∈ [Task.adding call .reading], task.Idle := by
        intro task ours
        rw [List.mem_singleton.mp ours]
        exact idle_adding (fun _ impossible => by cases impossible)
      cases advanced
      split
      · exact owed_of_handover owed split
          (handover_idle owed idle plain_adding
            (sound_one (show (Task.adding call .creating).Sound world from trivial)))
          (sublist_one rfl)
      · exact owed_of_handover owed split (handover_idle owed idle plain_none sound_none)
          (List.nil_sublist _)
  | creating =>
      have idle : ∀ task ∈ [Task.adding call .creating], task.Idle := by
        intro task ours
        rw [List.mem_singleton.mp ours]
        exact idle_adding (fun _ impossible => by cases impossible)
      unfold add at advanced
      dsimp only at advanced
      by_cases failed : outcome = .failed
      · rw [if_pos failed] at advanced
        cases advanced
        exact owed_of_handover owed split (handover_idle owed idle plain_none sound_none)
          (List.nil_sublist _)
      · rw [if_neg failed] at advanced
        by_cases known : drawn ∈ world.issued
        · rw [if_pos known] at advanced
          cases advanced
        · rw [if_neg known] at advanced
          cases advanced
          have opened : (world.openSession drawn subagentChannel).Owed := owed_open owed known
          split
          · exact owed_handover opened split rfl
              ((handover_idle opened idle plain_adding
                (sound_one (show (Task.adding call (.writingProfile drawn)).Sound _ from
                  free_open owed known))).retask _)
              (newcomers_drawn owed split known)
          · exact owed_of_handover opened split
              (handover_idle opened idle plain_none sound_none) (List.nil_sublist _)
  | writingProfile member =>
      have idle : ∀ task ∈ [Task.adding call (.writingProfile member)], task.Idle := by
        intro task ours
        rw [List.mem_singleton.mp ours]
        exact idle_adding (fun _ impossible => by cases impossible)
      cases advanced
      split
      · exact owed_of_handover owed split
          (handover_idle owed idle plain_adding
            (sound_one (show (Task.adding call (.binding member)).Sound world from sound)))
          (sublist_one rfl)
      · exact owed_of_handover owed split
          (handover_idle owed idle plain_rollback (sound_rollback sound.issued))
          (List.nil_sublist _)
  | binding member =>
      have idle : ∀ task ∈ [Task.adding call (.binding member)], task.Idle := by
        intro task ours
        rw [List.mem_singleton.mp ours]
        exact idle_adding (fun _ impossible => by cases impossible)
      have givenUp : ({ world with tasks := front ++ rollback member ++ back } : TeamWorld).Owed :=
        owed_of_handover owed split
          (handover_idle owed idle plain_rollback (sound_rollback sound.issued))
          (List.nil_sublist _)
      unfold add at advanced
      dsimp only at advanced
      by_cases failed : outcome = .failed
      · rw [if_pos failed] at advanced
        cases advanced
        exact givenUp
      · rw [if_neg failed] at advanced
        cases done : world.bindMember call member with
        | none =>
            rw [done] at advanced
            cases advanced
            exact givenUp
        | some bound =>
            rw [done] at advanced
            cases advanced
            have sameIssued : after.issued = world.issued := by
              obtain ⟨_, _, rfl⟩ := Option.map_eq_some_iff.mp done
              rfl
            have known : member ∈ after.issued := by
              rw [sameIssued]
              exact sound.issued
            split
            · have isBound : after.Bound member call.leader call.teamId := by
                rw [bound_bindMember done, if_pos rfl]
                exact ⟨rfl, rfl⟩
              exact owed_of_handover owed split
                (handover_bind owed sound done
                  ⟨_, List.mem_singleton_self _, Or.inl ⟨rfl, rfl, rfl⟩⟩ plain_adding
                  (sound_one (show (Task.adding call (.registering member)).Sound after from
                    ⟨known, fun _ => isBound⟩)))
                (sublist_one rfl)
            · exact owed_of_handover owed split
                (handover_bind owed sound done ⟨_, List.mem_singleton_self _, Or.inr rfl⟩
                  plain_rollback (sound_rollback known))
                (List.nil_sublist _)
  | registering member =>
      have givenUp : ({ world with tasks := front ++ rollback member ++ back } : TeamWorld).Owed :=
        owed_of_handover owed split (handover_giveUp owed sound.1) (List.nil_sublist _)
      unfold add at advanced
      dsimp only at advanced
      by_cases failed : outcome = .failed
      · rw [if_pos failed] at advanced
        cases advanced
        exact givenUp
      · rw [if_neg failed] at advanced
        cases done : world.mutateTeams call.leader (register call member) with
        | none =>
            rw [done] at advanced
            cases advanced
            exact givenUp
        | some listing =>
            rw [done] at advanced
            cases advanced
            have allowed := mends failed (by rw [done]; rfl)
            obtain ⟨sameIssued, sameTasks⟩ := rest_mutateTeams done
            have registered : after.Owed := owed_register owed sound.1 sound.2 allowed done
            have splitAfter := sameTasks.trans split
            split
            · exact owed_of_handover registered splitAfter
                (handover_registered registered ((listed_register done _ _ _).mpr
                  (Or.inr ⟨rfl, rfl, rfl⟩)))
                (List.nil_sublist _)
            · exact owed_of_handover registered splitAfter
                (handover_giveUp registered (sameIssued ▸ sound.1)) (List.nil_sublist _)

private theorem owed_disband (owed : world.Owed) {leader teamId : String}
    (split : world.tasks = front ++ [.disbanding leader teamId] ++ back)
    (advanced : world.advance outcome drawn (.disbanding leader teamId) = some (after, nexts))
    (mends : world.Mends outcome (.disbanding leader teamId)) :
    ({ after with tasks := front ++ nexts ++ back } : TeamWorld).Owed := by
  have idle : ∀ task ∈ [Task.disbanding leader teamId], task.Idle := by
    intro task ours
    rw [List.mem_singleton.mp ours]
    exact idle_disbanding leader teamId
  have refused : ({ world with tasks := front ++ [] ++ back } : TeamWorld).Owed :=
    owed_of_handover owed split (handover_idle owed idle plain_none sound_none)
      (List.nil_sublist _)
  unfold advance at advanced
  dsimp only at advanced
  by_cases failed : outcome = .failed
  · rw [if_pos failed] at advanced
    cases advanced
    exact refused
  · rw [if_neg failed] at advanced
    cases done : world.mutateTeams leader (pop teamId) with
    | none =>
        rw [done] at advanced
        cases advanced
        exact refused
    | some popped =>
        cases entry : world.team? leader teamId with
        | none =>
            rw [done, entry] at advanced
            cases advanced
            exact refused
        | some team =>
            rw [done, entry] at advanced
            cases advanced
            have keys : ∀ member, world.Listed leader teamId member →
                member ∈ team.members.keys := by
              rintro member ⟨session, other, found, held, present⟩
              unfold team? at entry
              rw [found, Option.bind_some, held] at entry
              cases entry
              exact present
            by_cases complete : outcome = .done
            · rw [if_pos complete]
              refine owed_of_handover owed split (handover_pop owed done
                (fun member listed => ⟨_, List.mem_singleton_self _, keys member listed⟩) ?_
                (sound_one ?_)) (List.nil_sublist _)
              · intro next new owner ends
                rw [List.mem_singleton.mp new] at ends
                exact ends
              · intro member present
                rw [(rest_mutateTeams done).1]
                obtain ⟨session, found, held⟩ := Option.bind_eq_some_iff.mp entry
                exact owed.listed leader teamId member ⟨session, team, found, held, present⟩
            · rw [if_neg complete]
              have late : outcome = .late := by
                cases outcome with
                | done => exact absurd rfl complete
                | failed => exact absurd rfl failed
                | late => rfl
              exact owed_of_handover owed split
                (handover_pop owed done
                  (fun member listed => absurd listed (mends late member)) plain_none sound_none)
                (List.nil_sublist _)

private theorem owed_delete (owed : world.Owed) {run : DeleteRun}
    (split : world.tasks = front ++ [.deleting run] ++ back)
    (advanced : world.delete outcome run = (after, nexts))
    (mends : world.Mends outcome (.deleting run)) :
    ({ after with tasks := front ++ nexts ++ back } : TeamWorld).Owed := by
  have sound : (Task.deleting run).Sound world := by
    apply owed.sound
    rw [split]
    exact mem_swap.mpr (Or.inl (List.mem_singleton_self _))
  cases run with
  | reading session =>
      unfold delete at advanced
      dsimp only at advanced
      by_cases failed : outcome = .failed
      · rw [if_pos failed] at advanced
        cases advanced
        exact owed_unread owed split (mends failed)
      · rw [if_neg failed] at advanced
        cases advanced
        exact owed_of_handover owed split (handover_read owed sound) (List.nil_sublist _)
  | removing session binding members =>
      cases members with
      | cons member rest =>
          have fine : ¬ outcome = .failed := by
            intro failed
            cases (mends failed).1
          cases advanced
          rw [if_neg fine]
          exact owed_of_handover owed split (handover_removeMember owed sound)
            (List.nil_sublist _)
      | nil =>
          have left : (if outcome = .failed then []
              else (binding.map fun own => Task.deleting (.unbinding own session)).toList) =
                (binding.map fun own => Task.deleting (.unbinding own session)).toList := by
            by_cases failed : outcome = .failed
            · rw [(mends failed).2]
              exact ite_self _
            · exact if_neg failed
          cases advanced
          rw [left]
          refine owed_of_handover owed split (handover_removeSelf owed split sound) ?_
          cases binding with
          | none => exact List.Sublist.refl _
          | some own => exact List.Sublist.refl _
  | unbinding own session =>
      unfold delete at advanced
      dsimp only at advanced
      by_cases failed : outcome = .failed
      · rw [if_pos failed] at advanced
        cases advanced
        exact owed_of_handover owed split (handover_unbound owed (mends failed))
          (List.Sublist.refl _)
      · rw [if_neg failed] at advanced
        cases done : world.mutateTeams own.leaderSession (remove own session) with
        | some removed =>
            rw [done] at advanced
            cases advanced
            exact owed_of_handover owed split (handover_unbind owed sound.2 done)
              (List.Sublist.refl _)
        | none =>
            have absent : ¬ world.Listed own.leaderSession own.teamId session := by
              rintro ⟨metadata, team, found, held, _⟩
              unfold mutateTeams remove at done
              rw [found, Option.bind_some, held] at done
              cases done
            rw [done] at advanced
            cases advanced
            exact owed_of_handover owed split (handover_unbound owed absent)
              (List.Sublist.refl _)

theorem owed_advance (owed : world.Owed) (split : world.tasks = front ++ [task] ++ back)
    (advanced : world.advance outcome drawn task = some (after, nexts))
    (mends : world.Mends outcome task) :
    ({ after with tasks := front ++ nexts ++ back } : TeamWorld).Owed := by
  cases task with
  | adding call phase => exact owed_add owed split advanced mends
  | disbanding leader teamId => exact owed_disband owed split advanced mends
  | dissolving members =>
      have sound : (Task.dissolving members).Sound world := by
        apply owed.sound
        rw [split]
        exact mem_swap.mpr (Or.inl (List.mem_singleton_self _))
      cases members with
      | cons member rest =>
          cases advanced
          exact owed_of_handover owed split (handover_dissolve owed sound) (List.nil_sublist _)
      | nil =>
          cases advanced
          have idle : ∀ task ∈ [Task.dissolving []], task.Idle := by
            intro task ours
            rw [List.mem_singleton.mp ours]
            exact ⟨fun _ dooms => absurd dooms List.not_mem_nil, fun _ _ _ unbinds => unbinds,
              fun _ ends => ends, fun _ _ _ registers => registers⟩
          exact owed_of_handover owed split (handover_idle owed idle plain_none sound_none)
            (List.nil_sublist _)
  | deleting run => exact owed_delete owed split (Option.some.inj advanced) mends

/-! ### Runs -/

private theorem split_at {tasks : List Task} {index : Nat} (found : tasks[index]? = some task) :
    tasks = tasks.take index ++ [task] ++ tasks.drop (index + 1) := by
  obtain ⟨within, rfl⟩ := List.getElem?_eq_some_iff.mp found
  rw [List.append_assoc, List.singleton_append, ← List.drop_eq_getElem_cons within,
    List.take_append_drop]

private theorem owed_create (owed : world.Owed) {leader teamId name : String}
    (leads : world.mayLead leader = true)
    (done : world.mutateTeams leader (create teamId name) = some after) : after.Owed := by
  have listed := listed_create done
  obtain ⟨sameIssued, sameTasks⟩ := rest_mutateTeams done
  constructor
  · intro owner team member held living
    exact (bound_mutateTeams done _ _ _).mpr
      (owed.bound _ _ _ ((listed _ _ _).mp held) ((alive_mutateTeams done _).mp living))
  · intro owner team member held
    rw [sameTasks, alive_mutateTeams done]
    exact owed.covered _ _ _ ((listed _ _ _).mp held)
  · intro member owner team held
    rw [sameTasks, listed]
    exact owed.kept _ _ _ ((bound_mutateTeams done _ _ _).mp held)
  · intro owner team member ends held living
    rw [sameTasks] at ends ⊢
    exact owed.swept owner team member ends ((listed _ _ _).mp held)
      ((alive_mutateTeams done _).mp living)
  · intro task present
    rw [sameTasks] at present
    exact sound_of_old (fun _ old => sameIssued ▸ old)
      (fun other _ => (alive_mutateTeams done other).mp)
      (fun _ _ _ => (bound_mutateTeams done _ _ _).mpr)
      (fun _ _ _ => (bound_mutateTeams done _ _ _).mp)
      (fun other => (subagent_mutateTeams done other).mpr) (owed.sound task present)
  · rw [sameTasks]
    exact owed.newcomers
  · intro member owner team held
    exact (subagent_mutateTeams done _).mpr
      (owed.members _ _ _ ((bound_mutateTeams done _ _ _).mp held))
  · intro other isSubagent led
    have before := (subagent_mutateTeams done other).mp isSubagent
    obtain ⟨session, teams, found, _, rfl⟩ := mutateTeams_some done
    by_cases same : other = leader
    · obtain ⟨held, present, channel⟩ := before
      rw [same, found] at present
      cases present
      unfold mayLead at leads
      rw [found, Option.all_some, decide_eq_true_iff] at leads
      exact leads channel
    · apply owed.leaves other before
      obtain ⟨changed, otherTeam, team, present, entry⟩ := led
      unfold put at present
      dsimp only at present
      rw [Function.update_of_ne same] at present
      exact ⟨changed, otherTeam, team, present, entry⟩
  · intro other living
    rw [sameIssued]
    exact owed.alive other ((alive_mutateTeams done other).mp living)
  · intro owner team member held
    rw [sameIssued]
    exact owed.listed _ _ _ ((listed _ _ _).mp held)

private theorem owed_start (owed : world.Owed) {request : Request}
    (begun : world.begin request = some task) :
    ({ world with tasks := world.tasks ++ [task] } : TeamWorld).Owed := by
  have fresh : task.newcomer? = none ∧ (∀ leader, ¬ task.Ends leader) ∧ task.Sound world := by
    cases request with
    | addAgent call =>
        unfold begin at begun
        dsimp only at begun
        split at begun
        · cases begun
          exact ⟨rfl, fun _ ends => ends, trivial⟩
        · cases begun
    | teamDelete leader teamId =>
        unfold begin at begun
        dsimp only at begun
        split at begun
        · cases begun
          exact ⟨rfl, fun _ ends => ends, trivial⟩
        · cases begun
    | deleteSession session =>
        obtain ⟨metadata, found, rfl⟩ := Option.map_eq_some_iff.mp begun
        refine ⟨rfl, fun _ ends => ends, owed.alive session ?_⟩
        unfold Alive
        rw [found]
        rfl
  have split : world.tasks = world.tasks ++ [] ++ [] := by
    rw [List.append_nil, List.append_nil]
  have handover : Handover world world [] [task] (world.tasks ++ []) := by
    apply handover_idle owed
    · exact fun _ present => absurd present List.not_mem_nil
    · intro next new leader
      rw [List.mem_singleton.mp new]
      exact fresh.2.1 leader
    · exact sound_one fresh.2.2
  have kept := owed_of_handover owed split handover (by
    rw [List.filterMap_cons, fresh.1])
  rw [List.append_nil] at kept
  exact kept

theorem owed_step {action : TeamAction} (owed : world.Owed)
    (undisturbed : world.Undisturbed action) (stepped : system.step world action = some after) :
    after.Owed := by
  cases action with
  | openSession id channelId =>
      change (if id ∈ world.issued then none else _) = some after at stepped
      by_cases known : id ∈ world.issued
      · rw [if_pos known] at stepped
        cases stepped
      · rw [if_neg known] at stepped
        cases stepped
        exact owed_open owed known
  | teamCreate leader teamId name =>
      change (if world.mayLead leader = true then _ else none) = some after at stepped
      by_cases leads : world.mayLead leader = true
      · rw [if_pos leads] at stepped
        exact owed_create owed leads stepped
      · rw [if_neg leads] at stepped
        cases stepped
  | start request =>
      obtain ⟨task, begun, rfl⟩ := Option.map_eq_some_iff.mp stepped
      exact owed_start owed begun
  | advance index outcome drawn =>
      obtain ⟨task, found, moved⟩ := Option.bind_eq_some_iff.mp stepped
      obtain ⟨⟨next, nexts⟩, advanced, rfl⟩ := Option.map_eq_some_iff.mp moved
      exact owed_advance owed (split_at found) advanced (undisturbed task found)

/-- Where every step meets the condition, members and lists agree once nothing is under way. -/
theorem membership_consistent {start final : TeamWorld} (settled : start.Settled)
    (reached : system.Reaches Undisturbed start final) (quiet : final.tasks = []) :
    final.Consistent := by
  have owed : final.Owed := reached.invariant (owed_of_settled settled)
    fun _ _ _ owed undisturbed stepped => owed_step owed undisturbed stepped
  exact consistent_of_owed owed quiet

/-! ### Two runs -/

private def leaderAlone : TeamWorld where
  sessions :=
    Function.update (fun _ => none) "lead"
      (some ⟨"ws", KeyedTable.empty.set "sales" ⟨"Sales", .empty⟩, none⟩)
  issued := ["lead"]
  tasks := []

private theorem leaderAlone_found {id : String} {session : TeamSession}
    (found : leaderAlone.sessions id = some session) :
    id = "lead" ∧ session = ⟨"ws", KeyedTable.empty.set "sales" ⟨"Sales", .empty⟩, none⟩ := by
  unfold leaderAlone at found
  dsimp only at found
  by_cases same : id = "lead"
  · rw [same, Function.update_self] at found
    exact ⟨same, (Option.some.inj found).symm⟩
  · rw [Function.update_of_ne same] at found
    cases found

private theorem leaderAlone_settled : leaderAlone.Settled where
  quiet := rfl
  consistent :=
    { bound := by
        rintro leader teamId member ⟨session, team, found, held, present⟩
        obtain ⟨_, rfl⟩ := leaderAlone_found found
        have entry := (KeyedTable.find?_eq_some_iff _ _ _).mp held
        cases List.mem_singleton.mp entry
        exact absurd present List.not_mem_nil
      listed := by
        rintro member leader teamId ⟨session, own, found, held, _⟩
        obtain ⟨_, rfl⟩ := leaderAlone_found found
        cases held }
  members := by
    rintro member leader teamId ⟨session, own, found, held, _⟩
    obtain ⟨_, rfl⟩ := leaderAlone_found found
    cases held
  leaves := by
    rintro id ⟨session, found, channel⟩
    obtain ⟨_, rfl⟩ := leaderAlone_found found
    exact absurd channel (by decide)
  issued := by
    intro id alive
    obtain ⟨session, found⟩ := Option.isSome_iff_exists.mp alive
    obtain ⟨rfl, _⟩ := leaderAlone_found found
    exact List.mem_singleton_self _

private def addition (agentName : String) : Request := .addAgent ⟨"lead", "sales", agentName⟩

private def takes (index : Nat) (drawn : String) : TeamAction := .advance index .done drawn

/-- Two additions, each with a step of the other between two of its own. -/
private def twoAdditions : List TeamAction :=
  [.start (addition "Analyst"), .start (addition "Clerk"), takes 0 "", takes 1 "",
    takes 0 "sub_1", takes 1 "sub_2", takes 0 "", takes 1 "", takes 1 "", takes 0 "",
    takes 0 "", takes 0 ""]

private theorem mayList_of_additions {leader teamId member : String}
    (alive : world.Alive member)
    (additions : (world.tasks.all fun task => task.newcomer?.isSome) = true) :
    world.MayList leader teamId member := by
  refine Or.inr ⟨alive, fun task present => ?_⟩
  have adds := List.all_eq_true.mp additions task present
  cases task with
  | adding _ _ => exact ⟨fun forgets => forgets, fun ends => ends⟩
  | disbanding _ _ => cases adds
  | dissolving _ => cases adds
  | deleting _ => cases adds

private theorem twoAdditions_undisturbed :
    system.EachStep Undisturbed leaderAlone twoAdditions := by
  rintro _ ⟨⟩
  refine ⟨trivial, ?_⟩
  rintro _ ⟨⟩
  refine ⟨trivial, ?_⟩
  iterate 8
    rintro _ ⟨⟩
    refine ⟨by rintro _ ⟨⟩; trivial, ?_⟩
  rintro _ ⟨⟩
  refine ⟨?_, ?_⟩
  · rintro _ ⟨⟩ _ _
    exact mayList_of_additions rfl rfl
  rintro _ ⟨⟩
  refine ⟨?_, trivial⟩
  rintro _ ⟨⟩ _ _
  exact mayList_of_additions rfl rfl

/-- Two members are added at the same time. -/
theorem analyst_joins :
    ∃ final, system.run leaderAlone twoAdditions = some final ∧
      final.Alive "sub_1" ∧ final.Alive "sub_2" ∧ final.Consistent := by
  have ran : ∃ final, system.run leaderAlone twoAdditions = some final ∧
      final.Alive "sub_1" ∧ final.Alive "sub_2" ∧ final.tasks = [] := ⟨_, rfl, rfl, rfl, rfl⟩
  obtain ⟨final, ran, first, second, quiet⟩ := ran
  exact ⟨final, ran, first, second,
    membership_consistent leaderAlone_settled
      (StepSystem.reaches_of_eachStep twoAdditions_undisturbed ran) quiet⟩

/-- The member is deleted between its binding and its listing: the leader lists a session that is
gone. -/
theorem deleted_newcomer_is_listed :
    leaderAlone.Settled ∧ ∃ final, system.run leaderAlone
        [.start (addition "Analyst"), takes 0 "", takes 0 "sub_1", takes 0 "", takes 0 "",
          .start (.deleteSession "sub_1"), takes 1 "", takes 1 "", takes 1 "", takes 0 ""] =
            some final ∧
      final.tasks = [] ∧ ¬ final.Consistent := by
  refine ⟨leaderAlone_settled, _, rfl, rfl, fun consistent => ?_⟩
  obtain ⟨session, _, found, _⟩ :=
    consistent.bound "lead" "sales" "sub_1" ⟨_, _, rfl, rfl, List.mem_singleton_self _⟩
  cases found

end Ftre.Team.TeamWorld
