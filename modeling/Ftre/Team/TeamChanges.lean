import Ftre.Team.Obligations

/-!
What each change of the sessions does to who exists, who is bound and who is listed.
-/

namespace Ftre.Team.TeamWorld

open Lib

variable {world after : TeamWorld}

theorem bound_alive {member leader teamId : String} (bound : world.Bound member leader teamId) :
    world.Alive member := by
  obtain ⟨session, _, found, _⟩ := bound
  unfold Alive
  rw [found]
  rfl

theorem bound_unique {member leader teamId otherLeader otherTeam : String}
    (bound : world.Bound member leader teamId)
    (other : world.Bound member otherLeader otherTeam) :
    leader = otherLeader ∧ teamId = otherTeam := by
  obtain ⟨session, own, found, held, rfl, rfl⟩ := bound
  obtain ⟨session', own', found', held', rfl, rfl⟩ := other
  cases found.symm.trans found'
  cases held.symm.trans held'
  exact ⟨rfl, rfl⟩

theorem alive_put_none (id other : String) :
    (world.put id none).Alive other ↔ other ≠ id ∧ world.Alive other := by
  unfold Alive put
  by_cases same : other = id
  · rw [same]
    simp
  · simp [same]

theorem bound_put_none (id member leader teamId : String) :
    (world.put id none).Bound member leader teamId ↔
      member ≠ id ∧ world.Bound member leader teamId := by
  unfold Bound put
  by_cases same : member = id
  · rw [same]
    simp
  · simp [same]

theorem listed_put_none (id leader teamId member : String) :
    (world.put id none).Listed leader teamId member ↔
      leader ≠ id ∧ world.Listed leader teamId member := by
  unfold Listed put
  by_cases same : leader = id
  · rw [same]
    simp
  · simp [same]

theorem subagent_put_none (id other : String) :
    (world.put id none).Subagent other ↔ other ≠ id ∧ world.Subagent other := by
  unfold Subagent put
  by_cases same : other = id
  · rw [same]
    simp
  · simp [same]

theorem leads_put_none {id other : String} (leads : (world.put id none).Leads other) :
    world.Leads other := by
  unfold Leads put at leads
  by_cases same : other = id
  · rw [same] at leads
    simp at leads
  · simpa [same, Leads] using leads

/-! ### A session is replaced -/

variable {id : String} {session replaced : TeamSession}

theorem alive_put (found : world.sessions id = some session) (other : String) :
    (world.put id (some replaced)).Alive other ↔ world.Alive other := by
  unfold Alive put
  by_cases same : other = id
  · rw [same, found]
    simp
  · simp [Function.update_of_ne same]

theorem bound_put_teams (found : world.sessions id = some session)
    (teams : KeyedTable String TeamEntry) (member leader teamId : String) :
    (world.put id (some { session with teams := teams })).Bound member leader teamId ↔
      world.Bound member leader teamId := by
  unfold Bound put
  by_cases same : member = id
  · rw [same, found]
    simp
  · simp [Function.update_of_ne same]

theorem listed_put_teams (_found : world.sessions id = some session)
    (teams : KeyedTable String TeamEntry) (leader teamId member : String) :
    (world.put id (some { session with teams := teams })).Listed leader teamId member ↔
      if leader = id then ∃ team, teams.find? teamId = some team ∧ member ∈ team.members.keys
      else world.Listed leader teamId member := by
  unfold Listed put
  by_cases same : leader = id
  · rw [same, if_pos rfl]
    simp
  · rw [if_neg same]
    simp [Function.update_of_ne same]

theorem listed_self (found : world.sessions id = some session) (teamId member : String) :
    world.Listed id teamId member ↔
      ∃ team, session.teams.find? teamId = some team ∧ member ∈ team.members.keys := by
  unfold Listed
  rw [found]
  simp

variable {leader : String}
  {updater : KeyedTable String TeamEntry → Option (KeyedTable String TeamEntry)} {other : String}
  {call : AddCall} {newcomer : String}

theorem mutateTeams_some (mutated : world.mutateTeams leader updater = some after) :
    ∃ session teams, world.sessions leader = some session ∧
      updater session.teams = some teams ∧
        after = world.put leader (some { session with teams := teams }) := by
  obtain ⟨session, found, updated⟩ := Option.bind_eq_some_iff.mp mutated
  obtain ⟨teams, held, same⟩ := Option.map_eq_some_iff.mp updated
  exact ⟨session, teams, found, held, same.symm⟩

theorem alive_mutateTeams {leader : String}
    {updater : KeyedTable String TeamEntry → Option (KeyedTable String TeamEntry)}
    (mutated : world.mutateTeams leader updater = some after) (other : String) :
    after.Alive other ↔ world.Alive other := by
  obtain ⟨session, teams, found, _, rfl⟩ := mutateTeams_some mutated
  exact alive_put found other

theorem bound_mutateTeams (mutated : world.mutateTeams leader updater = some after)
    (member owner teamId : String) :
    after.Bound member owner teamId ↔ world.Bound member owner teamId := by
  obtain ⟨session, teams, found, _, rfl⟩ := mutateTeams_some mutated
  exact bound_put_teams found teams member owner teamId

theorem subagent_mutateTeams (mutated : world.mutateTeams leader updater = some after)
    (other : String) : after.Subagent other ↔ world.Subagent other := by
  obtain ⟨session, teams, found, _, rfl⟩ := mutateTeams_some mutated
  unfold Subagent put
  by_cases same : other = leader
  · rw [same, found]
    simp
  · simp [same]

theorem leads_mutateTeams {leader : String}
    {updater : KeyedTable String TeamEntry → Option (KeyedTable String TeamEntry)}
    (mutated : world.mutateTeams leader updater = some after)
    (held : ∀ teams updated, updater teams = some updated →
      (∃ teamId team, updated.find? teamId = some team) →
        ∃ teamId team, teams.find? teamId = some team)
    {other : String} (leads : after.Leads other) : world.Leads other := by
  obtain ⟨session, teams, found, done, rfl⟩ := mutateTeams_some mutated
  obtain ⟨changed, teamId, team, present, entry⟩ := leads
  unfold put at present
  dsimp only at present
  by_cases same : other = leader
  · rw [same] at present ⊢
    rw [Function.update_self] at present
    cases present
    obtain ⟨oldId, old, oldEntry⟩ := held _ _ done ⟨teamId, team, entry⟩
    exact ⟨session, oldId, old, found, oldEntry⟩
  · rw [Function.update_of_ne same] at present
    exact ⟨changed, teamId, team, present, entry⟩

theorem leads_register
    (mutated : world.mutateTeams call.leader (register call newcomer) = some after)
    (leads : after.Leads other) : world.Leads other := by
  apply leads_mutateTeams mutated _ leads
  intro teams updated done _
  obtain ⟨team, found, _⟩ := Option.map_eq_some_iff.mp done
  exact ⟨_, team, found⟩

theorem leads_pop {leader teamId : String}
    (mutated : world.mutateTeams leader (pop teamId) = some after) (leads : after.Leads other) :
    world.Leads other := by
  apply leads_mutateTeams mutated _ leads
  intro teams updated done _
  unfold pop at done
  split at done
  · rename_i present
    obtain ⟨team, found⟩ := Option.isSome_iff_exists.mp present
    exact ⟨_, team, found⟩
  · cases done

theorem leads_remove {own : Binding} {gone : String}
    (mutated : world.mutateTeams own.leaderSession (remove own gone) = some after)
    (leads : after.Leads other) : world.Leads other := by
  apply leads_mutateTeams mutated _ leads
  intro teams updated done entry
  unfold remove at done
  split at done
  · rename_i team found
    exact ⟨_, team, found⟩
  · cases done
    exact entry

theorem rest_mutateTeams (mutated : world.mutateTeams leader updater = some after) :
    after.issued = world.issued ∧ after.tasks = world.tasks := by
  obtain ⟨session, teams, found, _, rfl⟩ := mutateTeams_some mutated
  exact ⟨rfl, rfl⟩

/-! ### Teams -/

private theorem mem_keys_set {table : KeyedTable String String} (key value other : String) :
    other ∈ (table.set key value).keys ↔ other ∈ table.keys ∨ other = key := by
  rw [KeyedTable.keys_set]
  split
  · rename_i present
    constructor
    · exact Or.inl
    · rintro (held | rfl)
      · exact held
      · exact present
  · rw [List.mem_append, List.mem_singleton]

private theorem mem_keys_erase {table : KeyedTable String String} (key other : String) :
    other ∈ (table.erase key).keys ↔ other ∈ table.keys ∧ other ≠ key := by
  rw [KeyedTable.mem_keys_iff, KeyedTable.mem_keys_iff]
  by_cases same : other = key
  · rw [same, KeyedTable.find?_erase_self]
    simp
  · rw [KeyedTable.find?_erase_ne _ same]
    simp [same]

theorem listed_create {leader teamId name : String}
    (mutated : world.mutateTeams leader (create teamId name) = some after)
    (owner team member : String) :
    after.Listed owner team member ↔ world.Listed owner team member := by
  obtain ⟨session, teams, found, created, rfl⟩ := mutateTeams_some mutated
  rw [listed_put_teams found]
  split
  · rename_i same
    rw [same, listed_self found]
    unfold create at created
    split at created
    · cases created
    · rename_i fresh
      cases created
      rw [KeyedTable.find?_set]
      by_cases own : teamId = team
      · rw [if_pos own]
        have absent : session.teams.find? team = none := by
          rw [← own]
          simpa [KeyedTable.contains] using fresh
        rw [absent]
        simp [KeyedTable.keys, KeyedTable.empty]
      · rw [if_neg own]
  · exact Iff.rfl

theorem listed_register
    (mutated : world.mutateTeams call.leader (register call newcomer) = some after)
    (owner team member : String) :
    after.Listed owner team member ↔ world.Listed owner team member ∨
      owner = call.leader ∧ team = call.teamId ∧ member = newcomer := by
  obtain ⟨session, teams, found, registered, rfl⟩ := mutateTeams_some mutated
  obtain ⟨entry, held, rfl⟩ := Option.map_eq_some_iff.mp registered
  rw [listed_put_teams found]
  split
  · rename_i same
    rw [same, listed_self found, KeyedTable.find?_set]
    by_cases own : call.teamId = team
    · rw [if_pos own, ← own, held]
      simp [mem_keys_set]
    · rw [if_neg own]
      have other : ¬ team = call.teamId := fun equal => own equal.symm
      simp [other]
  · rename_i other
    simp [other]

theorem listed_pop {leader teamId : String}
    (mutated : world.mutateTeams leader (pop teamId) = some after)
    (owner team member : String) :
    after.Listed owner team member ↔ world.Listed owner team member ∧
      ¬ (owner = leader ∧ team = teamId) := by
  obtain ⟨session, teams, found, popped, rfl⟩ := mutateTeams_some mutated
  unfold pop at popped
  split at popped
  · cases popped
    rw [listed_put_teams found]
    split
    · rename_i same
      rw [same, listed_self found]
      by_cases own : team = teamId
      · rw [own, KeyedTable.find?_erase_self]
        simp
      · rw [KeyedTable.find?_erase_ne _ own]
        simp [own]
    · rename_i other
      simp [other]
  · cases popped

theorem listed_remove {own : Binding} {gone : String}
    (mutated : world.mutateTeams own.leaderSession (remove own gone) = some after)
    (owner team member : String) :
    after.Listed owner team member ↔ world.Listed owner team member ∧
      ¬ (owner = own.leaderSession ∧ team = own.teamId ∧ member = gone) := by
  obtain ⟨session, teams, found, removed, rfl⟩ := mutateTeams_some mutated
  rw [listed_put_teams found]
  unfold remove at removed
  split
  · rename_i same
    rw [same, listed_self found]
    cases held : session.teams.find? own.teamId with
    | none =>
        rw [held] at removed
        cases removed
        by_cases ours : team = own.teamId
        · rw [ours, held]
          simp
        · simp [ours]
    | some entry =>
        rw [held] at removed
        cases removed
        rw [KeyedTable.find?_set]
        by_cases ours : own.teamId = team
        · rw [if_pos ours, ← ours, held]
          simp [mem_keys_erase]
        · rw [if_neg ours]
          have other : ¬ team = own.teamId := fun equal => ours equal.symm
          simp [other]
  · rename_i other
    simp [other]

theorem mem_memberIds (session : TeamSession) (member : String) :
    member ∈ session.memberIds ↔
      ∃ teamId team, session.teams.find? teamId = some team ∧ member ∈ team.members.keys := by
  unfold TeamSession.memberIds KeyedTable.values
  rw [List.mem_flatMap]
  constructor
  · rintro ⟨team, present, held⟩
    obtain ⟨⟨teamId, _⟩, entry, rfl⟩ := List.mem_map.mp present
    exact ⟨teamId, _, (KeyedTable.find?_eq_some_iff _ _ _).mpr entry, held⟩
  · rintro ⟨teamId, team, found, held⟩
    exact ⟨team, List.mem_map_of_mem ((KeyedTable.find?_eq_some_iff _ _ _).mp found), held⟩

theorem bound_bindMember (done : world.bindMember call newcomer = some after)
    (member leader teamId : String) :
    after.Bound member leader teamId ↔
      if member = newcomer then call.leader = leader ∧ call.teamId = teamId
      else world.Bound member leader teamId := by
  obtain ⟨session, found, rfl⟩ := Option.map_eq_some_iff.mp done
  unfold Bound put
  by_cases same : member = newcomer
  · rw [same, if_pos rfl]
    simp [AddCall.memberBinding]
  · rw [if_neg same]
    simp [Function.update_of_ne same]

theorem subagent_bindMember (done : world.bindMember call newcomer = some after) (other : String) :
    after.Subagent other ↔ world.Subagent other := by
  obtain ⟨session, found, rfl⟩ := Option.map_eq_some_iff.mp done
  unfold Subagent put
  by_cases same : other = newcomer
  · rw [same, found]
    simp
  · simp [same]

theorem leads_bindMember (done : world.bindMember call newcomer = some after) (other : String) :
    after.Leads other ↔ world.Leads other := by
  obtain ⟨session, found, rfl⟩ := Option.map_eq_some_iff.mp done
  unfold Leads put
  by_cases same : other = newcomer
  · rw [same, found]
    simp
  · simp [same]

theorem alive_bindMember (done : world.bindMember call newcomer = some after) (other : String) :
    after.Alive other ↔ world.Alive other := by
  obtain ⟨session, found, rfl⟩ := Option.map_eq_some_iff.mp done
  exact alive_put found other

theorem listed_bindMember (done : world.bindMember call newcomer = some after)
    (leader teamId member : String) :
    after.Listed leader teamId member ↔ world.Listed leader teamId member := by
  obtain ⟨session, found, rfl⟩ := Option.map_eq_some_iff.mp done
  unfold Listed put
  by_cases same : leader = newcomer
  · rw [same, found]
    simp
  · simp [Function.update_of_ne same]

end Ftre.Team.TeamWorld
