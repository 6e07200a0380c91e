import Ftre.Team.TeamChanges

/-!
A step takes a task away and puts others in its place. The sessions and the lists keep agreeing
but for what is owed if what the task owed is done or handed on.
-/

namespace Ftre.Team.TeamWorld

open Lib

variable {before after : TeamWorld} {removed nexts front back : List Task}

structure Handover (before after : TeamWorld) (removed nexts others : List Task) : Prop where
  issued : after.issued = before.issued
  alive : ∀ id, after.Alive id → before.Alive id
  bound : ∀ member leader teamId, before.Bound member leader teamId → after.Alive member →
    after.Bound member leader teamId
  rebound : ∀ member leader teamId, after.Bound member leader teamId →
    before.Bound member leader teamId ∨
      member ∈ removed.filterMap Task.newcomer? ∧
        ∃ next ∈ nexts, next.Registers leader teamId member ∨ next.Dooms member
  listed : ∀ leader teamId member, after.Listed leader teamId member →
    before.Listed leader teamId member
  dooms : ∀ task ∈ removed, ∀ member, task.Dooms member → after.Alive member →
    ∃ next ∈ nexts, next.Dooms member
  unbinds : ∀ task ∈ removed, ∀ leader teamId member, task.Unbinds leader teamId member →
    after.Listed leader teamId member → ∃ next ∈ nexts, next.Unbinds leader teamId member
  ends : ∀ task ∈ removed, ∀ leader teamId member, task.Ends leader →
    after.Listed leader teamId member → ∃ next ∈ nexts, next.Ends leader
  registers : ∀ task ∈ removed, ∀ leader teamId member, task.Registers leader teamId member →
    after.Bound member leader teamId →
      after.Listed leader teamId member ∨ ∃ next ∈ nexts, next.Dooms member
  unlisted : ∀ leader teamId member, before.Listed leader teamId member →
    after.Bound member leader teamId →
      after.Listed leader teamId member ∨ ∃ task ∈ nexts ++ others, task.Dooms member
  gone : ∀ leader teamId member, after.Listed leader teamId member →
    before.Bound member leader teamId → ¬ after.Alive member →
      (∀ task ∈ removed, ¬ task.Forgets leader teamId member) →
        (∃ next ∈ nexts, next.Ends leader) ∨ ∃ next ∈ nexts, next.Unbinds leader teamId member
  forgets : ∀ next ∈ nexts, ∀ leader teamId member, next.Forgets leader teamId member →
    after.Bound member leader teamId → ∃ task ∈ removed, task.Forgets leader teamId member
  swept : ∀ next ∈ nexts, ∀ leader teamId member, next.Ends leader →
    after.Listed leader teamId member → after.Alive member →
      (∃ task ∈ removed, task.Ends leader) ∨ ∃ next ∈ nexts, next.Dooms member
  sound : ∀ next ∈ nexts, next.Sound after
  subagent : ∀ id, before.Subagent id → after.Alive id → after.Subagent id
  members : ∀ member leader teamId, after.Bound member leader teamId → after.Subagent member
  leaves : ∀ id, after.Subagent id → ¬ after.Leads id

/-! ### Tasks in a row -/

theorem mem_swap {nexts : List Task} {task : Task} :
    task ∈ front ++ nexts ++ back ↔ task ∈ nexts ∨ task ∈ front ++ back := by
  simp only [List.mem_append]
  constructor
  · rintro ((held | held) | held)
    · exact Or.inr (Or.inl held)
    · exact Or.inl held
    · exact Or.inr (Or.inr held)
  · rintro (held | held | held)
    · exact Or.inl (Or.inr held)
    · exact Or.inl (Or.inl held)
    · exact Or.inr held

private theorem handed {property : Task → Prop}
    (found : ∃ task ∈ front ++ removed ++ back, property task)
    (moves : ∀ task ∈ removed, property task → ∃ next ∈ nexts, property next) :
    ∃ task ∈ front ++ nexts ++ back, property task := by
  obtain ⟨task, present, held⟩ := found
  rcases mem_swap.mp present with ours | other
  · obtain ⟨next, member, kept⟩ := moves task ours held
    exact ⟨next, mem_swap.mpr (Or.inl member), kept⟩
  · exact ⟨task, mem_swap.mpr (Or.inr other), held⟩

private theorem among {property : Task → Prop} (found : ∃ next ∈ nexts, property next) :
    ∃ task ∈ front ++ nexts ++ back, property task := by
  obtain ⟨next, member, held⟩ := found
  exact ⟨next, mem_swap.mpr (Or.inl member), held⟩

theorem newcomers_nodup
    (distinct : ((front ++ removed ++ back).filterMap Task.newcomer?).Nodup)
    (fewer : (nexts.filterMap Task.newcomer?).Sublist (removed.filterMap Task.newcomer?)) :
    ((front ++ nexts ++ back).filterMap Task.newcomer?).Nodup := by
  rw [List.filterMap_append, List.filterMap_append] at distinct ⊢
  exact distinct.sublist (((List.Sublist.refl _).append fewer).append (List.Sublist.refl _))

private theorem newcomer_apart
    (distinct : ((front ++ removed ++ back).filterMap Task.newcomer?).Nodup) {task : Task}
    (other : task ∈ front ++ back) {member : String}
    (adds : task.newcomer? = some member) : member ∉ removed.filterMap Task.newcomer? := by
  intro ours
  rw [List.filterMap_append, List.filterMap_append] at distinct
  have split := List.nodup_append.mp distinct
  have inner := List.nodup_append.mp split.1
  rcases List.mem_append.mp other with early | late
  · exact inner.2.2 member (List.mem_filterMap.mpr ⟨task, early, adds⟩) member ours rfl
  · exact split.2.2 member (List.mem_append.mpr (Or.inr ours)) member
      (List.mem_filterMap.mpr ⟨task, late, adds⟩) rfl

private theorem sound_kept (handover : Handover before after removed nexts (front ++ back)) {task : Task}
    (apart : ∀ member, task.newcomer? = some member →
      member ∉ removed.filterMap Task.newcomer?)
    (sound : task.Sound before) : task.Sound after := by
  have unbound : ∀ member, task.newcomer? = some member →
      (∀ leader teamId, ¬ before.Bound member leader teamId) →
        ∀ leader teamId, ¬ after.Bound member leader teamId := by
    intro member adds free leader teamId bound
    rcases handover.rebound member leader teamId bound with old | ⟨ours, _⟩
    · exact free leader teamId old
    · exact apart member adds ours
  have issued := handover.issued
  have free : ∀ member, task.newcomer? = some member → before.Free member →
      after.Free member := by
    intro member adds held
    exact ⟨issued ▸ held.issued, unbound member adds held.unbound, fun alive =>
      handover.subagent _ (held.subagent (handover.alive _ alive)) alive⟩
  cases task with
  | adding call phase =>
      cases phase with
      | reading => trivial
      | creating => trivial
      | writingProfile member => exact free member rfl sound
      | binding member => exact free member rfl sound
      | registering member =>
          exact ⟨issued ▸ sound.1, fun alive =>
            handover.bound _ _ _ (sound.2 (handover.alive _ alive)) alive⟩
  | disbanding leader teamId => trivial
  | dissolving members => exact fun member present => issued ▸ sound member present
  | deleting run =>
      cases run with
      | reading session =>
          change session ∈ after.issued
          rw [issued]
          exact sound
      | removing session binding members =>
          refine ⟨issued ▸ sound.1, fun member present => ?_⟩
          obtain ⟨known, bound⟩ := sound.2 member present
          refine ⟨issued ▸ known, fun alive => ?_⟩
          obtain ⟨teamId, held⟩ := bound (handover.alive _ alive)
          exact ⟨teamId, handover.bound _ _ _ held alive⟩
      | unbinding binding session =>
          exact ⟨issued ▸ sound.1, fun alive => sound.2 (handover.alive _ alive)⟩

/-! ### The invariant -/

theorem owed_handover (owed : before.Owed) (earlier : before.tasks = front ++ removed ++ back)
    (later : after.tasks = front ++ nexts ++ back)
    (handover : Handover before after removed nexts (front ++ back))
    (distinct : ((front ++ nexts ++ back).filterMap Task.newcomer?).Nodup) : after.Owed where
  bound leader teamId member listed alive :=
    handover.bound member leader teamId
      (owed.bound leader teamId member (handover.listed _ _ _ listed) (handover.alive _ alive))
      alive
  covered leader teamId member listed := by
    have listedBefore := handover.listed _ _ _ listed
    have cover := owed.covered leader teamId member listedBefore
    rw [earlier] at cover
    rw [later]
    rcases cover with ends | unbinds | ⟨alive, remembered⟩
    · exact Or.inl (handed ends fun task ours held =>
        handover.ends task ours leader teamId member held listed)
    · exact Or.inr (Or.inl (handed unbinds fun task ours held =>
        handover.unbinds task ours leader teamId member held listed))
    · have bound := owed.bound leader teamId member listedBefore alive
      have kept : ∀ task ∈ removed, ¬ task.Forgets leader teamId member :=
        fun task ours => remembered task (mem_swap.mpr (Or.inl ours))
      by_cases still : after.Alive member
      · refine Or.inr (Or.inr ⟨still, fun task present forgets => ?_⟩)
        rcases mem_swap.mp present with new | other
        · obtain ⟨old, ours, held⟩ := handover.forgets task new leader teamId member forgets
            (handover.bound _ _ _ bound still)
          exact kept old ours held
        · exact remembered task (mem_swap.mpr (Or.inr other)) forgets
      · rcases handover.gone leader teamId member listed bound still kept with ends | unbinds
        · exact Or.inl (among ends)
        · exact Or.inr (Or.inl (among unbinds))
  kept member leader teamId bound := by
    rw [later]
    rcases handover.rebound member leader teamId bound with old | ⟨_, next, new, owes⟩
    · have keep := owed.kept member leader teamId old
      rw [earlier] at keep
      rcases keep with listed | ⟨task, present, held⟩ | dooms
      · rcases handover.unlisted leader teamId member listed bound with still | dooms
        · exact Or.inl still
        · obtain ⟨task, present, held⟩ := dooms
          exact Or.inr (Or.inr ⟨task, mem_swap.mpr (List.mem_append.mp present), held⟩)
      · rcases mem_swap.mp present with ours | other
        · rcases handover.registers task ours leader teamId member held bound with still | dooms
          · exact Or.inl still
          · exact Or.inr (Or.inr (among dooms))
        · exact Or.inr (Or.inl ⟨task, mem_swap.mpr (Or.inr other), held⟩)
      · exact Or.inr (Or.inr (handed dooms fun task ours held =>
          handover.dooms task ours member held (bound_alive bound)))
    · rcases owes with registers | dooms
      · exact Or.inr (Or.inl (among ⟨next, new, registers⟩))
      · exact Or.inr (Or.inr (among ⟨next, new, dooms⟩))
  swept leader teamId member ends listed alive := by
    have sweep := owed.swept leader teamId member
    rw [later] at ends ⊢
    rw [earlier] at sweep
    have again : (∃ task ∈ front ++ removed ++ back, task.Ends leader) →
        ∃ task ∈ front ++ nexts ++ back, task.Dooms member := fun old =>
      handed (sweep old (handover.listed _ _ _ listed) (handover.alive _ alive))
        fun task ours held => handover.dooms task ours member held alive
    obtain ⟨task, present, held⟩ := ends
    rcases mem_swap.mp present with new | other
    · rcases handover.swept task new leader teamId member held listed alive with old | dooms
      · exact again (among old)
      · exact among dooms
    · exact again ⟨task, mem_swap.mpr (Or.inr other), held⟩
  sound task present := by
    rw [later] at present
    rcases mem_swap.mp present with new | other
    · exact handover.sound task new
    · have distinctBefore := owed.newcomers
      have soundBefore := owed.sound task
      rw [earlier] at distinctBefore soundBefore
      exact sound_kept handover (fun member adds => newcomer_apart distinctBefore other adds)
        (soundBefore (mem_swap.mpr (Or.inr other)))
  newcomers := by
    rw [later]
    exact distinct
  members := handover.members
  leaves := handover.leaves
  alive id alive := by
    rw [handover.issued]
    exact owed.alive id (handover.alive id alive)
  listed leader teamId member listed := by
    rw [handover.issued]
    exact owed.listed leader teamId member (handover.listed _ _ _ listed)

end Ftre.Team.TeamWorld
