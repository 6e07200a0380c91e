import Ftre.Compaction.SharedTask

/-!
Every interleaving of callers, cancellations, completions and callbacks keeps at most one
compaction at a time, registered until it is done, and gives each wait the outcome of its task.
-/

namespace Ftre.Compaction

open Lib

namespace SharedCompaction

/-! ### What every step keeps -/

structure Core (state : SharedCompaction) : Prop where
  registered : ∀ task, (state.tasks task).active = true → state.entry = some task
  known : ∀ task, state.created ≤ task → (state.tasks task).phase = .absent
  served : ∀ caller outcome, (state.callers caller).got = some outcome →
    ∃ task, (state.callers caller).joined = some task ∧ (state.tasks task).phase = .done outcome
  waits : ∀ caller task, (state.callers caller).phase = .waiting task →
    (state.callers caller).joined = some task

theorem core_initial : Core initial where
  registered := by
    intro task active
    cases active
  known _ _ := rfl
  served := by
    intro caller outcome got
    cases got
  waits := by
    intro caller task waiting
    cases waiting

@[simp] theorem setTask_same (state : SharedCompaction) (task : Nat) (value : CompactTask) :
    (state.setTask task value).tasks task = value := Function.update_self ..

theorem setTask_other (state : SharedCompaction) {task other : Nat} (value : CompactTask)
    (different : other ≠ task) : (state.setTask task value).tasks other = state.tasks other :=
  Function.update_of_ne different ..

@[simp] theorem setCaller_same (state : SharedCompaction) (caller : Nat) (value : CompactCaller) :
    (state.setCaller caller value).callers caller = value := Function.update_self ..

theorem setCaller_other (state : SharedCompaction) {caller other : Nat} (value : CompactCaller)
    (different : other ≠ caller) :
    (state.setCaller caller value).callers other = state.callers other :=
  Function.update_of_ne different ..

variable {state : SharedCompaction} {before after : SharedCompaction} {action : Action}

theorem Core.setCaller {state : SharedCompaction} (core : state.Core) (caller : Nat)
    {value : CompactCaller}
    (served : ∀ outcome, value.got = some outcome →
      ∃ task, value.joined = some task ∧ (state.tasks task).phase = .done outcome)
    (waits : ∀ task, value.phase = .waiting task → value.joined = some task) :
    Core (state.setCaller caller value) where
  registered := core.registered
  known := core.known
  served := by
    intro other outcome got
    by_cases same : other = caller
    · subst same
      rw [setCaller_same] at got ⊢
      exact served outcome got
    · rw [setCaller_other _ _ same] at got ⊢
      exact core.served other outcome got
  waits := by
    intro other task waiting
    by_cases same : other = caller
    · subst same
      rw [setCaller_same] at waiting ⊢
      exact waits task waiting
    · rw [setCaller_other _ _ same] at waiting ⊢
      exact core.waits other task waiting

theorem Core.move (core : state.Core) (caller : Nat) {phase : CallerPhase}
    (apart : ∀ task, phase ≠ .waiting task) :
    Core (state.setCaller caller { state.callers caller with phase := phase }) :=
  core.setCaller caller (core.served caller) fun task same => absurd same (apart task)

theorem Core.setTask (core : state.Core) (task : Nat) {value : CompactTask}
    (registered : value.active = true → state.entry = some task)
    (known : state.created ≤ task → value.phase = .absent)
    (done : ∀ outcome, (state.tasks task).phase = .done outcome → value.phase = .done outcome) :
    Core (state.setTask task value) where
  registered := by
    intro other active
    by_cases same : other = task
    · subst same
      rw [setTask_same] at active
      exact registered active
    · rw [setTask_other _ _ same] at active
      exact core.registered other active
  known := by
    intro other beyond
    by_cases same : other = task
    · subst same
      rw [setTask_same]
      exact known beyond
    · rw [setTask_other _ _ same]
      exact core.known other beyond
  served := by
    intro caller outcome got
    obtain ⟨joined, own, ended⟩ := core.served caller outcome got
    refine ⟨joined, own, ?_⟩
    by_cases same : joined = task
    · subst same
      rw [setTask_same]
      exact done outcome ended
    · rw [setTask_other _ _ same]
      exact ended
  waits := core.waits

theorem Core.retask (core : state.Core) (task : Nat) {value : CompactTask}
    (same : value.phase = (state.tasks task).phase) : Core (state.setTask task value) := by
  have active : value.active = (state.tasks task).active := by
    unfold CompactTask.active
    rw [same]
  exact core.setTask task (fun own => core.registered task (active ▸ own))
    (fun beyond => same.trans (core.known task beyond)) fun _ ended => same.trans ended

theorem Core.dropEntry (core : state.Core) {task : Nat} (idle : (state.tasks task).active = false) :
    Core (state.dropEntry task) where
  registered := by
    intro other active
    have own := core.registered other active
    have different : other ≠ task := by
      intro same
      subst same
      exact Bool.false_ne_true (idle.symm.trans active)
    change (if state.entry = some task then none else state.entry) = some other
    rw [own, if_neg fun same => different (Option.some.inj same)]
  known := core.known
  served := core.served
  waits := core.waits

theorem active_of_done {task : CompactTask} {outcome : CompactOutcome}
    (ended : task.phase = .done outcome) : task.active = false := by
  unfold CompactTask.active
  rw [ended]

theorem core_getOrCreate (core : state.Core) :
    Core state.getOrCreate.1 ∧ state.getOrCreate.1.entry = some state.getOrCreate.2 ∧
      (state.getOrCreate.1.tasks state.getOrCreate.2).active = true ∧
      state.getOrCreate.1.callers = state.callers := by
  have created : (∀ task, (state.tasks task).active = false) → Core state.create.1 := by
    intro idle
    refine ⟨?_, ?_, ?_, core.waits⟩
    · intro task active
      by_cases same : task = state.created
      · rw [same]
        rfl
      · change ((state.setTask state.created _).tasks task).active = true at active
        rw [setTask_other _ _ same, idle task] at active
        cases active
    · intro task beyond
      have different : task ≠ state.created := Nat.ne_of_gt beyond
      change ((state.setTask state.created _).tasks task).phase = .absent
      rw [setTask_other _ _ different]
      exact core.known task (Nat.le_of_lt beyond)
    · intro caller outcome got
      obtain ⟨task, own, ended⟩ := core.served caller outcome got
      have different : task ≠ state.created := by
        intro same
        rw [same, core.known _ (Nat.le_refl _)] at ended
        cases ended
      refine ⟨task, own, ?_⟩
      change ((state.setTask state.created _).tasks task).phase = _
      rw [setTask_other _ _ different]
      exact ended
  have running : (state.create.1.tasks state.create.2).active = true := by
    change ((state.setTask state.created _).tasks state.created).active = true
    rw [setTask_same]
    rfl
  unfold getOrCreate
  cases entry : state.entry with
  | none =>
      have idle : ∀ task, (state.tasks task).active = false := by
        intro task
        cases active : (state.tasks task).active with
        | false => rfl
        | true =>
            have own := core.registered task active
            rw [entry] at own
            cases own
      exact ⟨created idle, rfl, running, rfl⟩
  | some held =>
      dsimp only
      by_cases active : (state.tasks held).active = true
      · rw [if_pos active]
        exact ⟨core, entry, active, rfl⟩
      · rw [if_neg active]
        have idle : ∀ task, (state.tasks task).active = false := by
          intro task
          cases busy : (state.tasks task).active with
          | false => rfl
          | true =>
              have own := core.registered task busy
              rw [entry] at own
              cases own
              exact absurd busy active
        exact ⟨created idle, rfl, running, rfl⟩

theorem core_join (core : state.Core) (caller : Nat) (hook : Bool) :
    Core (state.join caller hook) := by
  obtain ⟨kept, _, _, _⟩ := core_getOrCreate core
  have waited : Core (state.getOrCreate.1.setTask state.getOrCreate.2
      { state.getOrCreate.1.tasks state.getOrCreate.2 with
        waiters := (state.getOrCreate.1.tasks state.getOrCreate.2).waiters ++ [caller] }) :=
    kept.retask _ rfl
  refine waited.setCaller caller ?_ ?_
  · intro outcome got
    cases got
  · intro task same
    cases same
    rfl

theorem requestStop_phase (task : CompactTask) (others : List Nat) (outcome : CompactOutcome)
    (ended : task.phase = .done outcome) : (requestStop task others).phase = .done outcome := by
  unfold requestStop
  rw [ended]
  exact ended

theorem core_beginStop (core : state.Core) (caller : Nat) (byHook : Bool) :
    Core (state.beginStop caller byHook) := by
  unfold beginStop
  cases entry : state.entry with
  | none => exact core.move caller fun task same => by cases same
  | some task =>
      dsimp only
      have stopped : Core (state.setTask task (requestStop (state.tasks task)
          (if byHook then (state.tasks task).waiters.filter fun other => other ≠ caller
            else []))) := by
        refine core.setTask task (fun _ => entry) (fun beyond => ?_)
          fun outcome ended => requestStop_phase _ _ outcome ended
        unfold requestStop
        rw [core.known task beyond]
        exact core.known task beyond
      exact stopped.move caller fun other same => by cases same

theorem core_receive (core : state.Core) {caller task : Nat} {outcome : CompactOutcome}
    (joined : (state.callers caller).joined = some task)
    (ended : (state.tasks task).phase = .done outcome) : Core (state.receive caller outcome) := by
  have served : Core (state.setCaller caller { state.callers caller with
      got := some outcome
      phase := if (state.callers caller).hook then .checking else .left }) := by
    apply core.setCaller
    · intro other same
      cases same
      exact ⟨task, joined, ended⟩
    · intro other same
      dsimp only at same
      split at same
      · cases same
      · cases same
  unfold receive
  dsimp only
  split
  · exact core_beginStop served caller true
  · exact served

theorem core_cancelCaller {state after : SharedCompaction} (core : state.Core) {caller : Nat}
    (moved : state.cancelCaller caller = some after) : Core after := by
  unfold cancelCaller at moved
  dsimp only at moved
  split at moved
  · cases moved
    exact core_beginStop core caller true
  · cases moved
    exact core_beginStop core caller true
  · rename_i task waiting
    have freed : Core (state.unwait caller task) := core.retask task rfl
    split at moved
    · cases moved
      exact core_beginStop freed caller true
    · cases moved
      exact freed.move caller fun other same => by cases same
  · cases moved
    exact core.move caller fun other same => by cases same
  · cases moved

theorem core_step (core : before.Core) (moved : before.step action = some after) : Core after := by
  cases action with
  | call caller =>
      dsimp only [step] at moved
      split at moved
      · cases moved
        exact core_join core caller false
      · cases moved
  | enterHook caller =>
      dsimp only [step] at moved
      split at moved
      · cases moved
        exact core.setCaller caller (fun outcome got => by cases got) fun task same => by cases same
      · cases moved
  | joinHook caller =>
      dsimp only [step] at moved
      split at moved
      · cases moved
        exact core_join core caller true
      · cases moved
  | finish task outcome =>
      dsimp only [step] at moved
      split at moved
      · rename_i active
        cases moved
        have known : ¬ before.created ≤ task := by
          intro beyond
          unfold CompactTask.active at active
          rw [core.known task beyond] at active
          cases active
        refine core.setTask task (fun own => by cases own) (fun beyond => absurd beyond known)
          fun other ended => ?_
        rw [active_of_done ended] at active
        cases active
      · cases moved
  | cleanup task =>
      dsimp only [step] at moved
      split at moved
      · rename_i outcome ended
        split at moved
        · cases moved
        · cases moved
          have marked : Core (before.setTask task { before.tasks task with cleaned := true }) :=
            core.retask task rfl
          refine marked.dropEntry ?_
          rw [setTask_same]
          exact active_of_done ended
      · cases moved
  | wake caller =>
      dsimp only [step] at moved
      split at moved
      · rename_i task waiting
        split at moved
        · rename_i outcome ended
          cases moved
          have freed : Core (before.unwait caller task) := core.retask task rfl
          apply core_receive freed (core.waits caller task waiting)
          unfold unwait
          rw [setTask_same]
          exact ended
        · cases moved
      · cases moved
  | leaveHook caller =>
      dsimp only [step] at moved
      split at moved
      · cases moved
        exact core.move caller fun task same => by cases same
      · cases moved
  | cancel caller => exact core_cancelCaller core moved
  | cancelCompact caller =>
      dsimp only [step] at moved
      split at moved
      · cases moved
        exact core_beginStop core caller false
      · cases moved
  | stopped caller =>
      dsimp only [step] at moved
      split at moved
      · rename_i task waiting
        split at moved
        · rename_i outcome ended
          cases moved
          have dropped : Core (before.dropEntry task) := core.dropEntry (active_of_done ended)
          exact dropped.move caller fun other same => by cases same
        · cases moved
      · cases moved

/-! ### Stopping for others -/

theorem undisturbed_setTask {task : Nat} {value : CompactTask}
    (same : value.stoppedFor = (state.tasks task).stoppedFor) :
    (state.setTask task value).Undisturbed ↔ state.Undisturbed := by
  have each : ∀ other, ((state.setTask task value).tasks other).stoppedFor =
      (state.tasks other).stoppedFor := by
    intro other
    by_cases own : other = task
    · subst own
      rw [setTask_same, same]
    · rw [setTask_other _ _ own]
  unfold Undisturbed
  constructor
  · intro undisturbed other
    rw [← each]
    exact undisturbed other
  · intro undisturbed other
    rw [each]
    exact undisturbed other

theorem undisturbed_getOrCreate (undisturbed : state.Undisturbed) :
    state.getOrCreate.1.Undisturbed := by
  have created : state.create.1.Undisturbed := by
    have clear : (state.setTask state.created { phase := .running }).Undisturbed :=
      (undisturbed_setTask (undisturbed state.created).symm).mpr undisturbed
    exact clear
  unfold getOrCreate
  split
  · split
    · exact undisturbed
    · exact created
  · exact created

theorem undisturbed_join (undisturbed : state.Undisturbed) (caller : Nat) (hook : Bool) :
    (state.join caller hook).Undisturbed := by
  have waited : (state.getOrCreate.1.setTask state.getOrCreate.2
      { state.getOrCreate.1.tasks state.getOrCreate.2 with
        waiters := (state.getOrCreate.1.tasks state.getOrCreate.2).waiters ++ [caller] }).Undisturbed :=
    (undisturbed_setTask (by rfl)).mpr (undisturbed_getOrCreate undisturbed)
  exact waited

theorem undisturbed_beginStop (undisturbed : state.Undisturbed) (caller : Nat) :
    (state.beginStop caller true).Undisturbed ↔
      ∀ task, state.entry = some task → (state.tasks task).phase = .running →
        ∀ other ∈ (state.tasks task).waiters, other = caller := by
  unfold beginStop
  cases entry : state.entry with
  | none =>
      refine iff_of_true undisturbed fun task same => ?_
      cases same
  | some task =>
      change (state.setTask task (requestStop (state.tasks task)
        ((state.tasks task).waiters.filter fun other => other ≠ caller))).Undisturbed ↔ _
      by_cases running : (state.tasks task).phase = .running
      · have stopped : requestStop (state.tasks task)
            ((state.tasks task).waiters.filter fun other => other ≠ caller) =
            { state.tasks task with
              phase := .stopping
              stoppedFor := (state.tasks task).waiters.filter fun other => other ≠ caller } := by
          unfold requestStop
          rw [running]
        rw [stopped]
        constructor
        · intro clear other same _ waiter waits
          cases same
          have own := clear task
          rw [setTask_same] at own
          have alone := List.filter_eq_nil_iff.mp own waiter waits
          exact Classical.byContradiction fun different => alone (decide_eq_true different)
        · intro alone
          apply (undisturbed_setTask _).mpr undisturbed
          rw [undisturbed task]
          apply List.filter_eq_nil_iff.mpr
          intro waiter waits kept
          exact of_decide_eq_true kept (alone task rfl running waiter waits)
      · have same : requestStop (state.tasks task)
            ((state.tasks task).waiters.filter fun other => other ≠ caller) =
            state.tasks task := by
          unfold requestStop
          split
          · rename_i phase
            exact absurd phase running
          · rfl
        rw [same]
        refine iff_of_true ((undisturbed_setTask rfl).mpr undisturbed) fun other own active => ?_
        cases own
        exact absurd active running

theorem undisturbed_command (undisturbed : state.Undisturbed) (caller : Nat) :
    (state.beginStop caller false).Undisturbed := by
  unfold beginStop
  cases entry : state.entry with
  | none => exact undisturbed
  | some task =>
      apply (undisturbed_setTask _).mpr undisturbed
      unfold requestStop
      rw [undisturbed task]
      split
      · rfl
      · exact undisturbed task

theorem alone_unwait (state : SharedCompaction) (caller waited : Nat) :
    (∀ task, (state.unwait caller waited).entry = some task →
      ((state.unwait caller waited).tasks task).phase = .running →
        ∀ other ∈ ((state.unwait caller waited).tasks task).waiters, other = caller) ↔
      ∀ task, state.entry = some task → (state.tasks task).phase = .running →
        ∀ other ∈ (state.tasks task).waiters, other = caller := by
  have phases : ∀ task, ((state.unwait caller waited).tasks task).phase =
      (state.tasks task).phase := by
    intro task
    unfold unwait
    by_cases same : task = waited
    · subst same
      rw [setTask_same]
    · rw [setTask_other _ _ same]
  have members : ∀ task other, other ≠ caller →
      (other ∈ ((state.unwait caller waited).tasks task).waiters ↔
        other ∈ (state.tasks task).waiters) := by
    intro task other different
    unfold unwait
    by_cases same : task = waited
    · subst same
      rw [setTask_same, List.mem_filter]
      exact and_iff_left (decide_eq_true different)
    · rw [setTask_other _ _ same]
  constructor
  · intro alone task entry running other waits
    refine Classical.byContradiction fun different => different ?_
    exact alone task entry ((phases task).trans running) other
      ((members task other different).mpr waits)
  · intro alone task entry running other waits
    refine Classical.byContradiction fun different => different ?_
    exact alone task entry ((phases task).symm.trans running) other
      ((members task other different).mp waits)

theorem alone_of_strikes {caller : Nat} (struck : state.strikes action = some caller) :
    state.Alone action ↔ ∀ task, state.entry = some task → (state.tasks task).phase = .running →
      ∀ other ∈ (state.tasks task).waiters, other = caller := by
  constructor
  · intro alone
    exact alone caller struck
  · intro only other same
    rw [struck] at same
    cases same
    exact only

theorem alone_of_silent (silent : state.strikes action = none) : state.Alone action := by
  intro caller struck
  rw [silent] at struck
  cases struck

theorem undisturbed_unwait (undisturbed : state.Undisturbed) (caller task : Nat) :
    (state.unwait caller task).Undisturbed :=
  (undisturbed_setTask (by rfl)).mpr undisturbed

theorem undisturbed_receive (undisturbed : state.Undisturbed) (caller : Nat)
    (outcome : CompactOutcome) :
    (state.receive caller outcome).Undisturbed ↔
      ((state.callers caller).hook && decide (outcome = .cancelled)) = true →
        ∀ task, state.entry = some task → (state.tasks task).phase = .running →
          ∀ other ∈ (state.tasks task).waiters, other = caller := by
  unfold receive
  dsimp only
  by_cases stops : ((state.callers caller).hook && decide (outcome = .cancelled)) = true
  · rw [if_pos stops]
    have served : (state.setCaller caller { state.callers caller with
        got := some outcome
        phase := if (state.callers caller).hook then .checking else .left }).Undisturbed :=
      undisturbed
    rw [undisturbed_beginStop served]
    exact ⟨fun alone _ => alone, fun alone => alone stops⟩
  · rw [if_neg stops]
    exact iff_of_true undisturbed fun stopped => absurd stopped stops

theorem undisturbed_cancel (undisturbed : before.Undisturbed) {caller : Nat}
    (moved : before.cancelCaller caller = some after) :
    after.Undisturbed ↔ before.Alone (.cancel caller) := by
  unfold cancelCaller at moved
  dsimp only at moved
  split at moved
  · rename_i phase
    cases moved
    have struck : before.strikes (.cancel caller) = some caller := by
      dsimp only [strikes]
      rw [phase]
    rw [undisturbed_beginStop undisturbed, alone_of_strikes struck]
  · rename_i phase
    cases moved
    have struck : before.strikes (.cancel caller) = some caller := by
      dsimp only [strikes]
      rw [phase]
    rw [undisturbed_beginStop undisturbed, alone_of_strikes struck]
  · rename_i task phase
    split at moved
    · rename_i hook
      cases moved
      have struck : before.strikes (.cancel caller) = some caller := by
        dsimp only [strikes]
        rw [phase]
        exact if_pos hook
      rw [undisturbed_beginStop (undisturbed_unwait undisturbed caller task), alone_unwait,
        alone_of_strikes struck]
    · rename_i direct
      cases moved
      have silent : before.strikes (.cancel caller) = none := by
        dsimp only [strikes]
        rw [phase]
        exact if_neg direct
      exact iff_of_true (undisturbed_unwait undisturbed caller task) (alone_of_silent silent)
  · rename_i task phase
    cases moved
    have silent : before.strikes (.cancel caller) = none := by
      dsimp only [strikes]
      rw [phase]
    exact iff_of_true undisturbed (alone_of_silent silent)
  · cases moved

theorem undisturbed_step (undisturbed : before.Undisturbed)
    (moved : before.step action = some after) : after.Undisturbed ↔ before.Alone action := by
  cases action with
  | call caller =>
      dsimp only [step] at moved
      split at moved
      · cases moved
        exact iff_of_true (undisturbed_join undisturbed caller false) (alone_of_silent rfl)
      · cases moved
  | enterHook caller =>
      dsimp only [step] at moved
      split at moved
      · cases moved
        exact iff_of_true undisturbed (alone_of_silent rfl)
      · cases moved
  | joinHook caller =>
      dsimp only [step] at moved
      split at moved
      · cases moved
        exact iff_of_true (undisturbed_join undisturbed caller true) (alone_of_silent rfl)
      · cases moved
  | finish task outcome =>
      dsimp only [step] at moved
      split at moved
      · cases moved
        exact iff_of_true ((undisturbed_setTask (by rfl)).mpr undisturbed) (alone_of_silent rfl)
      · cases moved
  | cleanup task =>
      dsimp only [step] at moved
      split at moved
      · split at moved
        · cases moved
        · cases moved
          have marked : (before.setTask task
              { before.tasks task with cleaned := true }).Undisturbed :=
            (undisturbed_setTask (by rfl)).mpr undisturbed
          exact iff_of_true marked (alone_of_silent rfl)
      · cases moved
  | wake caller =>
      dsimp only [step] at moved
      split at moved
      · rename_i task waiting
        split at moved
        · rename_i outcome ended
          cases moved
          rw [undisturbed_receive (undisturbed_unwait undisturbed caller task), alone_unwait]
          have reaction : before.strikes (.wake caller) =
              if ((before.callers caller).hook && decide (outcome = .cancelled)) = true then
                some caller
              else none := by
            dsimp only [strikes]
            rw [waiting]
            dsimp only
            rw [ended]
            simp only [CompactPhase.done.injEq]
          by_cases stops :
              ((before.callers caller).hook && decide (outcome = .cancelled)) = true
          · rw [if_pos stops] at reaction
            rw [alone_of_strikes reaction]
            exact ⟨fun alone => alone stops, fun alone _ => alone⟩
          · rw [if_neg stops] at reaction
            exact iff_of_true (fun stopped => absurd stopped stops) (alone_of_silent reaction)
        · cases moved
      · cases moved
  | leaveHook caller =>
      dsimp only [step] at moved
      split at moved
      · cases moved
        exact iff_of_true undisturbed (alone_of_silent rfl)
      · cases moved
  | cancel caller => exact undisturbed_cancel undisturbed moved
  | cancelCompact caller =>
      dsimp only [step] at moved
      split at moved
      · cases moved
        exact iff_of_true (undisturbed_command undisturbed caller) (alone_of_silent rfl)
      · cases moved
  | stopped caller =>
      dsimp only [step] at moved
      split at moved
      · split at moved
        · cases moved
          exact iff_of_true undisturbed (alone_of_silent rfl)
        · cases moved
      · cases moved

theorem Core.shares (core : state.Core) (undisturbed : state.Undisturbed) : Shares state where
  single := by
    intro first second left right
    have entry := core.registered first left
    rw [core.registered second right] at entry
    exact (Option.some.inj entry).symm
  registered := core.registered
  undisturbed := undisturbed
  served := core.served
  wakes := by
    intro caller task outcome waiting ended
    dsimp only [step]
    rw [waiting]
    dsimp only
    rw [ended]
    rfl

/-- In a run of callers, cancellations, completions and callbacks the sharing holds
throughout exactly when every hook is cancelled alone. -/
theorem shares_iff (actions : List Action) :
    system.Always Shares initial actions ↔ system.EachStep Alone initial actions := by
  apply StepSystem.always_iff_eachStep_of_invariant
    (fun state : SharedCompaction => state.Core ∧ state.Undisturbed)
  · intro state invariant
    exact invariant.1.shares invariant.2
  · intro before action after invariant moved alone
    exact ⟨core_step invariant.1 moved, (undisturbed_step invariant.2 moved).mpr alone⟩
  · intro before action after invariant moved shares
    exact (undisturbed_step invariant.2 moved).mp shares.undisturbed
  · exact ⟨core_initial, fun _ => rfl⟩

def cancelledTurn : List Action :=
  [.enterHook 0, .joinHook 0, .call 1, .cancel 0, .finish 0 .cancelled, .wake 1]

/-- The caller that was not cancelled gets no compaction. -/
theorem cancelled_hook_stops_other :
    (∃ state, system.run initial cancelledTurn = some state ∧
      (state.tasks 0).stoppedFor = [1] ∧
      (state.callers 1).got = some .cancelled) ∧
      ¬ system.Always Shares initial cancelledTurn := by
  constructor
  · exact ⟨_, rfl, rfl, rfl⟩
  · intro always
    have disturbed := ((((always.2 _ rfl).2 _ rfl).2 _ rfl).2 _ rfl).1.undisturbed 0
    cases disturbed

end SharedCompaction

end Ftre.Compaction
