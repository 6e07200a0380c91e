import Ftre.Session.Checkpoints

/-!
The checkpoint coordinator of one session against the clock: the wake event that the wait for the
window listens to, the window itself and the pause after a failed checkpoint.
-/

namespace Ftre.Session

open Lib

/-- A snapshot write: the window it is in, and when the mark came that had opened it. -/
structure WindowWrite where
  window : Nat
  opened : Nat
  start : Nat
deriving DecidableEq, Repr

/-- The coordinator of a session with its wake event; times are nanoseconds. -/
structure TimedCoordinator where
  coordinator : SnapshotCoordinator
  wake : Bool
  now : Nat
  /-- When the wait of the task runs out: the window, or the pause after a failure. -/
  resume : Nat
  /-- When the session last became dirty, and how often it did. -/
  opened : Nat
  windows : Nat
  /-- A write has failed since. -/
  failed : Bool
  /-- An immediate mark or a flush was made. -/
  urged : Bool
  writes : List WindowWrite
deriving DecidableEq, Repr

/-- `_interval_s`: the configured milliseconds, at least ten. -/
def windowOf (intervalMs : Int) : Nat := (max 10 intervalMs).toNat * 1000000

def oneSecond : Nat := 1000000000

namespace TimedCoordinator

/-- A session that was never marked. -/
def unmarked (now : Nat) : TimedCoordinator := ⟨.idle, false, now, now, now, 0, false, false, []⟩

/-! ### The coordinator's calls and its task -/

def notify (state : TimedCoordinator) (coordinator : SnapshotCoordinator) : TimedCoordinator :=
  { state with
    coordinator := coordinator
    wake := true
    resume := if state.coordinator.task = .absent then state.now else state.resume }

def markDirty (state : TimedCoordinator) (immediate : Bool) : TimedCoordinator :=
  { state.notify (state.coordinator.markDirty immediate) with
    opened := if state.coordinator.dirty then state.opened else state.now
    windows := if state.coordinator.dirty then state.windows else state.windows + 1
    failed := state.coordinator.dirty && state.failed
    urged := state.urged || immediate }

/-- `flush`, up to its wait; a clean session has nothing to write. -/
def flush (state : TimedCoordinator) (call : Nat) : TimedCoordinator :=
  if state.coordinator.dirty then
    { state.notify (state.coordinator.addWaiter call) with urged := true }
  else { state with urged := true }

def beginWrite (state : TimedCoordinator) (generation : Nat) : TimedCoordinator :=
  { state with
    coordinator := state.coordinator.beginWrite generation state.writes.length
    wake := false
    writes := state.writes ++ [⟨state.windows, state.opened, state.now⟩] }

/-- One pass of the loop of `_run`. A wake event that is already set ends the
wait for the window before it begins. -/
def pass (interval : Nat) (state : TimedCoordinator) : TimedCoordinator :=
  if ¬ state.coordinator.dirty then
    { state with coordinator := { state.coordinator with task := .absent } }
  else if state.coordinator.immediate ∨ state.wake then
    state.beginWrite state.coordinator.generation
  else
    { state with
      coordinator := { state.coordinator with task := .waiting state.coordinator.generation }
      resume := state.now + interval }

def turn (interval : Nat) (state : TimedCoordinator) : Option TimedCoordinator :=
  match state.coordinator.task with
  | .ready => if state.resume ≤ state.now then some (state.pass interval) else none
  | .waiting generation =>
      if state.wake ∨ state.resume ≤ state.now then
        if state.coordinator.dirty then some (state.beginWrite generation)
        else
          some { state with
            coordinator := { state.coordinator with immediate := false, task := .absent }
            wake := false }
      else none
  | _ => none

def writeSucceeds (interval : Nat) (state : TimedCoordinator) : Option TimedCoordinator :=
  match state.coordinator.task with
  | .writing generation _ =>
      let written := { state with coordinator := state.coordinator.writeSucceeded generation }
      if written.coordinator.task = .ready then
        some ({ written with resume := state.now }.pass interval)
      else some written
  | _ => none

def writeFails (interval : Nat) (state : TimedCoordinator) : Option TimedCoordinator :=
  match state.coordinator.task with
  | .writing _ _ =>
      some { state with
        coordinator := state.coordinator.writeFailed
        failed := true
        resume := state.now + min interval oneSecond }
  | _ => none

inductive Action where
  | mark (immediate : Bool)
  | flush (call : Nat)
  | turn
  | elapse (duration : Nat)
  | writeSucceeds
  | writeFails
deriving DecidableEq, Repr

def step (interval : Nat) (state : TimedCoordinator) : Action → Option TimedCoordinator
  | .mark immediate => some (state.markDirty immediate)
  | .flush call => some (state.flush call)
  | .turn => state.turn interval
  | .elapse duration => some { state with now := state.now + duration }
  | .writeSucceeds => state.writeSucceeds interval
  | .writeFails => state.writeFails interval

def system (intervalMs : Int) : StepSystem TimedCoordinator Action := ⟨step (windowOf intervalMs)⟩

def due (interval : Nat) (state : TimedCoordinator) : Option Nat :=
  match state.coordinator.task with
  | .ready =>
      some (max state.now state.resume +
        if state.coordinator.immediate ∨ state.wake then 0 else interval)
  | .waiting _ => some (if state.wake then state.now else max state.now state.resume)
  | _ => none

section

variable {interval : Nat} {state : TimedCoordinator}

theorem due_ready (ready : state.coordinator.task = .ready) :
    state.due interval = some (max state.now state.resume +
      if state.coordinator.immediate ∨ state.wake then 0 else interval) := by
  unfold due
  rw [ready]

theorem due_waiting {generation : Nat} (waiting : state.coordinator.task = .waiting generation) :
    state.due interval =
      some (if state.wake then state.now else max state.now state.resume) := by
  unfold due
  rw [waiting]

theorem pass_wakened (dirty : state.coordinator.dirty = true)
    (hurry : state.coordinator.immediate ∨ state.wake) :
    state.pass interval = state.beginWrite state.coordinator.generation := by
  unfold pass
  rw [if_neg (by simp [dirty]), if_pos hurry]

end

/-- Until something urges the task, a write starts no earlier than one window
after the mark that made the session dirty, and no window sees two. -/
def Windowed (interval : Nat) (state : TimedCoordinator) : Prop :=
  state.urged = false →
    (∀ write ∈ state.writes, write.opened + interval ≤ write.start) ∧
      (state.writes.map WindowWrite.window).Nodup

/-- An urged task does not sit out a window. -/
def Prompt (state : TimedCoordinator) : Prop :=
  state.coordinator.immediate = true →
    ∀ generation, state.coordinator.task = .waiting generation → state.wake = true

def Urgent (interval : Nat) (state : TimedCoordinator) : Prop :=
  state.coordinator.immediate = true ∧
    match state.coordinator.task with
    | .absent => False
    | .ready => state.due interval = some (max state.now state.resume)
    | .waiting _ => state.due interval = some state.now
    | .writing _ _ => True

/-- A mark puts off no write that is due, and an immediate mark or a flush of a
dirty session spares the next write the window. -/
def Responsive (interval : Nat) (state : TimedCoordinator) : Action → Prop
  | .mark immediate =>
      (∀ time, state.due interval = some time →
        ∃ sooner, (state.markDirty immediate).due interval = some sooner ∧ sooner ≤ time) ∧
      (immediate = true → (state.markDirty immediate).Urgent interval)
  | .flush call => state.coordinator.dirty = true → (state.flush call).Urgent interval
  | _ => True

/-- The event loop is held up: a task that nothing has urged comes to its first turn only when a
whole window has gone by; and no mark comes during a write that succeeds, and no failed write is
tried again. -/
def HeldUp (interval : Nat) (state : TimedCoordinator) (action : Action) : Prop :=
  state.urged = false →
    match action with
    | .turn =>
        match state.coordinator.task with
        | .ready => state.wake = true → state.opened + interval ≤ state.now ∧ state.failed = false
        | .waiting _ => state.failed = false
        | _ => True
    | .writeSucceeds =>
        ∀ generation writer, state.coordinator.task = .writing generation writer →
          state.coordinator.generation = generation
    | _ => True

private theorem ensureTask_task {left right : SnapshotCoordinator}
    (same : left.task = right.task) : left.ensureTask.task = right.ensureTask.task := by
  unfold SnapshotCoordinator.ensureTask
  rw [same]
  split <;> simp_all

private theorem ensureTask_immediate (coordinator : SnapshotCoordinator) :
    coordinator.ensureTask.immediate = coordinator.immediate := by
  unfold SnapshotCoordinator.ensureTask
  split <;> rfl

theorem notify_due (interval : Nat) (state : TimedCoordinator) (coordinator : SnapshotCoordinator)
    (task : coordinator.task = state.coordinator.ensureTask.task) :
    (state.notify coordinator).due interval =
      match state.coordinator.task with
      | .absent => some state.now
      | .ready => some (max state.now state.resume)
      | .waiting _ => some state.now
      | .writing _ _ => none := by
  unfold SnapshotCoordinator.ensureTask at task
  cases stage : state.coordinator.task with
  | absent => simp_all [due, notify]
  | ready => simp_all [due, notify]
  | waiting generation => simp_all [due, notify]
  | writing generation writer => simp_all [due, notify]

private theorem urgent_notify (interval : Nat) (state : TimedCoordinator)
    (coordinator : SnapshotCoordinator)
    (task : coordinator.task = state.coordinator.ensureTask.task)
    (immediate : coordinator.immediate = true) :
    (state.notify coordinator).Urgent interval := by
  have due := notify_due interval state coordinator task
  unfold SnapshotCoordinator.ensureTask at task
  cases stage : state.coordinator.task with
  | absent => simp_all [Urgent, notify]
  | ready => simp_all [Urgent, notify]
  | waiting generation => simp_all [Urgent, notify]
  | writing generation writer => simp_all [Urgent, notify]

theorem responsive (interval : Nat) (state : TimedCoordinator) (action : Action) :
    state.Responsive interval action := by
  cases action with
  | mark immediate =>
      have task : (state.coordinator.markDirty immediate).task =
          state.coordinator.ensureTask.task := ensureTask_task rfl
      constructor
      · intro time before
        change ∃ sooner,
          (state.notify (state.coordinator.markDirty immediate)).due interval = some sooner ∧ _
        rw [notify_due interval state _ task]
        cases stage : state.coordinator.task with
        | absent => simp [due, stage] at before
        | ready =>
            rw [due_ready stage] at before
            have later := Option.some.inj before
            exact ⟨_, rfl, by omega⟩
        | waiting generation =>
            rw [due_waiting stage] at before
            have later := Option.some.inj before
            refine ⟨_, rfl, ?_⟩
            split at later <;> omega
        | writing generation writer => simp [due, stage] at before
      · intro immediately
        apply urgent_notify interval state _ task
        subst immediately
        exact (ensureTask_immediate _).trans (Bool.or_true _)
  | flush call =>
      intro dirty
      unfold flush
      rw [if_pos dirty]
      exact urgent_notify interval state _ (ensureTask_task rfl) (ensureTask_immediate _)
  | turn => trivial
  | elapse duration => trivial
  | writeSucceeds => trivial
  | writeFails => trivial

/-! ### Runs -/

def WindowRun (interval : Nat) (state : TimedCoordinator) : Prop :=
  match state.coordinator.task with
  | .absent => state.coordinator.dirty = false
  | .ready =>
      state.coordinator.dirty = true ∧ (state.wake = true ∨ state.opened + interval ≤ state.now)
  | _ => state.coordinator.dirty = true ∧ state.opened + interval ≤ state.now

def Written (state : TimedCoordinator) : Prop :=
  state.windows ∈ state.writes.map WindowWrite.window

structure Unurged (interval : Nat) (state : TimedCoordinator) : Prop where
  unhurried : state.coordinator.immediate = false
  onTime : ∀ write ∈ state.writes, write.opened + interval ≤ write.start
  single : (state.writes.map WindowWrite.window).Nodup
  counted : ∀ write ∈ state.writes, write.window ≤ state.windows
  run : state.WindowRun interval
  written : state.coordinator.dirty = true →
    match state.coordinator.task with
    | .writing _ _ => state.Written
    | _ => state.failed = true ↔ state.Written

structure Sound (interval : Nat) (state : TimedCoordinator) : Prop where
  unurged : state.urged = false → state.Unurged interval
  prompt : state.Prompt

section

variable {interval : Nat} {state : TimedCoordinator}

theorem unurged_beginWrite (unurged : state.Unurged interval)
    (dirty : state.coordinator.dirty = true) (ended : state.opened + interval ≤ state.now)
    (first : ¬ state.Written) (generation : Nat) :
    (state.beginWrite generation).Unurged interval where
  unhurried := rfl
  onTime := by
    intro write present
    rcases List.mem_append.mp present with old | new
    · exact unurged.onTime write old
    · cases List.mem_singleton.mp new
      exact ended
  single := by
    change ((state.writes ++ [_]).map WindowWrite.window).Nodup
    rw [List.map_append]
    exact List.Nodup.append unurged.single (List.nodup_singleton _)
      (List.disjoint_singleton.mpr first)
  counted := by
    intro write present
    rcases List.mem_append.mp present with old | new
    · exact unurged.counted write old
    · cases List.mem_singleton.mp new
      exact Nat.le_refl _
  run := ⟨dirty, ended⟩
  written := by
    intro _
    change state.windows ∈ (state.writes ++ [_]).map WindowWrite.window
    rw [List.map_append]
    exact List.mem_append_right _ List.mem_cons_self

theorem prompt_pass : (state.pass interval).Prompt := by
  intro immediate generation waiting
  unfold pass at immediate waiting ⊢
  by_cases clean : ¬ state.coordinator.dirty
  · rw [if_pos clean] at waiting
    cases waiting
  · rw [if_neg clean] at immediate waiting ⊢
    by_cases hurry : state.coordinator.immediate ∨ state.wake
    · rw [if_pos hurry] at waiting
      cases waiting
    · rw [if_neg hurry] at immediate
      exact absurd (Or.inl immediate) hurry

theorem pass_waits (dirty : state.coordinator.dirty = true)
    (calm : state.coordinator.immediate = false) (asleep : state.wake = false) :
    state.pass interval = { state with
      coordinator := { state.coordinator with task := .waiting state.coordinator.generation }
      resume := state.now + interval } := by
  unfold pass
  rw [if_neg (by simp [dirty]), if_neg (by simp [calm, asleep])]

theorem pass_urged : (state.pass interval).urged = state.urged := by
  unfold pass
  split
  · rfl
  · split <;> rfl

/-! One lemma for each action. -/

theorem sound_mark (sound : state.Sound interval) (immediate : Bool) :
    (state.markDirty immediate).Sound interval := by
  refine ⟨?_, fun _ _ _ => rfl⟩
  intro calm
  obtain ⟨before, plain⟩ := Bool.or_eq_false_iff.mp calm
  subst plain
  obtain ⟨unhurried, onTime, single, counted, run, written⟩ := sound.unurged before
  have immediate : (state.markDirty false).coordinator.immediate = false :=
    (ensureTask_immediate _).trans (by simp [unhurried])
  cases dirty : state.coordinator.dirty with
  | true =>
      refine ⟨immediate, onTime, single, ?_, ?_, ?_⟩
      · intro write present
        change write.window ≤ if state.coordinator.dirty = true then _ else _
        rw [if_pos dirty]
        exact counted write present
      · unfold WindowRun at run ⊢
        cases stage : state.coordinator.task <;>
          simp_all [markDirty, notify, SnapshotCoordinator.markDirty,
            SnapshotCoordinator.ensureTask]
      · intro _
        have earlier := written dirty
        unfold WindowRun at run
        cases stage : state.coordinator.task <;>
          simp_all [markDirty, notify, SnapshotCoordinator.markDirty,
            SnapshotCoordinator.ensureTask, Written]
  | false =>
      -- a clean session has no task, and no write is in the window that opens now
      have absent : state.coordinator.task = .absent := by
        unfold WindowRun at run
        cases stage : state.coordinator.task <;> simp_all
      have fresh : state.windows + 1 ∉ state.writes.map WindowWrite.window := by
        intro present
        obtain ⟨write, member, same⟩ := List.mem_map.mp present
        have bound := counted write member
        omega
      refine ⟨immediate, onTime, single, ?_, ?_, ?_⟩
      · intro write present
        change write.window ≤ if state.coordinator.dirty = true then _ else _
        rw [dirty]
        exact (counted write present).trans (Nat.le_succ _)
      · simp [WindowRun, markDirty, notify, SnapshotCoordinator.markDirty,
          SnapshotCoordinator.ensureTask, absent]
      · intro _
        simp [markDirty, notify, SnapshotCoordinator.markDirty, SnapshotCoordinator.ensureTask,
          absent, Written, dirty, fresh]

theorem sound_flush (sound : state.Sound interval) (call : Nat) :
    (state.flush call).Sound interval := by
  unfold flush
  split
  · exact ⟨fun calm => (Bool.noConfusion calm), fun _ _ _ => rfl⟩
  · exact ⟨fun calm => (Bool.noConfusion calm), sound.prompt⟩

theorem sound_elapse (sound : state.Sound interval) (duration : Nat) :
    ({ state with now := state.now + duration } : TimedCoordinator).Sound interval := by
  refine ⟨?_, sound.prompt⟩
  intro calm
  obtain ⟨unhurried, onTime, single, counted, run, written⟩ := sound.unurged calm
  refine ⟨unhurried, onTime, single, counted, ?_, written⟩
  unfold WindowRun at run ⊢
  dsimp only
  split at run
  · exact run
  · exact ⟨run.1, run.2.imp id fun ended => by omega⟩
  · exact ⟨run.1, by omega⟩

variable {next : TimedCoordinator}

theorem sound_turn (sound : state.Sound interval) (heldUp : state.HeldUp interval .turn)
    (stepped : state.turn interval = some next) : next.Sound interval := by
  unfold turn at stepped
  unfold HeldUp at heldUp
  cases stage : state.coordinator.task with
  | absent => simp [stage] at stepped
  | ready =>
      rw [stage] at stepped heldUp
      dsimp only at stepped heldUp
      split at stepped
      · cases stepped
        refine ⟨fun calm => ?_, prompt_pass⟩
        rw [pass_urged] at calm
        have unurged := sound.unurged calm
        have run := unurged.run
        simp only [WindowRun, stage] at run
        have written := unurged.written run.1
        rw [stage] at written
        cases woken : state.wake with
        | true =>
            obtain ⟨ended, kept⟩ := heldUp calm woken
            have first : ¬ state.Written := fun already => by
              rw [written.mpr already] at kept
              cases kept
            rw [pass_wakened run.1 (Or.inr woken)]
            exact unurged_beginWrite unurged run.1 ended first _
        | false =>
            rw [pass_waits run.1 unurged.unhurried woken]
            have ended := run.2.resolve_left (by simp [woken])
            exact ⟨unurged.unhurried, unurged.onTime, unurged.single, unurged.counted,
              ⟨run.1, ended⟩, fun _ => written⟩
      · cases stepped
  | waiting generation =>
      rw [stage] at stepped heldUp
      dsimp only at stepped heldUp
      split at stepped
      · split at stepped
        · cases stepped
          refine ⟨fun calm => ?_, fun impossible => by cases impossible⟩
          have unurged := sound.unurged calm
          have run := unurged.run
          simp only [WindowRun, stage] at run
          have written := unurged.written run.1
          rw [stage] at written
          have first : ¬ state.Written := fun already => by
            have kept := heldUp calm
            rw [written.mpr already] at kept
            cases kept
          exact unurged_beginWrite unurged run.1 run.2 first generation
        · rename_i clean
          cases stepped
          refine ⟨fun calm => ?_, fun impossible => by cases impossible⟩
          have run := (sound.unurged calm).run
          simp only [WindowRun, stage] at run
          exact absurd run.1 clean
      · cases stepped
  | writing generation writer => simp [stage] at stepped

theorem sound_writeSucceeds (sound : state.Sound interval)
    (heldUp : state.HeldUp interval .writeSucceeds)
    (stepped : state.writeSucceeds interval = some next) : next.Sound interval := by
  unfold writeSucceeds at stepped
  unfold HeldUp at heldUp
  split at stepped
  · rename_i generation writer stage
    dsimp only at stepped heldUp
    by_cases same : state.coordinator.generation = generation
    · have written : state.coordinator.writeSucceeded generation =
          { state.coordinator with
            dirty := false
            waiters := []
            task := .absent } := if_pos same
      rw [written, if_neg (by simp)] at stepped
      cases stepped
      refine ⟨fun calm => ?_, fun _ _ impossible => by cases impossible⟩
      have unurged := sound.unurged calm
      exact ⟨unurged.unhurried, unurged.onTime, unurged.single, unurged.counted, rfl, nofun⟩
    · have overtaken : state.coordinator.writeSucceeded generation =
          { state.coordinator with
            immediate := true
            task := .ready } := if_neg same
      rw [overtaken, if_pos rfl] at stepped
      cases stepped
      refine ⟨fun calm => ?_, prompt_pass⟩
      rw [pass_urged] at calm
      exact absurd (heldUp calm generation writer stage) same
  · cases stepped

theorem sound_writeFails (sound : state.Sound interval)
    (stepped : state.writeFails interval = some next) : next.Sound interval := by
  unfold writeFails at stepped
  split at stepped
  · rename_i generation writer stage
    cases stepped
    refine ⟨fun calm => ?_, fun _ _ impossible => by cases impossible⟩
    have unurged := sound.unurged calm
    have run := unurged.run
    simp only [WindowRun, stage] at run
    have written := unurged.written run.1
    rw [stage] at written
    exact ⟨unurged.unhurried, unurged.onTime, unurged.single, unurged.counted,
      ⟨run.1, Or.inr run.2⟩, fun _ => iff_of_true rfl written⟩
  · cases stepped

theorem sound_step {action : Action} (sound : state.Sound interval)
    (stepped : state.step interval action = some next) (heldUp : state.HeldUp interval action) :
    next.Sound interval := by
  cases action with
  | mark immediate =>
      cases stepped
      exact sound_mark sound immediate
  | flush call =>
      cases stepped
      exact sound_flush sound call
  | turn => exact sound_turn sound heldUp stepped
  | elapse duration =>
      cases stepped
      exact sound_elapse sound duration
  | writeSucceeds => exact sound_writeSucceeds sound heldUp stepped
  | writeFails => exact sound_writeFails sound stepped

theorem first_of_windowed {generation : Nat} (windowed : (state.beginWrite generation).Windowed interval)
    (calm : state.urged = false) :
    state.opened + interval ≤ state.now ∧ ¬ state.Written := by
  obtain ⟨onTime, single⟩ := windowed calm
  refine ⟨onTime ⟨state.windows, state.opened, state.now⟩
    (List.mem_append_right _ List.mem_cons_self), ?_⟩
  change ((state.writes ++ [_]).map WindowWrite.window).Nodup at single
  rw [List.map_append] at single
  exact List.disjoint_singleton.mp (List.disjoint_of_nodup_append single)

theorem heldUp_of_windowed {action : Action} (sound : state.Sound interval)
    (stepped : state.step interval action = some next) (windowed : next.Windowed interval) :
    state.HeldUp interval action := by
  intro calm
  have unurged := sound.unurged calm
  have run := unurged.run
  cases action with
  | turn =>
      change state.turn interval = some next at stepped
      unfold turn at stepped
      cases stage : state.coordinator.task with
      | ready =>
          intro woken
          rw [stage] at stepped
          dsimp only at stepped
          simp only [WindowRun, stage] at run
          have written := unurged.written run.1
          rw [stage] at written
          split at stepped
          · cases stepped
            rw [pass_wakened run.1 (Or.inr woken)] at windowed
            obtain ⟨ended, first⟩ := first_of_windowed windowed calm
            exact ⟨ended, Bool.eq_false_iff.mpr fun failed => first (written.mp failed)⟩
          · cases stepped
      | waiting generation =>
          rw [stage] at stepped
          dsimp only at stepped
          simp only [WindowRun, stage] at run
          have written := unurged.written run.1
          rw [stage] at written
          split at stepped
          · rw [if_pos run.1] at stepped
            cases stepped
            obtain ⟨_, first⟩ := first_of_windowed windowed calm
            exact Bool.eq_false_iff.mpr fun failed => first (written.mp failed)
          · cases stepped
      | _ => exact True.intro
  | writeSucceeds =>
      intro generation writer stage
      change state.writeSucceeds interval = some next at stepped
      unfold writeSucceeds at stepped
      rw [stage] at stepped
      dsimp only at stepped
      simp only [WindowRun, stage] at run
      have written := unurged.written run.1
      rw [stage] at written
      by_contra differs
      have overtaken : state.coordinator.writeSucceeded generation =
          { state.coordinator with
            immediate := true
            task := .ready } := if_neg differs
      rw [overtaken, if_pos rfl] at stepped
      cases stepped
      rw [pass_wakened (by exact run.1) (Or.inl rfl)] at windowed
      exact (first_of_windowed windowed calm).2 written
  | _ => exact True.intro

end

theorem sound_unmarked (interval now : Nat) : (unmarked now).Sound interval := by
  refine ⟨fun _ => ⟨rfl, nofun, List.nodup_nil, nofun, rfl, nofun⟩,
    fun impossible => by cases impossible⟩

/-- A run keeps its windows, puts no write off and answers every urging, exactly
when the event loop keeps each new task from its first turn for a whole window and no write has to
be made again. -/
theorem keeps_windows_iff (intervalMs : Int) (now : Nat) (actions : List Action) :
    ((system intervalMs).Always
        (fun state => state.Windowed (windowOf intervalMs) ∧ state.Prompt) (unmarked now) actions ∧
      (system intervalMs).EachStep (Responsive (windowOf intervalMs)) (unmarked now) actions) ↔
      (system intervalMs).EachStep (HeldUp (windowOf intervalMs)) (unmarked now) actions := by
  have windows : (system intervalMs).Always
      (fun state => state.Windowed (windowOf intervalMs) ∧ state.Prompt) (unmarked now) actions ↔
        (system intervalMs).EachStep (HeldUp (windowOf intervalMs)) (unmarked now) actions := by
    apply StepSystem.always_iff_eachStep_of_invariant (Sound (windowOf intervalMs))
    · intro state sound
      exact ⟨fun calm => ⟨(sound.unurged calm).onTime, (sound.unurged calm).single⟩, sound.prompt⟩
    · intro before action after sound stepped heldUp
      exact sound_step sound stepped heldUp
    · intro before action after sound stepped kept
      exact heldUp_of_windowed sound stepped kept.1
    · exact sound_unmarked _ now
  have answered : (system intervalMs).EachStep (Responsive (windowOf intervalMs)) (unmarked now)
      actions := StepSystem.eachStep_of_forall (responsive (windowOf intervalMs)) _ actions
  exact ⟨fun kept => windows.mp kept.1, fun heldUp => ⟨windows.mpr heldUp, answered⟩⟩

/-- One chunk marks the session, the task gets its turn in the same millisecond,
and its snapshot write starts at once. -/
theorem first_mark_writes_at_once :
    ∃ final, (system 500).run (unmarked 0) [.mark false, .elapse 1000, .turn] = some final ∧
      final.writes = [⟨1, 0, 1000⟩] ∧ ¬ final.Windowed (windowOf 500) := by
  refine ⟨_, rfl, rfl, ?_⟩
  intro windowed
  have late := (windowed rfl).1 ⟨1, 0, 1000⟩ List.mem_cons_self
  exact absurd late (by decide)

end TimedCoordinator

end Ftre.Session
