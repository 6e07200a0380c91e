import Mathlib.Tactic.ByContra
import Ftre.Hooks.HookCalls

/-!
The drain barrier of a hook listener.
-/

namespace Ftre.Hooks

open Lib

namespace Registration

def Unfinished (registration : Registration) (index : Nat) : Prop :=
  ∃ call, registration.calls[index]? = some call ∧ call.phase ≠ .finished

def isOpen (call : ListenerCall) : Bool := decide (call.phase ≠ .finished)

def inFlight (registration : Registration) : Nat := registration.calls.countP isOpen

/-- The count is the number of calls in flight, `drained` is set exactly without any, and the
awaitable of a disposal is through exactly when the calls from before it have finished. -/
structure DrainBarrier (registration : Registration) : Prop where
  counted : registration.activeCalls = registration.inFlight
  drained : registration.drained = true ↔ registration.inFlight = 0
  waits : ∀ disposal, registration.disposal = some disposal → disposal.phase = .waiting →
    ∃ index < disposal.started, registration.Unfinished index
  completes : ∀ disposal, registration.disposal = some disposal → disposal.phase = .complete →
    ∀ index < disposal.started, ¬ registration.Unfinished index
  nextOnce : ∀ call ∈ registration.calls, call.chainRuns ≤ 1

structure Sound (registration : Registration) : Prop where
  barrier : registration.DrainBarrier
  known : ∀ disposal, registration.disposal = some disposal →
    disposal.started ≤ registration.calls.length
  ran : ∀ call ∈ registration.calls, call.chainRuns = if call.nextCalled then 1 else 0

def LastLeaves (registration : Registration) (index : Nat) : Prop :=
  ∀ disposal, registration.disposal = some disposal → disposal.phase = .waiting →
    (∀ other < disposal.started, registration.Unfinished other → other = index) →
      ∀ other, registration.Unfinished other → other = index

def WaitsForOwn (registration : Registration) : Prop :=
  ∀ disposal, registration.disposal = some disposal →
    disposal.phase = .disposing ∨ disposal.asynchronous = false →
      (∃ index, registration.Unfinished index) →
        ∃ index < disposal.started, registration.Unfinished index

/-- No call is turned away by the guard, cancelled inside the listener or closed before its
awaitable is begun, and none that started behind a disposal outlasts the ones before it. -/
def Clean (registration : Registration) : HookAction → Prop
  | .invoke accepted => registration.mode = .waterfall → accepted = true
  | .settle index outcome =>
      match outcome with
      | .returned => registration.LastLeaves index
      | .raised => registration.LastLeaves index
      | .cancelled => False
      | .awaitable => True
  | .drop _ => False
  | .finish index => registration.LastLeaves index
  | .proceed => registration.WaitsForOwn
  | _ => True

/-! ### Calls in flight -/

variable {registration : Registration}

theorem inFlight_eq_zero :
    registration.inFlight = 0 ↔ ∀ index, ¬ registration.Unfinished index := by
  unfold inFlight Unfinished
  rw [List.countP_eq_zero]
  constructor
  · intro all index ⟨call, found, unfinished⟩
    exact all call (List.mem_of_getElem? found) (decide_eq_true unfinished)
  · intro none call member unfinished
    obtain ⟨index, found⟩ := List.getElem?_of_mem member
    exact none index ⟨call, found, of_decide_eq_true unfinished⟩

theorem inFlight_add (phase : CallPhase) : (registration.add phase).inFlight =
    registration.inFlight + if phase = .finished then 0 else 1 := by
  unfold inFlight add
  dsimp only
  rw [List.countP_append, List.countP_singleton]
  unfold isOpen
  cases phase <;> rfl

variable {index : Nat} {call new : ListenerCall} {disposal : Disposal} {before after : Registration}

theorem unfinished_add {phase : CallPhase} {index : Nat}
    (unfinished : (registration.add phase).Unfinished index) :
    registration.Unfinished index ∨ index = registration.calls.length := by
  obtain ⟨call, found, isOpen⟩ := unfinished
  unfold add at found
  dsimp only at found
  by_cases within : index < registration.calls.length
  · rw [List.getElem?_append_left within] at found
    exact Or.inl ⟨call, found, isOpen⟩
  · refine Or.inr (Nat.le_antisymm ?_ (Nat.le_of_not_lt within))
    have bounded := (List.getElem?_eq_some_iff.mp found).1
    rw [List.length_append, List.length_singleton] at bounded
    exact Nat.lt_succ_iff.mp bounded

theorem unfinished_add_of {phase : CallPhase} (unfinished : registration.Unfinished index) :
    (registration.add phase).Unfinished index := by
  obtain ⟨call, found, isOpen⟩ := unfinished
  refine ⟨call, ?_, isOpen⟩
  unfold add
  dsimp only
  rw [List.getElem?_append_left (List.getElem?_eq_some_iff.mp found).1]
  exact found

theorem unfinished_setCall {old new : ListenerCall} (found : registration.calls[index]? = some old)
    (other : Nat) :
    (registration.setCall index new).Unfinished other ↔
      if other = index then new.phase ≠ .finished else registration.Unfinished other := by
  have bounded := (List.getElem?_eq_some_iff.mp found).1
  unfold Unfinished setCall
  dsimp only
  by_cases same : other = index
  · rw [if_pos same, same, List.getElem?_set_self bounded]
    exact ⟨fun ⟨call, is, isOpen⟩ => Option.some.inj is ▸ isOpen, fun isOpen => ⟨new, rfl, isOpen⟩⟩
  · rw [if_neg same, List.getElem?_set_ne (Ne.symm same)]

theorem inFlight_setCall {old : ListenerCall} (found : registration.calls[index]? = some old)
    (isOpen : old.phase ≠ .finished) (new : ListenerCall) :
    (registration.setCall index new).inFlight + 1 =
      registration.inFlight + if new.phase = .finished then 0 else 1 := by
  obtain ⟨bounded, same⟩ := List.getElem?_eq_some_iff.mp found
  have counts : Registration.isOpen registration.calls[index] = true := by
    rw [same]
    exact decide_eq_true isOpen
  have positive : 0 < registration.calls.countP Registration.isOpen :=
    List.countP_pos_iff.mpr ⟨registration.calls[index], List.getElem_mem bounded, counts⟩
  unfold inFlight setCall
  dsimp only
  rw [List.countP_set bounded, if_pos counts]
  by_cases ended : new.phase = .finished
  · have closed : Registration.isOpen new = false := by simp [Registration.isOpen, ended]
    rw [closed, if_pos ended, if_neg Bool.false_ne_true]
    omega
  · have opened : Registration.isOpen new = true := by simp [Registration.isOpen, ended]
    rw [opened, if_neg ended, if_pos rfl]
    omega

theorem inFlight_setCall_same {old new : ListenerCall}
    (found : registration.calls[index]? = some old)
    (same : new.phase = .finished ↔ old.phase = .finished) :
    (registration.setCall index new).inFlight = registration.inFlight := by
  by_cases ended : old.phase = .finished
  · obtain ⟨bounded, is⟩ := List.getElem?_eq_some_iff.mp found
    have closed : ∀ {call : ListenerCall}, call.phase = .finished →
        Registration.isOpen call = false := by
      intro call ended
      simp [Registration.isOpen, ended]
    unfold inFlight setCall
    dsimp only
    rw [List.countP_set bounded, is, closed ended, closed (same.mpr ended),
      if_neg Bool.false_ne_true]
    omega
  · have left := inFlight_setCall found ended new
    rw [if_neg fun fin => ended (same.mp fin)] at left
    exact Nat.succ.inj left

/-! ### One step -/

theorem sound_fresh (mode : HookMode) (once : Bool) : (fresh mode once).Sound where
  barrier :=
    { counted := rfl
      drained := iff_of_true rfl rfl
      waits := fun _ none => by cases none
      completes := fun _ none => by cases none
      nextOnce := fun _ member => by cases member }
  known := fun _ none => by cases none
  ran := fun _ member => by cases member

theorem sound_markOnce (sound : registration.Sound) : registration.markOnce.Sound where
  barrier := ⟨sound.barrier.counted, sound.barrier.drained, sound.barrier.waits,
    sound.barrier.completes, sound.barrier.nextOnce⟩
  known := sound.known
  ran := sound.ran

theorem barrier_of_markOnce (barrier : registration.markOnce.DrainBarrier) :
    registration.DrainBarrier :=
  ⟨barrier.counted, barrier.drained, barrier.waits, barrier.completes, barrier.nextOnce⟩

private theorem runs_at_most_once {call : ListenerCall}
    (ran : call.chainRuns = if call.nextCalled then 1 else 0) : call.chainRuns ≤ 1 := by
  rw [ran]
  split <;> decide

theorem sound_invoke (sound : registration.Sound) :
    (registration.raiseCount.add .running).Sound := by
  have counted : (registration.raiseCount.add .running).inFlight = registration.inFlight + 1 :=
    inFlight_add .running
  have listed : ∀ call ∈ (registration.raiseCount.add .running).calls,
      call.chainRuns = if call.nextCalled then 1 else 0 := by
    intro call member
    cases List.mem_append.mp member with
    | inl earlier => exact sound.ran call earlier
    | inr own =>
        rw [List.mem_singleton.mp own]
        rfl
  have length : (registration.raiseCount.add .running).calls.length =
      registration.calls.length + 1 := List.length_append
  refine
    { barrier :=
        { counted := ?_
          drained := ?_
          waits := ?_
          completes := ?_
          nextOnce := fun call member => runs_at_most_once (listed call member) }
      known := fun disposal same => ?_
      ran := listed }
  · rw [counted, ← sound.barrier.counted]
    rfl
  · rw [counted]
    refine iff_of_false ?_ (Nat.succ_ne_zero _)
    change (if registration.activeCalls + 1 = 1 then false else registration.drained) ≠ true
    split
    next => exact Bool.false_ne_true
    next several =>
      intro drained
      have idle := sound.barrier.drained.mp drained
      rw [← sound.barrier.counted] at idle
      exact several (by rw [idle])
  · intro disposal same waiting
    obtain ⟨index, before, unfinished⟩ := sound.barrier.waits disposal same waiting
    exact ⟨index, before, unfinished_add_of unfinished⟩
  · intro disposal same complete index before unfinished
    cases unfinished_add unfinished with
    | inl earlier => exact sound.barrier.completes disposal same complete index before earlier
    | inr own =>
        have known := sound.known disposal same
        rw [own] at before
        exact absurd before (Nat.not_lt_of_ge known)
  · rw [length]
    exact Nat.le_succ_of_le (sound.known disposal same)

theorem rejected_breaks (sound : registration.Sound) :
    ¬ (registration.raiseCount.add .finished).DrainBarrier := by
  intro barrier
  have counted := barrier.counted
  rw [inFlight_add] at counted
  have before : registration.raiseCount.inFlight = registration.activeCalls :=
    sound.barrier.counted.symm
  rw [before, if_pos rfl] at counted
  exact absurd counted (Nat.succ_ne_self _)

theorem lost_breaks (sound : registration.Sound) (found : registration.calls[index]? = some call)
    (isOpen : call.phase ≠ .finished) (ended : new.phase = .finished) :
    ¬ (registration.setCall index new).DrainBarrier := by
  intro barrier
  have counted : registration.activeCalls = (registration.setCall index new).inFlight :=
    barrier.counted
  have left := inFlight_setCall found isOpen new
  rw [if_pos ended, ← counted, sound.barrier.counted] at left
  exact absurd left (Nat.succ_ne_self _)

theorem ran_setCall (sound : registration.Sound) (index : Nat)
    (ran : new.chainRuns = if new.nextCalled then 1 else 0) :
    ∀ call ∈ (registration.setCall index new).calls,
      call.chainRuns = if call.nextCalled then 1 else 0 := by
  intro other member
  cases List.mem_or_eq_of_mem_set member with
  | inl earlier => exact sound.ran other earlier
  | inr own =>
      rw [own]
      exact ran

/-- A call that goes on, or runs its `next_`. -/
theorem sound_setCall (sound : registration.Sound) (found : registration.calls[index]? = some call)
    (same : new.phase = .finished ↔ call.phase = .finished)
    (ran : new.chainRuns = if new.nextCalled then 1 else 0) :
    (registration.setCall index new).Sound := by
  have unfinished : ∀ other, (registration.setCall index new).Unfinished other ↔
      registration.Unfinished other := by
    intro other
    rw [unfinished_setCall found]
    split
    next own =>
      rw [own]
      exact ⟨fun isOpen => ⟨call, found, fun ended => isOpen (same.mpr ended)⟩,
        fun ⟨was, is, isOpen⟩ ended => by
          rw [found] at is
          cases is
          exact isOpen (same.mp ended)⟩
    next => exact Iff.rfl
  have counted : (registration.setCall index new).inFlight = registration.inFlight :=
    inFlight_setCall_same found same
  have listed := ran_setCall sound index ran
  refine
    { barrier :=
        { counted := sound.barrier.counted.trans counted.symm
          drained := ?_
          waits := ?_
          completes := ?_
          nextOnce := fun call member => runs_at_most_once (listed call member) }
      known := fun disposal same => ?_
      ran := listed }
  · rw [counted]
    exact sound.barrier.drained
  · intro disposal same waiting
    obtain ⟨other, before, isOpen⟩ := sound.barrier.waits disposal same waiting
    exact ⟨other, before, (unfinished other).mpr isOpen⟩
  · intro disposal same complete other before isOpen
    exact sound.barrier.completes disposal same complete other before ((unfinished other).mp isOpen)
  · have kept : (registration.setCall index new).calls.length = registration.calls.length :=
      List.length_set
    rw [kept]
    exact sound.known disposal same

private theorem released (sound : registration.Sound)
    (found : registration.calls[index]? = some call) (isOpen : call.phase ≠ .finished)
    (ended : new.phase = .finished) :
    (registration.setCall index new).inFlight = registration.activeCalls - 1 ∧
      registration.drained = false ∧ ∀ other, (registration.setCall index new).Unfinished other ↔
        other ≠ index ∧ registration.Unfinished other := by
  have left := inFlight_setCall found isOpen new
  rw [if_pos ended, ← sound.barrier.counted] at left
  refine ⟨by omega, Bool.eq_false_iff.mpr fun drained => ?_, fun other => ?_⟩
  · have idle := sound.barrier.drained.mp drained
    exact inFlight_eq_zero.mp idle index ⟨call, found, isOpen⟩
  · rw [unfinished_setCall found]
    split
    next own => exact iff_of_false (fun stays => stays ended) fun both => both.1 own
    next apart => exact (and_iff_right apart).symm

theorem sound_release (sound : registration.Sound) {call : ListenerCall} (new : ListenerCall)
    (found : registration.calls[index]? = some call) (isOpen : call.phase ≠ .finished)
    (ended : new.phase = .finished) (ran : new.chainRuns = if new.nextCalled then 1 else 0)
    (last : registration.LastLeaves index) :
    (registration.setCall index new).releaseCall.Sound := by
  obtain ⟨counted, undrained, unfinished⟩ := released sound found isOpen ended
  have listed := ran_setCall sound index ran
  have known : ∀ disposal, registration.disposal = some disposal →
      disposal.started ≤ (registration.setCall index new).calls.length := by
    intro disposal same
    unfold setCall
    rw [List.length_set]
    exact sound.known disposal same
  unfold releaseCall
  by_cases idle : registration.activeCalls - 1 = 0
  · have none : ∀ other, ¬ (registration.setCall index new).Unfinished other :=
      inFlight_eq_zero.mp (counted.trans idle)
    rw [if_pos (show (registration.setCall index new).activeCalls - 1 = 0 from idle)]
    refine
      { barrier :=
          { counted := (counted.trans idle).symm
            drained := iff_of_true rfl (counted.trans idle)
            waits := ?_
            completes := fun _ _ _ other _ => none other
            nextOnce := fun call member => runs_at_most_once (listed call member) }
        known := ?_
        ran := listed }
    · intro disposal same waiting
      obtain ⟨before, _, woken⟩ := Option.map_eq_some_iff.mp same
      rw [← woken, wake] at waiting
      split at waiting
      · cases waiting
      next awake => exact absurd waiting awake
    · intro disposal same
      obtain ⟨before, was, woken⟩ := Option.map_eq_some_iff.mp same
      have started : disposal.started = before.started := by
        rw [← woken, wake]
        split <;> rfl
      rw [started]
      exact known before was
  · rw [if_neg (show ¬ (registration.setCall index new).activeCalls - 1 = 0 from idle)]
    refine
      { barrier :=
          { counted := counted.symm
            drained := ?_
            waits := ?_
            completes := ?_
            nextOnce := fun call member => runs_at_most_once (listed call member) }
        known := known
        ran := listed }
    · refine iff_of_false ?_ fun none => idle (counted.symm.trans none)
      exact Bool.eq_false_iff.mp undrained
    · intro disposal same waiting
      by_contra others
      apply idle
      rw [← counted]
      refine inFlight_eq_zero.mpr fun other stays => ?_
      obtain ⟨apart, isOpen⟩ := (unfinished other).mp stays
      refine apart (last disposal same waiting (fun earlier before unended => ?_) other isOpen)
      by_contra different
      exact others ⟨earlier, before, (unfinished earlier).mpr ⟨different, unended⟩⟩
    · intro disposal same complete other before stays
      exact sound.barrier.completes disposal same complete other before
        ((unfinished other).mp stays).2

theorem lastLeaves_of_release (sound : registration.Sound)
    (found : registration.calls[index]? = some call) (isOpen : call.phase ≠ .finished)
    (ended : new.phase = .finished)
    (barrier : (registration.setCall index new).releaseCall.DrainBarrier) :
    registration.LastLeaves index := by
  obtain ⟨counted, _, unfinished⟩ := released sound found isOpen ended
  intro disposal same waiting only other stays
  by_contra apart
  have busy : ¬ registration.activeCalls - 1 = 0 := by
    rw [← counted]
    exact fun idle => inFlight_eq_zero.mp idle other ((unfinished other).mpr ⟨apart, stays⟩)
  have after : (registration.setCall index new).releaseCall =
      { registration.setCall index new with activeCalls := registration.activeCalls - 1 } := by
    unfold releaseCall
    exact if_neg (show ¬ (registration.setCall index new).activeCalls - 1 = 0 from busy)
  rw [after] at barrier
  obtain ⟨earlier, before, isLeft⟩ := barrier.waits disposal same waiting
  obtain ⟨different, isOpen⟩ := (unfinished earlier).mp isLeft
  exact different (only earlier before isOpen)

theorem sound_dispose (sound : registration.Sound) (asynchronous : Bool) :
    (registration.dispose asynchronous).Sound := by
  unfold dispose
  cases registration.removed with
  | true => exact sound
  | false =>
      rw [if_neg Bool.false_ne_true]
      have created : ∀ disposal, (if registration.activeCalls = 0 then none
          else some (⟨.created, asynchronous, registration.calls.length⟩ : Disposal)) =
            some disposal → disposal.phase = .created ∧
              disposal.started = registration.calls.length := by
        intro disposal same
        split at same
        · cases same
        · cases same
          exact ⟨rfl, rfl⟩
      refine
        { barrier :=
            { counted := sound.barrier.counted
              drained := sound.barrier.drained
              waits := fun disposal same waiting => ?_
              completes := fun disposal same complete => ?_
              nextOnce := sound.barrier.nextOnce }
          known := fun disposal same => Nat.le_of_eq (created disposal same).2
          ran := sound.ran }
      · exact absurd ((created disposal same).1.symm.trans waiting) (by decide)
      · exact absurd ((created disposal same).1.symm.trans complete) (by decide)

theorem sound_enterWait (sound : registration.Sound) {disposal : Disposal}
    (same : registration.disposal = some disposal)
    (own : (∃ index, registration.Unfinished index) →
      ∃ index < disposal.started, registration.Unfinished index) :
    (registration.enterWait disposal).Sound := by
  refine
    { barrier :=
        { counted := sound.barrier.counted
          drained := sound.barrier.drained
          waits := ?_
          completes := ?_
          nextOnce := sound.barrier.nextOnce }
      known := ?_
      ran := sound.ran }
  · intro after is waiting
    cases is
    refine own ?_
    by_contra none
    have drained := sound.barrier.drained.mpr (inFlight_eq_zero.mpr (not_exists.mp none))
    dsimp only at waiting
    rw [if_pos drained] at waiting
    cases waiting
  · intro after is complete
    cases is
    dsimp only at complete
    cases drained : registration.drained with
    | false =>
        rw [drained] at complete
        cases complete
    | true => exact fun index _ => inFlight_eq_zero.mp (sound.barrier.drained.mp drained) index
  · intro after is
    cases is
    exact sound.known disposal same

theorem own_of_enterWait (sound : registration.Sound)
    (barrier : (registration.enterWait disposal).DrainBarrier)
    (busy : ∃ index, registration.Unfinished index) :
    ∃ index < disposal.started, registration.Unfinished index := by
  have undrained : registration.drained = false := by
    refine Bool.eq_false_iff.mpr fun drained => ?_
    obtain ⟨index, unfinished⟩ := busy
    exact inFlight_eq_zero.mp (sound.barrier.drained.mp drained) index unfinished
  refine barrier.waits { disposal with
    phase := if registration.drained then .complete else .waiting } rfl ?_
  rw [undrained]
  rfl

/-! ### Runs -/

inductive Effect (before : Registration) (action : HookAction) : Registration → Prop where
  | entered (clean : before.Clean action) : Effect before action (before.raiseCount.add .running)
  | rejected (unclean : ¬ before.Clean action) :
      Effect before action (before.raiseCount.add .finished)
  | moved (index : Nat) (call new : ListenerCall) (found : before.calls[index]? = some call)
      (same : new.phase = .finished ↔ call.phase = .finished)
      (ran : (call.chainRuns = if call.nextCalled then 1 else 0) →
        new.chainRuns = if new.nextCalled then 1 else 0)
      (clean : before.Clean action) : Effect before action (before.setCall index new)
  | lost (index : Nat) (call : ListenerCall) (found : before.calls[index]? = some call)
      (isOpen : call.phase ≠ .finished) (unclean : ¬ before.Clean action) :
      Effect before action (before.setCall index { call with phase := .finished })
  | released (index : Nat) (call : ListenerCall) (found : before.calls[index]? = some call)
      (isOpen : call.phase ≠ .finished) (exactly : before.Clean action ↔ before.LastLeaves index)
      (after : Registration)
      (same : after = (before.setCall index { call with phase := .finished }).releaseCall ∨
        after = (before.setCall index { call with phase := .finished }).releaseCall.markOnce) :
      Effect before action after
  | kept (clean : before.Clean action) : Effect before action before
  | disposed (asynchronous : Bool) (clean : before.Clean action) :
      Effect before action (before.dispose asynchronous)
  | awaited (disposal : Disposal) (same : before.disposal = some disposal)
      (clean : before.Clean action) :
      Effect before action
        { before with disposal := some { disposal with phase := .disposing } }
  | entersWait (disposal : Disposal) (same : before.disposal = some disposal)
      (exactly : before.Clean action ↔ ((∃ index, before.Unfinished index) →
        ∃ index < disposal.started, before.Unfinished index)) :
      Effect before action (before.enterWait disposal)

private theorem waitsForOwn_iff (same : registration.disposal = some disposal)
    (begins : disposal.phase = .disposing ∨ disposal.asynchronous = false) :
    registration.WaitsForOwn ↔ ((∃ index, registration.Unfinished index) →
      ∃ index < disposal.started, registration.Unfinished index) := by
  constructor
  · exact fun waits => waits disposal same begins
  · intro own other is _
    rw [same] at is
    cases is
    exact own

private theorem effect_settle {outcome : ListenerOutcome}
    (stepped : before.step (.settle index outcome) = some after) :
    before.Effect (.settle index outcome) after := by
  simp only [step] at stepped
  cases found : before.calls[index]? with
  | none =>
      rw [found] at stepped
      cases stepped
  | some call =>
      rw [found] at stepped
      dsimp only at stepped
      split at stepped
      next running =>
        have isOpen : call.phase ≠ .finished := by
          rw [running]
          decide
        cases outcome with
        | returned =>
            cases stepped
            exact .released index call found isOpen Iff.rfl _ (Or.inr rfl)
        | raised =>
            cases stepped
            exact .released index call found isOpen Iff.rfl _ (Or.inl rfl)
        | cancelled =>
            cases stepped
            exact .lost index call found isOpen fun clean => clean
        | awaitable =>
            cases stepped
            exact .moved index call _ found
              (iff_of_false (fun pending => by cases pending) isOpen) id trivial
      next => cases stepped

private theorem effect_proceed (stepped : before.step .proceed = some after) :
    before.Effect .proceed after := by
  simp only [step] at stepped
  cases same : before.disposal with
  | none =>
      rw [same] at stepped
      cases stepped
  | some disposal =>
      rw [same] at stepped
      dsimp only at stepped
      cases phase : disposal.phase with
      | created =>
          rw [phase] at stepped
          dsimp only at stepped
          split at stepped
          next asynchronous =>
            cases stepped
            have clean : before.Clean .proceed := by
              intro other is begins
              rw [same] at is
              cases is
              rw [phase, asynchronous] at begins
              exact absurd begins (by decide)
            exact .awaited disposal same clean
          next synchronous =>
            cases stepped
            exact .entersWait disposal same
              (waitsForOwn_iff same (Or.inr (Bool.eq_false_iff.mpr synchronous)))
      | disposing =>
          rw [phase] at stepped
          cases stepped
          exact .entersWait disposal same (waitsForOwn_iff same (Or.inl phase))
      | waiting =>
          rw [phase] at stepped
          cases stepped
      | complete =>
          rw [phase] at stepped
          cases stepped

theorem effect_of_step {action : HookAction} (stepped : before.step action = some after) :
    before.Effect action after := by
  cases action with
  | invoke accepted =>
      simp only [step] at stepped
      split at stepped
      next rejected =>
        cases stepped
        refine .rejected fun clean => ?_
        have accepts := clean rejected.1
        rw [rejected.2] at accepts
        cases accepts
      next accepted =>
        cases stepped
        refine .entered fun waterfall => ?_
        by_contra turned
        exact accepted ⟨waterfall, Bool.eq_false_iff.mpr turned⟩
  | settle index outcome => exact effect_settle stepped
  | firstStep index =>
      simp only [step] at stepped
      split at stepped
      · cases stepped
      next call found =>
        split at stepped
        next pending =>
          cases stepped
          refine .moved index call _ found (iff_of_false (fun begun => by cases begun) ?_) id
            trivial
          rw [pending]
          decide
        next => cases stepped
  | drop index =>
      simp only [step] at stepped
      split at stepped
      · cases stepped
      next call found =>
        split at stepped
        next pending =>
          cases stepped
          refine .lost index call found ?_ fun clean => clean
          rw [pending]
          decide
        next => cases stepped
  | finish index =>
      simp only [step] at stepped
      split at stepped
      · cases stepped
      next call found =>
        split at stepped
        next awaiting =>
          cases stepped
          refine .released index call found ?_ Iff.rfl _ (Or.inr rfl)
          rw [awaiting]
          decide
        next => cases stepped
  | next index =>
      simp only [step] at stepped
      split at stepped
      · cases stepped
      next call found =>
        split at stepped
        · cases stepped
        · split at stepped
          next =>
            cases stepped
            exact .kept trivial
          next first =>
            cases stepped
            refine .moved index call _ found Iff.rfl (fun ran => ?_) trivial
            rw [if_neg first] at ran
            dsimp only
            rw [ran, if_pos rfl]
  | dispose asynchronous =>
      cases stepped
      exact .disposed asynchronous trivial
  | proceed => exact effect_proceed stepped

theorem sound_awaited (sound : registration.Sound) (same : registration.disposal = some disposal) :
    Sound { registration with disposal := some { disposal with phase := .disposing } } := by
  refine
    { barrier :=
        { counted := sound.barrier.counted
          drained := sound.barrier.drained
          waits := fun _ is waiting => ?_
          completes := fun _ is complete => ?_
          nextOnce := sound.barrier.nextOnce }
      known := fun _ is => ?_
      ran := sound.ran }
  · cases is
    cases waiting
  · cases is
    cases complete
  · cases is
    exact sound.known disposal same

theorem step_sound {action : HookAction} (sound : before.Sound)
    (effect : before.Effect action after) (clean : before.Clean action) : after.Sound := by
  cases effect with
  | entered _ => exact sound_invoke sound
  | rejected unclean => exact absurd clean unclean
  | moved index call new found same ran _ =>
      exact sound_setCall sound found same (ran (sound.ran call (List.mem_of_getElem? found)))
  | lost _ _ _ _ unclean => exact absurd clean unclean
  | released index call found isOpen exactly after same =>
      have ran := sound.ran call (List.mem_of_getElem? found)
      have released := sound_release sound { call with phase := .finished } found isOpen rfl ran
        (exactly.mp clean)
      cases same with
      | inl is => exact is ▸ released
      | inr is => exact is ▸ sound_markOnce released
  | kept _ => exact sound
  | disposed asynchronous _ => exact sound_dispose sound asynchronous
  | awaited disposal same _ => exact sound_awaited sound same
  | entersWait disposal same exactly => exact sound_enterWait sound same (exactly.mp clean)

theorem clean_of_barrier {action : HookAction} (sound : before.Sound)
    (effect : before.Effect action after) (barrier : after.DrainBarrier) : before.Clean action := by
  cases effect with
  | entered clean => exact clean
  | rejected _ => exact absurd barrier (rejected_breaks sound)
  | moved _ _ _ _ _ _ clean => exact clean
  | lost index call found isOpen _ => exact absurd barrier (lost_breaks sound found isOpen rfl)
  | released index call found isOpen exactly after same =>
      refine exactly.mpr ?_
      cases same with
      | inl is => exact lastLeaves_of_release sound found isOpen rfl (is ▸ barrier)
      | inr is =>
          exact lastLeaves_of_release sound found isOpen rfl (barrier_of_markOnce (is ▸ barrier))
  | kept clean => exact clean
  | disposed _ clean => exact clean
  | awaited _ _ clean => exact clean
  | entersWait disposal same exactly => exact exactly.mpr (own_of_enterWait sound barrier)

end Registration

/-- The barrier holds in every state of a run exactly if every step of the run is clean. -/
theorem drainBarrier_iff (mode : HookMode) (once : Bool) (actions : List HookAction) :
    hookCalls.Always Registration.DrainBarrier (.fresh mode once) actions ↔
      hookCalls.EachStep Registration.Clean (.fresh mode once) actions :=
  StepSystem.always_iff_eachStep_of_invariant Registration.Sound
    (fun _ sound => sound.barrier)
    (fun _ _ _ sound stepped clean =>
      Registration.step_sound sound (Registration.effect_of_step stepped) clean)
    (fun _ _ _ sound stepped barrier =>
      Registration.clean_of_barrier sound (Registration.effect_of_step stepped) barrier)
    (Registration.sound_fresh mode once) actions

/-- A listener of an emitted hook whose task is cancelled before its first step. -/
theorem dropped_call_stays_counted : ¬ hookCalls.Always Registration.DrainBarrier
    (.fresh .emit false) [.invoke true, .settle 0 .awaitable, .drop 0] := by
  intro always
  have counted := (((always.2 _ rfl).2 _ rfl).2 _ rfl).counted
  exact absurd counted (by decide)

end Ftre.Hooks
