import Mathlib.Tactic.ByContra
import Ftre.Processes.ProcessService

/-!
The life of processes. One that runs is in the set of handles until a kill signal is sent to it; a
closed service leaves none behind; a result is the one of the process.
-/

namespace Ftre.Processes

open Lib

/-- The process runs, and no kill signal has been sent to it. -/
structure Process.Live (process : Process) : Prop where
  running : process.exited = none
  unsignalled : process.killSent = false

def Process.Gives (process : Process) (result : ProcessResult) : Prop :=
  process.exited = some result.exitCode ∧
    (process.capture = true → result.output = process.output)

structure Lifecycle (state : ServiceState) : Prop where
  held : ∀ (index : Nat) (process : Process), state.processes[index]? = some process →
    process.exited = none → process.killSent = false → process.held = true
  closed : state.closeReturned = true → (∀ phase ∈ state.calls, phase = .done) →
    ∀ process ∈ state.processes, process.exited ≠ none ∨ process.killSent = true
  results : ∀ entry ∈ state.delivered,
    ∃ process, state.processes[entry.1]? = some process ∧ process.Gives entry.2

/-- A phase of `close` that will kill the process. -/
def Covers (phase : CallPhase) (index : Nat) (process : Process) : Prop :=
  phase = .killBegin index ∨ phase = .killSignal index .close ∨
    phase = .closing ∧ process.synchronous = true

def PhaseOk (processes : List Process) : CallPhase → Prop
  | .killWait index _ => ∃ process, processes[index]? = some process ∧ ¬ process.Live
  | .killSignal index _ => index < processes.length
  | _ => True

structure Sound (state : ServiceState) : Prop where
  live : ∀ (index : Nat) (process : Process), state.processes[index]? = some process →
    process.Live → process.held = true ∧
      (state.closed = true → ∃ phase ∈ state.calls, Covers phase index process)
  phases : ∀ phase ∈ state.calls, PhaseOk state.processes phase
  closing : .closing ∈ state.calls → state.closed = true
  returned : state.closeReturned = true → state.closed = true
  recorded : ∀ (index : Nat) (process : Process) (result : ProcessResult),
    state.processes[index]? = some process → process.result = some result → process.Gives result
  told : ∀ entry ∈ state.delivered,
    ∃ process, state.processes[entry.1]? = some process ∧ process.Gives entry.2

def NotLive (state : ServiceState) (index : Nat) : Prop :=
  ∀ process, state.processes[index]? = some process → ¬ process.Live

def FirstCaller (state : ServiceState) (index : Nat) : Prop :=
  ∀ process, state.processes[index]? = some process → process.result = none →
    process.communicated = true →
      process.exited ≠ none ∧ (process.capture = true → process.output = "")

def dropsHandle (cancelled : Bool) : KillContext → Bool
  | .run => !cancelled
  | .runFinal => true
  | .terminate => true
  | .close => true
  | _ => false

def Clean (state : ServiceState) : ServiceAction → Prop
  | .spawnReturns _ _ _ => state.closed = false
  | .communicate index => FirstCaller state index
  | .wait index => ∀ process, state.processes[index]? = some process →
      process.capture = true → FirstCaller state index
  | .communicateSync index outcome _ => outcome = .failed → NotLive state index
  | .terminateCancelled call => ∀ index, state.calls[call]? = some (.terminateWait index) →
      NotLive state index
  | .terminateSync index outcome => outcome = .failed → NotLive state index
  | .signalFails call cancelled => ∀ index context,
      state.calls[call]? = some (.killSignal index context) →
        dropsHandle cancelled context = true → NotLive state index
  | .closeCancelled _ => ∀ (index : Nat) (process : Process),
      state.processes[index]? = some process → process.Live →
        ∀ phase ∈ state.calls, ¬ Covers phase index process
  | _ => True

/-! ### Changes of a process -/

structure Evolves (before after : Process) : Prop where
  synchronous : after.synchronous = before.synchronous
  capture : after.capture = before.capture
  output : after.output = before.output
  exited : ∀ status, before.exited = some status → after.exited = some status
  live : after.Live → before.Live ∧ after.held = before.held
  recorded : ∀ result, after.result = some result → before.result = some result ∨
    after.Gives result

theorem Evolves.gives {before after : Process} (evolves : Evolves before after)
    {result : ProcessResult} (gives : before.Gives result) : after.Gives result :=
  ⟨evolves.exited _ gives.1, fun captured => by
    rw [evolves.output]
    exact gives.2 (evolves.capture ▸ captured)⟩

variable {state : ServiceState}

theorem modify_found {index : Nat} {change : Process → Process} {other : Nat} {process : Process}
    (found : (state.modify index change).processes[other]? = some process) :
    ∃ before, state.processes[other]? = some before ∧
      process = if index = other then change before else before := by
  unfold ServiceState.modify at found
  dsimp only at found
  rw [List.getElem?_modify] at found
  obtain ⟨before, there, same⟩ := Option.map_eq_some_iff.mp found
  refine ⟨before, there, ?_⟩
  split at same
  next hit =>
    rw [if_pos hit]
    exact same.symm
  next miss =>
    rw [if_neg miss]
    exact same.symm

theorem modify_finds {index : Nat} {change : Process → Process} {other : Nat} {before : Process}
    (there : state.processes[other]? = some before) :
    (state.modify index change).processes[other]? =
      some (if index = other then change before else before) := by
  unfold ServiceState.modify
  dsimp only
  rw [List.getElem?_modify, there]
  split <;> rfl

theorem sound_modify (sound : Sound state) {index : Nat} {change : Process → Process}
    (evolves : ∀ process, state.processes[index]? = some process →
      Evolves process (change process)) :
    Sound (state.modify index change) := by
  have each : ∀ {other : Nat} {before : Process}, state.processes[other]? = some before →
      Evolves before (if index = other then change before else before) := by
    intro other before there
    split
    next same => exact evolves before (same ▸ there)
    next =>
      exact ⟨rfl, rfl, rfl, fun _ => id, fun live => ⟨live, rfl⟩, fun _ recorded =>
        Or.inl recorded⟩
  refine
    { live := ?_
      phases := ?_
      closing := sound.closing
      returned := sound.returned
      recorded := ?_
      told := ?_ }
  · intro other process found live
    obtain ⟨before, there, same⟩ := modify_found found
    have evolved := each there
    rw [← same] at evolved
    obtain ⟨was, held⟩ := evolved.live live
    obtain ⟨kept, covered⟩ := sound.live other before there was
    refine ⟨held.trans kept, fun closed => ?_⟩
    obtain ⟨phase, member, covers⟩ := covered closed
    refine ⟨phase, member, ?_⟩
    unfold Covers at covers ⊢
    rwa [evolved.synchronous]
  · intro phase member
    have before := sound.phases phase member
    cases phase with
    | killWait target context =>
        obtain ⟨process, there, dead⟩ := before
        exact ⟨_, modify_finds there, fun live => dead ((each there).live live).1⟩
    | killSignal target context =>
        change target < (state.processes.modify index change).length
        rw [List.length_modify]
        exact before
    | _ => trivial
  · intro other process result found recorded
    obtain ⟨before, there, same⟩ := modify_found found
    have evolved := each there
    rw [← same] at evolved
    cases evolved.recorded result recorded with
    | inl earlier => exact evolved.gives (sound.recorded other before result there earlier)
    | inr gives => exact gives
  · intro entry member
    obtain ⟨process, there, gives⟩ := sound.told entry member
    exact ⟨_, modify_finds there, (each there).gives gives⟩

theorem notLive_of_exited {index : Nat} (exited : state.hasExited index = true) :
    NotLive state index := by
  intro process found live
  unfold ServiceState.hasExited at exited
  rw [found] at exited
  dsimp only at exited
  rw [live.running] at exited
  cases exited

theorem sound_discard (sound : Sound state) {index : Nat} (dead : NotLive state index) :
    Sound (state.discard index) :=
  sound_modify sound fun process found =>
    ⟨rfl, rfl, rfl, fun _ => id, fun live => absurd ⟨live.running, live.unsignalled⟩
      (dead process found), fun _ recorded => Or.inl recorded⟩

theorem sound_signal (sound : Sound state) (index : Nat) : Sound (state.signal index) :=
  sound_modify sound fun _ _ =>
    ⟨rfl, rfl, rfl, fun _ => id, fun live => absurd live.unsignalled Bool.noConfusion,
      fun _ recorded => Or.inl recorded⟩

theorem signal_notLive (index : Nat) : NotLive (state.signal index) index := by
  intro process found live
  obtain ⟨before, _, same⟩ := modify_found found
  rw [if_pos rfl] at same
  have sent := live.unsignalled
  rw [same] at sent
  cases sent

theorem signal_finds {index : Nat} {process : Process}
    (there : state.processes[index]? = some process) :
    (state.signal index).processes[index]? = some { process with killSent := true } := by
  unfold ServiceState.signal
  rw [modify_finds there, if_pos rfl]

theorem notLive_discard {index : Nat} (dead : NotLive state index) :
    NotLive (state.discard index) index := by
  intro process found live
  obtain ⟨before, there, same⟩ := modify_found found
  rw [if_pos rfl] at same
  rw [same] at live
  exact dead before there ⟨live.running, live.unsignalled⟩

theorem sound_setCall (sound : Sound state) {call : Nat} {old new : CallPhase}
    (found : state.calls[call]? = some old)
    (keeps : ∀ (index : Nat) (process : Process), state.processes[index]? = some process →
      process.Live → Covers old index process → Covers new index process)
    (ok : PhaseOk state.processes new) (unclosing : new = .closing → state.closed = true) :
    Sound (state.setCall call new) := by
  refine
    { live := ?_
      phases := ?_
      closing := ?_
      returned := sound.returned
      recorded := sound.recorded
      told := sound.told }
  · intro index process there live
    obtain ⟨held, covered⟩ := sound.live index process there live
    refine ⟨held, fun closed => ?_⟩
    obtain ⟨phase, member, covers⟩ := covered closed
    obtain ⟨position, placed⟩ := List.getElem?_of_mem member
    by_cases same : call = position
    · rw [← same, found] at placed
      cases placed
      have within := (List.getElem?_eq_some_iff.mp found).1
      exact ⟨new, List.mem_of_getElem? (List.getElem?_set_self within),
        keeps index process there live covers⟩
    · refine ⟨phase, List.mem_of_getElem? (i := position) ?_, covers⟩
      change (state.calls.set call new)[position]? = some phase
      rw [List.getElem?_set_ne same]
      exact placed
  · intro phase member
    cases List.mem_or_eq_of_mem_set member with
    | inl earlier => exact sound.phases phase earlier
    | inr own => exact own ▸ ok
  · intro member
    cases List.mem_or_eq_of_mem_set member with
    | inl earlier => exact sound.closing earlier
    | inr own => exact unclosing own.symm

theorem sound_callDone (sound : Sound state) {call : Nat} {old : CallPhase}
    (found : state.calls[call]? = some old)
    (quiet : ∀ (index : Nat) (process : Process), state.processes[index]? = some process →
      process.Live → ¬ Covers old index process) :
    Sound (state.setCall call .done) :=
  sound_setCall sound found (fun index process there live covers =>
    absurd covers (quiet index process there live)) trivial (fun same => by cases same)

theorem sound_addCall (sound : Sound state) {phase : CallPhase}
    (ok : PhaseOk state.processes phase) (unclosing : phase ≠ .closing) :
    Sound (state.addCall phase) := by
  refine
    { live := ?_
      phases := ?_
      closing := ?_
      returned := sound.returned
      recorded := sound.recorded
      told := sound.told }
  · intro index process there live
    obtain ⟨held, covered⟩ := sound.live index process there live
    refine ⟨held, fun closed => ?_⟩
    obtain ⟨phase, member, covers⟩ := covered closed
    exact ⟨phase, List.mem_append_left _ member, covers⟩
  · intro other member
    cases List.mem_append.mp member with
    | inl earlier => exact sound.phases other earlier
    | inr own => exact List.mem_singleton.mp own ▸ ok
  · intro member
    cases List.mem_append.mp member with
    | inl earlier => exact sound.closing earlier
    | inr own => exact absurd (List.mem_singleton.mp own).symm unclosing

theorem sound_deliver (sound : Sound state) {index : Nat} {result : ProcessResult}
    (gives : ∃ process, state.processes[index]? = some process ∧ process.Gives result) :
    Sound (state.deliver index result) := by
  refine ⟨sound.live, sound.phases, sound.closing, sound.returned, sound.recorded, ?_⟩
  intro entry member
  cases List.mem_append.mp member with
  | inl earlier => exact sound.told entry earlier
  | inr own =>
      rw [List.mem_singleton.mp own]
      exact gives

/-! ### Kills -/

def HandsOver (state : ServiceState) (old : CallPhase) (target : Nat) (context : KillContext) :
    Prop :=
  ∀ (index : Nat) (process : Process), state.processes[index]? = some process → process.Live →
    Covers old index process → index = target ∧ context = .close

theorem sound_beginKill (windows : Bool) (sound : Sound state) {call target : Nat}
    {old : CallPhase} {context : KillContext} (found : state.calls[call]? = some old)
    (there : ∃ process, state.processes[target]? = some process)
    (handed : HandsOver state old target context) :
    Sound (state.beginKill windows call target context) := by
  obtain ⟨process, there⟩ := there
  unfold ServiceState.beginKill
  cases windows with
  | true =>
      rw [if_pos rfl]
      refine sound_setCall sound found (fun index process placed live covers => ?_)
        (List.getElem?_eq_some_iff.mp there).1 (fun same => by cases same)
      obtain ⟨same, closing⟩ := handed index process placed live covers
      rw [same, closing]
      exact Or.inr (Or.inl rfl)
  | false =>
      rw [if_neg Bool.false_ne_true]
      have sent := signal_finds there
      refine sound_setCall (sound_signal sound target) found
        (fun index process placed live covers => ?_)
        ⟨_, sent, fun live => signal_notLive target _ sent live⟩ (fun same => by cases same)
      by_cases same : target = index
      · subst same
        exact absurd live (signal_notLive target process placed)
      · obtain ⟨before, was, is⟩ := modify_found placed
        rw [if_neg same] at is
        subst is
        exact absurd (handed index process was live covers).1.symm same

def Quiet (state : ServiceState) (old : CallPhase) : Prop :=
  ∀ (index : Nat) (process : Process), state.processes[index]? = some process → process.Live →
    ¬ Covers old index process

theorem quiet_discard {old : CallPhase} (quiet : Quiet state old) (target : Nat) :
    Quiet (state.discard target) old := by
  intro index process found live covers
  obtain ⟨before, there, same⟩ := modify_found found
  refine quiet index before there ?_ ?_
  · rw [same] at live
    split at live
    · exact ⟨live.running, live.unsignalled⟩
    · exact live
  · rw [same] at covers
    split at covers
    · exact covers
    · exact covers

theorem sound_leaveKill (windows : Bool) (sound : Sound state) {call target : Nat}
    {old : CallPhase} (found : state.calls[call]? = some old) (quiet : Quiet state old)
    (context : KillContext)
    (dead : context = .runFinal ∨ context = .terminate → NotLive state target) :
    Sound (state.leaveKill windows call target context) := by
  have dropped : NotLive state target → Sound ((state.discard target).setCall call .done) :=
    fun dead => sound_callDone (sound_discard sound dead) found (quiet_discard quiet target)
  unfold ServiceState.leaveKill
  cases context with
  | run =>
      dsimp only
      cases exited : state.hasExited target with
      | true =>
          rw [if_pos rfl]
          exact dropped (notLive_of_exited exited)
      | false =>
          rw [if_neg Bool.false_ne_true]
          refine sound_beginKill windows sound found ?_ fun index process there live covers =>
            absurd covers (quiet index process there live)
          unfold ServiceState.hasExited at exited
          split at exited
          next process there => exact ⟨process, there⟩
          next => cases exited
  | runFinal => exact dropped (dead (Or.inl rfl))
  | terminate => exact dropped (dead (Or.inr rfl))
  | kill => exact sound_callDone sound found quiet
  | interrupted => exact sound_callDone sound found quiet
  | close => exact sound_callDone sound found quiet

theorem sound_handleKill (windows : Bool) (sound : Sound state) {call target : Nat}
    {old : CallPhase} {context : KillContext} (found : state.calls[call]? = some old)
    (handsOver : HandsOver state old target context) :
    Sound (state.handleKill windows call target context) := by
  unfold ServiceState.handleKill
  cases exited : state.hasExited target with
  | true =>
      rw [if_pos rfl]
      have dead := notLive_of_exited exited
      refine sound_leaveKill windows sound found (fun index process there live covers => ?_)
        context fun _ => dead
      obtain ⟨same, _⟩ := handsOver index process there live covers
      exact dead process (same ▸ there) live
  | false =>
      rw [if_neg Bool.false_ne_true]
      refine sound_beginKill windows sound found ?_ handsOver
      unfold ServiceState.hasExited at exited
      split at exited
      next process there => exact ⟨process, there⟩
      next => cases exited

theorem quiet_of_ne {old : CallPhase} (apart : ∀ index, old ≠ .killBegin index ∧
    old ≠ .killSignal index .close) (unclosing : old ≠ .closing) : Quiet state old := by
  intro index process _ _ covers
  rcases covers with same | same | same
  · exact (apart index).1 same
  · exact (apart index).2 same
  · exact unclosing same.1

theorem handsOver_of_quiet {old : CallPhase} (quiet : Quiet state old) (target : Nat)
    (context : KillContext) : HandsOver state old target context :=
  fun index process there live covers => absurd covers (quiet index process there live)

theorem resultOf_gives {process : Process} {status : Int} (exited : process.exited = some status)
    (rest : String) : process.Gives (ServiceState.resultOf process status rest) := by
  refine ⟨exited, fun captured => ?_⟩
  unfold ServiceState.resultOf
  dsimp only
  rw [if_pos captured]

theorem sound_finish (sound : Sound state) {index : Nat} {process : Process}
    {result : ProcessResult} (there : state.processes[index]? = some process)
    (gives : process.Gives result) : Sound (state.finish index result) := by
  have finishes : Evolves process { process with
      result := some result
      held := false } := by
    refine ⟨rfl, rfl, rfl, fun _ => id, fun live => ?_, fun other recorded => Or.inr ?_⟩
    · have running := live.running
      dsimp only at running
      rw [gives.1] at running
      cases running
    · cases recorded
      exact gives
  have changed : Sound (state.modify index fun process =>
      { process with
        result := some result
        held := false }) := by
    refine sound_modify sound fun other placed => ?_
    rw [there] at placed
    cases placed
    exact finishes
  refine sound_deliver changed ⟨_, modify_finds there, ?_⟩
  rw [if_pos rfl]
  exact finishes.gives gives

theorem sound_beginCommunicate (sound : Sound state) {index : Nat} {process : Process}
    (there : state.processes[index]? = some process) (first : FirstCaller state index) :
    Sound (state.beginCommunicate index process) := by
  unfold ServiceState.beginCommunicate
  cases recorded : process.result with
  | some result =>
      exact sound_deliver sound
        ⟨process, there, sound.recorded index process result there recorded⟩
  | none =>
      dsimp only
      cases communicated : process.communicated with
      | true =>
          rw [if_pos rfl]
          obtain ⟨exited, silent⟩ := first process there recorded communicated
          refine sound_deliver sound
            ⟨process, there, ?_, fun captured => (silent captured).symm⟩
          cases ended : process.exited with
          | none => exact absurd ended exited
          | some status => rfl
      | false =>
          rw [if_neg Bool.false_ne_true]
          refine sound_addCall (sound_modify sound fun other placed => ?_) trivial
            (fun same => by cases same)
          exact ⟨rfl, rfl, rfl, fun _ => id, fun live => ⟨⟨live.running, live.unsignalled⟩, rfl⟩,
            fun _ recorded => Or.inl recorded⟩

/-! ### Starting and closing -/

theorem sound_start (sound : Sound state) (unclosed : state.closed = false) (process : Process)
    (held : process.held = true) (fresh : process.result = none) :
    Sound { state with processes := state.processes ++ [process] } := by
  have grows : ∀ {index : Nat} {other : Process}, state.processes[index]? = some other →
      (state.processes ++ [process])[index]? = some other := by
    intro index other found
    rw [List.getElem?_append_left (List.getElem?_eq_some_iff.mp found).1]
    exact found
  have splits : ∀ {index : Nat} {other : Process},
      (state.processes ++ [process])[index]? = some other →
      state.processes[index]? = some other ∨ other = process := by
    intro index other found
    by_cases within : index < state.processes.length
    · rw [List.getElem?_append_left within] at found
      exact Or.inl found
    · rw [List.getElem?_append_right (Nat.le_of_not_lt within)] at found
      exact Or.inr (List.mem_singleton.mp (List.mem_of_getElem? found))
  refine
    { live := ?_
      phases := ?_
      closing := sound.closing
      returned := sound.returned
      recorded := ?_
      told := fun entry member => ?_ }
  · intro index other found live
    refine ⟨?_, fun closed => by cases unclosed.symm.trans closed⟩
    cases splits found with
    | inl earlier => exact (sound.live index other earlier live).1
    | inr own => exact own ▸ held
  · intro phase member
    have before := sound.phases phase member
    cases phase with
    | killWait target context =>
        obtain ⟨other, there, dead⟩ := before
        exact ⟨other, grows there, dead⟩
    | killSignal target context =>
        change target < (state.processes ++ [process]).length
        rw [List.length_append]
        exact Nat.lt_of_lt_of_le before (Nat.le_add_right _ _)
    | _ => trivial
  · intro index other result found recorded
    cases splits found with
    | inl earlier => exact sound.recorded index other result earlier recorded
    | inr own =>
        rw [own, fresh] at recorded
        cases recorded
  · obtain ⟨other, there, gives⟩ := sound.told entry member
    exact ⟨other, grows there, gives⟩

theorem mem_heldIndices {index : Nat} {process : Process}
    (found : state.processes[index]? = some process) (held : process.held = true)
    (asynchronous : process.synchronous = false) : index ∈ state.heldIndices := by
  unfold ServiceState.heldIndices
  rw [List.mem_filter, List.mem_range, found]
  exact ⟨(List.getElem?_eq_some_iff.mp found).1, by simp [held, asynchronous]⟩

theorem sound_close (sound : Sound state) :
    Sound { state with
      closed := true
      calls := state.calls ++ .closing :: state.heldIndices.map .killBegin } := by
  refine
    { live := ?_
      phases := ?_
      closing := fun _ => rfl
      returned := fun _ => rfl
      recorded := sound.recorded
      told := sound.told }
  · intro index process found live
    have held := (sound.live index process found live).1
    refine ⟨held, fun _ => ?_⟩
    cases synchronous : process.synchronous with
    | true =>
        exact ⟨.closing, List.mem_append_right _ List.mem_cons_self,
          Or.inr (Or.inr ⟨rfl, synchronous⟩)⟩
    | false =>
        refine ⟨.killBegin index, ?_, Or.inl rfl⟩
        exact List.mem_append_right _ (List.mem_cons_of_mem _
          (List.mem_map_of_mem (mem_heldIndices found held synchronous)))
  · intro phase member
    cases List.mem_append.mp member with
    | inl earlier => exact sound.phases phase earlier
    | inr own =>
        cases List.mem_cons.mp own with
        | inl closing =>
            rw [closing]
            trivial
        | inr kill =>
            obtain ⟨index, _, same⟩ := List.mem_map.mp kill
            rw [← same]
            trivial

/-- Behind the kills of `close` nothing runs that has not been sent a signal. -/
theorem sound_closeEnds (sound : Sound state) {call : Nat}
    (found : state.calls[call]? = some .closing)
    (handed : state.calls.any ServiceState.isCloseKill = false) :
    Sound { state with
      processes := state.processes.map ServiceState.clearHandle
      calls := state.calls.set call .done
      closeReturned := true } := by
  have closed := sound.closing (List.mem_of_getElem? found)
  have evolved : ∀ {index : Nat} {process : Process}, state.processes[index]? = some process →
      ¬ (ServiceState.clearHandle process).Live := by
    intro index process there live
    have was : process.Live := by
      refine ⟨live.running, ?_⟩
      have sent := live.unsignalled
      unfold ServiceState.clearHandle at sent
      dsimp only at sent
      exact (Bool.or_eq_false_iff.mp sent).1
    obtain ⟨held, covered⟩ := sound.live index process there was
    obtain ⟨phase, member, covers⟩ := covered closed
    have unkilled := List.any_eq_false.mp handed phase member
    rcases covers with same | same | ⟨_, synchronous⟩
    · exact unkilled (same ▸ rfl)
    · exact unkilled (same ▸ rfl)
    · have sent := live.unsignalled
      unfold ServiceState.clearHandle at sent
      simp [held, synchronous, was.running] at sent
  have mapped : ∀ {index : Nat} {process : Process},
      (state.processes.map ServiceState.clearHandle)[index]? =
      some process → ∃ before, state.processes[index]? = some before ∧
        ServiceState.clearHandle before = process := by
    intro index process there
    rw [List.getElem?_map] at there
    exact Option.map_eq_some_iff.mp there
  have finds : ∀ {index : Nat} {process : Process}, state.processes[index]? = some process →
      (state.processes.map ServiceState.clearHandle)[index]? =
        some (ServiceState.clearHandle process) := by
    intro index process there
    rw [List.getElem?_map, there]
    rfl
  refine
    { live := ?_
      phases := ?_
      closing := fun _ => closed
      returned := fun _ => closed
      recorded := ?_
      told := fun entry member => ?_ }
  · intro index process there live
    obtain ⟨before, was, same⟩ := mapped there
    exact absurd (same ▸ live) (evolved was)
  · intro phase member
    cases List.mem_or_eq_of_mem_set member with
    | inr own =>
        rw [own]
        trivial
    | inl earlier =>
        have before := sound.phases phase earlier
        cases phase with
        | killWait target context =>
            obtain ⟨process, there, _⟩ := before
            exact ⟨_, finds there, evolved there⟩
        | killSignal target context =>
            change target < (state.processes.map ServiceState.clearHandle).length
            rw [List.length_map]
            exact before
        | _ => trivial
  · intro index process result there recorded
    obtain ⟨before, was, same⟩ := mapped there
    rw [← same] at recorded ⊢
    exact sound.recorded index before result was recorded
  · obtain ⟨process, there, gives⟩ := sound.told entry member
    exact ⟨_, finds there, gives⟩

theorem sound_closeCancelled (sound : Sound state) {call : Nat}
    (found : state.calls[call]? = some .closing)
    (uncovered : ∀ (index : Nat) (process : Process), state.processes[index]? = some process →
      process.Live → ∀ phase ∈ state.calls, ¬ Covers phase index process) :
    Sound { state with calls := (state.calls.set call .done).map ServiceState.dropKill } := by
  have closed := sound.closing (List.mem_of_getElem? found)
  refine
    { live := ?_
      phases := ?_
      closing := fun _ => closed
      returned := sound.returned
      recorded := sound.recorded
      told := sound.told }
  · intro index process there live
    obtain ⟨_, covered⟩ := sound.live index process there live
    obtain ⟨phase, member, covers⟩ := covered closed
    exact absurd covers (uncovered index process there live phase member)
  · intro phase member
    obtain ⟨before, was, same⟩ := List.mem_map.mp member
    have ok : PhaseOk state.processes before := by
      cases List.mem_or_eq_of_mem_set was with
      | inl earlier => exact sound.phases before earlier
      | inr own =>
          rw [own]
          trivial
    rw [← same]
    unfold ServiceState.dropKill
    split
    · trivial
    · trivial
    · exact ok

/-! ### Steps -/

theorem sound_fresh : Sound .fresh where
  live := fun _ _ found => by cases found
  phases := fun _ member => by cases member
  closing := fun member => by cases member
  returned := fun returned => by cases returned
  recorded := fun _ _ _ found => by cases found
  told := fun _ member => by cases member

private theorem sound_blocked (sound : Sound state) {index : Nat} {process : Process}
    (there : state.processes[index]? = some process) :
    Sound ((if process.exited.isSome then state else state.signal index).discard index) := by
  cases exited : process.exited with
  | some status =>
      refine sound_discard sound fun other found live => ?_
      rw [there] at found
      cases found
      rw [live.running] at exited
      cases exited
  | none => exact sound_discard (sound_signal sound index) (signal_notLive index)

private theorem notLive_exited {index : Nat} {process : Process}
    (there : state.processes[index]? = some process) (exited : process.exited.isSome = true) :
    NotLive state index := by
  intro other found live
  rw [there] at found
  cases found
  rw [live.running] at exited
  cases exited

theorem step_sound {windows : Bool} {after : ServiceState} {action : ServiceAction}
    (sound : Sound state) (stepped : state.step windows action = some after)
    (clean : Clean state action) : Sound after := by
  cases action with
  | spawn run =>
      simp only [ServiceState.step] at stepped
      split at stepped
      · cases stepped
      · cases stepped
        exact sound_addCall sound trivial (fun same => by cases same)
  | spawnReturns call capture output =>
      simp only [ServiceState.step] at stepped
      split at stepped
      next run found =>
        cases stepped
        have started := sound_start sound clean
          { Process.started capture false output with communicated := run } rfl rfl
        refine sound_setCall started found (fun _ _ _ _ covers => ?_) ?_ (fun same => ?_)
        · rcases covers with same | same | ⟨same, _⟩ <;> cases same
        · cases run <;> trivial
        · cases run <;> cases same
      next => cases stepped
  | spawnFails call =>
      simp only [ServiceState.step] at stepped
      split at stepped
      next found =>
        cases stepped
        exact sound_callDone sound found (quiet_of_ne (fun _ => by simp) (by simp))
      next => cases stepped
  | spawnSync capture output =>
      simp only [ServiceState.step] at stepped
      split at stepped
      next => cases stepped
      next unclosed =>
        cases stepped
        exact sound_start sound (Bool.eq_false_iff.mpr unclosed) _ rfl rfl
  | communicate index =>
      simp only [ServiceState.step] at stepped
      split at stepped
      next process there =>
        split at stepped
        · cases stepped
        · cases stepped
          exact sound_beginCommunicate sound there clean
      next => cases stepped
  | wait index =>
      simp only [ServiceState.step] at stepped
      split at stepped
      next process there =>
        split at stepped
        · cases stepped
        · split at stepped
          next captured =>
            cases stepped
            exact sound_beginCommunicate sound there (clean process there captured)
          next =>
            cases stepped
            exact sound_addCall sound trivial (fun same => by cases same)
      next => cases stepped
  | communicateEnds call rest =>
      simp only [ServiceState.step] at stepped
      split at stepped
      next index run found =>
        split at stepped
        next process there =>
          split at stepped
          next status exited =>
            cases stepped
            exact sound_callDone (sound_finish sound there (resultOf_gives exited rest)) found
              (quiet_of_ne (fun _ => by simp) (by simp))
          next => cases stepped
        next => cases stepped
      next => cases stepped
  | waitEnds call =>
      simp only [ServiceState.step] at stepped
      split at stepped
      next index found =>
        split at stepped
        next process there =>
          split at stepped
          next status exited =>
            split at stepped
            next => cases stepped
            next uncaptured =>
              cases stepped
              have gives : process.Gives ⟨status, ""⟩ :=
                ⟨exited, fun captured => absurd captured uncaptured⟩
              exact sound_callDone (sound_finish sound there gives) found
                (quiet_of_ne (fun _ => by simp) (by simp))
          next => cases stepped
        next => cases stepped
      next => cases stepped
  | interrupt call cancelled =>
      simp only [ServiceState.step] at stepped
      split at stepped
      next index run found =>
        cases stepped
        exact sound_handleKill windows sound found (handsOver_of_quiet
          (quiet_of_ne (fun _ => by simp) (by simp)) index _)
      next index found =>
        cases stepped
        exact sound_handleKill windows sound found (handsOver_of_quiet
          (quiet_of_ne (fun _ => by simp) (by simp)) index _)
      next => cases stepped
  | communicateSync index outcome rest =>
      simp only [ServiceState.step] at stepped
      split at stepped
      next process there =>
        split at stepped
        next =>
          split at stepped
          next result recorded =>
            cases stepped
            exact sound_deliver sound
              ⟨process, there, sound.recorded index process result there recorded⟩
          next =>
            cases outcome with
            | exited =>
                dsimp only at stepped
                split at stepped
                next status exited =>
                  cases stepped
                  exact sound_finish sound there (resultOf_gives exited rest)
                next => cases stepped
            | timedOut =>
                cases stepped
                exact sound_blocked sound there
            | failed =>
                cases stepped
                exact sound_discard sound (clean rfl)
        next => cases stepped
      next => cases stepped
  | terminate index throughHandle =>
      simp only [ServiceState.step] at stepped
      split at stepped
      next process there =>
        split at stepped
        · cases stepped
        · split at stepped
          next exited =>
            cases stepped
            cases throughHandle with
            | true => exact sound
            | false => exact sound_discard sound (notLive_exited there exited)
          next =>
            cases stepped
            cases windows <;> exact sound_addCall sound trivial (fun same => by cases same)
      next => cases stepped
  | terminateSignalled call =>
      simp only [ServiceState.step] at stepped
      split at stepped
      next index found =>
        cases stepped
        refine sound_setCall sound found (fun _ _ _ _ covers => ?_) trivial
          (fun same => by cases same)
        rcases covers with same | same | ⟨same, _⟩ <;> cases same
      next => cases stepped
  | terminateFails call =>
      simp only [ServiceState.step] at stepped
      split at stepped
      next found =>
        cases stepped
        exact sound_callDone sound found (quiet_of_ne (fun _ => by simp) (by simp))
      next => cases stepped
  | terminateEnds call =>
      simp only [ServiceState.step] at stepped
      split at stepped
      next index found =>
        split at stepped
        next exited =>
          cases stepped
          exact sound_callDone (sound_discard sound (notLive_of_exited exited)) found
            (quiet_of_ne (fun _ => by simp) (by simp))
        next => cases stepped
      next => cases stepped
  | terminateTimeout call =>
      simp only [ServiceState.step] at stepped
      split at stepped
      next index found =>
        cases stepped
        exact sound_handleKill windows sound found (handsOver_of_quiet
          (quiet_of_ne (fun _ => by simp) (by simp)) index _)
      next => cases stepped
  | terminateCancelled call =>
      simp only [ServiceState.step] at stepped
      split at stepped
      next index found =>
        cases stepped
        exact sound_callDone (sound_discard sound (clean index found)) found
          (quiet_of_ne (fun _ => by simp) (by simp))
      next => cases stepped
  | terminateSync index outcome =>
      simp only [ServiceState.step] at stepped
      split at stepped
      next process there =>
        split at stepped
        next =>
          cases outcome with
          | exited =>
              dsimp only at stepped
              split at stepped
              next exited =>
                cases stepped
                exact sound_discard sound (notLive_exited there exited)
              next => cases stepped
          | timedOut =>
              cases stepped
              exact sound_blocked sound there
          | failed =>
              cases stepped
              exact sound_discard sound (clean rfl)
        next => cases stepped
      next => cases stepped
  | kill index throughHandle =>
      simp only [ServiceState.step] at stepped
      split at stepped
      next process there =>
        split at stepped
        · cases stepped
        · split at stepped
          next exited =>
            cases stepped
            cases throughHandle with
            | true => exact sound
            | false => exact sound_discard sound (notLive_exited there exited)
          next =>
            cases stepped
            have added := sound_addCall sound (show PhaseOk state.processes .done from trivial)
              (fun same => by cases same)
            have found : (state.addCall .done).calls[state.calls.length]? = some .done :=
              List.getElem?_concat_length
            exact sound_beginKill windows added found ⟨process, there⟩ (handsOver_of_quiet
              (quiet_of_ne (fun _ => by simp) (by simp)) index _)
      next => cases stepped
  | killSync index =>
      simp only [ServiceState.step] at stepped
      split at stepped
      next process there =>
        split at stepped
        next =>
          cases stepped
          exact sound_blocked sound there
        next => cases stepped
      next => cases stepped
  | signalSent call =>
      simp only [ServiceState.step] at stepped
      split at stepped
      next index context found =>
        cases stepped
        have aimed : index < state.processes.length :=
          sound.phases _ (List.mem_of_getElem? found)
        have sent := signal_finds (List.getElem?_eq_getElem aimed)
        refine sound_setCall (sound_signal sound index) found
          (fun other process placed live covers => ?_)
          ⟨_, sent, fun live => signal_notLive index _ sent live⟩ (fun same => by cases same)
        rcases covers with same | same | ⟨same, _⟩
        · cases same
        · cases same
          exact absurd live (signal_notLive _ process placed)
        · cases same
      next => cases stepped
  | signalFails call cancelled =>
      simp only [ServiceState.step] at stepped
      split at stepped
      next index context found =>
        have dead := clean index context found
        cases stepped
        cases context with
        | run =>
            cases cancelled with
            | true =>
                exact sound_handleKill windows sound found (handsOver_of_quiet
                  (quiet_of_ne (fun _ => by simp) (by simp)) index _)
            | false =>
                exact sound_leaveKill windows sound found
                  (quiet_of_ne (fun _ => by simp) (by simp)) .runFinal fun _ => dead rfl
        | runFinal =>
            exact sound_leaveKill windows sound found
              (quiet_of_ne (fun _ => by simp) (by simp)) .runFinal fun _ => dead rfl
        | terminate =>
            exact sound_leaveKill windows sound found
              (quiet_of_ne (fun _ => by simp) (by simp)) .terminate fun _ => dead rfl
        | kill =>
            exact sound_leaveKill windows sound found
              (quiet_of_ne (fun _ => by simp) (by simp)) .kill fun either => by simp at either
        | interrupted =>
            exact sound_leaveKill windows sound found
              (quiet_of_ne (fun _ => by simp) (by simp)) .interrupted
              fun either => by simp at either
        | close =>
            refine sound_leaveKill windows sound found (fun other process there live covers => ?_)
              .close fun either => by simp at either
            rcases covers with same | same | ⟨same, _⟩
            · cases same
            · cases same
              exact dead rfl process there live
            · cases same
      next => cases stepped
  | killEnds call =>
      simp only [ServiceState.step] at stepped
      split at stepped
      next index context found =>
        cases stepped
        have dead : NotLive state index := by
          obtain ⟨process, there, ended⟩ := sound.phases _ (List.mem_of_getElem? found)
          intro other placed
          rw [there] at placed
          cases placed
          exact ended
        exact sound_leaveKill windows (sound_discard sound dead) found
          (quiet_of_ne (fun _ => by simp) (by simp)) context fun _ => notLive_discard dead
      next => cases stepped
  | close =>
      simp only [ServiceState.step] at stepped
      split at stepped
      next closed =>
        cases stepped
        exact ⟨sound.live, sound.phases, sound.closing, fun _ => closed, sound.recorded,
          sound.told⟩
      next =>
        cases stepped
        exact sound_close sound
  | killBegins call =>
      simp only [ServiceState.step] at stepped
      split at stepped
      next index found =>
        cases stepped
        refine sound_handleKill windows sound found fun other process there live covers => ?_
        rcases covers with same | same | ⟨same, _⟩
        · cases same
          exact ⟨rfl, rfl⟩
        · cases same
        · cases same
      next => cases stepped
  | closeEnds call =>
      simp only [ServiceState.step] at stepped
      split at stepped
      next found =>
        split at stepped
        next => cases stepped
        next ended =>
          cases stepped
          exact sound_closeEnds sound found (Bool.eq_false_iff.mpr ended)
      next => cases stepped
  | closeCancelled call =>
      simp only [ServiceState.step] at stepped
      split at stepped
      next found =>
        cases stepped
        exact sound_closeCancelled sound found clean
      next => cases stepped
  | exit index status =>
      simp only [ServiceState.step] at stepped
      split at stepped
      next process there =>
        split at stepped
        next => cases stepped
        next running =>
          cases stepped
          refine sound_modify sound fun other placed => ?_
          rw [there] at placed
          cases placed
          refine ⟨rfl, rfl, rfl, fun before exited => ?_, fun live => ?_, fun _ recorded =>
            Or.inl recorded⟩
          · rw [exited] at running
            exact absurd rfl running
          · cases live.running
      next => cases stepped

theorem lifecycle_of_sound (sound : Sound state) : Lifecycle state where
  held := fun index process found running unsignalled =>
    (sound.live index process found ⟨running, unsignalled⟩).1
  closed := by
    intro returned idle process member
    by_contra neither
    rw [not_or, not_not, Bool.not_eq_true] at neither
    obtain ⟨index, found⟩ := List.getElem?_of_mem member
    obtain ⟨_, covered⟩ := sound.live index process found ⟨neither.1, neither.2⟩
    obtain ⟨phase, listed, covers⟩ := covered (sound.returned returned)
    rw [idle phase listed] at covers
    rcases covers with same | same | ⟨same, _⟩ <;> cases same
  results := sound.told

/-- In a run whose steps are clean the processes keep to their life in every state. -/
theorem lifecycle_kept (windows : Bool) (actions : List ServiceAction)
    (clean : (processService windows).EachStep Clean .fresh actions) :
    (processService windows).Always Lifecycle .fresh actions :=
  StepSystem.always_of_eachStep Sound (fun _ => lifecycle_of_sound)
    (fun _ _ _ sound stepped => step_sound sound stepped) sound_fresh clean

/-- A process is read to its end, and the service is closed behind it. -/
theorem read_process_kept : (processService false).Always Lifecycle .fresh
    [.spawn false, .spawnReturns 0 true "out", .communicate 0, .exit 0 3, .communicateEnds 1 "",
      .close, .closeEnds 2] := by
  apply lifecycle_kept
  refine StepSystem.eachStep_cons rfl trivial ?_
  refine StepSystem.eachStep_cons rfl rfl ?_
  refine StepSystem.eachStep_cons rfl (fun process found _ communicated => ?_) ?_
  · cases found
    cases communicated
  · refine StepSystem.eachStep_cons rfl trivial ?_
    refine StepSystem.eachStep_cons rfl trivial ?_
    refine StepSystem.eachStep_cons rfl trivial ?_
    exact StepSystem.eachStep_cons rfl trivial trivial

/-- The second caller of a handle gets a success while the process runs. -/
theorem second_caller_fabricates : ¬ (processService false).Always Lifecycle .fresh
    [.spawn false, .spawnReturns 0 true "out", .communicate 0, .communicate 0] := by
  intro always
  have law : Lifecycle _ := ((((always.2 _ rfl).2 _ rfl).2 _ rfl).2 _ rfl)
  obtain ⟨process, found, exited, _⟩ := law.results (0, ⟨0, ""⟩) (List.mem_singleton_self _)
  cases found
  cases exited

end Ftre.Processes
