import Ftre.Lib.MarkedQueue
import Ftre.Runtime.EngineStages
import Ftre.Runtime.TurnExecution

/-!
Event streams of a session's runs.
-/

namespace Ftre.Runtime

open Lib

namespace Stage

def isFinished : Stage → Bool
  | .finished _ => true
  | _ => false

/-- A stage of `run_input`. -/
def ofInput : Stage → Bool
  | .absent => true
  | .requestState => true
  | .admitting _ => true
  | .executing .input => true
  | .completing _ => true
  | .afterRun .input _ _ => true
  | .finished _ => true
  | _ => false

/-- The `finally` of `run_input` is left: the end marker is put. -/
def marksEnd : Stage → Stage → Bool
  | .admitting _, .finished .notAdmitted => true
  | .completing _, .finished .notAdmitted => true
  | .afterRun .input _ _, .finished .ran => true
  | _, _ => false

end Stage

/-- A call of `stream_input`. -/
structure EventStream where
  queue : MarkedQueue Appended := {}
  closed : Bool := false
  abandoned : Bool := false

/-- The loop of a session with its streams; a stream bears the number of the run
it starts. -/
structure StreamRun where
  engine : Engine := .idle
  /-- The session's entry of `_stream_queues`. -/
  registered : Option Nat := none
  streams : Nat → Option EventStream := fun _ => none
  appended : Nat → List Appended := fun _ => []
  inFlight : Nat → Option Appended := fun _ => none

inductive StreamAction where
  | streamInput (call : Nat)
  | engine (action : Engine.Action)
  | requestRaises (call : Nat)
  /-- `_persist_inbound_user_message` appends the message. -/
  | persists (call : Nat) (entry : Appended)
  | puts (call : Nat) (entry : Appended)
  | appends (call : Nat)
  | appendFails (call : Nat)
  | reads (call : Nat)
  | closes (call : Nat)
  | abandons (call : Nat)

namespace StreamRun

def setStream (run : StreamRun) (call : Nat) (stream : EventStream) : StreamRun :=
  { run with streams := Function.update run.streams call (some stream) }

def put (run : StreamRun) (item : Option Appended) : StreamRun :=
  match run.registered with
  | some owner =>
      match run.streams owner with
      | some stream => run.setStream owner { stream with queue := stream.queue.put item }
      | none => run
  | none => run

/-- The run of a stream enters through `run_input`. -/
def enters (run : StreamRun) : Engine.Action → Bool
  | .resumeConfirmation call _ => (run.streams call).isNone
  | .deleteSession call => (run.streams call).isNone
  | .turnEnds call _ => (run.inFlight call).isNone
  | _ => true

def moveEngine (run : StreamRun) (action : Engine.Action) : Option StreamRun :=
  if run.enters action then
    (run.engine.step action).map fun engine =>
      let moved := { run with engine := engine }
      match Engine.callOf action with
      | some call =>
          if (run.engine.calls call).marksEnd (engine.calls call) then moved.put none else moved
      | none => moved
  else none

def step (run : StreamRun) : StreamAction → Option StreamRun
  | .streamInput call =>
      match run.registered, run.streams call, run.engine.calls call with
      | none, none, .absent =>
          some { run.setStream call {} with registered := some call }
      | _, _, _ => none
  | .engine action => run.moveEngine action
  | .requestRaises call =>
      match run.engine.calls call with
      | .requestState =>
          some { run with engine := run.engine.setStage call (.finished .notAdmitted) }
      | _ => none
  | .persists call entry =>
      match run.engine.calls call with
      | .admitting .persisting =>
          some { run with
            appended := Function.update run.appended call (run.appended call ++ [entry]) }
      | _ => none
  | .puts call entry =>
      match run.engine.calls call, run.inFlight call with
      | .executing _, none =>
          some { run.put (some entry) with
            inFlight := Function.update run.inFlight call (some entry) }
      | _, _ => none
  | .appends call =>
      match run.inFlight call with
      | some entry =>
          some { run with
            appended := Function.update run.appended call (run.appended call ++ [entry])
            inFlight := Function.update run.inFlight call none }
      | none => none
  | .appendFails call =>
      match run.inFlight call with
      | some _ => some { run with inFlight := Function.update run.inFlight call none }
      | none => none
  | .reads call =>
      match run.streams call with
      | some stream =>
          if stream.abandoned then none
          else stream.queue.take.map fun queue => run.setStream call { stream with queue := queue }
      | none => none
  | .closes call =>
      match run.streams call with
      | some stream =>
          if stream.queue.ended && !stream.closed && !stream.abandoned &&
              (run.engine.calls call).isFinished then
            some { run.setStream call { stream with closed := true } with registered := none }
          else none
      | none => none
  | .abandons call =>
      match run.streams call with
      | some stream =>
          if stream.closed || stream.abandoned then none
          else
            some { run.setStream call { stream with abandoned := true } with registered := none }
      | none => none

def system : StepSystem StreamRun StreamAction := ⟨step⟩

def Streaming (run : StreamRun) (call : Nat) : Prop :=
  ∃ stream, run.streams call = some stream ∧ stream.abandoned = false

/-- What a stream gives of its run. -/
structure StreamLaw (run : StreamRun) : Prop where
  yields : ∀ call stream, run.streams call = some stream → stream.abandoned = false →
    stream.queue.read <+: run.appended call ++ (run.inFlight call).toList
  ends : ∀ call stream, run.streams call = some stream → stream.abandoned = false →
    stream.queue.ended = true →
      (run.engine.calls call).isFinished = true ∧ stream.queue.read = run.appended call
  terminates : ∀ call stream, run.streams call = some stream → stream.abandoned = false →
    (run.engine.calls call).isFinished = true →
      ∃ queue, Relation.ReflTransGen (fun before next => before.take = some next) stream.queue
        queue ∧ queue.ended = true

def OthersQuiet (run : StreamRun) (call : Nat) : Prop :=
  ∀ owner, run.registered = some owner → owner = call

def Passes (run : StreamRun) (action : Engine.Action) : Prop :=
  ∀ call duplicate, action = .requestStateRead call duplicate → run.Streaming call →
    duplicate = none ∧ run.engine.isActiveSession = false

/-- The run of a stream passes its checks with the user's message in the history,
none of its appends fails and its task is not cancelled in the after-run hook;
while the stream is open no other run appends an event or comes to its end. -/
def Alone (run : StreamRun) : StreamAction → Prop
  | .engine action =>
      run.Passes action ∧
      (∀ call, action = .hookInterrupted call ∨ action = .hookCancelled call →
        ¬ run.Streaming call) ∧
      ∀ call after, Engine.callOf action = some call → run.engine.step action = some after →
        (run.engine.calls call).marksEnd (after.calls call) = true → run.OthersQuiet call
  | .requestRaises call => ¬ run.Streaming call
  | .persists call _ => ¬ run.Streaming call
  | .puts call _ => run.OthersQuiet call
  | .appendFails call => ¬ run.Streaming call
  | _ => True

structure Live (run : StreamRun) (call : Nat) (stream : EventStream) : Prop where
  input : (run.engine.calls call).ofInput = true
  registered : stream.closed = false → run.registered = some call
  returned : stream.closed = true → (run.engine.calls call).isFinished = true
  idle : (∀ entry, run.engine.calls call ≠ .executing entry) → run.inFlight call = none
  carries : stream.queue.Carries (run.appended call ++ (run.inFlight call).toList)
    (run.engine.calls call).isFinished

theorem Live.congr {run other : StreamRun} {call : Nat} {stream : EventStream}
    (live : run.Live call stream) (stage : other.engine.calls call = run.engine.calls call)
    (registered : other.registered = run.registered)
    (appended : other.appended call = run.appended call)
    (inFlight : other.inFlight call = run.inFlight call) : other.Live call stream where
  input := stage ▸ live.input
  registered open' := registered.trans (live.registered open')
  returned closed := by rw [stage]; exact live.returned closed
  idle outside := by
    rw [inFlight]
    exact live.idle fun entry executing => outside entry (stage.trans executing)
  carries := by
    rw [stage, appended, inFlight]
    exact live.carries

structure Sound (run : StreamRun) : Prop where
  live : ∀ call stream, run.streams call = some stream → stream.abandoned = false →
    run.Live call stream
  owner : ∀ call, run.registered = some call →
    ∃ stream, run.streams call = some stream ∧ stream.abandoned = false ∧ stream.closed = false
  unborn : ∀ call, run.engine.calls call = .absent →
    run.appended call = [] ∧ run.inFlight call = none

private theorem idle_finished {stage : Stage} (finished : stage.isFinished = true) (entry : Entry) :
    stage ≠ .executing entry := by
  rintro rfl
  cases finished

theorem Sound.law {run : StreamRun} (sound : run.Sound) : run.StreamLaw where
  yields call stream opened here := (sound.live call stream opened here).carries.isPrefix
  ends call stream opened here ended := by
    have live := sound.live call stream opened here
    obtain ⟨finished, whole⟩ := live.carries.ended ended
    refine ⟨finished, ?_⟩
    rw [live.idle (idle_finished finished)] at whole
    exact whole.trans (List.append_nil _)
  terminates call stream opened here finished := by
    have live := sound.live call stream opened here
    have carries := live.carries
    rw [finished] at carries
    exact carries.drains

/-! ### Steps of the loop -/

variable {before after : Engine} {action : Engine.Action}

private theorem step_absent {call : Nat} (absent : before.calls call = .absent)
    (named : Engine.callOf action = some call) (stepped : before.step action = some after) :
    action = .runInput call ∨ (∃ hasEvents, action = .resumeConfirmation call hasEvents) ∨
      action = .deleteSession call := by
  cases action with
  | runInput other => cases named; exact Or.inl rfl
  | resumeConfirmation other hasEvents => cases named; exact Or.inr (Or.inl ⟨hasEvents, rfl⟩)
  | deleteSession other => cases named; exact Or.inr (Or.inr rfl)
  | _ => cases named <;> simp only [Engine.step, absent, reduceCtorEq] at stepped

private theorem step_requestState {call : Nat} (stands : before.calls call = .requestState)
    (named : Engine.callOf action = some call) (stepped : before.step action = some after) :
    ∃ duplicate, action = .requestStateRead call duplicate := by
  cases action with
  | requestStateRead other duplicate => cases named; exact ⟨duplicate, rfl⟩
  | _ => cases named <;> simp only [Engine.step, stands, reduceCtorEq] at stepped

private theorem step_afterRun {call since : Nat} {entry : Entry} {point : HookPoint}
    (stands : before.calls call = .afterRun entry since point)
    (named : Engine.callOf action = some call) (stepped : before.step action = some after)
    (left : (after.calls call).isFinished = true) :
    after.calls call = .finished .ran ∨ action = .hookInterrupted call ∨
      action = .hookCancelled call := by
  have stays : ∀ {engine : Engine} {stage : Stage}, engine.setStage call stage = after →
      stage.isFinished = false → False := by
    rintro engine stage rfl running
    change (Function.update engine.calls call stage call).isFinished = true at left
    rw [Function.update_self, running] at left
    cases left
  cases action with
  | hookLeft other =>
      cases named
      simp only [Engine.step, stands] at stepped
      split at stepped
      · rename_i own _ _
        cases stepped
        left
        cases own <;> exact Function.update_self call _ before.calls
      · cases stepped
  | hookInterrupted other => cases named; exact Or.inr (Or.inl rfl)
  | hookCancelled other => cases named; exact Or.inr (Or.inr rfl)
  | hookReached other configured =>
      cases named
      simp only [Engine.step, stands] at stepped
      split at stepped
      · split at stepped
        · exact (stays (Option.some.inj stepped) rfl).elim
        · exact (stays (Option.some.inj stepped) rfl).elim
      · cases stepped
  | hookAnswered other needed =>
      cases named
      simp only [Engine.step, stands] at stepped
      split at stepped
      · split at stepped
        · exact (stays (Option.some.inj stepped) rfl).elim
        · exact (stays (Option.some.inj stepped) rfl).elim
      · cases stepped
  | hookResumed other failed =>
      cases named
      simp only [Engine.step, stands] at stepped
      split at stepped
      · split at stepped
        · cases stepped
        · split at stepped
          · exact (stays (Option.some.inj stepped) rfl).elim
          · exact (stays (Option.some.inj stepped) rfl).elim
      · cases stepped
  | hookRechecked other =>
      cases named
      simp only [Engine.step, stands] at stepped
      split at stepped
      · exact (stays (Option.some.inj stepped) rfl).elim
      · cases stepped
  | _ => cases named <;> simp only [Engine.step, stands, reduceCtorEq] at stepped

private theorem admits {call : Nat} (stands : before.calls call = .requestState)
    (inactive : before.isActiveSession = false)
    (stepped : before.step (.requestStateRead call none) = some after) :
    after.calls call = .admitting .validating := by
  simp only [Engine.step, stands] at stepped
  cases stepped
  unfold Engine.checkInput
  dsimp only
  rw [inactive]
  exact Function.update_self call _ before.calls

variable {run : StreamRun} {action : Engine.Action} {call : Nat} {stream : EventStream}

/-- The run of a stream goes on along `run_input`, and returns where it puts the
end marker. -/
private theorem own_step {run : StreamRun} {action : Engine.Action} {engine : Engine} {call : Nat}
    (streaming : run.Streaming call) (enters : run.enters action = true)
    (passes : run.Passes action)
    (unhooked : ∀ call, action = .hookInterrupted call ∨ action = .hookCancelled call →
      ¬ run.Streaming call)
    (input : (run.engine.calls call).ofInput = true)
    (stepped : run.engine.step action = some engine) :
    (engine.calls call).ofInput = true ∧ (engine.calls call).isFinished =
      ((run.engine.calls call).isFinished ||
        (run.engine.calls call).marksEnd (engine.calls call)) := by
  rcases @Engine.step_follows _ _ _ call stepped with same | ⟨named, follows⟩
  · rw [same]
    refine ⟨input, ?_⟩
    cases stands : run.engine.calls call with
    | afterRun entry since point => cases entry <;> rfl
    | _ => rfl
  obtain ⟨stream, opened, here⟩ := streaming
  cases stands : run.engine.calls call with
  | absent =>
      rcases step_absent stands named stepped with rfl | ⟨hasEvents, rfl⟩ | rfl
      · have next : engine.calls call = .requestState := by
          simp only [Engine.step, stands] at stepped
          cases stepped
          exact Function.update_self call _ run.engine.calls
        rw [next]
        exact ⟨rfl, rfl⟩
      · have vacant : (run.streams call).isNone = true := enters
        rw [opened] at vacant
        cases vacant
      · have vacant : (run.streams call).isNone = true := enters
        rw [opened] at vacant
        cases vacant
  | requestState =>
      obtain ⟨duplicate, rfl⟩ := step_requestState stands named stepped
      obtain ⟨rfl, inactive⟩ := passes call duplicate rfl ⟨stream, opened, here⟩
      rw [admits stands inactive stepped]
      exact ⟨rfl, rfl⟩
  | admitting point =>
      rw [stands] at follows
      cases next : engine.calls call with
      | admitting later => exact ⟨rfl, rfl⟩
      | completing executed => exact ⟨rfl, rfl⟩
      | executing entry =>
          rw [next] at follows
          cases entry with
          | input => exact ⟨rfl, rfl⟩
          | confirmation => cases follows
      | finished outcome =>
          rw [next] at follows
          cases outcome with
          | notAdmitted => exact ⟨rfl, rfl⟩
          | _ => cases follows
      | _ => rw [next] at follows; cases follows
  | executing entry =>
      rw [stands] at follows input
      cases entry with
      | confirmation => cases input
      | input =>
          cases next : engine.calls call with
          | completing executed => exact ⟨rfl, rfl⟩
          | afterRun entry since point =>
              rw [next] at follows
              cases entry with
              | input => exact ⟨rfl, rfl⟩
              | confirmation => cases follows
          | _ => rw [next] at follows; cases follows
  | completing executed =>
      rw [stands] at follows
      cases next : engine.calls call with
      | afterRun entry since point =>
          rw [next] at follows
          cases entry with
          | input => exact ⟨rfl, rfl⟩
          | confirmation => cases follows
      | finished outcome =>
          rw [next] at follows
          cases outcome with
          | notAdmitted => exact ⟨rfl, rfl⟩
          | _ => cases follows
      | _ => rw [next] at follows; cases follows
  | afterRun entry since point =>
      cases left : (engine.calls call).isFinished with
      | true =>
          rcases step_afterRun stands named stepped left with ran | hooked
          · rw [stands] at input
            rw [ran]
            cases entry with
            | input => exact ⟨rfl, rfl⟩
            | confirmation => cases input
          · exact absurd ⟨stream, opened, here⟩ (unhooked call hooked)
      | false =>
          rw [stands] at follows input
          cases entry with
          | confirmation => cases input
          | input =>
              cases next : engine.calls call with
              | afterRun entry since point =>
                  rw [next] at follows
                  cases entry with
                  | input => exact ⟨rfl, rfl⟩
                  | confirmation => cases follows
              | finished outcome => rw [next] at left; cases left
              | _ => rw [next] at follows; cases follows
  | finished outcome => rw [stands] at follows; cases follows
  | resolving point => rw [stands] at input; cases input
  | deleting point => rw [stands] at input; cases input

private theorem absent_before {before after : Engine} (stepped : before.step action = some after)
    (absent : after.calls call = .absent) : before.calls call = .absent := by
  rcases @Engine.step_follows _ _ _ call stepped with same | ⟨_, follows⟩
  · exact same.symm.trans absent
  · rw [absent, Stage.follows_absent] at follows
    cases follows

private theorem live_moves {run : StreamRun} {action : Engine.Action} {engine : Engine} {call : Nat}
    {stream : EventStream} (live : run.Live call stream) (enters : run.enters action = true)
    (stepped : run.engine.step action = some engine)
    (input : (engine.calls call).ofInput = true)
    {marked : Bool} (queue : MarkedQueue Appended)
    (finished : (engine.calls call).isFinished = ((run.engine.calls call).isFinished || marked))
    (carries : queue.Carries (run.appended call ++ (run.inFlight call).toList)
      ((run.engine.calls call).isFinished || marked)) :
    Live { run with engine := engine } call { stream with queue := queue } where
  input := input
  registered := live.registered
  returned closed := by
    change (engine.calls call).isFinished = true
    rw [finished, live.returned closed, Bool.true_or]
  idle outside := by
    by_cases executing : ∃ entry, run.engine.calls call = .executing entry
    · obtain ⟨entry, executing⟩ := executing
      rcases Engine.step_executing stepped executing with still | ⟨tells, rfl, _⟩
      · exact absurd still (outside entry)
      · exact Option.isNone_iff_eq_none.mp enters
    · push Not at executing
      exact live.idle executing
  carries := by
    change queue.Carries (run.appended call ++ _) (engine.calls call).isFinished
    rw [finished]
    exact carries

theorem put_free (free : run.registered = none) (item : Option Appended) : run.put item = run := by
  unfold StreamRun.put
  rw [free]

theorem put_owner {owner : Nat} (registered : run.registered = some owner)
    (opened : run.streams owner = some stream) (item : Option Appended) :
    run.put item = run.setStream owner { stream with queue := stream.queue.put item } := by
  unfold StreamRun.put
  rw [registered]
  dsimp only
  rw [opened]

private theorem sound_engine {before after : StreamRun} (sound : before.Sound)
    (alone : Alone before (.engine action)) (stepped : before.moveEngine action = some after) :
    after.Sound := by
  unfold moveEngine at stepped
  obtain ⟨enters, stepped⟩ := Option.ite_none_right_eq_some.mp stepped
  obtain ⟨engine, moved, rfl⟩ := Option.map_eq_some_iff.mp stepped
  obtain ⟨passes, unhooked, quiet⟩ := alone
  have own : ∀ call stream, before.streams call = some stream → stream.abandoned = false →
      (engine.calls call).ofInput = true ∧ (engine.calls call).isFinished =
        ((before.engine.calls call).isFinished ||
          (before.engine.calls call).marksEnd (engine.calls call)) :=
    fun call stream opened here => own_step ⟨stream, opened, here⟩ enters passes unhooked
      (sound.live call stream opened here).input moved
  have unborn : ∀ call, engine.calls call = .absent →
      before.appended call = [] ∧ before.inFlight call = none :=
    fun call absent => sound.unborn call (absent_before moved absent)
  -- A run that puts no end marker leaves its stream as it is.
  have silent : ∀ call stream, before.streams call = some stream → stream.abandoned = false →
      (before.engine.calls call).marksEnd (engine.calls call) = false →
        Live { before with engine := engine } call stream := by
    intro call stream opened here unmarked
    obtain ⟨input, finished⟩ := own call stream opened here
    rw [unmarked] at finished
    refine live_moves (sound.live call stream opened here) enters moved input stream.queue finished ?_
    rw [Bool.or_false]
    exact (sound.live call stream opened here).carries
  have unmarks : ∀ call, Engine.callOf action ≠ some call →
      (before.engine.calls call).marksEnd (engine.calls call) = false := by
    intro call apart
    rw [Engine.step_frame moved apart]
    cases before.engine.calls call with
    | afterRun entry since point => cases entry <;> rfl
    | _ => rfl
  cases named : Engine.callOf action with
  | none =>
      refine ⟨fun call stream opened here => ?_, sound.owner, unborn⟩
      exact silent call stream opened here (unmarks call (by rw [named]; exact nofun))
  | some call =>
      have others : ∀ other, other ≠ call →
          (before.engine.calls other).marksEnd (engine.calls other) = false := by
        intro other apart
        refine unmarks other fun same => apart ?_
        rw [named] at same
        exact (Option.some.inj same).symm
      dsimp only
      by_cases marks : (before.engine.calls call).marksEnd (engine.calls call) = true
      · rw [if_pos marks]
        have only := quiet call engine named moved marks
        by_cases free : before.registered = none
        · rw [@put_free { before with engine := engine } free]
          refine ⟨fun other stream opened here => ?_, sound.owner, unborn⟩
          refine silent other stream opened here ?_
          by_cases same : other = call
          · subst same
            -- A stream out of the table was left behind its run.
            have live := sound.live other stream opened here
            cases closed : stream.closed with
            | false =>
                rw [live.registered closed] at free
                cases free
            | true =>
                have returned := live.returned closed
                cases stands : before.engine.calls other with
                | finished outcome => rfl
                | _ => rw [stands] at returned; cases returned
          · exact others other same
        · obtain ⟨owner, registered⟩ := Option.ne_none_iff_exists'.mp free
          obtain rfl := only owner registered
          obtain ⟨stream, opened, here, unclosed⟩ := sound.owner owner registered
          rw [@put_owner { before with engine := engine } stream owner registered opened]
          obtain ⟨input, finished⟩ := own owner stream opened here
          have live := sound.live owner stream opened here
          refine ⟨fun other held opened' here' => ?_, fun other named' => ?_, unborn⟩
          · by_cases same : other = owner
            · subst same
              have updated := opened'
              simp only [setStream, Function.update_self, Option.some.injEq] at updated
              subst updated
              have running : (before.engine.calls other).isFinished = false := by
                cases stands : before.engine.calls other with
                | finished outcome => rw [stands] at marks; cases marks
                | _ => rfl
              rw [marks] at finished
              refine (live_moves live enters moved input (stream.queue.put none) finished ?_).congr
                rfl rfl rfl rfl
              have carries := live.carries
              rw [running] at carries ⊢
              exact carries.mark
            · have kept := opened'
              simp only [setStream, Function.update_of_ne same] at kept
              exact (silent other held kept here' (others other same)).congr rfl rfl rfl rfl
          · obtain rfl : owner = other := Option.some.inj (registered.symm.trans named')
            exact ⟨_, Function.update_self _ _ _, here, unclosed⟩
      · rw [if_neg marks]
        refine ⟨fun other stream opened here => ?_, sound.owner, unborn⟩
        refine silent other stream opened here ?_
        by_cases same : other = call
        · rw [same]
          exact Bool.eq_false_iff.mpr marks
        · exact others other same

/-! ### Steps of the runs and the streams -/

private theorem sound_streamInput (sound : run.Sound) (free : run.registered = none)
    (absent : run.engine.calls call = .absent) :
    Sound { run.setStream call {} with registered := some call } := by
  refine ⟨fun other stream opened here => ?_, fun other named => ?_, sound.unborn⟩
  · by_cases same : other = call
    · subst same
      simp only [setStream, Function.update_self, Option.some.injEq] at opened
      subst opened
      obtain ⟨nothing, idle⟩ := sound.unborn other absent
      refine ⟨?_, fun _ => rfl, nofun, fun _ => idle, ?_⟩
      · change (run.engine.calls other).ofInput = true
        rw [absent]
        rfl
      · change MarkedQueue.Carries {} (run.appended other ++ (run.inFlight other).toList)
          (run.engine.calls other).isFinished
        rw [nothing, idle, absent]
        exact MarkedQueue.carries_new
    · simp only [setStream, Function.update_of_ne same] at opened
      have live := sound.live other stream opened here
      refine ⟨live.input, fun unclosed => ?_, live.returned, live.idle, live.carries⟩
      rw [live.registered unclosed] at free
      cases free
  · cases named
    exact ⟨_, Function.update_self _ _ _, rfl, rfl⟩

private theorem registered_of_executing {own : Entry} (live : run.Live call stream)
    (executing : run.engine.calls call = .executing own) : run.registered = some call := by
  refine live.registered (Bool.eq_false_iff.mpr fun closed => ?_)
  have returned := live.returned closed
  rw [executing] at returned
  cases returned

private theorem sound_puts {entry : Appended} {own : Entry} (sound : run.Sound)
    (quiet : run.OthersQuiet call) (executing : run.engine.calls call = .executing own)
    (idle : run.inFlight call = none) :
    Sound { run.put (some entry) with
      inFlight := Function.update run.inFlight call (some entry) } := by
  have unborn : ∀ other, run.engine.calls other = .absent → run.appended other = [] ∧
      Function.update run.inFlight call (some entry) other = none := by
    intro other absent
    have apart : other ≠ call := by
      rintro rfl
      rw [executing] at absent
      cases absent
    rw [Function.update_of_ne apart]
    exact sound.unborn other absent
  by_cases free : run.registered = none
  · rw [put_free free]
    refine ⟨fun other stream opened here => ?_, sound.owner, unborn⟩
    have live := sound.live other stream opened here
    have apart : other ≠ call := by
      rintro rfl
      rw [registered_of_executing live executing] at free
      cases free
    exact live.congr rfl rfl rfl (Function.update_of_ne apart _ _)
  · obtain ⟨owner, registered⟩ := Option.ne_none_iff_exists'.mp free
    obtain rfl := quiet owner registered
    obtain ⟨stream, opened, here, unclosed⟩ := sound.owner owner registered
    rw [put_owner registered opened]
    refine ⟨fun other held opened' here' => ?_, fun other named => ?_, unborn⟩
    · by_cases same : other = owner
      · subst same
        simp only [setStream, Function.update_self, Option.some.injEq] at opened'
        subst opened'
        have live := sound.live other stream opened here
        refine ⟨live.input, live.registered, live.returned, fun outside => ?_, ?_⟩
        · exact absurd executing (outside own)
        · have carries := live.carries
          rw [executing, idle] at carries
          change (stream.queue.put (some entry)).Carries (run.appended other ++
            (Function.update run.inFlight other (some entry) other).toList)
              (run.engine.calls other).isFinished
          rw [Function.update_self, executing]
          have put := carries.put entry
          rw [Option.toList_none, List.append_nil] at put
          exact put
      · simp only [setStream, Function.update_of_ne same] at opened'
        exact (sound.live other held opened' here').congr rfl rfl rfl
          (Function.update_of_ne same _ _)
    · obtain rfl : owner = other := Option.some.inj (registered.symm.trans named)
      exact ⟨_, Function.update_self _ _ _, here, unclosed⟩

private theorem sound_appends {entry : Appended} (sound : run.Sound)
    (flying : run.inFlight call = some entry) :
    Sound { run with
      appended := Function.update run.appended call (run.appended call ++ [entry])
      inFlight := Function.update run.inFlight call none } := by
  refine ⟨fun other stream opened here => ?_, sound.owner, fun other absent => ?_⟩
  · have live := sound.live other stream opened here
    by_cases same : other = call
    · subst same
      refine ⟨live.input, live.registered, live.returned, fun _ => Function.update_self _ _ _, ?_⟩
      change stream.queue.Carries (Function.update run.appended other _ other ++
        (Function.update run.inFlight other none other).toList) _
      rw [Function.update_self, Function.update_self, Option.toList_none, List.append_nil]
      have carries := live.carries
      rw [flying] at carries
      exact carries
    · exact live.congr rfl rfl (Function.update_of_ne same _ _) (Function.update_of_ne same _ _)
  · have apart : other ≠ call := by
      rintro rfl
      rw [(sound.unborn other absent).2] at flying
      cases flying
    dsimp only
    rw [Function.update_of_ne apart, Function.update_of_ne apart]
    exact sound.unborn other absent

private theorem sound_elsewhere (sound : run.Sound) (unstreamed : ¬ run.Streaming call)
    (stage : Stage) (events : List Appended) (flying : Option Appended) (born : stage ≠ .absent) :
    Sound { run with
      engine := { run.engine with calls := Function.update run.engine.calls call stage }
      appended := Function.update run.appended call events
      inFlight := Function.update run.inFlight call flying } := by
  refine ⟨fun other stream opened here => ?_, sound.owner, fun other absent => ?_⟩
  · have apart : other ≠ call := by
      rintro rfl
      exact unstreamed ⟨stream, opened, here⟩
    exact (sound.live other stream opened here).congr (Function.update_of_ne apart _ _) rfl
      (Function.update_of_ne apart _ _) (Function.update_of_ne apart _ _)
  · have apart : other ≠ call := by
      rintro rfl
      exact born ((Function.update_self _ _ _).symm.trans absent)
    dsimp only at absent ⊢
    rw [Function.update_of_ne apart] at absent ⊢
    rw [Function.update_of_ne apart]
    exact sound.unborn other absent

private theorem sound_reads {queue : MarkedQueue Appended} (sound : run.Sound)
    (opened : run.streams call = some stream) (here : stream.abandoned = false)
    (taken : stream.queue.take = some queue) :
    Sound (run.setStream call { stream with queue := queue }) := by
  have live := sound.live call stream opened here
  refine ⟨fun other held opened' here' => ?_, fun other named => ?_, sound.unborn⟩
  · by_cases same : other = call
    · subst same
      simp only [setStream, Function.update_self, Option.some.injEq] at opened'
      subst opened'
      exact ⟨live.input, live.registered, live.returned, live.idle, live.carries.take taken⟩
    · simp only [setStream, Function.update_of_ne same] at opened'
      exact (sound.live other held opened' here').congr rfl rfl rfl rfl
  · obtain ⟨held, opened', here', unclosed⟩ := sound.owner other named
    by_cases same : other = call
    · subst same
      rw [opened] at opened'
      cases opened'
      exact ⟨_, Function.update_self _ _ _, here, unclosed⟩
    · exact ⟨held, (Function.update_of_ne same _ _).trans opened', here', unclosed⟩

private theorem sound_leaves (sound : run.Sound) (registered : run.registered = some call)
    (lives : stream.abandoned = false → Live { run with registered := none } call stream) :
    Sound { run.setStream call stream with registered := none } := by
  refine ⟨fun other held opened here => ?_, nofun, sound.unborn⟩
  by_cases same : other = call
  · subst same
    simp only [setStream, Function.update_self, Option.some.injEq] at opened
    subst opened
    exact (lives here).congr rfl rfl rfl rfl
  · simp only [setStream, Function.update_of_ne same] at opened
    have live := sound.live other held opened here
    refine ⟨live.input, fun unclosed => ?_, live.returned, live.idle, live.carries⟩
    exact absurd (Option.some.inj ((live.registered unclosed).symm.trans registered)) same

theorem sound_step {before after : StreamRun} {action : StreamAction} (sound : before.Sound)
    (alone : Alone before action) (stepped : system.step before action = some after) :
    after.Sound := by
  cases action with
  | streamInput call =>
      simp only [system, step] at stepped
      split at stepped
      · rename_i free _ absent
        cases stepped
        exact sound_streamInput sound free absent
      · cases stepped
  | engine action => exact sound_engine sound alone stepped
  | requestRaises call =>
      simp only [system, step] at stepped
      split at stepped
      · cases stepped
        have moved := sound_elsewhere sound alone (.finished .notAdmitted) (before.appended call)
          (before.inFlight call) nofun
        rw [Function.update_eq_self, Function.update_eq_self] at moved
        exact moved
      · cases stepped
  | persists call entry =>
      simp only [system, step] at stepped
      split at stepped
      · rename_i stands
        cases stepped
        have moved := sound_elsewhere sound alone (.admitting .persisting)
          (before.appended call ++ [entry]) (before.inFlight call) nofun
        rw [← stands, Function.update_eq_self, Function.update_eq_self] at moved
        exact moved
      · cases stepped
  | puts call entry =>
      simp only [system, step] at stepped
      split at stepped
      · rename_i executing idle
        cases stepped
        exact sound_puts sound alone executing idle
      · cases stepped
  | appends call =>
      simp only [system, step] at stepped
      split at stepped
      · rename_i flying
        cases stepped
        exact sound_appends sound flying
      · cases stepped
  | appendFails call =>
      simp only [system, step] at stepped
      split at stepped
      · rename_i flying
        cases stepped
        have born : before.engine.calls call ≠ .absent := by
          intro absent
          rw [(sound.unborn call absent).2] at flying
          cases flying
        have moved := sound_elsewhere sound alone (before.engine.calls call)
          (before.appended call) none born
        rw [Function.update_eq_self, Function.update_eq_self] at moved
        exact moved
      · cases stepped
  | reads call =>
      simp only [system, step] at stepped
      split at stepped
      · rename_i stream opened
        obtain ⟨here, stepped⟩ := Option.ite_none_left_eq_some.mp stepped
        obtain ⟨queue, taken, rfl⟩ := Option.map_eq_some_iff.mp stepped
        exact sound_reads sound opened (Bool.eq_false_iff.mpr here) taken
      · cases stepped
  | closes call =>
      simp only [system, step] at stepped
      split at stepped
      · rename_i stream opened
        obtain ⟨allowed, same⟩ := Option.ite_none_right_eq_some.mp stepped
        cases same
        rw [Bool.and_eq_true, Bool.and_eq_true, Bool.and_eq_true, Bool.not_eq_true',
          Bool.not_eq_true'] at allowed
        obtain ⟨⟨⟨_, unclosed⟩, here⟩, returned⟩ := allowed
        have live := sound.live call stream opened here
        exact sound_leaves sound (live.registered unclosed) fun _ =>
          ⟨live.input, nofun, fun _ => returned, live.idle, live.carries⟩
      · cases stepped
  | abandons call =>
      simp only [system, step] at stepped
      split at stepped
      · rename_i stream opened
        obtain ⟨allowed, same⟩ := Option.ite_none_left_eq_some.mp stepped
        cases same
        rw [Bool.or_eq_true, not_or, Bool.not_eq_true, Bool.not_eq_true] at allowed
        have live := sound.live call stream opened allowed.2
        exact sound_leaves sound (live.registered allowed.1) nofun
      · cases stepped

/-- In every run whose streams are alone on their session, every stream yields
the events of its run and ends once the run has returned. -/
theorem streamLaw_of_alone {run : StreamRun} (reached : system.Reaches Alone {} run) :
    run.StreamLaw := by
  have initially : Sound {} :=
    { live := fun _ _ opened => by cases opened
      owner := fun _ registered => by cases registered
      unborn := fun _ _ => ⟨rfl, rfl⟩ }
  have sound := reached.invariant initially fun _ _ _ sound alone stepped =>
    sound_step sound alone stepped
  exact sound.law

/-- The request was processed before: `run_input` returns without the end marker, and the reader
waits. -/
theorem processed_request_never_ends :
    ∃ run, system.Reaches StepSystem.anyStep {} run ∧
      (∃ stream, run.streams 0 = some stream ∧ stream.queue.take = none ∧
        stream.queue.ended = false) ∧
      run.engine.calls 0 = .finished (.duplicate "completed") ∧ ¬ run.StreamLaw := by
  have ran : ∃ run, system.run {} [.streamInput 0, .engine (.runInput 0),
      .engine (.requestStateRead 0 (some "completed"))] = some run ∧
        run.streams 0 = some {} ∧
          run.engine.calls 0 = .finished (.duplicate "completed") := ⟨_, rfl, rfl, rfl⟩
  obtain ⟨run, ran, opened, returned⟩ := ran
  refine ⟨run, StepSystem.reaches_of_run ran, ⟨{}, opened, rfl, rfl⟩, returned, fun law => ?_⟩
  obtain ⟨queue, reads, ended⟩ := law.terminates 0 {} opened rfl (by rw [returned]; rfl)
  -- The queue is empty, so that no read is possible.
  rcases Relation.ReflTransGen.cases_head reads with same | ⟨next, taken, _⟩
  · rw [← same] at ended
    cases ended
  · cases taken

private def turnStarted : Appended :=
  ⟨some "turn-1", .turnStart ⟨"turn-1", "request-1", "user", "", "default", ""⟩⟩

private theorem alone_engine {run : StreamRun} {action : Engine.Action}
    (registered : run.registered = some 0) (own : Engine.callOf action = some 0)
    (passes : run.Passes action)
    (unhindered : ∀ call, ¬ (action = .hookInterrupted call ∨ action = .hookCancelled call)) :
    Alone run (.engine action) := by
  refine ⟨passes, fun call hook => absurd hook (unhindered call), ?_⟩
  intro call after named _ _ owner held
  cases own.symm.trans named
  exact (Option.some.inj (registered.symm.trans held)).symm

/-- One event and the end of the run are read from the stream. -/
theorem new_request_streams_its_turn :
    ∃ run, system.Reaches Alone {} run ∧
      (∃ stream, run.streams 0 = some stream ∧ stream.queue.read = [turnStarted] ∧
        stream.queue.ended = true ∧ stream.closed = true) ∧ run.StreamLaw := by
  refine ⟨?final, ?run, ?stream, streamLaw_of_alone ?run⟩
  case run =>
    refine .head (.streamInput 0) trivial rfl ?_
    refine .head (.engine (.runInput 0)) (alone_engine rfl rfl nofun nofun) rfl ?_
    refine .head (.engine (.requestStateRead 0 none))
      (alone_engine rfl rfl (fun call duplicate same _ => by
        cases same
        exact ⟨rfl, rfl⟩) nofun) rfl ?_
    iterate 5
      refine .head (.engine (.admissionAdvances 0)) (alone_engine rfl rfl nofun nofun) rfl ?_
    refine .head (.puts 0 turnStarted) (fun owner held => (Option.some.inj held).symm) rfl ?_
    refine .head (.reads 0) trivial rfl ?_
    refine .head (.appends 0) trivial rfl ?_
    refine .head (.engine (.turnEnds 0 false)) (alone_engine rfl rfl nofun nofun) rfl ?_
    refine .head (.engine (.hookReached 0 false)) (alone_engine rfl rfl nofun nofun) rfl ?_
    refine .head (.engine (.hookLeft 0)) (alone_engine rfl rfl nofun nofun) rfl ?_
    refine .head (.reads 0) trivial rfl ?_
    refine .head (.closes 0) trivial rfl ?_
    exact Relation.ReflTransGen.refl
  case stream => exact ⟨_, rfl, rfl, rfl, rfl⟩

end StreamRun

end Ftre.Runtime
