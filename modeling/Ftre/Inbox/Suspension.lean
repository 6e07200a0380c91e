import Ftre.Inbox.NextTurn
import Ftre.Runtime.ConfirmCommand
import Ftre.Runtime.EngineStages
import Ftre.Session.AskingCalls

/-!
New messages beside calls that ask for confirmation. A run or a stream of any agent, or a dispatch
of the queue, hands its request to the engine.
-/

namespace Ftre.Inbox

open Lib Message Session Ftre.Agent Ftre.Runtime NextTurn

structure Suspension where
  session : ServiceState
  /-- The channel of the session; none once it is deleted. -/
  channelId : Option String
  runs : ServiceRuns
  engine : Engine
  /-- The dispatches that found the agent free and work up to their claim. -/
  dispatching : Nat → Bool
  inputs : Nat → Option AgentRunRequest
  /-- The inputs that passed the check and whose turn has not read its messages. -/
  unread : Nat → Bool
  /-- A turn of a new message reached its loop beside a call that asks. -/
  overlooked : Bool

namespace Suspension

/-- A process that starts on the stored history of a session. -/
def opened (channelId sessionId : String) (stored : SessionMeta) : Suspension where
  session := .opened sessionId stored
  channelId := some channelId
  runs := .fresh
  engine := .idle
  dispatching _ := false
  inputs _ := none
  unread _ := false
  overlooked := false

def history (state : Suspension) : List Msg := state.session.history.items

def asks (state : Suspension) : Bool :=
  !(MessageContext.toolCallsInState state.history .asking).isEmpty

def statusValue : RequestStatus → String
  | .pending => "pending"
  | .running => "running"
  | .completed => "completed"
  | .failed => "failed"

/-- `_request_state`. -/
def duplicateOf (state : Suspension) (request : AgentRunRequest) : Option String :=
  if request.requestId = "" then none
  else (state.session.requestState request.requestId).map statusValue

/-- `_validate_inbound`, which an input in front of it has to pass. -/
def fits (state : Suspension) (call : Nat) : Bool :=
  match state.engine.calls call, state.inputs call with
  | .admitting .validating, some request => decide (state.channelId = some request.channelId)
  | _, _ => true

/-- What a step is told of the session is what the engine has. -/
def tells (state : Suspension) (active : String → Bool) : Bool :=
  active state.session.sessionId == state.engine.isActiveSession

def activityOf : ServiceAction → Option (String → Bool)
  | .runBegins _ _ _ active => some active
  | .streamBegins _ _ _ active => some active
  | .tryReserve _ _ _ _ active => some active
  | _ => none

/-- A turn of a new message, entered with the history. -/
def newTurn (state : Suspension) : Turn := (Turn.start [] (state.history.map .typed)).enter

/-- The loop of that turn is at work on a context with a call that asks. -/
def overlooks (state : Suspension) : Bool :=
  decide (state.newTurn.phase = .looping) && state.newTurn.runner.asking

/-! ### Steps -/

inductive Action where
  /-- An event, a recorded user message or a checkpoint of the session. -/
  | session (action : ServiceState.Action)
  | service (action : ServiceAction)
  /-- `running` is what the engine says of each session. -/
  | dispatch (call : Nat) (running : String → Bool)
  | runItem (call : Nat) (item : QueueItem) (active : String → Bool) (id createdAt : String)
  /-- `run_input` with the request of a run or a stream. -/
  | input (call : Nat)
  | check (call : Nat)
  /-- The turn's messages are read and entered. -/
  | builds (call : Nat)
  | engine (action : Engine.Action)
  | restart

def step (state : Suspension) : Action → Option Suspension
  | .session action =>
      match action with
      | .restart => none
      | _ => (state.session.step action).map fun session => { state with session := session }
  | .service action =>
      if (activityOf action).all state.tells then
        (state.runs.step action).map fun runs => { state with runs := runs }
      else none
  | .dispatch call running =>
      if state.tells running && !agentBusy state.runs running state.session.sessionId then
        some { state with dispatching := Function.update state.dispatching call true }
      else none
  | .runItem call item active id createdAt =>
      if state.dispatching call && state.tells active &&
          decide (item.sessionId = state.session.sessionId) then
        ({ state.runs with service := ensureAgent state.runs.service item }.step
          (.runBegins call (agentIdOf item) (toAgentRequest item id createdAt) active)).map
            fun runs =>
              { state with
                runs := runs
                dispatching := Function.update state.dispatching call false }
      else none
  | .input call =>
      match (state.runs.calls call).flight? with
      | some flight =>
          if flight.request.sessionId = state.session.sessionId then
            (state.engine.step (.runInput call)).map fun engine =>
              { state with
                engine := engine
                inputs := Function.update state.inputs call (some flight.request)
                unread := Function.update state.unread call false }
          else none
      | none => none
  | .check call =>
      match state.inputs call with
      | some request =>
          (state.engine.step (.requestStateRead call (state.duplicateOf request))).map
            fun engine =>
              { state with
                engine := engine
                unread := Function.update state.unread call true }
      | none => none
  | .builds call =>
      match state.engine.calls call with
      | .executing .input =>
          if state.unread call && state.channelId.isSome then
            some { state with
              unread := Function.update state.unread call false
              overlooked := state.overlooked || state.overlooks }
          else none
      | _ => none
  | .engine action =>
      match action with
      | .runInput _ => none
      | .requestStateRead _ _ => none
      | .admissionAdvances call =>
          if state.fits call then
            (state.engine.step action).map fun engine => { state with engine := engine }
          else none
      | .deletionAdvances call =>
          (state.engine.step action).map fun engine =>
            { state with
              engine := engine
              channelId :=
                if state.engine.calls call = .deleting .removing then none else state.channelId }
      | _ => (state.engine.step action).map fun engine => { state with engine := engine }
  | .restart =>
      some { state with
        session := .opened state.session.sessionId state.session.stored
        runs := .fresh
        engine := .idle
        dispatching := fun _ => false
        inputs := fun _ => none
        unread := fun _ => false }

def system : StepSystem Suspension Action := ⟨step⟩

/-! ### What bars a turn -/

/-- One of the gates turns the request away, whatever the hooks do. -/
def TurnsAway (state : Suspension) (request : AgentRunRequest) : Prop :=
  (state.duplicateOf request).isSome ∨ state.engine.isActiveSession = true ∨
    state.channelId ≠ some request.channelId

/-- The input may still read the history. -/
def onItsWay (state : Suspension) (call : Nat) : Bool :=
  state.unread call &&
    match state.engine.calls call with
    | .admitting _ => true
    | .executing .input => true
    | _ => false

def bringsAsking : ServiceState.Action → Bool
  | .append _ data _ => data.asks
  | _ => false

/-- What a step must respect for a call that asks to bar every turn of a new message: beside
one the engine's gates turn an input away, and none comes up behind an input they let pass. -/
def BarsTurn (state : Suspension) : Action → Prop
  | .check call => ∀ request, state.inputs call = some request → state.asks = true →
      state.TurnsAway request
  | .session action => (∃ call, state.onItsWay call = true) → bringsAsking action = false
  | _ => True

def recordsAnew (session : ServiceState) (time : Int) (generated requestId : String)
    (content : List Json) (metadata : KeyedTable String Json) : Bool :=
  match session.appendUserMessageIfAbsent time generated requestId content metadata with
  | (.appended event, _) =>
      decide ((userMessageOf event content metadata).id ∉ session.history.keys)
  | _ => true

def Enters (state : Suspension) : Action → Prop
  | .session (.append _ _ _) => False
  | .session (.appendUser time generated requestId content metadata) =>
      recordsAnew state.session time generated requestId content metadata = true
  | .restart => False
  | _ => True

/-- The same calls ask, the confirmation commands do the same, and a confirmation of a call is
accepted by the turn it resumes where it was. -/
structure StaysConfirmable (before after : List Msg) : Prop where
  asking : MessageContext.toolCallsInState after .asking =
    MessageContext.toolCallsInState before .asking
  command : ∀ command arguments approved,
    confirm command after arguments approved = confirm command before arguments approved
  accepted : ∀ id approved, (Reply.acceptConfirmation after id approved).isSome =
    (Reply.acceptConfirmation before id approved).isSome

open MessageContext in
theorem staysConfirmable_of_owned {before after : List Msg}
    (same : ownedCalls after = ownedCalls before) : StaysConfirmable before after where
  asking := by
    have picked : ∀ messages : List Msg, toolCallsInState messages .asking =
        (ownedCalls messages).filterMap fun owned =>
          if owned.2.state = .asking then some owned.2 else none := by
      intro messages
      unfold toolCallsInState ownedCalls
      rw [List.filterMap_flatMap]
      congr 1
      funext message
      rw [List.filterMap_map, List.filterMap_filterMap]
      rfl
    rw [picked, picked, same]
  command name arguments approved := by
    have target : ∀ id, confirmTarget after id = confirmTarget before id := by
      intro id
      unfold confirmTarget
      rw [same]
    unfold confirm
    simp only [target]
  accepted id approved := by
    have calls : toolCalls after = toolCalls before := by
      rw [toolCalls_eq, toolCalls_eq, ← Reply.toolCalls_ownedCalls,
        ← Reply.toolCalls_ownedCalls, same]
    unfold Reply.acceptConfirmation
    rw [calls]
    split
    · rfl
    · split
      · rfl
      · split <;> rfl

theorem StaysConfirmable.trans {first second third : List Msg}
    (left : StaysConfirmable first second) (right : StaysConfirmable second third) :
    StaysConfirmable first third where
  asking := right.asking.trans left.asking
  command name arguments approved :=
    (right.command name arguments approved).trans (left.command name arguments approved)
  accepted id approved := (right.accepted id approved).trans (left.accepted id approved)

private theorem ownedCalls_eq (messages : List Msg) :
    MessageContext.ownedCalls messages =
      (messages.map callsIn).flatMap fun owned => owned.2.map fun call => (owned.1, call) := by
  unfold MessageContext.ownedCalls
  rw [List.flatMap_map]
  rfl

variable {before after : Suspension} {action : Action} {call : Nat}

/-! ### The history -/

private theorem asks_iff (state : Suspension) : state.asks = true ↔ SomeAsks state.history := by
  unfold asks SomeAsks MessageContext.toolCallsInState
  rw [Bool.not_eq_true', List.isEmpty_eq_false_iff_exists_mem]
  constructor
  · rintro ⟨asked, member⟩
    obtain ⟨message, held, listed⟩ := List.mem_flatMap.mp member
    obtain ⟨block, inside, picked⟩ := List.mem_filterMap.mp listed
    refine ⟨message, held, List.any_eq_true.mpr ⟨block, inside, ?_⟩⟩
    cases block with
    | toolCall held =>
        obtain ⟨asking, _⟩ := Option.ite_none_right_eq_some.mp picked
        exact decide_eq_true asking
    | _ => cases picked
  · rintro ⟨message, held, asking⟩
    obtain ⟨block, inside, asked⟩ := List.any_eq_true.mp asking
    cases block with
    | toolCall call =>
        refine ⟨call, List.mem_flatMap.mpr ⟨message, held, List.mem_filterMap.mpr
          ⟨_, inside, if_pos (of_decide_eq_true asked)⟩⟩⟩
    | _ => cases asked

private theorem overlooks_eq (state : Suspension) : state.overlooks = state.asks := by
  have context : state.newTurn.runner.context = state.history := by
    change (state.history.map ContextInput.typed).foldl MessageContext.addRaw [] = state.history
    rw [Turn.foldl_addRaw_typed, List.nil_append]
  have looping : state.newTurn.phase = .looping := rfl
  unfold overlooks
  rw [looping, decide_eq_true rfl, Bool.true_and]
  unfold Runner.asking asks
  rw [context]

def Loaded (session : ServiceState) : Prop := session.checkpoint ≠ none → session.live ≠ none

private theorem loaded_step {session next : ServiceState} {action : ServiceState.Action}
    (loaded : Loaded session) (stepped : session.step action = some next) : Loaded next := by
  cases action with
  | load =>
      cases stepped
      exact fun _ => Option.some_ne_none _
  | append time data messageId =>
      cases stepped
      rcases session.appendEvent_cases time data messageId with ⟨_, same⟩ | ⟨event, _, _, same⟩ <;>
      · rw [same]
        exact fun _ => Option.some_ne_none _
  | appendUser time generated requestId content metadata =>
      cases stepped
      rcases session.appendUser_cases time generated requestId content metadata with
        same | same | ⟨event, _, _, same⟩
      · rw [same]
        exact loaded
      · rw [same]
        exact fun _ => Option.some_ne_none _
      · rw [same]
        exact fun _ => Option.some_ne_none _
  | capture =>
      obtain ⟨live, held, _, rfl⟩ := ServiceState.step_capture stepped
      exact fun _ none => Option.some_ne_none live (held.symm.trans none)
  | commit =>
      obtain ⟨checkpoint, _, rfl⟩ := Option.map_eq_some_iff.mp stepped
      exact fun some => absurd rfl some
  | checkpointFails =>
      obtain ⟨checkpoint, _, rfl⟩ := Option.map_eq_some_iff.mp stepped
      exact fun some => absurd rfl some
  | restart =>
      cases stepped
      exact fun some => absurd rfl some

private theorem history_step {session next : ServiceState} {action : ServiceState.Action}
    (loaded : Loaded session) (stepped : session.step action = some next)
    (goesOn : action ≠ .restart) :
    next.history = session.history ∨
      ∃ event, next = session.withLog (session.liveSession.log.push event) ∧
        ((∃ time messageId, action = .append time event.data messageId) ∨
          ∃ time generated requestId content metadata,
            action = .appendUser time generated requestId content metadata ∧
            event.data = .userMessage content metadata requestId ∧
            session.appendUserMessageIfAbsent time generated requestId content metadata =
              (.appended event, next)) := by
  cases action with
  | load =>
      cases stepped
      exact Or.inl rfl
  | append time data messageId =>
      cases stepped
      rcases session.appendEvent_cases time data messageId with ⟨_, same⟩ | ⟨event, shape, _, same⟩
      · rw [same]
        exact Or.inl rfl
      · exact Or.inr ⟨event, same, Or.inl ⟨time, messageId, by rw [shape]⟩⟩
  | appendUser time generated requestId content metadata =>
      dsimp only [ServiceState.step] at stepped
      generalize called : session.appendUserMessageIfAbsent time generated requestId content
        metadata = result at stepped
      obtain ⟨outcome, after⟩ := result
      cases stepped
      by_cases appends : ∃ event, outcome = .appended event
      · obtain ⟨event, rfl⟩ := appends
        obtain ⟨_, _, _, shape, same⟩ := ServiceState.appendUser_appended called
        exact Or.inr ⟨event, same, Or.inr ⟨time, generated, requestId, content, metadata, rfl,
          shape, called⟩⟩
      · left
        rcases ServiceState.appendUser_unchanged called (fun event held => appends ⟨event, held⟩)
          with same | same
        · rw [same]
        · rw [same]
          rfl
  | capture =>
      obtain ⟨live, held, _, rfl⟩ := ServiceState.step_capture stepped
      exact Or.inl rfl
  | commit =>
      obtain ⟨checkpoint, held, rfl⟩ := Option.map_eq_some_iff.mp stepped
      obtain ⟨live, kept⟩ := Option.ne_none_iff_exists'.mp
        (loaded fun none => Option.some_ne_none checkpoint (held.symm.trans none))
      left
      unfold ServiceState.history ServiceState.liveSession
      rw [kept]
  | checkpointFails =>
      obtain ⟨checkpoint, _, rfl⟩ := Option.map_eq_some_iff.mp stepped
      exact Or.inl rfl
  | restart => exact absurd rfl goesOn

private theorem admitting_step {engine next : Engine} {action : Engine.Action}
    {point : AdmissionPoint} (stepped : engine.step action = some next)
    (stands : engine.calls call = .admitting point) :
    next.calls call = .admitting point ∨ action = .admissionAdvances call ∨
      (∃ executed, next.calls call = .completing executed) ∨
        ∃ outcome, next.calls call = .finished outcome := by
  have moves : next.calls call = engine.calls call ∨ _ := Engine.step_follows stepped
  rcases moves with same | ⟨named, _⟩
  · exact Or.inl (same.trans stands)
  · right
    cases action with
    | admissionAdvances other =>
        cases named
        exact Or.inl rfl
    | admissionStops other tells =>
        cases named
        simp only [Engine.step, stands] at stepped
        split at stepped
        · cases stepped
          exact Or.inr (Or.inl ⟨false, Function.update_self ..⟩)
        · cases stepped
          exact Or.inr (Or.inr ⟨.notAdmitted, Function.update_self ..⟩)
    | _ => first | (cases named; simp only [Engine.step, stands] at stepped; cases stepped) |
        cases named

private def waitsToRead : Runtime.Stage → Bool
  | .admitting _ => true
  | .executing .input => true
  | _ => false

private theorem onItsWay_eq (state : Suspension) (call : Nat) :
    state.onItsWay call = (state.unread call && waitsToRead (state.engine.calls call)) := by
  unfold onItsWay waitsToRead
  split <;> rfl

private theorem waitsToRead_of_follows {stage next : Runtime.Stage}
    (follows : stage.follows next = true)
    (waits : waitsToRead next = true) : waitsToRead stage = true ∨ stage = .requestState := by
  unfold Runtime.Stage.follows at follows
  split at follows <;> first | exact Or.inl rfl | exact Or.inr rfl | cases waits | cases follows

private theorem waitsToRead_step {engine next : Engine} {action : Engine.Action}
    (stepped : engine.step action = some next)
    (unchecked : ∀ duplicate, action ≠ .requestStateRead call duplicate)
    (waits : waitsToRead (next.calls call) = true) :
    waitsToRead (engine.calls call) = true := by
  have moves : next.calls call = engine.calls call ∨ _ := Engine.step_follows stepped
  rcases moves with same | ⟨named, follows⟩
  · rw [← same]
    exact waits
  · refine (waitsToRead_of_follows follows waits).resolve_right fun stands => ?_
    cases action with
    | requestStateRead other duplicate =>
        cases named
        exact unchecked duplicate rfl
    | _ => first | (cases named; simp only [Engine.step, stands] at stepped; cases stepped) |
        cases named

/-! ### Steps that bar -/

structure Barred (state : Suspension) : Prop where
  loaded : Loaded state.session
  quiet : state.overlooked = false
  waits : ∀ call, state.onItsWay call = true → state.asks = true → state.fits call = false

private theorem fits_false {state : Suspension} (misfit : state.fits call = false) :
    state.engine.calls call = .admitting .validating ∧
      ∃ request, state.inputs call = some request ∧ state.channelId ≠ some request.channelId := by
  unfold fits at misfit
  split at misfit
  · rename_i request stands given
    exact ⟨stands, request, given, of_decide_eq_false misfit⟩
  · cases misfit

private theorem fits_congr {left right : Suspension}
    (engine : left.engine.calls call = right.engine.calls call)
    (inputs : left.inputs call = right.inputs call) (channel : left.channelId = right.channelId) :
    left.fits call = right.fits call := by
  unfold fits
  rw [engine, inputs, channel]

private theorem engine_step {action : Engine.Action}
    (stepped : system.step before (.engine action) = some after) :
    ∃ engine channelId, before.engine.step action = some engine ∧
      after = { before with engine := engine, channelId := channelId } ∧
      (channelId = before.channelId ∨ channelId = none) ∧
      (∀ call duplicate, action ≠ .requestStateRead call duplicate) ∧
      ∀ call, action = .admissionAdvances call → before.fits call = true := by
  change before.step (.engine action) = some after at stepped
  cases action with
  | runInput call => cases stepped
  | requestStateRead call duplicate => cases stepped
  | admissionAdvances call =>
      obtain ⟨fitting, moved⟩ := Option.ite_none_right_eq_some.mp stepped
      obtain ⟨engine, advanced, rfl⟩ := Option.map_eq_some_iff.mp moved
      exact ⟨engine, _, advanced, rfl, Or.inl rfl, nofun, fun other same => by
        cases same
        exact fitting⟩
  | deletionAdvances call =>
      obtain ⟨engine, advanced, rfl⟩ := Option.map_eq_some_iff.mp stepped
      refine ⟨engine, _, advanced, rfl, ?_, nofun, nofun⟩
      split
      · exact Or.inr rfl
      · exact Or.inl rfl
  | _ =>
      simp only [step] at stepped
      obtain ⟨engine, advanced, rfl⟩ := Option.map_eq_some_iff.mp stepped
      exact ⟨engine, _, advanced, rfl, Or.inl rfl, nofun, nofun⟩

private theorem waits_other {other : Nat} {action : Engine.Action} (barred : before.Barred)
    (stepped : before.engine.step action = some after.engine)
    (named : Engine.callOf action = some call) (apart : other ≠ call)
    (session : after.session = before.session)
    (inputs : after.inputs other = before.inputs other)
    (unread : after.unread other = before.unread other)
    (channel : after.channelId = before.channelId) (waiting : after.onItsWay other = true)
    (asking : after.asks = true) : after.fits other = false := by
  have stays : after.engine.calls other = before.engine.calls other :=
    Engine.step_frame stepped fun same => apart (Option.some.inj (same.symm.trans named))
  rw [fits_congr stays inputs channel]
  refine barred.waits other ?_ ?_
  · rw [onItsWay_eq] at waiting ⊢
    rw [← unread, ← stays]
    exact waiting
  · rw [asks_iff] at asking ⊢
    unfold history at asking ⊢
    rw [← session]
    exact asking

private theorem session_step {action : ServiceState.Action}
    (stepped : system.step before (.session action) = some after) :
    ∃ session, action ≠ .restart ∧ before.session.step action = some session ∧
      after = { before with session := session } := by
  cases action with
  | restart => cases stepped
  | _ =>
      simp only [system, step] at stepped
      obtain ⟨session, moved, same⟩ := Option.map_eq_some_iff.mp stepped
      exact ⟨session, nofun, moved, same.symm⟩

private theorem barred_session (barred : before.Barred) {action : ServiceState.Action}
    (bars : (∃ call, before.onItsWay call = true) → bringsAsking action = false)
    (stepped : system.step before (.session action) = some after) : after.Barred := by
  obtain ⟨session, goesOn, moved, rfl⟩ := session_step stepped
  refine ⟨loaded_step barred.loaded moved, barred.quiet, fun call waiting asking => ?_⟩
  refine barred.waits call waiting ?_
  rw [asks_iff] at asking ⊢
  unfold history at asking ⊢
  rcases history_step barred.loaded moved goesOn with same | ⟨event, pushed, written⟩
  · rw [← same]
    exact asking
  · have quiet : event.data.asks = false := by
      rcases written with ⟨time, messageId, rfl⟩ | ⟨_, _, _, _, _, _, shape, _⟩
      · exact bars ⟨call, waiting⟩
      · rw [shape]
        rfl
    rw [pushed] at asking
    exact ServiceState.someAsks_push quiet asking

private theorem barred_input (barred : before.Barred)
    (stepped : system.step before (.input call) = some after) : after.Barred := by
  simp only [system, step] at stepped
  split at stepped
  · obtain ⟨_, taken⟩ := Option.ite_none_right_eq_some.mp stepped
    obtain ⟨engine, moved, rfl⟩ := Option.map_eq_some_iff.mp taken
    refine ⟨barred.loaded, barred.quiet, fun other waiting asking => ?_⟩
    by_cases same : other = call
    · subst same
      rw [onItsWay_eq] at waiting
      simp at waiting
    · exact waits_other barred moved rfl same rfl (Function.update_of_ne same ..)
        (Function.update_of_ne same ..) rfl waiting asking
  · cases stepped

private theorem barred_check (barred : before.Barred) (bars : BarsTurn before (.check call))
    (stepped : system.step before (.check call) = some after) : after.Barred := by
  simp only [system, step] at stepped
  split at stepped
  · rename_i request given
    obtain ⟨engine, moved, rfl⟩ := Option.map_eq_some_iff.mp stepped
    refine ⟨barred.loaded, barred.quiet, fun other waiting asking => ?_⟩
    by_cases same : other = call
    · subst same
      have away := bars request given asking
      rw [onItsWay_eq, Bool.and_eq_true] at waiting
      obtain ⟨_, waits⟩ := waiting
      simp only [Engine.step] at moved
      split at moved
      · cases moved
        unfold Engine.checkInput at waits ⊢
        cases duplicate : before.duplicateOf request with
        | some state =>
            rw [duplicate] at waits
            simp [Engine.setStage, waitsToRead] at waits
        | none =>
            rw [duplicate] at waits
            dsimp only at waits ⊢
            by_cases active : before.engine.isActiveSession = true
            · rw [if_pos active] at waits
              simp [Engine.setStage, waitsToRead] at waits
            · rw [if_neg active]
              have differs : before.channelId ≠ some request.channelId := by
                rcases away with known | busy | differs
                · rw [duplicate] at known
                  cases known
                · exact absurd busy active
                · exact differs
              unfold fits
              simp only [Engine.setStage, Function.update_self, given]
              exact decide_eq_false differs
      · cases moved
    · exact waits_other barred moved rfl same rfl rfl (Function.update_of_ne same ..) rfl waiting
        asking
  · cases stepped

private theorem barred_builds (barred : before.Barred)
    (stepped : system.step before (.builds call) = some after) : after.Barred := by
  simp only [system, step] at stepped
  split at stepped
  · rename_i executing
    obtain ⟨reads, same⟩ := Option.ite_none_right_eq_some.mp stepped
    rw [Bool.and_eq_true] at reads
    cases same
    have calm : before.asks = false := by
      rw [Bool.eq_false_iff]
      intro asking
      have onWay : before.onItsWay call = true := by
        rw [onItsWay_eq, reads.1, executing]
        rfl
      have stands := (fits_false (barred.waits call onWay asking)).1
      rw [executing] at stands
      cases stands
    refine ⟨barred.loaded, ?_, fun other waiting asking => ?_⟩
    · dsimp only
      rw [barred.quiet, overlooks_eq, calm]
      rfl
    · change before.asks = true at asking
      rw [calm] at asking
      cases asking
  · cases stepped

private theorem barred_engine (barred : before.Barred) {action : Engine.Action}
    (stepped : system.step before (.engine action) = some after) : after.Barred := by
  obtain ⟨engine, channelId, moved, rfl, channel, unchecked, fitting⟩ := engine_step stepped
  refine ⟨barred.loaded, barred.quiet, fun other waiting asking => ?_⟩
  rw [onItsWay_eq, Bool.and_eq_true] at waiting
  obtain ⟨unread, waits⟩ := waiting
  have waited := waitsToRead_step moved (unchecked other) waits
  have misfit := barred.waits other
    (by rw [onItsWay_eq, Bool.and_eq_true]; exact ⟨unread, waited⟩) asking
  obtain ⟨stands, request, given, differs⟩ := fits_false misfit
  rcases admitting_step moved stands with stays | advances | ⟨executed, completes⟩ |
    ⟨outcome, finishes⟩
  · unfold fits
    dsimp only
    rw [stays, given]
    refine decide_eq_false ?_
    rcases channel with same | gone
    · rw [same]
      exact differs
    · rw [gone]
      nofun
  · rw [fitting other advances] at misfit
    cases misfit
  · rw [completes] at waits
    cases waits
  · rw [finishes] at waits
    cases waits

private theorem service_step {action : Action}
    (outside : (∃ taken, action = .service taken) ∨
      (∃ call running, action = .dispatch call running) ∨
      ∃ call item active id createdAt, action = .runItem call item active id createdAt)
    (stepped : system.step before action = some after) :
    ∃ runs dispatching, after = { before with runs := runs, dispatching := dispatching } := by
  rcases outside with ⟨taken, rfl⟩ | ⟨call, running, rfl⟩ | ⟨call, item, active, id, createdAt, rfl⟩
  · obtain ⟨_, moved⟩ := Option.ite_none_right_eq_some.mp stepped
    obtain ⟨runs, _, rfl⟩ := Option.map_eq_some_iff.mp moved
    exact ⟨runs, _, rfl⟩
  · obtain ⟨_, same⟩ := Option.ite_none_right_eq_some.mp stepped
    cases same
    exact ⟨_, _, rfl⟩
  · obtain ⟨_, moved⟩ := Option.ite_none_right_eq_some.mp stepped
    obtain ⟨runs, _, rfl⟩ := Option.map_eq_some_iff.mp moved
    exact ⟨runs, _, rfl⟩

private theorem barred_step (barred : before.Barred) (bars : BarsTurn before action)
    (stepped : system.step before action = some after) : after.Barred := by
  cases action with
  | session action => exact barred_session barred bars stepped
  | service action =>
      obtain ⟨_, _, rfl⟩ := service_step (Or.inl ⟨_, rfl⟩) stepped
      exact ⟨barred.loaded, barred.quiet, barred.waits⟩
  | dispatch call running =>
      obtain ⟨_, _, rfl⟩ := service_step (Or.inr (Or.inl ⟨_, _, rfl⟩)) stepped
      exact ⟨barred.loaded, barred.quiet, barred.waits⟩
  | runItem call item active id createdAt =>
      obtain ⟨_, _, rfl⟩ := service_step (Or.inr (Or.inr ⟨_, _, _, _, _, rfl⟩)) stepped
      exact ⟨barred.loaded, barred.quiet, barred.waits⟩
  | input call => exact barred_input barred stepped
  | check call => exact barred_check barred bars stepped
  | builds call => exact barred_builds barred stepped
  | engine action => exact barred_engine barred stepped
  | restart =>
      cases stepped
      exact ⟨fun some => absurd rfl some, barred.quiet, fun call waiting => by cases waiting⟩

private theorem session_frame (stepped : system.step before action = some after) :
    (∃ taken, action = .session taken) ∨ action = .restart ∨ after.session = before.session := by
  cases action with
  | session taken => exact Or.inl ⟨taken, rfl⟩
  | restart => exact Or.inr (Or.inl rfl)
  | service taken =>
      obtain ⟨_, _, rfl⟩ := service_step (Or.inl ⟨_, rfl⟩) stepped
      exact Or.inr (Or.inr rfl)
  | dispatch call running =>
      obtain ⟨_, _, rfl⟩ := service_step (Or.inr (Or.inl ⟨_, _, rfl⟩)) stepped
      exact Or.inr (Or.inr rfl)
  | runItem call item active id createdAt =>
      obtain ⟨_, _, rfl⟩ := service_step (Or.inr (Or.inr ⟨_, _, _, _, _, rfl⟩)) stepped
      exact Or.inr (Or.inr rfl)
  | input call =>
      simp only [system, step] at stepped
      split at stepped
      · obtain ⟨_, taken⟩ := Option.ite_none_right_eq_some.mp stepped
        obtain ⟨_, _, rfl⟩ := Option.map_eq_some_iff.mp taken
        exact Or.inr (Or.inr rfl)
      · cases stepped
  | check call =>
      simp only [system, step] at stepped
      split at stepped
      · obtain ⟨_, _, rfl⟩ := Option.map_eq_some_iff.mp stepped
        exact Or.inr (Or.inr rfl)
      · cases stepped
  | builds call =>
      simp only [system, step] at stepped
      split at stepped
      · obtain ⟨_, same⟩ := Option.ite_none_right_eq_some.mp stepped
        cases same
        exact Or.inr (Or.inr rfl)
      · cases stepped
  | engine taken =>
      obtain ⟨_, _, _, rfl, _⟩ := engine_step stepped
      exact Or.inr (Or.inr rfl)

private theorem enters_session {action : ServiceState.Action} (loaded : Loaded before.session)
    (enters : Enters before (.session action))
    (stepped : system.step before (.session action) = some after) :
    Loaded after.session ∧ StaysConfirmable before.history after.history := by
  obtain ⟨session, goesOn, moved, rfl⟩ := session_step stepped
  refine ⟨loaded_step loaded moved, staysConfirmable_of_owned ?_⟩
  unfold history
  rcases history_step loaded moved goesOn with same | ⟨event, pushed, written⟩
  · rw [same]
  · rcases written with ⟨_, _, rfl⟩ | ⟨_, _, _, _, _, rfl, shape, recorded⟩
    · exact enters.elim
    · simp only [Enters, recordsAnew, recorded, decide_eq_true_eq] at enters
      rw [pushed, ownedCalls_eq, ownedCalls_eq,
        ServiceState.calls_push_user _ shape enters, List.flatMap_append]
      exact List.append_nil _

private theorem enters_step (loaded : Loaded before.session) (enters : Enters before action)
    (stepped : system.step before action = some after) :
    Loaded after.session ∧ StaysConfirmable before.history after.history := by
  rcases session_frame stepped with ⟨taken, rfl⟩ | rfl | same
  · exact enters_session loaded enters stepped
  · exact enters.elim
  · unfold history
    rw [same]
    exact ⟨loaded, staysConfirmable_of_owned rfl⟩

private theorem enters_run {later : Suspension} (loaded : Loaded before.session)
    (entered : system.Reaches Enters before later) :
    StaysConfirmable before.history later.history := by
  have kept : Loaded later.session ∧ StaysConfirmable before.history later.history := by
    apply entered.invariant
    · exact ⟨loaded, staysConfirmable_of_owned rfl⟩
    · intro middle action next ⟨holds, stays⟩ enters stepped
      exact (enters_step holds enters stepped).imp_right stays.trans
  exact kept.2

/-! ### An input that no gate turns away -/

private structure LetIn (call : Nat) (point : AdmissionPoint) (state : Suspension) : Prop where
  stands : state.engine.calls call = .admitting point
  unread : state.unread call = true
  given : ∃ request, state.inputs call = some request ∧ state.channelId = some request.channelId
  asks : state.asks = true

private theorem LetIn.advances {point next : AdmissionPoint} (letIn : LetIn call point before)
    (follows : point.next = some next) :
    ∃ after, system.step before (.engine (.admissionAdvances call)) = some after ∧
      LetIn call next after := by
  obtain ⟨request, given, channel⟩ := letIn.given
  have fitting : before.fits call = true := by
    unfold fits
    rw [letIn.stands, given]
    cases point with
    | validating => exact decide_eq_true channel
    | _ => rfl
  have moved : before.engine.step (.admissionAdvances call) =
      some (before.engine.setStage call (.admitting next)) := by
    simp only [Engine.step, letIn.stands, Engine.admitInput, follows]
  refine ⟨{ before with engine := before.engine.setStage call (.admitting next) }, ?_, ?_⟩
  · simp only [system, step, fitting, if_true, moved, Option.map_some]
  · exact ⟨Function.update_self .., letIn.unread, letIn.given, letIn.asks⟩

private theorem LetIn.enters (letIn : LetIn call .persisting before) :
    ∃ later, system.Reaches StepSystem.anyStep before later ∧ later.overlooked = true := by
  obtain ⟨request, given, channel⟩ := letIn.given
  have fitting : before.fits call = true := by
    unfold fits
    rw [letIn.stands]
  let started : Suspension :=
    { before with engine := before.engine.admitInput call .persisting }
  have starts : system.step before (.engine (.admissionAdvances call)) = some started := by
    simp only [system, step, fitting, if_true, Engine.step, letIn.stands, Option.map_some]
    rfl
  have reads : system.step started (.builds call) = some { started with
      unread := Function.update started.unread call false
      overlooked := started.overlooked || started.overlooks } := by
    have executing : started.engine.calls call = .executing .input := Function.update_self ..
    have ready : (started.unread call && started.channelId.isSome) = true := by
      rw [Bool.and_eq_true]
      exact ⟨letIn.unread, Option.isSome_iff_exists.mpr ⟨_, channel⟩⟩
    simp only [system, step, executing, ready, if_true]
  refine ⟨_, (Relation.ReflTransGen.single ⟨_, trivial, starts⟩).tail ⟨_, trivial, reads⟩, ?_⟩
  have beside : started.overlooks = true := (overlooks_eq started).trans letIn.asks
  dsimp only
  rw [beside, Bool.or_true]

private theorem LetIn.overlooks_of_next {point next : AdmissionPoint}
    (follows : point.next = some next)
    (rest : ∀ state, LetIn call next state →
      ∃ later, system.Reaches StepSystem.anyStep state later ∧ later.overlooked = true)
    (letIn : LetIn call point before) :
    ∃ later, system.Reaches StepSystem.anyStep before later ∧ later.overlooked = true := by
  obtain ⟨after, stepped, goesOn⟩ := letIn.advances follows
  obtain ⟨later, reached, beside⟩ := rest after goesOn
  exact ⟨later, Relation.ReflTransGen.head ⟨_, trivial, stepped⟩ reached, beside⟩

private theorem LetIn.overlooks (letIn : LetIn call .validating before) :
    ∃ later, system.Reaches StepSystem.anyStep before later ∧ later.overlooked = true :=
  letIn.overlooks_of_next rfl fun _ resolving =>
    resolving.overlooks_of_next rfl fun _ resolved =>
      resolved.overlooks_of_next rfl fun _ asked =>
        asked.overlooks_of_next rfl fun _ persisting => persisting.enters

private theorem overlooks_of_check {request : AgentRunRequest}
    (stands : before.engine.calls call = .requestState)
    (given : before.inputs call = some request) (asking : before.asks = true)
    (lets : ¬ before.TurnsAway request) :
    ∃ later, system.Reaches StepSystem.anyStep before later ∧ later.overlooked = true := by
  obtain ⟨unknown, idle, channel⟩ : before.duplicateOf request = none ∧
      before.engine.isActiveSession = false ∧ before.channelId = some request.channelId := by
    unfold TurnsAway at lets
    rw [not_or, not_or, not_not] at lets
    obtain ⟨known, active, channel⟩ := lets
    exact ⟨Option.not_isSome_iff_eq_none.mp known, Bool.eq_false_iff.mpr active, channel⟩
  let checked : Suspension :=
    { before with
      engine := before.engine.checkInput call none
      unread := Function.update before.unread call true }
  have checks : system.step before (.check call) = some checked := by
    simp only [system, step, given, unknown, Engine.step, stands, Option.map_some]
    rfl
  have letIn : LetIn call .validating checked := by
    refine ⟨?_, Function.update_self .., ⟨request, given, channel⟩, asking⟩
    change (before.engine.checkInput call none).calls call = _
    unfold Engine.checkInput
    dsimp only
    rw [if_neg (Bool.eq_false_iff.mp idle)]
    exact Function.update_self ..
  obtain ⟨later, reached, beside⟩ := letIn.overlooks
  exact ⟨later, Relation.ReflTransGen.head ⟨_, trivial, checks⟩ reached, beside⟩

/-- What a session whose calls ask keeps up against new messages. -/
structure SuspensionBarrier (state : Suspension) : Prop where
  untouched : state.overlooked = false
  refused : ∀ call, state.onItsWay call = true → state.asks = true →
    state.engine.calls call = .admitting .validating ∧ state.fits call = false
  confirmable : ∀ later, system.Reaches Enters state later →
    StaysConfirmable state.history later.history

/-- Where every step bars the turns of new messages the barrier holds, restarts included; where an
input is checked beside a call that asks and no gate turns it away, some run gets it to its loop. -/
theorem asking_calls_bar_turns {channelId sessionId : String} {stored : SessionMeta}
    {state : Suspension}
    (reached : system.Reaches BarsTurn (opened channelId sessionId stored) state) :
    SuspensionBarrier state ∧
      ∀ call request, state.engine.calls call = .requestState →
        state.inputs call = some request → state.asks = true → ¬ state.TurnsAway request →
          ∃ later, system.Reaches StepSystem.anyStep state later ∧ later.overlooked = true := by
  have barred : Barred state := reached.invariant
    ⟨fun some => absurd rfl some, rfl, fun call waiting => by cases waiting⟩
    fun _ _ _ barred bars stepped => barred_step barred bars stepped
  refine ⟨⟨barred.quiet, fun call waiting asking => ?_, fun later entered =>
    enters_run barred.loaded entered⟩, fun call request => overlooks_of_check⟩
  have misfit := barred.waits call waiting asking
  exact ⟨(fits_false misfit).1, misfit⟩

private def question : Msg :=
  Msg.plain "turn_0" .assistant [.toolCall ⟨"call_1", "bash", .empty, .asking, "t", none⟩] "t"

private def asked : Action := .session (.append 0 (.assistantMessage question) (some "turn_0"))

private def created : Action := .service (.create "session-1:default" (some "session-1"))

private def runBegins : Action :=
  .service (.runBegins 0 "session-1:default"
    ⟨"session-1", "request-2", [], some "session-1:default", "web", "user", .empty⟩ fun _ => false)

private def fresh : Suspension := opened "web" "session-1" (ServiceState.created "session-1").stored

private def besideConfirmation : List Action :=
  [asked, created, runBegins, .engine (.resumeConfirmation 1 true),
    .engine (.resolutionAdvances 1), .engine (.resolutionAdvances 1), .input 0, .check 0]

private def recorded : Action := .session (.appendUser 0 "user_1" "" [.str "hi"] .empty)

private theorem besideConfirmation_bars : system.EachStep BarsTurn fresh besideConfirmation := by
  have quiet : ∀ call, fresh.onItsWay call = false := fun _ => rfl
  refine StepSystem.eachStep_cons rfl (fun ⟨call, waiting⟩ => ?_) ?_
  · rw [quiet call] at waiting
    cases waiting
  iterate 6 refine StepSystem.eachStep_cons rfl trivial ?_
  exact StepSystem.eachStep_cons rfl (fun _ _ _ => Or.inr (Or.inl rfl)) trivial

/-- A confirmation's turn holds the session while a call still asks: the run is refused, and the
call stays as it was. -/
theorem confirmation_bars_run :
    ∃ state later, system.run fresh besideConfirmation = some state ∧
      state.engine.calls 0 = .finished .agentBusy ∧ state.asks = true ∧
      system.step state recorded = some later ∧ later.history.length = 2 ∧
      StaysConfirmable state.history later.history := by
  obtain ⟨state, later, ran, busy, asking, anew, records, both⟩ : ∃ state later,
      system.run fresh besideConfirmation = some state ∧
      state.engine.calls 0 = .finished .agentBusy ∧ state.asks = true ∧
      recordsAnew state.session 0 "user_1" "" [.str "hi"] .empty = true ∧
      system.step state recorded = some later ∧ later.history.length = 2 :=
    ⟨_, _, rfl, rfl, by decide, by decide, rfl, by decide⟩
  have barrier := (asking_calls_bar_turns
    (StepSystem.reaches_of_eachStep besideConfirmation_bars ran)).1
  exact ⟨state, later, ran, busy, asking, records, both, barrier.confirmable later
    (Relation.ReflTransGen.single ⟨recorded, anew, records⟩)⟩

/-- The agent that was left paused is forgotten by a restart. -/
theorem restart_forgets_asking_call :
    ∃ state, system.run fresh [asked, .session .capture, .session .commit, .restart, created,
        runBegins, .input 0, .check 0, .engine (.admissionAdvances 0),
        .engine (.admissionAdvances 0), .engine (.admissionAdvances 0),
        .engine (.admissionAdvances 0), .engine (.admissionAdvances 0), .builds 0] = some state ∧
      state.overlooked = true :=
  ⟨_, rfl, by decide⟩

end Suspension

end Ftre.Inbox
