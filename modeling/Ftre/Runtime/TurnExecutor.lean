import Ftre.Lib.StepSystem
import Ftre.Message.Msg
import Ftre.Session.UserContent

/-!
A turn driven through its model attempts. Each attempt enters the runner, which checks the context
and its own lock, adds the turn's messages to the context and starts the loop.
-/

namespace Ftre.Runtime

open Lib Message

/-- A provider dict with its blocks read, and the coordinates it gets if it has none. -/
structure RawMessage where
  id : Option String
  role : Role
  blocks : List ContentBlock
  metadata : KeyedTable String Json
  generatedId : String
  createdAt : String

inductive ContextInput where
  | typed (message : Msg)
  | raw (message : RawMessage)

namespace MessageContext

def addRaw (context : List Msg) : ContextInput → List Msg
  | .typed message => context ++ [message]
  | .raw raw =>
      let id := raw.id.getD ""
      if id ≠ "" ∧ context.any fun item => decide (item.id = id) then context
      else
        context ++ [{ Msg.plain (if id = "" then raw.generatedId else id) raw.role raw.blocks
          raw.createdAt with metadata := raw.metadata }]

def addUser (context : List Msg) (content id createdAt : String) : List Msg :=
  context ++ [Msg.plain id .user [.text ⟨content, id, createdAt, none⟩] createdAt]

def toolCallsInState (context : List Msg) (state : ToolCallState) : List ToolCallBlock :=
  context.flatMap fun message => message.content.filterMap fun block =>
    block.asToolCall?.bind fun call => if call.state = state then some call else none

end MessageContext

inductive RunInput where
  | text (content id createdAt : String)
  | messages (inputs : List ContextInput)

/-- `holdsTask` says that the runner's task is the running task of the turn. -/
structure Runner where
  context : List Msg
  holdsTask : Bool

inductive PrepareError where
  | awaitingConfirmation
  | alreadyRunning
deriving DecidableEq, Repr

namespace Runner

def asking (runner : Runner) : Bool :=
  !(MessageContext.toolCallsInState runner.context .asking).isEmpty

def prepareNewReply (runner : Runner) (input : RunInput) : Except PrepareError Runner :=
  if runner.asking then .error .awaitingConfirmation
  else if runner.holdsTask then .error .alreadyRunning
  else
    .ok
      { context :=
          match input with
          | .text content id createdAt =>
              MessageContext.addUser runner.context content id createdAt
          | .messages inputs => inputs.foldl MessageContext.addRaw runner.context
        holdsTask := true }

end Runner

/-! ### The turn -/

structure RetryRequest where
  progressToken : String
  maxAttempts : Nat
  visible : Session.strip progressToken ≠ ""
  positive : 0 < maxAttempts

inductive Phase where
  /-- The next attempt is to be entered. -/
  | ready
  /-- The runner's loop is at work. -/
  | looping
  /-- The attempt failed and recovery is asked for. -/
  | failed
  | ended
deriving DecidableEq, Repr

structure Turn where
  phase : Phase
  runner : Runner
  messages : List ContextInput
  retryTokens : List String
  retryCount : Nat
  /-- The attempt raised: the handler of `_run` asks for its recovery. -/
  raised : Bool

namespace Turn

/-- A turn with the agent built for it and the messages to enter it with. -/
def start (context : List Msg) (messages : List ContextInput) : Turn where
  phase := .ready
  runner := ⟨context, false⟩
  messages := messages
  retryTokens := []
  retryCount := 0
  raised := false

/-- One attempt reaches the loop, or fails before it. -/
def enter (turn : Turn) : Turn :=
  match turn.runner.prepareNewReply (.messages turn.messages) with
  | .ok runner => { turn with runner := runner, phase := .looping }
  | .error _ => { turn with phase := .failed, raised := true }

/-- `_refresh_agent_context`: no records, or a failure to read them, change nothing. -/
def refreshAgentContext (turn : Turn) (records : Option (List Msg)) : Turn :=
  match records with
  | none => turn
  | some [] => turn
  | some view =>
      { turn with
        runner := { turn.runner with context := view }
        messages := view.map .typed }

def accepts (turn : Turn) (request : RetryRequest) (cancelled : Bool) : Bool :=
  !cancelled && decide (request.progressToken ∉ turn.retryTokens) &&
    decide (turn.retryCount < request.maxAttempts)

def counted (turn : Turn) (request : RetryRequest) : Turn :=
  { turn with
    retryTokens := turn.retryTokens ++ [request.progressToken]
    retryCount := turn.retryCount + 1 }

/-- How an accepted recovery goes on: `turn/retry` is written, its append raises, or the recovery
is cancelled, at the append or in front of the records. -/
inductive RetryNotice where
  | written
  | raises
  | cancelled
deriving DecidableEq, Repr

/-- `_request_error_recovery`; no request is any other answer of the hook. The token and the count
are taken before what may raise. -/
def requestErrorRecovery (turn : Turn) (result : Option RetryRequest) (cancelled : Bool)
    (records : Option (List Msg)) (notice : RetryNotice) : Turn :=
  match result with
  | none => { turn with phase := .ended }
  | some request =>
      if turn.accepts request cancelled then
        let refreshed := (turn.counted request).refreshAgentContext records
        match notice with
        | .written => { refreshed with phase := .ready }
        | .raises =>
            -- inside the `try` of `_run` the exception comes to its handler, which asks once more
            { refreshed with phase := if turn.raised then .ended else .failed, raised := true }
        | .cancelled => { refreshed with phase := .ended }
      else { turn with phase := .ended }

inductive Action where
  | enter
  /-- The loop ends in an error; the context is what it wrote. -/
  | loopFails (context : List Msg)
  /-- The loop raises, or the append of one of its events. -/
  | loopRaises (context : List Msg)
  | loopEnds (context : List Msg)
  | recover (result : Option RetryRequest) (cancelled : Bool) (records : Option (List Msg))
      (notice : RetryNotice)

def step (turn : Turn) : Action → Option Turn
  | .enter => if turn.phase = .ready then some turn.enter else none
  | .loopFails context =>
      if turn.phase = .looping then
        some { turn with
          phase := .failed
          runner := { turn.runner with context := context }
          raised := false }
      else none
  | .loopRaises context =>
      if turn.phase = .looping then
        some { turn with
          phase := .failed
          runner := { turn.runner with context := context }
          raised := true }
      else none
  | .loopEnds context =>
      if turn.phase = .looping then
        some { turn with phase := .ended, runner := { turn.runner with context := context } }
      else none
  | .recover result cancelled records notice =>
      if turn.phase = .failed then some (turn.requestErrorRecovery result cancelled records notice)
      else none

def system : StepSystem Turn Action := ⟨step⟩

structure Blocked (turn : Turn) : Prop where
  looping : turn.phase = .looping → turn.runner.holdsTask = true
  failed : turn.phase = .failed →
    turn.runner.holdsTask = true ∨ turn.raised = true ∧ turn.runner.asking = true

theorem blocked_start (context : List Msg) (messages : List ContextInput) :
    Blocked (start context messages) where
  looping := nofun
  failed := nofun

private theorem enter_cases (turn : Turn) :
    (turn.enter = { turn with phase := .failed, raised := true } ∧
      (turn.runner.holdsTask = true ∨ turn.runner.asking = true)) ∨
    (turn.enter = { turn with
        runner := ⟨turn.messages.foldl MessageContext.addRaw turn.runner.context, true⟩
        phase := .looping } ∧
      turn.runner.holdsTask = false ∧ turn.runner.asking = false) := by
  unfold enter Runner.prepareNewReply
  by_cases asking : turn.runner.asking = true
  · left
    simp [asking]
  · by_cases holds : turn.runner.holdsTask = true
    · left
      simp [asking, holds]
    · right
      simp [asking, holds]

private theorem refresh_runner (turn : Turn) (records : Option (List Msg)) :
    (turn.refreshAgentContext records).runner.holdsTask = turn.runner.holdsTask := by
  unfold refreshAgentContext
  split <;> rfl

private theorem refresh_counts (turn : Turn) (records : Option (List Msg)) :
    (turn.refreshAgentContext records).retryTokens = turn.retryTokens ∧
      (turn.refreshAgentContext records).retryCount = turn.retryCount := by
  unfold refreshAgentContext
  split <;> exact ⟨rfl, rfl⟩

private theorem recovery_phase (turn : Turn) (result : Option RetryRequest) (cancelled : Bool)
    (records : Option (List Msg)) (notice : RetryNotice) :
    (turn.requestErrorRecovery result cancelled records notice).phase ≠ .looping ∧
      ((turn.requestErrorRecovery result cancelled records notice).phase = .failed →
        turn.raised = false ∧
          (turn.requestErrorRecovery result cancelled records notice).runner.holdsTask =
            turn.runner.holdsTask) := by
  unfold requestErrorRecovery
  split
  · exact ⟨nofun, nofun⟩
  split
  · cases notice with
    | written | cancelled => exact ⟨nofun, nofun⟩
    | raises =>
        dsimp only
        cases turn.raised with
        | true => exact ⟨nofun, nofun⟩
        | false => exact ⟨nofun, fun _ => ⟨rfl, refresh_runner _ records⟩⟩
  · exact ⟨nofun, nofun⟩

theorem Blocked.step {turn next : Turn} {action : Action} (blocked : Blocked turn)
    (stepped : system.step turn action = some next) : Blocked next := by
  cases action with
  | enter =>
      obtain ⟨_, entered⟩ := Option.ite_none_right_eq_some.mp stepped
      rcases enter_cases turn with ⟨same, refused⟩ | ⟨same, _⟩
      · rw [← Option.some.inj entered, same]
        exact ⟨nofun, fun _ => refused.imp_right fun asking => ⟨rfl, asking⟩⟩
      · rw [← Option.some.inj entered, same]
        exact ⟨fun _ => rfl, nofun⟩
  | loopFails context | loopRaises context =>
      obtain ⟨looping, failed⟩ := Option.ite_none_right_eq_some.mp stepped
      rw [← Option.some.inj failed]
      exact ⟨nofun, fun _ => Or.inl (blocked.looping looping)⟩
  | loopEnds context =>
      obtain ⟨_, done⟩ := Option.ite_none_right_eq_some.mp stepped
      rw [← Option.some.inj done]
      exact ⟨nofun, nofun⟩
  | recover result cancelled records notice =>
      obtain ⟨failed, recovered⟩ := Option.ite_none_right_eq_some.mp stepped
      obtain ⟨outside, again⟩ := turn.recovery_phase result cancelled records notice
      rw [← Option.some.inj recovered]
      refine ⟨fun looping => absurd looping outside, fun anew => ?_⟩
      obtain ⟨calm, lock⟩ := again anew
      rcases blocked.failed failed with holds | ⟨raised, _⟩
      · exact Or.inl (lock.trans holds)
      · rw [calm] at raised
        cases raised

/-! ### Retried attempts -/

/-- The loop is at work and its context has every message of the view once. -/
def SeesOnce (view : List Msg) (turn : Turn) : Prop :=
  turn.phase = .looping ∧
    ∀ message ∈ view, turn.runner.context.countP (fun item => decide (item.id = message.id)) = 1

private theorem accepted_spec {turn ready : Turn} {result : Option RetryRequest} {cancelled : Bool}
    {records : Option (List Msg)} {notice : RetryNotice}
    (recovered : system.step turn (.recover result cancelled records notice) = some ready)
    (accepted : ready.phase = .ready) :
    turn.phase = .failed ∧ ready.runner.holdsTask = turn.runner.holdsTask ∧
      (ready.runner.context = turn.runner.context ∨
        ∃ view, records = some view ∧ view ≠ [] ∧ ready.runner.context = view ∧
          ready.messages = view.map .typed) := by
  obtain ⟨failed, recovery⟩ := Option.ite_none_right_eq_some.mp recovered
  have same := Option.some.inj recovery
  refine ⟨failed, ?_⟩
  subst same
  unfold requestErrorRecovery at accepted ⊢
  cases result with
  | none => cases accepted
  | some request =>
      dsimp only at accepted ⊢
      by_cases granted : turn.accepts request cancelled = true
      · rw [if_pos granted] at accepted ⊢
        cases notice with
        | cancelled => cases accepted
        | raises =>
            dsimp only at accepted
            split at accepted <;> cases accepted
        | written =>
            refine ⟨refresh_runner _ records, ?_⟩
            cases records with
            | none => exact Or.inl rfl
            | some view =>
                cases view with
                | nil => exact Or.inl rfl
                | cons first rest =>
                    exact Or.inr ⟨first :: rest, rfl, List.cons_ne_nil _ _, rfl, rfl⟩
      · rw [if_neg granted] at accepted
        cases accepted

theorem foldl_addRaw_typed (view context : List Msg) :
    (view.map ContextInput.typed).foldl MessageContext.addRaw context = context ++ view := by
  induction view generalizing context with
  | nil => exact (List.append_nil context).symm
  | cons message rest ih =>
      rw [List.map_cons, List.foldl_cons, ih]
      change context ++ [message] ++ rest = context ++ message :: rest
      rw [List.append_assoc, List.singleton_append]

private theorem retry_refused_or_doubled {turn ready next : Turn} {result : Option RetryRequest}
    {cancelled : Bool} {records : Option (List Msg)} {notice : RetryNotice} (blocked : Blocked turn)
    (recovered : system.step turn (.recover result cancelled records notice) = some ready)
    (accepted : ready.phase = .ready) (entered : system.step ready .enter = some next) :
    next.phase = .failed ∨ next.phase = .looping ∧
      ∃ view, records = some view ∧ view ≠ [] ∧ next.runner.context = view ++ view := by
  obtain ⟨failed, lock, context⟩ := accepted_spec recovered accepted
  obtain ⟨_, entry⟩ := Option.ite_none_right_eq_some.mp entered
  rcases enter_cases ready with ⟨same, _⟩ | ⟨same, unlocked, silent⟩
  · left
    rw [← Option.some.inj entry, same]
  · right
    rw [lock] at unlocked
    rcases blocked.failed failed with holds | ⟨_, asking⟩
    · rw [holds] at unlocked
      cases unlocked
    rcases context with unchanged | ⟨view, read, nonempty, refreshed, messages⟩
    · unfold Runner.asking at silent asking
      rw [unchanged, asking] at silent
      cases silent
    · rw [← Option.some.inj entry, same]
      refine ⟨rfl, view, read, nonempty, ?_⟩
      change ready.messages.foldl MessageContext.addRaw ready.runner.context = view ++ view
      rw [messages, refreshed, foldl_addRaw_typed]

private theorem not_seesOnce_of_doubled {view : List Msg} {turn : Turn} (nonempty : view ≠ [])
    (doubled : turn.runner.context = view ++ view) : ¬ SeesOnce view turn := by
  rintro ⟨_, once⟩
  obtain ⟨message, member⟩ := List.exists_mem_of_ne_nil view nonempty
  have count := once message member
  have present : 0 < view.countP fun item => decide (item.id = message.id) := by
    apply List.countP_pos_iff.mpr
    exact ⟨message, member, decide_eq_true rfl⟩
  rw [doubled, List.countP_append] at count
  omega

/-- No retried attempt sees the refreshed view once: it is refused, or its context has the view
twice. -/
theorem retry_never_sees_view_once (context : List Msg) (messages : List ContextInput)
    {turn ready next : Turn} {result : Option RetryRequest} {cancelled : Bool}
    {records : Option (List Msg)} {notice : RetryNotice}
    (ran : system.Reaches StepSystem.anyStep (start context messages) turn)
    (recovered : system.step turn (.recover result cancelled records notice) = some ready)
    (accepted : ready.phase = .ready) (entered : system.step ready .enter = some next) :
    ¬ SeesOnce (records.getD []) next ∧
      (next.phase = .failed ∨ next.phase = .looping ∧
        ∃ view, records = some view ∧ view ≠ [] ∧ next.runner.context = view ++ view) := by
  have blocked : Blocked turn := by
    apply ran.invariant (blocked_start context messages)
    intro before action after blocked _ stepped
    exact blocked.step stepped
  have outcome := retry_refused_or_doubled blocked recovered accepted entered
  refine ⟨?_, outcome⟩
  rcases outcome with failed | ⟨_, view, read, nonempty, doubled⟩
  · rintro ⟨looping, _⟩
    rw [failed] at looping
    cases looping
  · rw [read]
    exact not_seesOnce_of_doubled nonempty doubled

private def greeting : Msg :=
  Msg.plain "user_1" .user [.text ⟨"hello", "text_1", "t", none⟩] "t"

private def question : Msg :=
  Msg.plain "turn_0" .assistant
    [.toolCall ⟨"call_1", "bash", .empty, .asking, "t", none⟩] "t"

private def compacted : RetryRequest where
  progressToken := "compacted"
  maxAttempts := 1
  visible := by decide
  positive := Nat.one_pos

/-- The recovery read the session view back with the user's message in it. -/
private def recovery : Action := .recover (some compacted) false (some [greeting]) .written

private def retried : List Action := [.enter, .loopFails [greeting], recovery, .enter]

theorem retry_loses_refreshed_view :
    (∃ next, system.run (start [] [.typed greeting]) retried = some next ∧
      next.phase = .failed ∧ ¬ SeesOnce [greeting] next) ∧
    ∃ next, system.run (start [question] [.typed greeting]) [.enter, recovery, .enter] = some next ∧
      next.phase = .looping ∧ next.runner.context = [greeting, greeting] ∧
      ¬ SeesOnce [greeting] next := by
  constructor
  · refine ⟨_, rfl, rfl, ?_⟩
    rintro ⟨looping, _⟩
    cases looping
  · refine ⟨_, rfl, rfl, rfl, ?_⟩
    exact not_seesOnce_of_doubled (List.cons_ne_nil _ _) rfl

private def failedTurn : Turn where
  phase := .failed
  runner := ⟨[greeting], true⟩
  messages := [.typed greeting]
  retryTokens := []
  retryCount := 0
  raised := false

theorem greeting_retry_refused :
    ¬ SeesOnce [greeting] ((failedTurn.requestErrorRecovery (some compacted) false
      (some [greeting]) .written).enter) := by
  have ran : system.Reaches StepSystem.anyStep (start [] [.typed greeting]) failedTurn := by
    have run : system.run (start [] [.typed greeting]) [.enter, .loopFails [greeting]] =
        some failedTurn := rfl
    exact StepSystem.reaches_of_run run
  exact (retry_never_sees_view_once [] [.typed greeting] ran
    (rfl : system.step failedTurn recovery = some _) rfl rfl).1

/-! ### The number of attempts -/

def Action.isEnter : Action → Bool
  | .enter => true
  | _ => false

/-- The recovery is accepted and counted. -/
def counts (turn : Turn) : Action → Bool
  | .recover (some request) cancelled _ _ => turn.accepts request cancelled
  | _ => false

/-- The recovery is accepted, and it returns. -/
def grants (turn : Turn) : Action → Bool
  | .recover (some request) cancelled _ .written => turn.accepts request cancelled
  | _ => false

/-- How many steps of a run are of a kind. -/
def tally (kind : Turn → Action → Bool) (turn : Turn) : List Action → Nat
  | [] => 0
  | action :: rest =>
      match system.step turn action with
      | some next => (if kind turn action then 1 else 0) + tally kind next rest
      | none => 0

/-- A request for recovery allows at most so many attempts. -/
def Action.Allows (limit : Nat) : Action → Prop
  | .recover (some request) _ _ _ => request.maxAttempts ≤ limit
  | _ => True

/-- One, while the next attempt is still to be entered. -/
def ahead (turn : Turn) : Nat := if turn.phase = .ready then 1 else 0

/-- Each counted recovery has a token of its own, and they are no more than allowed. -/
def Accounted (limit : Nat) (turn : Turn) : Prop :=
  turn.retryTokens.Nodup ∧ turn.retryTokens.length = turn.retryCount ∧ turn.retryCount ≤ limit

private theorem accounted_counted {limit : Nat} {turn : Turn} {request : RetryRequest}
    {cancelled : Bool} (accounted : turn.Accounted limit) (allowed : request.maxAttempts ≤ limit)
    (granted : turn.accepts request cancelled = true) : (turn.counted request).Accounted limit := by
  obtain ⟨distinct, length, _⟩ := accounted
  simp only [accepts, Bool.and_eq_true, decide_eq_true_eq] at granted
  exact ⟨by simpa [counted] using distinct.concat granted.1.2, by simp [counted, length],
    Nat.le_trans granted.2 allowed⟩

private theorem accounted_step {limit : Nat} {turn next : Turn} {action : Action}
    (accounted : turn.Accounted limit) (allowed : action.Allows limit)
    (stepped : system.step turn action = some next) :
    next.Accounted limit ∧
      next.retryCount = turn.retryCount + (if turn.counts action then 1 else 0) ∧
      (if action.isEnter then 1 else 0) + next.ahead =
        (if turn.grants action then 1 else 0) + turn.ahead := by
  cases action with
  | enter =>
      obtain ⟨ready, entered⟩ := Option.ite_none_right_eq_some.mp stepped
      rw [← Option.some.inj entered]
      rcases enter_cases turn with ⟨same, _⟩ | ⟨same, _⟩ <;> rw [same] <;>
        exact ⟨accounted, rfl, by simp [ahead, ready, Action.isEnter, grants]⟩
  | loopFails context | loopRaises context | loopEnds context =>
      obtain ⟨looping, left⟩ := Option.ite_none_right_eq_some.mp stepped
      rw [← Option.some.inj left]
      exact ⟨accounted, rfl, by simp [ahead, looping, Action.isEnter, grants]⟩
  | recover result cancelled records notice =>
      obtain ⟨failed, recovered⟩ := Option.ite_none_right_eq_some.mp stepped
      rw [← Option.some.inj recovered]
      cases result with
      | none => exact ⟨accounted, rfl, by simp [requestErrorRecovery, ahead, failed, Action.isEnter,
          grants]⟩
      | some request =>
          by_cases granted : turn.accepts request cancelled = true
          · have grown := accounted_counted accounted allowed granted
            obtain ⟨tokens, count⟩ := refresh_counts (turn.counted request) records
            have one : (if turn.counts (.recover (some request) cancelled records notice) then 1
                else 0) = 1 := if_pos granted
            unfold Accounted at grown ⊢
            unfold requestErrorRecovery
            dsimp only
            rw [if_pos granted, one]
            cases notice with
            | written | cancelled =>
                dsimp only
                rw [tokens, count]
                exact ⟨grown, rfl, by simp [ahead, failed, Action.isEnter, grants, granted]⟩
            | raises =>
                dsimp only
                rw [tokens, count]
                refine ⟨grown, rfl, ?_⟩
                cases turn.raised <;> simp [ahead, failed, Action.isEnter, grants]
          · have none : (if turn.counts (.recover (some request) cancelled records notice) then 1
                else 0) = 0 := if_neg granted
            unfold requestErrorRecovery
            dsimp only
            rw [if_neg granted, none]
            refine ⟨accounted, rfl, ?_⟩
            cases notice <;> simp [ahead, failed, Action.isEnter, grants, granted]

private theorem accounted_run {limit : Nat} {actions : List Action} {before turn : Turn}
    (accounted : before.Accounted limit) (allowed : ∀ action ∈ actions, action.Allows limit)
    (ran : system.run before actions = some turn) :
    turn.Accounted limit ∧ turn.retryCount = before.retryCount + tally counts before actions ∧
      actions.countP Action.isEnter + turn.ahead = tally grants before actions + before.ahead := by
  induction actions generalizing before with
  | nil =>
      cases ran
      exact ⟨accounted, rfl, rfl⟩
  | cons action rest ih =>
      obtain ⟨next, stepped, later⟩ := Option.bind_eq_some_iff.mp ran
      obtain ⟨now, counted, entered⟩ :=
        accounted_step accounted (allowed _ List.mem_cons_self) stepped
      obtain ⟨final, countedLater, enteredLater⟩ :=
        ih now (fun other member => allowed other (List.mem_cons_of_mem _ member)) later
      simp only [tally, stepped, List.countP_cons]
      exact ⟨final, by omega, by omega⟩

private theorem tally_grants_le (turn : Turn) (actions : List Action) :
    tally grants turn actions ≤ tally counts turn actions := by
  induction actions generalizing turn with
  | nil => exact Nat.le_refl 0
  | cons action rest ih =>
      unfold tally
      cases system.step turn action with
      | none => exact Nat.le_refl 0
      | some next =>
          have counted : turn.grants action = true → turn.counts action = true := by
            unfold grants counts
            split <;> simp_all
          refine Nat.add_le_add ?_ (ih next)
          by_cases granted : turn.grants action = true
          · rw [if_pos granted, if_pos (counted granted)]
          · rw [if_neg granted]
            exact Nat.zero_le _

/-- Each counted recovery of a turn has a token of its own, and they stay within the requests of the
run; an attempt follows each recovery that returns, and no other, so the attempts stay within one
more. -/
theorem attempts_bounded (context : List Msg) (messages : List ContextInput) (limit : Nat)
    {actions : List Action} {turn : Turn} (allowed : ∀ action ∈ actions, action.Allows limit)
    (ran : system.run (start context messages) actions = some turn) :
    turn.Accounted limit ∧ turn.retryCount = tally counts (start context messages) actions ∧
      actions.countP Action.isEnter + turn.ahead =
        tally grants (start context messages) actions + 1 ∧
      actions.countP Action.isEnter ≤ limit + 1 := by
  have initially : (start context messages).Accounted limit :=
    ⟨List.nodup_nil, rfl, Nat.zero_le limit⟩
  obtain ⟨accounted, counted, entered⟩ := accounted_run initially allowed ran
  have granted := tally_grants_le (start context messages) actions
  have within := accounted.2.2
  change turn.retryCount = 0 + _ at counted
  change _ = _ + 1 at entered
  exact ⟨accounted, by omega, entered, by omega⟩

private def shorter : RetryRequest where
  progressToken := "shorter"
  maxAttempts := 2
  visible := by decide
  positive := by decide

/-- The append of the first `turn/retry` raises, and the handler asks once more. -/
private def twiceRecovered : List Action :=
  [.enter, .loopFails [greeting], .recover (some compacted) false (some [greeting]) .raises,
    .recover (some shorter) false none .written, .enter]

theorem retried_once :
    ∃ turn, system.run (start [] [.typed greeting]) twiceRecovered = some turn ∧
      turn.retryCount = 2 ∧ turn.Accounted 2 ∧ twiceRecovered.countP Action.isEnter = 2 := by
  obtain ⟨accounted, _⟩ := attempts_bounded [] [.typed greeting] 2
    (by simp [twiceRecovered, Action.Allows, compacted, shorter])
    (rfl : system.run _ twiceRecovered = some _)
  exact ⟨_, rfl, rfl, accounted, rfl⟩

end Turn

end Ftre.Runtime
