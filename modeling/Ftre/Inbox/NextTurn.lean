import Ftre.Agent.ServiceRuns
import Ftre.Inbox.Delivery

/-!
From the queue to a turn.
-/

namespace Ftre.Inbox

open Lib Message Session Ftre.Agent

structure Gates where
  requestState : Option String
  activeSession : Bool
  channelId : Option String
  rejected : Bool

/-- `run_input` makes the turn's task. -/
def Gates.pass (gates : Gates) (request : AgentRunRequest) : Bool :=
  gates.requestState.isNone && !gates.activeSession &&
    decide (gates.channelId = some request.channelId) && !gates.rejected

inductive Dispatch where
  | absent
  | claiming
  | admitted (entry : Nat) (item : QueueItem) (request : AgentRunRequest)
  | started (entry : Nat) (request : AgentRunRequest)
  | ended
  /-- The item left the queue and no turn was started for it. -/
  | lost (item : QueueItem)

structure NextTurn where
  delivery : Delivery
  runs : ServiceRuns
  dispatches : Nat → Dispatch

namespace NextTurn

def opened (capacity : Nat) (service : ServiceState) : NextTurn where
  delivery := .opened capacity service
  runs := .fresh
  dispatches _ := .absent

def setDispatch (state : NextTurn) (attempt : Nat) (dispatch : Dispatch) : NextTurn :=
  { state with dispatches := Function.update state.dispatches attempt dispatch }

def setService (state : NextTurn) (service : AgentService) : NextTurn :=
  { state with runs := { state.runs with service := service } }

/-! ### The dispatch -/

/-- `status` is one of the busy ones; `running` is what the engine says of a session. -/
def statusBusy (service : AgentService) (running : String → Bool) (id : String) : Bool :=
  match service.entries.find? id with
  | some entry =>
      decide ((service.entryOf entry).state = .paused) ||
        running ((service.entryOf entry).session id)
  | none => running id

/-- `_agent_busy`: the session's agents, the session itself and its reservations. -/
def agentBusy (runs : ServiceRuns) (running : String → Bool) (sessionId : String) : Bool :=
  (runs.service.entries.entries.any fun item =>
    decide ((runs.service.entryOf item.2).sessionId = some sessionId) &&
      statusBusy runs.service running item.1) ||
  statusBusy runs.service running sessionId ||
  (runs.service.expireReservations runs.now).reservations.values.any fun reservation =>
    decide (reservation.sessionId = sessionId)

def profileId (item : QueueItem) : String := if item.agentId = "" then "default" else item.agentId

def agentIdOf (item : QueueItem) : String := item.sessionId ++ ":" ++ profileId item

/-- `_ensure_agent`; the id is not blank, and not taken where it is created. -/
def ensureAgent (service : AgentService) (item : QueueItem) : AgentService :=
  if service.entries.contains (agentIdOf item) then service
  else
    match service.create (agentIdOf item) (some item.sessionId) with
    | .ok created => created
    | .error _ => service

/-- `_to_agent_request`; the message of a plain item has generated coordinates. -/
def toAgentRequest (item : QueueItem) (id createdAt : String) : AgentRunRequest where
  sessionId := item.sessionId
  requestId := item.requestId
  messages := item.normalizedMessages id createdAt
  agentId := some (agentIdOf item)
  channelId := item.channelId
  source := item.source.value
  metadata :=
    let base := KeyedTable.ofList
      [("agent_id", Json.str (profileId item)), ("profile_agent_id", .str (profileId item)),
        ("attachments", .array item.attachments)]
    match item.historyMessageId.filter fun id => id ≠ "" with
    | some id => base.set "history_message_id" (.str id)
    | none => base

def held (state : NextTurn) (attempt : Nat) : Option QueueItem :=
  match state.dispatches attempt, state.delivery.attempts attempt with
  | .claiming, .ended (item :: _) => some item
  | .admitted _ item _, _ => some item
  | _, _ => none

def takes (state : NextTurn) (attempt : Nat) : List QueueItem :=
  match state.dispatches attempt, state.delivery.attempts attempt with
  | .claiming, .persisting candidates [] _ _ =>
      (state.delivery.inbox.claim (candidates.map QueueItem.requestId)).1
  | _, _ => []

def drop (state : NextTurn) (attempt : Nat) : Dispatch :=
  match state.held attempt, state.dispatches attempt with
  | some item, _ => .lost item
  | none, .started _ _ => .ended
  | none, dispatch => dispatch

def release (state : NextTurn) (attempt : Nat) : NextTurn :=
  match state.dispatches attempt with
  | .admitted entry item request =>
      state.setService (state.runs.service.settleRun entry (agentIdOf item) request .cancelled)
  | _ => state

/-- The claimed item is handed to `run`. -/
def handOver (state : NextTurn) (attempt : Nat) (item : QueueItem) (active : String → Bool)
    (request : AgentRunRequest) : NextTurn :=
  let (service, admission) := (ensureAgent state.runs.service item).admitRun state.runs.now active
    (agentIdOf item) request
  (state.setService service).setDispatch attempt
    (match admission with
    | .admitted entry => .admitted entry item request
    | _ => .lost item)

inductive Action where
  | queue (action : Delivery.Action)
  | service (action : ServiceAction)
  | dispatch (attempt : Nat) (running : String → Bool)
  | run (attempt : Nat) (active : String → Bool) (id createdAt : String)
  /-- The engine takes the item; `reply` is what it answers where it makes no task. -/
  | enter (attempt : Nat) (gates : Gates) (reply : RunReply)
  | settle (attempt : Nat) (reply : RunReply)
  | stop (attempt : Nat)
  | persist (time : Int) (generated requestId : String) (content : List Json)
      (metadata : KeyedTable String Json)
  | restart

def step (state : NextTurn) : Action → Option NextTurn
  | .queue action =>
      match action with
      | .begin _ .nextTurn => none
      | .claimRaises attempt =>
          (state.delivery.step action).map fun delivery =>
            let next := { state with delivery := delivery }
            match state.takes attempt with
            | item :: _ => next.setDispatch attempt (.lost item)
            | [] => next
      | _ => (state.delivery.step action).map fun delivery => { state with delivery := delivery }
  | .service action => (state.runs.step action).map fun runs => { state with runs := runs }
  | .dispatch attempt running =>
      if agentBusy state.runs running state.delivery.service.sessionId then none
      else
        match state.dispatches attempt with
        | .absent => (state.delivery.step (.begin attempt .nextTurn)).map fun delivery =>
            { state with delivery := delivery }.setDispatch attempt .claiming
        | _ => none
  | .run attempt active id createdAt =>
      match state.dispatches attempt, state.delivery.attempts attempt with
      | .claiming, .ended (item :: _) =>
          some (state.handOver attempt item active (toAgentRequest item id createdAt))
      | _, _ => none
  | .enter attempt gates reply =>
      match state.dispatches attempt with
      | .admitted entry item request =>
          if gates.pass request then
            some (state.setDispatch attempt (.started entry request))
          else
            some ((state.setService (state.runs.service.settleRun entry (agentIdOf item) request
              reply)).setDispatch attempt (.lost item))
      | _ => none
  | .settle attempt reply =>
      match state.dispatches attempt with
      | .started entry request =>
          some ((state.setService (state.runs.service.settleRun entry (request.agentId.getD "")
            request reply)).setDispatch attempt .ended)
      | _ => none
  | .stop attempt =>
      (state.held attempt).map fun item => (state.release attempt).setDispatch attempt (.lost item)
  | .persist time generated requestId content metadata =>
      some { state with
        delivery := { state.delivery with
          service := (state.delivery.service.appendUserMessageIfAbsent time generated requestId
            content metadata).2 } }
  | .restart =>
      some { state with
        delivery := { state.delivery with
          attempts := fun attempt =>
            if state.delivery.attempts attempt = .absent then .absent else .ended [] }
        runs := .fresh
        dispatches := state.drop }

def system : StepSystem NextTurn Action := ⟨step⟩

/-- No dispatch lost its item. -/
def Kept (dispatches : Nat → Dispatch) : Prop := ∀ attempt item, dispatches attempt ≠ .lost item

/-- `run` admits the item: nothing was answered to its request, and its agent is neither
paused nor in flight nor of an active session. -/
def Admits (state : NextTurn) (active : String → Bool) (item : QueueItem)
    (request : AgentRunRequest) : Prop :=
  ∃ entry, ReachesChecks (ensureAgent state.runs.service item) (agentIdOf item) request entry ∧
    (ensureAgent state.runs.service item).busy active (agentIdOf item) entry = none

/-- What a step must respect for every claimed item to be run: the claim that takes it can be
written, `run` admits it, the engine's gates let it pass, and nothing stops a dispatch that holds
it. -/
def HandsOver (state : NextTurn) : Action → Prop
  | .queue (.claimRaises attempt) => state.takes attempt = []
  | .run attempt active id createdAt => ∀ item rest,
      state.delivery.attempts attempt = .ended (item :: rest) →
        state.Admits active item (toAgentRequest item id createdAt)
  | .enter attempt gates _ => ∀ entry item request,
      state.dispatches attempt = .admitted entry item request → gates.pass request = true
  | .stop _ => False
  | .restart => ∀ attempt, state.held attempt = none
  | _ => True

private theorem kept_update {dispatches : Nat → Dispatch} (kept : Kept dispatches) (attempt : Nat)
    {dispatch : Dispatch} (whole : ∀ item, dispatch ≠ .lost item) :
    Kept (Function.update dispatches attempt dispatch) := by
  intro other item
  by_cases same : other = attempt
  · rw [same, Function.update_self]
    exact whole item
  · rw [Function.update_of_ne same]
    exact kept other item

private theorem not_kept_update (dispatches : Nat → Dispatch) (attempt : Nat) (item : QueueItem) :
    ¬ Kept (Function.update dispatches attempt (.lost item)) := fun kept =>
  kept attempt item (Function.update_self ..)

private theorem handOver_kept_iff {state : NextTurn} (kept : Kept state.dispatches) (attempt : Nat)
    (item : QueueItem) (active : String → Bool) (request : AgentRunRequest) :
    Kept (state.handOver attempt item active request).dispatches ↔
      state.Admits active item request := by
  unfold handOver Admits
  rcases (ensureAgent state.runs.service item).admitRun_cases state.runs.now active
    (agentIdOf item) request with ⟨unreached, answered⟩ | ⟨entry, reaches, met⟩
  · apply iff_of_false
    · rcases answered with ⟨result, same⟩ | ⟨error, _, same⟩
      · rw [same]
        exact not_kept_update _ attempt item
      · rw [same]
        exact not_kept_update _ attempt item
    · rintro ⟨entry, reaches, _⟩
      exact unreached entry reaches
  · rcases met with ⟨message, busy, same⟩ | ⟨free, same⟩
    · rw [same]
      apply iff_of_false (not_kept_update _ attempt item)
      rintro ⟨other, found, free⟩
      rw [Option.some.inj (found.found.symm.trans reaches.found), busy] at free
      cases free
    · rw [same]
      apply iff_of_true
      · apply kept_update kept
        nofun
      · exact ⟨entry, reaches, free⟩

private theorem drop_kept_iff {state : NextTurn} (kept : Kept state.dispatches) :
    Kept state.drop ↔ ∀ attempt, state.held attempt = none := by
  constructor
  · intro whole attempt
    cases holds : state.held attempt with
    | none => rfl
    | some item =>
        have lost := whole attempt item
        unfold drop at lost
        rw [holds] at lost
        exact absurd rfl lost
  · intro empty attempt item
    have whole := kept attempt item
    unfold drop
    rw [empty attempt]
    cases stands : state.dispatches attempt with
    | lost other =>
        rw [stands] at whole
        exact whole
    | _ => nofun

/-! ### Runs -/

private theorem step_spec {before after : NextTurn} {action : Action}
    (stepped : system.step before action = some after) (kept : Kept before.dispatches) :
    Kept after.dispatches ↔ HandsOver before action := by
  change before.step action = some after at stepped
  cases action with
  | queue action =>
      dsimp only [step] at stepped
      split at stepped
      · cases stepped
      · rename_i attempt
        obtain ⟨delivery, _, same⟩ := Option.map_eq_some_iff.mp stepped
        rw [← same]
        unfold HandsOver
        dsimp only
        cases taken : before.takes attempt with
        | nil => exact iff_of_true kept rfl
        | cons item rest => exact iff_of_false (not_kept_update _ attempt item) (List.cons_ne_nil _ _)
      · rename_i other
        obtain ⟨delivery, _, same⟩ := Option.map_eq_some_iff.mp stepped
        rw [← same]
        refine iff_of_true kept ?_
        unfold HandsOver
        split
        · rename_i same
          cases same
          exact absurd rfl (other _)
        all_goals trivial
  | service action =>
      obtain ⟨runs, _, same⟩ := Option.map_eq_some_iff.mp stepped
      rw [← same]
      exact iff_of_true kept trivial
  | dispatch attempt running =>
      dsimp only [step] at stepped
      obtain ⟨_, begins⟩ := Option.ite_none_left_eq_some.mp stepped
      split at begins
      · obtain ⟨delivery, _, same⟩ := Option.map_eq_some_iff.mp begins
        rw [← same]
        exact iff_of_true (kept_update kept attempt nofun) trivial
      · cases begins
  | run attempt active id createdAt =>
      dsimp only [step] at stepped
      split at stepped
      · rename_i item rest _ claimed
        cases stepped
        rw [handOver_kept_iff kept]
        constructor
        · intro admits other others same
          rw [claimed] at same
          cases same
          exact admits
        · intro admits
          exact admits item rest claimed
      · cases stepped
  | enter attempt gates reply =>
      dsimp only [step] at stepped
      split at stepped
      · rename_i entry item request stands
        have hands : HandsOver before (.enter attempt gates reply) ↔ gates.pass request = true := by
          simp [HandsOver, stands]
        rw [hands]
        split at stepped
        · rename_i pass
          cases stepped
          exact iff_of_true (kept_update kept attempt nofun) pass
        · rename_i refused
          cases stepped
          exact iff_of_false (not_kept_update _ attempt item) refused
      · cases stepped
  | settle attempt reply =>
      dsimp only [step] at stepped
      split at stepped
      · cases stepped
        exact iff_of_true (kept_update kept attempt nofun) trivial
      · cases stepped
  | stop attempt =>
      obtain ⟨item, _, same⟩ := Option.map_eq_some_iff.mp stepped
      rw [← same]
      exact iff_of_false (not_kept_update _ attempt item) id
  | persist time generated requestId content metadata =>
      cases stepped
      exact iff_of_true kept trivial
  | restart =>
      cases stepped
      exact drop_kept_iff kept

/-- In a run, every claimed item gets its turn exactly where every item handed over is admitted
and passes the gates, and no dispatch is stopped while it holds one. -/
theorem claimed_items_started_iff (capacity : Nat) (service : ServiceState)
    (actions : List Action) :
    system.Always (fun state => Kept state.dispatches) (opened capacity service) actions ↔
      system.EachStep HandsOver (opened capacity service) actions := by
  apply StepSystem.always_iff_eachStep
  · intro before action after kept stepped
    exact step_spec stepped kept
  · intro attempt item
    nofun

private def greeting : Submission where
  item := ⟨"request-1", 0, "session-1", "web", "hi", [], .user, none, [], "default"⟩
  unnumbered := le_rfl

private def session : NextTurn := opened 100 (.created "session-1")

private def created : Action := .service (.create "session-1:default" (some "session-1"))

private def request (id : String) : AgentRunRequest :=
  ⟨"session-1", id, [], some "session-1:default", "web", "user", .empty⟩

private def runBegins (call : Nat) (id : String) : Action :=
  .service (.runBegins call "session-1:default" (request id) fun _ => false)

/-- Another run of the agent is admitted between the check of the dispatch and its run. -/
theorem claimed_item_lost :
    ∃ final, system.run session
        [created, .queue (.followup greeting .nextTurn true false), .dispatch 0 fun _ => false,
          .queue (.decide 0 .enter), .queue (.persist 0 0 ""), .queue (.claim 0),
          runBegins 7 "request-2", .run 0 (fun _ => false) "" ""] = some final ∧
      ¬ Kept final.dispatches := by
  refine ⟨_, rfl, ?_⟩
  intro kept
  exact kept 0 _ rfl

end NextTurn

end Ftre.Inbox
