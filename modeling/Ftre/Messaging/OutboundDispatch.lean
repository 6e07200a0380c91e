import Ftre.Lib.KeyedTable
import Ftre.Lib.StepSystem

/-!
The one task that hands outbound messages to the channels.
-/

namespace Ftre.Messaging

open Lib

structure OutboundMessage where
  toChannel : String
  type : String
  payload : Nat
deriving DecidableEq

abbrev Channel := String × Nat

def globalChannel : String := "*"

def wsChannelId : String := "ws"

/-- `self._channels.get(channel_id)`. -/
def channelOf (channels : KeyedTable String Nat) (channelId : String) : Option Channel :=
  (channels.find? channelId).map fun instanceId => (channelId, instanceId)

def targets (channels : KeyedTable String Nat) (message : OutboundMessage) : List Channel :=
  if message.toChannel = globalChannel then channels.entries
  else
    let channel := channelOf channels message.toChannel
    if message.type = "downstream_frame" then
      let wsChannel := channelOf channels wsChannelId
      channel.toList ++ (wsChannel.filter fun ws => channel ≠ some ws).toList
    else channel.toList

inductive DispatchPhase where
  | waiting
  /-- A send to the first of the channels is awaited. -/
  | sending (message : OutboundMessage) (channel : Channel) (rest : List Channel)
  | ended (message : OutboundMessage) (rest : List Channel)

/-- A message with the channels there were when it was taken. -/
structure Dispatched where
  message : OutboundMessage
  channels : KeyedTable String Nat

structure Dispatcher where
  channels : KeyedTable String Nat
  queue : List OutboundMessage
  phase : DispatchPhase
  handed : List (OutboundMessage × Channel)
  published : List OutboundMessage
  taken : List Dispatched

inductive DispatchAction where
  | publish (message : OutboundMessage)
  | register (channelId : String) (instanceId : Nat)
  | unregister (channelId : String)
  | take
  | sent
  | raised

namespace Dispatcher

def started (channels : KeyedTable String Nat) : Dispatcher where
  channels := channels
  queue := []
  phase := .waiting
  handed := []
  published := []
  taken := []

def goOn (message : OutboundMessage) : List Channel → DispatchPhase
  | [] => .waiting
  | channel :: rest => .sending message channel rest

def step (state : Dispatcher) : DispatchAction → Option Dispatcher
  | .publish message => some { state with
      queue := state.queue ++ [message]
      published := state.published ++ [message] }
  | .register channelId instanceId =>
      if state.channels.contains channelId then none
      else some { state with channels := state.channels.set channelId instanceId }
  | .unregister channelId => some { state with channels := state.channels.erase channelId }
  | .take =>
      match state.phase, state.queue with
      | .waiting, message :: rest => some { state with
          queue := rest
          phase := goOn message (targets state.channels message)
          taken := state.taken ++ [⟨message, state.channels⟩] }
      | _, _ => none
  | .sent =>
      match state.phase with
      | .sending message channel rest => some { state with
          phase := goOn message rest
          handed := state.handed ++ [(message, channel)] }
      | _ => none
  | .raised =>
      match state.phase with
      | .sending message channel rest => some { state with
          phase := .ended message rest
          handed := state.handed ++ [(message, channel)] }
      | _ => none

end Dispatcher

def outbound : StepSystem Dispatcher DispatchAction := ⟨Dispatcher.step⟩

def Wanted (message : OutboundMessage) (channel : Channel) : Prop :=
  message.toChannel = globalChannel ∨ channel.1 = message.toChannel ∨
    (message.type = "downstream_frame" ∧ channel.1 = wsChannelId)

/-- The channels of a list are those that are registered and wanted, each once. -/
structure Targets (dispatched : Dispatched) (channels : List Channel) : Prop where
  once : channels.Nodup
  exact : ∀ channel, channel ∈ channels ↔
    channel ∈ dispatched.channels.entries ∧ Wanted dispatched.message channel

def DispatchPhase.pending : DispatchPhase → List (OutboundMessage × Channel)
  | .waiting => []
  | .sending message channel rest => (channel :: rest).map fun other => (message, other)
  | .ended message rest => rest.map fun other => (message, other)

def DispatchPhase.isEnded : DispatchPhase → Bool
  | .ended _ _ => true
  | _ => false

/-- Messages are taken in the order of their publication and handed to their targets once each,
but for what the current message still has; and nothing waits for a task that has ended. -/
structure Delivered (state : Dispatcher) : Prop where
  inOrder : state.published = state.taken.map Dispatched.message ++ state.queue
  handed : ∃ lists : List (List Channel),
    List.Forall₂ Targets state.taken lists ∧
      state.handed ++ state.phase.pending =
        (List.zipWith (fun dispatched channels =>
          channels.map fun channel => (dispatched.message, channel)) state.taken lists).flatten
  flows : state.phase.isEnded = true → state.phase.pending = [] ∧ state.queue = []

/-- A send that raises is the last one there is. -/
def LastRaise (state : Dispatcher) : DispatchAction → Prop
  | .raised => ∀ message channel rest, state.phase = .sending message channel rest →
      rest = [] ∧ state.queue = []
  | .publish _ => state.phase.isEnded = false
  | _ => True

theorem channelOf_eq_some {channels : KeyedTable String Nat} {channelId : String}
    {channel : Channel} : channelOf channels channelId = some channel ↔
      channel ∈ channels.entries ∧ channel.1 = channelId := by
  obtain ⟨name, instanceId⟩ := channel
  unfold channelOf
  rw [Option.map_eq_some_iff]
  constructor
  · rintro ⟨found, present, same⟩
    cases same
    exact ⟨(channels.find?_eq_some_iff _ _).mp present, rfl⟩
  · rintro ⟨member, rfl⟩
    exact ⟨instanceId, (channels.find?_eq_some_iff _ _).mpr member, rfl⟩

theorem targets_lawful (channels : KeyedTable String Nat) (message : OutboundMessage) :
    Targets ⟨message, channels⟩ (targets channels message) := by
  unfold targets
  split
  next broadcast =>
    exact ⟨channels.distinct.of_map _, fun channel =>
      ⟨fun member => ⟨member, Or.inl broadcast⟩, And.left⟩⟩
  next direct =>
    dsimp only
    split
    next frame =>
      refine ⟨?_, fun channel => ?_⟩
      · rw [List.nodup_append]
        refine ⟨?_, ?_, fun left inOwner right inWs same => ?_⟩
        · cases channelOf channels message.toChannel with
          | none => exact List.nodup_nil
          | some owner => exact List.nodup_singleton owner
        · cases (channelOf channels wsChannelId).filter _ with
          | none => exact List.nodup_nil
          | some ws => exact List.nodup_singleton ws
        · rw [Option.mem_toList] at inOwner inWs
          obtain ⟨_, other⟩ := Option.filter_eq_some_iff.mp inWs
          rw [← same] at other
          exact of_decide_eq_true other inOwner
      · rw [List.mem_append, Option.mem_toList, Option.mem_toList, Option.filter_eq_some_iff,
          decide_eq_true_iff, channelOf_eq_some, channelOf_eq_some]
        constructor
        · rintro (⟨member, owner⟩ | ⟨⟨member, ws⟩, _⟩)
          · exact ⟨member, Or.inr (Or.inl owner)⟩
          · exact ⟨member, Or.inr (Or.inr ⟨frame, ws⟩)⟩
        · rintro ⟨member, broadcast | owner | ⟨_, ws⟩⟩
          · exact absurd broadcast direct
          · exact Or.inl ⟨member, owner⟩
          · by_cases owner : channelOf channels message.toChannel = some channel
            · exact Or.inl (channelOf_eq_some.mp owner)
            · exact Or.inr ⟨⟨member, ws⟩, owner⟩
    next plain =>
      refine ⟨?_, fun channel => ?_⟩
      · cases channelOf channels message.toChannel with
        | none => exact List.nodup_nil
        | some owner => exact List.nodup_singleton owner
      · rw [Option.mem_toList, channelOf_eq_some]
        constructor
        · exact fun both => ⟨both.1, Or.inr (Or.inl both.2)⟩
        · rintro ⟨member, broadcast | owner | ⟨frame, _⟩⟩
          · exact absurd broadcast direct
          · exact ⟨member, owner⟩
          · exact absurd frame plain

/-! ### Runs -/

theorem pending_goOn (message : OutboundMessage) (rest : List Channel) :
    (Dispatcher.goOn message rest).pending = rest.map fun other => (message, other) := by
  cases rest <;> rfl

theorem goOn_running (message : OutboundMessage) (rest : List Channel) :
    (Dispatcher.goOn message rest).isEnded = false := by
  cases rest <;> rfl

theorem delivered_started (channels : KeyedTable String Nat) :
    Delivered (Dispatcher.started channels) where
  inOrder := rfl
  handed := ⟨[], List.Forall₂.nil, rfl⟩
  flows := fun wrong => absurd wrong Bool.false_ne_true

theorem delivered_step {before after : Dispatcher} {action : DispatchAction}
    (delivered : Delivered before) (stepped : before.step action = some after) :
    Delivered after ↔ LastRaise before action := by
  obtain ⟨lists, lawful, handed⟩ := delivered.handed
  cases action with
  | publish message =>
      cases stepped
      constructor
      · intro kept
        refine Bool.eq_false_iff.mpr fun ended => ?_
        exact List.append_ne_nil_of_right_ne_nil _ (List.cons_ne_nil _ _) (kept.flows ended).2
      · intro running
        refine ⟨?_, ⟨lists, lawful, handed⟩, fun ended => ?_⟩
        · dsimp only
          rw [delivered.inOrder, List.append_assoc]
        · rw [running] at ended
          cases ended
  | register channelId instanceId =>
      rw [Dispatcher.step] at stepped
      split at stepped
      next => cases stepped
      next =>
        cases stepped
        exact iff_of_true ⟨delivered.inOrder, ⟨lists, lawful, handed⟩, delivered.flows⟩ trivial
  | unregister channelId =>
      cases stepped
      exact iff_of_true ⟨delivered.inOrder, ⟨lists, lawful, handed⟩, delivered.flows⟩ trivial
  | take =>
      rw [Dispatcher.step] at stepped
      split at stepped
      next message rest waiting queued =>
        cases stepped
        refine iff_of_true ⟨?_, ⟨lists ++ [targets before.channels message], ?_, ?_⟩, fun ended => ?_⟩
          trivial
        · dsimp only
          rw [delivered.inOrder, queued, List.map_append, List.append_assoc]
          rfl
        · exact List.rel_append lawful (List.Forall₂.cons (targets_lawful _ _) List.Forall₂.nil)
        · dsimp only
          rw [waiting] at handed
          have size := lawful.length_eq
          rw [pending_goOn, List.zipWith_append size, List.flatten_append, ← handed]
          change _ = (before.handed ++ []) ++ _
          rw [List.append_nil]
          simp
        · rw [goOn_running] at ended
          cases ended
      next => cases stepped
  | sent =>
      rw [Dispatcher.step] at stepped
      split at stepped
      next message channel rest sending =>
        cases stepped
        rw [sending] at handed
        refine iff_of_true ⟨delivered.inOrder, ⟨lists, lawful, ?_⟩, fun ended => ?_⟩ trivial
        · dsimp only
          rw [pending_goOn, List.append_assoc]
          exact handed
        · rw [goOn_running] at ended
          cases ended
      next => cases stepped
  | raised =>
      rw [Dispatcher.step] at stepped
      split at stepped
      next message channel rest sending =>
        cases stepped
        rw [sending] at handed
        constructor
        · intro kept other target more same
          rw [sending] at same
          cases same
          obtain ⟨empty, queue⟩ := kept.flows rfl
          exact ⟨List.map_eq_nil_iff.mp empty, queue⟩
        · intro last
          obtain ⟨empty, queue⟩ := last message channel rest sending
          refine ⟨delivered.inOrder, ⟨lists, lawful, ?_⟩, fun _ => ⟨?_, queue⟩⟩
          · dsimp only
            rw [List.append_assoc]
            exact handed
          · rw [empty]
            rfl
      next => cases stepped

/-- Every run hands each message to its targets exactly if no send raises that anything is still
to follow. -/
theorem dispatch_isolated_iff (channels : KeyedTable String Nat) (actions : List DispatchAction) :
    outbound.Always Delivered (.started channels) actions ↔
      outbound.EachStep LastRaise (.started channels) actions := by
  have each : ∀ before action after, Delivered before →
      outbound.step before action = some after → (Delivered after ↔ LastRaise before action) :=
    fun _ _ _ delivered stepped => delivered_step delivered stepped
  exact StepSystem.always_iff_eachStep each (delivered_started channels) actions

def raisingRun : List DispatchAction :=
  [.publish ⟨"*", "downstream_frame", 0⟩, .take, .raised]

/-- The second channel is never sent to. -/
theorem raising_send_stops : ¬ outbound.Always Delivered
    (.started (KeyedTable.ofList [("a", 0), ("b", 1)])) raisingRun := by
  rintro ⟨_, published⟩
  obtain ⟨_, taken⟩ := published _ rfl
  obtain ⟨_, raised⟩ := taken _ rfl
  have stuck := (raised _ rfl).flows rfl
  cases stuck.1

end Ftre.Messaging
