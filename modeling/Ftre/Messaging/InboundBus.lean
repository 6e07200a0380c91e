import Ftre.Lib.KeyedTable
import Ftre.Lib.StepSystem
import Ftre.Messaging.InboundRoute
import Mathlib.Logic.Function.Basic

/-!
Requests over the bus.
-/

namespace Ftre.Messaging

open Lib

inductive InboundError where
  | stopped
  | duplicate
  | rejected
  | invalid
  | cancelled
  | route (error : RouteError)
deriving DecidableEq, Repr

abbrev InboundOutcome := Except InboundError IngressResult

/-- A call of `request_inbound`. -/
inductive Caller where
  | absent
  | waiting (id : String)
  | answered (id : String) (outcome : InboundOutcome)
  | settled (outcome : InboundOutcome)

/-- `_consume_inbound`. -/
inductive Consumer where
  | absent
  | idle
  | handling (message : BusMessage)

structure InboundBus where
  queue : List BusMessage
  replies : KeyedTable String Nat
  callers : Nat → Caller
  consumer : Consumer
  stopped : Bool
  outcomes : Nat → List InboundOutcome

inductive BusAction where
  /-- `filtered` is what the middlewares make of the message. -/
  | request (caller : Nat) (message : BusMessage) (filtered : Option BusMessage) (valid : Bool)
  | publish (message : BusMessage)
  | take
  /-- The listeners are done with the message in hand; `reply` is what the inbox says to it. -/
  | routed (order : ListenerOrder) (commands : Commands) (reply : Except RouteError IngressResult)
  | resume (caller : Nat)
  | cancelCaller (caller : Nat)
  | stop
  | close
  | start

namespace InboundBus

def idle : InboundBus where
  queue := []
  replies := .empty
  callers _ := .absent
  consumer := .absent
  stopped := false
  outcomes _ := []

def setCaller (bus : InboundBus) (caller : Nat) (state : Caller) : InboundBus :=
  { bus with callers := Function.update bus.callers caller state }

def settle (bus : InboundBus) (caller : Nat) (outcome : InboundOutcome) : InboundBus :=
  { bus.setCaller caller (.settled outcome) with
    outcomes := Function.update bus.outcomes caller (bus.outcomes caller ++ [outcome]) }

/-- `request_inbound` up to its wait. -/
def requestInbound (bus : InboundBus) (caller : Nat) (message : BusMessage)
    (filtered : Option BusMessage) (valid : Bool) : InboundBus :=
  if bus.stopped then bus.settle caller (.error .stopped)
  else if bus.replies.contains message.id then bus.settle caller (.error .duplicate)
  else
    match filtered with
    | none => bus.settle caller (.error .rejected)
    | some passed =>
        if valid then
          { bus.setCaller caller (.waiting message.id) with
            replies := bus.replies.set message.id caller
            queue := bus.queue ++ [passed] }
        else bus.settle caller (.error .invalid)

/-- `resolve_inbound` and `reject_inbound`: a future that is done is left alone. -/
def resolve (bus : InboundBus) (id : String) (outcome : InboundOutcome) : InboundBus :=
  match bus.replies.find? id with
  | some caller =>
      match bus.callers caller with
      | .waiting key => bus.setCaller caller (.answered key outcome)
      | _ => bus
  | none => bus

def wake : Caller → Caller
  | .waiting id => .answered id (.error .stopped)
  | caller => caller

def stopInbound (bus : InboundBus) : InboundBus :=
  { bus with
    stopped := true
    callers := fun caller => wake (bus.callers caller)
    replies := .empty }

def step (bus : InboundBus) : BusAction → Option InboundBus
  | .request caller message filtered valid =>
      match bus.callers caller with
      | .absent => some (bus.requestInbound caller message filtered valid)
      | _ => none
  | .publish message => some { bus with queue := bus.queue ++ [message] }
  | .take =>
      match bus.consumer, bus.queue with
      | .idle, message :: rest => some { bus with consumer := .handling message, queue := rest }
      | _, _ => none
  | .routed order commands reply =>
      match bus.consumer with
      | .handling message =>
          let routed := routeMessage order commands (fun _ => reply) message
          some { bus.resolve message.id (routed.outcome.mapError .route) with consumer := .idle }
      | _ => none
  | .resume caller =>
      match bus.callers caller with
      | .answered id outcome =>
          some { bus.settle caller outcome with replies := bus.replies.erase id }
      | _ => none
  | .cancelCaller caller =>
      match bus.callers caller with
      | .waiting id =>
          some { bus.settle caller (.error .cancelled) with replies := bus.replies.erase id }
      | .answered id _ =>
          some { bus.settle caller (.error .cancelled) with replies := bus.replies.erase id }
      | _ => none
  | .stop => some bus.stopInbound
  | .close => some { bus.stopInbound with consumer := .absent }
  | .start =>
      match bus.consumer with
      | .absent => some { bus with consumer := .idle }
      | _ => some bus

def system : StepSystem InboundBus BusAction := ⟨step⟩

/-! ### The law -/

def Pending (bus : InboundBus) (id : String) : Prop :=
  (∃ message ∈ bus.queue, message.id = id) ∨
    ∃ message, bus.consumer = .handling message ∧ message.id = id

/-- A call has one outcome, or its future is done, or the bus is open and its message is still
to be routed. -/
inductive CallerLaw (bus : InboundBus) (caller : Nat) : Caller → Prop where
  | absent (none : bus.outcomes caller = []) : CallerLaw bus caller .absent
  | waiting {id : String} (none : bus.outcomes caller = []) (alive : bus.stopped = false)
      (pending : bus.Pending id) : CallerLaw bus caller (.waiting id)
  | answered {id : String} {outcome : InboundOutcome} (none : bus.outcomes caller = []) :
      CallerLaw bus caller (.answered id outcome)
  | settled {outcome : InboundOutcome} (one : bus.outcomes caller = [outcome]) :
      CallerLaw bus caller (.settled outcome)

def OutcomeLaw (bus : InboundBus) : Prop :=
  ∀ caller, CallerLaw bus caller (bus.callers caller)

/-- The middlewares give a request no other id. -/
def KeepsId (_bus : InboundBus) : BusAction → Prop
  | .request _ message filtered _ => ∀ passed, filtered = some passed → passed.id = message.id
  | _ => True

structure Sound (bus : InboundBus) : Prop where
  law : OutcomeLaw bus
  waits : ∀ caller id, bus.callers caller = .waiting id → bus.replies.find? id = some caller
  answers : ∀ caller id outcome, bus.callers caller = .answered id outcome →
    bus.stopped = false → bus.replies.find? id = some caller
  closed : bus.stopped = true → ∀ id, bus.replies.find? id = none

variable {before after : InboundBus}

variable {caller : Nat} {outcome : InboundOutcome}

theorem CallerLaw.mono {caller : Nat} {state : Caller} (law : CallerLaw before caller state)
    (outcomes : after.outcomes caller = before.outcomes caller)
    (stays : ∀ id, state = .waiting id → before.stopped = false → before.Pending id →
      after.stopped = false ∧ after.Pending id) :
    CallerLaw after caller state := by
  cases law with
  | absent none => exact .absent (outcomes.trans none)
  | waiting none alive pending =>
      obtain ⟨alive, pending⟩ := stays _ rfl alive pending
      exact .waiting (outcomes.trans none) alive pending
  | answered none => exact .answered (outcomes.trans none)
  | settled one => exact .settled (outcomes.trans one)

theorem outcomes_of_unsettled (law : OutcomeLaw before)
    (open_ : ∀ outcome, before.callers caller ≠ .settled outcome) :
    before.outcomes caller = [] := by
  cases state : before.callers caller with
  | absent =>
      have own := law caller
      rw [state] at own
      cases own with
      | absent none => exact none
  | waiting id =>
      have own := law caller
      rw [state] at own
      cases own with
      | waiting none => exact none
  | answered id outcome =>
      have own := law caller
      rw [state] at own
      cases own with
      | answered none => exact none
  | settled outcome => exact absurd state (open_ outcome)

theorem sound_idle : Sound idle where
  law := fun _ => .absent rfl
  waits := nofun
  answers := nofun
  closed := nofun

theorem Sound.settle (sound : Sound before) {caller : Nat} {outcome : InboundOutcome}
    (unsettled : ∀ earlier, before.callers caller ≠ .settled earlier)
    {replies : KeyedTable String Nat}
    (others : ∀ other id, other ≠ caller → before.replies.find? id = some other →
      replies.find? id = some other)
    (fewer : ∀ id, before.replies.find? id = none → replies.find? id = none) :
    Sound { before.settle caller outcome with replies := replies } where
  law := by
    intro other
    change CallerLaw _ other (Function.update before.callers caller _ other)
    by_cases own : other = caller
    · rw [own, Function.update_self]
      apply CallerLaw.settled
      change Function.update before.outcomes caller _ caller = _
      rw [Function.update_self, outcomes_of_unsettled sound.law unsettled]
      rfl
    · rw [Function.update_of_ne own]
      exact (sound.law other).mono (Function.update_of_ne own _ _)
        fun id _ alive pending => ⟨alive, pending⟩
  waits := by
    intro other id waits
    change Function.update before.callers caller _ other = _ at waits
    by_cases own : other = caller
    · rw [own, Function.update_self] at waits
      cases waits
    · rw [Function.update_of_ne own] at waits
      exact others other id own (sound.waits other id waits)
  answers := by
    intro other id result answered alive
    change Function.update before.callers caller _ other = _ at answered
    by_cases own : other = caller
    · rw [own, Function.update_self] at answered
      cases answered
    · rw [Function.update_of_ne own] at answered
      exact others other id own (sound.answers other id result answered alive)
  closed := fun stopped id => fewer id (sound.closed stopped id)

theorem Sound.settle_plain (sound : Sound before) (absent : before.callers caller = .absent) :
    Sound (before.settle caller outcome) :=
  sound.settle (by rw [absent]; nofun) (fun _ _ _ found => found) fun _ none => none

theorem Sound.settle_erase (sound : Sound before) {id : String}
    (unsettled : ∀ earlier, before.callers caller ≠ .settled earlier)
    (mine : ∀ other, before.replies.find? id = some other → other = caller) :
    Sound { before.settle caller outcome with replies := before.replies.erase id } := by
  refine sound.settle unsettled ?_ ?_
  · intro other named apart found
    rw [KeyedTable.find?_erase_ne]
    · exact found
    · rintro rfl
      exact apart (mine other found)
  · intro named none
    rw [KeyedTable.find?_erase]
    split
    · rfl
    · exact none

theorem Sound.mine (sound : Sound before) {id : String}
    (answered : before.callers caller = .answered id outcome) (other : Nat)
    (found : before.replies.find? id = some other) : other = caller := by
  cases stopped : before.stopped with
  | true =>
      rw [sound.closed stopped id] at found
      cases found
  | false =>
      rw [sound.answers caller id outcome answered stopped] at found
      exact (Option.some.inj found).symm

theorem Sound.request (sound : Sound before) {message : BusMessage} {filtered : Option BusMessage}
    {valid : Bool} (absent : before.callers caller = .absent)
    (keeps : ∀ passed, filtered = some passed → passed.id = message.id) :
    Sound (before.requestInbound caller message filtered valid) := by
  unfold requestInbound
  by_cases stopped : before.stopped = true
  · rw [if_pos stopped]
    exact sound.settle_plain absent
  rw [if_neg stopped]
  by_cases taken : before.replies.contains message.id = true
  · rw [if_pos taken]
    exact sound.settle_plain absent
  rw [if_neg taken]
  have free : before.replies.find? message.id = none := by
    unfold KeyedTable.contains at taken
    simpa using taken
  cases filtered with
  | none => exact sound.settle_plain absent
  | some passed =>
      dsimp only
      by_cases accepted : valid = true
      swap
      · rw [if_neg accepted]
        exact sound.settle_plain absent
      rw [if_pos accepted]
      have alive : before.stopped = false := Bool.eq_false_iff.mpr stopped
      -- Whoever is registered is registered under another id.
      have kept : ∀ other id, before.replies.find? id = some other →
          (before.replies.set message.id caller).find? id = some other := by
        intro other id found
        rw [KeyedTable.find?_set_ne]
        · exact found
        · rintro rfl
          rw [free] at found
          cases found
      constructor
      case law =>
        intro other
        change CallerLaw _ other (Function.update before.callers caller _ other)
        have none : before.outcomes caller = [] := by
          apply outcomes_of_unsettled sound.law
          rw [absent]
          rintro _ ⟨⟩
        by_cases own : other = caller
        · rw [own, Function.update_self]
          refine .waiting none alive (Or.inl ⟨passed, ?_, keeps passed rfl⟩)
          exact List.mem_append_right _ List.mem_cons_self
        · rw [Function.update_of_ne own]
          refine (sound.law other).mono rfl ?_
          rintro id _ alive (⟨queued, member, named⟩ | inHand)
          · exact ⟨alive, Or.inl ⟨queued, List.mem_append_left _ member, named⟩⟩
          · exact ⟨alive, Or.inr inHand⟩
      case waits =>
        intro other id waits
        change Function.update before.callers caller _ other = _ at waits
        by_cases own : other = caller
        · rw [own, Function.update_self] at waits
          cases waits
          rw [own]
          exact KeyedTable.find?_set_self ..
        · rw [Function.update_of_ne own] at waits
          exact kept other id (sound.waits other id waits)
      case answers =>
        intro other id outcome answered open_
        change Function.update before.callers caller _ other = _ at answered
        by_cases own : other = caller
        · rw [own, Function.update_self] at answered
          cases answered
        · rw [Function.update_of_ne own] at answered
          exact kept other id (sound.answers other id outcome answered open_)
      case closed => exact fun closed => absurd closed stopped

theorem Sound.routed (sound : Sound before) {message : BusMessage}
    (handling : before.consumer = .handling message) (outcome : InboundOutcome) :
    Sound { before.resolve message.id outcome with consumer := .idle } := by
  -- No other caller waits for the id in hand.
  have others : ∀ caller id, before.callers caller = .waiting id →
      before.replies.find? message.id ≠ some caller →
      before.Pending id → ∃ queued ∈ before.queue, queued.id = id := by
    intro caller id waits unlisted pending
    rcases pending with queued | ⟨inHand, same, named⟩
    · exact queued
    · rw [handling] at same
      cases same
      rw [← named] at waits
      exact absurd (sound.waits caller message.id waits) unlisted
  cases found : before.replies.find? message.id with
  | none =>
      have left : before.resolve message.id outcome = before := by
        unfold resolve
        rw [found]
      rw [left]
      refine ⟨fun caller => (sound.law caller).mono rfl ?_, sound.waits, sound.answers,
        sound.closed⟩
      intro id waits alive pending
      exact ⟨alive, Or.inl (others caller id waits (by rw [found]; nofun) pending)⟩
  | some caller =>
      cases state : before.callers caller with
      | waiting key =>
          have settled : before.resolve message.id outcome =
              before.setCaller caller (.answered key outcome) := by
            unfold resolve
            rw [found]
            dsimp only
            rw [state]
          rw [settled]
          constructor
          case law =>
            intro other
            change CallerLaw _ other (Function.update before.callers caller _ other)
            have none : before.outcomes caller = [] :=
              outcomes_of_unsettled sound.law (by rw [state]; nofun)
            by_cases own : other = caller
            · rw [own, Function.update_self]
              exact .answered none
            · rw [Function.update_of_ne own]
              refine (sound.law other).mono rfl ?_
              intro id waits alive pending
              refine ⟨alive, Or.inl (others other id waits ?_ pending)⟩
              rw [found]
              rintro same
              exact own (Option.some.inj same).symm
          case waits =>
            intro other id waits
            change Function.update before.callers caller _ other = _ at waits
            by_cases own : other = caller
            · rw [own, Function.update_self] at waits
              cases waits
            · rw [Function.update_of_ne own] at waits
              exact sound.waits other id waits
          case answers =>
            intro other id result answered alive
            change Function.update before.callers caller _ other = _ at answered
            by_cases own : other = caller
            · rw [own, Function.update_self] at answered
              cases answered
              rw [own]
              exact sound.waits caller key state
            · rw [Function.update_of_ne own] at answered
              exact sound.answers other id result answered alive
          case closed => exact sound.closed
      | _ =>
          have left : before.resolve message.id outcome = before := by
            unfold resolve
            rw [found]
            dsimp only
            rw [state]
          rw [left]
          refine ⟨fun other => (sound.law other).mono rfl ?_, sound.waits, sound.answers,
            sound.closed⟩
          intro id waits alive pending
          refine ⟨alive, Or.inl (others other id waits ?_ pending)⟩
          rw [found]
          rintro same
          cases same
          rw [state] at waits
          cases waits

theorem Sound.stop (sound : Sound before) : Sound before.stopInbound where
  law := by
    intro caller
    change CallerLaw _ caller (wake (before.callers caller))
    have own := sound.law caller
    generalize before.callers caller = state at own ⊢
    cases own with
    | absent none => exact .absent none
    | waiting none _ _ => exact .answered none
    | answered none => exact .answered none
    | settled one => exact .settled one
  waits := by
    intro caller id waits
    change wake (before.callers caller) = _ at waits
    cases state : before.callers caller <;> rw [state] at waits <;> cases waits
  answers := by
    intro caller id outcome _ alive
    cases alive
  closed := fun _ _ => rfl

theorem Sound.keep (sound : Sound before) (callers : after.callers = before.callers)
    (replies : after.replies = before.replies) (stopped : after.stopped = before.stopped)
    (outcomes : after.outcomes = before.outcomes)
    (pending : before.stopped = false → ∀ id, before.Pending id → after.Pending id) :
    Sound after where
  law := by
    intro caller
    rw [callers]
    refine (sound.law caller).mono (by rw [outcomes]) ?_
    intro id _ alive waiting
    exact ⟨stopped.trans alive, pending alive id waiting⟩
  waits := by
    rw [callers, replies]
    exact sound.waits
  answers := by
    rw [callers, replies, stopped]
    exact sound.answers
  closed := by
    rw [replies, stopped]
    exact sound.closed

theorem sound_step {action : BusAction} (sound : Sound before) (keeps : KeepsId before action)
    (stepped : system.step before action = some after) : Sound after := by
  cases action with
  | request caller message filtered valid =>
      simp only [system, step] at stepped
      split at stepped
      · rename_i absent
        cases stepped
        exact sound.request absent keeps
      · cases stepped
  | publish message =>
      cases stepped
      refine sound.keep rfl rfl rfl rfl ?_
      rintro _ id (⟨queued, member, named⟩ | inHand)
      · exact Or.inl ⟨queued, List.mem_append_left _ member, named⟩
      · exact Or.inr inHand
  | take =>
      simp only [system, step] at stepped
      split at stepped
      · rename_i message rest waits queue
        cases stepped
        refine sound.keep rfl rfl rfl rfl ?_
        rintro _ id (⟨queued, member, named⟩ | ⟨inHand, same, _⟩)
        · rw [queue] at member
          rcases List.mem_cons.mp member with first | later
          · exact Or.inr ⟨message, rfl, first ▸ named⟩
          · exact Or.inl ⟨queued, later, named⟩
        · rw [waits] at same
          cases same
      · cases stepped
  | routed order commands reply =>
      simp only [system, step] at stepped
      split at stepped
      · rename_i message handling
        cases stepped
        exact sound.routed handling _
      · cases stepped
  | resume caller =>
      simp only [system, step] at stepped
      split at stepped
      · rename_i id outcome state
        cases stepped
        exact sound.settle_erase (by rw [state]; nofun) (sound.mine state)
      · cases stepped
  | cancelCaller caller =>
      simp only [system, step] at stepped
      split at stepped
      · rename_i id state
        cases stepped
        refine sound.settle_erase (by rw [state]; nofun) ?_
        intro other found
        rw [sound.waits caller id state] at found
        exact (Option.some.inj found).symm
      · rename_i id outcome state
        cases stepped
        exact sound.settle_erase (by rw [state]; nofun) (sound.mine state)
      · cases stepped
  | stop =>
      cases stepped
      exact sound.stop
  | close =>
      cases stepped
      exact sound.stop.keep rfl rfl rfl rfl nofun
  | start =>
      simp only [system, step] at stepped
      split at stepped
      · rename_i absent
        cases stepped
        refine sound.keep rfl rfl rfl rfl ?_
        rintro _ id (queued | ⟨inHand, same, _⟩)
        · exact Or.inl queued
        · rw [absent] at same
          cases same
      · cases stepped
        exact sound

/-- A message is routed by the partition exactly where it is routable, and every request over
the bus comes to one outcome, where the middlewares keep its id. -/
theorem inbound_routing (order : ListenerOrder) (commands : Commands)
    (inbox : BusMessage → Except RouteError IngressResult) (message : BusMessage)
    {bus : InboundBus} (reached : system.Reaches KeepsId idle bus) :
    (RoutingLaw commands inbox message (routeMessage order commands inbox message) ↔
        Routable commands message) ∧
      bus.OutcomeLaw := by
  have sound : Sound bus := reached.invariant sound_idle
    fun _ _ _ sound keeps stepped => sound_step sound keeps stepped
  exact ⟨routingLaw_iff order commands inbox message, sound.law⟩

private def hello : BusMessage :=
  ⟨"m1", .userMessage, "ws", "s1", "s1", some (.str "hello"), "r1"⟩

private def unknownCommand : BusMessage :=
  ⟨"m2", .userMessage, "ws", "s1", "s1", some (.str "/nope"), "r2"⟩

private def builtinCommands : Commands := ⟨[⟨"/cancel", true⟩], [⟨"/compact", false⟩], []⟩

private def admitted : IngressResult := ⟨true, "s1", "r1", true, none⟩

/-- An ordinary message enters the inbox and its caller gets the inbox's answer. -/
theorem ordinary_message_answered :
    RoutingLaw builtinCommands (fun _ => .ok admitted) hello
        (routeMessage .commandFirst builtinCommands (fun _ => .ok admitted) hello) ∧
      ∃ bus, system.run idle [.start, .request 0 hello (some hello) true, .take,
          .routed .commandFirst builtinCommands (.ok admitted), .resume 0] = some bus ∧
        bus.outcomes 0 = [.ok admitted] ∧ bus.OutcomeLaw := by
  have plain : commandText hello = none := by decide
  have noSlash : startsWithSlash (contentText hello.content) = false := by decide
  have routable : Routable builtinCommands hello := by
    refine ⟨fun slash => ?_, fun _ slash => ?_⟩
    · rw [plain] at slash
      cases slash
    · rw [noSlash] at slash
      cases slash
  have ran : ∃ bus, system.run idle [.start, .request 0 hello (some hello) true, .take,
      .routed .commandFirst builtinCommands (.ok admitted), .resume 0] = some bus ∧
      bus.outcomes 0 = [.ok admitted] := ⟨_, rfl, rfl⟩
  obtain ⟨bus, ran, answered⟩ := ran
  have reached : system.Reaches KeepsId idle bus := by
    refine StepSystem.reaches_of_run_each ?_ ran
    intro action member state
    cases action with
    | request caller message filtered valid =>
        simp only [List.mem_cons, BusAction.request.injEq, reduceCtorEq, false_or,
          List.not_mem_nil, or_false] at member
        obtain ⟨_, same, kept, _⟩ := member
        intro passed given
        rw [kept] at given
        rw [← Option.some.inj given, same]
    | _ => trivial
  have both := inbound_routing .commandFirst builtinCommands (fun _ => .ok admitted) hello reached
  exact ⟨both.1.mpr routable, bus, ran, answered, both.2⟩

/-- The error of an unknown command is published, and its caller gets an exception. -/
theorem unknown_command_raises :
    (routeMessage .commandFirst builtinCommands (fun _ => .ok admitted) unknownCommand).outcome =
        .error .awaitsNothing ∧
      ¬ ∀ order commands inbox message,
        RoutingLaw commands inbox message (routeMessage order commands inbox message) := by
  have slash : (commandText unknownCommand).isSome = true := by decide
  have unparsed : builtinCommands.parse unknownCommand = none := by decide
  have raised := routeMessage_unknown .commandFirst (fun _ => .ok admitted) slash unparsed
  refine ⟨by rw [raised], fun law => ?_⟩
  have answered := ((law .commandFirst builtinCommands (fun _ => .ok admitted)
    unknownCommand).unknown slash unparsed).2
  rw [raised] at answered
  cases answered

end InboundBus

end Ftre.Messaging
