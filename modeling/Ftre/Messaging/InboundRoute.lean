import Ftre.Session.UserContent

/-!
Routing an inbound message.
-/

namespace Ftre.Messaging

open Lib Session

inductive MessageType where
  | userMessage
  | turnCancel
  | downstreamFrame
deriving DecidableEq, Repr

/-- What routing reads of a message; `sessionId` and `content` are fields of its data. -/
structure BusMessage where
  id : String
  type : MessageType
  fromChannel : String
  fromSession : String
  sessionId : String
  content : Option Json
  requestId : String
deriving DecidableEq

structure IngressResult where
  accepted : Bool
  sessionId : String
  requestId : String
  created : Bool
  errorCode : Option String
deriving DecidableEq, Repr

def orText (first second : String) : String := if first = "" then second else first

namespace BusMessage

def session (message : BusMessage) : String := orText message.sessionId message.fromSession

def request (message : BusMessage) : String := orText message.requestId message.id

/-- `_accepted`. -/
def acceptedResult (message : BusMessage) : IngressResult :=
  ⟨true, message.session, message.request, true, none⟩

end BusMessage

def startsWithSlash (text : String) : Bool := text.toList.head? = some '/'

def firstTextPart (parts : List Json) : Json :=
  let typed := parts.find? fun part => decide (part.get? "type" = some (.str "text"))
  match typed with
  | some part => (Json.orElse (part.get? "text") (part.get? "data")).getD (.str "")
  | none => .str ""

/-- `CommandRuntime.text_from`: the text of a slash input. -/
def commandText (message : BusMessage) : Option String :=
  match message.type with
  | .userMessage =>
      let content : Json :=
        match message.content with
        | some (.array parts) => firstTextPart parts
        | some value => value
        | none => .str ""
      content.asString?.filter startsWithSlash
  | _ => none

def isObject : Json → Bool
  | .object _ => true
  | _ => false

/-- `_content_text` of the inbox: a part that says nothing of its type counts as text. -/
def contentText : Option Json → String
  | some (.str text) => text
  | some (.array parts) =>
      let texts := parts.filter fun part =>
        isObject part && decide ((part.get? "type").getD (.str "text") = .str "text")
      "".intercalate (texts.map fun part => ((part.get? "text").getD (.str "")).toStr)
  | value => strOr value none

structure CommandDef where
  command : String
  system : Bool
deriving DecidableEq, Repr

/-- The registry of `CommandRuntime`, each list sorted by the length of its commands, and the
request ids that are in flight or done. -/
structure Commands where
  systemEntries : List CommandDef
  entries : List CommandDef
  known : List String
deriving DecidableEq, Repr

def CommandDef.matches (definition : CommandDef) (commandLine : String) : Bool :=
  decide (commandLine = definition.command) ||
    (definition.command.toList ++ [' ']).isPrefixOf commandLine.toList

/-- `_match`. -/
def matchCommand (entries : List CommandDef) (raw : String) : Option CommandDef :=
  entries.find? fun definition => definition.matches (strip raw)

def Commands.parse (commands : Commands) (message : BusMessage) : Option CommandDef :=
  (commandText message).bind (matchCommand (commands.systemEntries ++ commands.entries))

/-! ### Listeners -/

structure CommandFeedback where
  sessionId : String
  channelId : String
  content : String
  level : String
  requestId : String
deriving DecidableEq, Repr

inductive RouteEffect where
  /-- A command is submitted; a known request does not start it again. -/
  | submitted (definition : CommandDef) (starts : Bool)
  | published (feedback : CommandFeedback)
  | enteredInbox
deriving DecidableEq, Repr

inductive RouteError where
  /-- `object NoneType can't be used in 'await' expression`. -/
  | awaitsNothing
  | inbox (text : String)
deriving DecidableEq, Repr

/-- What a listener did, and what it returned or raised. -/
structure Routed (ρ : Type) where
  effects : List RouteEffect
  outcome : Except RouteError ρ

namespace Routed

def pure {ρ : Type} (value : ρ) : Routed ρ := ⟨[], .ok value⟩

def after {ρ : Type} (effect : RouteEffect) (routed : Routed ρ) : Routed ρ :=
  { routed with effects := effect :: routed.effects }

def raise {ρ : Type} (error : RouteError) : Routed ρ := ⟨[], .error error⟩

end Routed

abbrev Listener := Routed (Option IngressResult) → Routed (Option IngressResult)

/-- `submit_inbound`; a parsed definition is always taken. -/
def submitInbound (commands : Commands) (message : BusMessage) (definition : CommandDef) :
    RouteEffect × Bool :=
  let repeated := decide (message.requestId ≠ "") && decide (message.requestId ∈ commands.known)
  (.submitted definition (!repeated), true)

def feedback (message : BusMessage) (content level : String) : CommandFeedback :=
  ⟨message.session, orText message.fromChannel "ws", content, level, message.requestId⟩

def unavailable (message : BusMessage) : CommandFeedback :=
  feedback message "命令不可用或未启用" "error"

/-- `on_inbound` of the command plane. `_publish_result` is a plain function that starts a task
and returns nothing; the listener awaits what it returns. -/
def commandListener (commands : Commands) (message : BusMessage) : Listener := fun next =>
  if message.type = .turnCancel then next
  else
    match commands.parse message with
    | none =>
        if (commandText message).isNone then next
        else Routed.after (.published (unavailable message)) (.raise .awaitsNothing)
    | some definition =>
        let (effect, accepted) := submitInbound commands message definition
        if accepted then Routed.after effect (.pure (some message.acceptedResult))
        else Routed.after effect next

/-- `on_inbound` of the inbox. -/
def inboxListener (inbox : BusMessage → Except RouteError IngressResult) (message : BusMessage) :
    Listener := fun next =>
  match next.outcome with
  | .error error => { next with outcome := .error error }
  | .ok (some result) => { next with outcome := .ok (some result) }
  | .ok none => ⟨next.effects ++ [.enteredInbox], (inbox message).map some⟩

/-- Which of the two listeners was registered first. -/
inductive ListenerOrder where
  | commandFirst
  | inboxFirst
deriving DecidableEq, Repr

/-- `dispatch` of `messaging/route`; its default handles nothing. -/
def waterfall (listeners : List Listener) : Routed (Option IngressResult) :=
  listeners.foldr (fun listener next => listener next) (.pure none)

/-- What `_consume_inbound` settles the request with. -/
def routeMessage (order : ListenerOrder) (commands : Commands)
    (inbox : BusMessage → Except RouteError IngressResult) (message : BusMessage) :
    Routed IngressResult :=
  let listeners : List Listener :=
    match order with
    | .commandFirst => [commandListener commands message, inboxListener inbox message]
    | .inboxFirst => [inboxListener inbox message, commandListener commands message]
  let routed := waterfall listeners
  { routed with
    outcome := routed.outcome.map fun result => result.getD
      ⟨false, message.session, message.request, false, some "inbound-unavailable"⟩ }

/-! ### The partition -/

/-- A message goes to exactly one of the command plane, the error reply and the inbox. -/
structure RoutingLaw (commands : Commands) (inbox : BusMessage → Except RouteError IngressResult)
    (message : BusMessage) (routed : Routed IngressResult) : Prop where
  command : ∀ definition, commands.parse message = some definition →
    (∃ starts, routed.effects = [.submitted definition starts]) ∧
      routed.outcome = .ok message.acceptedResult
  unknown : (commandText message).isSome = true → commands.parse message = none →
    routed.effects = [.published (unavailable message)] ∧
      routed.outcome = .ok message.acceptedResult
  ordinary : commandText message = none →
    routed.effects = [.enteredInbox] ∧ routed.outcome = inbox message
  noSlash : .enteredInbox ∈ routed.effects → message.type = .userMessage →
    startsWithSlash (contentText message.content) = false

/-- A slash input names a registered command, and the command plane sees the slash that the
inbox would see. -/
def Routable (commands : Commands) (message : BusMessage) : Prop :=
  ((commandText message).isSome = true → (commands.parse message).isSome = true) ∧
    (message.type = .userMessage → startsWithSlash (contentText message.content) = true →
      (commandText message).isSome = true)

variable {commands : Commands} {message : BusMessage}

theorem parse_of_noText (plain : commandText message = none) : commands.parse message = none := by
  unfold Commands.parse
  rw [plain]
  rfl

theorem commandText_turnCancel (cancels : message.type = .turnCancel) :
    commandText message = none := by
  unfold commandText
  rw [cancels]

variable (order : ListenerOrder)

theorem routeMessage_ordinary (inbox : BusMessage → Except RouteError IngressResult)
    (plain : commandText message = none) :
    routeMessage order commands inbox message = ⟨[.enteredInbox], inbox message⟩ := by
  have passes : ∀ next, commandListener commands message next = next := by
    intro next
    unfold commandListener
    rw [parse_of_noText plain, plain]
    exact ite_self _
  cases order with
  | commandFirst =>
      unfold routeMessage waterfall
      simp only [List.foldr_cons, List.foldr_nil, passes]
      unfold inboxListener Routed.pure
      cases inbox message with
      | error error => rfl
      | ok result => rfl
  | inboxFirst =>
      unfold routeMessage waterfall
      simp only [List.foldr_cons, List.foldr_nil, passes]
      unfold inboxListener Routed.pure
      cases inbox message with
      | error error => rfl
      | ok result => rfl

theorem routeMessage_handled (inbox : BusMessage → Except RouteError IngressResult)
    {effects : List RouteEffect} {outcome : Except RouteError IngressResult}
    (handled : ∀ next, commandListener commands message next = ⟨effects, outcome.map some⟩) :
    routeMessage order commands inbox message = ⟨effects, outcome⟩ := by
  cases order with
  | commandFirst =>
      unfold routeMessage waterfall
      simp only [List.foldr_cons, handled]
      cases outcome with
      | error error => rfl
      | ok result => rfl
  | inboxFirst =>
      unfold routeMessage waterfall
      simp only [List.foldr_cons, handled]
      unfold inboxListener
      cases outcome with
      | error error => rfl
      | ok result => rfl

theorem routeMessage_command (inbox : BusMessage → Except RouteError IngressResult)
    {definition : CommandDef} (parsed : commands.parse message = some definition) :
    routeMessage order commands inbox message =
      ⟨[(submitInbound commands message definition).1], .ok message.acceptedResult⟩ := by
  apply routeMessage_handled order inbox
  intro next
  have notCancel : message.type ≠ .turnCancel := by
    intro cancels
    rw [parse_of_noText (commandText_turnCancel cancels)] at parsed
    cases parsed
  unfold commandListener
  rw [if_neg notCancel, parsed]
  rfl

theorem routeMessage_unknown (inbox : BusMessage → Except RouteError IngressResult)
    (slash : (commandText message).isSome = true) (unparsed : commands.parse message = none) :
    routeMessage order commands inbox message =
      ⟨[.published (unavailable message)], .error .awaitsNothing⟩ := by
  apply routeMessage_handled order inbox
  intro next
  have notCancel : message.type ≠ .turnCancel := by
    intro cancels
    rw [commandText_turnCancel cancels] at slash
    cases slash
  have someText : ¬ (commandText message).isNone = true := by
    rw [← Option.not_isSome, slash]
    decide
  unfold commandListener
  rw [if_neg notCancel, unparsed]
  dsimp only
  rw [if_neg someText]
  rfl

theorem routingLaw_iff (commands : Commands) (inbox : BusMessage → Except RouteError IngressResult)
    (message : BusMessage) :
    RoutingLaw commands inbox message (routeMessage order commands inbox message) ↔
      Routable commands message := by
  cases text : commandText message with
  | none =>
      rw [routeMessage_ordinary order inbox text]
      constructor
      · intro law
        refine ⟨fun slash => ?_, fun user slash => ?_⟩
        · rw [text] at slash
          cases slash
        · rw [law.noSlash List.mem_cons_self user] at slash
          cases slash
      · rintro ⟨_, seen⟩
        refine ⟨?_, ?_, fun _ => ⟨rfl, rfl⟩, ?_⟩
        · intro definition parsed
          rw [parse_of_noText text] at parsed
          cases parsed
        · intro slash
          rw [text] at slash
          cases slash
        · intro _ user
          cases slash : startsWithSlash (contentText message.content) with
          | false => rfl
          | true =>
              have isText := seen user slash
              rw [text] at isText
              cases isText
  | some raw =>
      have isText : (commandText message).isSome = true := by
        rw [text]
        rfl
      cases parsed : commands.parse message with
      | none =>
          rw [routeMessage_unknown order inbox isText parsed]
          constructor
          · intro law
            have answered := (law.unknown isText parsed).2
            cases answered
          · rintro ⟨registered, _⟩
            have found := registered isText
            rw [parsed] at found
            cases found
      | some definition =>
          rw [routeMessage_command order inbox parsed]
          constructor
          · intro _
            refine ⟨fun _ => ?_, fun _ _ => isText⟩
            rw [parsed]
            rfl
          · intro _
            refine ⟨?_, ?_, ?_, ?_⟩
            · intro other same
              rw [parsed] at same
              cases same
              exact ⟨⟨_, rfl⟩, rfl⟩
            · intro _ unparsed
              rw [parsed] at unparsed
              cases unparsed
            · intro plain
              rw [text] at plain
              cases plain
            · intro entered
              rw [List.mem_singleton] at entered
              cases entered

end Ftre.Messaging
