import Ftre.Lib.Sha256
import Ftre.Session.Event
import Ftre.Session.UserContent

/-!
The in-memory event log of a session. Appending an event indexes it: the user requests with the
fingerprint of their content, and the outcomes of turns.
-/

namespace Ftre.Session

open Lib Message

/-- Digest of user content with the ids of its parts left out. -/
def requestFingerprint (content : List Json) : String :=
  String.ofList ((Sha256.hexdigest ((Json.array content).without "id").dumps).toList.take 24)

def EventData.requestId : EventData → String
  | .userMessage _ _ requestId => requestId
  | .turnStart data => data.requestId
  | .turnEnd data => data.requestId
  | _ => ""

structure SessionLog where
  sessionId : String
  events : List Event
  nextSeq : Int
  userRequests : KeyedTable String String
  fingerprints : KeyedTable String String
  turnOutcomes : KeyedTable String String
deriving DecidableEq

inductive TerminalState where
  | completed
  | failed
deriving DecidableEq, Repr

namespace SessionLog

/-- A log that continues a session at `startSeq`. -/
def start (sessionId : String) (startSeq : Int) : SessionLog where
  sessionId := sessionId
  events := []
  nextSeq := max 0 startSeq
  userRequests := .empty
  fingerprints := .empty
  turnOutcomes := .empty

def seq (log : SessionLog) : Int := log.nextSeq - 1

/-- `reset`: the tail is dropped and the log continues at `startSeq`. -/
def reset (log : SessionLog) (startSeq : Int) : SessionLog := start log.sessionId startSeq

def checkUserRequest (log : SessionLog) (requestId : String) (content : List Json) : Bool :=
  match log.fingerprints.find? requestId with
  | some existing => decide (existing = requestFingerprint content)
  | none => true

def push (log : SessionLog) (event : Event) : SessionLog :=
  let grown := { log with events := log.events ++ [event], nextSeq := log.nextSeq + 1 }
  match event.data with
  | .userMessage content _ requestId =>
      if requestId = "" then grown
      else
        { grown with
          userRequests := log.userRequests.set requestId (event.messageId.getD "")
          fingerprints := log.fingerprints.set requestId (requestFingerprint content) }
  | .turnEnd data =>
      if data.requestId = "" then grown
      else { grown with turnOutcomes := log.turnOutcomes.set data.requestId data.outcome }
  | _ => grown

def allowed (log : SessionLog) (data : EventData) : Bool :=
  match data with
  | .userMessage content _ requestId =>
      decide (requestId = "") || log.checkUserRequest requestId content
  | _ => true

def stamp (log : SessionLog) (time : Int) (data : EventData) (messageId : Option String) : Event where
  seq := log.nextSeq
  time := time
  messageId := messageId.bind fun id => if id = "" then none else some id
  data := data

/-- `append`: none is the `ValueError` of a request bound to other content. -/
def append (log : SessionLog) (time : Int) (data : EventData) (messageId : Option String) :
    Option (Event × SessionLog) :=
  let event := log.stamp time data messageId
  if log.allowed data then some (event, log.push event) else none

def requestMessageId (log : SessionLog) (requestId : String) : String :=
  let digest := Sha256.hexdigest (log.sessionId ++ String.singleton (Char.ofNat 0) ++ requestId)
  "user_" ++ String.ofList (digest.toList.take 24)

inductive AppendOutcome where
  | appended (event : Event)
  /-- The request is already in the history. -/
  | skipped
  /-- The request is bound to other content. -/
  | conflict
deriving DecidableEq

/-- `append_user_message`; `generated` is the id of a message without a request. -/
def appendUserMessage (log : SessionLog) (time : Int) (generated requestId : String)
    (content : List Json) (metadata : KeyedTable String Json) : AppendOutcome × SessionLog :=
  if requestId ≠ "" ∧ log.userRequests.contains requestId then
    if log.checkUserRequest requestId content then (.skipped, log) else (.conflict, log)
  else
    let messageId := if requestId = "" then generated else log.requestMessageId requestId
    match log.append time (.userMessage content metadata requestId) (some messageId) with
    | some (event, next) => (.appended event, next)
    | none => (.conflict, log)

def requestState (log : SessionLog) (requestId : String) : Option TerminalState :=
  if requestId = "" then none
  else
    match log.turnOutcomes.find? requestId with
    | some "completed" => some .completed
    | some "error" => some .failed
    | some "cancelled" => some .failed
    | _ => none

end SessionLog

end Ftre.Session
