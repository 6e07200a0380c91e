import Ftre.Lib.KeyedTable
import Ftre.Lib.Sha256
import Ftre.Lib.StepSystem

/-!
The event log of a session as its callers reach it: with the values of the host language, with
the checks that an event has to pass, and with subscribers that are told of an event while it is
being published and may call the log again.
-/

namespace Ftre.Session

open Lib

/-! ### Values -/

/-- A text of the host, by its code points; surrogates may stand alone in it. -/
abbrev PyString := List Nat

def pyText (text : String) : PyString := text.toList.map Char.toNat

/-- `text.encode("utf-8")`, as the text that the bytes are of. -/
def encodeUtf8 (text : PyString) : Option String :=
  (text.mapM fun code : Nat => if code.isValidChar then some (Char.ofNat code) else none).map
    String.ofList

inductive PyKey where
  | str (value : PyString)
  | other (typeName : String)
deriving DecidableEq

inductive PyValue where
  | none
  | bool (value : Bool)
  | int (value : Int)
  | float (literal : String) (finite : Bool)
  | str (value : PyString)
  | list (items : List PyValue)
  | dict (entries : List (PyKey × PyValue))
  | other (typeName : String)

abbrev PyDict := List (PyKey × PyValue)

/-- `value.get(key)`. -/
def dictGet (key : String) (entries : PyDict) : Option PyValue :=
  (entries.find? fun entry => decide (entry.1 = .str (pyText key))).map Prod.snd

/-- `bool(value)`. -/
def PyValue.truthy : PyValue → Bool
  | .none => false
  | .bool value => value
  | .int value => decide (value ≠ 0)
  | .float literal _ => decide (literal ≠ "0.0") && decide (literal ≠ "-0.0")
  | .str value => !value.isEmpty
  | .list items => !items.isEmpty
  | .dict entries => !entries.isEmpty
  | .other _ => true

mutual

/-- `_snapshot_json`: a copy of a pure JSON value, or the place of what is none. -/
def snapshotJson (path : PyString) : PyValue → Except PyString PyValue
  | .float literal finite =>
      if finite then .ok (.float literal finite)
      else .error (path ++ pyText ": 非有限 float 不是 JSON 纯净值")
  | .list items =>
      match snapshotItems path 0 items with
      | .ok copies => .ok (.list copies)
      | .error error => .error error
  | .dict entries =>
      match snapshotEntries path entries with
      | .ok copies => .ok (.dict copies)
      | .error error => .error error
  | .other typeName => .error (path ++ pyText s!": {typeName} 不是 JSON 纯净值")
  | value => .ok value

def snapshotItems (path : PyString) (index : Nat) : List PyValue → Except PyString (List PyValue)
  | [] => .ok []
  | item :: rest =>
      match snapshotJson (path ++ pyText s!"[{index}]") item with
      | .error error => .error error
      | .ok copy =>
          match snapshotItems path (index + 1) rest with
          | .error error => .error error
          | .ok copies => .ok (copy :: copies)

def snapshotEntries (path : PyString) : PyDict → Except PyString PyDict
  | [] => .ok []
  | (.other typeName, _) :: _ =>
      .error (path ++ pyText s!": dict key 必须是 str，得到 {typeName}")
  | (.str key, value) :: rest =>
      match snapshotJson (path ++ pyText "." ++ key) value with
      | .error error => .error error
      | .ok copy =>
          match snapshotEntries path rest with
          | .error error => .error error
          | .ok copies => .ok ((.str key, copy) :: copies)

end

mutual

def stripIds : PyValue → PyValue
  | .list items => .list (stripItems items)
  | .dict entries => .dict (stripEntries entries)
  | .none => .none
  | .bool value => .bool value
  | .int value => .int value
  | .float literal finite => .float literal finite
  | .str value => .str value
  | .other typeName => .other typeName

def stripItems : List PyValue → List PyValue
  | [] => []
  | item :: rest => stripIds item :: stripItems rest

def stripEntries : PyDict → PyDict
  | [] => []
  | (key, value) :: rest =>
      if key = .str (pyText "id") then stripEntries rest
      else (key, stripIds value) :: stripEntries rest

end

/-- `dumps` is `json.dumps` with sorted keys and `default=str`, which raises for some values;
`str` and `int` are the conversions of the host. -/
structure PyHost where
  dumps : PyValue → Option PyString
  str : PyValue → PyString
  int : PyValue → Option Int

def shortDigest (text : String) : String :=
  String.ofList ((Sha256.hexdigest text).toList.take 24)

/-- `request_fingerprint`; a text that cannot be encoded has none. -/
def PyHost.requestFingerprint (host : PyHost) (content : PyValue) : Option String :=
  ((host.dumps (stripIds content)).bind encodeUtf8).map shortDigest

/-- `str(value or "")`. -/
def PyHost.textOf (host : PyHost) (value : Option PyValue) : PyString :=
  match value with
  | some (.str text) => text
  | some other => if other.truthy then host.str other else []
  | none => []

/-! ### The log -/

inductive EventType where
  | userMessage
  | assistantMessage
  | toolResult
  | hintMessage
  | compactMessage
  | assistantChunk
  | toolCallStart
  | toolResultStart
  | approvalAsked
  | turnStart
  | turnRetry
  | turnEnd
  | sessionStatus
deriving DecidableEq, Repr

def allEventTypes : List (String × EventType) :=
  [("user/message", .userMessage), ("assistant/message", .assistantMessage),
    ("tool/result", .toolResult), ("hint/message", .hintMessage),
    ("compact/message", .compactMessage), ("assistant/chunk", .assistantChunk),
    ("tool/call-start", .toolCallStart), ("tool/result-start", .toolResultStart),
    ("approval/asked", .approvalAsked), ("turn/start", .turnStart), ("turn/retry", .turnRetry),
    ("turn/end", .turnEnd), ("session/status", .sessionStatus)]

def eventType? (name : PyString) : Option EventType :=
  (allEventTypes.find? fun entry => decide (pyText entry.1 = name)).map Prod.snd

structure RawEvent where
  type : EventType
  seq : Int
  time : Int
  messageId : Option PyString
  data : PyValue

structure RawLog where
  sessionId : PyString
  events : List RawEvent
  nextSeq : Int
  userRequests : KeyedTable PyString PyString
  fingerprints : KeyedTable PyString String
  turnOutcomes : KeyedTable PyString PyString
  appending : Bool

structure StoredEvent where
  type : PyValue
  seq : PyValue
  time : PyValue
  messageId : Option PyString
  data : PyValue

structure CallResult where
  log : RawLog
  raised : Bool
  appended : Bool

namespace RawLog

def start (sessionId : PyString) (startSeq : Int) : RawLog where
  sessionId := sessionId
  events := []
  nextSeq := max 0 startSeq
  userRequests := .empty
  fingerprints := .empty
  turnOutcomes := .empty
  appending := false

def seq (log : RawLog) : Int := log.nextSeq - 1

def raise (log : RawLog) : CallResult := ⟨log, true, false⟩

def tail (log : RawLog) (afterSeq limit : Int) : List RawEvent × Bool :=
  match log.events with
  | [] => ([], false)
  | first :: _ =>
      let start := (max 0 (afterSeq - first.seq + 1)).toNat
      let page := (log.events.drop start).take (max 1 limit).toNat
      (page, decide (start + page.length < log.events.length))

def reset (log : RawLog) (startSeq : Int) : CallResult :=
  if log.appending then log.raise
  else ⟨start log.sessionId startSeq, false, false⟩

/-- `_check_user_request`: whether it returns. -/
def checkUserRequest (log : RawLog) (host : PyHost) (requestId : PyString) (content : PyValue) :
    Bool :=
  match log.fingerprints.find? requestId with
  | none => true
  | some existing => decide (host.requestFingerprint content = some existing)

def requestOf (host : PyHost) (data : PyDict) : PyString := host.textOf (dictGet "request_id" data)

def contentOf (data : PyDict) : PyValue := (dictGet "content" data).getD .none

def commit (log : RawLog) (host : PyHost) (event : RawEvent) (data : PyDict) : CallResult :=
  let stored := { log with events := log.events ++ [event], nextSeq := log.nextSeq + 1 }
  let requestId := requestOf host data
  match event.type with
  | .userMessage =>
      if requestId = [] then ⟨{ stored with appending := true }, false, true⟩
      else
        let bound :=
          { stored with
            userRequests := stored.userRequests.set requestId (event.messageId.getD []) }
        match host.requestFingerprint (contentOf data) with
        | none => ⟨bound, true, true⟩
        | some fingerprint =>
            ⟨{ bound with
                fingerprints := bound.fingerprints.set requestId fingerprint
                appending := true }, false, true⟩
  | .turnEnd =>
      if requestId = [] then ⟨{ stored with appending := true }, false, true⟩
      else
        ⟨{ stored with
            turnOutcomes :=
              stored.turnOutcomes.set requestId (host.textOf (dictGet "outcome" data))
            appending := true }, false, true⟩
  | _ => ⟨{ stored with appending := true }, false, true⟩

/-- `append`, as far as the subscribers are told of the event. -/
def append (log : RawLog) (host : PyHost) (type : PyString) (data : PyDict)
    (messageId : Option PyString) (time : Int) : CallResult :=
  if log.appending then log.raise
  else
    match eventType? type with
    | none => log.raise
    | some type =>
        match snapshotEntries (pyText "data") data with
        | .error _ => log.raise
        | .ok payload =>
            let requestId := requestOf host payload
            if type = .userMessage ∧ requestId ≠ [] ∧
                log.checkUserRequest host requestId (contentOf payload) = false then log.raise
            else
              let event : RawEvent :=
                { type := type
                  seq := log.nextSeq
                  time := time
                  messageId := messageId.filter fun id => decide (id ≠ [])
                  data := .dict payload }
              log.commit host event payload

def userMessageId (log : RawLog) (requestId : PyString) (messageId : Option PyString)
    (generated : PyString) : Option PyString :=
  match messageId with
  | some id => some id
  | none =>
      if requestId = [] then some generated
      else
        (encodeUtf8 (log.sessionId ++ [0] ++ requestId)).map fun text =>
          pyText ("user_" ++ shortDigest text)

def userMessageData (requestId : PyString) (content : List PyValue) (metadata : PyDict) : PyDict :=
  [(.str (pyText "content"), .list content), (.str (pyText "metadata"), .dict metadata),
    (.str (pyText "request_id"), .str requestId)]

/-- `append_user_message`; `generated` is the id of a message without a request. -/
def appendUserMessage (log : RawLog) (host : PyHost) (requestId : PyString)
    (content : List PyValue) (metadata : PyDict) (messageId : Option PyString)
    (generated : PyString) (time : Int) : CallResult :=
  if requestId ≠ [] ∧ log.userRequests.contains requestId = true then
    if log.checkUserRequest host requestId (.list content) then ⟨log, false, false⟩ else log.raise
  else
    match log.userMessageId requestId messageId generated with
    | none => log.raise
    | some id =>
        log.append host (pyText "user/message") (userMessageData requestId content metadata)
          (some id) time

/-- `value == index`. -/
def equalsIndex (value : PyValue) (index : Nat) : Bool :=
  match value with
  | .bool flag => decide (flag.toNat = index)
  | .int number => decide (number = index)
  | .float literal _ => decide (literal = toString index ++ ".0")
  | _ => false

/-- `_reindex`; none where the data are no dictionary, or have no fingerprint. -/
def reindex (log : RawLog) (host : PyHost) (event : RawEvent) : CallResult :=
  match event.type, event.data with
  | .userMessage, .dict data =>
      if requestOf host data = [] then ⟨log, false, false⟩
      else
        let bound :=
          { log with
            userRequests :=
              log.userRequests.set (requestOf host data) (event.messageId.getD []) }
        match host.requestFingerprint (contentOf data) with
        | none => bound.raise
        | some fingerprint =>
            ⟨{ bound with
                fingerprints := bound.fingerprints.set (requestOf host data) fingerprint },
              false, false⟩
  | .turnEnd, .dict data =>
      if requestOf host data = [] then ⟨log, false, false⟩
      else
        ⟨{ log with
            turnOutcomes :=
              log.turnOutcomes.set (requestOf host data) (host.textOf (dictGet "outcome" data)) },
          false, false⟩
  | .userMessage, _ => log.raise
  | .turnEnd, _ => log.raise
  | _, _ => ⟨log, false, false⟩

def restored (host : PyHost) (index : Nat) (event : StoredEvent) : Option RawEvent :=
  match event.type with
  | .str name =>
      match eventType? name with
      | none => none
      | some type =>
          if equalsIndex event.seq index then
            match snapshotJson (pyText "data") event.data with
            | .error _ => none
            | .ok data =>
                let time := if event.time.truthy then host.int event.time else some 0
                time.map fun moment => ⟨type, index, moment, event.messageId, data⟩
          else none
  | _ => none

def loadEvents (log : RawLog) (host : PyHost) (index : Nat) : List StoredEvent → CallResult
  | [] => ⟨log, false, false⟩
  | event :: rest =>
      match restored host index event with
      | none => log.raise
      | some raw =>
          let stored := { log with events := log.events ++ [raw] }
          let indexed := stored.reindex host raw
          if indexed.raised then indexed
          else indexed.log.loadEvents host (index + 1) rest

def load (log : RawLog) (host : PyHost) (events : List StoredEvent) : CallResult :=
  let cleared := { start log.sessionId 0 with appending := log.appending }
  let loaded := cleared.loadEvents host 0 events
  if loaded.raised then loaded
  else { loaded with log := { loaded.log with nextSeq := loaded.log.events.length } }

end RawLog

inductive LogCall where
  | append (type : PyString) (data : PyDict) (messageId : Option PyString) (time : Int)
  | appendUserMessage (requestId : PyString) (content : List PyValue) (metadata : PyDict)
      (messageId : Option PyString) (generated : PyString) (time : Int)
  | reset (startSeq : Int)
  | load (events : List StoredEvent)

/-- A caller, or a subscriber while an event is published, makes a call; or the last subscriber
has returned or raised, which is the same to the log. -/
inductive LogAction where
  | call (call : LogCall)
  | published

/-- The log, with the requests that `append_user_message` has appended since the history was last
replaced, and the log before the last call if that raised. -/
structure LogRun where
  log : RawLog
  sent : List PyString
  raisedFrom : Option RawLog

namespace LogRun

def start (sessionId : PyString) (startSeq : Int) : LogRun :=
  ⟨.start sessionId startSeq, [], none⟩

def sentAfter (sent : List PyString) (result : CallResult) : LogCall → List PyString
  | .append .. => sent
  | .appendUserMessage requestId .. =>
      if result.appended ∧ requestId ≠ [] then requestId :: sent else sent
  | .reset _ => if result.raised then sent else []
  | .load _ => if result.raised then sent else []

def perform (host : PyHost) (log : RawLog) : LogCall → CallResult
  | .append type data messageId time => log.append host type data messageId time
  | .appendUserMessage requestId content metadata messageId generated time =>
      log.appendUserMessage host requestId content metadata messageId generated time
  | .reset startSeq => log.reset startSeq
  | .load events => log.load host events

def step (host : PyHost) (run : LogRun) : LogAction → Option LogRun
  | .call call =>
      let result := perform host run.log call
      some
        { log := result.log
          sent := sentAfter run.sent result call
          raisedFrom := if result.raised then some run.log else none }
  | .published =>
      if run.log.appending then
        some { run with log := { run.log with appending := false }, raisedFrom := none }
      else none

end LogRun

def logSystem (host : PyHost) : StepSystem LogRun LogAction := ⟨LogRun.step host⟩

end Ftre.Session
