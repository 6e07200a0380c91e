import Ftre.Lib.StepSystem
import Ftre.Session.Service

/-!
The repository of sessions: the states in memory, the files, the index of external conversations,
and any number of operations on them.
-/

namespace Ftre.Session

open Lib Message

/-- `SessionState` of the stored file: identity and display of a session. -/
structure SessionHeader where
  id : String
  agentId : String
  channelId : String
  title : String
  workspace : String
  createdAt : String
  updatedAt : String
  lastUserText : String
deriving DecidableEq

/-- The stored file of a session. -/
structure SessionMetaFile where
  session : SessionHeader
  metadata : KeyedTable String Json
  snapshot : SessionMeta
deriving DecidableEq

abbrev ExternalKey := String × String

/-- `_external_of`, as the key the index uses. -/
def externalOf (state : SessionMetaFile) : Option ExternalKey :=
  (state.metadata.find? "external").bind fun external =>
    ((external.get? "channel_id").bind Json.asString?).bind fun channelId =>
      ((external.get? "external_key").bind Json.asString?).map fun externalKey =>
        (channelId, externalKey)

namespace SessionMetaFile

def fresh (id channelId title workspace now : String) : SessionMetaFile where
  session :=
    { id := id
      agentId := "default"
      channelId := channelId
      title := title
      workspace := workspace
      createdAt := now
      updatedAt := now
      lastUserText := "" }
  metadata := .empty
  snapshot := ⟨-1, .empty, .empty⟩

def bound (id channelId externalKey title workspace now : String) (data : List (String × Json)) :
    SessionMetaFile :=
  { fresh id channelId title workspace now with
    metadata := KeyedTable.empty.set "external" (.object
      [("channel_id", .str channelId), ("external_key", .str externalKey),
        ("data", .object data), ("created_at", .str now), ("updated_at", .str now)]) }

def touched (state : SessionMetaFile) (now : String) : SessionMetaFile :=
  { state with session := { state.session with updatedAt := now } }

def rebound (state : SessionMetaFile) (now : String) (data : List (String × Json)) :
    Option SessionMetaFile :=
  ((state.metadata.find? "external").bind Json.asFields?).map fun fields =>
    let binding :=
      ((KeyedTable.ofList fields).set "data" (.object data)).set "updated_at" (.str now)
    { state.touched now with
      metadata := state.metadata.set "external" (.object binding.entries) }

def withMetadata (state : SessionMetaFile) (key : String) (value : Option Json) : SessionMetaFile :=
  match value with
  | some value => { state with metadata := state.metadata.set key value }
  | none => { state with metadata := state.metadata.erase key }

def withSnapshot (state : SessionMetaFile) (snapshot : SessionMeta) (preview : Option String)
    (now : String) : SessionMetaFile :=
  { state with
    session :=
      { state.session with
        updatedAt := now
        lastUserText := preview.getD state.session.lastUserText }
    snapshot := snapshot }

end SessionMetaFile

/-! ### Operations -/

inductive SessionError where
  | emptySession
  | illegalSession (sessionId : String)
  | emptyChannel
  | illegalChannel (channelId : String)
  | emptyExternalKey
  | missing (sessionId : String)
  | corrupt (sessionId : String)
  | exists (sessionId : String)
  | unbound (sessionId : String)
  | updaterRaised
  | writeFailed
deriving DecidableEq, Repr

inductive SessionReply where
  | done
  | sessionId (id : String)
  | metadata (metadata : KeyedTable String Json)
deriving DecidableEq

/-- `^[A-Za-z0-9_-]+$`, where the end of the text may follow a newline. -/
def safeName (name : String) : Bool :=
  let body := if name.toList.getLast? = some '\n' then name.toList.dropLast else name.toList
  !body.isEmpty && body.all fun character =>
    character.isAlphanum || decide (character = '_') || decide (character = '-')

def validateName (empty : SessionError) (illegal : String → SessionError) (name : String) :
    Option SessionError :=
  if name = "" then some empty else if safeName name then none else some (illegal name)

def validateSessionId : String → Option SessionError := validateName .emptySession .illegalSession

def validateChannelId : String → Option SessionError := validateName .emptyChannel .illegalChannel

/-- `make_session_id` with the hexadecimal digits it drew. -/
def makeSessionId (channelId drawn : String) : String := channelId ++ "_sess_" ++ drawn

inductive Operation where
  | createSession (channelId title workspace drawn now : String)
  | createSessionWithState (state : SessionMetaFile)
  | getOrCreateExternal (channelId externalKey title workspace : String)
      (data : List (String × Json)) (drawn now : String)
  | updateSession (sessionId : String) (title workspace : Option String) (now : String)
  | updateSessionMetadata (sessionId key : String) (value : Option Json) (now : String)
  /-- `updater` raises with none. -/
  | mutateSessionMetadata (sessionId key : String)
      (updater : Option Json → Option (Option Json)) (now : String)
  | setLastUserText (sessionId text : String)
  /-- A snapshot or a rollback; `change` gives up with none. -/
  | commitState (sessionId : String) (change : SessionMeta → Option SessionMeta)
      (preview : Option String) (now : String)
  /-- The import of an old log in `log`. -/
  | importLegacy (sessionId : String) (snapshot : SessionMeta → SessionMeta)
      (preview : Option String)
  | deleteSession (sessionId : String)

/-- The locks an operation works under. -/
inductive Hold where
  | unlocked
  | global
  | session
  | both
deriving DecidableEq, Repr

namespace Operation

def hold : Operation → Hold
  | .createSession .. => .global
  | .createSessionWithState _ => .global
  | .getOrCreateExternal .. => .global
  | .importLegacy .. => .unlocked
  | .deleteSession _ => .both
  | _ => .session

def sessionId : Operation → String
  | .updateSession sessionId .. => sessionId
  | .updateSessionMetadata sessionId .. => sessionId
  | .mutateSessionMetadata sessionId .. => sessionId
  | .setLastUserText sessionId _ => sessionId
  | .commitState sessionId .. => sessionId
  | .importLegacy sessionId .. => sessionId
  | .deleteSession sessionId => sessionId
  | .createSession channelId _ _ drawn _ => makeSessionId channelId drawn
  | .createSessionWithState state => state.session.id
  | .getOrCreateExternal channelId _ _ _ _ drawn _ => makeSessionId channelId drawn

def draws : Operation → Bool
  | .createSession .. => true
  | .createSessionWithState _ => true
  | .getOrCreateExternal .. => true
  | _ => false

end Operation

inductive Plan where
  | replies (reply : SessionReply)
  | raises (error : SessionError)
  | writes (sessionId : String) (next : SessionMetaFile) (reply : SessionReply)

/-! ### The repository -/

inductive Stage where
  | absent
  /-- Waits for its locks. -/
  | waits (operation : Operation)
  | imports (sessionId : String) (version : Nat) (next : SessionMetaFile)
  /-- The file is being replaced; `version` is the one that was read. -/
  | writes (hold : Hold) (sessionId : String) (version : Nat) (next : SessionMetaFile)
      (reply : SessionReply)
  /-- The file is replaced, and memory is about to follow. -/
  | landed (hold : Hold) (sessionId : String) (version : Nat) (next : SessionMetaFile)
      (reply : SessionReply)
  /-- Memory has dropped the session; its directory is being removed. -/
  | removes (sessionId : String)
  | removed (sessionId : String)
  | returned (reply : SessionReply)
  | raised (error : SessionError)

/-- The repository, and two things an observer counts: the version of every
session, which each commit and each deletion moves on, and the commits that
replaced a version they had not read. -/
structure SessionRepository where
  states : KeyedTable String SessionMetaFile
  external : KeyedTable ExternalKey String
  files : KeyedTable String SessionMetaFile
  corrupt : List String
  globalLock : Option Nat
  /-- A lock that a deletion drops is missed only by calls that find no session. -/
  locks : String → Option Nat
  calls : Nat → Stage
  /-- The ids that were drawn or present from the start. -/
  drawn : List String
  versions : String → Nat
  overwrites : List Nat

namespace SessionRepository

def indexEntry (index : KeyedTable ExternalKey String) (entry : String × SessionMetaFile) :
    KeyedTable ExternalKey String :=
  match externalOf entry.2 with
  | some key => index.set key entry.1
  | none => index

def rebuildIndexes (states : KeyedTable String SessionMetaFile) : KeyedTable ExternalKey String :=
  states.entries.foldl indexEntry .empty

/-- The repository after `init`. -/
def opened (states : KeyedTable String SessionMetaFile) (corrupt : List String) :
    SessionRepository where
  states := states
  external := rebuildIndexes states
  files := states
  corrupt := corrupt
  globalLock := none
  locks := fun _ => none
  calls := fun _ => .absent
  drawn := states.keys
  versions := fun _ => 0
  overwrites := []

def setCall (repository : SessionRepository) (call : Nat) (stage : Stage) : SessionRepository :=
  { repository with
    calls := fun other => if other = call then stage else repository.calls other }

@[simp] theorem setCall_self (repository : SessionRepository) (call : Nat) (stage : Stage) :
    (repository.setCall call stage).calls call = stage := if_pos rfl

theorem setCall_other (repository : SessionRepository) {call other : Nat} (stage : Stage)
    (different : other ≠ call) :
    (repository.setCall call stage).calls other = repository.calls other := if_neg different

def requireState (repository : SessionRepository) (sessionId : String) :
    Except SessionError SessionMetaFile :=
  match repository.states.find? sessionId with
  | some state => .ok state
  | none =>
      if sessionId ∈ repository.corrupt then .error (.corrupt sessionId)
      else .error (.missing sessionId)

def whenPresent (repository : SessionRepository) (sessionId : String)
    (change : SessionMetaFile → Plan) : Plan :=
  match repository.states.find? sessionId with
  | some state => change state
  | none =>
      if sessionId ∈ repository.corrupt then .raises (.corrupt sessionId) else .replies .done

def whenRequired (repository : SessionRepository) (sessionId : String)
    (change : SessionMetaFile → Plan) : Plan :=
  match repository.requireState sessionId with
  | .ok state => change state
  | .error error => .raises error

def writeMetadata (sessionId key : String) (value : Option Json) (now : String)
    (state : SessionMetaFile) : Plan :=
  let next := (state.withMetadata key value).touched now
  .writes sessionId next (.metadata next.metadata)

def boundSession (repository : SessionRepository) (key : ExternalKey) :
    Option (String × SessionMetaFile) :=
  (repository.external.find? key).bind fun sessionId =>
    (repository.states.find? sessionId).map fun state => (sessionId, state)

def creates (sessionId : String) (next : SessionMetaFile) : Plan :=
  match validateSessionId sessionId with
  | some error => .raises error
  | none => .writes sessionId next (.sessionId sessionId)

def plan (repository : SessionRepository) : Operation → Plan
  | .createSession channelId title workspace drawn now =>
      match validateChannelId channelId with
      | some error => .raises error
      | none =>
          let id := makeSessionId channelId drawn
          creates id (.fresh id channelId title workspace now)
  | .createSessionWithState state =>
      match validateSessionId state.session.id <|> validateChannelId state.session.channelId with
      | some error => .raises error
      | none =>
          if repository.states.contains state.session.id ∨
              state.session.id ∈ repository.corrupt then
            .raises (.exists state.session.id)
          else creates state.session.id state
  | .getOrCreateExternal channelId externalKey title workspace data drawn now =>
      match validateChannelId channelId with
      | some error => .raises error
      | none =>
          if externalKey = "" then .raises .emptyExternalKey
          else
            match repository.boundSession (channelId, externalKey) with
            | some (sessionId, state) =>
                match state.rebound now data with
                | some next => .writes sessionId next (.sessionId sessionId)
                | none => .raises (.unbound sessionId)
            | none =>
                let id := makeSessionId channelId drawn
                creates id (.bound id channelId externalKey title workspace now data)
  | .updateSession sessionId title workspace now =>
      repository.whenPresent sessionId fun state =>
        .writes sessionId
          { state with
            session :=
              { state.session with
                title := title.getD state.session.title
                workspace := workspace.getD state.session.workspace
                updatedAt := now } }
          .done
  | .updateSessionMetadata sessionId key value now =>
      repository.whenRequired sessionId (writeMetadata sessionId key value now)
  | .mutateSessionMetadata sessionId key updater now =>
      repository.whenRequired sessionId fun state =>
        match updater (state.metadata.find? key) with
        | some value => writeMetadata sessionId key value now state
        | none => .raises .updaterRaised
  | .setLastUserText sessionId text =>
      repository.whenPresent sessionId fun state =>
        .writes sessionId { state with session := { state.session with lastUserText := text } } .done
  | .commitState sessionId change preview now =>
      repository.whenPresent sessionId fun state =>
        match change state.snapshot with
        | some snapshot => .writes sessionId (state.withSnapshot snapshot preview now) .done
        | none => .replies .done
  | .importLegacy sessionId snapshot preview =>
      repository.whenRequired sessionId fun state =>
        .writes sessionId (state.withSnapshot (snapshot state.snapshot) preview
          state.session.updatedAt) .done
  | .deleteSession _ => .replies .done

def unindexed (external : KeyedTable ExternalKey String) (sessionId : String) :
    KeyedTable ExternalKey String :=
  external.filter fun _ owner => decide (owner ≠ sessionId)

/-- `commit`, after the file was replaced: memory and index follow. -/
def store (repository : SessionRepository) (sessionId : String) (next : SessionMetaFile) :
    SessionRepository :=
  let cleared := unindexed repository.external sessionId
  { repository with
    states := repository.states.set sessionId next
    external :=
      match externalOf next with
      | some key => cleared.set key sessionId
      | none => cleared
    versions := fun other =>
      if other = sessionId then repository.versions other + 1 else repository.versions other }

def forget (repository : SessionRepository) (sessionId : String) : SessionRepository :=
  match repository.states.find? sessionId with
  | some _ =>
      { repository with
        states := repository.states.erase sessionId
        external := unindexed repository.external sessionId
        versions := fun other =>
          if other = sessionId then repository.versions other + 1 else repository.versions other }
  | none => repository

def free (repository : SessionRepository) (sessionId : String) : Hold → Bool
  | .unlocked => true
  | .global => repository.globalLock.isNone
  | .session => (repository.locks sessionId).isNone
  | .both => repository.globalLock.isNone && (repository.locks sessionId).isNone

/-- The locks of the hold belong to `owner` now. -/
def withLocks (repository : SessionRepository) (sessionId : String) (owner : Option Nat) :
    Hold → SessionRepository
  | .unlocked => repository
  | .global => { repository with globalLock := owner }
  | .session =>
      { repository with
        locks := fun other => if other = sessionId then owner else repository.locks other }
  | .both =>
      { repository with
        globalLock := owner
        locks := fun other => if other = sessionId then owner else repository.locks other }

def proceed (repository : SessionRepository) (call : Nat) (operation : Operation) :
    SessionRepository :=
  match operation with
  | .deleteSession sessionId =>
      ((repository.forget sessionId).withLocks sessionId (some call) .both).setCall call
        (.removes sessionId)
  | operation =>
      match repository.plan operation with
      | .replies reply => repository.setCall call (.returned reply)
      | .raises error => repository.setCall call (.raised error)
      | .writes sessionId next reply =>
          let version := repository.versions sessionId
          match operation.hold with
          | .unlocked => repository.setCall call (.imports sessionId version next)
          | hold =>
              (repository.withLocks operation.sessionId (some call) hold).setCall call
                (.writes hold sessionId version next reply)

def finish (repository : SessionRepository) (call : Nat) (hold : Hold) (sessionId : String)
    (version : Nat) (next : SessionMetaFile) (reply : SessionReply) : SessionRepository :=
  let overwrites :=
    if repository.versions sessionId = version then repository.overwrites
    else repository.overwrites ++ [call]
  (({ repository with overwrites := overwrites }.store sessionId next).withLocks sessionId none
    hold).setCall call (.returned reply)

inductive RepositoryAction where
  | request (call : Nat) (operation : Operation)
  | acquire (call : Nat)
  | imported (call : Nat)
  | lands (call : Nat)
  /-- The thread failed; the removal of a directory ignores errors. -/
  | writeFails (call : Nat)
  | resume (call : Nat)

def step (repository : SessionRepository) : RepositoryAction → Option SessionRepository
  | .request call operation =>
      match repository.calls call with
      | .absent =>
          if operation.draws then
            if operation.sessionId ∈ repository.drawn then none
            else
              some ({ repository with drawn := operation.sessionId :: repository.drawn }.setCall call
                (.waits operation))
          else some (repository.setCall call (.waits operation))
      | _ => none
  | .acquire call =>
      match repository.calls call with
      | .waits operation =>
          if repository.free operation.sessionId operation.hold then
            some (repository.proceed call operation)
          else none
      | _ => none
  | .imported call =>
      match repository.calls call with
      | .imports sessionId version next =>
          some (repository.setCall call (.writes .unlocked sessionId version next .done))
      | _ => none
  | .lands call =>
      match repository.calls call with
      | .writes hold sessionId version next reply =>
          some ({ repository with files := repository.files.set sessionId next }.setCall call
            (.landed hold sessionId version next reply))
      | .removes sessionId =>
          some ({ repository with files := repository.files.erase sessionId }.setCall call
            (.removed sessionId))
      | _ => none
  | .writeFails call =>
      match repository.calls call with
      | .writes hold sessionId _ _ _ =>
          some ((repository.withLocks sessionId none hold).setCall call (.raised .writeFailed))
      | .removes sessionId => some (repository.setCall call (.removed sessionId))
      | _ => none
  | .resume call =>
      match repository.calls call with
      | .landed hold sessionId version next reply =>
          some (repository.finish call hold sessionId version next reply)
      | .removed sessionId =>
          some ((repository.withLocks sessionId none .both).setCall call (.returned .done))
      | _ => none

def system : StepSystem SessionRepository RepositoryAction := ⟨step⟩

end SessionRepository

end Ftre.Session
