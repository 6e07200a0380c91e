import Ftre.Session.RequestIndex

/-!
The binding of a request to its content over runs of the service.
-/

namespace Ftre.Session

open Lib Message

theorem requestFingerprint_ne_empty (content : List Json) : requestFingerprint content ≠ "" := by
  unfold requestFingerprint Sha256.hexdigest
  rw [String.toList_ofList, List.flatMap_cons]
  intro blank
  have characters := congrArg String.toList blank
  rw [String.toList_ofList] at characters
  simp [Sha256.hexText] at characters

def Checkpoint.keepsContent (checkpoint : Checkpoint) (requestId fingerprint : String) : Bool :=
  match (checkpoint.firstEvent requestId).bind boundFingerprint,
      checkpoint.firstMessage requestId with
  | some bound, _ => decide (bound = fingerprint)
  | none, some message => decide (dumpFingerprint message = fingerprint)
  | none, none => (checkpoint.firstEvent requestId).isNone

theorem Checkpoint.fingerprint_of_keepsContent {checkpoint : Checkpoint}
    {requestId fingerprint : String} (named : requestId ≠ "")
    (keeps : checkpoint.keepsContent requestId fingerprint = true) {record : RequestRecord}
    (found : checkpoint.requests.find? requestId = some record) :
    record.fingerprint = some fingerprint := by
  rw [find?_requests named] at found
  refine foldl_messageRecord_fingerprint requestId checkpoint.messages.items
    (checkpoint.events.foldl (eventRecord requestId) none) ?_ record found
  have folded := foldl_eventRecord_fingerprint named checkpoint.events
  have bound : (checkpoint.events.foldl (eventRecord requestId) none).bind
      RequestRecord.fingerprint = (checkpoint.firstEvent requestId).bind boundFingerprint := by
    have joined : ∀ (record : Option RequestRecord) (first : Option Event),
        record.map RequestRecord.fingerprint = first.map boundFingerprint →
          record.bind RequestRecord.fingerprint = first.bind boundFingerprint := by
      intro record first same
      cases record <;> cases first <;> simp_all
    exact joined _ _ folded
  have unseen : checkpoint.firstEvent requestId = none →
      checkpoint.events.foldl (eventRecord requestId) none = none := by
    intro first
    unfold firstEvent at first
    rw [first] at folded
    exact Option.map_eq_none_iff.mp folded
  rw [bound]
  unfold keepsContent at keeps
  change match (checkpoint.firstEvent requestId).bind boundFingerprint,
      checkpoint.firstMessage requestId with
    | some bound, _ => bound = fingerprint
    | none, some message => dumpFingerprint message = fingerprint
    | none, none => checkpoint.events.foldl (eventRecord requestId) none = none
  cases first : (checkpoint.firstEvent requestId).bind boundFingerprint with
  | some bound =>
      rw [first] at keeps
      exact of_decide_eq_true keeps
  | none =>
      rw [first] at keeps
      cases seen : checkpoint.firstMessage requestId with
      | some message =>
          rw [seen] at keeps
          exact of_decide_eq_true keeps
      | none =>
          rw [seen] at keeps
          exact unseen (Option.isNone_iff_eq_none.mp keeps)

namespace ServiceState

def keepsBinding (requestId fingerprint : String) (state : ServiceState) : Action → Bool
  | .commit => state.checkpoint.all fun checkpoint => checkpoint.keepsContent requestId fingerprint
  | .restart => state.stored.requests.contains requestId
  | _ => true

def KeepsBinding (requestId fingerprint : String) (state : ServiceState) (action : Action) : Prop :=
  keepsBinding requestId fingerprint state action = true

instance (requestId fingerprint : String) (state : ServiceState) (action : Action) :
    Decidable (KeepsBinding requestId fingerprint state action) := instDecidableEqBool _ _

structure Bound (requestId fingerprint : String) (state : ServiceState) : Prop where
  stored : ∀ record, state.stored.requests.find? requestId = some record →
    record.fingerprint = some fingerprint
  known : state.stored.requests.contains requestId = true ∨
    ∃ live, state.live = some live ∧ live.log.userRequests.contains requestId = true ∧
      live.log.fingerprints.find? requestId = some fingerprint
  unnamed : state.stored.requests.contains requestId = false →
    ∀ message ∈ state.baselineMessages, requestOf message ≠ requestId

theorem push_keeps_request {log : SessionLog} {requestId fingerprint : String} {event : Event}
    (requested : log.userRequests.contains requestId = true)
    (held : log.fingerprints.find? requestId = some fingerprint)
    (allowed : log.allowed event.data = true) :
    (log.push event).userRequests.contains requestId = true ∧
      (log.push event).fingerprints.find? requestId = some fingerprint := by
  unfold SessionLog.push
  cases data : event.data with
  | userMessage content metadata other =>
      dsimp only
      split
      · exact ⟨requested, held⟩
      · rename_i nonempty
        dsimp only
        by_cases same : other = requestId
        · subst other
          have equal : fingerprint = requestFingerprint content := by
            rw [data] at allowed
            simpa [SessionLog.allowed, SessionLog.checkUserRequest, nonempty, held] using allowed
          unfold KeyedTable.contains
          rw [KeyedTable.find?_set_self, KeyedTable.find?_set_self, equal]
          exact ⟨rfl, rfl⟩
        · unfold KeyedTable.contains at requested ⊢
          rw [KeyedTable.find?_set, KeyedTable.find?_set, if_neg same, if_neg same]
          exact ⟨requested, held⟩
  | turnEnd turn =>
      dsimp only
      split
      · exact ⟨requested, held⟩
      · exact ⟨requested, held⟩
  | _ => exact ⟨requested, held⟩

theorem push_binds_request (log : SessionLog) {requestId : String} (named : requestId ≠ "")
    {event : Event} {content : List Json} {metadata : KeyedTable String Json}
    (data : event.data = .userMessage content metadata requestId) :
    (log.push event).userRequests.contains requestId = true ∧
      (log.push event).fingerprints.find? requestId = some (requestFingerprint content) := by
  unfold SessionLog.push
  rw [data]
  dsimp only
  rw [if_neg named]
  unfold KeyedTable.contains
  rw [KeyedTable.find?_set_self, KeyedTable.find?_set_self]
  exact ⟨rfl, rfl⟩

namespace Bound

variable {requestId fingerprint : String} {state : ServiceState}

theorem appendUser (bound : Bound requestId fingerprint state) (named : requestId ≠ "")
    (nonempty : fingerprint ≠ "") (time : Int) (generated : String) (content : List Json)
    (metadata : KeyedTable String Json) :
    state.appendUserMessageIfAbsent time generated requestId content metadata =
      (if requestFingerprint content = fingerprint then .skipped else .conflict, state) := by
  unfold appendUserMessageIfAbsent
  cases persisted : state.stored.requests.contains requestId with
  | true =>
      obtain ⟨record, found⟩ := Option.isSome_iff_exists.mp persisted
      have valid : state.validatePersistedRequest requestId content =
          decide (fingerprint = requestFingerprint content) := by
        unfold validatePersistedRequest
        rw [if_neg named, found, Option.bind_some, bound.stored record found]
        exact if_neg nonempty
      have present : state.hasPersistedRequest requestId = true := by
        unfold hasPersistedRequest
        simp [named, persisted]
      rw [valid, present]
      by_cases same : requestFingerprint content = fingerprint
      · simp [same]
      · have other : ¬ fingerprint = requestFingerprint content := fun equal => same equal.symm
        simp [same, other]
  | false =>
      rcases bound.known with stored | ⟨live, loaded, requested, held⟩
      · rw [persisted] at stored
        cases stored
      have nobody : ∀ message ∈ state.baselineMessages, requestOf message ≠ requestId :=
        bound.unnamed persisted
      have absent : state.stored.requests.find? requestId = none :=
        Option.not_isSome_iff_eq_none.mp (ne_true_of_eq_false persisted)
      have valid : state.validatePersistedRequest requestId content = true := by
        unfold validatePersistedRequest
        have unmentioned : (state.baselineMessages.find? fun message =>
            decide (requestOf message = requestId)) = none := by
          rw [List.find?_eq_none]
          intro message member
          simpa using nobody message member
        rw [if_neg named, absent, unmentioned]
        rfl
      have missing : state.hasPersistedRequest requestId = false := by
        unfold hasPersistedRequest
        rw [persisted, Bool.false_or]
        simpa [named] using nobody
      have same : state.load = state := load_of_live loaded
      have current : state.liveSession = live := by
        unfold liveSession
        rw [loaded]
      have unchanged : state.withLog live.log = state := by
        unfold withLog
        rw [current]
        rw [← loaded]
      have checked : live.log.checkUserRequest requestId content =
          decide (fingerprint = requestFingerprint content) := by
        unfold SessionLog.checkUserRequest
        rw [held]
      rw [if_neg (by simp [valid]), if_neg (by simp [missing])]
      simp only [same, current]
      rw [if_neg (by simp [valid]), if_neg (by simp [missing])]
      unfold SessionLog.appendUserMessage
      rw [if_pos ⟨named, requested⟩, checked]
      by_cases equal : requestFingerprint content = fingerprint
      · simp [equal, unchanged]
      · have other : ¬ fingerprint = requestFingerprint content := fun flipped =>
          equal flipped.symm
        simp [equal, other, unchanged]

theorem withLog (bound : Bound requestId fingerprint state) {event : Event}
    (allowed : state.liveSession.log.allowed event.data = true) :
    Bound requestId fingerprint (state.withLog (state.liveSession.log.push event)) where
  stored := bound.stored
  known := by
    rcases bound.known with stored | ⟨live, loaded, requested, held⟩
    · exact Or.inl stored
    right
    have current : state.liveSession = live := by
      unfold liveSession
      rw [loaded]
    rw [current] at allowed
    obtain ⟨stillRequested, stillHeld⟩ := push_keeps_request requested held allowed
    refine ⟨{ live with log := live.log.push event }, ?_, stillRequested, stillHeld⟩
    unfold ServiceState.withLog
    rw [current]
  unnamed := by
    intro persisted
    rcases bound.known with stored | ⟨live, loaded, _, _⟩
    · exact absurd (stored.symm.trans persisted) (by decide)
    · have unnamed := bound.unnamed persisted
      unfold baselineMessages at unnamed
      rw [loaded] at unnamed
      change ∀ message ∈ state.liveSession.baseline.items, _
      unfold liveSession
      rw [loaded]
      exact unnamed

theorem load (bound : Bound requestId fingerprint state) :
    Bound requestId fingerprint state.load where
  stored := bound.stored
  known := by
    rcases bound.known with stored | ⟨live, loaded, requested, held⟩
    · exact Or.inl stored
    · rw [load_of_live loaded]
      exact Or.inr ⟨live, loaded, requested, held⟩
  unnamed := by
    intro persisted
    rcases bound.known with stored | ⟨live, loaded, _, _⟩
    · exact absurd (stored.symm.trans persisted) (by decide)
    · rw [load_of_live loaded]
      exact bound.unnamed persisted

theorem commit (bound : Bound requestId fingerprint state) (named : requestId ≠ "")
    {checkpoint : Checkpoint} (keeps : checkpoint.keepsContent requestId fingerprint = true) :
    Bound requestId fingerprint
      { state with stored := checkpoint.commit state.stored, checkpoint := none } := by
  have written : ∀ record, (checkpoint.commit state.stored).requests.find? requestId = some record →
      record.fingerprint = some fingerprint := by
    intro record found
    rw [Checkpoint.find?_commit] at found
    split at found
    · exact bound.stored record found
    · rcases Option.or_eq_some_iff.mp found with fresh | ⟨_, older⟩
      · exact Checkpoint.fingerprint_of_keepsContent named keeps fresh
      · exact bound.stored record older
  have grown : state.stored.requests.contains requestId = true →
      (checkpoint.commit state.stored).requests.contains requestId = true := by
    intro persisted
    obtain ⟨record, found⟩ := Option.isSome_iff_exists.mp persisted
    unfold KeyedTable.contains
    rw [Checkpoint.find?_commit, found]
    split
    · rfl
    · cases checkpoint.requests.find? requestId <;> rfl
  refine ⟨written, ?_, ?_⟩
  · rcases bound.known with stored | live
    · exact Or.inl (grown stored)
    · exact Or.inr live
  · intro missing
    apply bound.unnamed
    cases persisted : state.stored.requests.contains requestId with
    | false => rfl
    | true => exact absurd ((grown persisted).symm.trans missing) (by decide)

theorem step (bound : Bound requestId fingerprint state) (named : requestId ≠ "")
    {action : Action} {next : ServiceState}
    (guarded : KeepsBinding requestId fingerprint state action)
    (stepped : system.step state action = some next) : Bound requestId fingerprint next := by
  cases action with
  | load =>
      cases stepped
      exact bound.load
  | append time data messageId =>
      cases stepped
      rcases appendEvent_cases state time data messageId with
        ⟨_, loaded⟩ | ⟨event, _, allowed, pushed⟩
      · rw [loaded]
        exact bound.load
      · rw [pushed]
        exact bound.withLog allowed
  | appendUser time generated other content metadata =>
      cases stepped
      rcases appendUser_cases state time generated other content metadata with
        unchanged | loaded | ⟨event, _, allowed, pushed⟩
      · rw [unchanged]
        exact bound
      · rw [loaded]
        exact bound.load
      · rw [pushed]
        exact bound.withLog allowed
  | capture =>
      obtain ⟨live, _, _, captured⟩ := step_capture stepped
      subst captured
      exact ⟨bound.stored, bound.known, bound.unnamed⟩
  | commit =>
      obtain ⟨checkpoint, captured, committed⟩ := Option.map_eq_some_iff.mp stepped
      subst committed
      change state.checkpoint.all _ = true at guarded
      rw [captured] at guarded
      exact bound.commit named guarded
  | checkpointFails =>
      obtain ⟨checkpoint, _, dropped⟩ := Option.map_eq_some_iff.mp stepped
      subst dropped
      exact ⟨bound.stored, bound.known, bound.unnamed⟩
  | restart =>
      cases stepped
      refine ⟨bound.stored, Or.inl guarded, ?_⟩
      intro _ message member
      cases member

end Bound

theorem bound_of_appended {state next : ServiceState} {time : Int} {generated requestId : String}
    {content : List Json} {metadata : KeyedTable String Json} {event : Event}
    (named : requestId ≠ "")
    (appended : state.appendUserMessageIfAbsent time generated requestId content metadata =
      (.appended event, next)) :
    Bound requestId (requestFingerprint content) next := by
  obtain ⟨missing, _, _, data, pushed⟩ := appendUser_appended appended
  have absent : state.stored.requests.contains requestId = false ∧
      ∀ message ∈ state.liveSession.baseline.items, requestOf message ≠ requestId := by
    simpa [hasPersistedRequest, named, baselineMessages, ServiceState.load] using missing
  obtain ⟨requested, held⟩ := push_binds_request state.liveSession.log named data
  subst pushed
  refine ⟨?_, Or.inr ⟨_, rfl, requested, held⟩, fun _ => absent.2⟩
  intro record found
  have present : state.stored.requests.contains requestId = true :=
    Option.isSome_iff_exists.mpr ⟨record, found⟩
  exact absurd (present.symm.trans absent.1) (by decide)

/-- In a run that keeps the binding, a later call appends nothing and raises
exactly on content with another fingerprint. -/
theorem append_user_message_idempotent {state next final : ServiceState} {time : Int}
    {generated requestId : String} {content : List Json} {metadata : KeyedTable String Json}
    {event : Event} (named : requestId ≠ "")
    (appended : state.appendUserMessageIfAbsent time generated requestId content metadata =
      (.appended event, next))
    (ran : system.Reaches (KeepsBinding requestId (requestFingerprint content)) next final)
    (laterTime : Int) (laterGenerated : String) (laterContent : List Json)
    (laterMetadata : KeyedTable String Json) :
    final.appendUserMessageIfAbsent laterTime laterGenerated requestId laterContent laterMetadata =
      (if requestFingerprint laterContent = requestFingerprint content then .skipped else .conflict,
        final) := by
  have bound : Bound requestId (requestFingerprint content) final := by
    apply ran.invariant (bound_of_appended named appended)
    intro before action after bound guarded stepped
    exact bound.step named guarded stepped
  exact bound.appendUser named (requestFingerprint_ne_empty content) laterTime laterGenerated
    laterContent laterMetadata

def newSession : ServiceState := created "session-1"

def hello : List Json := [.object [("type", .str "text"), ("text", .str "hello")]]

def goodbye : List Json := [.object [("type", .str "text"), ("text", .str "goodbye")]]

def requestMetadata (requestId : String) : KeyedTable String Json :=
  KeyedTable.empty.set "request_id" (.str requestId)

def helloEvent : Event :=
  newSession.liveSession.log.stamp 1000
    (.userMessage hello (requestMetadata "request-1") "request-1")
    (some (newSession.liveSession.log.requestMessageId "request-1"))

def helloAppended : ServiceState :=
  newSession.withLog (newSession.liveSession.log.push helloEvent)

theorem helloAppended_eq :
    newSession.appendUserMessageIfAbsent 1000 "" "request-1" hello (requestMetadata "request-1") =
      (.appended helloEvent, helloAppended) := by
  rfl

/-- The second checkpoint after a restart rebinds the request to its message's
blocks, and the equal call raises. -/
theorem equal_content_raises_after_restart :
    newSession.appendUserMessageIfAbsent 1000 "" "request-1" hello (requestMetadata "request-1") =
        (.appended helloEvent, helloAppended) ∧
      ((system.run helloAppended
          [.capture, .commit, .restart, .load, .capture, .commit]).map fun state =>
        (state.appendUserMessageIfAbsent 2000 "" "request-1" hello
          (requestMetadata "request-1")).1) = some .conflict := by
  refine ⟨helloAppended_eq, ?_⟩
  decide +kernel

def helloRestarted : ServiceState :=
  opened "session-1" ((Checkpoint.mk [helloEvent] 0 .empty).commit newSession.stored)

/-- With one checkpoint and a restart the request is still bound. -/
theorem hello_bound_after_restart :
    helloRestarted.appendUserMessageIfAbsent 2000 "" "request-1" hello .empty =
        (.skipped, helloRestarted) ∧
      helloRestarted.appendUserMessageIfAbsent 2000 "" "request-1" goodbye .empty =
        (.conflict, helloRestarted) := by
  have named : "request-1" ≠ "" := by decide
  have ran : system.Reaches (KeepsBinding "request-1" (requestFingerprint hello)) helloAppended
      helloRestarted := by
    have guarded : system.runUnder (KeepsBinding "request-1" (requestFingerprint hello))
        helloAppended [.capture, .commit, .restart] = some helloRestarted := by
      decide +kernel
    exact StepSystem.reaches_of_runUnder guarded
  constructor
  · rw [append_user_message_idempotent named helloAppended_eq ran 2000 "" hello .empty, if_pos rfl]
  · rw [append_user_message_idempotent named helloAppended_eq ran 2000 "" goodbye .empty,
      if_neg (by decide)]

end ServiceState

end Ftre.Session
