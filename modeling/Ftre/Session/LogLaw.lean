import Ftre.Session.RawLog

/-!
What every run of the log keeps: numbers without a gap, pages, requests that are appended once, and
calls that change nothing if they raise.
-/

namespace Ftre.Session

open Lib

def Numbered : Int → List RawEvent → Prop
  | _, [] => True
  | first, event :: rest => event.seq = first ∧ Numbered (first + 1) rest

variable {events : List RawEvent} {run : LogRun} {host : PyHost}

theorem numbered_append {first : Int} {event : RawEvent} (numbered : Numbered first events)
    (next : event.seq = first + events.length) : Numbered first (events ++ [event]) := by
  induction events generalizing first with
  | nil =>
      rw [List.length_nil, Int.natCast_zero, Int.add_zero] at next
      exact ⟨next, trivial⟩
  | cons head rest ih =>
      refine ⟨numbered.1, ih numbered.2 ?_⟩
      rw [next, List.length_cons]
      omega

theorem filter_all {first : Int} (numbered : Numbered first events) {after : Int}
    (below : after < first) : events.filter (fun event => decide (after < event.seq)) = events := by
  induction events generalizing first with
  | nil => rfl
  | cons head rest ih =>
      rw [List.filter_cons_of_pos (by rw [numbered.1]; exact decide_eq_true below),
        ih numbered.2 (by omega)]

theorem filter_behind {first : Int} (numbered : Numbered first events) {after : Int}
    (from' : first - 1 ≤ after) :
    events.filter (fun event => decide (after < event.seq)) =
      events.drop (after - first + 1).toNat := by
  induction events generalizing first with
  | nil => rw [List.drop_nil, List.filter_nil]
  | cons head rest ih =>
      by_cases below : after < first
      · have start : (after - first + 1).toNat = 0 := by omega
        rw [start, List.drop_zero]
        exact @filter_all _ first numbered after below
      · have start : (after - first + 1).toNat = (after - (first + 1) + 1).toNat + 1 := by omega
        rw [List.filter_cons_of_neg (by rw [numbered.1]; simpa using below), start,
          List.drop_succ_cons]
        exact ih numbered.2 (by omega)

def RawLog.SameFields (left right : RawLog) : Prop :=
  left.events = right.events ∧ left.nextSeq = right.nextSeq ∧
    left.userRequests = right.userRequests ∧ left.fingerprints = right.fingerprints ∧
    left.turnOutcomes = right.turnOutcomes

structure Represents (run : LogRun) : Prop where
  /-- The numbers of the events are consecutive and end at `seq`. -/
  numbered : Numbered (run.log.seq - run.log.events.length + 1) run.log.events
  pages : ∀ after limit : Int, 0 < limit →
    (∀ first, run.log.events.head? = some first → first.seq - 1 ≤ after) →
    run.log.tail after limit =
      ((run.log.events.filter fun event => decide (after < event.seq)).take limit.toNat,
        decide (limit.toNat <
          (run.log.events.filter fun event => decide (after < event.seq)).length))
  once : run.sent.Nodup
  unchanged : ∀ before, run.raisedFrom = some before → run.log.SameFields before

theorem tail_of_numbered {log : RawLog} {base : Int} (numbered : Numbered base log.events)
    {after limit : Int} (positive : 0 < limit)
    (within : ∀ first, log.events.head? = some first → first.seq - 1 ≤ after) :
    log.tail after limit =
      ((log.events.filter fun event => decide (after < event.seq)).take limit.toNat,
        decide (limit.toNat <
          (log.events.filter fun event => decide (after < event.seq)).length)) := by
  unfold RawLog.tail
  cases listed : log.events with
  | nil => simp
  | cons first rest =>
      rw [listed] at numbered within
      have lower := within first rfl
      rw [numbered.1] at lower
      have start : (max 0 (after - first.seq + 1)).toNat = (after - base + 1).toNat := by
        rw [numbered.1]
        omega
      have size : (max 1 limit).toNat = limit.toNat := by omega
      dsimp only
      rw [start, size, filter_behind numbered lower, Prod.mk.injEq]
      refine ⟨rfl, ?_⟩
      rw [decide_eq_decide, List.length_take, List.length_drop]
      omega

/-! ### Storing an event -/

namespace RawLog

def Unindexable (host : PyHost) (type : EventType) (data : PyDict) : Prop :=
  type = .userMessage ∧ requestOf host data ≠ [] ∧ host.requestFingerprint (contentOf data) = none

structure Grown (before after : RawLog) (event : RawEvent) : Prop where
  events : after.events = before.events ++ [event]
  nextSeq : after.nextSeq = before.nextSeq + 1
  requests : ∀ requestId, before.userRequests.contains requestId = true →
    after.userRequests.contains requestId = true

private theorem contains_set {ν : Type} (table : KeyedTable PyString ν) (key other : PyString)
    (value : ν) (present : table.contains other = true) :
    (table.set key value).contains other = true := by
  unfold KeyedTable.contains at present ⊢
  rw [KeyedTable.find?_set]
  split
  · rfl
  · exact present

private theorem contains_set_self {ν : Type} (table : KeyedTable PyString ν) (key : PyString)
    (value : ν) : (table.set key value).contains key = true := by
  unfold KeyedTable.contains
  rw [KeyedTable.find?_set_self]
  rfl

variable (log : RawLog)

theorem commit_grown (host : PyHost) (event : RawEvent) (data : PyDict) :
    Grown log (log.commit host event data).log event ∧
      (log.commit host event data).appended = true := by
  unfold commit
  dsimp only
  split
  · split
    · exact ⟨⟨rfl, rfl, fun _ present => present⟩, rfl⟩
    · split
      · exact ⟨⟨rfl, rfl, fun _ present => contains_set _ _ _ _ present⟩, rfl⟩
      · exact ⟨⟨rfl, rfl, fun _ present => contains_set _ _ _ _ present⟩, rfl⟩
  · split
    · exact ⟨⟨rfl, rfl, fun _ present => present⟩, rfl⟩
    · exact ⟨⟨rfl, rfl, fun _ present => present⟩, rfl⟩
  · exact ⟨⟨rfl, rfl, fun _ present => present⟩, rfl⟩

theorem commit_raised (host : PyHost) (event : RawEvent) (data : PyDict) :
    (log.commit host event data).raised = true ↔ Unindexable host event.type data := by
  unfold commit Unindexable
  cases type : event.type with
  | userMessage =>
      by_cases anonymous : requestOf host data = []
      · simp [anonymous]
      · cases fingerprint : host.requestFingerprint (contentOf data) <;> simp [anonymous]
  | turnEnd =>
      by_cases anonymous : requestOf host data = [] <;> simp [anonymous]
  | _ => simp

theorem commit_bound (host : PyHost) {event : RawEvent} {data : PyDict}
    (type : event.type = .userMessage) (named : requestOf host data ≠ []) :
    (log.commit host event data).log.userRequests.contains (requestOf host data) = true := by
  unfold commit
  rw [type]
  dsimp only
  rw [if_neg named]
  split
  · exact contains_set_self _ _ _
  · exact contains_set_self _ _ _

theorem append_cases (host : PyHost) (name : PyString) (data : PyDict) (messageId : Option PyString)
    (time : Int) :
    log.append host name data messageId time = log.raise ∨
    ∃ type payload event, log.appending = false ∧ eventType? name = some type ∧
      snapshotEntries (pyText "data") data = .ok payload ∧
      ¬ (type = .userMessage ∧ requestOf host payload ≠ [] ∧
        log.checkUserRequest host (requestOf host payload) (contentOf payload) = false) ∧
      event.type = type ∧ event.seq = log.nextSeq ∧
      log.append host name data messageId time = log.commit host event payload := by
  unfold append
  by_cases publishing : log.appending = true
  · rw [if_pos publishing]
    exact Or.inl rfl
  · rw [if_neg publishing]
    cases known : eventType? name with
    | none => exact Or.inl rfl
    | some type =>
        cases pure : snapshotEntries (pyText "data") data with
        | error error => exact Or.inl rfl
        | ok payload =>
            dsimp only
            split
            · exact Or.inl rfl
            · rename_i fits
              refine Or.inr ⟨type, payload, _, eq_false_of_ne_true publishing, rfl, rfl,
                fits, ?_, ?_, rfl⟩
              · rfl
              · rfl

def StoresUnindexable (host : PyHost) (log : RawLog) (name : PyString) (data : PyDict) : Prop :=
  log.appending = false ∧ eventType? name = some .userMessage ∧
    ∃ payload, snapshotEntries (pyText "data") data = .ok payload ∧
      log.fingerprints.find? (requestOf host payload) = none ∧
      Unindexable host .userMessage payload

variable {host : PyHost}

theorem append_indexed {log : RawLog} {name : PyString} {data : PyDict}
    (indexed : ¬ StoresUnindexable host log name data) (messageId : Option PyString) (time : Int) :
    log.append host name data messageId time = log.raise ∨
    ∃ event payload, event.seq = log.nextSeq ∧
      snapshotEntries (pyText "data") data = .ok payload ∧ eventType? name = some event.type ∧
      log.append host name data messageId time = log.commit host event payload ∧
      (log.commit host event payload).raised = false := by
  rcases log.append_cases host name data messageId time with refused |
    ⟨type, payload, event, idle, known, pure, fits, own, next, stored⟩
  · exact Or.inl refused
  · refine Or.inr ⟨event, payload, next, pure, by rw [own]; exact known, stored, ?_⟩
    apply eq_false_of_ne_true
    intro raised
    have unindexable := (commit_raised log host event payload).mp raised
    rw [own] at unindexable
    obtain ⟨user, named, missing⟩ := unindexable
    subst user
    apply indexed
    refine ⟨idle, known, payload, pure, ?_, rfl, named, missing⟩
    cases bound : log.fingerprints.find? (requestOf host payload) with
    | none => rfl
    | some existing =>
        refine absurd ⟨rfl, named, ?_⟩ fits
        unfold checkUserRequest
        rw [bound, missing]
        rfl

theorem append_unindexed {log : RawLog} {name : PyString} {data : PyDict}
    (unindexed : StoresUnindexable host log name data) (messageId : Option PyString) (time : Int) :
    (log.append host name data messageId time).raised = true ∧
      (log.append host name data messageId time).log.events.length = log.events.length + 1 := by
  obtain ⟨idle, known, payload, pure, unbound, unindexable⟩ := unindexed
  have checked : log.checkUserRequest host (requestOf host payload) (contentOf payload) = true := by
    unfold checkUserRequest
    rw [unbound]
  unfold append
  rw [if_neg (by rw [idle]; exact Bool.false_ne_true), known]
  dsimp only
  rw [pure]
  dsimp only
  rw [if_neg (by rw [checked]; exact fun wrong => Bool.noConfusion wrong.2.2)]
  constructor
  · exact (commit_raised log host _ payload).mpr unindexable
  · rw [(commit_grown log host _ payload).1.events, List.length_append, List.length_singleton]

private theorem snapshotJson_str (path text : PyString) :
    snapshotJson path (.str text) = .ok (.str text) := by
  simp [snapshotJson]

theorem userMessageData_request {host : PyHost} {requestId : PyString} {content : List PyValue}
    {metadata payload : PyDict}
    (pure : snapshotEntries (pyText "data") (userMessageData requestId content metadata) =
      .ok payload) : requestOf host payload = requestId := by
  unfold userMessageData at pure
  rw [snapshotEntries] at pure
  cases first : snapshotJson (pyText "data" ++ pyText "." ++ pyText "content") (.list content) with
  | error error =>
      rw [first] at pure
      cases pure
  | ok copy =>
      rw [first, snapshotEntries] at pure
      dsimp only at pure
      cases second : snapshotJson (pyText "data" ++ pyText "." ++ pyText "metadata")
          (.dict metadata) with
      | error error =>
          rw [second] at pure
          cases pure
      | ok other =>
          rw [second, snapshotEntries, snapshotJson_str, snapshotEntries] at pure
          cases pure
          rfl

/-! ### Loading -/

def indexable (host : PyHost) (event : RawEvent) : Bool :=
  match event.type, event.data with
  | .userMessage, .dict data =>
      decide (requestOf host data = []) || (host.requestFingerprint (contentOf data)).isSome
  | .turnEnd, .dict _ => true
  | .userMessage, _ => false
  | .turnEnd, _ => false
  | _, _ => true

def Loadable (host : PyHost) : Nat → List StoredEvent → Prop
  | _, [] => True
  | index, event :: rest =>
      (∃ raw, restored host index event = some raw ∧ indexable host raw = true) ∧
        Loadable host (index + 1) rest

theorem reindex_raised (host : PyHost) (event : RawEvent) :
    (log.reindex host event).raised = !indexable host event := by
  unfold reindex indexable
  cases event.type with
  | userMessage =>
      cases event.data with
      | dict data =>
          dsimp only
          by_cases anonymous : requestOf host data = []
          · rw [if_pos anonymous, decide_eq_true anonymous]
            rfl
          · rw [if_neg anonymous, decide_eq_false anonymous]
            cases host.requestFingerprint (contentOf data) <;> rfl
      | _ => rfl
  | turnEnd =>
      cases event.data with
      | dict data =>
          dsimp only
          split <;> rfl
      | _ => rfl
  | _ => rfl

theorem reindex_fields (host : PyHost) (event : RawEvent) :
    (log.reindex host event).log.events = log.events ∧
      (log.reindex host event).log.nextSeq = log.nextSeq ∧
      (log.reindex host event).appended = false := by
  unfold reindex
  cases event.type with
  | userMessage =>
      cases event.data with
      | dict data =>
          dsimp only
          split
          · exact ⟨rfl, rfl, rfl⟩
          · split <;> exact ⟨rfl, rfl, rfl⟩
      | _ => exact ⟨rfl, rfl, rfl⟩
  | turnEnd =>
      cases event.data with
      | dict data =>
          dsimp only
          split <;> exact ⟨rfl, rfl, rfl⟩
      | _ => exact ⟨rfl, rfl, rfl⟩
  | _ => exact ⟨rfl, rfl, rfl⟩

theorem restored_seq {index : Nat} {event : StoredEvent} {raw : RawEvent}
    (reads : restored host index event = some raw) : raw.seq = index := by
  unfold restored at reads
  cases type : event.type with
  | str name =>
      rw [type] at reads
      dsimp only at reads
      cases known : eventType? name with
      | none =>
          rw [known] at reads
          cases reads
      | some type =>
          rw [known] at reads
          dsimp only at reads
          split at reads
          · cases pure : snapshotJson (pyText "data") event.data with
            | error error =>
                rw [pure] at reads
                cases reads
            | ok data =>
                rw [pure] at reads
                obtain ⟨time, _, same⟩ := Option.map_eq_some_iff.mp reads
                rw [← same]
          · cases reads
  | _ =>
      rw [type] at reads
      cases reads

theorem loadEvents_loadable {events : List StoredEvent} {index : Nat}
    (loadable : Loadable host index events) {log : RawLog} {base : Int}
    (numbered : Numbered base log.events) (next : base + log.events.length = index) :
    (log.loadEvents host index events).raised = false ∧
      Numbered base (log.loadEvents host index events).log.events := by
  induction events generalizing index log with
  | nil => exact ⟨rfl, numbered⟩
  | cons event rest ih =>
      obtain ⟨⟨raw, reads, fits⟩, later⟩ := loadable
      have stays := reindex_raised { log with events := log.events ++ [raw] } host raw
      obtain ⟨same, _, _⟩ := reindex_fields { log with events := log.events ++ [raw] } host raw
      rw [fits] at stays
      rw [loadEvents, reads]
      dsimp only
      rw [stays, if_neg (by decide)]
      apply ih later
      · rw [same]
        exact numbered_append numbered (by rw [restored_seq reads, next])
      · rw [same, List.length_append, List.length_singleton]
        push_cast
        omega

theorem loadEvents_length (host : PyHost) (events : List StoredEvent) (index : Nat) (log : RawLog) :
    log.events.length ≤ (log.loadEvents host index events).log.events.length := by
  induction events generalizing index log with
  | nil => exact Nat.le_refl _
  | cons event rest ih =>
      rw [loadEvents]
      cases reads : restored host index event with
      | none => exact Nat.le_refl _
      | some raw =>
          obtain ⟨same, _, _⟩ := reindex_fields { log with events := log.events ++ [raw] } host raw
          have longer : log.events.length ≤
              (({ log with events := log.events ++ [raw] } : RawLog).reindex host
                raw).log.events.length := by
            rw [same, List.length_append]
            exact Nat.le_add_right _ _
          dsimp only
          split
          · exact longer
          · exact Nat.le_trans longer (ih _ _)

theorem loadEvents_stored {index : Nat} {event : StoredEvent} {raw : RawEvent}
    (reads : restored host index event = some raw) (rest : List StoredEvent) (log : RawLog) :
    log.events.length < (log.loadEvents host index (event :: rest)).log.events.length := by
  obtain ⟨same, _, _⟩ := reindex_fields { log with events := log.events ++ [raw] } host raw
  have longer : log.events.length <
      (({ log with events := log.events ++ [raw] } : RawLog).reindex host
        raw).log.events.length := by
    rw [same, List.length_append]
    exact Nat.lt_succ_self _
  rw [loadEvents, reads]
  dsimp only
  split
  · exact longer
  · exact Nat.lt_of_lt_of_le longer (loadEvents_length host rest _ _)

theorem loadEvents_unloadable {events : List StoredEvent} {index : Nat}
    (unloadable : ¬ Loadable host index events) (log : RawLog) :
    (log.loadEvents host index events).raised = true ∧
      (log.loadEvents host index events).log.nextSeq = log.nextSeq := by
  induction events generalizing index log with
  | nil => exact absurd trivial unloadable
  | cons event rest ih =>
      rw [loadEvents]
      cases reads : restored host index event with
      | none => exact ⟨rfl, rfl⟩
      | some raw =>
          have stays := reindex_raised { log with events := log.events ++ [raw] } host raw
          obtain ⟨_, number, _⟩ :=
            reindex_fields { log with events := log.events ++ [raw] } host raw
          dsimp only
          by_cases fits : indexable host raw = true
          · rw [fits] at stays
            rw [stays, if_neg (by decide)]
            have later : ¬ Loadable host (index + 1) rest := fun later =>
              unloadable ⟨⟨raw, reads, fits⟩, later⟩
            obtain ⟨raised, kept⟩ := ih later
              (({ log with events := log.events ++ [raw] } : RawLog).reindex host raw).log
            exact ⟨raised, kept.trans number⟩
          · rw [eq_false_of_ne_true fits] at stays
            rw [stays]
            exact ⟨stays, number⟩

/-- Nothing was ever in the log. -/
structure Blank (log : RawLog) : Prop where
  events : log.events = []
  nextSeq : log.nextSeq = 0
  userRequests : log.userRequests = .empty
  fingerprints : log.fingerprints = .empty
  turnOutcomes : log.turnOutcomes = .empty

theorem SameFields.refl : log.SameFields log := ⟨rfl, rfl, rfl, rfl, rfl⟩

theorem load_refused {host : PyHost} {event : StoredEvent} {rest : List StoredEvent}
    (refused : restored host 0 event = none) :
    log.load host (event :: rest) =
      RawLog.raise { start log.sessionId 0 with appending := log.appending } := by
  unfold load
  dsimp only
  rw [loadEvents, refused]
  rfl

end RawLog

/-! ### Steps -/

open RawLog

/-- A user message that names a request has a content that can be encoded, and a list that is
loaded can be read throughout; a load that fails at the first event of its list does no harm to a
blank log. -/
def Indexes (host : PyHost) (run : LogRun) : LogAction → Prop
  | .call (.append name data _ _) => ¬ StoresUnindexable host run.log name data
  | .call (.appendUserMessage requestId content metadata messageId generated _) =>
      (requestId ≠ [] ∧ run.log.userRequests.contains requestId = true) ∨
        run.log.userMessageId requestId messageId generated = none ∨
        ¬ StoresUnindexable host run.log (pyText "user/message")
          (userMessageData requestId content metadata)
  | .call (.load events) =>
      Loadable host 0 events ∨
        Blank run.log ∧ ∀ event, events.head? = some event → restored host 0 event = none
  | .call (.reset _) => True
  | .published => True

structure LogInvariant (run : LogRun) : Prop where
  numbered : Numbered (run.log.nextSeq - run.log.events.length) run.log.events
  within : run.log.events.length ≤ run.log.nextSeq
  once : run.sent.Nodup
  known : ∀ requestId ∈ run.sent, run.log.userRequests.contains requestId = true
  unchanged : ∀ before, run.raisedFrom = some before → run.log.SameFields before

theorem represents_of_invariant (invariant : LogInvariant run) : Represents run where
  numbered := by
    have base : run.log.seq - run.log.events.length + 1 =
        run.log.nextSeq - run.log.events.length := by
      unfold RawLog.seq
      omega
    rw [base]
    exact invariant.numbered
  pages := fun _ _ positive within => tail_of_numbered invariant.numbered positive within
  once := invariant.once
  unchanged := invariant.unchanged

private theorem invariant_same (invariant : LogInvariant run) {log : RawLog}
    (same : log.SameFields run.log) {raisedFrom : Option RawLog}
    (from' : ∀ before, raisedFrom = some before → before = run.log) :
    LogInvariant ⟨log, run.sent, raisedFrom⟩ where
  numbered := by
    dsimp only
    rw [same.1, same.2.1]
    exact invariant.numbered
  within := by
    dsimp only
    rw [same.1, same.2.1]
    exact invariant.within
  once := invariant.once
  known := by
    dsimp only
    rw [same.2.2.1]
    exact invariant.known
  unchanged := by
    intro before raised
    rw [from' before raised]
    exact same

private theorem invariant_raise (invariant : LogInvariant run) :
    LogInvariant ⟨run.log, run.sent, some run.log⟩ :=
  invariant_same invariant (SameFields.refl _) fun _ same => (Option.some.inj same).symm

private theorem invariant_grown (invariant : LogInvariant run) {log : RawLog} {event : RawEvent}
    (grown : Grown run.log log event) (next : event.seq = run.log.nextSeq) {sent : List PyString}
    (once : sent.Nodup) (known : ∀ requestId ∈ sent, log.userRequests.contains requestId = true) :
    LogInvariant ⟨log, sent, none⟩ where
  numbered := by
    have base : log.nextSeq - log.events.length = run.log.nextSeq - run.log.events.length := by
      rw [grown.nextSeq, grown.events, List.length_append, List.length_singleton]
      push_cast
      omega
    dsimp only
    rw [base, grown.events]
    apply numbered_append invariant.numbered
    rw [next]
    omega
  within := by
    have before := invariant.within
    dsimp only
    rw [grown.nextSeq, grown.events, List.length_append, List.length_singleton]
    push_cast
    omega
  once := once
  known := known
  unchanged := by
    intro before raised
    cases raised

private theorem invariant_fresh (sessionId : PyString) (startSeq : Int)
    (raisedFrom : Option RawLog) (none : raisedFrom = none) :
    LogInvariant ⟨.start sessionId startSeq, [], raisedFrom⟩ where
  numbered := trivial
  within := by
    change ((0 : Nat) : Int) ≤ max 0 startSeq
    omega
  once := List.nodup_nil
  known := fun _ present => absurd present List.not_mem_nil
  unchanged := by
    intro before raised
    rw [none] at raised
    cases raised

private theorem keeps_append (invariant : LogInvariant run) {name : PyString} {data : PyDict}
    (indexed : ¬ StoresUnindexable host run.log name data) (messageId : Option PyString)
    (time : Int) :
    LogInvariant
      { log := (run.log.append host name data messageId time).log
        sent := run.sent
        raisedFrom :=
          if (run.log.append host name data messageId time).raised then some run.log else none } := by
  rcases append_indexed indexed messageId time with refused |
    ⟨event, payload, next, _, _, stored, returned⟩
  · rw [refused]
    exact invariant_raise invariant
  · rw [stored, returned]
    obtain ⟨grown, _⟩ := commit_grown run.log host event payload
    exact invariant_grown invariant grown next invariant.once
      fun requestId present => grown.requests requestId (invariant.known requestId present)

private theorem keeps_appendUserMessage {host : PyHost} {run : LogRun}
    (invariant : LogInvariant run) {requestId : PyString} {content : List PyValue}
    {metadata : PyDict} {messageId : Option PyString} {generated : PyString} {time : Int}
    (indexed : Indexes host run
      (.call (.appendUserMessage requestId content metadata messageId generated time))) :
    LogInvariant
      { log := (run.log.appendUserMessage host requestId content metadata messageId generated
          time).log
        sent := LogRun.sentAfter run.sent
          (run.log.appendUserMessage host requestId content metadata messageId generated time)
          (.appendUserMessage requestId content metadata messageId generated time)
        raisedFrom :=
          if (run.log.appendUserMessage host requestId content metadata messageId generated
            time).raised then some run.log else none } := by
  by_cases bound : requestId ≠ [] ∧ run.log.userRequests.contains requestId = true
  · unfold RawLog.appendUserMessage
    rw [if_pos bound]
    cases run.log.checkUserRequest host requestId (.list content) with
    | true => exact invariant_same invariant (SameFields.refl _) fun _ wrong => by cases wrong
    | false => exact invariant_raise invariant
  · cases id : run.log.userMessageId requestId messageId generated with
    | none =>
        have called : run.log.appendUserMessage host requestId content metadata messageId generated
            time = run.log.raise := by
          unfold RawLog.appendUserMessage
          rw [if_neg bound, id]
        rw [called]
        exact invariant_raise invariant
    | some id' =>
        have called : run.log.appendUserMessage host requestId content metadata messageId generated
            time = run.log.append host (pyText "user/message")
              (userMessageData requestId content metadata) (some id') time := by
          unfold RawLog.appendUserMessage
          rw [if_neg bound, id]
        rw [called]
        have fits : ¬ StoresUnindexable host run.log (pyText "user/message")
            (userMessageData requestId content metadata) := by
          rcases indexed with wrong | wrong | fits
          · exact absurd wrong bound
          · rw [id] at wrong
            cases wrong
          · exact fits
        rcases append_indexed fits (some id') time with refused |
          ⟨event, payload, next, pure, known, stored, returned⟩
        · rw [refused]
          exact invariant_raise invariant
        · rw [stored, returned]
          obtain ⟨grown, appended⟩ := commit_grown run.log host event payload
          have earlier : ∀ other ∈ run.sent,
              (run.log.commit host event payload).log.userRequests.contains other = true :=
            fun other present => grown.requests other (invariant.known other present)
          unfold LogRun.sentAfter
          dsimp only
          by_cases named : requestId ≠ []
          · rw [if_pos ⟨appended, named⟩]
            have own := @userMessageData_request host _ _ _ _ pure
            have type : event.type = .userMessage := by
              have user : eventType? (pyText "user/message") = some .userMessage := by decide
              rw [user] at known
              exact (Option.some.inj known).symm
            have found := commit_bound run.log host type (by rw [own]; exact named)
            rw [own] at found
            refine invariant_grown invariant grown next (List.nodup_cons.mpr ⟨?_, invariant.once⟩) ?_
            · intro again
              exact bound ⟨named, invariant.known requestId again⟩
            · intro other present
              rcases List.mem_cons.mp present with same | old
              · rw [same]
                exact found
              · exact earlier other old
          · rw [if_neg fun wrong => named wrong.2]
            exact invariant_grown invariant grown next invariant.once earlier

private theorem keeps_load (invariant : LogInvariant run) {events : List StoredEvent}
    (loads : Indexes host run (.call (.load events))) :
    LogInvariant
      { log := (run.log.load host events).log
        sent := if (run.log.load host events).raised then run.sent else []
        raisedFrom := if (run.log.load host events).raised then some run.log else none } := by
  by_cases loadable : Loadable host 0 events
  · have cleared : Numbered 0
        ({ RawLog.start run.log.sessionId 0 with appending := run.log.appending } :
          RawLog).events := trivial
    obtain ⟨returned, numbered⟩ := loadEvents_loadable loadable cleared rfl
    have loaded : run.log.load host events =
        { ({ RawLog.start run.log.sessionId 0 with appending := run.log.appending } :
            RawLog).loadEvents host 0 events with
          log :=
            { (({ RawLog.start run.log.sessionId 0 with appending := run.log.appending } :
                RawLog).loadEvents host 0 events).log with
              nextSeq := (({ RawLog.start run.log.sessionId 0 with
                appending := run.log.appending } : RawLog).loadEvents host 0
                  events).log.events.length } } := by
      unfold RawLog.load
      dsimp only
      rw [returned, if_neg (by decide)]
    rw [loaded]
    dsimp only
    rw [returned]
    exact
      { numbered := by
          dsimp only
          rw [Int.sub_self]
          exact numbered
        within := Int.le_refl _
        once := List.nodup_nil
        known := fun _ present => absurd present List.not_mem_nil
        unchanged := fun _ wrong => by cases wrong }
  · obtain ⟨blank, refused⟩ := loads.resolve_left loadable
    cases events with
    | nil => exact absurd trivial loadable
    | cons event rest =>
        rw [load_refused run.log (refused event rfl)]
        refine invariant_same invariant ?_ fun _ same => (Option.some.inj same).symm
        exact ⟨blank.events.symm, blank.nextSeq.symm, blank.userRequests.symm,
          blank.fingerprints.symm, blank.turnOutcomes.symm⟩

theorem keeps_step {run next : LogRun} {action : LogAction} (invariant : LogInvariant run)
    (stepped : (logSystem host).step run action = some next) (indexes : Indexes host run action) :
    LogInvariant next := by
  cases action with
  | published =>
      obtain ⟨_, moved⟩ := Option.ite_none_right_eq_some.mp stepped
      cases moved
      have same : RawLog.SameFields { run.log with appending := false } run.log :=
        ⟨rfl, rfl, rfl, rfl, rfl⟩
      apply invariant_same invariant same
      intro before wrong
      cases wrong
  | call call =>
      cases stepped
      cases call with
      | append name data messageId time => exact keeps_append invariant indexes messageId time
      | appendUserMessage requestId content metadata messageId generated time =>
          exact keeps_appendUserMessage invariant indexes
      | reset startSeq =>
          change LogInvariant ⟨(run.log.reset startSeq).log,
            if (run.log.reset startSeq).raised then run.sent else [],
            if (run.log.reset startSeq).raised then some run.log else none⟩
          unfold RawLog.reset
          split
          · exact invariant_raise invariant
          · exact invariant_fresh _ _ _ rfl
      | load events => exact keeps_load invariant indexes

/-! ### Runs -/

private theorem needs_append {host : PyHost} {log : RawLog} {name : PyString} {data : PyDict}
    {messageId : Option PyString} {time : Int} {sent : List PyString}
    (represents : Represents
      { log := (log.append host name data messageId time).log
        sent := sent
        raisedFrom :=
          if (log.append host name data messageId time).raised then some log else none }) :
    ¬ StoresUnindexable host log name data := by
  intro unindexed
  obtain ⟨raised, longer⟩ := append_unindexed unindexed messageId time
  have same := (represents.unchanged log (by rw [raised]; rfl)).1
  dsimp only at same
  rw [same] at longer
  exact absurd longer (Nat.ne_of_lt (Nat.lt_succ_self _))

private theorem needs_load {host : PyHost} {run : LogRun} {events : List StoredEvent}
    (invariant : LogInvariant run)
    (represents : Represents
      { log := (run.log.load host events).log
        sent := if (run.log.load host events).raised then run.sent else []
        raisedFrom := if (run.log.load host events).raised then some run.log else none }) :
    Indexes host run (.call (.load events)) := by
  by_cases loadable : Loadable host 0 events
  · exact Or.inl loadable
  · refine Or.inr ?_
    obtain ⟨raised, number⟩ := loadEvents_unloadable loadable
      ({ RawLog.start run.log.sessionId 0 with appending := run.log.appending } : RawLog)
    have loaded : run.log.load host events =
        ({ RawLog.start run.log.sessionId 0 with appending := run.log.appending } :
          RawLog).loadEvents host 0 events := by
      unfold RawLog.load
      dsimp only
      rw [raised, if_pos rfl]
    obtain ⟨sameEvents, sameNumber, sameRequests, sameFingerprints, sameOutcomes⟩ :=
      represents.unchanged run.log (by rw [loaded, raised]; rfl)
    dsimp only at sameEvents sameNumber sameRequests sameFingerprints sameOutcomes
    have zero : run.log.nextSeq = 0 := by
      rw [← sameNumber, loaded, number]
      rfl
    have empty : run.log.events = [] := by
      have within := invariant.within
      rw [zero] at within
      exact List.length_eq_zero_iff.mp (by omega)
    cases events with
    | nil => exact absurd trivial loadable
    | cons event rest =>
        have refused : restored host 0 event = none := by
          cases reads : restored host 0 event with
          | none => rfl
          | some raw =>
              have stored := loadEvents_stored reads rest
                ({ RawLog.start run.log.sessionId 0 with appending := run.log.appending } : RawLog)
              rw [← loaded, sameEvents, empty] at stored
              exact absurd stored (Nat.not_lt_zero _)
        rw [load_refused run.log refused] at sameRequests sameFingerprints sameOutcomes
        refine ⟨⟨empty, zero, sameRequests.symm, sameFingerprints.symm, sameOutcomes.symm⟩, ?_⟩
        intro first head
        cases head
        exact refused

theorem needs_step {run next : LogRun} {action : LogAction} (invariant : LogInvariant run)
    (stepped : (logSystem host).step run action = some next) (represents : Represents next) :
    Indexes host run action := by
  cases action with
  | published => trivial
  | call call =>
      cases stepped
      cases call with
      | append name data messageId time => exact needs_append represents
      | appendUserMessage requestId content metadata messageId generated time =>
          by_cases bound : requestId ≠ [] ∧ run.log.userRequests.contains requestId = true
          · exact Or.inl bound
          · cases id : run.log.userMessageId requestId messageId generated with
            | none => exact Or.inr (Or.inl id)
            | some id' =>
                refine Or.inr (Or.inr ?_)
                have called : LogRun.perform host run.log
                    (.appendUserMessage requestId content metadata messageId generated time) =
                    run.log.append host (pyText "user/message")
                      (userMessageData requestId content metadata) (some id') time := by
                  unfold LogRun.perform RawLog.appendUserMessage
                  dsimp only
                  rw [if_neg bound, id]
                rw [called] at represents
                exact needs_append represents
      | reset startSeq => trivial
      | load events => exact needs_load invariant represents

def silentHost : PyHost := ⟨fun _ => none, fun _ => [], fun _ => none⟩

def failedReload : List LogAction :=
  [.call (.append (pyText "turn/start") [] none 0), .published,
    .call (.load [⟨.none, .int 0, .int 0, none, .none⟩])]

end Ftre.Session
