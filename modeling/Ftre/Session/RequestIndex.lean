import Ftre.Session.Service

/-!
The request index seen from one request. The record of a request is a fold of
its own over the events and the messages that name it; other requests do not
touch it.
-/

namespace Ftre.Session

open Lib Message

/-! ### One request's record -/

/-- What an event does to the record of `requestId`. -/
def eventRecord (requestId : String) (record : Option RequestRecord) (event : Event) :
    Option RequestRecord :=
  if event.data.requestId = requestId then
    match event.data with
    | .userMessage content _ _ =>
        some (record.getD ⟨some (event.messageId.getD ""), some "", some .pending,
          some (requestFingerprint content)⟩)
    | .turnStart data =>
        some { record.getD .blank with runId := some data.turnId, status := some .running }
    | .turnEnd data =>
        let status := if data.outcome = "completed" then .completed else .failed
        some { record.getD .blank with status := some status }
    | _ => record
  else record

/-- What a message does to the record of `requestId`. -/
def messageRecord (requestId : String) (record : Option RequestRecord) (message : Msg) :
    Option RequestRecord :=
  if requestOf message = requestId then
    let known := record.getD ⟨some message.id, some "", some .pending, none⟩
    some { known with
      messageId := some (known.messageId.getD message.id)
      fingerprint := some (known.fingerprint.getD (dumpFingerprint message)) }
  else record

variable {requestId : String}

theorem find?_indexEvent (named : requestId ≠ "") (index : RequestIndex) (event : Event) :
    (indexEvent index event).find? requestId =
      eventRecord requestId (index.find? requestId) event := by
  unfold indexEvent eventRecord
  by_cases same : event.data.requestId = requestId
  · rw [if_pos same]
    cases data : event.data with
    | userMessage content metadata bound =>
        have bound_eq : bound = requestId := by rw [data] at same; exact same
        subst bound
        dsimp only
        rw [if_neg named, KeyedTable.find?_setDefault, if_pos rfl]
    | turnStart turn =>
        have bound_eq : turn.requestId = requestId := by rw [data] at same; exact same
        dsimp only
        rw [if_neg (by rw [bound_eq]; exact named), KeyedTable.find?_set, if_pos bound_eq, bound_eq]
    | turnEnd turn =>
        have bound_eq : turn.requestId = requestId := by rw [data] at same; exact same
        dsimp only
        rw [if_neg (by rw [bound_eq]; exact named), KeyedTable.find?_set, if_pos bound_eq, bound_eq]
    | _ => rfl
  · rw [if_neg same]
    cases data : event.data with
    | userMessage content metadata bound =>
        have other : ¬ bound = requestId := by rw [data] at same; exact same
        dsimp only
        split
        · rfl
        · rw [KeyedTable.find?_setDefault, if_neg other]
    | turnStart turn =>
        have other : ¬ turn.requestId = requestId := by rw [data] at same; exact same
        dsimp only
        split
        · rfl
        · rw [KeyedTable.find?_set, if_neg other]
    | turnEnd turn =>
        have other : ¬ turn.requestId = requestId := by rw [data] at same; exact same
        dsimp only
        split
        · rfl
        · rw [KeyedTable.find?_set, if_neg other]
    | _ => rfl

theorem find?_requestIndexFromEvents {requestId : String} (named : requestId ≠ "")
    (events : List Event) :
    (requestIndexFromEvents events).find? requestId = events.foldl (eventRecord requestId) none := by
  have folded : ∀ index : RequestIndex, (events.foldl indexEvent index).find? requestId =
      events.foldl (eventRecord requestId) (index.find? requestId) := by
    induction events with
    | nil => intro index; rfl
    | cons event rest ih =>
        intro index
        rw [List.foldl_cons, List.foldl_cons, ih, find?_indexEvent named]
  exact folded .empty

theorem find?_indexMessage (named : requestId ≠ "") (index : RequestIndex) (message : Msg) :
    (indexMessage index message).find? requestId =
      messageRecord requestId (index.find? requestId) message := by
  unfold indexMessage messageRecord
  by_cases same : requestOf message = requestId
  · rw [if_neg (by rw [same]; exact named), if_pos same, KeyedTable.find?_set, if_pos same, same]
  · rw [if_neg same]
    split
    · rfl
    · rw [KeyedTable.find?_set, if_neg same]

namespace Checkpoint

theorem find?_requests {requestId : String} (named : requestId ≠ "") (checkpoint : Checkpoint) :
    checkpoint.requests.find? requestId =
      checkpoint.messages.items.foldl (messageRecord requestId)
        (checkpoint.events.foldl (eventRecord requestId) none) := by
  have folded : ∀ (messages : List Msg) (index : RequestIndex),
      (messages.foldl indexMessage index).find? requestId =
        messages.foldl (messageRecord requestId) (index.find? requestId) := by
    intro messages
    induction messages with
    | nil => intro index; rfl
    | cons message rest ih =>
        intro index
        rw [List.foldl_cons, List.foldl_cons, ih, find?_indexMessage named]
  unfold requests
  rw [folded, find?_requestIndexFromEvents named]

theorem find?_commit (checkpoint : Checkpoint) (stored : SessionMeta) (requestId : String) :
    (checkpoint.commit stored).requests.find? requestId =
      if stored.seq > checkpoint.seq then stored.requests.find? requestId
      else (checkpoint.requests.find? requestId).or (stored.requests.find? requestId) := by
  unfold commit
  split
  · rfl
  · exact KeyedTable.find?_update ..

def firstEvent (checkpoint : Checkpoint) (requestId : String) : Option Event :=
  checkpoint.events.find? fun event => decide (event.data.requestId = requestId)

def firstMessage (checkpoint : Checkpoint) (requestId : String) : Option Msg :=
  checkpoint.messages.items.find? fun message => decide (requestOf message = requestId)

end Checkpoint

/-! ### The fingerprint of a record -/

def boundFingerprint (event : Event) : Option String :=
  match event.data with
  | .userMessage content _ _ => some (requestFingerprint content)
  | _ => none

private theorem eventRecord_fingerprint (requestId : String) (record : RequestRecord)
    (event : Event) :
    (eventRecord requestId (some record) event).map RequestRecord.fingerprint =
      some record.fingerprint := by
  unfold eventRecord
  split
  · split <;> rfl
  · rfl

private theorem eventRecord_first (named : requestId ≠ "") {event : Event}
    (same : event.data.requestId = requestId) :
    ∃ record, eventRecord requestId none event = some record ∧
      record.fingerprint = boundFingerprint event := by
  unfold eventRecord boundFingerprint
  rw [if_pos same]
  cases data : event.data with
  | userMessage content metadata bound => exact ⟨_, rfl, rfl⟩
  | turnStart turn => exact ⟨_, rfl, rfl⟩
  | turnEnd turn => exact ⟨_, rfl, rfl⟩
  | _ =>
      rw [data] at same
      exact absurd same.symm named

theorem foldl_eventRecord_fingerprint (named : requestId ≠ "") (events : List Event) :
    (events.foldl (eventRecord requestId) none).map RequestRecord.fingerprint =
      (events.find? fun event => decide (event.data.requestId = requestId)).map
        boundFingerprint := by
  have kept : ∀ (rest : List Event) (record : RequestRecord),
      (rest.foldl (eventRecord requestId) (some record)).map RequestRecord.fingerprint =
        some record.fingerprint := by
    intro rest
    induction rest with
    | nil => intro record; rfl
    | cons event rest ih =>
        intro record
        have step := eventRecord_fingerprint requestId record event
        obtain ⟨next, found, same⟩ := Option.map_eq_some_iff.mp step
        rw [List.foldl_cons, found, ih, same]
  induction events with
  | nil => rfl
  | cons event rest ih =>
      rw [List.foldl_cons, List.find?_cons]
      by_cases same : event.data.requestId = requestId
      · obtain ⟨record, created, fingerprint⟩ := eventRecord_first named same
        rw [created, kept]
        simp only [same, decide_true, Option.map_some, fingerprint]
      · have unnamed : eventRecord requestId none event = none := if_neg same
        rw [unnamed, ih]
        simp only [same, decide_false]

theorem foldl_messageRecord_fingerprint (requestId : String) (messages : List Msg)
    (record : Option RequestRecord) {fingerprint : String}
    (expected : match record.bind RequestRecord.fingerprint,
        messages.find? fun message => decide (requestOf message = requestId) with
      | some bound, _ => bound = fingerprint
      | none, some message => dumpFingerprint message = fingerprint
      | none, none => record = none) :
    ∀ final, messages.foldl (messageRecord requestId) record = some final →
      final.fingerprint = some fingerprint := by
  induction messages generalizing record with
  | nil =>
      intro final folded
      rw [List.foldl_nil] at folded
      subst record
      cases bound : final.fingerprint with
      | none =>
          rw [Option.bind_some, bound] at expected
          cases expected
      | some value =>
          rw [Option.bind_some, bound] at expected
          rw [show value = fingerprint from expected]
  | cons message rest ih =>
      intro final folded
      rw [List.foldl_cons] at folded
      refine ih (messageRecord requestId record message) ?_ final folded
      unfold messageRecord
      by_cases same : requestOf message = requestId
      · have first : (message :: rest).find? (fun message =>
            decide (requestOf message = requestId)) = some message :=
          List.find?_cons_of_pos (by simpa using same)
        rw [first] at expected
        rw [if_pos same]
        cases record with
        | none => exact expected
        | some known =>
            cases bound : known.fingerprint with
            | none =>
                rw [Option.bind_some, bound] at expected
                simp only [Option.getD_some, bound, Option.getD_none, Option.bind_some]
                exact expected
            | some value =>
                rw [Option.bind_some, bound] at expected
                simp only [Option.getD_some, bound, Option.bind_some]
                exact expected
      · have skipped : (message :: rest).find? (fun message =>
            decide (requestOf message = requestId)) =
            rest.find? fun message => decide (requestOf message = requestId) :=
          List.find?_cons_of_neg (by simpa using same)
        rw [skipped] at expected
        rw [if_neg same]
        exact expected

end Ftre.Session
