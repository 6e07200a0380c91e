import Ftre.Inbox.Delivery
import Ftre.Session.RequestIdempotence

/-!
The queue and the history agree.
-/

namespace Ftre.Inbox

open Lib Message Session Session.Multimodal

namespace Delivery

def userContentOf (requestId : String) (event : Event) : Option (List Json) :=
  match event.data with
  | .userMessage content _ request => if request = requestId then some content else none
  | _ => none

/-- What the history holds of the request since its last item was admitted. -/
def storedSince (delivery : Delivery) (requestId : String) : List (List Json) :=
  (delivery.events.drop (delivery.traces requestId).admittedAt).filterMap (userContentOf requestId)

/-- (a) A claimed item's stored message has the text it was claimed with; (b) a
removed item has no stored message; (c) a pending item's stored message has its
text, and recording the item again is not refused. -/
structure HistoryAgreement (delivery : Delivery) : Prop where
  claimed : ∀ requestId item, (delivery.traces requestId).fate = .claimed item →
    ∀ content ∈ delivery.storedSince requestId, content = userContent item
  removed : ∀ requestId, (delivery.traces requestId).fate = .removed →
    delivery.storedSince requestId = []
  pending : ∀ item ∈ delivery.inbox.pending,
    ∀ content ∈ delivery.storedSince item.requestId, content = userContent item
  accepted : ∀ item ∈ delivery.inbox.pending, delivery.storedSince item.requestId ≠ [] →
    ∀ previous time generated,
      (delivery.appendUser item previous time generated).1 ≠ .conflict

def recorded (delivery : Delivery) (requestId : String) : Bool :=
  delivery.service.load.hasPersistedRequest requestId ||
    (requestId != "" && delivery.service.liveSession.log.userRequests.contains requestId)

def UpToDate (delivery : Delivery) (candidate : QueueItem) : Prop :=
  (∀ item, delivery.inbox.find candidate.requestId = some item →
    item.content = candidate.content) ∧
  match (delivery.traces candidate.requestId).fate with
  | .removed => False
  | .claimed item => item.content = candidate.content
  | _ => True

/-- An item whose message is stored is neither edited to another text nor removed,
and a message is recorded only from an up-to-date snapshot. -/
def KeepsAgreement (delivery : Delivery) : Action → Prop
  | .edit requestId content _ => ∀ item, delivery.inbox.find requestId = some item →
      delivery.storedSince requestId ≠ [] → content = item.content
  | .remove requestId => ∀ item, delivery.inbox.find requestId = some item →
      delivery.storedSince requestId = []
  | .persist attempt _ _ => ∀ candidates item remaining historyIds previous,
      delivery.attempts attempt = .persisting candidates (item :: remaining) historyIds previous →
        item.source = .user → delivery.recorded item.requestId = false → delivery.UpToDate item
  | _ => True

/-! ### What is stored -/

structure Tracked (delivery : Delivery) : Prop where
  bounded : ∀ requestId, (delivery.traces requestId).admittedAt ≤ delivery.events.length
  claimed : ∀ requestId item, (delivery.traces requestId).fate = .claimed item →
    ∀ content ∈ delivery.storedSince requestId, content = userContent item
  removed : ∀ requestId, (delivery.traces requestId).fate = .removed →
    delivery.storedSince requestId = []
  pending : ∀ item ∈ delivery.inbox.pending,
    ∀ content ∈ delivery.storedSince item.requestId, content = userContent item
  bound : ∀ requestId ≠ "", ∀ content ∈ delivery.storedSince requestId,
    ServiceState.Bound requestId (requestFingerprint content) delivery.service

private theorem appendUser_unnamed (state : ServiceState) (time : Int) (generated : String)
    (content : List Json) (metadata : KeyedTable String Json) :
    (state.appendUserMessageIfAbsent time generated "" content metadata).1 ≠ .conflict := by
  unfold ServiceState.appendUserMessageIfAbsent ServiceState.validatePersistedRequest
    ServiceState.hasPersistedRequest SessionLog.appendUserMessage SessionLog.append
    SessionLog.allowed
  simp

namespace Tracked

variable {delivery : Delivery}

theorem agreement (tracked : Tracked delivery) : delivery.HistoryAgreement where
  claimed := tracked.claimed
  removed := tracked.removed
  pending := tracked.pending
  accepted := by
    intro item member stored previous time generated
    unfold appendUser
    by_cases named : item.requestId = ""
    · rw [named]
      exact appendUser_unnamed _ _ _ _ _
    · obtain ⟨content, present⟩ := List.exists_mem_of_ne_nil _ stored
      have bound := tracked.bound item.requestId named content present
      rw [tracked.pending item member content present] at bound
      rw [bound.appendUser named (requestFingerprint_ne_empty _), if_pos rfl]
      nofun

private theorem rearrange {after : Delivery} (tracked : Tracked delivery)
    (service : after.service = delivery.service)
    (bounded : ∀ requestId, (after.traces requestId).admittedAt ≤ delivery.events.length)
    (stored : ∀ requestId content, content ∈ after.storedSince requestId →
      content ∈ delivery.storedSince requestId)
    (claimed : ∀ requestId item, (after.traces requestId).fate = .claimed item →
      (delivery.traces requestId).fate = .claimed item ∨
        item ∈ delivery.inbox.pending ∧ item.requestId = requestId)
    (removed : ∀ requestId, (after.traces requestId).fate = .removed →
      (delivery.traces requestId).fate = .removed ∨ delivery.storedSince requestId = [])
    (pending : ∀ item ∈ after.inbox.pending, after.storedSince item.requestId = [] ∨
      ∃ original ∈ delivery.inbox.pending, original.requestId = item.requestId ∧
        original.content = item.content) : Tracked after := by
  constructor
  · intro requestId
    unfold events
    rw [service]
    exact bounded requestId
  · intro requestId item fate content member
    rcases claimed requestId item fate with before | ⟨present, same⟩
    · exact tracked.claimed requestId item before content (stored _ _ member)
    · rw [← same] at member
      exact tracked.pending item present content (stored _ _ member)
  · intro requestId fate
    have empty : delivery.storedSince requestId = [] := by
      rcases removed requestId fate with before | empty
      · exact tracked.removed requestId before
      · exact empty
    apply List.eq_nil_iff_forall_not_mem.mpr
    intro content member
    have old := stored requestId content member
    rw [empty] at old
    cases old
  · intro item member content present
    rcases pending item member with empty | ⟨original, originalMember, sameId, sameContent⟩
    · rw [empty] at present
      cases present
    · have old := stored _ _ present
      rw [← sameId] at old
      have same := tracked.pending original originalMember content old
      unfold userContent at same ⊢
      rw [same, sameContent]
  · intro requestId named content present
    rw [service]
    exact tracked.bound requestId named content (stored _ _ present)

private theorem frame {after : Delivery} (tracked : Tracked delivery)
    (service : after.service = delivery.service) (traces : after.traces = delivery.traces)
    (pending : ∀ item ∈ after.inbox.pending, after.storedSince item.requestId = [] ∨
      ∃ original ∈ delivery.inbox.pending, original.requestId = item.requestId ∧
        original.content = item.content) : Tracked after := by
  apply tracked.rearrange service
  · intro requestId
    rw [traces]
    exact tracked.bounded requestId
  · intro requestId content member
    unfold storedSince events at member
    rw [service, traces] at member
    exact member
  · intro requestId item fate
    rw [traces] at fate
    exact Or.inl fate
  · intro requestId fate
    rw [traces] at fate
    exact Or.inl fate
  · exact pending

private theorem setAttempt (tracked : Tracked delivery) (attempt : Nat) (state : Attempt) :
    Tracked (delivery.setAttempt attempt state) :=
  tracked.frame rfl rfl fun item member => Or.inr ⟨item, member, rfl, rfl⟩

private theorem extend {after : Delivery} (tracked : Tracked delivery) (extra : List Event)
    (events : after.events = delivery.events ++ extra) (traces : after.traces = delivery.traces)
    (inbox : after.inbox = delivery.inbox)
    (kept : ∀ requestId fingerprint, requestId ≠ "" →
      ServiceState.Bound requestId fingerprint delivery.service →
        ServiceState.Bound requestId fingerprint after.service)
    (fits : ∀ requestId, ∀ content ∈ extra.filterMap (userContentOf requestId),
      (∀ item, (delivery.traces requestId).fate = .claimed item → content = userContent item) ∧
      (delivery.traces requestId).fate ≠ .removed ∧
      (∀ item ∈ delivery.inbox.pending, item.requestId = requestId → content = userContent item) ∧
      (requestId ≠ "" → ServiceState.Bound requestId (requestFingerprint content) after.service)) :
    Tracked after := by
  have stored : ∀ requestId, after.storedSince requestId =
      delivery.storedSince requestId ++ extra.filterMap (userContentOf requestId) := by
    intro requestId
    unfold storedSince
    rw [events, traces, List.drop_append_of_le_length (tracked.bounded requestId),
      List.filterMap_append]
  have cases : ∀ requestId content, content ∈ after.storedSince requestId →
      content ∈ delivery.storedSince requestId ∨
        content ∈ extra.filterMap (userContentOf requestId) := by
    intro requestId content member
    rw [stored] at member
    exact List.mem_append.mp member
  constructor
  · intro requestId
    rw [events, traces, List.length_append]
    have before := tracked.bounded requestId
    omega
  · intro requestId item fate content member
    rw [traces] at fate
    rcases cases requestId content member with old | new
    · exact tracked.claimed requestId item fate content old
    · exact (fits requestId content new).1 item fate
  · intro requestId fate
    rw [traces] at fate
    apply List.eq_nil_iff_forall_not_mem.mpr
    intro content member
    rcases cases requestId content member with old | new
    · rw [tracked.removed requestId fate] at old
      cases old
    · exact (fits requestId content new).2.1 fate
  · intro item pending content member
    rw [inbox] at pending
    rcases cases item.requestId content member with old | new
    · exact tracked.pending item pending content old
    · exact (fits item.requestId content new).2.2.1 item pending rfl
  · intro requestId named content member
    rcases cases requestId content member with old | new
    · exact kept requestId _ named (tracked.bound requestId named content old)
    · exact (fits requestId content new).2.2.2 named

/-! ### Steps on the queue -/

private theorem followup (tracked : Tracked delivery) (submission : Submission)
    (target : QueueTarget) (sessionExists requestSeen : Bool) :
    Tracked (delivery.followup submission target sessionExists requestSeen) := by
  unfold Delivery.followup
  rcases delivery.inbox.admit_cases delivery.capacity submission target sessionExists requestSeen
    with ⟨refused, same⟩ | ⟨created, _, pending⟩
  · dsimp only
    rw [if_neg refused, same]
    exact tracked
  dsimp only
  rw [if_pos created]
  generalize delivery.inbox.admitItem delivery.capacity submission target sessionExists
    requestSeen = admitted at pending
  generalize after_eq : ({ delivery with
    inbox := admitted.2
    traces := Function.update delivery.traces submission.item.requestId
      ⟨delivery.events.length, .open⟩ } : Delivery) = after
  -- The new item's messages start at the end of the log; the other items keep their traces.
  have own : after.traces submission.item.requestId = ⟨delivery.events.length, .open⟩ := by
    rw [← after_eq]
    exact Function.update_self _ _ _
  have others : ∀ requestId, requestId ≠ submission.item.requestId →
      after.traces requestId = delivery.traces requestId := by
    intro requestId different
    rw [← after_eq]
    exact Function.update_of_ne different _ _
  have service : after.service = delivery.service := by
    rw [← after_eq]
  have empty : after.storedSince submission.item.requestId = [] := by
    unfold storedSince events
    rw [own, service]
    dsimp only [events]
    rw [List.drop_length]
    rfl
  have stored : ∀ requestId, requestId ≠ submission.item.requestId →
      after.storedSince requestId = delivery.storedSince requestId := by
    intro requestId different
    unfold storedSince events
    rw [others requestId different, service]
  apply tracked.rearrange service
  · intro requestId
    by_cases same : requestId = submission.item.requestId
    · rw [same, own]
    · rw [others requestId same]
      exact tracked.bounded requestId
  · intro requestId content member
    by_cases same : requestId = submission.item.requestId
    · rw [same, empty] at member
      cases member
    · rw [stored requestId same] at member
      exact member
  · intro requestId item fate
    by_cases same : requestId = submission.item.requestId
    · rw [same, own] at fate
      cases fate
    · rw [others requestId same] at fate
      exact Or.inl fate
  · intro requestId fate
    by_cases same : requestId = submission.item.requestId
    · rw [same, own] at fate
      cases fate
    · rw [others requestId same] at fate
      exact Or.inl fate
  · intro item member
    rw [← after_eq] at member
    rcases pending item member with old | ⟨sequence, rfl⟩
    · exact Or.inr ⟨item, old, rfl, rfl⟩
    · exact Or.inl empty

private theorem edit (tracked : Tracked delivery) {requestId content : String}
    {attachments : List Json}
    (keeps : ∀ item, delivery.inbox.find requestId = some item →
      delivery.storedSince requestId ≠ [] → content = item.content) :
    Tracked (delivery.edit requestId content attachments) := by
  apply frame tracked
  · rfl
  · rfl
  intro other member
  rcases delivery.inbox.edit_cases requestId content attachments with
    ⟨_, same⟩ | ⟨item, found, _, pending⟩
  · change other ∈ (delivery.inbox.edit requestId content attachments).2.pending at member
    rw [same] at member
    exact Or.inr ⟨other, member, rfl, rfl⟩
  · obtain ⟨present, sameId⟩ := SessionInbox.find_mem found
    rcases pending other member with edited | ⟨old, _⟩
    · rw [edited]
      change delivery.storedSince item.requestId = [] ∨ _
      by_cases empty : delivery.storedSince item.requestId = []
      · exact Or.inl empty
      · rw [sameId] at empty
        exact Or.inr ⟨item, present, rfl, (keeps item found empty).symm⟩
    · exact Or.inr ⟨other, old, rfl, rfl⟩

private theorem leave (tracked : Tracked delivery) {inbox : SessionInbox} (requestId : String)
    (fate : Fate) (unclaimed : ∀ item, fate ≠ .claimed item)
    (removed : fate = .removed → delivery.storedSince requestId = [])
    (pending : ∀ item ∈ inbox.pending, item ∈ delivery.inbox.pending) :
    Tracked ({ delivery with inbox := inbox }.setFate requestId fate) := by
  have own : (Function.update delivery.traces requestId
      { delivery.traces requestId with fate := fate }) requestId =
      { delivery.traces requestId with fate := fate } := Function.update_self _ _ _
  have admittedAt : ∀ other, ((Function.update delivery.traces requestId
      { delivery.traces requestId with fate := fate }) other).admittedAt =
      (delivery.traces other).admittedAt := by
    intro other
    by_cases same : other = requestId
    · rw [same, own]
    · rw [Function.update_of_ne same]
  have stored : ∀ other, ({ delivery with inbox := inbox }.setFate requestId fate).storedSince
      other = delivery.storedSince other := by
    intro other
    unfold storedSince
    change (delivery.events.drop ((Function.update delivery.traces requestId _) other).admittedAt
      ).filterMap _ = _
    rw [admittedAt]
  apply rearrange tracked
  · rfl
  · intro other
    change ((Function.update delivery.traces requestId _) other).admittedAt ≤ _
    rw [admittedAt]
    exact tracked.bounded other
  · intro other content member
    rw [stored] at member
    exact member
  · intro other item now
    change ((Function.update delivery.traces requestId _) other).fate = _ at now
    by_cases same : other = requestId
    · rw [same, own] at now
      exact absurd now (unclaimed item)
    · rw [Function.update_of_ne same] at now
      exact Or.inl now
  · intro other now
    change ((Function.update delivery.traces requestId _) other).fate = _ at now
    by_cases same : other = requestId
    · rw [same, own] at now
      rw [same]
      exact Or.inr (removed now)
    · rw [Function.update_of_ne same] at now
      exact Or.inl now
  · intro item member
    exact Or.inr ⟨item, pending item member, rfl, rfl⟩

private theorem remove (tracked : Tracked delivery) {requestId : String}
    (keeps : ∀ item, delivery.inbox.find requestId = some item →
      delivery.storedSince requestId = []) : Tracked (delivery.remove requestId) := by
  unfold Delivery.remove
  rcases delivery.inbox.remove_cases requestId with ⟨_, same⟩ | ⟨item, found, acknowledged, pending⟩
  · rw [same]
    exact tracked
  · generalize delivery.inbox.remove requestId = outcome at acknowledged pending
    obtain ⟨gone, inbox⟩ := outcome
    dsimp only at acknowledged pending
    subst acknowledged
    apply tracked.leave requestId .removed nofun (fun _ => keeps item found)
    intro other member
    exact ((pending other).mp member).1

private theorem discard (tracked : Tracked delivery) (attempt : Nat) (item : QueueItem) :
    Tracked (delivery.discard attempt item) := by
  unfold Delivery.discard
  rcases delivery.inbox.remove_cases item.requestId with
    ⟨_, same⟩ | ⟨found, _, acknowledged, pending⟩
  · rw [same]
    exact tracked.setAttempt attempt _
  · generalize delivery.inbox.remove item.requestId = outcome at acknowledged pending
    obtain ⟨gone, inbox⟩ := outcome
    dsimp only at acknowledged pending
    subst acknowledged
    apply setAttempt
    apply tracked.leave item.requestId .discarded nofun nofun
    intro other member
    exact ((pending other).mp member).1

private theorem claim (tracked : Tracked delivery) (attempt : Nat) (candidates : List QueueItem)
    (historyIds : List (String × String)) :
    Tracked (delivery.claim attempt candidates historyIds) := by
  unfold Delivery.claim
  generalize candidates.map QueueItem.requestId = requestIds
  have cases := delivery.inbox.claim_cases requestIds
  generalize delivery.inbox.claim requestIds = outcome at cases
  obtain ⟨claimed, inbox⟩ := outcome
  dsimp only at cases ⊢
  apply setAttempt
  have fromQueue : (∀ item ∈ claimed, item ∈ delivery.inbox.pending) ∧
      ∀ item ∈ inbox.pending, item ∈ delivery.inbox.pending := by
    rcases cases with none | ⟨_, taken, left⟩
    · cases none
      exact ⟨nofun, fun _ member => member⟩
    · exact ⟨fun item member => (taken item member).1, fun item member => ((left item).mp member).1⟩
  have settled : ∀ requestId, (delivery.claimedTraces claimed requestId).admittedAt =
        (delivery.traces requestId).admittedAt ∧
      ((delivery.claimedTraces claimed requestId).fate = (delivery.traces requestId).fate ∨
        ∃ item ∈ claimed, item.requestId = requestId ∧
          (delivery.claimedTraces claimed requestId).fate = .claimed item) := by
    intro requestId
    unfold claimedTraces
    cases found : claimed.find? fun item : QueueItem => item.requestId == requestId with
    | none => exact ⟨rfl, Or.inl rfl⟩
    | some item =>
        have same := List.find?_some found
        exact ⟨rfl, Or.inr ⟨item, List.mem_of_find?_eq_some found, eq_of_beq same, rfl⟩⟩
  apply rearrange tracked
  · rfl
  · intro requestId
    change (delivery.claimedTraces claimed requestId).admittedAt ≤ _
    rw [(settled requestId).1]
    exact tracked.bounded requestId
  · intro requestId content member
    change content ∈ (delivery.events.drop (delivery.claimedTraces claimed requestId).admittedAt
      ).filterMap _ at member
    rw [(settled requestId).1] at member
    exact member
  · intro requestId item fate
    change (delivery.claimedTraces claimed requestId).fate = _ at fate
    rcases (settled requestId).2 with same | ⟨taken, member, sameId, now⟩
    · rw [same] at fate
      exact Or.inl fate
    · rw [now] at fate
      cases fate
      exact Or.inr ⟨fromQueue.1 _ member, sameId⟩
  · intro requestId fate
    change (delivery.claimedTraces claimed requestId).fate = _ at fate
    rcases (settled requestId).2 with same | ⟨taken, member, sameId, now⟩
    · rw [same] at fate
      exact Or.inl fate
    · rw [now] at fate
      cases fate
  · intro item member
    exact Or.inr ⟨item, fromQueue.2 item member, rfl, rfl⟩

/-! ### Steps on the history -/

private theorem pushed_events (service : ServiceState) (event : Event) :
    (service.withLog (service.liveSession.log.push event)).liveSession.log.events =
      service.liveSession.log.events ++ [event] := by
  rw [ServiceState.liveSession_withLog]
  change (service.liveSession.log.push event).events = _
  unfold SessionLog.push
  split
  · split <;> rfl
  · split <;> rfl
  · rfl

private theorem record (tracked : Tracked delivery) (time : Int) {data : EventData}
    (messageId : Option String) (other : ∀ content metadata requestId,
      data ≠ .userMessage content metadata requestId) :
    Tracked { delivery with service := delivery.service.appendEvent time data messageId } := by
  have kept : ∀ requestId fingerprint, requestId ≠ "" →
      ServiceState.Bound requestId fingerprint delivery.service →
        ServiceState.Bound requestId fingerprint
          (delivery.service.appendEvent time data messageId) := by
    intro requestId fingerprint named bound
    exact bound.step named (rfl : ServiceState.keepsBinding _ _ _ (.append time data messageId) = _)
      rfl
  rcases ServiceState.appendEvent_cases delivery.service time data messageId with
    ⟨_, loaded⟩ | ⟨event, same, _, pushed⟩
  · apply extend tracked []
    · unfold events
      rw [loaded, ServiceState.liveSession_load, List.append_nil]
    · rfl
    · rfl
    · exact kept
    · nofun
  · apply extend tracked [event]
    · unfold events
      rw [pushed]
      exact pushed_events _ _
    · rfl
    · rfl
    · exact kept
    · intro requestId content member
      obtain ⟨added, addedMember, stored⟩ := List.mem_filterMap.mp member
      rw [List.mem_singleton.mp addedMember] at stored
      unfold userContentOf at stored
      rw [same] at stored
      split at stored
      · rename_i content metadata request
        exact absurd rfl (other content metadata request)
      · cases stored

private theorem not_recorded_of_appended {item : QueueItem} {previous : Option String}
    {time : Int} {generated : String} {event : Event} {service : ServiceState}
    (appended : delivery.appendUser item previous time generated = (.appended event, service)) :
    delivery.recorded item.requestId = false := by
  unfold appendUser at appended
  obtain ⟨missing, unknown, _⟩ := ServiceState.appendUser_appended appended
  unfold recorded
  rw [missing, Bool.false_or]
  apply Bool.eq_false_iff.mpr
  intro known
  rw [Bool.and_eq_true, bne_iff_ne] at known
  exact unknown known

private theorem appendUser (tracked : Tracked delivery) (previous : Option String)
    (item : QueueItem) (time : Int) (generated : String)
    (keeps : delivery.recorded item.requestId = false → delivery.UpToDate item) :
    Tracked { delivery with
      service := (delivery.appendUser item previous time generated).2 } := by
  have kept : ∀ requestId fingerprint, requestId ≠ "" →
      ServiceState.Bound requestId fingerprint delivery.service →
        ServiceState.Bound requestId fingerprint
          (delivery.appendUser item previous time generated).2 := by
    intro requestId fingerprint named bound
    exact bound.step named (rfl : ServiceState.keepsBinding _ _ _ (.appendUser time generated
      item.requestId (userContent item) (userMetadata item previous)) = _) rfl
  generalize called : delivery.appendUser item previous time generated = outcome at kept ⊢
  obtain ⟨result, service⟩ := outcome
  by_cases appended : ∃ event, result = .appended event
  · obtain ⟨event, appended⟩ := appended
    subst appended
    have current := keeps (not_recorded_of_appended called)
    unfold Delivery.appendUser at called
    obtain ⟨_, _, _, data, pushed⟩ := ServiceState.appendUser_appended called
    apply extend tracked [event]
    · unfold events
      rw [pushed]
      exact pushed_events _ _
    · rfl
    · rfl
    · exact kept
    · intro requestId content member
      obtain ⟨added, addedMember, stored⟩ := List.mem_filterMap.mp member
      rw [List.mem_singleton.mp addedMember] at stored
      unfold userContentOf at stored
      rw [data] at stored
      obtain ⟨same, contentIs⟩ := Option.ite_none_right_eq_some.mp stored
      have contentEq := Option.some.inj contentIs
      subst same contentEq
      obtain ⟨queued, settled⟩ := current
      refine ⟨?_, ?_, ?_, ?_⟩
      · intro claimed fate
        rw [fate] at settled
        unfold userContent
        rw [settled]
      · intro fate
        rw [fate] at settled
        exact settled
      · intro other pending sameId
        have found := SessionInbox.find_of_mem pending
        rw [sameId] at found
        unfold userContent
        rw [queued other found]
      · intro named
        exact ServiceState.bound_of_appended named called
  · unfold Delivery.appendUser at called
    apply extend tracked []
    · unfold events
      rcases ServiceState.appendUser_unchanged called (fun event same => appended ⟨event, same⟩)
        with same | loaded
      · rw [same, List.append_nil]
      · rw [loaded, ServiceState.liveSession_load, List.append_nil]
    · rfl
    · rfl
    · exact kept
    · nofun

private theorem persist (tracked : Tracked delivery) (attempt : Nat)
    (candidates remaining : List QueueItem) (historyIds : List (String × String))
    (previous : Option String) (item : QueueItem) (time : Int) (generated : String)
    (keeps : item.source = .user → delivery.recorded item.requestId = false →
      delivery.UpToDate item) :
    Tracked (delivery.persist attempt candidates remaining historyIds previous item time
      generated) := by
  unfold Delivery.persist
  by_cases user : item.source = .user
  · rw [if_neg (not_not.mpr user)]
    have recorded := tracked.appendUser previous item time generated (keeps user)
    generalize delivery.appendUser item previous time generated = outcome at recorded
    obtain ⟨result, service⟩ := outcome
    cases result <;> exact recorded.setAttempt attempt _
  · rw [if_pos user]
    exact tracked.setAttempt attempt _

theorem initial (capacity : Nat) (service : ServiceState) : Tracked (opened capacity service) := by
  have stored : ∀ requestId, (opened capacity service).storedSince requestId = [] := by
    intro requestId
    unfold storedSince
    change ((service.liveSession.log.events).drop service.liveSession.log.events.length
      ).filterMap _ = []
    rw [List.drop_length]
    rfl
  constructor
  · intro requestId
    exact le_rfl
  · nofun
  · nofun
  · nofun
  · intro requestId _ content member
    rw [stored] at member
    cases member

theorem step {action : Action} {next : Delivery} (tracked : Tracked delivery)
    (keeps : delivery.KeepsAgreement action) (stepped : system.step delivery action = some next) :
    Tracked next := by
  change delivery.step action = some next at stepped
  cases action with
  | followup submission target sessionExists requestSeen =>
      cases stepped
      exact tracked.followup submission target sessionExists requestSeen
  | edit requestId content attachments =>
      cases stepped
      exact tracked.edit keeps
  | remove requestId =>
      cases stepped
      exact tracked.remove keeps
  | promote requestId =>
      cases stepped
      apply frame tracked
      · rfl
      · rfl
      intro item member
      exact Or.inr (delivery.inbox.promote_pending requestId member)
  | begin attempt target =>
      dsimp only [Delivery.step] at stepped
      split at stepped
      next =>
        cases stepped
        unfold Delivery.begin
        split <;> exact tracked.setAttempt attempt _
      next => cases stepped
  | decide attempt decision =>
      dsimp only [Delivery.step] at stepped
      split at stepped
      next =>
        cases stepped
        unfold Delivery.decide
        split
        · exact tracked.setAttempt attempt _
        · exact tracked.setAttempt attempt _
        · split <;> exact tracked.setAttempt attempt _
      next => cases stepped
  | discard attempt =>
      dsimp only [Delivery.step] at stepped
      split at stepped
      next item _ =>
        cases stepped
        exact tracked.discard attempt item
      next => cases stepped
  | persist attempt time generated =>
      dsimp only [Delivery.step] at stepped
      split at stepped
      next candidates item remaining historyIds previous stands =>
        cases stepped
        apply tracked.persist
        exact keeps candidates item remaining historyIds previous stands
      next => cases stepped
  | claim attempt =>
      dsimp only [Delivery.step] at stepped
      split at stepped
      next candidates historyIds _ _ =>
        cases stepped
        exact tracked.claim attempt candidates historyIds
      next => cases stepped
  | claimRaises attempt =>
      dsimp only [Delivery.step] at stepped
      split at stepped
      next candidates _ _ _ =>
        cases stepped
        exact (tracked.claim attempt candidates []).setAttempt attempt (.ended [])
      next => cases stepped
  | stop attempt =>
      dsimp only [Delivery.step] at stepped
      split at stepped
      next => cases stepped
      next => cases stepped
      next =>
        cases stepped
        exact tracked.setAttempt attempt _
  | record time data messageId =>
      dsimp only [Delivery.step] at stepped
      split at stepped
      next => cases stepped
      next other =>
        cases stepped
        exact tracked.record time messageId other

end Tracked

/-- In every run whose steps meet the condition the queue and the history agree. -/
theorem historyAgreement_of_keepsAgreement (capacity : Nat) (service : ServiceState)
    {delivery : Delivery}
    (reached : system.Reaches KeepsAgreement (opened capacity service) delivery) :
    delivery.HistoryAgreement := by
  apply Tracked.agreement
  apply reached.invariant (Tracked.initial capacity service)
  intro before action after tracked keeps stepped
  exact tracked.step keeps stepped

private def greeting : Submission where
  item := ⟨"request-1", 0, "session-1", "web", "hello", [], .user, none, [], "default"⟩
  unnumbered := Int.le_refl 0

private def session : Delivery := opened 100 (.created "session-1")

private def recording : List Action :=
  [.followup greeting .nextTurn true false, .begin 0 .nextTurn, .decide 0 .enter, .persist 0 0 ""]

private def settled (actions : List Action) : Option (Fate × List (List Json)) :=
  (system.run session (recording ++ actions)).map fun final =>
    ((final.traces "request-1").fate, final.storedSince "request-1")

private def farewell : QueueItem := { greeting.item.edited "bye" [] with sequence := 1 }

private theorem settled_spec {actions : List Action} {fate : Fate} {stored : List (List Json)}
    (settles : settled actions = some (fate, stored)) :
    ∃ final, system.run session (recording ++ actions) = some final ∧
      (final.traces "request-1").fate = fate ∧ final.storedSince "request-1" = stored := by
  obtain ⟨final, ran, same⟩ := Option.map_eq_some_iff.mp settles
  cases same
  exact ⟨final, ran, rfl, rfl⟩

/-- Edited or removed after it was recorded, the item is claimed with another text or stays in the
history; edited after an attempt that did not claim it, it is refused from then on. -/
theorem edited_or_removed_after_recording :
    (∃ final, system.run session (recording ++ [.edit "request-1" "bye" [], .claim 0]) =
        some final ∧ (final.traces "request-1").fate = .claimed farewell ∧
      final.storedSince "request-1" = [userContent greeting.item] ∧ ¬ final.HistoryAgreement) ∧
    (∃ final, system.run session (recording ++ [.remove "request-1"]) = some final ∧
      (final.traces "request-1").fate = .removed ∧
      final.storedSince "request-1" = [userContent greeting.item] ∧ ¬ final.HistoryAgreement) ∧
    ((system.run session (recording ++ [.stop 0, .edit "request-1" "bye" []])).map fun final =>
      (final.inbox.find "request-1", (final.appendUser farewell none 1 "").1)) =
        some (some farewell, .conflict) := by
  refine ⟨?_, ?_, by decide⟩
  · have settles : settled [.edit "request-1" "bye" [], .claim 0] =
        some (.claimed farewell, [userContent greeting.item]) := by decide
    obtain ⟨final, ran, fate, stored⟩ := settled_spec settles
    refine ⟨final, ran, fate, stored, ?_⟩
    intro agreement
    have same := agreement.claimed "request-1" farewell fate (userContent greeting.item)
      (by rw [stored]; exact List.mem_singleton_self _)
    exact absurd same (by decide)
  · have settles : settled [.remove "request-1"] = some (.removed, [userContent greeting.item]) := by
      decide
    obtain ⟨final, ran, fate, stored⟩ := settled_spec settles
    refine ⟨final, ran, fate, stored, ?_⟩
    intro agreement
    have empty := agreement.removed "request-1" fate
    rw [stored] at empty
    cases empty

/-- Recorded and claimed with nothing in between. -/
theorem recorded_and_claimed_agrees :
    ∃ final, system.run session (recording ++ [.claim 0]) = some final ∧
      final.HistoryAgreement := by
  refine ⟨_, rfl, ?_⟩
  apply historyAgreement_of_keepsAgreement 100 (.created "session-1")
  refine .head (.followup greeting .nextTurn true false) trivial rfl ?_
  refine .head (.begin 0 .nextTurn) trivial rfl ?_
  refine .head (.decide 0 .enter) trivial rfl ?_
  refine .head (.persist 0 0 "") ?current rfl ?claiming
  case claiming =>
    refine .head (.claim 0) trivial rfl ?_
    exact Relation.ReflTransGen.refl
  case current =>
    intro candidates item remaining historyIds previous stands _ _
    cases stands
    refine ⟨?_, trivial⟩
    intro item found
    cases found
    rfl

end Delivery

end Ftre.Inbox
