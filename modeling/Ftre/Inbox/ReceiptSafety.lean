import Ftre.Inbox.Receipts

/-!
Waits are answered.
-/

namespace Ftre.Inbox

open Lib Message

namespace Delivery

def Queued (delivery : Delivery) (requestId : String) : Prop :=
  ∃ item ∈ delivery.inbox.pending, item.requestId = requestId

private theorem admit_keeps (inbox : SessionInbox) (capacity : Nat) (submission : Submission)
    (target : QueueTarget) (sessionExists requestSeen : Bool) {item : QueueItem}
    (member : item ∈ inbox.pending) :
    item ∈ (inbox.admitItem capacity submission target sessionExists requestSeen).2.pending := by
  unfold SessionInbox.admitItem
  split
  · exact member
  · split
    · exact member
    · split
      · exact member
      · split
        · exact member
        · change item ∈ (inbox.queues.enqueue submission.item target).pending
          unfold MutableInbox.enqueue
          rw [if_pos submission.unnumbered]
          rcases List.mem_append.mp member with turn | step
          · cases target with
            | nextTurn => exact List.mem_append_left _ (List.mem_append_left _ turn)
            | nextStep => exact List.mem_append_left _ turn
          · cases target with
            | nextTurn => exact List.mem_append_right _ step
            | nextStep => exact List.mem_append_right _ (List.mem_append_left _ step)

variable {delivery : Delivery} {requestId : String}

private theorem followup_keeps (queued : delivery.Queued requestId) (submission : Submission)
    (target : QueueTarget) (sessionExists requestSeen : Bool) :
    (delivery.followup submission target sessionExists requestSeen).Queued requestId := by
  obtain ⟨item, member, same⟩ := queued
  refine ⟨item, ?_, same⟩
  have kept := admit_keeps delivery.inbox delivery.capacity submission target sessionExists
    requestSeen member
  unfold followup
  dsimp only
  split <;> exact kept

private theorem edit_keeps (queued : delivery.Queued requestId) (edited content : String)
    (attachments : List Json) : (delivery.edit edited content attachments).Queued requestId := by
  obtain ⟨item, member, same⟩ := queued
  unfold edit SessionInbox.edit
  split
  · exact ⟨item, member, same⟩
  · have ids : (delivery.inbox.queues.edit edited content attachments).pending.map
        QueueItem.requestId = delivery.inbox.pending.map QueueItem.requestId := by
      rw [← MutableInbox.keys_ids, MutableInbox.keys_edit, MutableInbox.keys_ids]
      rfl
    have listed : requestId ∈ (delivery.inbox.queues.edit edited content attachments).pending.map
        QueueItem.requestId := by
      rw [ids]
      exact List.mem_map.mpr ⟨item, member, same⟩
    exact List.mem_map.mp listed

private theorem promote_keeps (queued : delivery.Queued requestId) (promoted : String) :
    (delivery.promote promoted).Queued requestId := by
  obtain ⟨item, member, same⟩ := queued
  unfold promote SessionInbox.promote
  split
  · exact ⟨item, member, same⟩
  · rename_i original found
    split
    · exact ⟨item, member, same⟩
    · by_cases chosen : item.requestId = original.requestId
      · exact ⟨original.promoted, MutableInbox.mem_pending_promote.mpr (Or.inr rfl),
          chosen.symm.trans same⟩
      · exact ⟨item, MutableInbox.mem_pending_promote.mpr
          (Or.inl (MutableInbox.mem_pending_without.mpr ⟨member, chosen⟩)), same⟩

inductive Leaves (delivery after : Delivery) (requestId : String) : Action → Prop where
  | removed : Leaves delivery after requestId (.remove requestId)
  | discarded (attempt : Nat) (item : QueueItem)
      (state : delivery.attempts attempt = .discarding item) (same : item.requestId = requestId) :
      Leaves delivery after requestId (.discard attempt)
  | claimed (attempt : Nat) (candidates : List QueueItem) (historyIds : List (String × String))
      (previous : Option String) (delivered : List QueueItem)
      (state : delivery.attempts attempt = .persisting candidates [] historyIds previous)
      (candidate : requestId ∈ candidates.map QueueItem.requestId)
      (ended : after.attempts attempt = .ended delivered)
      (listed : requestId ∈ delivered.map QueueItem.requestId) :
      Leaves delivery after requestId (.claim attempt)
  | lost (attempt : Nat) (candidates : List QueueItem) (historyIds : List (String × String))
      (previous : Option String)
      (state : delivery.attempts attempt = .persisting candidates [] historyIds previous)
      (candidate : requestId ∈ candidates.map QueueItem.requestId) :
      Leaves delivery after requestId (.claimRaises attempt)

private theorem remove_keeps {requestId removed : String} (queued : delivery.Queued requestId)
    (different : removed ≠ requestId) : (delivery.remove removed).Queued requestId := by
  obtain ⟨item, member, same⟩ := queued
  unfold remove
  rcases delivery.inbox.remove_cases removed with ⟨_, unchanged⟩ | ⟨_, _, found, pending⟩
  · rw [unchanged]
    exact ⟨item, member, same⟩
  · split
    · rename_i _ inbox removes
      rw [removes] at pending
      refine ⟨item, (pending item).mpr ⟨member, ?_⟩, same⟩
      rw [same]
      exact different.symm
    · exact ⟨item, member, same⟩

private theorem discard_keeps {item : QueueItem} (queued : delivery.Queued requestId)
    (attempt : Nat) (different : item.requestId ≠ requestId) :
    (delivery.discard attempt item).Queued requestId := by
  obtain ⟨kept, member, same⟩ := queued
  unfold discard
  rcases delivery.inbox.remove_cases item.requestId with ⟨_, unchanged⟩ | ⟨_, _, found, pending⟩
  · rw [unchanged]
    exact ⟨kept, member, same⟩
  · split
    · rename_i _ inbox removes
      rw [removes] at pending
      refine ⟨kept, (pending kept).mpr ⟨member, ?_⟩, same⟩
      rw [same]
      exact different.symm
    · exact ⟨kept, member, same⟩

private theorem decide_keeps (queued : delivery.Queued requestId) (attempt : Nat)
    (candidates : List QueueItem) (decision : Decision) :
    (delivery.decide attempt candidates decision).Queued requestId := by
  cases decision with
  | enter => exact queued
  | keep => exact queued
  | discard discarded =>
      unfold decide
      dsimp only
      split <;> exact queued

private theorem persist_keeps (queued : delivery.Queued requestId) (attempt : Nat)
    (candidates remaining : List QueueItem) (historyIds : List (String × String))
    (previous : Option String) (item : QueueItem) (time : Int) (generated : String) :
    (delivery.persist attempt candidates remaining historyIds previous item time
      generated).Queued requestId := by
  unfold persist
  split
  · exact queued
  · dsimp only
    split <;> exact queued

private theorem claim_keeps (queued : delivery.Queued requestId) (attempt : Nat)
    (candidates : List QueueItem) (historyIds : List (String × String)) :
    (delivery.claim attempt candidates historyIds).Queued requestId ∨
      requestId ∈ candidates.map QueueItem.requestId ∧
        ∃ delivered, (delivery.claim attempt candidates historyIds).attempts attempt =
            .ended delivered ∧
          requestId ∈ delivered.map QueueItem.requestId := by
  obtain ⟨item, member, same⟩ := queued
  rcases delivery.inbox.claim_cases (candidates.map QueueItem.requestId) with
    unchanged | ⟨complete, _, pending⟩
  · left
    unfold claim
    rw [unchanged]
    exact ⟨item, member, same⟩
  · by_cases candidate : requestId ∈ candidates.map QueueItem.requestId
    · right
      refine ⟨candidate, _, Function.update_self _ _ _, ?_⟩
      obtain ⟨taken, listed, taken_same⟩ := complete requestId candidate
      rw [List.map_map, List.mem_map]
      refine ⟨taken, listed, ?_⟩
      change (attachHistoryIds historyIds taken).requestId = requestId
      unfold attachHistoryIds
      split <;> exact taken_same
    · left
      refine ⟨item, (pending item).mpr ⟨member, ?_⟩, same⟩
      rw [same]
      exact candidate

theorem step_keeps {delivery after : Delivery} {action : Action}
    (stepped : delivery.step action = some after) (queued : delivery.Queued requestId) :
    after.Queued requestId ∨ delivery.Leaves after requestId action := by
  cases action with
  | followup submission target sessionExists requestSeen =>
      cases stepped
      exact Or.inl (followup_keeps queued submission target sessionExists requestSeen)
  | edit edited content attachments =>
      cases stepped
      exact Or.inl (edit_keeps queued edited content attachments)
  | promote promoted =>
      cases stepped
      exact Or.inl (promote_keeps queued promoted)
  | remove removed =>
      cases stepped
      by_cases same : removed = requestId
      · rw [same]
        exact Or.inr .removed
      · exact Or.inl (remove_keeps queued same)
  | begin attempt target =>
      dsimp only [step] at stepped
      split at stepped
      · cases stepped
        left
        unfold begin
        split <;> exact queued
      · cases stepped
  | decide attempt decision =>
      dsimp only [step] at stepped
      split at stepped
      · cases stepped
        exact Or.inl (decide_keeps queued attempt _ decision)
      · cases stepped
  | discard attempt =>
      dsimp only [step] at stepped
      split at stepped
      · rename_i item state
        cases stepped
        by_cases same : item.requestId = requestId
        · exact Or.inr (.discarded attempt item state same)
        · exact Or.inl (discard_keeps queued attempt same)
      · cases stepped
  | persist attempt time generated =>
      dsimp only [step] at stepped
      split at stepped
      · cases stepped
        exact Or.inl (persist_keeps queued attempt _ _ _ _ _ time generated)
      · cases stepped
  | claim attempt =>
      dsimp only [step] at stepped
      split at stepped
      · rename_i candidates historyIds previous state
        cases stepped
        rcases claim_keeps queued attempt candidates historyIds with kept | taken
        · exact Or.inl kept
        · obtain ⟨candidate, delivered, ended, listed⟩ := taken
          exact Or.inr (.claimed attempt candidates historyIds previous delivered state candidate
            ended listed)
      · cases stepped
  | claimRaises attempt =>
      dsimp only [step] at stepped
      split at stepped
      · rename_i candidates historyIds previous state
        cases stepped
        rcases claim_keeps queued attempt candidates [] with kept | ⟨candidate, _⟩
        · exact Or.inl kept
        · exact Or.inr (.lost attempt candidates historyIds previous state candidate)
      · cases stepped
  | stop attempt =>
      dsimp only [step] at stepped
      split at stepped
      · cases stepped
      · cases stepped
      · cases stepped
        exact Or.inl queued
  | record time data messageId =>
      dsimp only [step] at stepped
      split at stepped
      · cases stepped
      · cases stepped
        exact Or.inl queued

theorem step_ended {delivery after : Delivery} {action : Action} {attempt : Nat}
    {delivered : List QueueItem} (stepped : delivery.step action = some after)
    (ended : delivery.attempts attempt = .ended delivered) :
    after.attempts attempt = .ended delivered := by
  have moved : ∀ {other : Nat} {state : Attempt} {changed : Delivery},
      delivery.attempts other ≠ .ended delivered → changed.attempts = delivery.attempts →
        (changed.setAttempt other state).attempts attempt = .ended delivered := by
    intro other state changed open_attempt same
    unfold setAttempt
    dsimp only
    rw [same, Function.update_of_ne]
    · exact ended
    · rintro rfl
      exact open_attempt ended
  cases action with
  | followup submission target sessionExists requestSeen =>
      cases stepped
      unfold followup
      dsimp only
      split <;> exact ended
  | edit edited content attachments =>
      cases stepped
      exact ended
  | promote promoted =>
      cases stepped
      exact ended
  | remove removed =>
      cases stepped
      unfold remove
      split <;> exact ended
  | begin other target =>
      dsimp only [step] at stepped
      split at stepped
      · rename_i state
        cases stepped
        unfold begin
        split <;> exact moved (by rw [state]; nofun) rfl
      · cases stepped
  | decide other decision =>
      dsimp only [step] at stepped
      split at stepped
      · rename_i state
        cases stepped
        cases decision with
        | enter => exact moved (by rw [state]; nofun) rfl
        | keep => exact moved (by rw [state]; nofun) rfl
        | discard discarded =>
            unfold decide
            dsimp only
            split <;> exact moved (by rw [state]; nofun) rfl
      · cases stepped
  | discard other =>
      dsimp only [step] at stepped
      split at stepped
      · rename_i state
        cases stepped
        unfold discard
        split <;> exact moved (by rw [state]; nofun) rfl
      · cases stepped
  | persist other time generated =>
      dsimp only [step] at stepped
      split at stepped
      · rename_i state
        cases stepped
        unfold persist
        split
        · exact moved (by rw [state]; nofun) rfl
        · dsimp only
          split <;> exact moved (by rw [state]; nofun) rfl
      · cases stepped
  | claim other =>
      dsimp only [step] at stepped
      split at stepped
      · rename_i state
        cases stepped
        exact moved (by rw [state]; nofun) rfl
      · cases stepped
  | claimRaises other =>
      dsimp only [step] at stepped
      split at stepped
      · rename_i candidates _ _ state
        cases stepped
        have different : attempt ≠ other := by
          rintro rfl
          rw [state] at ended
          cases ended
        unfold claimRaises setAttempt
        dsimp only
        rw [Function.update_of_ne different]
        exact moved (by rw [state]; nofun) rfl
      · cases stepped
  | stop other =>
      dsimp only [step] at stepped
      split at stepped
      · cases stepped
      · cases stepped
      · rename_i _ unended
        cases stepped
        exact moved (unended delivered) rfl
  | record time data messageId =>
      dsimp only [step] at stepped
      split at stepped
      · cases stepped
      · cases stepped
        exact ended

end Delivery

namespace Desk

/-- The item of the request is in the queue, or with a run that resolves its receipt. -/
def Carried (desk : Desk) (requestId : String) : Prop :=
  desk.delivery.Queued requestId ∨ ∃ attempt, (desk.runs attempt).carries requestId

/-- (a) A wait on an accepted request is not refused, and gets the result of a turn
that executed it; (b) a pending wait is for an item that is still on its way. -/
structure Complete (desk : Desk) : Prop where
  answered : ∀ number requestId accepted, desk.waits number = .refused requestId accepted →
    accepted = false
  truthful : ∀ number requestId future result, desk.waits number = .waiting requestId future →
    desk.receipts.futures future = .result result → (requestId, result) ∈ desk.executed
  settled : ∀ number requestId future, desk.waits number = .waiting requestId future →
    desk.receipts.futures future = .pending → desk.Carried requestId

def Unwaited (desk : Desk) (requestId : String) : Prop :=
  ∀ number future, desk.waits number = .waiting requestId future →
    desk.receipts.futures future ≠ .pending

/-- A wait on an accepted request finds its receipt while the item is on its way; an
item that leaves without a run (by a claim whose write raises, too), or whose run is cut short, is
not waited for. -/
def AnswersWaits (desk : Desk) : Action → Prop
  | .wait _ requestId =>
      desk.accepted requestId = true →
        (desk.receipts.entries requestId).isSome ∧ desk.Carried requestId
  | .queue (.remove requestId) => desk.delivery.Queued requestId → desk.Unwaited requestId
  | .queue (.discard attempt) =>
      ∀ item, desk.delivery.attempts attempt = .discarding item →
        desk.delivery.Queued item.requestId → desk.Unwaited item.requestId
  | .queue (.claim attempt) =>
      desk.dispatches attempt = false → ∀ candidates historyIds previous,
        desk.delivery.attempts attempt = .persisting candidates [] historyIds previous →
          ∀ requestId ∈ candidates.map QueueItem.requestId,
            desk.delivery.Queued requestId → desk.Unwaited requestId
  | .queue (.claimRaises attempt) => ∀ candidates historyIds previous,
      desk.delivery.attempts attempt = .persisting candidates [] historyIds previous →
        ∀ requestId ∈ candidates.map QueueItem.requestId,
          desk.delivery.Queued requestId → desk.Unwaited requestId
  | .resolve attempt =>
      ∀ item outcome rest, desk.runs attempt = .reporting item outcome rest →
        stopsBatch outcome = true → ∀ other ∈ rest, desk.Unwaited other.requestId
  | .deliveryStops attempt =>
      ∀ item ∈ (desk.runs attempt).items, desk.Unwaited item.requestId
  | _ => True

/-! ### What every step keeps -/

structure Sound (desk : Desk) : Prop where
  linked : desk.receipts.Linked
  known : ∀ requestId future, desk.receipts.entries requestId = some future →
    desk.accepted requestId = true
  awaits : ∀ number requestId future, desk.waits number = .waiting requestId future →
    desk.receipts.Awaits requestId future
  ended : ∀ attempt, desk.runs attempt ≠ .absent →
    ∃ delivered, desk.delivery.attempts attempt = .ended delivered
  reported : ∀ attempt item outcome rest, desk.runs attempt = .reporting item outcome rest →
    outcome ≠ .pending ∧ ∀ result, outcome = .result result →
      (item.requestId, result) ∈ desk.executed
  complete : desk.Complete

theorem sound_opened (capacity : Nat) (service : Session.ServiceState) :
    (opened capacity service).Sound where
  linked := Promises.linked_empty
  known := nofun
  awaits := nofun
  ended _ started := absurd rfl started
  reported := nofun
  complete := ⟨nofun, nofun, nofun⟩

private theorem Sound.carry {desk after : Desk} (sound : desk.Sound)
    (receipts : after.receipts = desk.receipts) (waits : after.waits = desk.waits)
    (accepted : after.accepted = desk.accepted)
    (executed : desk.executed ⊆ after.executed)
    (ended : ∀ attempt, after.runs attempt ≠ .absent →
      ∃ delivered, after.delivery.attempts attempt = .ended delivered)
    (reported : ∀ attempt item outcome rest, after.runs attempt = .reporting item outcome rest →
      outcome ≠ .pending ∧ ∀ result, outcome = .result result →
        (item.requestId, result) ∈ after.executed)
    (carried : ∀ requestId, ¬ desk.Unwaited requestId → desk.Carried requestId →
      after.Carried requestId) : after.Sound where
  linked := by
    rw [receipts]
    exact sound.linked
  known := by
    rw [receipts, accepted]
    exact sound.known
  awaits := by
    rw [receipts, waits]
    exact sound.awaits
  ended := ended
  reported := reported
  complete := by
    constructor
    · rw [waits]
      exact sound.complete.answered
    · rw [waits, receipts]
      intro number requestId future result waiting resolved
      exact executed (sound.complete.truthful number requestId future result waiting resolved)
    · rw [waits, receipts]
      intro number requestId future waiting pending
      apply carried
      · intro unwaited
        exact unwaited number future waiting pending
      · exact sound.complete.settled number requestId future waiting pending

private theorem runs_setRun_self (desk : Desk) (attempt : Nat) (run : Run) :
    (desk.setRun attempt run).runs attempt = run :=
  Function.update_self _ _ _

private theorem runs_setRun_of_ne (desk : Desk) {attempt other : Nat} (run : Run)
    (different : other ≠ attempt) : (desk.setRun attempt run).runs other = desk.runs other :=
  Function.update_of_ne different _ _

variable {attempt : Nat} {requestId : String} {desk : Desk} {rest : List QueueItem}

private theorem carried_setRun {desk after : Desk} {run : Run}
    (delivery : after.delivery = desk.delivery) (runs : after.runs = (desk.setRun attempt run).runs)
    (kept : (desk.runs attempt).carries requestId → run.carries requestId)
    (carried : desk.Carried requestId) : after.Carried requestId := by
  unfold Carried
  rw [delivery, runs]
  rcases carried with queued | ⟨other, carries⟩
  · exact Or.inl queued
  · right
    by_cases same : other = attempt
    · subst same
      refine ⟨other, ?_⟩
      rw [runs_setRun_self]
      exact kept carries
    · refine ⟨other, ?_⟩
      rw [runs_setRun_of_ne desk run same]
      exact carries

private theorem ended_setRun (sound : desk.Sound) {run : Run}
    (started : desk.runs attempt ≠ .absent) (other : Nat)
    (present : (desk.setRun attempt run).runs other ≠ .absent) :
    ∃ delivered, desk.delivery.attempts other = .ended delivered := by
  by_cases same : other = attempt
  · rw [same]
    exact sound.ended attempt started
  · rw [runs_setRun_of_ne desk run same] at present
    exact sound.ended other present

private theorem Sound.followup (sound : desk.Sound) (call : Nat) (submission : Submission)
    (sessionExists requestSeen : Bool) :
    (desk.followup call submission sessionExists requestSeen).Sound := by
  have stepped : desk.delivery.step (.followup submission .nextTurn sessionExists requestSeen) =
      some (desk.delivery.followup submission .nextTurn sessionExists requestSeen) := rfl
  have queued : ∀ state, Sound ({ desk with
      delivery := desk.delivery.followup submission .nextTurn sessionExists
        requestSeen }.setFollowup call state) := by
    intro state
    apply sound.carry
    · rfl
    · rfl
    · rfl
    · exact List.Subset.refl _
    · intro attempt started
      obtain ⟨delivered, ended⟩ := sound.ended attempt started
      exact ⟨delivered, Delivery.step_ended stepped ended⟩
    · exact sound.reported
    · intro requestId _ carried
      rcases carried with present | carries
      · exact Or.inl (Delivery.followup_keeps present submission .nextTurn sessionExists requestSeen)
      · exact Or.inr carries
  unfold Desk.followup
  dsimp only
  split <;> exact queued _

private theorem Sound.followupReturns (sound : desk.Sound) (call : Nat) (requestId : String)
    (created : Bool) : (desk.followupReturns call requestId created).Sound := by
  unfold Desk.followupReturns
  cases created with
  | false => exact ⟨sound.linked, sound.known, sound.awaits, sound.ended, sound.reported,
      sound.complete.answered, sound.complete.truthful, sound.complete.settled⟩
  | true =>
      rw [if_pos rfl]
      have futures : ∀ number other future, desk.waits number = .waiting other future →
          (desk.receipts.setDefault requestId).futures future = desk.receipts.futures future := by
        intro number other future waiting
        exact Promises.setDefault_futures (sound.awaits number other future waiting).1 requestId
      refine ⟨sound.linked.setDefault requestId, ?_, ?_, sound.ended, sound.reported,
        sound.complete.answered, ?_, ?_⟩
      · intro other future registered
        change Function.update desk.accepted requestId true other = true
        by_cases same : other = requestId
        · rw [same, Function.update_self]
        · rw [Function.update_of_ne same]
          apply sound.known other future
          rw [← Promises.setDefault_entries_of_ne desk.receipts same]
          exact registered
      · intro number other future waiting
        exact (sound.awaits number other future waiting).setDefault requestId
      · intro number other future result waiting resolved
        change (desk.receipts.setDefault requestId).futures future = _ at resolved
        rw [futures number other future waiting] at resolved
        exact sound.complete.truthful number other future result waiting resolved
      · intro number other future waiting pending
        change (desk.receipts.setDefault requestId).futures future = _ at pending
        rw [futures number other future waiting] at pending
        exact sound.complete.settled number other future waiting pending

private theorem startRun_runs (desk : Desk) (action : Delivery.Action) (attempt : Nat) :
    (desk.startRun action).runs attempt = desk.runs attempt ∨
      ∃ delivered, action = .claim attempt ∧ desk.dispatches attempt = true ∧
        desk.delivery.attempts attempt = .ended delivered ∧
        (desk.startRun action).runs attempt = .ofBatch delivered := by
  unfold startRun
  split
  · exact Or.inl rfl
  · rename_i other
    split
    · rename_i delivered dispatch ended
      by_cases same : attempt = other
      · subst same
        exact Or.inr ⟨delivered, rfl, dispatch, ended, runs_setRun_self _ _ _⟩
      · exact Or.inl (runs_setRun_of_ne _ _ same)
    · exact Or.inl rfl
  · exact Or.inl rfl

private theorem startRun_frame (desk : Desk) (action : Delivery.Action) :
    (desk.startRun action).receipts = desk.receipts ∧
      (desk.startRun action).waits = desk.waits ∧
      (desk.startRun action).accepted = desk.accepted ∧
      (desk.startRun action).executed = desk.executed ∧
      (desk.startRun action).delivery = desk.delivery := by
  unfold startRun
  split
  · exact ⟨rfl, rfl, rfl, rfl, rfl⟩
  · split <;> exact ⟨rfl, rfl, rfl, rfl, rfl⟩
  · exact ⟨rfl, rfl, rfl, rfl, rfl⟩

private theorem carries_ofBatch {items : List QueueItem}
    (listed : requestId ∈ items.map QueueItem.requestId) :
    (Run.ofBatch items).carries requestId := by
  cases items with
  | nil => cases listed
  | cons _ _ => exact listed

private theorem carried_queue (sound : desk.Sound) {action : Delivery.Action} {delivery : Delivery}
    (stepped : desk.delivery.step action = some delivery)
    (answers : desk.AnswersWaits (.queue action)) (waited : ¬ desk.Unwaited requestId)
    (carried : desk.Carried requestId) :
    ({ desk with delivery := delivery }.startRun action).Carried requestId := by
  obtain ⟨_, _, _, _, sameDelivery⟩ := startRun_frame { desk with delivery := delivery } action
  unfold Carried
  rw [sameDelivery]
  rcases carried with queued | ⟨attempt, carries⟩
  · rcases Delivery.step_keeps stepped queued with kept | leaves
    · exact Or.inl kept
    · cases leaves with
      | removed => exact absurd (answers queued) waited
      | discarded attempt item state same =>
          rw [← same] at waited queued
          exact absurd (answers item state queued) waited
      | lost attempt candidates historyIds previous state candidate =>
          exact absurd (answers candidates historyIds previous state requestId candidate queued)
            waited
      | claimed attempt candidates historyIds previous delivered state candidate ended listed =>
          cases dispatch : desk.dispatches attempt with
          | false =>
              exact absurd (answers dispatch candidates historyIds previous state requestId
                candidate queued) waited
          | true =>
              right
              refine ⟨attempt, ?_⟩
              have started : ({ desk with delivery := delivery }.startRun (.claim attempt)).runs
                  attempt = .ofBatch delivered := by
                unfold startRun
                dsimp only
                rw [dispatch, ended]
                exact runs_setRun_self _ _ _
              rw [started]
              exact carries_ofBatch listed
  · right
    refine ⟨attempt, ?_⟩
    rcases startRun_runs { desk with delivery := delivery } action attempt with
      same | ⟨_, claims, _, _, _⟩
    · rw [same]
      exact carries
    · have present : desk.runs attempt ≠ .absent := by
        intro absent
        rw [absent] at carries
        cases carries
      obtain ⟨_, ended⟩ := sound.ended attempt present
      rw [claims] at stepped
      dsimp only [Delivery.step] at stepped
      rw [ended] at stepped
      cases stepped

private theorem Sound.queue (sound : desk.Sound) {action : Delivery.Action} {delivery : Delivery}
    (stepped : desk.delivery.step action = some delivery)
    (answers : desk.AnswersWaits (.queue action)) :
    ({ desk with delivery := delivery }.startRun action).Sound := by
  obtain ⟨receipts, waits, accepted, executed, sameDelivery⟩ :=
    startRun_frame { desk with delivery := delivery } action
  apply sound.carry receipts waits accepted
  · rw [executed]
    exact List.Subset.refl _
  · intro attempt present
    rw [sameDelivery]
    rcases startRun_runs { desk with delivery := delivery } action attempt with
      same | ⟨delivered, _, _, ended, _⟩
    · rw [same] at present
      obtain ⟨delivered, ended⟩ := sound.ended attempt present
      exact ⟨delivered, Delivery.step_ended stepped ended⟩
    · exact ⟨delivered, ended⟩
  · intro attempt item outcome rest reporting
    rw [executed]
    rcases startRun_runs { desk with delivery := delivery } action attempt with
      same | ⟨delivered, _, _, _, started⟩
    · rw [same] at reporting
      exact sound.reported attempt item outcome rest reporting
    · rw [started] at reporting
      cases delivered <;> cases reporting
  · intro requestId waited carried
    exact carried_queue sound stepped answers waited carried

private theorem Sound.runReturns (sound : desk.Sound) {item : QueueItem}
    (running : desk.runs attempt = .delivering (item :: rest)) (result : RunResult) :
    Sound ({ desk with executed := (item.requestId, result) :: desk.executed }.setRun attempt
      (.reporting item (.result result) rest)) := by
  apply sound.carry
  · rfl
  · rfl
  · rfl
  · exact List.subset_cons_self _ _
  · exact ended_setRun sound (by rw [running]; nofun)
  · intro other reported outcome remaining reporting
    by_cases same : other = attempt
    · rw [same, runs_setRun_self] at reporting
      cases reporting
      refine ⟨nofun, ?_⟩
      intro returned equal
      cases equal
      exact List.mem_cons_self
    · rw [runs_setRun_of_ne _ _ same] at reporting
      obtain ⟨resolves, listed⟩ := sound.reported other reported outcome remaining reporting
      exact ⟨resolves, fun returned equal => List.mem_cons_of_mem _ (listed returned equal)⟩
  · intro requestId _ carried
    apply carried_setRun _ _ _ carried
    · exact attempt
    · exact .reporting item (.result result) rest
    · rfl
    · rfl
    · intro carries
      rw [running] at carries
      exact carries

private theorem Sound.runRaises (sound : desk.Sound) {item : QueueItem}
    (running : desk.runs attempt = .delivering (item :: rest)) (error : String) :
    Sound (desk.setRun attempt (.reporting item (.exception error) rest)) := by
  apply sound.carry
  · rfl
  · rfl
  · rfl
  · exact List.Subset.refl _
  · exact ended_setRun sound (by rw [running]; nofun)
  · intro other reported outcome remaining reporting
    by_cases same : other = attempt
    · rw [same, runs_setRun_self] at reporting
      cases reporting
      exact ⟨nofun, nofun⟩
    · rw [runs_setRun_of_ne _ _ same] at reporting
      exact sound.reported other reported outcome remaining reporting
  · intro requestId _ carried
    apply carried_setRun _ _ _ carried
    · exact attempt
    · exact .reporting item (.exception error) rest
    · rfl
    · rfl
    · intro carries
      rw [running] at carries
      exact carries

private theorem Sound.deliveryStops (sound : desk.Sound) (started : desk.runs attempt ≠ .absent)
    (answers : ∀ item ∈ (desk.runs attempt).items, desk.Unwaited item.requestId) :
    Sound (desk.setRun attempt .ended) := by
  apply sound.carry
  · rfl
  · rfl
  · rfl
  · exact List.Subset.refl _
  · exact ended_setRun sound started
  · intro other reported outcome remaining reporting
    by_cases same : other = attempt
    · rw [same, runs_setRun_self] at reporting
      cases reporting
    · rw [runs_setRun_of_ne _ _ same] at reporting
      exact sound.reported other reported outcome remaining reporting
  · intro requestId waited carried
    apply carried_setRun _ _ _ carried
    · exact attempt
    · exact .ended
    · rfl
    · rfl
    · intro carries
      obtain ⟨item, listed, same⟩ := List.mem_map.mp carries
      rw [← same] at waited
      exact absurd (answers item listed) waited

private theorem Sound.resolve (sound : desk.Sound) {item : QueueItem} {outcome : Future RunResult}
    (reporting : desk.runs attempt = .reporting item outcome rest)
    (answers : stopsBatch outcome = true → ∀ other ∈ rest, desk.Unwaited other.requestId) :
    Sound ({ desk with receipts := desk.receipts.settle item.requestId outcome }.setRun attempt
      (if stopsBatch outcome then .ended else .ofBatch rest)) := by
  obtain ⟨resolves, listed⟩ := sound.reported attempt item outcome rest reporting
  have served : ∀ number requestId future, desk.waits number = .waiting requestId future → _ :=
    fun number requestId future waiting =>
      (sound.awaits number requestId future waiting).settle sound.linked item.requestId resolves
  refine ⟨sound.linked.settle item.requestId outcome, ?_, ?_, ?_, ?_, sound.complete.answered,
    ?_, ?_⟩
  · intro requestId future registered
    exact sound.known requestId future (Promises.settle_entries _ _ _ _ registered)
  · intro number requestId future waiting
    exact (served number requestId future waiting).1
  · exact ended_setRun sound (by rw [reporting]; nofun)
  · intro other reported result remaining reports
    by_cases same : other = attempt
    · rw [same, runs_setRun_self] at reports
      split at reports
      · cases reports
      · cases rest <;> cases reports
    · rw [runs_setRun_of_ne _ _ same] at reports
      exact sound.reported other reported result remaining reports
  · intro number requestId future result waiting resolved
    rcases (served number requestId future waiting).2.1 with unchanged | ⟨own, settled⟩
    · apply sound.complete.truthful number requestId future result waiting
      rw [← unchanged]
      exact resolved
    · rw [own]
      exact listed result (settled.symm.trans resolved)
  · intro number requestId future waiting pending
    obtain ⟨_, unchanged, notPending⟩ := served number requestId future waiting
    have different : requestId ≠ item.requestId := fun own => notPending own pending
    have before : desk.receipts.futures future = .pending := by
      rcases unchanged with same | ⟨own, _⟩
      · rw [← same]
        exact pending
      · exact absurd own different
    apply carried_setRun _ _ _ (sound.complete.settled number requestId future waiting before)
    · exact attempt
    · exact if stopsBatch outcome then .ended else .ofBatch rest
    · rfl
    · rfl
    · intro carries
      rw [reporting] at carries
      have remaining : requestId ∈ rest.map QueueItem.requestId := by
        rcases List.mem_cons.mp carries with own | later
        · exact absurd own different
        · exact later
      by_cases stops : stopsBatch outcome = true
      · obtain ⟨other, inRest, same⟩ := List.mem_map.mp remaining
        rw [← same] at waiting
        exact absurd before (answers stops other inRest number future waiting)
      · rw [if_neg stops]
        exact carries_ofBatch remaining

private theorem Sound.wait {desk : Desk} (sound : desk.Sound) (number : Nat) {requestId : String}
    (answers : desk.accepted requestId = true →
      (desk.receipts.entries requestId).isSome ∧ desk.Carried requestId) :
    (desk.wait number requestId).Sound := by
  have others : ∀ {other : Nat} {state : Wait}, other ≠ number →
      (desk.wait number requestId).waits other = state → desk.waits other = state := by
    intro other state different same
    rw [← same]
    exact (Function.update_of_ne different _ _).symm
  have own : ∀ {state : Wait}, (desk.wait number requestId).waits number = state →
      (desk.receipts.entries requestId = none ∧
        state = .refused requestId (desk.accepted requestId)) ∨
      ∃ future, desk.receipts.entries requestId = some future ∧
        state = .waiting requestId future := by
    intro state same
    change Function.update desk.waits number _ number = state at same
    rw [Function.update_self] at same
    cases registered : desk.receipts.entries requestId with
    | none =>
        rw [registered] at same
        exact Or.inl ⟨rfl, same.symm⟩
    | some future =>
        rw [registered] at same
        exact Or.inr ⟨future, rfl, same.symm⟩
  have found : ∀ waited future,
      (desk.wait number requestId).waits number = .waiting waited future →
        waited = requestId ∧ desk.receipts.entries requestId = some future := by
    intro waited future waiting
    rcases own waiting with ⟨_, refused⟩ | ⟨held, registered, same⟩
    · cases refused
    · cases same
      exact ⟨rfl, registered⟩
  refine ⟨sound.linked, sound.known, ?_, sound.ended, sound.reported, ?_, ?_, ?_⟩
  · intro other waited future waiting
    by_cases same : other = number
    · rw [same] at waiting
      obtain ⟨equal, registered⟩ := found waited future waiting
      rw [equal]
      exact sound.linked.awaits registered
    · exact sound.awaits other waited future (others same waiting)
  · intro other waited accepted refused
    by_cases same : other = number
    · rw [same] at refused
      rcases own refused with ⟨absent, now⟩ | ⟨held, _, waiting⟩
      · cases now
        cases known : desk.accepted requestId with
        | false => rfl
        | true =>
            have present := (answers known).1
            rw [absent] at present
            cases present
      · cases waiting
    · exact sound.complete.answered other waited accepted (others same refused)
  · intro other waited future result waiting resolved
    by_cases same : other = number
    · rw [same] at waiting
      have pending := (sound.linked.pending _ _ (found waited future waiting).2).2
      change desk.receipts.futures future = _ at resolved
      rw [pending] at resolved
      cases resolved
    · exact sound.complete.truthful other waited future result (others same waiting) resolved
  · intro other waited future waiting pending
    by_cases same : other = number
    · rw [same] at waiting
      obtain ⟨equal, registered⟩ := found waited future waiting
      rw [equal]
      exact (answers (sound.known requestId future registered)).2
    · exact sound.complete.settled other waited future (others same waiting) pending

theorem Sound.step {desk after : Desk} (sound : desk.Sound) {action : Action}
    (stepped : desk.step action = some after) (answers : desk.AnswersWaits action) :
    after.Sound := by
  cases action with
  | followup call submission sessionExists requestSeen =>
      dsimp only [Desk.step] at stepped
      split at stepped
      · cases stepped
        exact sound.followup call submission sessionExists requestSeen
      · cases stepped
  | followupReturns call =>
      dsimp only [Desk.step] at stepped
      split at stepped
      · cases stepped
        exact sound.followupReturns call _ _
      · cases stepped
  | followupFails call =>
      dsimp only [Desk.step] at stepped
      split at stepped
      · cases stepped
        exact ⟨sound.linked, sound.known, sound.awaits, sound.ended, sound.reported,
          sound.complete.answered, sound.complete.truthful, sound.complete.settled⟩
      · cases stepped
  | queue action =>
      dsimp only [Desk.step] at stepped
      split at stepped
      · cases stepped
      · obtain ⟨delivery, moved, same⟩ := Option.map_eq_some_iff.mp stepped
        rw [← same]
        exact sound.queue moved answers
  | runReturns attempt result =>
      dsimp only [Desk.step] at stepped
      split at stepped
      · rename_i running
        cases stepped
        exact sound.runReturns running result
      · cases stepped
  | runRaises attempt error =>
      dsimp only [Desk.step] at stepped
      split at stepped
      · rename_i running
        cases stepped
        exact sound.runRaises running error
      · cases stepped
  | resolve attempt =>
      dsimp only [Desk.step] at stepped
      split at stepped
      · rename_i reporting
        cases stepped
        exact sound.resolve reporting (answers _ _ _ reporting)
      · cases stepped
  | deliveryStops attempt =>
      dsimp only [Desk.step] at stepped
      split at stepped
      · rename_i running
        cases stepped
        exact sound.deliveryStops (by rw [running]; nofun) answers
      · rename_i running
        cases stepped
        exact sound.deliveryStops (by rw [running]; nofun) answers
      · cases stepped
  | wait number requestId =>
      dsimp only [Desk.step] at stepped
      split at stepped
      · cases stepped
        exact sound.wait number answers
      · cases stepped

/-- In every run whose steps meet the condition every wait is answered. -/
theorem waits_answered (capacity : Nat) (service : Session.ServiceState) {desk : Desk}
    (reached : system.Reaches AnswersWaits (opened capacity service) desk) : desk.Complete := by
  have sound : desk.Sound := by
    apply reached.invariant (sound_opened capacity service)
    intro before action after sound answers stepped
    exact sound.step stepped answers
  exact sound.complete

/-! ### One request -/

private def letter : Submission where
  item := ⟨"request-1", 0, "session-1", "web", "hello", [], .user, none, [], "default"⟩
  unnumbered := le_rfl

private def newDesk : Desk := opened 100 (.created "session-1")

private def answer : RunResult := ⟨"turn-1", "completed", false⟩

private def accepting : List Action := [.followup 0 letter true false, .followupReturns 0]

private def claiming : List Action :=
  [.queue (.begin 0 .nextTurn), .queue (.decide 0 .enter), .queue (.persist 0 0 ""),
    .queue (.claim 0)]

private def outcomeOf (actions : List Action) : Option (Wait × Option QueueItem) :=
  (system.run newDesk actions).map fun desk =>
    (desk.waits 0, desk.delivery.inbox.find "request-1")

private theorem outcomeOf_spec {actions : List Action} {state : Wait} {item : Option QueueItem}
    (outcome : outcomeOf actions = some (state, item)) :
    ∃ desk, system.Reaches StepSystem.anyStep newDesk desk ∧ desk.waits 0 = state ∧
      desk.delivery.inbox.find "request-1" = item := by
  obtain ⟨desk, ran, same⟩ := Option.map_eq_some_iff.mp outcome
  cases same
  exact ⟨desk, StepSystem.reaches_of_run ran, rfl, rfl⟩

/-- Asked for once the turn is over, the wait is refused; a wait for an item that is then removed is
never settled. -/
theorem late_wait_refused_and_removed_wait_hangs :
    (∃ desk, system.Reaches StepSystem.anyStep newDesk desk ∧
      desk.waits 0 = .refused "request-1" true ∧ ¬ desk.Complete) ∧
    (∃ desk, system.Reaches StepSystem.anyStep newDesk desk ∧
      desk.waits 0 = .waiting "request-1" 0 ∧ desk.receipts.futures 0 = .pending ∧
      ¬ desk.Carried "request-1") := by
  constructor
  · have outcome : outcomeOf (accepting ++ claiming ++
        [.runReturns 0 answer, .resolve 0, .wait 0 "request-1"]) =
          some (.refused "request-1" true, none) := by decide
    obtain ⟨desk, reached, refused, _⟩ := outcomeOf_spec outcome
    refine ⟨desk, reached, refused, ?_⟩
    intro complete
    have accepted := complete.answered 0 "request-1" true refused
    cases accepted
  · refine ⟨?desk, ?run, ?waiting, ?pending, ?gone⟩
    case run =>
      refine .head (.followup 0 letter true false) trivial rfl ?_
      refine .head (.followupReturns 0) trivial rfl ?_
      refine .head (.wait 0 "request-1") trivial rfl ?_
      refine .head (.queue (.remove "request-1")) trivial rfl ?_
      exact Relation.ReflTransGen.refl
    case waiting => rfl
    case pending => rfl
    case gone =>
      rintro (⟨item, member, _⟩ | ⟨attempt, carries⟩)
      · cases member
      · cases carries

/-- A wait made while the dispatch is at work gets the result of its turn. -/
theorem early_wait_is_answered :
    ∃ desk, system.Reaches AnswersWaits newDesk desk ∧ desk.Complete ∧
      desk.waits 0 = .waiting "request-1" 0 ∧ desk.receipts.futures 0 = .result answer := by
  have reached : ∃ desk, system.Reaches AnswersWaits newDesk desk ∧
      desk.waits 0 = .waiting "request-1" 0 ∧ desk.receipts.futures 0 = .result answer := by
    refine ⟨?desk, ?run, ?waiting, ?resolved⟩
    case run =>
      refine .head (.followup 0 letter true false) trivial rfl ?_
      refine .head (.followupReturns 0) trivial rfl ?_
      refine .head (.queue (.begin 0 .nextTurn)) trivial rfl ?_
      refine .head (.queue (.decide 0 .enter)) trivial rfl ?_
      refine .head (.queue (.persist 0 0 "")) trivial rfl ?_
      refine .head (.queue (.claim 0)) nofun rfl ?_
      refine .head (.wait 0 "request-1") ?_ rfl ?_
      · exact fun _ => ⟨rfl, Or.inr ⟨0, List.mem_singleton_self _⟩⟩
      refine .head (.runReturns 0 answer) trivial rfl ?_
      refine .head (.resolve 0) ?delivered rfl ?done
      case done => exact Relation.ReflTransGen.refl
      case delivered =>
        intro item outcome rest reporting
        cases reporting
        nofun
    case waiting => rfl
    case resolved => rfl
  obtain ⟨desk, run, waiting, resolved⟩ := reached
  exact ⟨desk, run, waits_answered 100 (.created "session-1") run, waiting, resolved⟩

end Desk

end Ftre.Inbox
