import Mathlib.Data.List.InsertIdx
import Ftre.Inbox.Storage

/-!
A restart.
-/

namespace Ftre.Inbox

open Lib Message

/-! ### Reloaded items -/

def reloadMessage (message : Msg) : Msg := (Msg.modelValidate message.modelDump).getD message

variable {message : Msg} {left right : MutableInbox} {inbox : MutableInbox}
  {repository : Repository}

theorem modelValidate_reload (wellFormed : message.WellFormed) :
    Msg.modelValidate message.modelDump = some (reloadMessage message) := by
  obtain ⟨read, accepted, _⟩ := msg_modelValidate message wellFormed
  rw [reloadMessage, accepted]
  rfl

theorem modelDump_reload (wellFormed : message.WellFormed) :
    (reloadMessage message).modelDump = message.modelDump := by
  obtain ⟨read, accepted, same, _⟩ := msg_modelValidate message wellFormed
  rw [reloadMessage, accepted]
  exact same

theorem mapM_reload {messages : List Msg} (readable : ∀ message ∈ messages, message.WellFormed) :
    (messages.map Msg.modelDump).mapM Msg.modelValidate = some (messages.map reloadMessage) := by
  induction messages with
  | nil => rfl
  | cons message rest ih =>
      rw [List.map_cons, List.mapM_cons,
        modelValidate_reload (readable message List.mem_cons_self),
        ih fun other member => readable other (List.mem_cons_of_mem _ member)]
      rfl

theorem reloadMessage_wellFormed (wellFormed : message.WellFormed) :
    (reloadMessage message).WellFormed := by
  obtain ⟨read, accepted, _, kept⟩ := msg_modelValidate message wellFormed
  rw [reloadMessage, accepted]
  exact kept

theorem reloadMessage_reload (wellFormed : message.WellFormed) :
    reloadMessage (reloadMessage message) = reloadMessage message := by
  have again : reloadMessage (reloadMessage message) =
      (Msg.modelValidate (reloadMessage message).modelDump).getD (reloadMessage message) := rfl
  rw [again, modelDump_reload wellFormed, modelValidate_reload wellFormed]
  rfl

namespace QueueItem

def reloaded (item : QueueItem) : QueueItem :=
  { item with
    historyMessageId := item.historyMessageId.filter (· ≠ "")
    messages := item.messages.map reloadMessage
    agentId := if item.agentId = "" then "default" else item.agentId }

structure Reloadable (item : QueueItem) : Prop where
  attached : ∀ attachment ∈ item.attachments, ∃ fields, attachment = .object fields
  readable : ∀ message ∈ item.messages, message.WellFormed

theorem reloaded_reloaded {item : QueueItem} (reloadable : item.Reloadable) :
    item.reloaded.reloaded = item.reloaded := by
  unfold reloaded
  congr 1
  · rw [Option.filter_filter]
    simp only [Bool.and_self]
  · rw [List.map_map]
    exact List.map_congr_left fun message member =>
      reloadMessage_reload (reloadable.readable message member)
  · dsimp only
    by_cases empty : item.agentId = ""
    · rw [if_pos empty]
      rfl
    · rw [if_neg empty, if_neg empty]

theorem fromJson_reloaded {item : QueueItem} (reloadable : item.Reloadable)
    (target : QueueTarget) : fromJson (item.toJson target) = .ok (item.reloaded, target) := by
  have history : readHistoryId (some (optionJson item.historyMessageId)) =
      item.historyMessageId.filter (· ≠ "") := by
    cases item.historyMessageId with
    | none => rfl
    | some id =>
        by_cases empty : id = ""
        · rw [empty]
          rfl
        · have truthy : Json.truthy (.str id) = true := decide_eq_true empty
          rw [Option.filter_some, if_pos (decide_eq_true empty)]
          change ((some (Json.str id)).filter Json.truthy).map Json.toStr = _
          rw [Option.filter_some, if_pos truthy]
          rfl
  have agent : ((Json.orElse (some (.str item.agentId)) none).getD (.str "default")).toStr =
      if item.agentId = "" then "default" else item.agentId := by
    by_cases empty : item.agentId = ""
    · rw [empty]
      rfl
    · have kept : Json.orElse (some (.str item.agentId)) none = some (.str item.agentId) :=
        if_pos (decide_eq_true empty)
      rw [kept, if_neg empty]
      rfl
  exact fromJson_read target reloadable.attached history (mapM_reload reloadable.readable) agent

end QueueItem

def Hit.reloaded (hit : Hit) : Hit := { hit with item := hit.item.reloaded }

namespace MutableInbox

def reloaded (inbox : MutableInbox) : MutableInbox :=
  { inbox with
    nextTurn := inbox.nextTurn.map QueueItem.reloaded
    nextStep := inbox.nextStep.map QueueItem.reloaded }

def Reloadable (inbox : MutableInbox) : Prop := ∀ item ∈ inbox.pending, item.Reloadable

theorem keys_reloaded (items : List QueueItem) :
    keys (items.map QueueItem.reloaded) = keys items := by
  unfold keys
  rw [List.map_map]
  rfl

private theorem readItems_reloaded (items : List QueueItem) (target : QueueTarget)
    (misplaced : String) (reloadable : ∀ item ∈ items, item.Reloadable) :
    (items.map fun item => item.toJson target).mapM (fun raw =>
        (QueueItem.fromJson raw).bind fun (item, place) =>
          if place = target then Except.ok item else .error misplaced) =
      .ok (items.map QueueItem.reloaded) := by
  induction items with
  | nil => rfl
  | cons item rest ih =>
      rw [List.map_cons, List.mapM_cons,
        QueueItem.fromJson_reloaded (reloadable item List.mem_cons_self),
        ih fun other member => reloadable other (List.mem_cons_of_mem _ member)]
      change (if target = target then Except.ok item.reloaded else .error misplaced).bind _ = _
      rw [if_pos rfl]
      rfl

theorem fromJson_reloaded {inbox : MutableInbox} (valid : inbox.Valid)
    (reloadable : inbox.Reloadable) : fromJson inbox.toJson = .ok inbox.reloaded := by
  have readValid : inbox.reloaded.Valid :=
    valid.of_keys (keys_reloaded inbox.nextTurn) (keys_reloaded inbox.nextStep) rfl
  have turnQueue : readQueue inbox.toJson .nextTurn "next_turn" "next_turn 含有错误 target" =
      .ok (inbox.nextTurn.map QueueItem.reloaded) :=
    readItems_reloaded inbox.nextTurn .nextTurn _ fun item member =>
      reloadable item (List.mem_append_left _ member)
  have stepQueue : readQueue inbox.toJson .nextStep "next_step" "next_step 含有错误 target" =
      .ok (inbox.nextStep.map QueueItem.reloaded) :=
    readItems_reloaded inbox.nextStep .nextStep _ fun item member =>
      reloadable item (List.mem_append_right _ member)
  unfold fromJson
  rw [turnQueue, stepQueue]
  change (MutableInbox.validate inbox.reloaded).bind _ = _
  rw [validate_of_valid readValid]
  rfl

/-! ### Operations on reloaded queues -/

theorem reloaded_reloaded {inbox : MutableInbox} (reloadable : inbox.Reloadable) :
    inbox.reloaded.reloaded = inbox.reloaded := by
  have again : ∀ items : List QueueItem, (∀ item ∈ items, item.Reloadable) →
      (items.map QueueItem.reloaded).map QueueItem.reloaded = items.map QueueItem.reloaded := by
    intro items each
    rw [List.map_map]
    exact List.map_congr_left fun item member => QueueItem.reloaded_reloaded (each item member)
  unfold reloaded
  dsimp only
  rw [again inbox.nextTurn fun item member => reloadable item (List.mem_append_left _ member),
    again inbox.nextStep fun item member => reloadable item (List.mem_append_right _ member)]

theorem reloaded_reloadable {inbox : MutableInbox} (reloadable : inbox.Reloadable) :
    inbox.reloaded.Reloadable := by
  intro item member
  have listed : item ∈ inbox.pending.map QueueItem.reloaded := by
    unfold pending at member ⊢
    rw [List.map_append]
    exact member
  obtain ⟨original, present, same⟩ := List.mem_map.mp listed
  have kept := reloadable original present
  rw [← same]
  refine ⟨kept.attached, fun message inside => ?_⟩
  obtain ⟨source, own, read⟩ := List.mem_map.mp inside
  rw [← read]
  exact reloadMessage_wellFormed (kept.readable source own)

theorem findIn_reloaded (items : List QueueItem) (requestId : String) :
    findIn (items.map QueueItem.reloaded) requestId =
      (findIn items requestId).map fun entry => (entry.1.reloaded, entry.2) := by
  unfold findIn
  rw [List.zipIdx_map, List.find?_map]
  rfl

theorem locate_reloaded (inbox : MutableInbox) (requestId : String) :
    inbox.reloaded.locate requestId = (inbox.locate requestId).map Hit.reloaded := by
  unfold locate reloaded
  dsimp only
  rw [findIn_reloaded, findIn_reloaded]
  cases findIn inbox.nextTurn requestId with
  | some entry => rfl
  | none =>
      cases findIn inbox.nextStep requestId with
      | some entry => rfl
      | none => rfl

theorem pop_reloaded (inbox : MutableInbox) (hit : Hit) :
    inbox.reloaded.pop hit.reloaded = (inbox.pop hit).reloaded := by
  unfold pop
  cases hit with
  | mk target index item =>
      cases target with
      | nextTurn =>
          unfold reloaded withQueue queue Hit.reloaded
          dsimp only
          rw [List.eraseIdx_map]
      | nextStep =>
          unfold reloaded withQueue queue Hit.reloaded
          dsimp only
          rw [List.eraseIdx_map]

theorem put_reloaded (inbox : MutableInbox) (hit : Hit) (item : QueueItem) :
    inbox.reloaded.put hit.reloaded item.reloaded = (inbox.put hit item).reloaded := by
  unfold put
  cases hit with
  | mk target index old =>
      cases target with
      | nextTurn =>
          unfold reloaded withQueue queue Hit.reloaded
          dsimp only
          rw [List.map_set]
      | nextStep =>
          unfold reloaded withQueue queue Hit.reloaded
          dsimp only
          rw [List.map_set]

theorem popAll_reloaded (inbox : MutableInbox) (hits : List Hit) :
    inbox.reloaded.popAll (hits.map Hit.reloaded) = (inbox.popAll hits).reloaded := by
  unfold popAll
  have sorted : (hits.map Hit.reloaded).mergeSort (fun left right =>
      decide (right.index ≤ left.index)) = (hits.mergeSort fun left right =>
        decide (right.index ≤ left.index)).map Hit.reloaded :=
    (List.map_mergeSort (f := Hit.reloaded) fun _ _ _ _ => rfl).symm
  rw [sorted]
  generalize hits.mergeSort (fun left right => decide (right.index ≤ left.index)) = ordered
  induction ordered generalizing inbox with
  | nil => rfl
  | cons hit rest ih =>
      rw [List.map_cons, List.foldl_cons, List.foldl_cons, pop_reloaded]
      exact ih (inbox.pop hit)

theorem edited_reloaded (item : QueueItem) (content : String) (attachments : List Json) :
    item.reloaded.edited content attachments = (item.edited content attachments).reloaded := rfl

theorem promoted_reloaded (item : QueueItem) : item.reloaded.promoted = item.promoted.reloaded :=
  rfl

end MutableInbox

/-! ### Calls -/

/-- An item with any content, source, agent and history id. -/
structure AnyItem where
  item : QueueItem
  unnumbered : item.sequence ≤ 0
  reloadable : item.Reloadable

inductive InboxCall where
  | admitItem (any : AnyItem) (target : QueueTarget) (sessionExists requestSeen : Bool)
  | claim (requestIds : RequestIds)
  | remove (requestId : String)
  | edit (requestId content : String) (attachments : List (List (String × Json)))
  | promote (requestId : String)

def InboxCall.effect (inbox : MutableInbox) (capacity : Nat) : InboxCall → Effect
  | .admitItem any target sessionExists requestSeen =>
      inbox.admitItem capacity any.item target sessionExists requestSeen
  | .claim requestIds => inbox.effect capacity (.claim requestIds)
  | .remove requestId => inbox.effect capacity (.remove requestId)
  | .edit requestId content attachments =>
      inbox.effect capacity (.edit requestId content attachments)
  | .promote requestId => inbox.effect capacity (.promote requestId)

/-- What each call of a run does. -/
def effects (capacity : Nat) (inbox : MutableInbox) : List InboxCall → List Effect
  | [] => []
  | call :: rest =>
      call.effect inbox capacity ::
        effects capacity ((call.effect inbox capacity).outcome inbox) rest

def Reply.reloaded : Reply → Reply
  | .admitted created position => .admitted created position
  | .claimed items => .claimed (items.map QueueItem.reloaded)
  | .item found => .item (found.map QueueItem.reloaded)

def Effect.reloaded : Effect → Effect
  | .raises error => .raises error
  | .replies reply => .replies reply.reloaded
  | .changes after validates reply => .changes after.reloaded validates reply.reloaded

def Alike (left right : MutableInbox) : Prop := left.reloaded = right.reloaded

section

variable {left right : MutableInbox}

theorem Alike.turns (alike : Alike left right) :
    left.nextTurn.map QueueItem.reloaded = right.nextTurn.map QueueItem.reloaded :=
  congrArg MutableInbox.nextTurn alike

theorem Alike.steps (alike : Alike left right) :
    left.nextStep.map QueueItem.reloaded = right.nextStep.map QueueItem.reloaded :=
  congrArg MutableInbox.nextStep alike

theorem Alike.lengths (alike : Alike left right) :
    left.nextTurn.length = right.nextTurn.length ∧
      left.nextStep.length = right.nextStep.length := by
  have turns := congrArg List.length alike.turns
  have steps := congrArg List.length alike.steps
  rw [List.length_map, List.length_map] at turns steps
  exact ⟨turns, steps⟩

theorem enqueue_alike (alike : Alike left right) (item : QueueItem) (target : QueueTarget) :
    Alike (left.enqueue item target) (right.enqueue item target) := by
  have same : left.reloaded = right.reloaded := alike
  have session : left.reloaded.sessionId = right.reloaded.sessionId := by rw [same]
  have revision : left.reloaded.revision = right.reloaded.revision := by rw [same]
  have next : left.reloaded.nextSequence = right.reloaded.nextSequence := by rw [same]
  change left.sessionId = right.sessionId at session
  change left.revision = right.revision at revision
  change left.nextSequence = right.nextSequence at next
  cases target with
  | nextTurn =>
      unfold Alike MutableInbox.enqueue MutableInbox.reloaded
      dsimp only
      rw [List.map_append, List.map_append, alike.turns, alike.steps, session, revision, next]
  | nextStep =>
      unfold Alike MutableInbox.enqueue MutableInbox.reloaded
      dsimp only
      rw [List.map_append, List.map_append, alike.turns, alike.steps, session, revision, next]

theorem locate_alike (alike : Alike left right) (requestId : String) :
    (left.locate requestId).map Hit.reloaded = (right.locate requestId).map Hit.reloaded := by
  rw [← MutableInbox.locate_reloaded, ← MutableInbox.locate_reloaded, alike]

theorem admit_alike (alike : Alike left right) (capacity : Nat) (item : QueueItem)
    (target : QueueTarget) (sessionExists requestSeen : Bool) :
    (left.admitItem capacity item target sessionExists requestSeen).reloaded =
      (right.admitItem capacity item target sessionExists requestSeen).reloaded := by
  have hits := locate_alike alike item.requestId
  have grown := enqueue_alike alike item target
  unfold MutableInbox.admitItem
  rw [alike.lengths.1, alike.lengths.2]
  split
  · rfl
  · cases found : left.locate item.requestId with
    | some existing =>
        rw [found] at hits
        obtain ⟨other, present, same⟩ := Option.map_eq_some_iff.mp hits.symm
        rw [present]
        have place : other.reloaded.index = existing.reloaded.index := congrArg Hit.index same
        change other.index = existing.index at place
        dsimp only
        rw [place]
    | none =>
        rw [found] at hits
        rw [Option.map_eq_none_iff.mp hits.symm]
        dsimp only
        split
        · rfl
        · split
          · rfl
          · rw [Effect.reloaded, Effect.reloaded, grown, grown.lengths.1, grown.lengths.2]

end

theorem mapM_locate_reloaded (inbox : MutableInbox) (requestIds : List String) :
    requestIds.mapM inbox.reloaded.locate =
      (requestIds.mapM inbox.locate).map (List.map Hit.reloaded) := by
  induction requestIds with
  | nil => rfl
  | cons requestId rest ih =>
      rw [List.mapM_cons, List.mapM_cons, ih, MutableInbox.locate_reloaded]
      cases inbox.locate requestId with
      | none => rfl
      | some hit => cases rest.mapM inbox.locate <;> rfl

theorem operation_reloaded (inbox : MutableInbox) (capacity : Nat) {call : InboxCall}
    (queued : ∀ any target sessionExists requestSeen,
      call ≠ .admitItem any target sessionExists requestSeen) :
    call.effect inbox.reloaded capacity = (call.effect inbox capacity).reloaded := by
  cases call with
  | admitItem any target sessionExists requestSeen => exact absurd rfl (queued _ _ _ _)
  | claim requestIds =>
      change inbox.reloaded.claim requestIds.ids = (inbox.claim requestIds.ids).reloaded
      unfold MutableInbox.claim
      rw [mapM_locate_reloaded]
      split
      · rfl
      · cases requestIds.ids.mapM inbox.locate with
        | none => rfl
        | some hits =>
            dsimp only [Option.map_some]
            rw [MutableInbox.popAll_reloaded, List.map_map]
            unfold Effect.reloaded Reply.reloaded
            dsimp only
            rw [List.map_map]
            rfl
  | remove requestId =>
      change inbox.reloaded.remove requestId = (inbox.remove requestId).reloaded
      unfold MutableInbox.remove
      rw [MutableInbox.locate_reloaded]
      cases inbox.locate requestId with
      | none => rfl
      | some hit =>
          dsimp only [Option.map_some]
          rw [MutableInbox.pop_reloaded]
          rfl
  | edit requestId content attachments =>
      change inbox.reloaded.replace requestId content attachments =
        (inbox.replace requestId content attachments).reloaded
      unfold MutableInbox.replace
      rw [MutableInbox.locate_reloaded]
      cases inbox.locate requestId with
      | none => rfl
      | some hit =>
          have same : hit.reloaded.item = hit.item.reloaded := rfl
          dsimp only [Option.map_some]
          rw [same, MutableInbox.edited_reloaded, MutableInbox.put_reloaded]
          rfl
  | promote requestId =>
      change inbox.reloaded.advance requestId = (inbox.advance requestId).reloaded
      unfold MutableInbox.advance
      rw [MutableInbox.locate_reloaded]
      cases inbox.locate requestId with
      | none => rfl
      | some hit =>
          have same : hit.reloaded.item = hit.item.reloaded := rfl
          have place : hit.reloaded.target = hit.target := rfl
          dsimp only [Option.map_some]
          rw [place, same, MutableInbox.promoted_reloaded, MutableInbox.pop_reloaded]
          cases hit.target with
          | nextStep => rfl
          | nextTurn =>
              have sorted : ((inbox.pop hit).reloaded.nextStep ++
                  [hit.item.promoted.reloaded]).mergeSort bySequence =
                  (((inbox.pop hit).nextStep ++ [hit.item.promoted]).mergeSort bySequence).map
                    QueueItem.reloaded := by
                have listed : (inbox.pop hit).reloaded.nextStep ++ [hit.item.promoted.reloaded] =
                    ((inbox.pop hit).nextStep ++ [hit.item.promoted]).map QueueItem.reloaded := by
                  rw [List.map_append]
                  rfl
                rw [listed]
                exact (List.map_mergeSort (r := bySequence) (s := bySequence)
                  (f := QueueItem.reloaded) fun _ _ _ _ => rfl).symm
              dsimp only
              rw [sorted]
              rfl

theorem effect_alike (alike : Alike left right) (capacity : Nat) (call : InboxCall) :
    (call.effect left capacity).reloaded = (call.effect right capacity).reloaded := by
  have queued : (∀ any target sessionExists requestSeen,
      call ≠ .admitItem any target sessionExists requestSeen) →
        (call.effect left capacity).reloaded = (call.effect right capacity).reloaded := by
    intro other
    rw [← operation_reloaded left capacity other, ← operation_reloaded right capacity other, alike]
  cases call with
  | admitItem any target sessionExists requestSeen =>
      exact admit_alike alike capacity any.item target sessionExists requestSeen
  | claim requestIds => exact queued fun _ _ _ _ => by simp
  | remove requestId => exact queued fun _ _ _ _ => by simp
  | edit requestId content attachments => exact queued fun _ _ _ _ => by simp
  | promote requestId => exact queued fun _ _ _ _ => by simp

theorem outcome_alike (alike : Alike left right) {first second : Effect}
    (same : first.reloaded = second.reloaded) :
    Alike (first.outcome left) (second.outcome right) := by
  cases first with
  | raises error =>
      cases second with
      | raises other => exact alike
      | replies reply => cases same
      | changes after validates reply => cases same
  | replies reply =>
      cases second with
      | raises error => cases same
      | replies other => exact alike
      | changes after validates other => cases same
  | changes after validates reply =>
      cases second with
      | raises error => cases same
      | replies other => cases same
      | changes later checks other => exact (Effect.changes.inj same).1

theorem effects_alike (alike : Alike left right) (capacity : Nat) (calls : List InboxCall) :
    (effects capacity left calls).map Effect.reloaded =
      (effects capacity right calls).map Effect.reloaded := by
  induction calls generalizing left right with
  | nil => rfl
  | cons call rest ih =>
      have same := effect_alike alike capacity call
      rw [effects, effects, List.map_cons, List.map_cons, same,
        ih (outcome_alike alike same)]

/-! ### Sound queues -/

structure Sound (inbox : MutableInbox) : Prop where
  valid : inbox.Valid
  reloadable : inbox.Reloadable

theorem sound_start (sessionId : String) : Sound (.start sessionId) where
  valid := MutableInbox.valid_start sessionId
  reloadable := fun _ member => absurd member List.not_mem_nil

theorem Sound.reloaded {inbox : MutableInbox} (sound : Sound inbox) : Sound inbox.reloaded where
  valid := sound.valid.of_keys (MutableInbox.keys_reloaded inbox.nextTurn)
    (MutableInbox.keys_reloaded inbox.nextStep) rfl
  reloadable := MutableInbox.reloaded_reloadable sound.reloadable

theorem sound_admit (sound : Sound inbox) (capacity : Nat) (any : AnyItem) (target : QueueTarget)
    (sessionExists requestSeen : Bool) :
    Sound ((inbox.admitItem capacity any.item target sessionExists requestSeen).outcome inbox) := by
  unfold MutableInbox.admitItem
  split
  · exact sound
  · split
    · exact sound
    · rename_i absent
      split
      · exact sound
      · split
        · exact sound
        · have free := MutableInbox.locate_none.mp absent
          refine ⟨sound.valid.enqueue any.unnumbered free target, ?_⟩
          intro other member
          rcases MutableInbox.mem_enqueue member with old | ⟨sequence, same⟩
          · exact sound.reloadable other old
          · rw [same]
            exact ⟨any.reloadable.attached, any.reloadable.readable⟩

private theorem sound_operation {inbox : MutableInbox} (sound : Sound inbox) (capacity : Nat)
    (operation : Operation)
    (kept : ∀ item ∈ ((⟨inbox, sound.valid⟩ : SessionInbox).perform capacity operation).pending,
      item.Reloadable) :
    Sound ((inbox.effect capacity operation).outcome inbox) := by
  have refined := (⟨inbox, sound.valid⟩ : SessionInbox).effect_refines capacity operation
  dsimp only at refined
  rw [refined]
  exact ⟨SessionInbox.valid _, kept⟩

theorem sound_claim (sound : Sound inbox) (capacity : Nat) (requestIds : RequestIds) :
    Sound ((inbox.effect capacity (.claim requestIds)).outcome inbox) := by
  apply sound_operation sound
  intro item member
  rcases (⟨inbox, sound.valid⟩ : SessionInbox).claim_cases requestIds.ids with
    unchanged | ⟨_, _, left⟩
  · have same := congrArg Prod.snd unchanged
    change item ∈ (SessionInbox.claim _ _).2.pending at member
    rw [same] at member
    exact sound.reloadable item member
  · exact sound.reloadable item ((left item).mp member).1

theorem sound_remove (sound : Sound inbox) (capacity : Nat) (requestId : String) :
    Sound ((inbox.effect capacity (.remove requestId)).outcome inbox) := by
  apply sound_operation sound
  intro item member
  rcases (⟨inbox, sound.valid⟩ : SessionInbox).remove_cases requestId with
    ⟨_, unchanged⟩ | ⟨_, _, _, left⟩
  · have same := congrArg Prod.snd unchanged
    change item ∈ (SessionInbox.remove _ _).2.pending at member
    rw [same] at member
    exact sound.reloadable item member
  · exact sound.reloadable item ((left item).mp member).1

theorem sound_edit (sound : Sound inbox) (capacity : Nat) (requestId content : String)
    (attachments : List (List (String × Json))) :
    Sound ((inbox.effect capacity (.edit requestId content attachments)).outcome inbox) := by
  apply sound_operation sound
  intro item member
  rcases (⟨inbox, sound.valid⟩ : SessionInbox).edit_cases requestId content
    (attachments.map Json.object) with ⟨_, unchanged⟩ | ⟨_, _, _, left⟩
  · have same := congrArg Prod.snd unchanged
    change item ∈ (SessionInbox.edit _ _ _ _).2.pending at member
    rw [same] at member
    exact sound.reloadable item member
  · rcases left item member with edited | ⟨old, _⟩
    · rw [edited]
      refine ⟨fun attachment listed => ?_, fun _ inside => absurd inside List.not_mem_nil⟩
      obtain ⟨fields, _, same⟩ := List.mem_map.mp listed
      exact ⟨fields, same.symm⟩
    · exact sound.reloadable item old

theorem sound_promote (sound : Sound inbox) (capacity : Nat) (requestId : String) :
    Sound ((inbox.effect capacity (.promote requestId)).outcome inbox) := by
  apply sound_operation sound
  intro item member
  change item ∈ (SessionInbox.promote _ _).2.pending at member
  unfold SessionInbox.promote at member
  split at member
  · exact sound.reloadable item member
  · rename_i original found
    split at member
    · exact sound.reloadable item member
    · rcases MutableInbox.mem_pending_promote.mp member with kept | promoted
      · exact sound.reloadable item (MutableInbox.mem_pending_without.mp kept).1
      · have old := sound.reloadable original (MutableInbox.find_mem found).1
        rw [promoted]
        exact ⟨old.attached, old.readable⟩

theorem Sound.call (sound : Sound inbox) (capacity : Nat) (call : InboxCall) :
    Sound ((call.effect inbox capacity).outcome inbox) := by
  cases call with
  | admitItem any target sessionExists requestSeen =>
      exact sound_admit sound capacity any target sessionExists requestSeen
  | claim requestIds => exact sound_claim sound capacity requestIds
  | remove requestId => exact sound_remove sound capacity requestId
  | edit requestId content attachments =>
      exact sound_edit sound capacity requestId content attachments
  | promote requestId => exact sound_promote sound capacity requestId

/-! ### Runs -/

/-- What happens to the inbox of a session; `written` says whether the file could be written. -/
inductive Move where
  | call (call : InboxCall) (written : Bool)
  | reload
  | deleteSession

def Repository.call (repository : Repository) (call : InboxCall) (written : Bool) : Repository :=
  match call.effect repository.memory repository.capacity with
  | .changes after validates reply => (repository.commit after validates reply written).2
  | _ => repository

def Repository.move (repository : Repository) : Move → Repository
  | .call call written => repository.call call written
  | .reload => repository.reload
  | .deleteSession =>
      { repository with
        memory := .start repository.memory.sessionId
        disk := none }

def Repository.run (repository : Repository) (moves : List Move) : Repository :=
  moves.foldl Repository.move repository

theorem Repository.call_memory (repository : Repository) (call : InboxCall) (written : Bool) :
    (repository.call call written).memory =
      (call.effect repository.memory repository.capacity).outcome repository.memory := by
  have committed : ∀ (after : MutableInbox) (validates : Bool) (reply : Reply),
      (repository.commit after validates reply written).2.memory = after := by
    intro after validates reply
    unfold Repository.commit
    dsimp only
    split
    · rfl
    · split
      · rfl
      · split <;> rfl
  unfold Repository.call
  cases call.effect repository.memory repository.capacity with
  | raises error => rfl
  | replies reply => rfl
  | changes after validates reply => exact committed after validates reply

structure Repository.Recoverable (repository : Repository) : Prop where
  memory : Sound repository.memory
  disk : repository.disk = none ∨ ∃ saved, Sound saved ∧ repository.disk = some saved.toJson

theorem Repository.commit_recoverable (recoverable : repository.Recoverable) {after : MutableInbox}
    (sound : Sound after) (validates : Bool) (reply : Reply) (written : Bool) :
    (repository.commit after validates reply written).2.Recoverable := by
  unfold Repository.commit
  dsimp only
  split
  · exact ⟨sound, recoverable.disk⟩
  · split
    · exact ⟨sound, recoverable.disk⟩
    · split
      · exact ⟨sound, Or.inr ⟨after, sound, rfl⟩⟩
      · exact ⟨sound, recoverable.disk⟩

theorem Repository.reload_recoverable (recoverable : repository.Recoverable) :
    repository.reload.Recoverable := by
  unfold Repository.reload
  rcases recoverable.disk with missing | ⟨saved, sound, stored⟩
  · rw [missing]
    exact ⟨sound_start _, Or.inl rfl⟩
  · rw [stored]
    dsimp only
    rw [MutableInbox.fromJson_reloaded sound.valid sound.reloadable, migrates_toJson]
    exact ⟨sound.reloaded, Or.inr ⟨saved, sound, rfl⟩⟩

theorem Repository.move_recoverable (recoverable : repository.Recoverable) (move : Move) :
    (repository.move move).Recoverable := by
  cases move with
  | call call written =>
      have sound := recoverable.memory.call repository.capacity call
      change (repository.call call written).Recoverable
      unfold Repository.call
      cases effect : call.effect repository.memory repository.capacity with
      | raises error => exact recoverable
      | replies reply => exact recoverable
      | changes after validates reply =>
          rw [effect] at sound
          exact commit_recoverable recoverable sound validates reply written
  | reload => exact reload_recoverable recoverable
  | deleteSession => exact ⟨sound_start _, Or.inl rfl⟩

theorem Repository.run_recoverable (recoverable : repository.Recoverable) (moves : List Move) :
    (repository.run moves).Recoverable := by
  induction moves generalizing repository with
  | nil => exact recoverable
  | cons move rest ih => exact ih (move_recoverable recoverable move)

theorem Repository.reload_memory {saved : MutableInbox} (sound : Sound saved)
    (stored : repository.disk = some saved.toJson) :
    repository.reload.memory = saved.reloaded := by
  unfold Repository.reload
  rw [stored]
  dsimp only
  rw [MutableInbox.fromJson_reloaded sound.valid sound.reloadable]

theorem Repository.effects_reload {saved : MutableInbox} (sound : Sound saved)
    (stored : repository.disk = some saved.toJson) (capacity : Nat) (later : List InboxCall) :
    (effects capacity repository.reload.memory later).map Effect.reloaded =
      (effects capacity saved later).map Effect.reloaded := by
  rw [Repository.reload_memory sound stored]
  exact effects_alike (MutableInbox.reloaded_reloaded sound.reloadable) capacity later

/-- In every state reached the file is accepted, the queues are read back reloaded, and no later
call behaves differently after a restart. -/
theorem restart_reloads (capacity : Nat) (sessionId : String) (moves : List Move)
    (later : List InboxCall) :
    let repository := (Repository.opened capacity sessionId).run moves
    MutableInbox.fromJson repository.memory.toJson = .ok repository.memory.reloaded ∧
      (repository.disk = none ∨
        ∃ saved, repository.disk = some saved.toJson ∧
          repository.disk.map MutableInbox.fromJson = some (.ok saved.reloaded) ∧
          (effects capacity repository.reload.memory later).map Effect.reloaded =
            (effects capacity saved later).map Effect.reloaded) ∧
      (effects capacity repository.memory.reloaded later).map Effect.reloaded =
        (effects capacity repository.memory later).map Effect.reloaded ∧
      (repository.disk = some repository.memory.toJson →
        (effects capacity repository.reload.memory later).map Effect.reloaded =
          (effects capacity repository.memory later).map Effect.reloaded) := by
  have recoverable : ((Repository.opened capacity sessionId).run moves).Recoverable :=
    Repository.run_recoverable ⟨sound_start sessionId, Or.inl rfl⟩ moves
  dsimp only
  have memory := recoverable.memory
  refine ⟨MutableInbox.fromJson_reloaded memory.valid memory.reloadable, ?_, ?_, ?_⟩
  · rcases recoverable.disk with missing | ⟨saved, sound, stored⟩
    · exact Or.inl missing
    · right
      refine ⟨saved, stored, ?_, Repository.effects_reload sound stored capacity later⟩
      rw [stored, Option.map_some, MutableInbox.fromJson_reloaded sound.valid sound.reloadable]
  · exact effects_alike (MutableInbox.reloaded_reloaded memory.reloadable) capacity later
  · exact fun stored => Repository.effects_reload memory stored capacity later

def agentless : AnyItem where
  item :=
    { requestId := "r"
      sequence := 0
      sessionId := "s"
      channelId := "c"
      content := "text"
      attachments := []
      source := .user
      historyMessageId := none
      messages := []
      agentId := "" }
  unnumbered := le_rfl
  reloadable :=
    { attached := fun _ member => absurd member List.not_mem_nil
      readable := fun _ member => absurd member List.not_mem_nil }

/-- An empty agent id is read back as the default one. -/
theorem agentless_read_back :
    let memory := ((Repository.opened 1 "s").run
      [.call (.admitItem agentless .nextTurn true false) true]).memory
    MutableInbox.fromJson memory.toJson ≠ .ok memory := by
  have queued : ((Repository.opened 1 "s").run
      [.call (.admitItem agentless .nextTurn true false) true]).memory =
        (MutableInbox.start "s").enqueue agentless.item .nextTurn :=
    Repository.call_memory (.opened 1 "s") (.admitItem agentless .nextTurn true false) true
  dsimp only
  rw [queued]
  have sound : Sound ((MutableInbox.start "s").enqueue agentless.item .nextTurn) :=
    sound_admit (sound_start "s") 1 agentless .nextTurn true false
  rw [MutableInbox.fromJson_reloaded sound.valid sound.reloadable]
  intro same
  have agents : ["default"] = [""] :=
    congrArg (fun inbox => inbox.nextTurn.map QueueItem.agentId) (Except.ok.inj same)
  exact absurd (List.cons.inj agents).1 (by decide)

end Ftre.Inbox
