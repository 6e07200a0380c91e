import Mathlib.Data.List.Nodup
import Ftre.Inbox.Models

/-!
The pending queues of one session. An operation holds the session's lock, so it is one step on the
two queues.
-/

namespace Ftre.Inbox

open Lib Message

structure MutableInbox where
  sessionId : String
  revision : Nat
  nextSequence : Int
  nextTurn : List QueueItem
  nextStep : List QueueItem
deriving DecidableEq

/-- A sorted queue: the order of `sort(key=sequence)`. -/
def bySequence (left right : QueueItem) : Bool := decide (left.sequence ≤ right.sequence)

namespace MutableInbox

/-- Both queues, in the order `_find` reads them. -/
def pending (inbox : MutableInbox) : List QueueItem := inbox.nextTurn ++ inbox.nextStep

def find (inbox : MutableInbox) (requestId : String) : Option QueueItem :=
  inbox.pending.find? fun item => decide (item.requestId = requestId)

/-- What `validate` checks, and that the next sequence is free. -/
structure Valid (inbox : MutableInbox) : Prop where
  distinct : (inbox.pending.map QueueItem.requestId).Nodup
  numbered : (inbox.pending.map QueueItem.sequence).Nodup
  turnOrder : inbox.nextTurn.Pairwise fun left right => bySequence left right = true
  stepOrder : inbox.nextStep.Pairwise fun left right => bySequence left right = true
  fresh : ∀ item ∈ inbox.pending, item.sequence < inbox.nextSequence

def start (sessionId : String) : MutableInbox := ⟨sessionId, 0, 1, [], []⟩

def keep (inbox : MutableInbox) (kept : QueueItem → Bool) : MutableInbox :=
  { inbox with
    revision := inbox.revision + 1
    nextTurn := inbox.nextTurn.filter kept
    nextStep := inbox.nextStep.filter kept }

def enqueue (inbox : MutableInbox) (item : QueueItem) (target : QueueTarget) : MutableInbox :=
  let queued := if item.sequence ≤ 0 then { item with sequence := inbox.nextSequence } else item
  let grown := { inbox with
    nextSequence := max inbox.nextSequence (queued.sequence + 1)
    revision := inbox.revision + 1 }
  match target with
  | .nextTurn => { grown with nextTurn := inbox.nextTurn ++ [queued] }
  | .nextStep => { grown with nextStep := inbox.nextStep ++ [queued] }

def without (inbox : MutableInbox) (requestId : String) : MutableInbox :=
  inbox.keep fun item => decide (item.requestId ≠ requestId)

def edit (inbox : MutableInbox) (requestId content : String) (attachments : List Json) :
    MutableInbox :=
  let update := fun item : QueueItem =>
    if item.requestId = requestId then item.edited content attachments else item
  { inbox with
    revision := inbox.revision + 1
    nextTurn := inbox.nextTurn.map update
    nextStep := inbox.nextStep.map update }

def promote (inbox : MutableInbox) (item : QueueItem) : MutableInbox :=
  let remaining := inbox.without item.requestId
  { remaining with nextStep := (remaining.nextStep ++ [item.promoted]).mergeSort bySequence }

variable {inbox : MutableInbox} {item : QueueItem}

variable {requestId : String}

theorem find_mem (found : inbox.find requestId = some item) :
    item ∈ inbox.pending ∧ item.requestId = requestId := by
  unfold find at found
  have accepted := List.find?_some found
  exact ⟨List.mem_of_find?_eq_some found, of_decide_eq_true accepted⟩

theorem find_eq_none :
    inbox.find requestId = none ↔ ∀ item ∈ inbox.pending, item.requestId ≠ requestId := by
  unfold find
  rw [List.find?_eq_none]
  constructor
  · intro none item member same
    exact none item member (decide_eq_true same)
  · intro different item member same
    exact different item member (of_decide_eq_true same)

theorem find_of_mem (valid : inbox.Valid) (member : item ∈ inbox.pending) :
    inbox.find item.requestId = some item := by
  cases found : inbox.find item.requestId with
  | none => exact absurd rfl (find_eq_none.mp found item member)
  | some other =>
      obtain ⟨otherMember, same⟩ := find_mem found
      have equal := List.inj_on_of_nodup_map valid.distinct otherMember member same
      rw [equal]

theorem pending_keep (inbox : MutableInbox) (kept : QueueItem → Bool) :
    (inbox.keep kept).pending = inbox.pending.filter kept :=
  (List.filter_append _ _).symm

theorem mem_pending_without :
    item ∈ (inbox.without requestId).pending ↔
      item ∈ inbox.pending ∧ item.requestId ≠ requestId := by
  unfold without
  rw [pending_keep, List.mem_filter]
  constructor
  · rintro ⟨member, different⟩
    exact ⟨member, of_decide_eq_true different⟩
  · rintro ⟨member, different⟩
    exact ⟨member, decide_eq_true different⟩

theorem mem_pending_promote {promoted item : QueueItem} :
    item ∈ (inbox.promote promoted).pending ↔
      item ∈ (inbox.without promoted.requestId).pending ∨ item = promoted.promoted := by
  unfold promote pending
  dsimp only
  rw [List.mem_append, List.mem_mergeSort, List.mem_append, List.mem_singleton, ← or_assoc,
    ← List.mem_append]

/-! ### Every operation keeps the queues valid -/

theorem valid_start (sessionId : String) : (start sessionId).Valid where
  distinct := List.nodup_nil
  numbered := List.nodup_nil
  turnOrder := List.Pairwise.nil
  stepOrder := List.Pairwise.nil
  fresh := nofun

theorem Valid.keep {inbox : MutableInbox} (valid : inbox.Valid) (kept : QueueItem → Bool) :
    (inbox.keep kept).Valid where
  distinct := by
    rw [pending_keep]
    exact (List.filter_sublist.map _).nodup valid.distinct
  numbered := by
    rw [pending_keep]
    exact (List.filter_sublist.map _).nodup valid.numbered
  turnOrder := valid.turnOrder.filter _
  stepOrder := valid.stepOrder.filter _
  fresh := by
    intro item member
    rw [pending_keep] at member
    exact valid.fresh item (List.mem_filter.mp member).1

theorem Valid.edit (valid : inbox.Valid) (requestId content : String) (attachments : List Json) :
    (inbox.edit requestId content attachments).Valid := by
  unfold MutableInbox.edit
  generalize change : (fun item : QueueItem =>
    if item.requestId = requestId then item.edited content attachments else item) = update
  have kept : ∀ item, (update item).requestId = item.requestId ∧
      (update item).sequence = item.sequence := by
    intro item
    rw [← change]
    dsimp only
    split <;> exact ⟨rfl, rfl⟩
  have ordered : ∀ items : List QueueItem,
      (items.Pairwise fun left right => bySequence left right = true) →
        (items.map update).Pairwise fun left right => bySequence left right = true := by
    intro items sorted
    rw [List.pairwise_map]
    apply sorted.imp
    intro left right before
    unfold bySequence
    rw [(kept left).2, (kept right).2]
    exact before
  constructor
  · change ((inbox.nextTurn.map update ++ inbox.nextStep.map update).map _).Nodup
    rw [← List.map_append, List.map_map]
    have same : QueueItem.requestId ∘ update = QueueItem.requestId := by
      funext item
      exact (kept item).1
    rw [same]
    exact valid.distinct
  · change ((inbox.nextTurn.map update ++ inbox.nextStep.map update).map _).Nodup
    rw [← List.map_append, List.map_map]
    have same : QueueItem.sequence ∘ update = QueueItem.sequence := by
      funext item
      exact (kept item).2
    rw [same]
    exact valid.numbered
  · exact ordered _ valid.turnOrder
  · exact ordered _ valid.stepOrder
  · intro item member
    change item ∈ inbox.nextTurn.map update ++ inbox.nextStep.map update at member
    rw [← List.map_append, List.mem_map] at member
    obtain ⟨original, present, same⟩ := member
    rw [← same, (kept original).2]
    exact valid.fresh original present

private theorem valid_of_perm {inbox after : MutableInbox} (item : QueueItem)
    (valid : inbox.Valid) (perm : after.pending.Perm (item :: inbox.pending))
    (absent : ∀ other ∈ inbox.pending, other.requestId ≠ item.requestId)
    (unused : ∀ other ∈ inbox.pending, other.sequence ≠ item.sequence)
    (turnOrder : after.nextTurn.Pairwise fun left right => bySequence left right = true)
    (stepOrder : after.nextStep.Pairwise fun left right => bySequence left right = true)
    (later : inbox.nextSequence ≤ after.nextSequence)
    (fresh : item.sequence < after.nextSequence) : after.Valid where
  distinct := by
    rw [(perm.map _).nodup_iff, List.map_cons, List.nodup_cons]
    refine ⟨?_, valid.distinct⟩
    intro member
    obtain ⟨other, present, same⟩ := List.mem_map.mp member
    exact absent other present same
  numbered := by
    rw [(perm.map _).nodup_iff, List.map_cons, List.nodup_cons]
    refine ⟨?_, valid.numbered⟩
    intro member
    obtain ⟨other, present, same⟩ := List.mem_map.mp member
    exact unused other present same
  turnOrder := turnOrder
  stepOrder := stepOrder
  fresh := by
    intro other member
    rcases List.mem_cons.mp (perm.mem_iff.mp member) with same | present
    · rw [same]
      exact fresh
    · have before := valid.fresh other present
      omega

private theorem ordered_append {items : List QueueItem}
    (sorted : items.Pairwise fun left right => bySequence left right = true)
    (last : ∀ other ∈ items, other.sequence ≤ item.sequence) :
    (items ++ [item]).Pairwise fun left right => bySequence left right = true := by
  rw [List.pairwise_append]
  refine ⟨sorted, List.pairwise_singleton _ _, ?_⟩
  intro other present added same
  rw [List.mem_singleton.mp same]
  exact decide_eq_true (last other present)

theorem Valid.enqueue (valid : inbox.Valid) (unnumbered : item.sequence ≤ 0)
    (absent : inbox.find item.requestId = none) (target : QueueTarget) :
    (inbox.enqueue item target).Valid := by
  have different := find_eq_none.mp absent
  have unused : ∀ other ∈ inbox.pending, other.sequence ≠ inbox.nextSequence := by
    intro other present same
    have before := valid.fresh other present
    omega
  have last : ∀ other ∈ inbox.pending, other.sequence ≤ inbox.nextSequence := by
    intro other present
    have before := valid.fresh other present
    omega
  unfold MutableInbox.enqueue
  rw [if_pos unnumbered]
  cases target with
  | nextTurn =>
      apply valid_of_perm { item with sequence := inbox.nextSequence } valid
      · change (inbox.nextTurn ++ [_] ++ inbox.nextStep).Perm _
        rw [List.append_assoc]
        exact List.perm_middle
      · exact different
      · exact unused
      · apply ordered_append valid.turnOrder
        intro other present
        exact last other (List.mem_append_left _ present)
      · exact valid.stepOrder
      · exact le_max_left _ _
      · exact Int.lt_of_lt_of_le (Int.lt_succ _) (le_max_right _ _)
  | nextStep =>
      apply valid_of_perm { item with sequence := inbox.nextSequence } valid
      · change (inbox.nextTurn ++ (inbox.nextStep ++ [_])).Perm _
        rw [← List.append_assoc]
        exact List.perm_append_singleton _ _
      · exact different
      · exact unused
      · exact valid.turnOrder
      · apply ordered_append valid.stepOrder
        intro other present
        exact last other (List.mem_append_right _ present)
      · exact le_max_left _ _
      · exact Int.lt_of_lt_of_le (Int.lt_succ _) (le_max_right _ _)

theorem Valid.promote (valid : inbox.Valid) (present : item ∈ inbox.pending) :
    (inbox.promote item).Valid := by
  apply valid_of_perm item.promoted (valid.keep _)
  · change (_ ++ List.mergeSort _ _).Perm _
    apply ((List.mergeSort_perm _ _).append_left _).trans
    rw [← List.append_assoc]
    exact List.perm_append_singleton _ _
  · intro other member
    exact (mem_pending_without.mp member).2
  · intro other member same
    obtain ⟨otherPresent, different⟩ := mem_pending_without.mp member
    have equal := List.inj_on_of_nodup_map valid.numbered otherPresent present same
    exact different (congrArg QueueItem.requestId equal)
  · exact valid.turnOrder.filter _
  · apply List.pairwise_mergeSort
    · intro first second third left right
      have before := of_decide_eq_true left
      have after := of_decide_eq_true right
      exact decide_eq_true (le_trans before after)
    · intro first second
      rcases le_total first.sequence second.sequence with before | after
      · exact Bool.or_eq_true_iff.mpr (Or.inl (decide_eq_true before))
      · exact Bool.or_eq_true_iff.mpr (Or.inr (decide_eq_true after))
  · exact le_rfl
  · exact valid.fresh item present

theorem mem_enqueue {inbox : MutableInbox} {item other : QueueItem} {target : QueueTarget}
    (member : other ∈ (inbox.enqueue item target).pending) :
    other ∈ inbox.pending ∨ ∃ sequence, other = { item with sequence := sequence } := by
  have queued : ∃ sequence, (if item.sequence ≤ 0 then
      { item with sequence := inbox.nextSequence } else item) =
        { item with sequence := sequence } := by
    split
    · exact ⟨_, rfl⟩
    · exact ⟨item.sequence, rfl⟩
  obtain ⟨sequence, same⟩ := queued
  unfold MutableInbox.enqueue MutableInbox.pending at member
  dsimp only at member
  rw [same] at member
  cases target with
  | nextTurn =>
      rcases List.mem_append.mp member with turn | step
      · rcases List.mem_append.mp turn with old | own
        · exact Or.inl (List.mem_append_left _ old)
        · exact Or.inr ⟨sequence, List.mem_singleton.mp own⟩
      · exact Or.inl (List.mem_append_right _ step)
  | nextStep =>
      rcases List.mem_append.mp member with turn | step
      · exact Or.inl (List.mem_append_left _ turn)
      · rcases List.mem_append.mp step with old | own
        · exact Or.inl (List.mem_append_right _ old)
        · exact Or.inr ⟨sequence, List.mem_singleton.mp own⟩

end MutableInbox

/-- The queues of a session, always valid. -/
structure SessionInbox where
  queues : MutableInbox
  valid : queues.Valid

/-- An item as `_item_from_message` makes it, with no sequence yet. -/
structure Submission where
  item : QueueItem
  unnumbered : item.sequence ≤ 0

inductive Admission where
  | created
  | duplicate
  | full
  | sessionNotFound
deriving DecidableEq, Repr

namespace SessionInbox

@[ext] theorem ext_queues {left right : SessionInbox} (same : left.queues = right.queues) :
    left = right := by
  cases left
  cases right
  cases same
  rfl

instance : DecidableEq SessionInbox := fun left right =>
  decidable_of_iff (left.queues = right.queues) ⟨ext_queues, fun same => same ▸ rfl⟩

def start (sessionId : String) : SessionInbox := ⟨.start sessionId, MutableInbox.valid_start sessionId⟩

def pending (inbox : SessionInbox) : List QueueItem := inbox.queues.pending

def find (inbox : SessionInbox) (requestId : String) : Option QueueItem := inbox.queues.find requestId

/-- `admit`; `sessionExists` and `requestSeen` are what the repository's callbacks answer. -/
def admitItem (inbox : SessionInbox) (capacity : Nat) (submission : Submission) (target : QueueTarget)
    (sessionExists requestSeen : Bool) : Admission × SessionInbox :=
  if !sessionExists then (.sessionNotFound, inbox)
  else
    match absent : inbox.queues.find submission.item.requestId with
    | some _ => (.duplicate, inbox)
    | none =>
        if requestSeen then (.duplicate, inbox)
        else if capacity ≤ inbox.pending.length then (.full, inbox)
        else
          (.created, ⟨inbox.queues.enqueue submission.item target,
            inbox.valid.enqueue submission.unnumbered absent target⟩)

/-- `claim`: all of the requested items leave the queues, or none does. -/
def claim (inbox : SessionInbox) (requestIds : List String) : List QueueItem × SessionInbox :=
  if requestIds.isEmpty || requestIds.any fun requestId => (inbox.find requestId).isNone then
    ([], inbox)
  else
    (requestIds.filterMap inbox.find,
      ⟨inbox.queues.keep fun item => decide (item.requestId ∉ requestIds), inbox.valid.keep _⟩)

/-- `remove`: the item removed, if it is pending. -/
def remove (inbox : SessionInbox) (requestId : String) : Option QueueItem × SessionInbox :=
  match inbox.find requestId with
  | none => (none, inbox)
  | some item => (some item, ⟨inbox.queues.without requestId, inbox.valid.keep _⟩)

/-- `edit`: the item as edited, if it is pending. -/
def edit (inbox : SessionInbox) (requestId content : String) (attachments : List Json) :
    Option QueueItem × SessionInbox :=
  match inbox.find requestId with
  | none => (none, inbox)
  | some item =>
      (some (item.edited content attachments),
        ⟨inbox.queues.edit requestId content attachments,
          inbox.valid.edit requestId content attachments⟩)

/-- `promote`: an item of the step queue stays as it is. -/
def promote (inbox : SessionInbox) (requestId : String) : Option QueueItem × SessionInbox :=
  match found : inbox.queues.find requestId with
  | none => (none, inbox)
  | some item =>
      if item ∈ inbox.queues.nextStep then (some item, inbox)
      else
        (some item.promoted, ⟨inbox.queues.promote item,
          inbox.valid.promote (MutableInbox.find_mem found).1⟩)

/-! ### What an operation leaves pending -/

variable {inbox : SessionInbox} {item : QueueItem}

theorem find_mem {requestId : String} (found : inbox.find requestId = some item) :
    item ∈ inbox.pending ∧ item.requestId = requestId :=
  MutableInbox.find_mem found

theorem find_of_mem (member : item ∈ inbox.pending) : inbox.find item.requestId = some item :=
  MutableInbox.find_of_mem inbox.valid member

theorem admit_cases (inbox : SessionInbox) (capacity : Nat) (submission : Submission)
    (target : QueueTarget) (sessionExists requestSeen : Bool) :
    ((inbox.admitItem capacity submission target sessionExists requestSeen).1 ≠ .created ∧
      (inbox.admitItem capacity submission target sessionExists requestSeen).2 = inbox) ∨
    ((inbox.admitItem capacity submission target sessionExists requestSeen).1 = .created ∧
      inbox.find submission.item.requestId = none ∧
      ∀ item ∈ (inbox.admitItem capacity submission target sessionExists requestSeen).2.pending,
        item ∈ inbox.pending ∨
          ∃ sequence, item = { submission.item with sequence := sequence }) := by
  unfold admitItem
  cases sessionExists with
  | false => exact Or.inl ⟨nofun, rfl⟩
  | true =>
      rw [if_neg (by decide)]
      split
      · exact Or.inl ⟨nofun, rfl⟩
      · rename_i absent
        cases requestSeen with
        | true => exact Or.inl ⟨nofun, rfl⟩
        | false =>
            rw [if_neg (by decide)]
            by_cases full : capacity ≤ inbox.pending.length
            · rw [if_pos full]
              exact Or.inl ⟨nofun, rfl⟩
            · rw [if_neg full]
              right
              exact ⟨rfl, absent, fun item member => MutableInbox.mem_enqueue member⟩

theorem claim_cases (inbox : SessionInbox) (requestIds : List String) :
    inbox.claim requestIds = ([], inbox) ∨
    ((∀ requestId ∈ requestIds, ∃ item ∈ (inbox.claim requestIds).1, item.requestId = requestId) ∧
      (∀ item ∈ (inbox.claim requestIds).1, item ∈ inbox.pending ∧ item.requestId ∈ requestIds) ∧
      ∀ item, item ∈ (inbox.claim requestIds).2.pending ↔
        item ∈ inbox.pending ∧ item.requestId ∉ requestIds) := by
  unfold claim
  split
  · exact Or.inl rfl
  · rename_i complete
    right
    rw [Bool.or_eq_true_iff, not_or, List.any_eq_true] at complete
    refine ⟨?_, ?_, ?_⟩
    · intro requestId wanted
      cases found : inbox.find requestId with
      | none => exact absurd ⟨requestId, wanted, Option.isNone_iff_eq_none.mpr found⟩ complete.2
      | some item =>
          exact ⟨item, List.mem_filterMap.mpr ⟨requestId, wanted, found⟩, (find_mem found).2⟩
    · intro item member
      obtain ⟨requestId, wanted, found⟩ := List.mem_filterMap.mp member
      obtain ⟨present, same⟩ := find_mem found
      rw [same]
      exact ⟨present, wanted⟩
    · intro item
      change item ∈ (inbox.queues.keep _).pending ↔ _
      rw [MutableInbox.pending_keep, List.mem_filter, decide_eq_true_iff]
      rfl

theorem remove_cases (inbox : SessionInbox) (requestId : String) :
    (inbox.find requestId = none ∧ inbox.remove requestId = (none, inbox)) ∨
    ∃ item, inbox.find requestId = some item ∧ (inbox.remove requestId).1 = some item ∧
      ∀ other, other ∈ (inbox.remove requestId).2.pending ↔
        other ∈ inbox.pending ∧ other.requestId ≠ requestId := by
  unfold remove
  cases found : inbox.find requestId with
  | none => exact Or.inl ⟨rfl, rfl⟩
  | some item =>
      right
      refine ⟨item, rfl, rfl, ?_⟩
      intro other
      exact MutableInbox.mem_pending_without

theorem edit_cases (inbox : SessionInbox) (requestId content : String) (attachments : List Json) :
    (inbox.find requestId = none ∧ inbox.edit requestId content attachments = (none, inbox)) ∨
    ∃ item, inbox.find requestId = some item ∧
      item.edited content attachments ∈ (inbox.edit requestId content attachments).2.pending ∧
      ∀ other ∈ (inbox.edit requestId content attachments).2.pending,
        other = item.edited content attachments ∨
          other ∈ inbox.pending ∧ other.requestId ≠ requestId := by
  unfold edit
  cases found : inbox.find requestId with
  | none => exact Or.inl ⟨rfl, rfl⟩
  | some item =>
      right
      obtain ⟨present, same⟩ := find_mem found
      have pendingEq : (inbox.queues.edit requestId content attachments).pending =
          inbox.pending.map fun item =>
            if item.requestId = requestId then item.edited content attachments else item :=
        List.map_append.symm
      refine ⟨item, rfl, ?_, ?_⟩
      · change _ ∈ (inbox.queues.edit requestId content attachments).pending
        rw [pendingEq, List.mem_map]
        exact ⟨item, present, if_pos same⟩
      · intro other member
        change other ∈ (inbox.queues.edit requestId content attachments).pending at member
        rw [pendingEq, List.mem_map] at member
        obtain ⟨original, originalPresent, changed⟩ := member
        by_cases edited : original.requestId = requestId
        · rw [if_pos edited] at changed
          have equal := find_of_mem originalPresent
          rw [edited, found] at equal
          rw [← changed, Option.some.inj equal]
          exact Or.inl rfl
        · rw [if_neg edited] at changed
          rw [← changed]
          exact Or.inr ⟨originalPresent, edited⟩

theorem promote_pending (inbox : SessionInbox) (requestId : String)
    (member : item ∈ (inbox.promote requestId).2.pending) :
    ∃ original ∈ inbox.pending, original.requestId = item.requestId ∧
      original.content = item.content := by
  unfold promote at member
  split at member
  · exact ⟨item, member, rfl, rfl⟩
  · rename_i original found
    split at member
    · exact ⟨item, member, rfl, rfl⟩
    · rcases MutableInbox.mem_pending_promote.mp member with kept | promoted
      · exact ⟨item, (MutableInbox.mem_pending_without.mp kept).1, rfl, rfl⟩
      · rw [promoted]
        exact ⟨original, (MutableInbox.find_mem found).1, rfl, rfl⟩

end SessionInbox

end Ftre.Inbox
