import Ftre.Lib.IndexedList
import Ftre.Inbox.Document

/-!
The operations of the inbox repository as they change the cached queues: an item is found by its
queue and index and popped or replaced there, and the state is checked and written afterwards.
-/

namespace Ftre.Inbox

open Lib Message

/-- Where `_find` sees an item. -/
structure Hit where
  target : QueueTarget
  index : Nat
  item : QueueItem
deriving DecidableEq

inductive RepositoryError where
  | sessionMissing (sessionId : String)
  | full (capacity : Nat)
  | invalid (message : String)
  | illegalSession (sessionId : String)
  | writeFailed
deriving DecidableEq, Repr

inductive Reply where
  | admitted (created : Bool) (position : Nat)
  | claimed (items : List QueueItem)
  | item (found : Option QueueItem)
deriving DecidableEq

/-- What an operation does before it commits. -/
inductive Effect where
  | raises (error : RepositoryError)
  | replies (reply : Reply)
  /-- The cached state is changed; it is then checked, if the operation checks
  it, and written. -/
  | changes (after : MutableInbox) (validates : Bool) (reply : Reply)

structure BuiltItem where
  item : QueueItem
  unnumbered : item.sequence = 0
  storable : item.Storable

def BuiltItem.submission (built : BuiltItem) : Submission := ⟨built.item, built.unnumbered.le⟩

structure RequestIds where
  ids : List String
  distinct : ids.Nodup

inductive Operation where
  | admitItem (built : BuiltItem) (target : QueueTarget) (sessionExists requestSeen : Bool)
  | claim (requestIds : RequestIds)
  | remove (requestId : String)
  | edit (requestId content : String) (attachments : List (List (String × Json)))
  | promote (requestId : String)

namespace MutableInbox

def queue (inbox : MutableInbox) : QueueTarget → List QueueItem
  | .nextTurn => inbox.nextTurn
  | .nextStep => inbox.nextStep

def withQueue (inbox : MutableInbox) (items : List QueueItem) : QueueTarget → MutableInbox
  | .nextTurn => { inbox with nextTurn := items }
  | .nextStep => { inbox with nextStep := items }

def revised (inbox : MutableInbox) : MutableInbox := { inbox with revision := inbox.revision + 1 }

def findIn (items : List QueueItem) (requestId : String) : Option (QueueItem × Nat) :=
  items.zipIdx.find? fun entry => decide (entry.1.requestId = requestId)

/-- `_find`. -/
def locate (inbox : MutableInbox) (requestId : String) : Option Hit :=
  match findIn inbox.nextTurn requestId with
  | some (item, index) => some ⟨.nextTurn, index, item⟩
  | none => (findIn inbox.nextStep requestId).map fun (item, index) => ⟨.nextStep, index, item⟩

def pop (inbox : MutableInbox) (hit : Hit) : MutableInbox :=
  inbox.withQueue ((inbox.queue hit.target).eraseIdx hit.index) hit.target

/-- `items[index] = item`. -/
def put (inbox : MutableInbox) (hit : Hit) (item : QueueItem) : MutableInbox :=
  inbox.withQueue ((inbox.queue hit.target).set hit.index item) hit.target

def popAll (inbox : MutableInbox) (hits : List Hit) : MutableInbox :=
  (hits.mergeSort fun left right => decide (right.index ≤ left.index)).foldl pop inbox

def admitItem (inbox : MutableInbox) (capacity : Nat) (item : QueueItem) (target : QueueTarget)
    (sessionExists requestSeen : Bool) : Effect :=
  if !sessionExists then .raises (.sessionMissing item.sessionId)
  else
    match inbox.locate item.requestId with
    | some existing => .replies (.admitted false (existing.index + 1))
    | none =>
        if requestSeen then .replies (.admitted false 0)
        else if capacity ≤ inbox.nextTurn.length + inbox.nextStep.length then
          .raises (.full capacity)
        else
          let after := inbox.enqueue item target
          .changes after true (.admitted true (after.nextTurn.length + after.nextStep.length))

def claim (inbox : MutableInbox) (requestIds : List String) : Effect :=
  if requestIds.isEmpty then .replies (.claimed [])
  else
    match requestIds.mapM inbox.locate with
    | none => .replies (.claimed [])
    | some hits => .changes (inbox.popAll hits).revised true (.claimed (hits.map Hit.item))

def remove (inbox : MutableInbox) (requestId : String) : Effect :=
  match inbox.locate requestId with
  | none => .replies (.item none)
  | some hit => .changes (inbox.pop hit).revised false (.item (some hit.item))

def replace (inbox : MutableInbox) (requestId content : String)
    (attachments : List (List (String × Json))) : Effect :=
  match inbox.locate requestId with
  | none => .replies (.item none)
  | some hit =>
      let item := hit.item.edited content (attachments.map Json.object)
      .changes (inbox.put hit item).revised false (.item (some item))

def advance (inbox : MutableInbox) (requestId : String) : Effect :=
  match inbox.locate requestId with
  | none => .replies (.item none)
  | some hit =>
      match hit.target with
      | .nextStep => .replies (.item (some hit.item))
      | .nextTurn =>
          let popped := inbox.pop hit
          let item := hit.item.promoted
          .changes { popped with
            nextStep := (popped.nextStep ++ [item]).mergeSort bySequence }.revised true
            (.item (some item))

def effect (inbox : MutableInbox) (capacity : Nat) : Operation → Effect
  | .admitItem built target sessionExists requestSeen =>
      inbox.admitItem capacity built.item target sessionExists requestSeen
  | .claim requestIds => inbox.claim requestIds.ids
  | .remove requestId => inbox.remove requestId
  | .edit requestId content attachments => inbox.replace requestId content attachments
  | .promote requestId => inbox.advance requestId

variable {items : List QueueItem} {requestId : String} {inbox : MutableInbox} {item : QueueItem}
  {requestIds : List String} {capacity : Nat}

theorem findIn_some {entry : QueueItem × Nat} (found : findIn items requestId = some entry) :
    items[entry.2]? = some entry.1 ∧ entry.1.requestId = requestId := by
  unfold findIn at found
  have accepted := List.find?_some found
  exact ⟨List.mem_zipIdx_iff_getElem?.mp (List.mem_of_find?_eq_some found),
    of_decide_eq_true accepted⟩

theorem findIn_none :
    findIn items requestId = none ↔ ∀ item ∈ items, item.requestId ≠ requestId := by
  unfold findIn
  rw [List.find?_eq_none]
  constructor
  · intro none item member same
    obtain ⟨index, found⟩ := List.mem_iff_getElem?.mp member
    exact none (item, index) (List.mem_zipIdx_iff_getElem?.mpr found) (decide_eq_true same)
  · intro different entry member accepted
    exact different entry.1 (List.fst_mem_of_mem_zipIdx member) (of_decide_eq_true accepted)

theorem locate_some {hit : Hit} (found : inbox.locate requestId = some hit) :
    (inbox.queue hit.target)[hit.index]? = some hit.item ∧ hit.item.requestId = requestId := by
  unfold locate at found
  split at found
  · rename_i item index turn
    rw [← Option.some.inj found]
    exact findIn_some turn
  · obtain ⟨entry, step, same⟩ := Option.map_eq_some_iff.mp found
    rw [← same]
    exact findIn_some step

theorem queue_subset_pending (inbox : MutableInbox) (target : QueueTarget) :
    inbox.queue target ⊆ inbox.pending := by
  cases target with
  | nextTurn => exact List.subset_append_left _ _
  | nextStep => exact List.subset_append_right _ _

theorem locate_none : inbox.locate requestId = none ↔ inbox.find requestId = none := by
  rw [find_eq_none]
  unfold locate
  constructor
  · intro missing
    split at missing
    · cases missing
    · rename_i turn
      have step := Option.map_eq_none_iff.mp missing
      intro item member
      rcases List.mem_append.mp member with inTurn | inStep
      · exact findIn_none.mp turn item inTurn
      · exact findIn_none.mp step item inStep
  · intro absent
    rw [findIn_none.mpr fun item member => absent item (List.mem_append_left _ member),
      findIn_none.mpr fun item member => absent item (List.mem_append_right _ member)]
    rfl

theorem find_of_locate {inbox : MutableInbox} (valid : inbox.Valid) {requestId : String} {hit : Hit}
    (found : inbox.locate requestId = some hit) : inbox.find requestId = some hit.item := by
  obtain ⟨at_index, same⟩ := locate_some found
  have member := queue_subset_pending inbox hit.target (List.mem_of_getElem? at_index)
  rw [← same]
  exact find_of_mem valid member

/-! ### Changes at an index -/

def restrict (inbox : MutableInbox) (kept : QueueItem → Bool) : MutableInbox :=
  { inbox with nextTurn := inbox.nextTurn.filter kept, nextStep := inbox.nextStep.filter kept }

theorem restrict_restrict (inbox : MutableInbox) (first second : QueueItem → Bool) :
    (inbox.restrict first).restrict second = inbox.restrict fun item => second item && first item := by
  unfold restrict
  dsimp only
  rw [List.filter_filter, List.filter_filter]

theorem pending_restrict (inbox : MutableInbox) (kept : QueueItem → Bool) :
    (inbox.restrict kept).pending = inbox.pending.filter kept :=
  (List.filter_append _ _).symm

private theorem filter_absent (absent : requestId ∉ items.map QueueItem.requestId) :
    (items.filter fun item => decide (item.requestId ≠ requestId)) = items := by
  rw [List.filter_eq_self]
  intro item member
  apply decide_eq_true
  intro same
  exact absent (same ▸ List.mem_map_of_mem member)

private theorem absent_elsewhere (distinct : (inbox.pending.map QueueItem.requestId).Nodup) :
    (item ∈ inbox.nextTurn → item.requestId ∉ inbox.nextStep.map QueueItem.requestId) ∧
      (item ∈ inbox.nextStep → item.requestId ∉ inbox.nextTurn.map QueueItem.requestId) := by
  unfold pending at distinct
  rw [List.map_append] at distinct
  obtain ⟨_, _, disjoint⟩ := List.nodup_append.mp distinct
  constructor
  · intro turn step
    exact disjoint _ (List.mem_map_of_mem turn) _ step rfl
  · intro step turn
    exact disjoint _ turn _ (List.mem_map_of_mem step) rfl

theorem queue_distinct (distinct : (inbox.pending.map QueueItem.requestId).Nodup)
    (target : QueueTarget) : ((inbox.queue target).map QueueItem.requestId).Nodup := by
  unfold pending at distinct
  rw [List.map_append] at distinct
  cases target with
  | nextTurn => exact (List.nodup_append.mp distinct).1
  | nextStep => exact (List.nodup_append.mp distinct).2.1

theorem pop_eq_restrict (distinct : (inbox.pending.map QueueItem.requestId).Nodup) {hit : Hit}
    (present : (inbox.queue hit.target)[hit.index]? = some hit.item) :
    inbox.pop hit =
      inbox.restrict fun item => decide (item.requestId ≠ hit.item.requestId) := by
  have erased := eraseIdx_eq_filter QueueItem.requestId (queue_distinct distinct hit.target) present
  have member := List.mem_of_getElem? present
  unfold pop
  rw [erased]
  cases place : hit.target with
  | nextTurn =>
      rw [place] at member
      unfold withQueue restrict queue
      dsimp only
      rw [filter_absent ((absent_elsewhere distinct).1 member)]
  | nextStep =>
      rw [place] at member
      unfold withQueue restrict queue
      dsimp only
      rw [filter_absent ((absent_elsewhere distinct).2 member)]

theorem queue_withQueue (inbox : MutableInbox) (items : List QueueItem)
    (changed target : QueueTarget) :
    (inbox.withQueue items changed).queue target =
      if target = changed then items else inbox.queue target := by
  cases changed <;> cases target <;> rfl

private theorem hit_after_pop {inbox : MutableInbox} {popped other : Hit}
    (present : (inbox.queue other.target)[other.index]? = some other.item)
    (poppedPresent : (inbox.queue popped.target)[popped.index]? = some popped.item)
    (different : other.item.requestId ≠ popped.item.requestId)
    (before : other.index ≤ popped.index) :
    ((inbox.pop popped).queue other.target)[other.index]? = some other.item := by
  unfold pop
  rw [queue_withQueue]
  by_cases same : other.target = popped.target
  · rw [if_pos same]
    rw [same] at present
    apply getElem?_eraseIdx_of_before present
    apply lt_of_le_of_ne before
    intro equal
    rw [equal, poppedPresent] at present
    exact different (congrArg QueueItem.requestId (Option.some.inj present).symm)
  · rw [if_neg same]
    exact present

theorem foldl_pop (hits : List Hit) (distinct : (inbox.pending.map QueueItem.requestId).Nodup)
    (present : ∀ hit ∈ hits, (inbox.queue hit.target)[hit.index]? = some hit.item)
    (ids : (hits.map fun hit => hit.item.requestId).Nodup)
    (descending : hits.Pairwise fun left right => right.index ≤ left.index) :
    hits.foldl pop inbox = inbox.restrict fun item =>
      decide (item.requestId ∉ hits.map fun hit => hit.item.requestId) := by
  induction hits generalizing inbox with
  | nil =>
      have all : ∀ items : List QueueItem, (items.filter fun item =>
          decide (item.requestId ∉ [].map fun hit : Hit => hit.item.requestId)) = items := by
        intro items
        rw [List.filter_eq_self]
        exact fun _ _ => rfl
      unfold restrict
      rw [List.foldl_nil, all, all]
  | cons first rest ih =>
      obtain ⟨fresh, restIds⟩ := List.nodup_cons.mp ids
      obtain ⟨largest, restDescending⟩ := List.pairwise_cons.mp descending
      have firstPresent := present first List.mem_cons_self
      have popped := pop_eq_restrict distinct firstPresent
      have stillDistinct : ((inbox.pop first).pending.map QueueItem.requestId).Nodup := by
        rw [popped, pending_restrict]
        exact (List.filter_sublist.map _).nodup distinct
      have stillPresent : ∀ hit ∈ rest,
          ((inbox.pop first).queue hit.target)[hit.index]? = some hit.item := by
        intro hit member
        apply hit_after_pop (present hit (List.mem_cons_of_mem _ member)) firstPresent
        · intro same
          exact fresh (List.mem_map.mpr ⟨hit, member, same⟩)
        · exact largest hit member
      rw [List.foldl_cons, ih stillDistinct stillPresent restIds restDescending, popped,
        restrict_restrict]
      congr 1
      funext item
      rw [List.map_cons, ← Bool.decide_and]
      apply decide_eq_decide.mpr
      rw [List.mem_cons, not_or, and_comm]

theorem mapM_locate {hits : List Hit} (found : requestIds.mapM inbox.locate = some hits) :
    (hits.map fun hit => hit.item.requestId) = requestIds ∧
      (∀ hit ∈ hits, inbox.locate hit.item.requestId = some hit) := by
  induction requestIds generalizing hits with
  | nil =>
      cases found
      exact ⟨rfl, nofun⟩
  | cons requestId rest ih =>
      rw [List.mapM_cons] at found
      obtain ⟨hit, located, remaining⟩ := Option.bind_eq_some_iff.mp found
      obtain ⟨others, restFound, same⟩ := Option.bind_eq_some_iff.mp remaining
      cases same
      obtain ⟨ids, each⟩ := ih restFound
      have own := (locate_some located).2
      constructor
      · rw [List.map_cons, ids, own]
      · intro other member
        rcases List.mem_cons.mp member with first | later
        · rw [first, own]
          exact located
        · exact each other later

theorem mapM_locate_none (missing : requestIds.mapM inbox.locate = none) :
    ∃ requestId ∈ requestIds, inbox.find requestId = none := by
  induction requestIds with
  | nil => cases missing
  | cons requestId rest ih =>
      rw [List.mapM_cons] at missing
      cases located : inbox.locate requestId with
      | none => exact ⟨requestId, List.mem_cons_self, locate_none.mp located⟩
      | some hit =>
          rw [located] at missing
          cases later : rest.mapM inbox.locate with
          | none =>
              obtain ⟨absent, listed, none⟩ := ih later
              exact ⟨absent, List.mem_cons_of_mem _ listed, none⟩
          | some hits =>
              rw [later] at missing
              cases missing

theorem popAll_eq_restrict (valid : inbox.Valid) (distinct : requestIds.Nodup) {hits : List Hit}
    (found : requestIds.mapM inbox.locate = some hits) :
    inbox.popAll hits =
      inbox.restrict fun item => decide (item.requestId ∉ requestIds) := by
  obtain ⟨ids, each⟩ := mapM_locate found
  let order := fun left right : Hit => decide (right.index ≤ left.index)
  have perm : (hits.mergeSort order).Perm hits := List.mergeSort_perm hits order
  have present : ∀ hit ∈ hits.mergeSort order,
      (inbox.queue hit.target)[hit.index]? = some hit.item := by
    intro hit member
    exact (locate_some (each hit (perm.mem_iff.mp member))).1
  have sortedIds : ((hits.mergeSort order).map fun hit => hit.item.requestId).Nodup := by
    rw [(perm.map _).nodup_iff, ids]
    exact distinct
  have descending : (hits.mergeSort order).Pairwise fun left right =>
      right.index ≤ left.index := by
    have sorted : (hits.mergeSort order).Pairwise fun left right => order left right = true := by
      apply List.pairwise_mergeSort
      · intro first second third left right
        have before := of_decide_eq_true left
        have after := of_decide_eq_true right
        exact decide_eq_true (le_trans after before)
      · intro first second
        rcases le_total first.index second.index with before | after
        · exact Bool.or_eq_true_iff.mpr (Or.inr (decide_eq_true before))
        · exact Bool.or_eq_true_iff.mpr (Or.inl (decide_eq_true after))
    exact sorted.imp of_decide_eq_true
  unfold popAll
  rw [foldl_pop _ valid.distinct present sortedIds descending]
  congr 1
  funext item
  apply decide_eq_decide.mpr
  rw [(perm.map _).mem_iff, ids]

theorem put_eq_edit (valid : inbox.Valid) {hit : Hit} (content : String) (attachments : List Json)
    (present : (inbox.queue hit.target)[hit.index]? = some hit.item) :
    (inbox.put hit (hit.item.edited content attachments)).revised =
      inbox.edit hit.item.requestId content attachments := by
  have member := List.mem_of_getElem? present
  have replaced := set_eq_map QueueItem.requestId (queue_distinct valid.distinct hit.target) present
    fun item => item.edited content attachments
  have unchanged : ∀ items : List QueueItem,
      hit.item.requestId ∉ items.map QueueItem.requestId →
        (items.map fun item =>
          if item.requestId = hit.item.requestId then item.edited content attachments
          else item) = items := by
    intro items absent
    have each : ∀ item ∈ items,
        (if item.requestId = hit.item.requestId then item.edited content attachments else item) =
          item := by
      intro item inItems
      apply if_neg
      intro same
      exact absent (same ▸ List.mem_map_of_mem inItems)
    rw [List.map_congr_left each, List.map_id']
  unfold put
  rw [replaced]
  cases place : hit.target with
  | nextTurn =>
      rw [place] at member
      unfold withQueue revised edit queue
      dsimp only
      rw [unchanged _ ((absent_elsewhere valid.distinct).1 member)]
  | nextStep =>
      rw [place] at member
      unfold withQueue revised edit queue
      dsimp only
      rw [unchanged _ ((absent_elsewhere valid.distinct).2 member)]

/-! ### What an operation changes -/

def entering (inbox : MutableInbox) : Operation → Reply → List (String × Int)
  | .admitItem built _ _ _, .admitted true _ => [(built.item.requestId, inbox.nextSequence)]
  | _, _ => []

def claimedBy : Operation → Reply → List QueueItem
  | .claim _, .claimed items => items
  | _, _ => []

def removedBy : Operation → Reply → List QueueItem
  | .remove _, .item (some item) => [item]
  | _, _ => []

def leaving (operation : Operation) (reply : Reply) : List QueueItem :=
  claimedBy operation reply ++ removedBy operation reply

def alters (inbox : MutableInbox) (capacity : Nat) : Operation → Bool
  | .admitItem built _ sessionExists requestSeen =>
      sessionExists && (inbox.find built.item.requestId).isNone && !requestSeen &&
        decide (inbox.pending.length < capacity)
  | .claim requestIds =>
      !requestIds.ids.isEmpty && requestIds.ids.all fun id => (inbox.find id).isSome
  | .remove requestId => (inbox.find requestId).isSome
  | .edit requestId _ _ => (inbox.find requestId).isSome
  | .promote requestId => inbox.nextTurn.any fun item => decide (item.requestId = requestId)

theorem locate_isSome (inbox : MutableInbox) (requestId : String) :
    (inbox.locate requestId).isSome = (inbox.find requestId).isSome := by
  rw [Bool.eq_iff_iff, Option.isSome_iff_ne_none, Option.isSome_iff_ne_none]
  exact not_congr locate_none

inductive Outcome (inbox : MutableInbox) (capacity : Nat) (operation : Operation) : Prop where
  | changed (alters : inbox.alters capacity operation = true) (after : MutableInbox)
      (validates : Bool) (reply : Reply)
      (same : inbox.effect capacity operation = .changes after validates reply)
  | answered (idle : inbox.alters capacity operation = false) (reply : Reply)
      (same : inbox.effect capacity operation = .replies reply)
      (silent : inbox.entering operation reply = [] ∧ leaving operation reply = [])
  | raised (idle : inbox.alters capacity operation = false) (error : RepositoryError)
      (same : inbox.effect capacity operation = .raises error)

theorem effect_outcome (inbox : MutableInbox) (capacity : Nat) (operation : Operation) :
    inbox.Outcome capacity operation := by
  cases operation with
  | admitItem built target sessionExists requestSeen =>
      have size : inbox.pending.length = inbox.nextTurn.length + inbox.nextStep.length :=
        List.length_append
      cases sessionExists with
      | false => exact .raised rfl _ rfl
      | true =>
          cases located : inbox.locate built.item.requestId with
          | some existing =>
              have present : (inbox.find built.item.requestId).isNone = false := by
                rw [← Option.not_isSome, ← locate_isSome, located]
                rfl
              apply Outcome.answered _ (.admitted false (existing.index + 1))
              · change inbox.admitItem capacity built.item target true requestSeen = _
                unfold admitItem
                rw [located]
                rfl
              · exact ⟨rfl, rfl⟩
              · dsimp only [alters]
                rw [present]
                rfl
          | none =>
              have absent := locate_none.mp located
              cases requestSeen with
              | true =>
                  apply Outcome.answered _ (.admitted false 0)
                  · change inbox.admitItem capacity built.item target true true = _
                    unfold admitItem
                    rw [located]
                    rfl
                  · exact ⟨rfl, rfl⟩
                  · dsimp only [alters]
                    rw [absent]
                    rfl
              | false =>
                  by_cases full : capacity ≤ inbox.nextTurn.length + inbox.nextStep.length
                  · apply Outcome.raised _ (.full capacity)
                    · change inbox.admitItem capacity built.item target true false = _
                      unfold admitItem
                      rw [located]
                      exact if_pos full
                    · dsimp only [alters]
                      rw [size, decide_eq_false (Nat.not_lt.mpr full), Bool.and_false]
                  · apply Outcome.changed
                    case same =>
                      change inbox.admitItem capacity built.item target true false = _
                      unfold admitItem
                      rw [located]
                      exact if_neg full
                    case alters =>
                      dsimp only [alters]
                      rw [absent, size, decide_eq_true (Nat.not_le.mp full)]
                      rfl
  | claim requestIds =>
      cases empty : requestIds.ids.isEmpty with
      | true =>
          apply Outcome.answered _ (.claimed [])
          · change inbox.claim requestIds.ids = _
            unfold claim
            rw [empty]
            rfl
          · exact ⟨rfl, rfl⟩
          · dsimp only [alters]
            rw [empty]
            rfl
      | false =>
          cases located : requestIds.ids.mapM inbox.locate with
          | none =>
              obtain ⟨missing, listed, absent⟩ := mapM_locate_none located
              apply Outcome.answered _ (.claimed [])
              · change inbox.claim requestIds.ids = _
                unfold claim
                rw [empty, located]
                rfl
              · exact ⟨rfl, rfl⟩
              · dsimp only [alters]
                rw [Bool.and_eq_false_iff]
                right
                rw [List.all_eq_false]
                refine ⟨missing, listed, ?_⟩
                rw [absent]
                exact Bool.false_ne_true
          | some hits =>
              obtain ⟨ids, each⟩ := mapM_locate located
              apply Outcome.changed
              case same =>
                change inbox.claim requestIds.ids = _
                unfold claim
                rw [empty, located]
                rfl
              case alters =>
                dsimp only [alters]
                rw [empty, Bool.not_false, Bool.true_and, List.all_eq_true, ← ids]
                intro id listed
                obtain ⟨hit, hitListed, same⟩ := List.mem_map.mp listed
                rw [← same, ← locate_isSome, each hit hitListed]
                rfl
  | remove requestId =>
      cases located : inbox.locate requestId with
      | none =>
          have absent := locate_none.mp located
          apply Outcome.answered _ (.item none)
          · change inbox.remove requestId = _
            unfold remove
            rw [located]
          · exact ⟨rfl, rfl⟩
          · change (inbox.find requestId).isSome = false
            rw [absent]
            rfl
      | some hit =>
          apply Outcome.changed _ (inbox.pop hit).revised false (.item (some hit.item))
          · change inbox.remove requestId = _
            unfold remove
            rw [located]
          · change (inbox.find requestId).isSome = true
            rw [← locate_isSome, located]
            rfl
  | edit requestId content attachments =>
      cases located : inbox.locate requestId with
      | none =>
          have absent := locate_none.mp located
          apply Outcome.answered _ (.item none)
          · change inbox.replace requestId content attachments = _
            unfold replace
            rw [located]
          · exact ⟨rfl, rfl⟩
          · change (inbox.find requestId).isSome = false
            rw [absent]
            rfl
      | some hit =>
          apply Outcome.changed
          case same =>
            change inbox.replace requestId content attachments = _
            unfold replace
            rw [located]
          case alters =>
            change (inbox.find requestId).isSome = true
            rw [← locate_isSome, located]
            rfl
  | promote requestId =>
      cases turn : findIn inbox.nextTurn requestId with
      | some entry =>
          obtain ⟨present, same⟩ := findIn_some turn
          have located : inbox.locate requestId = some ⟨.nextTurn, entry.2, entry.1⟩ := by
            unfold locate
            rw [turn]
          apply Outcome.changed
          case same =>
            change inbox.advance requestId = _
            unfold advance
            rw [located]
          case alters =>
            change (inbox.nextTurn.any fun item => decide (item.requestId = requestId)) = true
            rw [List.any_eq_true]
            exact ⟨entry.1, List.mem_of_getElem? present, decide_eq_true same⟩
      | none =>
          have idle : inbox.alters capacity (.promote requestId) = false := by
            change (inbox.nextTurn.any fun item => decide (item.requestId = requestId)) = false
            rw [List.any_eq_false]
            intro item member accepted
            exact findIn_none.mp turn item member (of_decide_eq_true accepted)
          cases step : findIn inbox.nextStep requestId with
          | none =>
              apply Outcome.answered idle (.item none)
              · change inbox.advance requestId = _
                unfold advance locate
                rw [turn, step]
                rfl
              · exact ⟨rfl, rfl⟩
          | some entry =>
              apply Outcome.answered idle (.item (some entry.1))
              · change inbox.advance requestId = _
                unfold advance locate
                rw [turn, step]
                rfl
              · exact ⟨rfl, rfl⟩

structure Altered (capacity : Nat) (before after : MutableInbox) (entered : List (String × Int))
    (left : List QueueItem) : Prop where
  valid : after.Valid
  storable : after.Storable
  balance : (keys before.pending ++ entered).Perm (keys after.pending ++ keys left)
  revision : after.revision = before.revision + 1
  session : after.sessionId = before.sessionId
  later : before.nextSequence ≤ after.nextSequence
  numbered : ∀ key ∈ entered, before.nextSequence ≤ key.2 ∧ key.2 < after.nextSequence
  unrepeated : (entered.map Prod.snd).Nodup
  bounded : before.pending.length ≤ capacity → after.pending.length ≤ capacity

theorem pending_perm_restrict (valid : inbox.Valid)
    (distinct : (items.map QueueItem.requestId).Nodup)
    (present : ∀ item ∈ items, item ∈ inbox.pending) :
    inbox.pending.Perm ((inbox.restrict fun item =>
      decide (item.requestId ∉ items.map QueueItem.requestId)).pending ++ items) := by
  have taken : (inbox.pending.filter fun item =>
      !decide (item.requestId ∉ items.map QueueItem.requestId)).Perm items := by
    apply (List.perm_ext_iff_of_nodup _ (List.Nodup.of_map _ distinct)).mpr
    · intro item
      rw [List.mem_filter, Bool.not_eq_true', decide_eq_false_iff_not, not_not]
      constructor
      · rintro ⟨member, listed⟩
        obtain ⟨other, otherListed, same⟩ := List.mem_map.mp listed
        have equal := List.inj_on_of_nodup_map valid.distinct (present other otherListed) member same
        rw [← equal]
        exact otherListed
      · intro listed
        exact ⟨present item listed, List.mem_map_of_mem listed⟩
    · exact (List.Nodup.of_map _ valid.distinct).filter _
  rw [pending_restrict]
  exact (List.filter_append_perm _ _).symm.trans (taken.append_left _)

theorem pending_enqueue (inbox : MutableInbox) (unnumbered : item.sequence = 0)
    (target : QueueTarget) :
    (inbox.enqueue item target).pending.Perm
      ({ item with sequence := inbox.nextSequence } :: inbox.pending) := by
  unfold enqueue
  rw [if_pos unnumbered.le]
  cases target with
  | nextTurn =>
      change (inbox.nextTurn ++ [_] ++ inbox.nextStep).Perm _
      rw [List.append_assoc]
      exact List.perm_middle
  | nextStep =>
      change (inbox.nextTurn ++ (inbox.nextStep ++ [_])).Perm _
      rw [← List.append_assoc]
      exact List.perm_append_singleton _ _

theorem enqueue_frame (inbox : MutableInbox) {item : QueueItem} (unnumbered : item.sequence = 0)
    (target : QueueTarget) :
    (inbox.enqueue item target).revision = inbox.revision + 1 ∧
      (inbox.enqueue item target).sessionId = inbox.sessionId ∧
      (inbox.enqueue item target).nextSequence = inbox.nextSequence + 1 := by
  unfold enqueue
  rw [if_pos unnumbered.le]
  cases target with
  | nextTurn => exact ⟨rfl, rfl, max_eq_right (Int.le_add_one le_rfl)⟩
  | nextStep => exact ⟨rfl, rfl, max_eq_right (Int.le_add_one le_rfl)⟩

private theorem altered_of_admit (valid : inbox.Valid) (storable : inbox.Storable)
    (built : BuiltItem) (target : QueueTarget) (absent : inbox.find built.item.requestId = none)
    (room : inbox.pending.length < capacity) :
    Altered capacity inbox (inbox.enqueue built.item target)
      [(built.item.requestId, inbox.nextSequence)] [] := by
  have perm := inbox.pending_enqueue built.unnumbered target
  obtain ⟨revision, session, later⟩ := inbox.enqueue_frame built.unnumbered target
  refine ⟨valid.enqueue built.unnumbered.le absent target, ?_, ?_, revision, session, ?_, ?_,
    List.nodup_singleton _, ?_⟩
  · intro item member
    rcases List.mem_cons.mp (perm.mem_iff.mp member) with added | kept
    · rw [added]
      exact ⟨built.storable.agent, built.storable.unclaimed, built.storable.attached,
        built.storable.readable⟩
    · exact storable item kept
  · rw [show keys [] = [] from rfl, List.append_nil]
    apply (List.perm_append_singleton _ _).trans
    exact (perm.map fun item => (item.requestId, item.sequence)).symm
  · omega
  · intro key member
    rw [List.mem_singleton.mp member]
    dsimp only
    omega
  · intro _
    rw [perm.length_eq, List.length_cons]
    exact room

private theorem altered_of_taking (valid : inbox.Valid) (storable : inbox.Storable)
    (distinct : (items.map QueueItem.requestId).Nodup)
    (present : ∀ item ∈ items, item ∈ inbox.pending) :
    Altered capacity inbox (inbox.restrict fun item =>
      decide (item.requestId ∉ items.map QueueItem.requestId)).revised [] items := by
  have perm := pending_perm_restrict valid distinct present
  have subset : ∀ item ∈ (inbox.restrict fun item =>
      decide (item.requestId ∉ items.map QueueItem.requestId)).pending, item ∈ inbox.pending := by
    intro item member
    exact perm.mem_iff.mpr (List.mem_append_left _ member)
  refine ⟨valid.keep _, fun item member => storable item (subset item member), ?_, rfl, rfl,
    le_rfl, nofun, List.nodup_nil, ?_⟩
  · rw [List.append_nil, ← keys_append]
    exact perm.map _
  · intro bounded
    have lengths := perm.length_eq
    rw [List.length_append] at lengths
    change (inbox.restrict _).pending.length ≤ capacity
    omega

private theorem edited_storable (storable : item.Storable) (content : String)
    (attachments : List (List (String × Json))) :
    (item.edited content (attachments.map Json.object)).Storable where
  agent := storable.agent
  unclaimed := storable.unclaimed
  attached := by
    intro attachment member
    obtain ⟨fields, _, same⟩ := List.mem_map.mp member
    exact ⟨fields, same.symm⟩
  readable := fun _ member => absurd member List.not_mem_nil

theorem keys_edit (inbox : MutableInbox) (requestId content : String) (attachments : List Json) :
    keys (inbox.edit requestId content attachments).pending = keys inbox.pending := by
  have each : ∀ item : QueueItem,
      ((if item.requestId = requestId then item.edited content attachments else item).requestId,
        (if item.requestId = requestId then item.edited content attachments else item).sequence) =
      (item.requestId, item.sequence) := by
    intro item
    split <;> rfl
  unfold keys edit pending
  dsimp only
  rw [← List.map_append, List.map_map]
  exact List.map_congr_left fun item _ => each item

private theorem altered_of_edit (valid : inbox.Valid) (storable : inbox.Storable)
    (requestId content : String) (attachments : List (List (String × Json))) :
    Altered capacity inbox (inbox.edit requestId content (attachments.map Json.object)) [] [] := by
  have same := inbox.keys_edit requestId content (attachments.map Json.object)
  refine ⟨valid.edit _ _ _, ?_, ?_, rfl, rfl, le_rfl, nofun, List.nodup_nil, ?_⟩
  · intro item member
    change item ∈ inbox.nextTurn.map _ ++ inbox.nextStep.map _ at member
    rw [← List.map_append] at member
    obtain ⟨original, present, changed⟩ := List.mem_map.mp member
    rw [← changed]
    split
    · exact edited_storable (storable original present) content attachments
    · exact storable original present
  · rw [same]
    exact List.Perm.refl _
  · intro bounded
    have lengths := congrArg List.length same
    unfold keys at lengths
    rw [List.length_map, List.length_map] at lengths
    omega

private theorem altered_of_promote (valid : inbox.Valid) (storable : inbox.Storable)
    (present : item ∈ inbox.pending) : Altered capacity inbox (inbox.promote item) [] [] := by
  have single : ([item].map QueueItem.requestId).Nodup := List.nodup_singleton _
  have listed : ∀ other ∈ [item], other ∈ inbox.pending := by
    intro other member
    rw [List.mem_singleton.mp member]
    exact present
  have split := pending_perm_restrict valid single listed
  have grown : (inbox.promote item).pending.Perm
      ((inbox.without item.requestId).pending ++ [item.promoted]) := by
    change (_ ++ List.mergeSort _ _).Perm _
    apply ((List.mergeSort_perm _ _).append_left _).trans
    rw [← List.append_assoc]
    rfl
  have kept : (inbox.without item.requestId).pending = (inbox.restrict fun other =>
      decide (other.requestId ∉ [item].map QueueItem.requestId)).pending := by
    unfold without
    rw [pending_keep, pending_restrict]
    congr 1
    funext other
    apply decide_eq_decide.mpr
    rw [List.map_singleton, List.mem_singleton]
  have keysSame : (keys inbox.pending).Perm (keys (inbox.promote item).pending) := by
    apply ((split.map fun other => (other.requestId, other.sequence))).trans
    apply List.Perm.symm
    apply (grown.map fun other => (other.requestId, other.sequence)).trans
    rw [kept, List.map_append, List.map_append]
    rfl
  refine ⟨valid.promote present, ?_, ?_, rfl, rfl, le_rfl, nofun, List.nodup_nil, ?_⟩
  · intro other member
    rcases List.mem_append.mp (grown.mem_iff.mp member) with stays | promoted
    · exact storable other (mem_pending_without.mp stays).1
    · have original := storable item present
      rw [List.mem_singleton.mp promoted]
      exact ⟨original.agent, original.unclaimed, original.attached, original.readable⟩
  · rw [show keys [] = [] from rfl, List.append_nil, List.append_nil]
    exact keysSame
  · intro bounded
    have lengths := keysSame.length_eq
    unfold keys at lengths
    rw [List.length_map, List.length_map] at lengths
    omega

theorem effect_altered {inbox after : MutableInbox} {operation : Operation} {validates : Bool}
    {reply : Reply} (valid : inbox.Valid) (storable : inbox.Storable)
    (changed : inbox.effect capacity operation = .changes after validates reply) :
    Altered capacity inbox after (inbox.entering operation reply) (leaving operation reply) := by
  cases operation with
  | admitItem built target sessionExists requestSeen =>
      change inbox.admitItem capacity built.item target sessionExists requestSeen = _ at changed
      unfold admitItem at changed
      split at changed
      · cases changed
      · split at changed
        · cases changed
        · rename_i absent
          split at changed
          · cases changed
          · split at changed
            · cases changed
            · rename_i room
              cases changed
              apply altered_of_admit valid storable built target (locate_none.mp absent)
              unfold pending
              rw [List.length_append]
              omega
  | claim requestIds =>
      change inbox.claim requestIds.ids = _ at changed
      unfold claim at changed
      split at changed
      · cases changed
      · split at changed
        · cases changed
        · rename_i hits found
          cases changed
          obtain ⟨ids, each⟩ := mapM_locate found
          have listed : (hits.map Hit.item).map QueueItem.requestId = requestIds.ids := by
            rw [List.map_map]
            exact ids
          rw [popAll_eq_restrict valid requestIds.distinct found, ← listed]
          change Altered capacity inbox _ [] (hits.map Hit.item ++ [])
          rw [List.append_nil]
          apply altered_of_taking valid storable
          · rw [listed]
            exact requestIds.distinct
          · intro item member
            obtain ⟨hit, hitListed, same⟩ := List.mem_map.mp member
            rw [← same]
            exact (find_mem (find_of_locate valid (each hit hitListed))).1
  | remove requestId =>
      change inbox.remove requestId = _ at changed
      unfold remove at changed
      split at changed
      · cases changed
      · rename_i hit found
        cases changed
        have single : (fun item : QueueItem => decide (item.requestId ≠ hit.item.requestId)) =
            fun item => decide (item.requestId ∉ [hit.item].map QueueItem.requestId) := by
          funext item
          apply decide_eq_decide.mpr
          rw [List.map_singleton, List.mem_singleton]
        rw [pop_eq_restrict valid.distinct (locate_some found).1, single]
        apply altered_of_taking valid storable
        · exact List.nodup_singleton _
        · intro item member
          rw [List.mem_singleton.mp member]
          exact (find_mem (find_of_locate valid found)).1
  | edit requestId content attachments =>
      change inbox.replace requestId content attachments = _ at changed
      unfold replace at changed
      split at changed
      · cases changed
      · rename_i hit found
        cases changed
        rw [put_eq_edit valid content _ (locate_some found).1]
        exact altered_of_edit valid storable _ content attachments
  | promote requestId =>
      change inbox.advance requestId = _ at changed
      unfold advance at changed
      split at changed
      · cases changed
      · rename_i hit found
        split at changed
        · cases changed
        · cases changed
          have popped := pop_eq_restrict valid.distinct (locate_some found).1
          rw [popped]
          exact altered_of_promote valid storable (find_mem (find_of_locate valid found)).1

end MutableInbox

/-! ### The operations of `SessionInbox` -/

def Effect.outcome (inbox : MutableInbox) : Effect → MutableInbox
  | .changes after _ _ => after
  | _ => inbox

namespace SessionInbox

def perform (inbox : SessionInbox) (capacity : Nat) : Operation → SessionInbox
  | .admitItem built target sessionExists requestSeen =>
      (inbox.admitItem capacity built.submission target sessionExists requestSeen).2
  | .claim requestIds => (inbox.claim requestIds.ids).2
  | .remove requestId => (inbox.remove requestId).2
  | .edit requestId content attachments =>
      (inbox.edit requestId content (attachments.map Json.object)).2
  | .promote requestId => (inbox.promote requestId).2

private theorem admit_outcome (inbox : SessionInbox) (capacity : Nat) (built : BuiltItem)
    (target : QueueTarget) (sessionExists requestSeen : Bool) :
    (inbox.queues.admitItem capacity built.item target sessionExists requestSeen).outcome inbox.queues =
      (inbox.admitItem capacity built.submission target sessionExists requestSeen).2.queues := by
  have size : inbox.pending.length =
      inbox.queues.nextTurn.length + inbox.queues.nextStep.length :=
    List.length_append
  unfold MutableInbox.admitItem admitItem
  by_cases known : (!sessionExists) = true
  · rw [if_pos known, if_pos known]
    rfl
  rw [if_neg known, if_neg known]
  split
  · rename_i existing located
    have found := MutableInbox.find_of_locate inbox.valid located
    split
    · rfl
    · rename_i absent
      change inbox.queues.find built.item.requestId = none at absent
      rw [found] at absent
      cases absent
  · rename_i located
    have absent := MutableInbox.locate_none.mp located
    have never : ∀ {item}, inbox.queues.find built.submission.item.requestId ≠ some item := by
      intro item present
      change inbox.queues.find built.item.requestId = some item at present
      rw [absent] at present
      cases present
    by_cases seen : requestSeen = true
    · rw [if_pos seen]
      split
      · rename_i present
        exact absurd present never
      · rw [if_pos seen]
        rfl
    · rw [if_neg seen]
      by_cases full : capacity ≤ inbox.queues.nextTurn.length + inbox.queues.nextStep.length
      · rw [if_pos full]
        split
        · rename_i present
          exact absurd present never
        · rw [if_neg seen, size, if_pos full]
          rfl
      · rw [if_neg full]
        split
        · rename_i present
          exact absurd present never
        · rw [if_neg seen, size, if_neg full]
          rfl

private theorem claim_outcome (inbox : SessionInbox) (requestIds : RequestIds) :
    (inbox.queues.claim requestIds.ids).outcome inbox.queues =
      (inbox.claim requestIds.ids).2.queues := by
  unfold MutableInbox.claim claim
  by_cases empty : requestIds.ids.isEmpty = true
  · rw [if_pos empty, if_pos (by rw [empty]; rfl)]
    rfl
  rw [if_neg empty]
  have nonempty : requestIds.ids.isEmpty = false := Bool.eq_false_of_not_eq_true empty
  rw [nonempty, Bool.false_or]
  split
  · rename_i missing
    have some_absent : (requestIds.ids.any fun id => (inbox.find id).isNone) = true := by
      obtain ⟨id, listed, absent⟩ := MutableInbox.mapM_locate_none missing
      rw [List.any_eq_true]
      refine ⟨id, listed, ?_⟩
      change (inbox.queues.find id).isNone = true
      rw [absent]
      rfl
    rw [if_pos some_absent]
    rfl
  · rename_i hits found
    obtain ⟨ids, each⟩ := MutableInbox.mapM_locate found
    have all_present : ¬ (requestIds.ids.any fun id => (inbox.find id).isNone) = true := by
      rw [List.any_eq_true, ← ids]
      rintro ⟨id, listed, none⟩
      obtain ⟨hit, hitListed, same⟩ := List.mem_map.mp listed
      have present := MutableInbox.find_of_locate inbox.valid (each hit hitListed)
      change (inbox.queues.find id).isNone = true at none
      rw [← same, present] at none
      cases none
    rw [if_neg all_present]
    change (inbox.queues.popAll hits).revised = _
    rw [MutableInbox.popAll_eq_restrict inbox.valid requestIds.distinct found]
    rfl

private theorem remove_outcome (inbox : SessionInbox) (requestId : String) :
    (inbox.queues.remove requestId).outcome inbox.queues = (inbox.remove requestId).2.queues := by
  unfold MutableInbox.remove remove find
  split
  · rename_i located
    rw [MutableInbox.locate_none.mp located]
    rfl
  · rename_i hit located
    obtain ⟨present, same⟩ := MutableInbox.locate_some located
    rw [MutableInbox.find_of_locate inbox.valid located]
    change (inbox.queues.pop hit).revised = inbox.queues.without requestId
    rw [MutableInbox.pop_eq_restrict inbox.valid.distinct present, same]
    rfl

private theorem edit_outcome (inbox : SessionInbox) (requestId content : String)
    (attachments : List (List (String × Json))) :
    (inbox.queues.replace requestId content attachments).outcome inbox.queues =
      (inbox.edit requestId content (attachments.map Json.object)).2.queues := by
  unfold MutableInbox.replace edit find
  split
  · rename_i located
    rw [MutableInbox.locate_none.mp located]
    rfl
  · rename_i hit located
    obtain ⟨present, same⟩ := MutableInbox.locate_some located
    rw [MutableInbox.find_of_locate inbox.valid located]
    change (inbox.queues.put hit _).revised = inbox.queues.edit requestId content _
    rw [MutableInbox.put_eq_edit inbox.valid content _ present, same]

private theorem promote_outcome (inbox : SessionInbox) (requestId : String) :
    (inbox.queues.advance requestId).outcome inbox.queues =
      (inbox.promote requestId).2.queues := by
  unfold MutableInbox.advance promote
  split
  · rename_i located
    have absent := MutableInbox.locate_none.mp located
    split
    · rfl
    · rename_i present
      rw [absent] at present
      cases present
  · rename_i hit located
    obtain ⟨present, same⟩ := MutableInbox.locate_some located
    have found := MutableInbox.find_of_locate inbox.valid located
    have member := List.mem_of_getElem? present
    have only : ∀ {item}, inbox.queues.find requestId = some item → item = hit.item := by
      intro item itemFound
      exact Option.some.inj (itemFound.symm.trans found)
    cases place : hit.target with
    | nextStep =>
        rw [place] at member
        change hit.item ∈ inbox.queues.nextStep at member
        dsimp only
        split
        · rename_i absent
          rw [found] at absent
          cases absent
        · rename_i item itemFound
          have same := only itemFound
          subst same
          rw [if_pos member]
          rfl
    | nextTurn =>
        rw [place] at member
        have elsewhere : hit.item ∉ inbox.queues.nextStep := by
          intro step
          exact (MutableInbox.absent_elsewhere inbox.valid.distinct).1 member
            (List.mem_map_of_mem step)
        dsimp only
        split
        · rename_i absent
          rw [found] at absent
          cases absent
        · rename_i item itemFound
          have same := only itemFound
          subst same
          rw [if_neg elsewhere, MutableInbox.pop_eq_restrict inbox.valid.distinct present]
          rfl

/-- On valid queues the operations at an index are those of `SessionInbox`. -/
theorem effect_refines (inbox : SessionInbox) (capacity : Nat) (operation : Operation) :
    (inbox.queues.effect capacity operation).outcome inbox.queues =
      (inbox.perform capacity operation).queues := by
  cases operation with
  | admitItem built target sessionExists requestSeen =>
      exact inbox.admit_outcome capacity built target sessionExists requestSeen
  | claim requestIds => exact inbox.claim_outcome requestIds
  | remove requestId => exact inbox.remove_outcome requestId
  | edit requestId content attachments => exact inbox.edit_outcome requestId content attachments
  | promote requestId => exact inbox.promote_outcome requestId

end SessionInbox

end Ftre.Inbox
