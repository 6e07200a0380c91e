import Ftre.Lib.JsonText
import Ftre.Message.Msg
import Mathlib.Data.List.Basic
import Mathlib.Order.Defs.LinearOrder

/-!
Pages of the history. A page holds the last turns before a moment; the client asks for the page
before it with the moment of its oldest message.
-/

namespace Ftre.Session

open Lib Message

variable {τ : Type}

/-- `to_message_model` of a message: with the moment that its creation time stands for. -/
structure MessageModel (τ : Type) where
  message : Msg
  timestamp : τ
deriving DecidableEq

/-- The records of a derived history; ids are distinct. -/
structure History (τ : Type) where
  records : List (MessageModel τ)
  distinct : (records.map fun record => record.message.id).Nodup

def MessageModel.visible (record : MessageModel τ) : Bool :=
  decide (record.message.role = .user) &&
    !(record.message.metadata.find? "hide").any Json.truthy

/-- What a call returns: the summary that was written last before the messages, and the messages
of the last turns. -/
structure Page (τ : Type) where
  summary : Option (MessageModel τ)
  messages : List (MessageModel τ)
  hasMore : Bool
deriving DecidableEq

def visibleUserIndexes (records : List (MessageModel τ)) : List Nat :=
  (records.zipIdx.filter fun entry => entry.1.visible).map Prod.snd

/-- `indexes[-limit_turns:]`; `-0` is the start of the list. -/
def lastTurns (limitTurns : Nat) (indexes : List Nat) : List Nat :=
  if limitTurns = 0 then indexes else indexes.drop (indexes.length - limitTurns)

/-- `visible_user_indexes[-limit_turns:][0]`. -/
def pageStart (limitTurns : Nat) (records : List (MessageModel τ)) : Option Nat :=
  (lastTurns limitTurns (visibleUserIndexes records)).head?

def loadedMessages (pages : List (Page τ)) : List (MessageModel τ) :=
  pages.reverse.flatMap Page.messages

/-- Every record is returned once and in order, and a page says that there are more if and only if
there are. -/
structure Complete (records : List (MessageModel τ)) (pages : List (Page τ)) : Prop where
  whole : loadedMessages pages = records
  flags : ∀ newer page older, pages = newer ++ page :: older →
    (page.hasMore = true ↔ (loadedMessages (newer ++ [page])).length < records.length)

/-! ### Starts of pages -/

/-- Where pages start in a history, each before the one that was cut before. -/
inductive StartsPage (limitTurns : Nat) : List (MessageModel τ) → Nat → Prop where
  | newest {records : List (MessageModel τ)} {start : Nat}
      (found : pageStart limitTurns records = some start) : StartsPage limitTurns records start
  | older {records : List (MessageModel τ)} {start earlier : Nat}
      (found : pageStart limitTurns records = some start)
      (starts : StartsPage limitTurns (records.take start) earlier) :
      StartsPage limitTurns records earlier

variable {records : List (MessageModel τ)} {limitTurns start : Nat} {cursor : Option τ}
  {oldest : MessageModel τ} {pages : List (Page τ)}

theorem mem_visibleUserIndexes {index : Nat} :
    index ∈ visibleUserIndexes records ↔
      ∃ record, records[index]? = some record ∧ record.visible = true := by
  unfold visibleUserIndexes
  rw [List.mem_map]
  constructor
  · rintro ⟨⟨record, position⟩, member, rfl⟩
    obtain ⟨present, visible⟩ := List.mem_filter.mp member
    exact ⟨record, List.mem_zipIdx_iff_getElem?.mp present, visible⟩
  · rintro ⟨record, present, visible⟩
    exact ⟨(record, index), List.mem_filter.mpr
      ⟨List.mem_zipIdx_iff_getElem?.mpr present, visible⟩, rfl⟩

theorem pageStart_some (found : pageStart limitTurns records = some start) :
    ∃ record, records[start]? = some record ∧ record.visible = true := by
  have member := List.mem_of_head? found
  unfold lastTurns at member
  split at member
  · exact mem_visibleUserIndexes.mp member
  · exact mem_visibleUserIndexes.mp (List.mem_of_mem_drop member)

variable {limitTurns : Nat}

theorem pageStart_none (positive : 0 < limitTurns) (missing : pageStart limitTurns records = none)
    {index : Nat} {record : MessageModel τ} (present : records[index]? = some record) :
    record.visible = false := by
  by_contra seen
  have member := mem_visibleUserIndexes.mpr ⟨record, present, Bool.not_eq_false _ ▸ seen⟩
  have counted := List.length_pos_of_mem member
  rw [pageStart, List.head?_eq_none_iff, lastTurns, if_neg (Nat.ne_of_gt positive),
    List.drop_eq_nil_iff] at missing
  omega

theorem pageStart_lt (found : pageStart limitTurns records = some start) :
    start < records.length := by
  obtain ⟨record, present, _⟩ := pageStart_some found
  exact (List.getElem?_eq_some_iff.mp present).1

theorem StartsPage.lt_length (starts : StartsPage limitTurns records start) :
    start < records.length := by
  induction starts with
  | newest found => exact pageStart_lt found
  | older found starts ih =>
      rw [List.length_take] at ih
      exact Nat.lt_of_lt_of_le ih (Nat.min_le_right _ _)

theorem startsPage_nil : ¬ StartsPage limitTurns ([] : List (MessageModel τ)) start :=
  fun starts => absurd starts.lt_length (Nat.not_lt_zero _)

theorem loadedMessages_cons (page : Page τ) (rest : List (Page τ)) :
    loadedMessages (page :: rest) = loadedMessages rest ++ page.messages := by
  rw [loadedMessages, List.reverse_cons, List.flatMap_append, List.flatMap_singleton]
  rfl

private theorem complete_more {older : List (MessageModel τ)} {page : Page τ}
    {rest : List (Page τ)} {start : Nat} (within : start < older.length)
    (own : page.messages = older.drop start) (flag : page.hasMore = true) (later : 0 < start) :
    Complete older (page :: rest) ↔ Complete (older.take start) rest := by
  have count : ∀ newer : List (Page τ), (loadedMessages (page :: newer)).length =
      (loadedMessages newer).length + (older.length - start) := by
    intro newer
    rw [loadedMessages_cons, List.length_append, own, List.length_drop]
  have short : (older.take start).length = start := List.length_take_of_le (Nat.le_of_lt within)
  constructor
  · rintro ⟨whole, flags⟩
    rw [loadedMessages_cons, own] at whole
    constructor
    · exact List.append_cancel_right (whole.trans (List.take_append_drop start older).symm)
    · intro newer other last split
      rw [flags (page :: newer) other last (congrArg (List.cons page) split), List.cons_append,
        count, short]
      omega
  · rintro ⟨whole, flags⟩
    constructor
    · rw [loadedMessages_cons, own, whole, List.take_append_drop]
    · intro newer other last split
      cases newer with
      | nil =>
          cases split
          rw [List.nil_append, count, flag]
          refine ⟨fun _ => ?_, fun _ => rfl⟩
          change 0 + (older.length - start) < older.length
          omega
      | cons head tail =>
          cases split
          rw [flags tail other last rfl, List.cons_append, count, short]
          omega

private theorem complete_last {older : List (MessageModel τ)} {page : Page τ}
    (own : page.messages = older) (flag : page.hasMore = false) : Complete older [page] := by
  constructor
  · rw [loadedMessages_cons, own]
    rfl
  · intro newer other last split
    cases newer with
    | nil =>
        cases split
        rw [flag, List.nil_append, loadedMessages_cons, own]
        refine ⟨fun wrong => absurd wrong Bool.false_ne_true, fun shorter => ?_⟩
        exact absurd shorter (Nat.lt_irrefl _)
    | cons head tail =>
        have length := congrArg List.length split
        rw [List.cons_append, List.length_cons, List.length_cons, List.length_append,
          List.length_cons] at length
        simp at length

variable [LinearOrder τ]

def before (records : List (MessageModel τ)) : Option τ → List (MessageModel τ)
  | none => records
  | some moment => records.filter fun record => decide (record.timestamp < moment)

def paginateRecords (limitTurns : Nat) (records : List (MessageModel τ)) (beforeTs : Option τ) :
    Page τ :=
  let older := before records beforeTs
  match pageStart limitTurns older with
  | none => ⟨none, [], false⟩
  | some start =>
      { summary := (older.take start).reverse.find? fun record =>
          decide (record.message.name = .compact)
        messages := older.drop start
        hasMore := decide (0 < start) }

/-- The pages that a client loads, from a cursor on: while there are more, the moment of the
oldest message of the page is the next cursor. -/
inductive Loaded (limitTurns : Nat) (records : List (MessageModel τ)) :
    Option τ → List (Page τ) → Prop where
  | last {cursor : Option τ} (done : (paginateRecords limitTurns records cursor).hasMore = false) :
      Loaded limitTurns records cursor [paginateRecords limitTurns records cursor]
  | more {cursor : Option τ} {oldest : MessageModel τ} {rest : List (Page τ)}
      (more : (paginateRecords limitTurns records cursor).hasMore = true)
      (head : (paginateRecords limitTurns records cursor).messages.head? = some oldest)
      (loaded : Loaded limitTurns records (some oldest.timestamp) rest) :
      Loaded limitTurns records cursor (paginateRecords limitTurns records cursor :: rest)

/-- The first record is a visible message of the user, and where a page starts, what stands before
is what was created before. -/
structure CutByTime (limitTurns : Nat) (records : List (MessageModel τ)) : Prop where
  first : ∀ record, records.head? = some record → record.visible = true
  cuts : ∀ start record, StartsPage limitTurns records start → 0 < start →
    records[start]? = some record → before records (some record.timestamp) = records.take start

theorem paginate_none (missing : pageStart limitTurns (before records cursor) = none) :
    paginateRecords limitTurns records cursor = ⟨none, [], false⟩ := by
  unfold paginateRecords
  dsimp only
  rw [missing]

theorem paginate_messages (found : pageStart limitTurns (before records cursor) = some start) :
    (paginateRecords limitTurns records cursor).messages = (before records cursor).drop start := by
  unfold paginateRecords
  dsimp only
  rw [found]

theorem paginate_hasMore (found : pageStart limitTurns (before records cursor) = some start) :
    (paginateRecords limitTurns records cursor).hasMore = decide (0 < start) := by
  unfold paginateRecords
  dsimp only
  rw [found]

theorem before_oldest {records : List (MessageModel τ)} {cursor : Option τ}
    {oldest : MessageModel τ} (present : oldest ∈ before records cursor) :
    before records (some oldest.timestamp) =
      (before records cursor).filter fun record => decide (record.timestamp < oldest.timestamp) := by
  cases cursor with
  | none => rfl
  | some moment =>
      have own : oldest.timestamp < moment := of_decide_eq_true (List.mem_filter.mp present).2
      unfold before
      dsimp only
      rw [List.filter_filter]
      apply List.filter_congr
      intro record _
      by_cases earlier : record.timestamp < oldest.timestamp
      · rw [decide_eq_true earlier, decide_eq_true (lt_trans earlier own)]
        rfl
      · rw [decide_eq_false earlier]
        rfl

theorem before_length (present : oldest ∈ before records cursor) :
    (before records (some oldest.timestamp)).length < (before records cursor).length := by
  rw [before_oldest present, List.length_filter_lt_length_iff_exists]
  exact ⟨oldest, present, by simp⟩

theorem oldest_exists (more : (paginateRecords limitTurns records cursor).hasMore = true) :
    ∃ start oldest, pageStart limitTurns (before records cursor) = some start ∧ 0 < start ∧
      (paginateRecords limitTurns records cursor).messages.head? = some oldest ∧
      (before records cursor)[start]? = some oldest := by
  cases found : pageStart limitTurns (before records cursor) with
  | none =>
      rw [paginate_none found] at more
      cases more
  | some start =>
      rw [paginate_hasMore found] at more
      obtain ⟨oldest, present, _⟩ := pageStart_some found
      refine ⟨start, oldest, rfl, of_decide_eq_true more, ?_, present⟩
      rw [paginate_messages found, List.head?_drop]
      exact present

/-- The client stops after finitely many pages. -/
theorem loading_ends (limitTurns : Nat) (records : List (MessageModel τ)) (cursor : Option τ) :
    ∃ pages, Loaded limitTurns records cursor pages := by
  induction size : (before records cursor).length using Nat.strong_induction_on
    generalizing cursor with
  | _ size ih =>
      subst size
      cases more : (paginateRecords limitTurns records cursor).hasMore with
      | false => exact ⟨_, .last more⟩
      | true =>
          obtain ⟨start, oldest, _, _, head, present⟩ := oldest_exists more
          obtain ⟨rest, loaded⟩ := ih _ (before_length (List.mem_of_getElem? present)) _ rfl
          exact ⟨_, .more more head loaded⟩

theorem Loaded.unique {left right : List (Page τ)} (first : Loaded limitTurns records cursor left)
    (second : Loaded limitTurns records cursor right) : left = right := by
  induction first generalizing right with
  | last done =>
      cases second with
      | last _ => rfl
      | more more _ _ =>
          rw [done] at more
          cases more
  | more more head loaded ih =>
      cases second with
      | last done =>
          rw [done] at more
          cases more
      | more _ other rest =>
          rw [head] at other
          cases other
          rw [ih rest]

/-! ### Complete histories -/

theorem complete_of_cut {limitTurns : Nat} (positive : 0 < limitTurns)
    (records : List (MessageModel τ)) (cursor : Option τ)
    (first : ∀ record, (before records cursor).head? = some record → record.visible = true)
    (cuts : ∀ start record, StartsPage limitTurns (before records cursor) start → 0 < start →
      (before records cursor)[start]? = some record →
      before records (some record.timestamp) = (before records cursor).take start) :
    ∃ pages, Loaded limitTurns records cursor pages ∧ Complete (before records cursor) pages := by
  induction size : (before records cursor).length using Nat.strong_induction_on
    generalizing cursor with
  | _ size ih =>
      subst size
      cases found : pageStart limitTurns (before records cursor) with
      | none =>
          have page := paginate_none found
          have empty : before records cursor = [] := by
            cases listed : before records cursor with
            | nil => rfl
            | cons record rest =>
                rw [listed] at found first
                have hidden := pageStart_none positive found (List.getElem?_cons_zero)
                rw [first record rfl] at hidden
                cases hidden
          refine ⟨_, .last (by rw [page]), complete_last ?_ (by rw [page])⟩
          rw [page, empty]
      | some start =>
          have own := paginate_messages found
          have flag := paginate_hasMore found
          by_cases later : 0 < start
          · have more : (paginateRecords limitTurns records cursor).hasMore = true := by
              rw [flag]
              exact decide_eq_true later
            obtain ⟨oldest, present, _⟩ := pageStart_some found
            have cut := cuts start oldest (.newest found) later present
            have head : (paginateRecords limitTurns records cursor).messages.head? =
                some oldest := by
              rw [own, List.head?_drop]
              exact present
            obtain ⟨rest, loaded, complete⟩ := ih _
              (before_length (List.mem_of_getElem? present)) (some oldest.timestamp) (by
                rw [cut, List.head?_take, if_neg (Nat.ne_of_gt later)]
                exact first) (by
                rw [cut]
                intro earlier record starts positive' listed
                have below := starts.lt_length
                rw [List.length_take] at below
                rw [List.getElem?_take_of_lt (Nat.lt_of_lt_of_le below (Nat.min_le_left _ _))]
                  at listed
                rw [cuts earlier record (.older found starts) positive' listed, List.take_take]
                congr 1
                omega) rfl
            rw [cut] at complete
            exact ⟨_, .more more head loaded,
              (complete_more (pageStart_lt found) own more later).mpr complete⟩
          · have start0 : start = 0 := by omega
            subst start0
            have done : (paginateRecords limitTurns records cursor).hasMore = false := by
              rw [flag]
              rfl
            exact ⟨_, .last done, complete_last own done⟩

theorem Loaded.subset (loaded : Loaded limitTurns records cursor pages) :
    loadedMessages pages ⊆ before records cursor := by
  have own : ∀ cursor, (paginateRecords limitTurns records cursor).messages ⊆
      before records cursor := by
    intro cursor
    cases found : pageStart limitTurns (before records cursor) with
    | none =>
        rw [paginate_none found]
        exact List.nil_subset _
    | some start =>
        rw [paginate_messages found]
        exact List.drop_subset _ _
  induction loaded with
  | last done =>
      rw [loadedMessages_cons]
      exact own _
  | more more head loaded ih =>
      rw [loadedMessages_cons]
      apply List.append_subset.mpr
      refine ⟨fun record member => ?_, own _⟩
      have oldest := own _ (List.mem_of_head? head)
      have earlier := ih member
      rw [before_oldest oldest] at earlier
      exact (List.mem_filter.mp earlier).1

theorem Loaded.last_mem (loaded : Loaded limitTurns records cursor pages)
    (some : loadedMessages pages ≠ []) {front : List (MessageModel τ)} {record : MessageModel τ}
    (split : before records cursor = front ++ [record]) : record ∈ loadedMessages pages := by
  have own : (paginateRecords limitTurns records cursor).messages ≠ [] →
      record ∈ (paginateRecords limitTurns records cursor).messages := by
    intro holds
    cases found : pageStart limitTurns (before records cursor) with
    | none =>
        rw [paginate_none found] at holds
        exact absurd rfl holds
    | some start =>
        have within := pageStart_lt found
        rw [split, List.length_append, List.length_singleton] at within
        rw [paginate_messages found, split, List.drop_append_of_le_length (by omega)]
        exact List.mem_append_right _ List.mem_cons_self
  cases loaded with
  | last done =>
      rw [loadedMessages_cons] at some ⊢
      exact own some
  | more more head loaded =>
      rw [loadedMessages_cons]
      apply List.mem_append_right
      apply own
      intro empty
      rw [empty] at head
      cases head

theorem cut_of_loaded {records older : List (MessageModel τ)} {moment : τ} {rest : List (Page τ)}
    (distinct : records.Nodup) (front : older <+: records) (within : start < older.length)
    (later : 0 < start) (loaded : Loaded limitTurns records (some moment) rest)
    (whole : loadedMessages rest = older.take start) :
    before records (some moment) = older.take start := by
  obtain ⟨tail, split⟩ := (List.take_prefix start older).trans front
  have kept : (older.take start).filter (fun record => decide (record.timestamp < moment)) =
      older.take start := by
    apply List.filter_eq_self.mpr
    intro record member
    rw [← whole] at member
    exact (List.mem_filter.mp (loaded.subset member)).2
  have view : before records (some moment) = older.take start ++
      tail.filter fun record => decide (record.timestamp < moment) := by
    rw [before, ← split, List.filter_append, kept]
  rcases List.eq_nil_or_concat (tail.filter fun record : MessageModel τ =>
      decide (record.timestamp < moment)) with none | ⟨others, last, ends⟩
  · rw [view, none, List.append_nil]
  · -- A later record would be on the first of the older pages, and again on the newer one.
    have held : last ∈ loadedMessages rest := by
      apply loaded.last_mem
      · rw [whole]
        intro empty
        have length := congrArg List.length empty
        rw [List.length_take_of_le (Nat.le_of_lt within)] at length
        exact Nat.ne_of_gt later length
      · rw [view, ends, List.concat_eq_append, ← List.append_assoc]
    have behind : last ∈ tail := by
      have member : last ∈ tail.filter fun record => decide (record.timestamp < moment) := by
        rw [ends, List.concat_eq_append]
        exact List.mem_append_right _ List.mem_cons_self
      exact (List.mem_filter.mp member).1
    rw [whole] at held
    rw [← split] at distinct
    exact absurd rfl ((List.nodup_append.mp distinct).2.2 last held last behind)

theorem cut_of_complete {limitTurns : Nat} (distinct : records.Nodup)
    (loaded : Loaded limitTurns records cursor pages) (front : before records cursor <+: records)
    (complete : Complete (before records cursor) pages) :
    (∀ record, (before records cursor).head? = some record → record.visible = true) ∧
    ∀ start record, StartsPage limitTurns (before records cursor) start → 0 < start →
      (before records cursor)[start]? = some record →
      before records (some record.timestamp) = (before records cursor).take start := by
  induction loaded with
  | @last cursor done =>
      cases found : pageStart limitTurns (before records cursor) with
      | none =>
          have whole := complete.whole
          rw [loadedMessages_cons, paginate_none found] at whole
          rw [← whole]
          constructor
          · intro record head
            cases head
          · exact fun _ _ starts => absurd starts startsPage_nil
      | some start =>
          rw [paginate_hasMore found, decide_eq_false_iff_not] at done
          have start0 : start = 0 := by omega
          subst start0
          constructor
          · intro record head
            obtain ⟨other, present, visible⟩ := pageStart_some found
            rw [List.head?_eq_getElem?, present] at head
            cases head
            exact visible
          · intro start record starts later _
            cases starts with
            | newest again =>
                rw [found] at again
                cases again
                exact absurd later (Nat.lt_irrefl _)
            | older again starts =>
                rw [found] at again
                cases again
                exact absurd starts startsPage_nil
  | @more cursor oldest rest more head loaded ih =>
      obtain ⟨start, other, found, later, same, present⟩ := oldest_exists more
      rw [head] at same
      cases same
      have within := pageStart_lt found
      have complete' := (complete_more within (paginate_messages found) more later).mp complete
      have cut := cut_of_loaded distinct front within later loaded complete'.whole
      obtain ⟨first, cuts⟩ := ih (by
        rw [cut]
        exact (List.take_prefix _ _).trans front) (by
        rw [cut]
        exact complete')
      rw [cut] at first cuts
      constructor
      · rw [List.head?_take, if_neg (Nat.ne_of_gt later)] at first
        exact first
      · intro earlier record starts positive listed
        cases starts with
        | newest again =>
            rw [found] at again
            cases again
            rw [present] at listed
            cases listed
            exact cut
        | older again starts =>
            rw [found] at again
            cases again
            have below := starts.lt_length
            rw [List.length_take] at below
            have shorter : earlier < start := Nat.lt_of_lt_of_le below (Nat.min_le_left _ _)
            rw [cuts earlier record starts positive (by
              rw [List.getElem?_take_of_lt shorter]
              exact listed), List.take_take]
            congr 1
            omega

/-- Loading page after page gives the whole history if and only if it begins with a visible
message of the user, and no page is cut between records of one moment or of a wrong order. -/
theorem history_complete_iff (history : History τ) (limitTurns : Nat) (positive : 0 < limitTurns) :
    (∃ pages, Loaded limitTurns history.records none pages ∧ Complete history.records pages) ↔
      CutByTime limitTurns history.records := by
  constructor
  · rintro ⟨pages, loaded, complete⟩
    obtain ⟨first, cuts⟩ := cut_of_complete (List.Nodup.of_map _ history.distinct) loaded
      (List.prefix_refl _) complete
    exact ⟨first, cuts⟩
  · rintro ⟨first, cuts⟩
    exact complete_of_cut positive history.records none first cuts

private def stored (id : String) (role : Role) (moment : Int) : MessageModel Int :=
  ⟨Msg.plain id role [] "", moment⟩

def shortHistory : History Int :=
  ⟨[stored "first" .user 1, stored "second" .user 2], by decide⟩

theorem short_history_loaded : ∃ pages, Loaded 1 shortHistory.records none pages ∧
    Complete shortHistory.records pages := by
  apply (history_complete_iff shortHistory 1 (by decide)).mpr
  have older : pageStart 1 (shortHistory.records.take 1) = some 0 := by decide
  have newest : pageStart 1 shortHistory.records = some 1 := by decide
  constructor
  · intro record head
    cases head
    decide
  · intro start record starts later listed
    cases starts with
    | newest found =>
        rw [newest] at found
        cases found
        cases listed
        decide
    | older found starts =>
        rw [newest] at found
        cases found
        cases starts with
        | newest found =>
            rw [older] at found
            cases found
            exact absurd later (Nat.lt_irrefl _)
        | older found starts =>
            rw [older] at found
            cases found
            exact absurd starts startsPage_nil

def hastyHistory : History Int :=
  ⟨[stored "first" .user 1, stored "second" .user 1], by decide⟩

/-- There is said to be more, and the next page is empty. -/
theorem first_message_never_loaded : ¬ ∃ pages, Loaded 1 hastyHistory.records none pages ∧
    Complete hastyHistory.records pages := by
  rintro ⟨pages, loaded, complete⟩
  have actual : Loaded 1 hastyHistory.records none
      [⟨none, [stored "second" .user 1], true⟩, ⟨none, [], false⟩] := .more rfl rfl (.last rfl)
  rw [loaded.unique actual] at complete
  exact absurd complete.whole (by decide)

end Ftre.Session
