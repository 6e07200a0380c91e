import Ftre.Compaction.Marks
import Ftre.Lib.StepSystem

/-!
Histories under turns, fast trims and summary compactions. A compaction picks its boundary when it
starts and adds its summary when it ends; messages may arrive in between.
-/

namespace Ftre.Compaction

open Lib Message Session

structure CompactingState where
  fold : FoldState
  running : Option String
deriving DecidableEq

def CompactingState.history (state : CompactingState) : List Msg := state.fold.messages.items

def freshCompacting : CompactingState := ⟨.empty, none⟩

inductive CompactingAction where
  /-- A turn or a fast trim writes an event. -/
  | write (event : Event)
  /-- A summary compaction reads the history. -/
  | start
  /-- Its summary is stored. -/
  | finish (event : Event)
  | abandon
deriving DecidableEq

def storesSummary (state : CompactingState) (through : String) (event : Event) : Bool :=
  match event.data with
  | .compactMessage data =>
      decide (data.mode ≠ "fast") && decide (data.throughMessageId = through) &&
        decide (event.messageId.getD "" ∉ state.history.map Msg.id)
  | _ => false

def compactingStep (state : CompactingState) : CompactingAction → Option CompactingState
  | .write event =>
      if isTurnEvent state.fold event then
        some { state with fold := applyEvent state.fold event }
      else none
  | .start =>
      if state.running = none then
        (boundaryOf state.history).map fun through => { state with running := some through }
      else none
  | .finish event =>
      match state.running with
      | some through =>
          if storesSummary state through event then
            some ⟨applyEvent state.fold event, none⟩
          else none
      | none => none
  | .abandon => some { state with running := none }

def compacting : StepSystem CompactingState CompactingAction := ⟨compactingStep⟩

/-- A compaction starts only where a message follows the newest summary. -/
def startsOnMessage (state : CompactingState) (action : CompactingAction) : Prop :=
  action = .start → (state.history.getLast?.all fun last => !isSummary last) = true

instance (state : CompactingState) (action : CompactingAction) :
    Decidable (startsOnMessage state action) :=
  inferInstanceAs (Decidable (_ → _))

/-- The messages of a history behind one of its messages. -/
structure LosesNothing (history : List Msg) : Prop where
  uncompacted : (∀ message ∈ history, isSummary message = false) →
    buildContextView history = history.map (trimMessage (collectTrimIds [] [] history))
  compacted : ∀ compact behind, lastSummary history = some (compact, behind) →
    ∃ before covered after, history = before ++ covered :: after ∧
      covered.id = throughMessageId compact ∧ compact ∈ after ∧
      buildContextView history =
        (compact :: after.filter fun message => !isSummary message).map
          (trimMessage (collectTrimIds [] [] history)) ∧
      ∀ message ∈ before ++ [covered], message.id ∉ (buildContextView history).map Msg.id
  once : ((buildContextView history).map Msg.id).Nodup

def summaries (entries : List Mark) : List Mark := entries.filter fun entry => entry.2.isSome

def SummariesBehind (id : String) (expected entries : List Mark) : Prop :=
  ∃ before covered after, entries = before ++ covered :: after ∧ covered.1 = id ∧
    summaries after = expected

structure Anchored (entries : List Mark) (running : Option String) : Prop where
  newest : ∀ entry through, (summaries entries).getLast? = some entry → entry.2 = some through →
    SummariesBehind through [entry] entries
  pending : ∀ through, running = some through → SummariesBehind through [] entries

theorem summaries_append (left right : List Mark) :
    summaries (left ++ right) = summaries left ++ summaries right := List.filter_append ..

theorem summaries_plain {added : List Mark} (plain : ∀ entry ∈ added, entry.2 = none) :
    summaries added = [] := by
  apply List.filter_eq_nil_iff.mpr
  intro entry present
  rw [plain entry present]
  exact Bool.false_ne_true

theorem SummariesBehind.append {id : String} {expected entries : List Mark}
    (behind : SummariesBehind id expected entries) (added : List Mark) :
    SummariesBehind id (expected ++ summaries added) (entries ++ added) := by
  obtain ⟨before, covered, after, split, own, only⟩ := behind
  refine ⟨before, covered, after ++ added, by rw [split, List.append_assoc, List.cons_append],
    own, ?_⟩
  rw [summaries_append, only]

variable {running : Option String}

theorem Anchored.grow {entries added : List Mark} (anchored : Anchored entries running)
    (plain : ∀ entry ∈ added, entry.2 = none) :
    Anchored (entries ++ added) running where
  newest := by
    intro entry through last covers
    rw [summaries_append, summaries_plain plain, List.append_nil] at last
    have grown := (anchored.newest entry through last covers).append added
    rwa [summaries_plain plain, List.append_nil] at grown
  pending := by
    intro through started
    have grown := (anchored.pending through started).append added
    rwa [summaries_plain plain, List.append_nil] at grown

theorem Anchored.summarise {entries : List Mark} {through id : String}
    (anchored : Anchored entries (some through)) :
    Anchored (entries ++ [(id, some through)]) none where
  newest := by
    intro entry other last covers
    rw [summaries_append] at last
    have own : entry = (id, some through) := by
      change (summaries entries ++ [(id, some through)]).getLast? = some entry at last
      rw [List.getLast?_concat] at last
      exact (Option.some.inj last).symm
    subst own
    cases covers
    exact (anchored.pending through rfl).append [(id, some through)]
  pending := by
    intro other started
    cases started

theorem Anchored.idle {entries : List Mark} (anchored : Anchored entries running) :
    Anchored entries none where
  newest := anchored.newest
  pending := by
    intro other started
    cases started

/-! ### The view of an anchored history -/

theorem lastSummary_eq_none {messages : List Msg}
    (plain : ∀ message ∈ messages, isSummary message = false) : lastSummary messages = none := by
  induction messages with
  | nil => rfl
  | cons message rest ih =>
      rw [lastSummary, ih fun other present => plain other (List.mem_cons_of_mem _ present)]
      simp only [plain message List.mem_cons_self, Bool.false_eq_true, if_false]

theorem summaries_marks (messages : List Msg) :
    summaries (marks messages) = marks (messages.filter isSummary) := by
  rw [summaries, marks, List.filter_map, marks]
  congr 1
  apply List.filter_congr
  intro message _
  cases own : isSummary message with
  | true => simp only [Function.comp_apply, mark, own, if_true, Option.isSome_some]
  | false => simp only [Function.comp_apply, mark_plain own, Option.isSome_none]

theorem getLast?_summaries {messages behind : List Msg} {compact : Msg}
    (found : lastSummary messages = some (compact, behind)) :
    (summaries (marks messages)).getLast? = some (mark compact) := by
  obtain ⟨before, split, own, plain⟩ := lastSummary_split found
  have none : behind.filter isSummary = [] := by
    apply List.filter_eq_nil_iff.mpr
    intro message present
    rw [plain message present]
    exact Bool.false_ne_true
  rw [summaries_marks, split, List.filter_append, List.filter_cons_of_pos own, none, marks,
    List.map_append]
  exact List.getLast?_concat

theorem anchored_split {messages behind : List Msg} {compact : Msg}
    (anchored : Anchored (marks messages) running) (distinct : (messages.map Msg.id).Nodup)
    (found : lastSummary messages = some (compact, behind)) :
    ∃ before covered after, messages = before ++ covered :: after ∧
      covered.id = throughMessageId compact ∧ after.filter isSummary = [compact] := by
  obtain ⟨_, placed, own, _⟩ := lastSummary_split found
  have covers : (mark compact).2 = some (throughMessageId compact) := by
    rw [mark, own]
    rfl
  obtain ⟨first, entry, rest, split, boundary, only⟩ :=
    anchored.newest _ _ (getLast?_summaries found) covers
  obtain ⟨before, others, parts, _, tail⟩ := List.map_eq_append_iff.mp split
  obtain ⟨covered, after, opened, same, remaining⟩ := List.map_eq_cons_iff.mp tail
  rw [opened] at parts
  refine ⟨before, covered, after, parts, by rw [← mark_id, same, boundary], ?_⟩
  have alone : marks (after.filter isSummary) = [mark compact] := by
    rw [← summaries_marks, ← only, ← remaining]
    rfl
  obtain ⟨other, none, single, equal, ended⟩ := List.map_eq_cons_iff.mp alone
  rw [List.map_eq_nil_iff.mp ended] at single
  have member : other ∈ messages := by
    have listed : other ∈ after := List.mem_of_mem_filter (by rw [single]; exact List.mem_cons_self)
    rw [parts]
    simp [listed]
  have newest : compact ∈ messages := by
    rw [placed]
    simp
  have ids : other.id = compact.id := congrArg Prod.fst equal
  rw [single, List.inj_on_of_nodup_map distinct member newest ids]

theorem selectView_anchored {messages before behind after : List Msg} {compact covered : Msg}
    (distinct : (messages.map Msg.id).Nodup)
    (found : lastSummary messages = some (compact, behind))
    (split : messages = before ++ covered :: after)
    (boundary : covered.id = throughMessageId compact)
    (only : after.filter isSummary = [compact]) :
    selectView messages = compact :: after.filter fun message => !isSummary message := by
  have behindCovered : behindMessage (throughMessageId compact) messages = some after := by
    rw [split, ← boundary]
    apply behindMessage_of_split
    rw [← split]
    exact distinct
  rw [selectView, found]
  simp only [behindCovered, List.cons.injEq, true_and]
  have afterDistinct : (after.map Msg.id).Nodup := by
    rw [split, List.map_append, List.nodup_append] at distinct
    exact (List.nodup_cons.mp distinct.2.1).2
  have listed : compact ∈ after.filter isSummary := by
    rw [only]
    exact List.mem_cons_self
  apply List.filter_congr
  intro message present
  by_cases own : isSummary message = true
  · have same : message ∈ after.filter isSummary := List.mem_filter.mpr ⟨present, own⟩
    rw [only] at same
    rw [List.mem_singleton.mp same, (List.mem_filter.mp listed).2]
    simp
  · have different : message.id ≠ compact.id := by
      intro ids
      rw [List.inj_on_of_nodup_map afterDistinct present (List.mem_of_mem_filter listed) ids] at own
      exact own (List.mem_filter.mp listed).2
    rw [Bool.not_eq_true] at own
    simp [different, own]

theorem view_ids (messages : List Msg) :
    (buildContextView messages).map Msg.id = (selectView messages).map Msg.id := by
  rw [buildContextView, List.map_map]
  rfl

theorem losesNothing {messages : List Msg} (anchored : Anchored (marks messages) running)
    (distinct : (messages.map Msg.id).Nodup) :
    LosesNothing messages where
  uncompacted := by
    intro plain
    rw [buildContextView, selectView, lastSummary_eq_none plain]
  compacted := by
    intro compact behind found
    obtain ⟨before, covered, after, split, boundary, only⟩ := anchored_split anchored distinct found
    have selected := selectView_anchored distinct found split boundary only
    have present : compact ∈ after :=
      List.mem_of_mem_filter (by rw [only]; exact List.mem_cons_self)
    refine ⟨before, covered, after, split, boundary, present, ?_, ?_⟩
    · rw [buildContextView, selected]
    · intro message earlier listed
      rw [view_ids, selected, List.map_cons, List.mem_cons] at listed
      have later : message.id ∈ after.map Msg.id := by
        rcases listed with same | tail
        · rw [same]
          exact List.mem_map_of_mem present
        · obtain ⟨other, kept, same⟩ := List.mem_map.mp tail
          rw [← same]
          exact List.mem_map_of_mem (List.mem_of_mem_filter kept)
      rw [split, List.append_cons, List.map_append] at distinct
      exact (List.nodup_append.mp distinct).2.2 _ (List.mem_map_of_mem earlier) _ later rfl
  once := by
    rw [view_ids]
    cases found : lastSummary messages with
    | none =>
        rw [selectView, found]
        exact distinct
    | some summary =>
        obtain ⟨compact, behind⟩ := summary
        obtain ⟨before, covered, after, split, boundary, only⟩ :=
          anchored_split anchored distinct found
        rw [selectView_anchored distinct found split boundary only, List.map_cons,
          List.nodup_cons]
        have afterDistinct : (after.map Msg.id).Nodup := by
          rw [split, List.map_append, List.nodup_append] at distinct
          exact (List.nodup_cons.mp distinct.2.1).2
        have listed : compact ∈ after.filter isSummary := by
          rw [only]
          exact List.mem_cons_self
        constructor
        · intro again
          obtain ⟨other, kept, same⟩ := List.mem_map.mp again
          obtain ⟨present, plain⟩ := List.mem_filter.mp kept
          rw [List.inj_on_of_nodup_map afterDistinct present (List.mem_of_mem_filter listed) same,
            (List.mem_filter.mp listed).2] at plain
          cases plain
        · exact (List.filter_sublist.map Msg.id).nodup afterDistinct

theorem LosesNothing.tail_plain {history : List Msg} (kept : LosesNothing history) :
    ∀ message ∈ (buildContextView history).tail, isSummary message = false := by
  intro message present
  cases found : lastSummary history with
  | none =>
      have plain := lastSummary_split.lastSummary_none found
      rw [kept.uncompacted plain] at present
      obtain ⟨original, member, same⟩ := List.mem_map.mp (List.mem_of_mem_tail present)
      rw [← same]
      exact plain original member
  | some summary =>
      obtain ⟨compact, behind⟩ := summary
      obtain ⟨_, _, after, _, _, _, view, _⟩ := kept.compacted compact behind found
      rw [view, List.map_cons, List.tail_cons] at present
      obtain ⟨original, member, same⟩ := List.mem_map.mp present
      rw [← same]
      exact Bool.not_eq_true' _ ▸ (List.mem_filter.mp member).2

theorem getLast?_headMessages {view : List Msg} {last : Msg}
    (found : (headMessages view).getLast? = some last) : view.getLast? = some last := by
  cases view with
  | nil => cases found
  | cons first rest =>
      rw [headMessages] at found
      by_cases leading : first.name = .compact
      · rw [if_pos leading] at found
        rw [List.getLast?_cons, found]
        rfl
      · rwa [if_neg leading] at found

theorem boundary_last {messages : List Msg} {through : String}
    (anchored : Anchored (marks messages) running) (distinct : (messages.map Msg.id).Nodup)
    (plain : (messages.getLast?.all fun last => !isSummary last) = true)
    (started : boundaryOf messages = some through) :
    ∃ before last, messages = before ++ [last] ∧ last.id = through := by
  rw [boundaryOf_select] at started
  obtain ⟨last, headLast, own⟩ := Option.map_eq_some_iff.mp started
  have viewLast := getLast?_headMessages headLast
  suffices whole : messages.getLast? = some last by
    obtain ⟨before, parts⟩ := List.getLast?_eq_some_iff.mp whole
    exact ⟨before, last, parts, own⟩
  cases found : lastSummary messages with
  | none =>
      rw [selectView, found] at viewLast
      exact viewLast
  | some summary =>
      obtain ⟨compact, behind⟩ := summary
      obtain ⟨before, covered, after, split, boundary, only⟩ :=
        anchored_split anchored distinct found
      rw [selectView_anchored distinct found split boundary only] at viewLast
      rcases List.eq_nil_or_concat after with none | ⟨others, newest, parts⟩
      · rw [none] at only
        cases only
      · have whole : messages.getLast? = some newest := by
          rw [split, parts, List.concat_eq_append, ← List.cons_append, ← List.append_assoc]
          exact List.getLast?_concat
        rw [whole, Option.all_some] at plain
        rw [parts, List.concat_eq_append, List.filter_append,
          List.filter_cons_of_pos (l := []) (p := fun message => !isSummary message) plain,
          List.filter_nil, ← List.cons_append, List.getLast?_concat] at viewLast
        rw [whole, viewLast]

def CompactingState.Sound (state : CompactingState) : Prop :=
  Anchored (marks state.history) state.running

theorem sound_fresh : freshCompacting.Sound where
  newest := by
    intro entry through last
    cases last
  pending := by
    intro through started
    cases started

theorem sound_step {before after : CompactingState} {action : CompactingAction}
    (sound : before.Sound) (allowed : startsOnMessage before action)
    (stepped : compacting.step before action = some after) : after.Sound := by
  cases action with
  | write event =>
      obtain ⟨turn, moved⟩ := Option.ite_none_right_eq_some.mp stepped
      cases moved
      obtain ⟨added, grown, plain⟩ := grewPlain_event turn
      change Anchored (marks (applyEvent before.fold event).messages.items) before.running
      rw [grown]
      exact sound.grow plain
  | start =>
      obtain ⟨_, begun⟩ := Option.ite_none_right_eq_some.mp stepped
      obtain ⟨through, started, moved⟩ := Option.map_eq_some_iff.mp begun
      cases moved
      obtain ⟨earlier, last, parts, own⟩ :=
        boundary_last sound before.fold.messages.distinct (allowed rfl) started
      refine ⟨sound.newest, ?_⟩
      intro other same
      cases same
      refine ⟨marks earlier, mark last, [], ?_, own, rfl⟩
      change marks before.history = _
      rw [parts]
      exact List.map_append
  | finish event =>
      change (match before.running with
        | some through =>
            if storesSummary before through event then
              some (⟨applyEvent before.fold event, none⟩ : CompactingState)
            else none
        | none => none) = some after at stepped
      cases started : before.running with
      | none =>
          rw [started] at stepped
          cases stepped
      | some through =>
          rw [started] at stepped
          obtain ⟨stores, moved⟩ := Option.ite_none_right_eq_some.mp stepped
          cases moved
          cases kind : event.data with
          | compactMessage data =>
              rw [storesSummary, kind] at stores
              simp only [Bool.and_eq_true, decide_eq_true_eq] at stores
              obtain ⟨⟨summary, boundary⟩, fresh⟩ := stores
              change Anchored (marks (applyEvent before.fold event).messages.items) none
              rw [marks_summary kind summary fresh, boundary]
              unfold CompactingState.Sound at sound
              rw [started] at sound
              exact sound.summarise
          | _ =>
              rw [storesSummary, kind] at stores
              cases stores
  | abandon =>
      cases stepped
      exact sound.idle

/-- Where every compaction starts on a message, the view loses nothing. -/
theorem view_loses_nothing {state : CompactingState}
    (reached : compacting.Reaches startsOnMessage freshCompacting state) :
    LosesNothing state.history := by
  have sound : state.Sound := reached.invariant sound_fresh
    fun _ _ _ sound allowed stepped => sound_step sound allowed stepped
  exact losesNothing sound state.fold.messages.distinct

def spokenEvent (seq : Int) (id : String) : Event :=
  ⟨seq, seq, some id, .userMessage [.object [("type", .str "text"), ("text", .str id)]] .empty ""⟩

def compactEvent (seq : Int) (id through : String) : Event :=
  ⟨seq, seq, some id, .compactMessage ⟨"summary", "recap", through, "auto", 90, 9, 0, []⟩⟩

def pacedRun : List CompactingAction :=
  [.write (spokenEvent 1 "user_1"), .start, .write (spokenEvent 2 "user_2"),
    .finish (compactEvent 3 "compact_1" "user_1"), .write (spokenEvent 4 "user_3"), .start,
    .write (spokenEvent 5 "user_4"), .finish (compactEvent 6 "compact_2" "user_3")]

def hastyRun : List CompactingAction :=
  [.write (spokenEvent 1 "user_1"), .start, .write (spokenEvent 2 "user_2"),
    .finish (compactEvent 3 "compact_1" "user_1"), .start,
    .finish (compactEvent 4 "compact_2" "user_2")]

theorem paced_run_loses_nothing :
    ∃ state, compacting.runUnder startsOnMessage freshCompacting pacedRun = some state ∧
      state.history.map Msg.id =
        ["user_1", "user_2", "compact_1", "user_3", "user_4", "compact_2"] ∧
      (buildContextView state.history).map Msg.id = ["compact_2", "user_4"] ∧
      LosesNothing state.history := by
  have ran : (compacting.runUnder startsOnMessage freshCompacting pacedRun).map
      (fun state => (state.history.map Msg.id, (buildContextView state.history).map Msg.id)) =
      some (["user_1", "user_2", "compact_1", "user_3", "user_4", "compact_2"],
        ["compact_2", "user_4"]) := by
    decide
  obtain ⟨state, reached, ids⟩ := Option.map_eq_some_iff.mp ran
  exact ⟨state, reached, congrArg Prod.fst ids, congrArg Prod.snd ids,
    view_loses_nothing (StepSystem.reaches_of_runUnder reached)⟩

theorem hasty_run_shows_old_summary :
    ∃ state, compacting.run freshCompacting hastyRun = some state ∧
      (buildContextView state.history).map Msg.id = ["compact_2", "compact_1"] ∧
      compacting.Reaches StepSystem.anyStep freshCompacting state ∧
      ¬ LosesNothing state.history := by
  have ran : (compacting.run freshCompacting hastyRun).map
      (fun state => ((buildContextView state.history).map Msg.id,
        (buildContextView state.history).tail.all fun message => !isSummary message)) =
      some (["compact_2", "compact_1"], false) := by
    decide
  obtain ⟨state, reached, seen⟩ := Option.map_eq_some_iff.mp ran
  refine ⟨state, reached, congrArg Prod.fst seen, StepSystem.reaches_of_run reached, ?_⟩
  intro kept
  have plain : ((buildContextView state.history).tail.all fun message => !isSummary message) =
      true := by
    rw [List.all_eq_true]
    intro message present
    rw [kept.tail_plain message present]
    rfl
  have lost := congrArg Prod.snd seen
  exact Bool.false_ne_true (lost.symm.trans plain)

end Ftre.Compaction
