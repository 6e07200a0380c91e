import Ftre.Compaction.Marks
import Ftre.Compaction.SummaryList
import Ftre.Lib.StepSystem

/-!
User messages through successive compactions. Every summary lists the texts of the user
messages it covers, as long as no text closes the list and no reply opens one before it.
-/

namespace Ftre.Compaction

open Lib Message Session FoldState

inductive RecordKind where
  | summary (through text : String)
  | stray
  | spoken (text : String)
  | other
deriving DecidableEq

abbrev Record := String × RecordKind

def summaryText (message : Msg) : String := message.getTextContent.getD ""

def recordKind (message : Msg) : RecordKind :=
  if isSummary message then .summary (throughMessageId message) (summaryText message)
  else if message.name = .compact then .stray
  else
    match userText message with
    | some text => .spoken text
    | none => .other

def recordOf (message : Msg) : Record := (message.id, recordKind message)

def records (messages : List Msg) : List Record := messages.map recordOf

def RecordKind.spokenText : RecordKind → Option String
  | .spoken text => some text
  | _ => none

def RecordKind.isSummary : RecordKind → Bool
  | .summary _ _ => true
  | _ => false

def spokenTexts (entries : List Record) : List String :=
  (entries.filterMap fun entry => entry.2.spokenText).filterMap trimmedText

variable {message : Msg} {event : Event} {messages : List Msg} {running : Option CompactionInput}
  {input : CompactionInput} {texts : List String} {fold : FoldState}

theorem userText_name {text : String} (found : userText message = some text) :
    message.name = .default := by
  obtain ⟨visible, _⟩ := Option.ite_none_right_eq_some.mp found
  exact visible.2.1

theorem recordKind_spokenText (message : Msg) :
    (recordKind message).spokenText = userText message := by
  unfold recordKind
  cases found : userText message with
  | some text =>
      have name := userText_name found
      have plain : isSummary message = false := by
        simp [isSummary, name]
      rw [plain]
      simp only [Bool.false_eq_true, if_false, name, reduceCtorEq]
      rfl
  | none =>
      cases own : isSummary message with
      | true => rfl
      | false =>
          by_cases named : message.name = .compact
          · simp only [Bool.false_eq_true, if_false, if_pos named]
            rfl
          · simp only [Bool.false_eq_true, if_false, if_neg named]
            rfl

theorem spokenTexts_records (messages : List Msg) :
    spokenTexts (records messages) = extractUserMessageTexts messages := by
  rw [spokenTexts, records, List.filterMap_map, extractUserMessageTexts]
  congr 1
  apply List.filterMap_congr
  intro message _
  exact recordKind_spokenText message

theorem recordOf_congr {left right : Msg} (same : standing left = standing right)
    (answer : right.role ≠ .user) : recordOf left = recordOf right := by
  simp only [standing, Prod.mk.injEq] at same
  obtain ⟨ids, roles, names, _⟩ := same
  have plain : ∀ message : Msg, message.role ≠ .user →
      recordKind message = if message.name = .compact then .stray else .other := by
    intro message other
    have spoken : userText message = none := if_neg fun visible => other visible.1
    have summary : isSummary message = false := by simp [isSummary, other]
    rw [recordKind, summary, spoken]
    rfl
  rw [recordOf, recordOf, ids, plain left (by rw [roles]; exact answer), plain right answer, names]

/-! ### Events of turns -/

def isOwnEvent (state : FoldState) (event : Event) : Bool :=
  ((addressed state event).all fun held => decide (held.role ≠ .user)) &&
    (writtenMessage event).all fun message =>
      decide (message.name ≠ .compact) &&
        (state.messages.find? message.id).all fun held =>
          decide (held.role ≠ .user ∧ message.role ≠ .user)

def Tame (entries : List Record) : Prop := ∀ entry ∈ entries, entry.2 ≠ .stray

structure Added (event : Event) (added : List Record) : Prop where
  summary : ∀ entry ∈ added, entry.2.isSummary = false
  tame : Tame added
  spoken : ∀ entry ∈ added, ∀ text, entry.2 = .spoken text →
    (writtenMessage event).bind userText = some text

theorem Added.nil (event : Event) : Added event [] where
  summary := fun _entry present => absurd present List.not_mem_nil
  tame := fun _entry present => absurd present List.not_mem_nil
  spoken := fun _entry present => absurd present List.not_mem_nil

theorem record_answer {message : Msg} (answer : message.role ≠ .user)
    (named : message.name ≠ .compact) : recordKind message = .other := by
  have spoken : userText message = none := if_neg fun visible => answer visible.1
  have summary : isSummary message = false := by simp [isSummary, answer]
  rw [recordKind, summary, spoken]
  simp only [Bool.false_eq_true, if_false, if_neg named]

theorem Added.answer (event : Event) (answer : message.role ≠ .user)
    (named : message.name ≠ .compact) : Added event [recordOf message] := by
  have other := record_answer answer named
  constructor
  · intro entry present
    rw [List.mem_singleton.mp present, recordOf, other]
    rfl
  · intro entry present
    rw [List.mem_singleton.mp present, recordOf, other]
    nofun
  · intro entry present text spoken
    rw [List.mem_singleton.mp present, recordOf, other] at spoken
    cases spoken

theorem Added.user {event : Event} {message : Msg} (writes : writtenMessage event = some message)
    (named : message.name ≠ .compact) : Added event [recordOf message] := by
  have summary : isSummary message = false := by simp [isSummary, named]
  constructor
  · intro entry present
    rw [List.mem_singleton.mp present, recordOf, recordKind, summary]
    simp only [Bool.false_eq_true, if_false, if_neg named]
    cases userText message <;> rfl
  · intro entry present
    rw [List.mem_singleton.mp present, recordOf, recordKind, summary]
    simp only [Bool.false_eq_true, if_false, if_neg named]
    cases userText message with
    | none =>
        rintro ⟨⟩
    | some text =>
        rintro ⟨⟩
  · intro entry present text spoken
    rw [List.mem_singleton.mp present] at spoken
    have kept := recordKind_spokenText message
    change recordKind message = .spoken text at spoken
    rw [spoken] at kept
    rw [writes]
    exact kept.symm

theorem records_fresh {table : MessageTable} (fresh : table.find? message.id = none) :
    records (table.put message).items = records table.items ++ [recordOf message] := by
  change records (KeyedList.putItem Msg.id message table.items) = _
  rw [KeyedList.putItem_fresh ((KeyedList.find?_eq_none table message.id).mp fresh)]
  exact List.map_append

theorem records_over {table : MessageTable} (tame : Tame (records table.items))
    {held message : Msg} (found : table.find? message.id = some held)
    (answer : message.role ≠ .user) (named : message.name ≠ .compact)
    (heldAnswer : held.role ≠ .user) :
    records (table.put message).items = records table.items := by
  obtain ⟨member, ids⟩ := KeyedList.find?_mem found
  have heldNamed : held.name ≠ .compact := by
    intro named
    have summary : isSummary held = false := by simp [isSummary, heldAnswer]
    apply tame (recordOf held) (List.mem_map_of_mem member)
    rw [recordOf, recordKind, summary, if_pos named]
    rfl
  apply KeyedList.putItem_map recordOf
  · rw [← ids]
    exact List.mem_map_of_mem member
  · intro other same
    rw [Option.some.inj (same.symm.trans found), recordOf, recordOf, ids,
      record_answer answer named, record_answer heldAnswer heldNamed]

theorem records_kept {table : MessageTable} {held message : Msg} (member : held ∈ table.items)
    (same : standing message = standing held) (answer : held.role ≠ .user) :
    records (table.put message).items = records table.items := by
  have ids : message.id = held.id := congrArg Prod.fst same
  apply KeyedList.putItem_map recordOf
  · rw [ids]
    exact List.mem_map_of_mem member
  · intro other found
    rw [ids, KeyedList.lookupItem_of_mem table.distinct member] at found
    rw [← Option.some.inj found]
    exact (recordOf_congr same answer).symm

theorem sealTarget_role (target : sealTarget messages = some message) :
    message.role = .assistant := by
  unfold sealTarget at target
  cases last : messages.reverse.find? fun other => other.role ≠ .system with
  | none => rw [last] at target; cases target
  | some other =>
      rw [last] at target
      obtain ⟨unfinished, same⟩ := Option.ite_none_right_eq_some.mp target
      rw [← Option.some.inj same]
      exact unfinished.1

theorem records_seal (state : FoldState) (event : Event) :
    records (state.sealPreviousAssistant event).messages.items = records state.messages.items := by
  unfold sealPreviousAssistant
  cases target : sealTarget state.messages.items with
  | none => rfl
  | some message =>
      apply records_kept (sealTarget_mem target) (sealed_standing event message)
      rw [sealTarget_role target]
      nofun

theorem records_event {state : FoldState} (tame : Tame (records state.messages.items))
    (own : isOwnEvent state event = true) :
    ∃ added, records (applyEvent state event).messages.items =
      records state.messages.items ++ added ∧ Added event added := by
  obtain ⟨inPlace, whole⟩ := Bool.and_eq_true_iff.mp own
  have change := applyEvent_change state event
  generalize (applyEvent state event).messages = after at change ⊢
  cases change with
  | kept => exact ⟨[], (List.append_nil _).symm, .nil event⟩
  | changed found present same =>
      rw [found] at inPlace
      refine ⟨[], ?_, .nil event⟩
      rw [List.append_nil]
      exact records_kept present same (of_decide_eq_true inPlace)
  | @opened message fresh blank =>
      have role : message.role = .assistant := congrArg (fun parts => parts.2.1) blank
      have name : message.name = .default := congrArg (fun parts => parts.2.2.1) blank
      refine ⟨_, records_fresh fresh, .answer event ?_ ?_⟩
      · rw [role]
        nofun
      · rw [name]
        nofun
  | @written message base writes origin =>
      rw [writes, Option.all_some] at whole
      obtain ⟨named, finished⟩ := Bool.and_eq_true_iff.mp whole
      have quiet : records base.messages.items = records state.messages.items := by
        rcases origin with same | same
        · rw [same]
        · rw [same, records_seal]
      have answers : ∀ held, base.messages.find? message.id = some held →
          held.role ≠ .user ∧ message.role ≠ .user := by
        intro held found
        obtain ⟨stored, present, same⟩ := find?_base origin found
        rw [present] at finished
        have roles : stored.role = held.role := congrArg (fun parts => parts.2.1) same
        rw [← roles]
        exact of_decide_eq_true finished
      rw [← quiet] at tame ⊢
      cases found : base.messages.find? message.id with
      | none => exact ⟨_, records_fresh found, .user writes (of_decide_eq_true named)⟩
      | some held =>
          obtain ⟨heldAnswer, answer⟩ := answers held found
          refine ⟨[], ?_, .nil event⟩
          rw [List.append_nil]
          exact records_over tame found answer (of_decide_eq_true named) heldAnswer

structure CompactionInput where
  through : String
  headMessages : List Msg
  previousSummary : Option String
deriving DecidableEq

structure SummarizingState where
  fold : FoldState
  running : Option CompactionInput
deriving DecidableEq

variable (state : SummarizingState) (first : String)

def SummarizingState.history : List Msg := state.fold.messages.items

theorem SummarizingState.distinct : (state.history.map Msg.id).Nodup := state.fold.messages.distinct

def freshSummarizing : SummarizingState := ⟨.empty, none⟩

inductive SummarizingAction where
  /-- A turn or a fast trim writes an event. -/
  | write (event : Event)
  | start
  /-- The chunks have been answered and the summary is stored. -/
  | finish (event : Event) (replies : List String)
  | abandon
deriving DecidableEq

def compactionInput (messages : List Msg) : Option CompactionInput :=
  let view := buildContextView messages
  (boundaryOf messages).map fun through => ⟨through, headMessages view, previousSummary view⟩

def storesReplies (state : SummarizingState) (input : CompactionInput) (replies : List String)
    (event : Event) : Bool :=
  match event.data with
  | .compactMessage data =>
      decide (data.mode ≠ "fast") && decide (data.throughMessageId = input.through) &&
        decide (compactSummary input.headMessages input.previousSummary replies =
          some data.summaryText) &&
        (state.fold.messages.find? (event.messageId.getD "")).isNone
  | _ => false

def summarizingStep (state : SummarizingState) : SummarizingAction → Option SummarizingState
  | .write event =>
      if isOwnEvent state.fold event then
        some { state with fold := applyEvent state.fold event }
      else none
  | .start =>
      if state.running = none then
        (compactionInput state.history).map fun input => { state with running := some input }
      else none
  | .finish event replies =>
      match state.running with
      | some input =>
          if storesReplies state input replies event then
            some ⟨applyEvent state.fold event, none⟩
          else none
      | none => none
  | .abandon => some { state with running := none }

def summarizing : StepSystem SummarizingState SummarizingAction := ⟨summarizingStep⟩

/-- No user text closes the list of user messages, and no reply opens one before it. -/
def keepsTags (_ : SummarizingState) : SummarizingAction → Prop
  | .write event => (((writtenMessage event).bind userText).all fun text =>
      !hasTag listClose text) = true
  | .finish _ replies => ((replies.mapM parseChunkSections).all opensNoList) = true
  | _ => True

instance (state : SummarizingState) (action : SummarizingAction) :
    Decidable (keepsTags state action) := by
  cases action with
  | write event => exact inferInstanceAs (Decidable (_ = true))
  | start => exact inferInstanceAs (Decidable True)
  | finish event replies => exact inferInstanceAs (Decidable (_ = true))
  | abandon => exact inferInstanceAs (Decidable True)

/-! ### Lists in summaries -/

def CarriesTexts (texts : List String) (summary : String) : Prop :=
  ∃ content, searchSection "all_user_messages" summary = some content ∧
    ListsTexts texts (strip content)

def recordSummaries (entries : List Record) : List Record :=
  entries.filter fun entry => entry.2.isSummary

structure Listed (entries : List Record) (running : Option CompactionInput) : Prop where
  tame : Tame entries
  closed : ∀ entry ∈ entries, ∀ text, entry.2 = .spoken text → hasTag listClose text = false
  newest : ∀ id through text, (recordSummaries entries).getLast? = some (id, .summary through text) →
    ∃ before covered after, entries = before ++ covered :: after ∧ covered.1 = through ∧
      CarriesTexts (spokenTexts (before ++ [covered])) text
  pending : ∀ input, running = some input →
    ∃ before covered after, entries = before ++ covered :: after ∧ covered.1 = input.through ∧
      ∃ earlier, spokenTexts (before ++ [covered]) =
          earlier ++ extractUserMessageTexts input.headMessages ∧
        ListsTexts earlier ((previousList input.previousSummary).getD "")

theorem Listed.grow {entries added : List Record} {running : Option CompactionInput}
    (listed : Listed entries running) {event : Event} (kept : Added event added)
    (plain : (((writtenMessage event).bind userText).all fun text => !hasTag listClose text) = true) :
    Listed (entries ++ added) running where
  tame := by
    intro entry present
    exact (List.mem_append.mp present).elim (listed.tame entry) (kept.tame entry)
  closed := by
    intro entry present text spoken
    rcases List.mem_append.mp present with old | new
    · exact listed.closed entry old text spoken
    · rw [kept.spoken entry new text spoken, Option.all_some] at plain
      simpa using plain
  newest := by
    intro id through text last
    have none : recordSummaries added = [] := by
      apply List.filter_eq_nil_iff.mpr
      intro entry present
      rw [kept.summary entry present]
      exact Bool.false_ne_true
    rw [recordSummaries, List.filter_append] at last
    change (recordSummaries entries ++ recordSummaries added).getLast? = _ at last
    rw [none, List.append_nil] at last
    obtain ⟨before, covered, after, split, own, carries⟩ := listed.newest id through text last
    exact ⟨before, covered, after ++ added, by rw [split, List.append_assoc, List.cons_append],
      own, carries⟩
  pending := by
    intro input started
    obtain ⟨before, covered, after, split, own, earlier⟩ := listed.pending input started
    exact ⟨before, covered, after ++ added, by rw [split, List.append_assoc, List.cons_append],
      own, earlier⟩

theorem Listed.listable {entries part : List Record} (listed : Listed entries running)
    (inside : ∀ entry ∈ part, entry ∈ entries) : ∀ text ∈ spokenTexts part, Listable text := by
  intro text present
  obtain ⟨raw, spoken, trimmed⟩ := List.mem_filterMap.mp present
  obtain ⟨entry, member, own⟩ := List.mem_filterMap.mp spoken
  obtain ⟨visible, same⟩ := Option.ite_none_right_eq_some.mp trimmed
  have kind : entry.2 = .spoken raw := by
    cases kind : entry.2 with
    | spoken text =>
        rw [kind] at own
        cases own
        rfl
    | _ =>
        rw [kind] at own
        cases own
  have closed := listed.closed entry (inside entry member) raw kind
  rw [← Option.some.inj same]
  refine ⟨strip_strip raw, visible, ?_⟩
  rw [not_hasTag] at closed ⊢
  obtain ⟨front, back, parts⟩ := stripChars_part raw.toList
  rw [parts] at closed
  rw [strip, String.toList_ofList]
  exact absent_part closed

theorem Listed.summarise {entries : List Record} {replies : List String} {id summary : String}
    (listed : Listed entries (some input))
    (merged : compactSummary input.headMessages input.previousSummary replies = some summary)
    (plain : ((replies.mapM parseChunkSections).all opensNoList) = true) :
    Listed (entries ++ [(id, .summary input.through summary)]) none where
  tame := by
    intro entry present
    rcases List.mem_append.mp present with old | new
    · exact listed.tame entry old
    · rw [List.mem_singleton.mp new]
      nofun
  closed := by
    intro entry present text spoken
    rcases List.mem_append.mp present with old | new
    · exact listed.closed entry old text spoken
    · rw [List.mem_singleton.mp new] at spoken
      cases spoken
  newest := by
    intro other through text last
    rw [recordSummaries, List.filter_append] at last
    change (recordSummaries entries ++
      [(id, RecordKind.summary input.through summary)]).getLast? = _ at last
    rw [List.getLast?_concat] at last
    cases last
    obtain ⟨before, covered, after, split, own, earlier, texts, prior⟩ :=
      listed.pending input rfl
    refine ⟨before, covered, after ++ [(id, .summary input.through summary)],
      by rw [split, List.append_assoc, List.cons_append], own, ?_⟩
    have lists := build_lists prior input.headMessages
    rw [← texts] at lists
    obtain ⟨summaries, parsed, merges⟩ := Option.bind_eq_some_iff.mp merged
    rw [parsed, Option.all_some] at plain
    have body : strip (buildUserMessagesSection input.headMessages input.previousSummary) =
          buildUserMessagesSection input.headMessages input.previousSummary ∧
        hasTag listClose (buildUserMessagesSection input.headMessages input.previousSummary) =
          false := by
      by_cases none : spokenTexts (before ++ [covered]) = []
      · rw [none] at lists
        rw [lists.nil]
        exact ⟨rfl, rfl⟩
      · have listable := lists.listable (listed.listable fun entry present => by
          rw [split]
          rcases List.mem_append.mp present with front | last
          · exact List.mem_append_left _ front
          · rw [List.mem_singleton.mp last]
            simp) none
        exact ⟨listable.trimmed, listable.closed⟩
    obtain ⟨content, found, trimmed⟩ := searchSection_merged merges body.1 body.2 plain
    exact ⟨content, found, by rw [trimmed]; exact lists⟩
  pending := by
    intro other started
    cases started

/-! ### Starts -/

theorem getTextContent_congr {left right : Msg}
    (same : left.content.filterMap ContentBlock.asText? =
      right.content.filterMap ContentBlock.asText?) :
    left.getTextContent = right.getTextContent := by
  unfold Msg.getTextContent
  rw [same]

@[simp] theorem getTextContent_trim (trimIds : List String) (message : Msg) :
    (trimMessage trimIds message).getTextContent = message.getTextContent := by
  apply getTextContent_congr
  change (message.content.map (trimBlock trimIds)).filterMap ContentBlock.asText? = _
  rw [List.filterMap_map]
  apply List.filterMap_congr
  intro block _
  cases block with
  | toolResult result =>
      rw [Function.comp_apply, trimBlock]
      split <;> rfl
  | _ => rfl

@[simp] theorem userText_trim (trimIds : List String) (message : Msg) :
    userText (trimMessage trimIds message) = userText message := by
  unfold userText
  rw [getTextContent_trim]
  rfl

theorem extract_trim (trimIds : List String) (messages : List Msg) :
    extractUserMessageTexts (messages.map (trimMessage trimIds)) =
      extractUserMessageTexts messages := by
  rw [extractUserMessageTexts, List.filterMap_map, extractUserMessageTexts]
  congr 1
  apply List.filterMap_congr
  intro message _
  exact userText_trim trimIds message

theorem getLast?_filter {p : Msg → Bool} {messages : List Msg} {last : Msg}
    (found : (messages.filter p).getLast? = some last) :
    ∃ before behind, messages = before ++ last :: behind ∧ ∀ message ∈ behind, p message = false := by
  rw [List.getLast?_eq_head?_reverse, ← List.filter_reverse, List.head?_filter,
    List.find?_eq_some_iff_append] at found
  obtain ⟨_, behind, before, split, plain⟩ := found
  refine ⟨before.reverse, behind.reverse, ?_, ?_⟩
  · rw [← List.reverse_reverse messages, split]
    simp
  · intro message present
    simpa using plain message (List.mem_reverse.mp present)

theorem extract_filter {p : Msg → Bool}
    (silent : ∀ message ∈ messages, p message = false → userText message = none) :
    extractUserMessageTexts (messages.filter p) = extractUserMessageTexts messages := by
  rw [extractUserMessageTexts, List.filterMap_filter, extractUserMessageTexts]
  congr 1
  apply List.filterMap_congr
  intro message present
  cases kept : p message with
  | true => rfl
  | false => exact (silent message present kept).symm

theorem extract_append (left right : List Msg) :
    extractUserMessageTexts (left ++ right) =
      extractUserMessageTexts left ++ extractUserMessageTexts right := by
  rw [extractUserMessageTexts, List.filterMap_append, List.filterMap_append]
  rfl

theorem extract_silent (silent : ∀ message ∈ messages, userText message = none) :
    extractUserMessageTexts messages = [] := by
  rw [extractUserMessageTexts, List.filterMap_eq_nil_iff.mpr silent]
  rfl

theorem recordSummaries_records (messages : List Msg) :
    recordSummaries (records messages) = records (messages.filter isSummary) := by
  rw [recordSummaries, records, List.filter_map, records]
  congr 1
  apply List.filter_congr
  intro message _
  change (recordKind message).isSummary = isSummary message
  unfold recordKind
  cases own : isSummary message with
  | true => rfl
  | false =>
      by_cases named : message.name = .compact
      · simp only [Bool.false_eq_true, if_false, if_pos named]
        rfl
      · simp only [Bool.false_eq_true, if_false, if_neg named]
        cases userText message <;> rfl

variable {messages behind : List Msg}

theorem getLast?_recordSummaries {compact : Msg}
    (found : lastSummary messages = some (compact, behind)) :
    (recordSummaries (records messages)).getLast? =
      some (compact.id, .summary (throughMessageId compact) (summaryText compact)) := by
  obtain ⟨before, split, own, plain⟩ := lastSummary_split found
  have none : behind.filter isSummary = [] := by
    apply List.filter_eq_nil_iff.mpr
    intro message present
    rw [plain message present]
    exact Bool.false_ne_true
  have record : recordOf compact =
      (compact.id, .summary (throughMessageId compact) (summaryText compact)) := by
    rw [recordOf, recordKind, own]
    rfl
  rw [recordSummaries_records, split, List.filter_append, List.filter_cons_of_pos own, none,
    records, List.map_append, ← record]
  exact List.getLast?_concat

theorem Listed.split {compact : Msg} (listed : Listed (records messages) running)
    (found : lastSummary messages = some (compact, behind)) :
    ∃ before covered after, messages = before ++ covered :: after ∧
      covered.id = throughMessageId compact ∧
      CarriesTexts (extractUserMessageTexts (before ++ [covered])) (summaryText compact) := by
  obtain ⟨first, entry, rest, split, boundary, carries⟩ :=
    listed.newest _ _ _ (getLast?_recordSummaries found)
  obtain ⟨before, others, parts, fronts, tail⟩ := List.map_eq_append_iff.mp split
  obtain ⟨covered, after, opened, same, _⟩ := List.map_eq_cons_iff.mp tail
  rw [opened] at parts
  refine ⟨before, covered, after, parts, by rw [← boundary, ← same]; rfl, ?_⟩
  rw [← spokenTexts_records]
  have whole : records (before ++ [covered]) = first ++ [entry] := by
    rw [records, List.map_append, fronts, List.map_singleton, same]
  rw [whole]
  exact carries

theorem not_carries_blank : ¬ CarriesTexts texts "" := by
  rintro ⟨content, found, _⟩
  cases found

theorem previousList_carried (carries : CarriesTexts texts (summaryText message)) :
    ListsTexts texts ((previousList message.getTextContent).getD "") := by
  unfold summaryText at carries
  cases words : message.getTextContent with
  | none =>
      rw [words] at carries
      exact absurd carries not_carries_blank
  | some text =>
      rw [words] at carries
      obtain ⟨content, inside, lists⟩ := carries
      change searchSection "all_user_messages" text = some content at inside
      have prior : (previousList (some text)).getD "" = strip content := by
        rw [previousList, Option.bind_some, inside, Option.bind_some, trimmedText]
        by_cases blank : strip content = ""
        · rw [if_neg (by simp [blank]), blank]
          rfl
        · rw [if_pos blank]
          rfl
      rw [prior]
      exact lists

/-- A compaction up to `last` continues a list with the texts it reads. -/
def Continues (messages : List Msg) (last : Msg) : Prop :=
  ∃ before behind earlier, messages = before ++ last :: behind ∧
    extractUserMessageTexts (before ++ [last]) =
      earlier ++ extractUserMessageTexts (headMessages (selectView messages)) ∧
    ListsTexts earlier ((previousList (previousSummary (buildContextView messages))).getD "")

theorem continues_first {last : Msg} (tame : Tame (records messages))
    (found : lastSummary messages = none)
    (headLast : (headMessages (selectView messages)).getLast? = some last) :
    Continues messages last := by
  have plain := lastSummary_split.lastSummary_none found
  have whole : selectView messages = messages := by rw [selectView, found]
  have unnamed : ∀ message ∈ messages, message.name ≠ .compact := by
    intro message present named
    apply tame (recordOf message) (List.mem_map_of_mem present)
    rw [recordOf, recordKind, plain message present, if_pos named]
    rfl
  have heads : headMessages messages = messages := by
    cases messages with
    | nil => rfl
    | cons first rest => exact if_neg (unnamed first List.mem_cons_self)
  have none : previousSummary (buildContextView messages) = none := by
    rw [buildContextView, whole]
    cases messages with
    | nil => rfl
    | cons first rest => exact if_neg (unnamed first List.mem_cons_self)
  rw [whole, heads] at headLast
  obtain ⟨before, split⟩ := List.getLast?_eq_some_iff.mp headLast
  refine ⟨before, [], [], split, by rw [whole, heads, split]; rfl, [], rfl, ?_⟩
  rw [none]
  rfl

theorem continues_next {compact last : Msg} (listed : Listed (records messages) running)
    (distinct : (messages.map Msg.id).Nodup) (found : lastSummary messages = some (compact, behind))
    (headLast : (headMessages (selectView messages)).getLast? = some last) :
    Continues messages last := by
  obtain ⟨before, covered, after, split, boundary, carries⟩ := listed.split found
  obtain ⟨_, placed, summary, _⟩ := lastSummary_split found
  have named : compact.name = .compact := by
    rw [isSummary, Bool.and_eq_true] at summary
    exact of_decide_eq_true summary.2
  have present : compact ∈ messages := by
    rw [placed]
    simp
  have behindCovered : behindMessage (throughMessageId compact) messages = some after := by
    rw [split, ← boundary]
    apply behindMessage_of_split
    rw [← split]
    exact distinct
  have selected : selectView messages =
      compact :: after.filter fun item => item.id ≠ compact.id := by
    rw [selectView, found]
    simp only [behindCovered]
  have heads : headMessages (selectView messages) =
      after.filter fun item => item.id ≠ compact.id := by
    rw [selected, headMessages, if_pos named]
  have silent : userText compact = none := by
    apply if_neg
    intro visible
    rw [named] at visible
    cases visible.2.1
  -- What the view leaves out behind the boundary is the summary itself.
  have only : ∀ message ∈ after, decide (message.id ≠ compact.id) = false →
      userText message = none := by
    intro message inside dropped
    have ids : message.id = compact.id := by simpa using dropped
    have member : message ∈ messages := by
      rw [split]
      simp [inside]
    rw [List.inj_on_of_nodup_map distinct member present ids]
    exact silent
  rw [heads] at headLast
  obtain ⟨front, dropped, parts, plain⟩ := getLast?_filter headLast
  refine ⟨before ++ covered :: front, dropped, extractUserMessageTexts (before ++ [covered]),
    ?_, ?_, ?_⟩
  · rw [split, parts, List.append_assoc, List.cons_append]
  · have rest : extractUserMessageTexts dropped = [] := by
      apply extract_silent
      intro message inside
      exact only message (by rw [parts]; simp [inside]) (plain message inside)
    have regroup : before ++ covered :: front ++ [last] =
        (before ++ [covered]) ++ (front ++ [last]) := by simp
    have tail : extractUserMessageTexts after = extractUserMessageTexts (front ++ [last]) := by
      rw [parts, List.append_cons, extract_append (front ++ [last]), rest, List.append_nil]
    rw [heads, extract_filter only, regroup, extract_append, tail]
  · have text : previousSummary (buildContextView messages) = compact.getTextContent := by
      rw [buildContextView, selected, List.map_cons, previousSummary, trimMessage_name,
        if_pos named, getTextContent_trim]
    rw [text]
    exact previousList_carried carries

theorem Listed.start (listed : Listed (records messages) running)
    (distinct : (messages.map Msg.id).Nodup) (started : compactionInput messages = some input) :
    Listed (records messages) (some input) where
  tame := listed.tame
  closed := listed.closed
  newest := listed.newest
  pending := by
    intro other same
    cases same
    obtain ⟨through, boundary, same⟩ := Option.map_eq_some_iff.mp started
    subst same
    rw [boundaryOf_select] at boundary
    obtain ⟨last, headLast, own⟩ := Option.map_eq_some_iff.mp boundary
    have continues : Continues messages last := by
      cases found : lastSummary messages with
      | none => exact continues_first listed.tame found headLast
      | some summary => exact continues_next listed distinct found headLast
    obtain ⟨before, behind, earlier, split, texts, prior⟩ := continues
    refine ⟨records before, recordOf last, records behind, ?_, own, earlier, ?_, prior⟩
    · conv_lhs => rw [split]
      exact List.map_append
    · have whole : records before ++ [recordOf last] = records (before ++ [last]) := by
        rw [records, records, List.map_append]
        rfl
      rw [whole, spokenTexts_records, texts, buildContextView,
        headMessages_map (trimMessage_name _), extract_trim]

/-! ### Runs -/

def SummarizingState.Sound (state : SummarizingState) : Prop :=
  Listed (records state.history) state.running

theorem records_summary {state : FoldState} {data : CompactData}
    (compacts : event.data = .compactMessage data) (summary : data.mode ≠ "fast")
    (fresh : state.messages.find? (event.messageId.getD "") = none) :
    records (applyEvent state event).messages.items = records state.messages.items ++
      [(event.messageId.getD "", .summary data.throughMessageId data.summaryText)] := by
  have sealedFresh : (state.sealPreviousAssistant event).messages.find?
      (compactMessageOf event data).id = none := by
    rw [compactMessageOf, if_neg summary]
    cases found : (state.sealPreviousAssistant event).messages.find?
        (summaryMessageOf event data).id with
    | none => rfl
    | some held =>
        obtain ⟨earlier, present, _⟩ := find?_seal found
        change state.messages.find? (event.messageId.getD "") = some earlier at present
        rw [fresh] at present
        cases present
  have record : recordOf (compactMessageOf event data) =
      (event.messageId.getD "", .summary data.throughMessageId data.summaryText) := by
    rw [compactMessageOf, if_neg summary, recordOf, recordKind,
      throughMessageId_summary event data]
    rfl
  rw [applyEvent, compacts]
  change records ((state.sealPreviousAssistant event).messages.put
    (compactMessageOf event data)).items = _
  rw [records_fresh sealedFresh, records_seal, record]

theorem sound_freshSummarizing : freshSummarizing.Sound where
  tame := fun _entry present => absurd present List.not_mem_nil
  closed := fun _entry present => absurd present List.not_mem_nil
  newest := by
    intro id through text last
    cases last
  pending := by
    intro input started
    cases started

theorem sound_summarizing {before after : SummarizingState} {action : SummarizingAction}
    (sound : before.Sound) (allowed : keepsTags before action)
    (stepped : summarizing.step before action = some after) : after.Sound := by
  cases action with
  | write event =>
      obtain ⟨own, moved⟩ := Option.ite_none_right_eq_some.mp stepped
      cases moved
      obtain ⟨added, grown, kept⟩ := records_event sound.tame own
      change Listed (records (applyEvent before.fold event).messages.items) before.running
      rw [grown]
      exact sound.grow kept allowed
  | start =>
      obtain ⟨_, begun⟩ := Option.ite_none_right_eq_some.mp stepped
      obtain ⟨input, started, moved⟩ := Option.map_eq_some_iff.mp begun
      cases moved
      exact Listed.start sound before.fold.messages.distinct started
  | finish event replies =>
      change (match before.running with
        | some input =>
            if storesReplies before input replies event then
              some (⟨applyEvent before.fold event, none⟩ : SummarizingState)
            else none
        | none => none) = some after at stepped
      cases started : before.running with
      | none =>
          rw [started] at stepped
          cases stepped
      | some input =>
          rw [started] at stepped
          obtain ⟨stores, moved⟩ := Option.ite_none_right_eq_some.mp stepped
          cases moved
          cases kind : event.data with
          | compactMessage data =>
              rw [storesReplies, kind] at stores
              simp only [Bool.and_eq_true, decide_eq_true_eq, Option.isNone_iff_eq_none] at stores
              obtain ⟨⟨⟨summary, boundary⟩, merged⟩, fresh⟩ := stores
              change Listed (records (applyEvent before.fold event).messages.items) none
              rw [records_summary kind summary fresh, boundary]
              unfold SummarizingState.Sound at sound
              rw [started] at sound
              exact sound.summarise merged allowed
          | _ =>
              rw [storesReplies, kind] at stores
              cases stores
  | abandon =>
      cases stepped
      exact ⟨sound.tame, sound.closed, sound.newest, by intro other started; cases started⟩

/-- Every visible message of the user that the newest summary covers is listed in it, each
once and in order; a text without outer whitespace is listed as it is. -/
def ListsUserTexts (history : List Msg) : Prop :=
  ∀ compact behind, lastSummary history = some (compact, behind) →
    ∃ before covered after content, history = before ++ covered :: after ∧
      covered.id = throughMessageId compact ∧
      searchSection "all_user_messages" (summaryText compact) = some content ∧
      ListsTexts (extractUserMessageTexts (before ++ [covered])) (strip content) ∧
      ((∀ text ∈ (before ++ [covered]).filterMap userText, strip text = text) →
        ListsTexts (((before ++ [covered]).filterMap userText).filter fun text => text ≠ "")
          (strip content))

theorem trimmed_verbatim (trimmed : ∀ text ∈ texts, strip text = text) :
    texts.filterMap trimmedText = texts.filter fun text => text ≠ "" := by
  rw [← List.filterMap_eq_filter]
  apply List.filterMap_congr
  intro text present
  rw [trimmedText, trimmed text present, Option.guard]
  by_cases blank : text = ""
  · simp [blank]
  · simp [blank]

/-- Where no tag of the list gets into texts or replies, user messages survive every
compaction. -/
theorem summaries_list_user_texts {state : SummarizingState}
    (reached : summarizing.Reaches keepsTags freshSummarizing state) :
    ListsUserTexts state.history := by
  have sound : state.Sound := reached.invariant sound_freshSummarizing
    fun _ _ _ sound allowed stepped => sound_summarizing sound allowed stepped
  intro compact behind found
  obtain ⟨before, covered, after, split, boundary, content, inside, lists⟩ := sound.split found
  refine ⟨before, covered, after, content, split, boundary, inside, lists, ?_⟩
  intro trimmed
  rw [← trimmed_verbatim trimmed]
  exact lists

/-! ### Two compactions -/

def userEvent (seq : Int) (id text : String) : Event :=
  ⟨seq, seq, some id, .userMessage [.object [("type", .str "text"), ("text", .str text)]] .empty ""⟩

def chunkReply : String := "<current_work>testing</current_work>"

def chunkSections : Sections :=
  llmSummarySectionOrder.map fun name => (name, if name = "current_work" then "testing" else "")

def replyLetters : List Char :=
  ['<', 'c', 'u', 'r', 'r', 'e', 'n', 't', '_', 'w', 'o', 'r', 'k', '>', 't', 'e', 's', 't', 'i',
    'n', 'g', '<', '/', 'c', 'u', 'r', 'r', 'e', 'n', 't', '_', 'w', 'o', 'r', 'k', '>']

theorem chunkReply_letters : chunkReply = String.ofList replyLetters := rfl

theorem chunkReply_clean :
    strip (removeTokens analysisToken (strip (removeTokens fenceToken chunkReply))) =
      chunkReply := by
  have fences : removeAll fenceToken replyLetters.length replyLetters = replyLetters := by
    decide
  have analyses : removeAll analysisToken replyLetters.length replyLetters = replyLetters := by
    decide
  have trimmed : strip (String.ofList replyLetters) = String.ofList replyLetters := by
    have letters : stripChars replyLetters = replyLetters := by decide
    rw [strip, String.toList_ofList, letters]
  have unfenced : removeTokens fenceToken (String.ofList replyLetters) =
      String.ofList replyLetters := by
    rw [removeTokens, String.toList_ofList, String.length_ofList, fences]
  have unanalysed : removeTokens analysisToken (String.ofList replyLetters) =
      String.ofList replyLetters := by
    rw [removeTokens, String.toList_ofList, String.length_ofList, analyses]
  rw [chunkReply_letters, unfenced, trimmed, unanalysed, trimmed]

theorem chunkReply_searched : ∀ name ∈ llmSummarySectionOrder,
    searchSection name chunkReply = if name = "current_work" then some "testing" else none := by
  have found : ∀ name ∈ llmSummarySectionOrder,
      findBetween (tagPattern (openTag name)) (tagPattern (closeTag name)) replyLetters =
        if name = "current_work" then some ['t', 'e', 's', 't', 'i', 'n', 'g'] else none := by
    decide
  intro name ordered
  rw [searchSection, chunkReply_letters, String.toList_ofList, found name ordered]
  by_cases work : name = "current_work"
  · rw [if_pos work, if_pos work]
    rfl
  · rw [if_neg work, if_neg work]
    rfl

theorem chunkReply_sections : parseChunkSections chunkReply = some chunkSections := by
  have testing : strip "testing" = "testing" := by decide
  have sections : (llmSummarySectionOrder.map fun name =>
      (name, ((searchSection name chunkReply).map strip).getD "")) = chunkSections := by
    apply List.map_congr_left
    intro name ordered
    rw [chunkReply_searched name ordered]
    by_cases work : name = "current_work"
    · rw [if_pos work, if_pos work, Option.map_some, Option.getD_some, testing]
    · rw [if_neg work, if_neg work, Option.map_none, Option.getD_none]
  have filled : (chunkSections.any fun part => part.2 ≠ "") = true := by decide
  unfold parseChunkSections
  dsimp only
  rw [chunkReply_clean, sections, if_pos filled]

def summaryOf (userMessages : String) : String :=
  (mergeChunkSummaries [chunkSections] userMessages).getD ""

theorem merged_chunk (userMessages : String) :
    mergeChunkSummaries [chunkSections] userMessages = some (summaryOf userMessages) := by
  have said : ([chunkSections].any fun part => summarySectionOrder.any fun name =>
      sectionText part name ≠ "") = true := by decide
  rw [summaryOf, mergeChunkSummaries, if_pos said, Option.getD_some]

theorem compactSummary_chunk (headMessages : List Msg) (previous : Option String) :
    compactSummary headMessages previous [chunkReply] =
      some (summaryOf (buildUserMessagesSection headMessages previous)) := by
  have parsed : [chunkReply].mapM parseChunkSections = some [chunkSections] := by
    rw [List.mapM_cons, chunkReply_sections]
    rfl
  rw [compactSummary, parsed, Option.bind_some, merged_chunk]

def summaryEvent (seq : Int) (id through userMessages : String) : Event :=
  ⟨seq, seq, some id, .compactMessage
    ⟨"summary", summaryOf userMessages, through, "auto", 90, 9, 0, []⟩⟩

def keptSentence : String := "keep this sentence in every later summary"

theorem keptSentence_listable : Listable keptSentence := by
  refine ⟨?_, ?_, ?_⟩ <;> decide

def firstFold (first : String) : FoldState :=
  foldEvents .empty [userEvent 1 "u1" first, userEvent 2 "u2" keptSentence]

def firstList (first : String) : String :=
  "\n\n".intercalate [userEntry 1 first, userEntry 2 keptSentence]

def secondFold (first : String) : FoldState :=
  foldEvents (firstFold first)
    [summaryEvent 3 "c1" "u2" (firstList first), userEvent 4 "u3" "more"]

def secondList (kept : String) : String := "\n\n".intercalate [kept, userEntry 1 "more"]

def lastEvent (kept : String) : Event := summaryEvent 5 "c2" "u3" (secondList kept)

def spoken (seq : Int) (id text : String) : Msg :=
  userMessageOf (userEvent seq id text) [.object [("type", .str "text"), ("text", .str text)]]
    .empty

def summarised (seq : Int) (id through userMessages : String) : Msg :=
  summaryMessageOf (summaryEvent seq id through userMessages)
    ⟨"summary", summaryOf userMessages, through, "auto", 90, 9, 0, []⟩

theorem spoken_id {id : String} (seq : Int) (text : String) (named : id ≠ "") :
    (spoken seq id text).id = id := by
  change ((if id = "" then none else some id).getD _) = id
  rw [if_neg named, Option.getD_some]

theorem summarised_id (seq : Int) (id through userMessages : String) :
    (summarised seq id through userMessages).id = id := rfl

theorem sealPreviousAssistant_users {fold : FoldState}
    (users : ∀ message ∈ fold.messages.items, message.role = .user) (event : Event) :
    fold.sealPreviousAssistant event = fold := by
  have none : FoldState.sealTarget fold.messages.items = none := by
    unfold FoldState.sealTarget
    cases last : fold.messages.items.reverse.find? fun message => message.role ≠ .system with
    | none => rfl
    | some message =>
        have user := users message (List.mem_reverse.mp (List.mem_of_find?_eq_some last))
        simp only [user]
        rfl
  rw [FoldState.sealPreviousAssistant, none]

theorem users_spoken (users : ∀ message ∈ messages, message.role = .user) (seq : Int)
    (id text : String) : ∀ message ∈ messages ++ [spoken seq id text], message.role = .user := by
  intro message member
  rcases List.mem_append.mp member with earlier | last
  · exact users message earlier
  · rw [List.mem_singleton.mp last]
    rfl

theorem users_summarised (users : ∀ message ∈ messages, message.role = .user) (seq : Int)
    (id through userMessages : String) :
    ∀ message ∈ messages ++ [summarised seq id through userMessages], message.role = .user := by
  intro message member
  rcases List.mem_append.mp member with earlier | last
  · exact users message earlier
  · rw [List.mem_singleton.mp last]
    rfl

theorem messages_spoken {id : String} (named : id ≠ "")
    (users : ∀ message ∈ fold.messages.items, message.role = .user)
    (fresh : id ∉ fold.messages.items.map Msg.id) (seq : Int) (text : String) :
    (applyEvent fold (userEvent seq id text)).messages.items =
      fold.messages.items ++ [spoken seq id text] := by
  have kind : (userEvent seq id text).data =
      .userMessage [.object [("type", .str "text"), ("text", .str text)]] .empty "" := rfl
  rw [applyEvent, kind]
  dsimp only
  rw [sealPreviousAssistant_users users]
  apply KeyedList.putItem_fresh
  change (spoken seq id text).id ∉ fold.messages.items.map Msg.id
  rw [spoken_id seq text named]
  exact fresh

theorem messages_summarised {id : String}
    (users : ∀ message ∈ fold.messages.items, message.role = .user)
    (fresh : id ∉ fold.messages.items.map Msg.id) (seq : Int) (through userMessages : String) :
    (applyEvent fold (summaryEvent seq id through userMessages)).messages.items =
      fold.messages.items ++ [summarised seq id through userMessages] := by
  have full : "summary" ≠ "fast" := by decide
  have kind : (summaryEvent seq id through userMessages).data =
      .compactMessage ⟨"summary", summaryOf userMessages, through, "auto", 90, 9, 0, []⟩ := rfl
  rw [applyEvent, kind]
  dsimp only
  rw [sealPreviousAssistant_users users, compactMessageOf, if_neg full]
  exact KeyedList.putItem_fresh fresh

def firstHistory (first : String) : List Msg :=
  [spoken 1 "u1" first, spoken 2 "u2" keptSentence]

def secondHistory (first : String) : List Msg :=
  firstHistory first ++ [summarised 3 "c1" "u2" (firstList first)] ++ [spoken 4 "u3" "more"]

theorem firstHistory_ids : (firstHistory first).map Msg.id = ["u1", "u2"] := by
  rw [firstHistory, List.map_cons, List.map_cons, List.map_nil, spoken_id 1 first (by decide),
    spoken_id 2 keptSentence (by decide)]

theorem secondHistory_ids : (secondHistory first).map Msg.id = ["u1", "u2", "c1", "u3"] := by
  rw [secondHistory, List.map_append, List.map_append, firstHistory_ids, List.map_cons,
    List.map_nil, List.map_cons, List.map_nil, spoken_id 4 "more" (by decide), summarised_id]
  rfl

theorem firstHistory_users : ∀ message ∈ firstHistory first, message.role = .user := by
  have opening := users_spoken (fun _ member => absurd member List.not_mem_nil) 1 "u1" first
  exact users_spoken opening 2 "u2" keptSentence

theorem secondHistory_users : ∀ message ∈ secondHistory first, message.role = .user :=
  users_spoken (users_summarised (firstHistory_users first) 3 "c1" "u2" (firstList first))
    4 "u3" "more"

theorem firstFold_items : (firstFold first).messages.items = firstHistory first := by
  have one : (applyEvent .empty (userEvent 1 "u1" first)).messages.items =
      [spoken 1 "u1" first] :=
    messages_spoken (by decide) (List.forall_mem_nil _) List.not_mem_nil 1 first
  have users : ∀ message ∈ (applyEvent .empty (userEvent 1 "u1" first)).messages.items,
      message.role = .user := by
    rw [one]
    exact users_spoken (List.forall_mem_nil _) 1 "u1" first
  have fresh : "u2" ∉ (applyEvent .empty (userEvent 1 "u1" first)).messages.items.map Msg.id := by
    rw [one, List.map_cons, spoken_id 1 first (by decide)]
    decide
  have two := messages_spoken (by decide) users fresh 2 keptSentence
  rw [one] at two
  exact two

theorem secondFold_items : (secondFold first).messages.items = secondHistory first := by
  have users : ∀ message ∈ (firstFold first).messages.items, message.role = .user := by
    rw [firstFold_items]
    exact firstHistory_users first
  have fresh : "c1" ∉ (firstFold first).messages.items.map Msg.id := by
    rw [firstFold_items, firstHistory_ids]
    decide
  have compacted := messages_summarised users fresh 3 "u2" (firstList first)
  have others := users_summarised users 3 "c1" "u2" (firstList first)
  rw [← compacted] at others
  have unused : "u3" ∉ ((applyEvent (firstFold first)
      (summaryEvent 3 "c1" "u2" (firstList first))).messages.items).map Msg.id := by
    rw [compacted, firstFold_items, List.map_append, firstHistory_ids, List.map_cons, List.map_nil,
      summarised_id]
    decide
  have last := messages_spoken (by decide) others unused 4 "more"
  rw [compacted, firstFold_items] at last
  exact last

theorem find?_fresh {id : String} (fresh : id ∉ fold.messages.items.map Msg.id) :
    fold.messages.find? id = none :=
  (KeyedList.find?_eq_none fold.messages id).mpr fresh

theorem firstFold_fresh : (firstFold first).messages.find? "c1" = none := by
  apply find?_fresh
  rw [firstFold_items, firstHistory_ids]
  decide

theorem secondFold_fresh : (secondFold first).messages.find? "c2" = none := by
  apply find?_fresh
  rw [secondFold_items, secondHistory_ids]
  decide

def inputOf (through : String) (messages : List Msg) : CompactionInput :=
  ⟨through, headMessages (buildContextView messages), previousSummary (buildContextView messages)⟩

def twoCompactions (first kept : String) : List SummarizingAction :=
  [.write (userEvent 1 "u1" first), .write (userEvent 2 "u2" keptSentence), .start,
    .finish (summaryEvent 3 "c1" "u2" (firstList first)) [chunkReply],
    .write (userEvent 4 "u3" "more"), .start, .finish (lastEvent kept) [chunkReply]]

def lastState (first kept : String) : SummarizingState :=
  ⟨applyEvent (secondFold first) (lastEvent kept), none⟩

theorem start_step {fold : FoldState} {through : String}
    (boundary : boundaryOf fold.messages.items = some through) :
    summarizing.step ⟨fold, none⟩ .start = some ⟨fold, some (inputOf through fold.messages.items)⟩ := by
  have input : compactionInput fold.messages.items =
      some (inputOf through fold.messages.items) := by
    rw [compactionInput, boundary]
    rfl
  change (if (none : Option CompactionInput) = none then
    (compactionInput fold.messages.items).map fun input =>
      (⟨fold, some input⟩ : SummarizingState) else none) = _
  rw [if_pos rfl, input]
  rfl

theorem finish_step {seq : Int} {id through userMessages : String}
    (boundary : through = input.through)
    (list : buildUserMessagesSection input.headMessages input.previousSummary = userMessages)
    (fresh : fold.messages.find? id = none) :
    summarizing.step ⟨fold, some input⟩ (.finish (summaryEvent seq id through userMessages)
        [chunkReply]) =
      some ⟨applyEvent fold (summaryEvent seq id through userMessages), none⟩ := by
  apply if_pos
  change (decide ("summary" ≠ "fast") && decide (through = input.through) &&
    decide (compactSummary input.headMessages input.previousSummary [chunkReply] =
      some (summaryOf userMessages)) && (fold.messages.find? id).isNone) = true
  rw [compactSummary_chunk, list, fresh, boundary]
  simp

theorem first_built {first : String} (listed : extractUserMessageTexts
      (headMessages (buildContextView (firstFold first).messages.items)) =
      [first, keptSentence]) :
    buildUserMessagesSection (inputOf "u2" (firstFold first).messages.items).headMessages
      (inputOf "u2" (firstFold first).messages.items).previousSummary = firstList first := by
  have none : previousSummary (buildContextView (firstFold first).messages.items) = none := by rfl
  simp only [inputOf]
  rw [buildUserMessagesSection, listed, none]
  rfl

theorem second_view :
    selectView (secondHistory first) =
      [summarised 3 "c1" "u2" (firstList first), spoken 4 "u3" "more"] := by
  have newest : lastSummary (secondHistory first) =
      some (summarised 3 "c1" "u2" (firstList first), [spoken 4 "u3" "more"]) := rfl
  have through : throughMessageId (summarised 3 "c1" "u2" (firstList first)) = "u2" :=
    throughMessageId_summary _ _
  have behind : behindMessage "u2" (secondHistory first) =
      some [summarised 3 "c1" "u2" (firstList first), spoken 4 "u3" "more"] := by
    rw [secondHistory, firstHistory, List.cons_append, List.cons_append, behindMessage,
      spoken_id 1 first (by decide), if_neg (by decide), List.cons_append, List.cons_append,
      behindMessage, spoken_id 2 keptSentence (by decide), if_pos rfl]
    rfl
  rw [selectView, newest]
  dsimp only
  rw [through, behind]
  dsimp only
  rw [List.filter_cons_of_neg (by rw [summarised_id]; decide),
    List.filter_cons_of_pos (by rw [summarised_id, spoken_id 4 "more" (by decide)]; decide),
    List.filter_nil]

theorem second_built {first kept : String}
    (carried : previousList (some (summaryOf (firstList first))) = some kept) :
    buildUserMessagesSection (inputOf "u3" (secondFold first).messages.items).headMessages
      (inputOf "u3" (secondFold first).messages.items).previousSummary = secondList kept := by
  have view := second_view first
  rw [← secondFold_items] at view
  have named : (summarised 3 "c1" "u2" (firstList first)).name = .compact := rfl
  have said : userText (spoken 4 "u3" "more") = some "more" := rfl
  have texts : extractUserMessageTexts
      (headMessages (buildContextView (secondFold first).messages.items)) = ["more"] := by
    have more : trimmedText "more" = some "more" := by decide
    rw [buildContextView, headMessages_map (trimMessage_name _), extract_trim, view, headMessages,
      if_pos named, extractUserMessageTexts, List.filterMap_cons_some said, List.filterMap_nil,
      List.filterMap_cons_some more, List.filterMap_nil]
  have previous : previousSummary (buildContextView (secondFold first).messages.items) =
      some (summaryOf (firstList first)) := by
    rw [buildContextView, view, List.map_cons, previousSummary, trimMessage_name, if_pos named,
      getTextContent_trim]
    rfl
  simp only [inputOf]
  rw [buildUserMessagesSection, texts, previous, carried]
  rfl

theorem twoCompactions_run {first kept : String} (listed : extractUserMessageTexts
      (headMessages (buildContextView (firstFold first).messages.items)) =
      [first, keptSentence])
    (carried : previousList (some (summaryOf (firstList first))) = some kept) :
    summarizing.run freshSummarizing (twoCompactions first kept) = some (lastState first kept) := by
  have said : summarizing.step freshSummarizing (.write (userEvent 1 "u1" first)) =
      some ⟨foldEvents .empty [userEvent 1 "u1" first], none⟩ := by rfl
  have again : summarizing.step ⟨foldEvents .empty [userEvent 1 "u1" first], none⟩
      (.write (userEvent 2 "u2" keptSentence)) = some ⟨firstFold first, none⟩ := by rfl
  have more : summarizing.step ⟨applyEvent (firstFold first)
      (summaryEvent 3 "c1" "u2" (firstList first)), none⟩
      (.write (userEvent 4 "u3" "more")) = some ⟨secondFold first, none⟩ := by rfl
  have firstStart : boundaryOf (firstFold first).messages.items = some "u2" := by
    rw [firstFold_items]
    rfl
  have secondStart : boundaryOf (secondFold first).messages.items = some "u3" := by
    have named : (summarised 3 "c1" "u2" (firstList first)).name = .compact := rfl
    rw [boundaryOf_select, secondFold_items, second_view, headMessages, if_pos named,
      List.getLast?_singleton, Option.map_some, spoken_id 4 "more" (by decide)]
  have firstFinish := @finish_step _ _ 3 _ _ _ (Eq.refl "u2") (first_built listed)
    (firstFold_fresh first)
  have secondFinish := @finish_step _ _ 5 _ _ _ (Eq.refl "u3") (second_built carried)
    (secondFold_fresh first)
  rw [twoCompactions, StepSystem.run, said, Option.bind_some, StepSystem.run, again,
    Option.bind_some, StepSystem.run, start_step firstStart, Option.bind_some, StepSystem.run,
    firstFinish, Option.bind_some, StepSystem.run, more,
    Option.bind_some, StepSystem.run, start_step secondStart, Option.bind_some, StepSystem.run,
    lastEvent, secondFinish, Option.bind_some,
    StepSystem.run]
  rfl

theorem ListsTexts.length_le {body text : String} (lists : ListsTexts texts body)
    (member : text ∈ texts) : text.length ≤ body.length := by
  obtain ⟨numbers, length, same⟩ := lists
  have listed : ∃ number, userEntry number text ∈ List.zipWith userEntry numbers texts := by
    clear same
    induction texts generalizing numbers with
    | nil => exact absurd member List.not_mem_nil
    | cons first rest ih =>
        cases numbers with
        | nil => cases length
        | cons number others =>
            rw [List.zipWith_cons_cons]
            rcases List.mem_cons.mp member with own | behind
            · rw [own]
              exact ⟨number, List.mem_cons_self⟩
            · obtain ⟨other, present⟩ := ih behind others (Nat.succ.inj length)
              exact ⟨other, List.mem_cons_of_mem _ present⟩
  obtain ⟨number, entry⟩ := listed
  have longer : text.length ≤ (userEntry number text).length := by
    obtain ⟨label, letters, _⟩ := userEntry_letters number text
    rw [← String.length_toList, ← String.length_toList, letters, List.length_cons,
      List.length_append]
    omega
  rw [same]
  exact longer.trans (length_le_intercalate "\n\n" entry)

theorem lastSummary_concat {compact : Msg} (own : isSummary compact = true) :
    lastSummary (messages ++ [compact]) = some (compact, []) := by
  induction messages with
  | nil =>
      rw [List.nil_append, lastSummary, lastSummary]
      exact if_pos own
  | cons message rest ih => rw [List.cons_append, lastSummary, ih]

theorem isSummary_summary (event : Event) (data : CompactData) :
    isSummary (summaryMessageOf event data) = true := rfl

theorem summaryText_summary (event : Event) (data : CompactData) :
    summaryText (summaryMessageOf event data) = data.summaryText := rfl

theorem last_history (first kept : String) :
    (lastState first kept).history =
      secondHistory first ++ [summarised 5 "c2" "u3" (secondList kept)] := by
  have users : ∀ message ∈ (secondFold first).messages.items, message.role = .user := by
    rw [secondFold_items]
    exact secondHistory_users first
  have fresh : "c2" ∉ (secondFold first).messages.items.map Msg.id := by
    rw [secondFold_items, secondHistory_ids]
    decide
  have items := messages_summarised users fresh 5 "u3" (secondList kept)
  rw [secondFold_items] at items
  exact items

theorem last_covered {first kept : String} {before after : List Msg} {covered : Msg}
    (split : (lastState first kept).history = before ++ covered :: after)
    (own : covered.id = "u3") : before ++ [covered] = secondHistory first := by
  have distinct := (lastState first kept).distinct
  have found : behindMessage covered.id (before ++ covered :: after) = some after := by
    apply behindMessage_of_split
    rw [← split]
    exact distinct
  have parts : (lastState first kept).history =
      (firstHistory first ++ [summarised 3 "c1" "u2" (firstList first)]) ++
        spoken 4 "u3" "more" :: [summarised 5 "c2" "u3" (secondList kept)] := by
    rw [last_history, secondHistory, List.append_assoc _ [spoken 4 "u3" "more"]]
    rfl
  have other : behindMessage (spoken 4 "u3" "more").id
      ((firstHistory first ++ [summarised 3 "c1" "u2" (firstList first)]) ++
        spoken 4 "u3" "more" :: [summarised 5 "c2" "u3" (secondList kept)]) =
      some [summarised 5 "c2" "u3" (secondList kept)] := by
    apply behindMessage_of_split
    rw [← parts]
    exact distinct
  rw [spoken_id 4 "more" (by decide)] at other
  rw [own, ← split, parts, other] at found
  rw [← Option.some.inj found, last_history, List.append_cons before] at split
  exact (List.append_cancel_right split).symm

theorem opensNoList_chunk : opensNoList [chunkSections] = true := by decide

theorem previousList_summaryOf {userMessages : String} (listable : Listable userMessages) :
    previousList (some (summaryOf userMessages)) = some userMessages := by
  obtain ⟨content, found, same⟩ := searchSection_merged (merged_chunk userMessages)
    listable.trimmed listable.closed opensNoList_chunk
  rw [previousList, Option.bind_some, found, Option.bind_some, trimmedText, same,
    if_pos listable.visible]

theorem previousList_cut :
    previousList (some (summaryOf (firstList listClose))) = some "用户消息 1:" := by
  have trimmed : strip (firstList listClose) = firstList listClose := by decide
  obtain ⟨front, back, fronts, text⟩ := merged_text (merged_chunk (firstList listClose)) trimmed
  have frontPlain : findPattern (tagPattern listOpen) (front.toList ++ '\n' :: [' ']) = none := by
    rw [fronts]
    exact front_plain opensNoList_chunk _
  have bodyPlain : findPattern (tagPattern listClose) ('\n' :: "用户消息 1:".toList) = none := by
    decide
  have parts : firstList listClose =
      "用户消息 1:" ++ (" " ++ (listClose ++ ("\n\n" ++ userEntry 2 keptSentence))) := by
    decide
  have letters : (summaryOf (firstList listClose)).toList =
      (front.toList ++ '\n' :: [' ']) ++ ' ' :: (listOpen.toList ++
        (('\n' :: "用户消息 1:".toList) ++ ' ' :: (listClose.toList ++
          (("\n\n" ++ userEntry 2 keptSentence) ++ ("\n" ++
            ("  " ++ listClose ++ "\n" ++ back))).toList))) := by
    rw [text, parts]
    simp
  have found := @findBetween_tagged _ _ _ _ _ _ _ (("\n\n" ++ userEntry 2 keptSentence) ++
      ("\n" ++ ("  " ++ listClose ++ "\n" ++ back))).toList _ _ listOpen_matches listClose_matches
    listOpen_pattern_nonempty listClose_pattern_nonempty
    (strange_of_foreign space_foreign_open) (strange_of_foreign space_foreign_close)
    frontPlain bodyPlain
  have section_text : searchSection "all_user_messages" (summaryOf (firstList listClose)) =
      some (String.ofList ('\n' :: "用户消息 1:".toList ++ [' '])) := by
    rw [searchSection, letters]
    exact congrArg (Option.map String.ofList) found
  rw [previousList, Option.bind_some, section_text]
  decide

theorem plain_text_survives :
    ∃ state, summarizing.run freshSummarizing
        (twoCompactions "hello" (firstList "hello")) = some state ∧
      ListsUserTexts state.history := by
  have hello : Listable "hello" := by
    refine ⟨?_, ?_, ?_⟩ <;> decide
  have listed : Listable (firstList "hello") := by
    have lists : ListsTexts ["hello", keptSentence] (firstList "hello") := ⟨[1, 2], rfl, rfl⟩
    apply lists.listable
    · intro text present
      rcases List.mem_cons.mp present with same | other
      · rw [same]
        exact hello
      · rw [List.mem_singleton.mp other]
        exact keptSentence_listable
    · exact List.cons_ne_nil _ _
  have texts : extractUserMessageTexts
      (headMessages (buildContextView (firstFold "hello").messages.items)) =
      ["hello", keptSentence] := by decide
  have replied : (([chunkReply].mapM parseChunkSections).all opensNoList) = true := by
    rw [List.mapM_cons, chunkReply_sections]
    exact opensNoList_chunk
  have ran := twoCompactions_run texts (previousList_summaryOf listed)
  refine ⟨_, ran, summaries_list_user_texts (StepSystem.reaches_of_run_each ?_ ran)⟩
  have closed : [userEvent 1 "u1" "hello", userEvent 2 "u2" keptSentence,
      userEvent 4 "u3" "more"].all (fun event => ((writtenMessage event).bind userText).all
        fun text => !hasTag listClose text) = true := by decide
  have spoken : ∀ event ∈ [userEvent 1 "u1" "hello", userEvent 2 "u2" keptSentence,
      userEvent 4 "u3" "more"], ∀ state, keepsTags state (.write event) :=
    fun event member _ => List.all_eq_true.mp closed event member
  intro action member state
  simp only [twoCompactions, List.mem_cons, List.not_mem_nil, or_false] at member
  rcases member with same | same | same | same | same | same | same
  · rw [same]
    exact spoken _ (by simp) state
  · rw [same]
    exact spoken _ (by simp) state
  · rw [same]
    trivial
  · rw [same]
    exact replied
  · rw [same]
    exact spoken _ (by simp) state
  · rw [same]
    trivial
  · rw [same]
    exact replied

theorem closing_tag_loses_later_texts :
    ∃ state, summarizing.Reaches StepSystem.anyStep freshSummarizing state ∧
      (lastSummary state.history).bind (fun found =>
        previousList (some (summaryText found.1))) = some "用户消息 1:\n\n用户消息 1: more" ∧
      ¬ ListsUserTexts state.history := by
  have texts : extractUserMessageTexts
      (headMessages (buildContextView (firstFold listClose).messages.items)) =
      [listClose, keptSentence] := by decide
  have ran := twoCompactions_run texts previousList_cut
  have listed : Listable (secondList "用户消息 1:") := by
    refine ⟨?_, ?_, ?_⟩ <;> decide
  have newest : lastSummary (lastState listClose "用户消息 1:").history =
      some (summarised 5 "c2" "u3" (secondList "用户消息 1:"), []) := by
    rw [last_history]
    exact lastSummary_concat (isSummary_summary _ _)
  have through : throughMessageId (summarised 5 "c2" "u3" (secondList "用户消息 1:")) = "u3" :=
    throughMessageId_summary _ _
  have text : summaryText (summarised 5 "c2" "u3" (secondList "用户消息 1:")) =
      summaryOf (secondList "用户消息 1:") := summaryText_summary _ _
  refine ⟨_, StepSystem.reaches_of_run ran, ?_, ?_⟩
  · rw [newest, Option.bind_some, text, previousList_summaryOf listed]
    decide
  · intro lists
    obtain ⟨before, covered, after, content, split, own, inside, kept, _⟩ :=
      lists _ [] newest
    rw [through] at own
    rw [last_covered split own] at kept
    obtain ⟨other, found, same⟩ := searchSection_merged (merged_chunk (secondList "用户消息 1:"))
      listed.trimmed listed.closed opensNoList_chunk
    rw [text, found] at inside
    rw [← Option.some.inj inside, same] at kept
    have member : keptSentence ∈ extractUserMessageTexts (secondHistory listClose) := by
      decide
    have short : (secondList "用户消息 1:").length < keptSentence.length := by decide
    exact absurd (kept.length_le member) (Nat.not_le.mpr short)

end Ftre.Compaction
