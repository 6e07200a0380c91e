import Ftre.Compaction.FastTrim
import Ftre.Lib.StepSystem

/-!
What fast compactions trim over a whole session.
-/

namespace Ftre.Compaction

open Lib Message Session FoldState

/-- A tool result by its message and its call. -/
abbrev ResultKey := String × String

def resultKeys (message : Msg) : List ResultKey :=
  (toolResults message).map fun result => (message.id, result.id)

def trimmedOutput : ToolOutput := .parts [.text ⟨trimmedToolResultPlaceholder, "", "", none⟩]

def replaceOutput (owner : String) (keys : List ResultKey) : ContentBlock → ContentBlock
  | .toolResult result =>
      if (owner, result.id) ∈ keys then .toolResult { result with output := trimmedOutput }
      else .toolResult result
  | block => block

def replaceOutputs (keys : List ResultKey) (message : Msg) : Msg :=
  { message with content := message.content.map (replaceOutput message.id keys) }

variable {message : Msg} {result : ToolResultBlock} {id : String} {data : CompactData}
  {fold : FoldState}

theorem mem_toolResults :
    result ∈ toolResults message ↔ ContentBlock.toolResult result ∈ message.content := by
  unfold toolResults
  rw [List.mem_filterMap]
  constructor
  · rintro ⟨block, present, same⟩
    cases block with
    | toolResult other =>
        cases same
        exact present
    | _ => cases same
  · intro present
    exact ⟨.toolResult result, present, rfl⟩

theorem trimBlock_result (ids : List String) (result : ToolResultBlock) :
    trimBlock ids (.toolResult result) =
      .toolResult (if result.id ∈ ids then { result with output := trimmedOutput } else result) := by
  unfold trimBlock
  dsimp only
  split <;> rfl

theorem replaceOutput_result (owner : String) (keys : List ResultKey) (result : ToolResultBlock) :
    replaceOutput owner keys (.toolResult result) =
      .toolResult (if (owner, result.id) ∈ keys then { result with output := trimmedOutput }
        else result) := by
  unfold replaceOutput
  dsimp only
  split <;> rfl

variable {ids : List String} {history : List Msg} {messages : List Msg} {keepTurns : Int}

theorem trimMessage_eq_replaceOutputs {ids : List String} {keys : List ResultKey} {message : Msg}
    (agree : ∀ result ∈ toolResults message, result.output = trimmedOutput ∨
      (result.id ∈ ids ↔ (message.id, result.id) ∈ keys)) :
    trimMessage ids message = replaceOutputs keys message := by
  have blocks : message.content.map (trimBlock ids) =
      message.content.map (replaceOutput message.id keys) := by
    apply List.map_congr_left
    intro block present
    cases block with
    | toolResult result =>
        have already : result.output = trimmedOutput →
            ({ result with output := trimmedOutput } : ToolResultBlock) = result := by
          intro same
          rw [← same]
        rw [trimBlock_result, replaceOutput_result]
        rcases agree result (mem_toolResults.mpr present) with same | same
        · rw [already same, ite_self, ite_self]
        · by_cases named : result.id ∈ ids
          · rw [if_pos named, if_pos (same.mp named)]
          · rw [if_neg named, if_neg fun keyed => named (same.mpr keyed)]
    | _ => rfl
  unfold trimMessage replaceOutputs
  rw [blocks]

/-! ### What sealing leaves alone -/

/-- A message without what the seal of its turn stamps on it. -/
def bare (message : Msg) : Msg :=
  { message with
    seq := 0
    finishedAt := none
    finishedReason := none }

@[simp] theorem bare_id (message : Msg) : (bare message).id = message.id := rfl

theorem map_bare_seal (state : FoldState) (event : Event) :
    (state.sealPreviousAssistant event).messages.items.map bare =
      state.messages.items.map bare := by
  unfold sealPreviousAssistant
  cases target : sealTarget state.messages.items with
  | none => rfl
  | some message =>
      change (KeyedList.putItem Msg.id (sealed event message) state.messages.items).map bare = _
      have member := sealTarget_mem target
      apply KeyedList.putItem_map bare
      · exact List.mem_map.mpr ⟨message, member, rfl⟩
      intro held found
      have own : KeyedList.lookupItem Msg.id message.id state.messages.items = some message :=
        KeyedList.lookupItem_of_mem state.messages.distinct member
      rw [show (sealed event message).id = message.id from rfl, own] at found
      cases found
      rfl

theorem lastSummary_bare (messages : List Msg) :
    lastSummary (messages.map bare) =
      (lastSummary messages).map fun found => (bare found.1, found.2.map bare) := by
  induction messages with
  | nil => rfl
  | cons message rest ih =>
      rw [List.map_cons, lastSummary, lastSummary, ih]
      cases lastSummary rest with
      | some found => rfl
      | none =>
          change (if isSummary message = true then _ else _) = _
          by_cases own : isSummary message = true
          · rw [if_pos own]
            simp only [if_pos own, Option.map_some]
          · rw [if_neg own]
            simp only [if_neg own, Option.map_none]

theorem behindMessage_bare (id : String) (messages : List Msg) :
    behindMessage id (messages.map bare) =
      (behindMessage id messages).map (List.map bare) := by
  induction messages with
  | nil => rfl
  | cons message rest ih =>
      rw [List.map_cons, behindMessage, behindMessage, ih, bare_id]
      by_cases same : message.id = id
      · rw [if_pos same, if_pos same]
        rfl
      · rw [if_neg same, if_neg same]

theorem selectView_whole {snapshot : List Msg} (plain : lastSummary snapshot = none) :
    selectView snapshot = snapshot := by
  unfold selectView
  rw [plain]

theorem selectView_behind {snapshot behind : List Msg} {compact : Msg}
    (found : lastSummary snapshot = some (compact, behind)) :
    selectView snapshot = compact :: ((behindMessage (throughMessageId compact) snapshot).map
      (List.filter fun item => item.id ≠ compact.id)).getD behind := by
  unfold selectView
  rw [found]
  dsimp only
  cases behindMessage (throughMessageId compact) snapshot with
  | none => rfl
  | some items => rfl

theorem mem_selectView (present : message ∈ selectView history) : message ∈ history := by
  cases found : lastSummary history with
  | none =>
      rw [selectView_whole found] at present
      exact present
  | some parts =>
      obtain ⟨compact, behind⟩ := parts
      obtain ⟨before, split, _, _⟩ := lastSummary_split found
      rw [selectView_behind found] at present
      rcases List.mem_cons.mp present with same | later
      · rw [same, split]
        simp
      · cases place : behindMessage (throughMessageId compact) history with
        | none =>
            rw [place] at later
            rw [split]
            exact List.mem_append_right _ (List.mem_cons_of_mem _ later)
        | some items =>
            rw [place] at later
            obtain ⟨earlier, covered, parts, _⟩ := behindMessage_split place
            have member := List.mem_of_mem_filter later
            rw [parts]
            exact List.mem_append_right _ (List.mem_cons_of_mem _ member)

theorem selectView_bare (messages : List Msg) :
    selectView (messages.map bare) = (selectView messages).map bare := by
  have summary := lastSummary_bare messages
  cases found : lastSummary messages with
  | none =>
      rw [found] at summary
      rw [selectView_whole summary, selectView_whole found]
  | some parts =>
      obtain ⟨compact, behind⟩ := parts
      rw [found] at summary
      rw [selectView_behind summary, selectView_behind found, behindMessage_bare]
      change bare compact :: _ = bare compact :: _
      cases place : behindMessage (throughMessageId compact) messages with
      | none =>
          rw [show throughMessageId (bare compact) = throughMessageId compact from rfl, place]
          rfl
      | some items =>
          rw [show throughMessageId (bare compact) = throughMessageId compact from rfl, place]
          change bare compact :: (items.map bare).filter _ = _
          rw [List.filter_map]
          rfl

private theorem toolResultIds_bare (seen : List Msg) :
    (seen.map bare).flatMap toolResultIds = seen.flatMap toolResultIds := by
  rw [List.flatMap_map]
  rfl

private theorem markTrimmed_bare (seen : List Msg) (trimIds : List String) (message : Msg) :
    markTrimmed (seen.map bare) trimIds (bare message) = markTrimmed seen trimIds message := by
  unfold markTrimmed
  rw [toolResultIds_bare]
  rfl

theorem collectTrimIds_bare (seen : List Msg) (trimIds : List String) (messages : List Msg) :
    collectTrimIds (seen.map bare) trimIds (messages.map bare) =
      collectTrimIds seen trimIds messages := by
  induction messages generalizing seen trimIds with
  | nil => rfl
  | cons message rest ih =>
      have further : seen.map bare ++ [bare message] = (seen ++ [message]).map bare := by
        rw [List.map_append]
        rfl
      rw [List.map_cons, collectTrimIds, collectTrimIds, markTrimmed_bare, further]
      exact ih _ _

theorem collectTrimIds_append (seen : List Msg) (trimIds : List String) (messages : List Msg)
    (last : Msg) :
    collectTrimIds seen trimIds (messages ++ [last]) =
      markTrimmed (seen ++ messages) (collectTrimIds seen trimIds messages) last := by
  induction messages generalizing seen trimIds with
  | nil =>
      rw [List.nil_append, List.append_nil]
      rfl
  | cons message rest ih =>
      rw [List.cons_append, collectTrimIds, collectTrimIds, ih, List.append_assoc]
      rfl

/-- The id is no message's and no summary's boundary. -/
def freshFor (id : String) (history : List Msg) : Bool :=
  history.all fun message => decide (message.id ≠ id) && decide (throughMessageId message ≠ id)

theorem lastSummary_append (messages : List Msg) {last : Msg} (plain : isSummary last = false) :
    lastSummary (messages ++ [last]) =
      (lastSummary messages).map fun found => (found.1, found.2 ++ [last]) := by
  induction messages with
  | nil =>
      rw [List.nil_append, lastSummary]
      simp only [lastSummary, plain, Bool.false_eq_true, if_false, Option.map_none]
  | cons message rest ih =>
      rw [List.cons_append, lastSummary, lastSummary, ih]
      cases lastSummary rest with
      | some found => rfl
      | none =>
          by_cases own : isSummary message = true
          · simp only [Option.map_none, if_pos own, Option.map_some]
          · simp only [Option.map_none, if_neg own]

theorem behindMessage_append {last : Msg} (different : last.id ≠ id) :
    behindMessage id (messages ++ [last]) = (behindMessage id messages).map (· ++ [last]) := by
  induction messages with
  | nil => exact if_neg different
  | cons message rest ih =>
      rw [List.cons_append, behindMessage, behindMessage]
      by_cases same : message.id = id
      · rw [if_pos same, if_pos same]
        rfl
      · rw [if_neg same, if_neg same, ih]

theorem selectView_append {last : Msg} (plain : isSummary last = false)
    (fresh : freshFor last.id messages = true) :
    selectView (messages ++ [last]) = selectView messages ++ [last] := by
  have summary := lastSummary_append messages plain
  cases found : lastSummary messages with
  | none =>
      rw [found] at summary
      rw [selectView_whole summary, selectView_whole found]
  | some parts =>
      obtain ⟨compact, behind⟩ := parts
      obtain ⟨before, split, _, _⟩ := lastSummary_split found
      have member : compact ∈ messages := by
        rw [split]
        simp
      have own := List.all_eq_true.mp fresh compact member
      rw [Bool.and_eq_true, decide_eq_true_eq, decide_eq_true_eq] at own
      have kept : last.id ≠ compact.id := fun same => own.1 same.symm
      have unmarked : last.id ≠ throughMessageId compact := fun same => own.2 same.symm
      rw [found] at summary
      rw [selectView_behind summary, selectView_behind found, behindMessage_append unmarked]
      dsimp only
      cases behindMessage (throughMessageId compact) messages with
      | none => rfl
      | some items =>
          change compact :: (items ++ [last]).filter _ = compact :: _ ++ [last]
          rw [List.filter_append, List.filter_cons_of_pos (by simpa using kept), List.filter_nil]
          rfl

/-! ### The mark of a fast compaction -/

def trimIds (history : List Msg) : List String := collectTrimIds [] [] history

theorem namedResults_fast (event : Event) (named : ∀ id ∈ data.toolResultIds, id ≠ "")
    (some : data.toolResultIds ≠ []) :
    namedResults (fastMessageOf event data) = data.toolResultIds := by
  have kept : data.toolResultIds.filter (fun id => id ≠ "") = data.toolResultIds :=
    List.filter_eq_self.mpr fun id present => decide_eq_true (named id present)
  have fields : ((compactMetadata (fastMessageOf event data)).get? "tool_result_ids").bind
      Json.asArray? = Option.some (data.toolResultIds.map Json.str) := by
    change (((Json.object (fastMetadata data)).get? "tool_result_ids").bind Json.asArray?) = _
    unfold fastMetadata
    dsimp only
    rw [kept, if_neg some]
    rfl
  unfold namedResults
  rw [fields, Option.getD_some, List.filterMap_map]
  have same : ∀ id ∈ data.toolResultIds,
      ((fun item : Json => if item.truthy then Option.some item.toStr else none) ∘ Json.str) id =
        Option.some id := by
    intro id present
    have truthy : (Json.str id).truthy = true := by simp [Json.truthy, named id present]
    change (if (Json.str id).truthy then Option.some (Json.str id).toStr else none) = _
    rw [if_pos truthy]
    rfl
  rw [List.filterMap_congr same, List.filterMap_some]

theorem markTrimmed_fast (event : Event) (seen : List Msg) (trimmed : List String)
    (named : ∀ id ∈ data.toolResultIds, id ≠ "") (some : data.toolResultIds ≠ []) :
    markTrimmed seen trimmed (fastMessageOf event data) = trimmed ++ data.toolResultIds := by
  have names := namedResults_fast event named some
  unfold markTrimmed
  rw [if_neg fun other => other rfl, if_pos (Or.inl (by rw [names]; exact some)), names]

theorem freshFor_bare (id : String) (history : List Msg) :
    freshFor id (history.map bare) = freshFor id history := by
  unfold freshFor
  rw [List.all_map]
  rfl

theorem items_fast (fast : data.mode = "fast") (seq time : Int)
    (fresh : freshFor id fold.messages.items = true) :
    ∃ held, (applyEvent fold (fastEvent seq time id data)).messages.items =
        held ++ [fastMessageOf (fastEvent seq time id data) data] ∧
      held.map bare = fold.messages.items.map bare := by
  have stands := map_bare_seal fold (fastEvent seq time id data)
  refine ⟨(fold.sealPreviousAssistant (fastEvent seq time id data)).messages.items, ?_, stands⟩
  have absent : (fastMessageOf (fastEvent seq time id data) data).id ∉
      (fold.sealPreviousAssistant (fastEvent seq time id data)).messages.items.map Msg.id := by
    intro present
    have ids := congrArg (List.map Msg.id) stands
    rw [List.map_map, List.map_map] at ids
    change _ ∈ List.map (Msg.id ∘ bare) _ at present
    rw [ids] at present
    obtain ⟨message, member, same⟩ := List.mem_map.mp present
    have own := List.all_eq_true.mp fresh message member
    rw [Bool.and_eq_true, decide_eq_true_eq] at own
    exact own.1 same
  change KeyedList.putItem Msg.id (compactMessageOf (fastEvent seq time id data) data) _ = _
  rw [compactMessageOf, if_pos fast, KeyedList.putItem_fresh absent]

theorem trimMessage_append (first second : List String) (message : Msg) :
    trimMessage (first ++ second) message = trimMessage second (trimMessage first message) := by
  have blocks : message.content.map (trimBlock (first ++ second)) =
      (message.content.map (trimBlock first)).map (trimBlock second) := by
    rw [List.map_map]
    apply List.map_congr_left
    intro block _
    cases block with
    | toolResult result =>
        rw [Function.comp_apply, trimBlock_result, trimBlock_result, trimBlock_result]
        by_cases early : result.id ∈ first
        · rw [if_pos early, if_pos (List.mem_append_left _ early), ite_self]
        · rw [if_neg early]
          by_cases late : result.id ∈ second
          · rw [if_pos late, if_pos (List.mem_append_right _ late)]
          · rw [if_neg late, if_neg fun either => (List.mem_append.mp either).elim early late]
    | _ => rfl
  unfold trimMessage
  dsimp only
  rw [blocks]

theorem map_bare_congr {left right : List Msg} (alter : Msg → Msg)
    (commutes : ∀ message, bare (alter message) = alter (bare message))
    (same : left.map bare = right.map bare) :
    (left.map alter).map bare = (right.map alter).map bare := by
  have swap : ∀ messages : List Msg,
      (messages.map alter).map bare = (messages.map bare).map alter := by
    intro messages
    rw [List.map_map, List.map_map]
    exact List.map_congr_left fun message _ => commutes message
  rw [swap, swap, same]

theorem selectView_fast (fast : data.mode = "fast") (seq time : Int)
    (fresh : freshFor id fold.messages.items = true) :
    let mark := fastMessageOf (fastEvent seq time id data) data
    ∃ kept, selectView (applyEvent fold (fastEvent seq time id data)).messages.items =
        kept ++ [mark] ∧ kept.map bare = (selectView fold.messages.items).map bare := by
  obtain ⟨held, items, same⟩ := items_fast fast seq time fresh
  have heldFresh : freshFor (fastMessageOf (fastEvent seq time id data) data).id held = true := by
    rw [← freshFor_bare, same, freshFor_bare]
    exact fresh
  refine ⟨selectView held, ?_, ?_⟩
  · rw [items]
    exact selectView_append rfl heldFresh
  · rw [← selectView_bare, same, selectView_bare]

theorem trimIds_fast (fast : data.mode = "fast") (named : ∀ id ∈ data.toolResultIds, id ≠ "")
    (some : data.toolResultIds ≠ []) (seq time : Int)
    (fresh : freshFor id fold.messages.items = true) :
    trimIds (applyEvent fold (fastEvent seq time id data)).messages.items =
      trimIds fold.messages.items ++ data.toolResultIds := by
  obtain ⟨held, items, same⟩ := items_fast fast seq time fresh
  have before := collectTrimIds_bare [] [] held
  have after := collectTrimIds_bare [] [] fold.messages.items
  rw [same] at before
  unfold trimIds
  rw [items, collectTrimIds_append, markTrimmed_fast _ _ _ named some, ← before, ← after]

theorem view_fast (fast : data.mode = "fast") (named : ∀ id ∈ data.toolResultIds, id ≠ "")
    (some : data.toolResultIds ≠ []) (seq time : Int)
    (fresh : freshFor id fold.messages.items = true) :
    let mark := fastMessageOf (fastEvent seq time id data) data
    ∃ kept, buildContextView (applyEvent fold (fastEvent seq time id data)).messages.items =
        kept ++ [mark] ∧
      kept.map bare =
        ((buildContextView fold.messages.items).map (trimMessage data.toolResultIds)).map bare := by
  obtain ⟨kept, selected, same⟩ := selectView_fast fast seq time fresh
  have ids := trimIds_fast fast named some seq time fresh
  refine ⟨kept.map (trimMessage (trimIds fold.messages.items ++ data.toolResultIds)), ?_, ?_⟩
  · unfold buildContextView
    change List.map (trimMessage (trimIds _)) _ = _
    rw [ids, selected, List.map_append]
    rfl
  · rw [map_bare_congr (trimMessage (trimIds fold.messages.items ++ data.toolResultIds))
      (fun _ => rfl) same, buildContextView, List.map_map, List.map_map, List.map_map]
    exact List.map_congr_left fun message _ => congrArg bare (trimMessage_append _ _ message)

theorem compressFast_some (trims : compressFast history keepTurns = some data) :
    trimmable keepTurns (buildContextView history) ≠ [] ∧ data.mode = "fast" ∧
      data.toolResultIds = trimmableIds keepTurns (buildContextView history) := by
  unfold compressFast at trims
  by_cases none : trimmable keepTurns (buildContextView history) = []
  · rw [if_pos none] at trims
    cases trims
  · rw [if_neg none] at trims
    cases trims
    exact ⟨none, rfl, rfl⟩

/-! ### Calling again -/

theorem scanTurns_default (keepTurns : Nat) (reversed : List Msg) (seenTurns : Nat) :
    ∃ found : Option Nat,
      (∀ start, scanTurns keepTurns reversed seenTurns start = found.getD start) ∧
        ∀ index, found = some index → index < reversed.length := by
  induction reversed generalizing seenTurns with
  | nil => exact ⟨none, fun _ => rfl, fun index absent => by cases absent⟩
  | cons message rest ih =>
      by_cases user : message.role = .user
      · by_cases enough : keepTurns ≤ seenTurns + 1
        · refine ⟨some rest.length, fun start => ?_, fun index same => ?_⟩
          · rw [scanTurns, if_pos user, if_pos enough, Option.getD_some]
          · cases same
            exact Nat.lt_succ_self _
        · obtain ⟨found, agrees, within⟩ := ih (seenTurns + 1)
          refine ⟨some (found.getD rest.length), fun start => ?_, fun index same => ?_⟩
          · rw [scanTurns, if_pos user, if_neg enough, agrees, Option.getD_some]
          · cases same
            cases found with
            | none => exact Nat.lt_succ_self _
            | some index => exact Nat.lt_succ_of_lt (within index rfl)
      · obtain ⟨found, agrees, within⟩ := ih seenTurns
        refine ⟨found, fun start => ?_, fun index same => Nat.lt_succ_of_lt (within index same)⟩
        rw [scanTurns, if_neg user, agrees]

structure KeepsTurns (alter : Msg → Msg) : Prop where
  role : ∀ message, (alter message).role = message.role
  name : ∀ message, (alter message).name = message.name

theorem keepsTurns_bare : KeepsTurns bare := ⟨fun _ => rfl, fun _ => rfl⟩

theorem keepsTurns_trim (ids : List String) : KeepsTurns (trimMessage ids) :=
  ⟨fun _ => rfl, fun _ => rfl⟩

theorem scanTurns_map {alter : Msg → Msg} (keeps : KeepsTurns alter) (keepTurns : Nat)
    (reversed : List Msg) (seenTurns start : Nat) :
    scanTurns keepTurns (reversed.map alter) seenTurns start =
      scanTurns keepTurns reversed seenTurns start := by
  induction reversed generalizing seenTurns start with
  | nil => rfl
  | cons message rest ih =>
      rw [List.map_cons, scanTurns, scanTurns, keeps.role, List.length_map, ih, ih]

theorem unprotected_map {alter : Msg → Msg} (keeps : KeepsTurns alter) (keepTurns : Int)
    (view : List Msg) :
    unprotected keepTurns (view.map alter) = (unprotected keepTurns view).map alter := by
  have start : protectedStart keepTurns ((headMessages view).map alter) =
      protectedStart keepTurns (headMessages view) := by
    unfold protectedStart
    rw [List.length_map, ← List.map_reverse, scanTurns_map keeps]
  unfold unprotected
  rw [headMessages_map keeps.name, start, List.map_take]

theorem mem_unprotected_append {view : List Msg} {last message : Msg} (some : view ≠ [])
    (assistant : last.role = .assistant)
    (present : message ∈ unprotected keepTurns (view ++ [last])) :
    message = last ∨ message ∈ unprotected keepTurns view := by
  have heads : headMessages (view ++ [last]) = headMessages view ++ [last] := by
    cases view with
    | nil => exact absurd rfl some
    | cons first rest =>
        rw [List.cons_append, headMessages, headMessages]
        split
        · rfl
        · rfl
  unfold unprotected at present ⊢
  rw [heads] at present
  generalize headMessages view = active at present ⊢
  have whole : protectedStart keepTurns active = active.length →
      message = last ∨ message ∈ active.take (protectedStart keepTurns active) := by
    intro all
    rw [all, List.take_length]
    rcases List.mem_append.mp (List.mem_of_mem_take present) with early | late
    · exact Or.inr early
    · exact Or.inl (List.mem_singleton.mp late)
  by_cases positive : 0 < keepTurns
  · obtain ⟨found, agrees, within⟩ := scanTurns_default keepTurns.toNat active.reverse 0
    have before : protectedStart keepTurns active = found.getD active.length := by
      unfold protectedStart
      rw [if_pos positive, agrees]
    have after : protectedStart keepTurns (active ++ [last]) =
        found.getD (active ++ [last]).length := by
      unfold protectedStart
      rw [if_pos positive, List.reverse_append, List.reverse_singleton, List.singleton_append,
        scanTurns, if_neg (by rw [assistant]; decide), agrees]
    cases found with
    | none => exact whole before
    | some index =>
        have inside := within index rfl
        rw [List.length_reverse] at inside
        rw [after, Option.getD_some, List.take_append_of_le_length inside.le] at present
        rw [before, Option.getD_some]
        exact Or.inr present
  · refine whole ?_
    unfold protectedStart
    rw [if_neg positive]

theorem toolResults_bare (message : Msg) : toolResults (bare message) = toolResults message := rfl

theorem mem_trimmable {keepTurns : Int} {view : List Msg} {result : ToolResultBlock} :
    result ∈ trimmable keepTurns view ↔ ∃ message ∈ unprotected keepTurns view,
      result ∈ toolResults message ∧ isUntrimmed result = true := by
  unfold trimmable
  simp only [List.mem_flatMap, List.mem_filter]

theorem isUntrimmed_trimmed (same : result.output = trimmedOutput) :
    isUntrimmed result = false := by
  unfold isUntrimmed
  rw [same]
  decide

theorem mem_toolResults_trim (present : result ∈ toolResults (trimMessage ids message)) :
    result.output = trimmedOutput ∨ result.id ∉ ids ∧ result ∈ toolResults message := by
  obtain ⟨block, member, same⟩ := List.mem_map.mp (mem_toolResults.mp present)
  cases block with
  | toolResult held =>
      rw [trimBlock_result] at same
      by_cases named : held.id ∈ ids
      · rw [if_pos named] at same
        cases same
        exact Or.inl rfl
      · rw [if_neg named] at same
        cases same
        exact Or.inr ⟨named, mem_toolResults.mpr member⟩
  | _ => cases same

theorem trimmable_after {view kept : List Msg} {mark : Msg} (some : view ≠ [])
    (assistant : mark.role = .assistant) (silent : toolResults mark = [])
    (named : ∀ result ∈ trimmable keepTurns view, result.id ∈ ids)
    (same : kept.map bare = (view.map (trimMessage ids)).map bare) :
    trimmable keepTurns (kept ++ [mark]) = [] := by
  have keptSome : kept ≠ [] := by
    intro none
    rw [none] at same
    cases view with
    | nil => exact some rfl
    | cons _ _ => cases same
  rw [List.eq_nil_iff_forall_not_mem]
  intro result present
  obtain ⟨message, within, listed, untrimmed⟩ := mem_trimmable.mp present
  rcases mem_unprotected_append keptSome assistant within with own | before
  · rw [own, silent] at listed
    exact List.not_mem_nil listed
  · have stripped := congrArg (unprotected keepTurns) same
    rw [unprotected_map keepsTurns_bare, unprotected_map keepsTurns_bare,
      unprotected_map (keepsTurns_trim ids)] at stripped
    have member : bare message ∈ (unprotected keepTurns kept).map bare :=
      List.mem_map_of_mem before
    rw [stripped, List.map_map] at member
    obtain ⟨original, early, equal⟩ := List.mem_map.mp member
    rw [← toolResults_bare, ← equal] at listed
    change result ∈ toolResults (trimMessage ids original) at listed
    rcases mem_toolResults_trim listed with replaced | ⟨unnamed, held⟩
    · rw [isUntrimmed_trimmed replaced] at untrimmed
      cases untrimmed
    · exact unnamed (named result (mem_trimmable.mpr ⟨original, early, held, untrimmed⟩))

/-! ### What marks name and what they count -/

def markNames (message : Msg) : List String :=
  if message.name = .compactFast then namedResults message else []

def markCounts (seen : List Msg) (trimmed : List String) (message : Msg) : List String :=
  if message.name ≠ .compactFast then []
  else if namedResults message ≠ [] ∨
      (((compactMetadata message).get? "tool_result_ids").bind Json.asArray?).getD [] ≠ [] then []
  else
    ((seen.flatMap toolResultIds).filter fun id => id ∉ trimmed).take
      (nonnegativeInt ((compactMetadata message).get? "tool_results"))

def collectCounted : List Msg → List String → List Msg → List String
  | _, _, [] => []
  | seen, trimmed, message :: rest =>
      markCounts seen trimmed message ++
        collectCounted (seen ++ [message]) (markTrimmed seen trimmed message) rest

theorem mem_markTrimmed {seen : List Msg} {trimmed : List String} :
    id ∈ markTrimmed seen trimmed message ↔
      id ∈ trimmed ∨ id ∈ markNames message ∨ id ∈ markCounts seen trimmed message := by
  unfold markTrimmed markNames markCounts
  by_cases mark : message.name = .compactFast
  · have plain : ¬ message.name ≠ .compactFast := fun other => other mark
    simp only [if_neg plain, if_pos mark]
    by_cases named : namedResults message ≠ [] ∨
        (((compactMetadata message).get? "tool_result_ids").bind Json.asArray?).getD [] ≠ []
    · rw [if_pos named, if_pos named, List.mem_append]
      simp only [List.not_mem_nil, or_false]
    · have none : namedResults message = [] :=
        Classical.byContradiction fun some => named (Or.inl some)
      rw [if_neg named, if_neg named, none, List.mem_append]
      simp only [List.not_mem_nil, false_or]
  · rw [if_pos mark, if_neg mark, if_pos mark]
    simp only [List.not_mem_nil, or_false]

theorem mem_collectTrimIds {seen : List Msg} {trimmed : List String} {messages : List Msg}
    {id : String} :
    id ∈ collectTrimIds seen trimmed messages ↔
      id ∈ trimmed ∨ id ∈ messages.flatMap markNames ∨ id ∈ collectCounted seen trimmed messages := by
  induction messages generalizing seen trimmed with
  | nil => simp only [collectTrimIds, collectCounted, List.flatMap_nil, List.not_mem_nil, or_false]
  | cons message rest ih =>
      rw [collectTrimIds, ih, mem_markTrimmed, collectCounted, List.flatMap_cons, List.mem_append,
        List.mem_append]
      tauto

def countedIds (history : List Msg) : List String := collectCounted [] [] history

theorem mem_trimIds :
    id ∈ trimIds history ↔ id ∈ history.flatMap markNames ∨ id ∈ countedIds history := by
  unfold trimIds countedIds
  rw [mem_collectTrimIds]
  simp only [List.not_mem_nil, false_or]

theorem markNames_put {table : MessageTable} {message : Msg}
    (kept : ∀ held, table.find? message.id = some held →
      ∀ id ∈ markNames held, id ∈ markNames message)
    {id : String} (named : id ∈ table.items.flatMap markNames) :
    id ∈ (table.put message).items.flatMap markNames := by
  obtain ⟨held, member, own⟩ := List.mem_flatMap.mp named
  have found : table.find? held.id = some held := KeyedList.find?_of_mem member
  by_cases same : message.id = held.id
  · have present : message ∈ (table.put message).items :=
      (KeyedList.find?_mem (KeyedList.find?_put_self table message)).1
    rw [← same] at found
    exact List.mem_flatMap.mpr ⟨message, present, kept held found id own⟩
  · have present : (table.put message).find? held.id = some held := by
      rw [KeyedList.find?_put, if_neg same]
      exact found
    exact List.mem_flatMap.mpr ⟨held, (KeyedList.find?_mem present).1, own⟩

theorem markNames_congr {left right : Msg} (same : standing left = standing right) :
    markNames left = markNames right := by
  have names : left.name = right.name := congrArg (fun parts => parts.2.2.1) same
  have metadata : left.metadata = right.metadata := congrArg (fun parts => parts.2.2.2) same
  unfold markNames namedResults compactMetadata
  rw [names, metadata]

def keepsMarks (fold : FoldState) (event : Event) : Bool :=
  match writtenMessage event with
  | none => true
  | some message =>
      decide (message.name ≠ .compactFast) &&
        (fold.messages.find? message.id).all fun held => decide (held.name ≠ .compactFast)

theorem markNames_plain (plain : message.name ≠ .compactFast) : markNames message = [] :=
  if_neg plain

theorem keepsMarks_base {event : Event} {message : Msg} {base : FoldState}
    (keeps : keepsMarks fold event = true) (writes : writtenMessage event = some message)
    (origin : base = fold ∨ base = fold.sealPreviousAssistant event) :
    message.name ≠ .compactFast ∧
      ∀ held, base.messages.find? message.id = some held → held.name ≠ .compactFast := by
  rw [keepsMarks, writes] at keeps
  obtain ⟨plain, free⟩ := Bool.and_eq_true_iff.mp keeps
  refine ⟨of_decide_eq_true plain, fun held place => ?_⟩
  obtain ⟨stored, present, same⟩ := find?_base origin place
  rw [present, Option.all_some, decide_eq_true_eq] at free
  have names : stored.name = held.name := congrArg (fun parts => parts.2.2.1) same
  exact names ▸ free

theorem map_bare_base {event : Event} {base : FoldState}
    (origin : base = fold ∨ base = fold.sealPreviousAssistant event) :
    base.messages.items.map bare = fold.messages.items.map bare := by
  rcases origin with same | same
  · rw [same]
  · rw [same, map_bare_seal]

theorem names_bare {left right : List Msg} (same : left.map bare = right.map bare) :
    left.flatMap markNames = right.flatMap markNames := by
  have stands := congrArg (List.flatMap markNames) same
  rw [List.flatMap_map, List.flatMap_map] at stands
  exact stands

theorem markNames_event {event : Event} (keeps : keepsMarks fold event = true)
    (named : id ∈ fold.messages.items.flatMap markNames) :
    id ∈ (applyEvent fold event).messages.items.flatMap markNames := by
  have change := applyEvent_change fold event
  generalize (applyEvent fold event).messages = after at change ⊢
  cases change with
  | kept => exact named
  | @changed held message found present same =>
      apply markNames_put _ named
      intro other place name own
      have ids : message.id = held.id := congrArg Prod.fst same
      rw [ids, KeyedList.find?_of_mem present] at place
      cases place
      rw [markNames_congr same]
      exact own
  | @opened message fresh blank =>
      apply markNames_put _ named
      intro other place
      rw [fresh] at place
      cases place
  | @written message base writes origin =>
      obtain ⟨_, free⟩ := keepsMarks_base keeps writes origin
      rw [← names_bare (map_bare_base origin)] at named
      apply markNames_put _ named
      intro held place name own
      rw [markNames_plain (free held place)] at own
      exact absurd own List.not_mem_nil

theorem markNames_event_iff {event : Event} (keeps : keepsMarks fold event = true) :
    id ∈ (applyEvent fold event).messages.items.flatMap markNames ↔
      id ∈ fold.messages.items.flatMap markNames := by
  refine ⟨fun named => ?_, markNames_event keeps⟩
  have change := applyEvent_change fold event
  generalize (applyEvent fold event).messages = after at change named
  obtain ⟨other, member, own⟩ := List.mem_flatMap.mp named
  cases change with
  | kept => exact named
  | @changed held message found present same _ =>
      rcases KeyedList.mem_put member with rfl | before
      · rw [markNames_congr same] at own
        exact List.mem_flatMap.mpr ⟨held, present, own⟩
      · exact List.mem_flatMap.mpr ⟨other, before, own⟩
  | @opened message fresh blank _ =>
      rcases KeyedList.mem_put member with rfl | before
      · have name : other.name = .default := congrArg (fun parts => parts.2.2.1) blank
        rw [markNames_plain (by rw [name]; nofun)] at own
        exact absurd own List.not_mem_nil
      · exact List.mem_flatMap.mpr ⟨other, before, own⟩
  | @written message base writes origin =>
      rw [← names_bare (map_bare_base origin)]
      rcases KeyedList.mem_put member with rfl | before
      · rw [markNames_plain (keepsMarks_base keeps writes origin).1] at own
        exact absurd own List.not_mem_nil
      · exact List.mem_flatMap.mpr ⟨other, before, own⟩

/-! ### What old marks count -/

def countsOnly (message : Msg) : Bool :=
  decide (message.name = .compactFast) && decide (namedResults message = []) &&
    decide ((((compactMetadata message).get? "tool_result_ids").bind Json.asArray?).getD [] = [])

def countedPart : List Msg → List String
  | [] => []
  | message :: rest => if rest.any countsOnly then message.id :: countedPart rest else []

theorem markCounts_named {seen : List Msg} {trimmed : List String}
    (names : countsOnly message = false) : markCounts seen trimmed message = [] := by
  unfold markCounts
  by_cases mark : message.name = .compactFast
  · rw [if_neg fun other => other mark]
    refine if_pos ?_
    by_contra none
    rw [not_or, not_not, not_not] at none
    unfold countsOnly at names
    rw [decide_eq_true mark, decide_eq_true none.1, decide_eq_true none.2] at names
    cases names
  · exact if_pos mark

theorem collectCounted_named {seen : List Msg} {trimmed : List String} {messages : List Msg}
    (names : messages.any countsOnly = false) : collectCounted seen trimmed messages = [] := by
  induction messages generalizing seen trimmed with
  | nil => rfl
  | cons message rest ih =>
      rw [List.any_cons, Bool.or_eq_false_iff] at names
      rw [collectCounted, markCounts_named names.1, ih names.2, List.append_nil]

def SameMark (left right : Msg) : Prop :=
  left.name ≠ .compactFast ∧ right.name ≠ .compactFast ∨
    left.name = right.name ∧ left.metadata = right.metadata

theorem sameMark_standing {left right : Msg} (same : standing left = standing right) :
    SameMark left right :=
  Or.inr ⟨congrArg (fun parts => parts.2.2.1) same, congrArg (fun parts => parts.2.2.2) same⟩

theorem markCounts_congr {left right : Msg} {seen : List Msg} {trimmed : List String}
    (same : SameMark left right) : markCounts seen trimmed left = markCounts seen trimmed right := by
  rcases same with ⟨plain, other⟩ | ⟨names, metadata⟩
  · unfold markCounts
    rw [if_pos plain, if_pos other]
  · unfold markCounts namedResults compactMetadata
    rw [names, metadata]

theorem markTrimmed_congr {left right : Msg} {seen : List Msg} {trimmed : List String}
    (same : SameMark left right) :
    markTrimmed seen trimmed left = markTrimmed seen trimmed right := by
  rcases same with ⟨plain, other⟩ | ⟨names, metadata⟩
  · unfold markTrimmed
    rw [if_pos plain, if_pos other]
  · unfold markTrimmed namedResults compactMetadata
    rw [names, metadata]

theorem collectCounted_seen {seen other : List Msg} {trimmed : List String} {messages : List Msg}
    (same : seen.flatMap toolResultIds = other.flatMap toolResultIds) :
    collectCounted seen trimmed messages = collectCounted other trimmed messages := by
  induction messages generalizing seen other trimmed with
  | nil => rfl
  | cons message rest ih =>
      have counts : markCounts seen trimmed message = markCounts other trimmed message := by
        unfold markCounts
        rw [same]
      have marked : markTrimmed seen trimmed message = markTrimmed other trimmed message := by
        unfold markTrimmed
        rw [same]
      rw [collectCounted, collectCounted, counts, marked]
      congr 1
      apply ih
      rw [List.flatMap_append, List.flatMap_append, same]

theorem collectCounted_bare (seen : List Msg) (trimmed : List String) (messages : List Msg) :
    collectCounted (seen.map bare) trimmed (messages.map bare) =
      collectCounted seen trimmed messages := by
  induction messages generalizing seen trimmed with
  | nil => rfl
  | cons message rest ih =>
      have counts : markCounts (seen.map bare) trimmed (bare message) =
          markCounts seen trimmed message := by
        unfold markCounts
        rw [toolResultIds_bare]
        rfl
      have further : seen.map bare ++ [bare message] = (seen ++ [message]).map bare := by
        rw [List.map_append]
        rfl
      rw [List.map_cons, collectCounted, collectCounted, counts, markTrimmed_bare, further, ih]

theorem collectCounted_append (seen : List Msg) (trimmed : List String) (messages : List Msg)
    (last : Msg) :
    collectCounted seen trimmed (messages ++ [last]) = collectCounted seen trimmed messages ++
      markCounts (seen ++ messages) (collectTrimIds seen trimmed messages) last := by
  induction messages generalizing seen trimmed with
  | nil =>
      rw [List.append_nil]
      exact List.append_nil _
  | cons message rest ih =>
      rw [List.cons_append, collectCounted, collectCounted, ih, collectTrimIds, List.append_assoc,
        List.append_assoc]
      rfl

theorem countedPart_bare (messages : List Msg) :
    countedPart (messages.map bare) = countedPart messages := by
  induction messages with
  | nil => rfl
  | cons message rest ih =>
      rw [List.map_cons, countedPart, countedPart, List.any_map, ih]
      rfl

theorem collectCounted_put {messages : List Msg} {seen : List Msg} {trimmed : List String}
    (mark : ∀ held ∈ messages, held.id = message.id → SameMark message held)
    (plain : message.id ∉ messages.map Msg.id → message.name ≠ .compactFast)
    (results : message.id ∈ countedPart messages → ∀ held ∈ messages, held.id = message.id →
      toolResultIds message = toolResultIds held) :
    collectCounted seen trimmed (KeyedList.putItem Msg.id message messages) =
      collectCounted seen trimmed messages := by
  induction messages generalizing seen trimmed with
  | nil =>
      have names : countsOnly message = false := by
        unfold countsOnly
        rw [decide_eq_false (plain List.not_mem_nil)]
        rfl
      change markCounts seen trimmed message ++ [] = []
      rw [markCounts_named names]
      rfl
  | cons head rest ih =>
      by_cases same : head.id = message.id
      · have marks := mark head List.mem_cons_self same
        rw [KeyedList.putItem, if_pos same, collectCounted, collectCounted,
          markCounts_congr marks, markTrimmed_congr marks]
        congr 1
        by_cases counted : rest.any countsOnly = true
        · apply collectCounted_seen
          have ids : toolResultIds message = toolResultIds head := by
            refine results ?_ head List.mem_cons_self same
            rw [countedPart, if_pos counted, same]
            exact List.mem_cons_self
          rw [List.flatMap_append, List.flatMap_append, List.flatMap_singleton,
            List.flatMap_singleton, ids]
        · rw [collectCounted_named (Bool.eq_false_iff.mpr counted),
            collectCounted_named (Bool.eq_false_iff.mpr counted)]
      · rw [KeyedList.putItem, if_neg same, collectCounted, collectCounted]
        congr 1
        apply ih
        · exact fun held member => mark held (List.mem_cons_of_mem _ member)
        · intro absent
          refine plain fun present => ?_
          rcases List.mem_cons.mp present with own | later
          · exact same own.symm
          · exact absent later
        · intro counted held member
          refine results ?_ held (List.mem_cons_of_mem _ member)
          have some : rest.any countsOnly = true := by
            by_contra none
            cases rest with
            | nil => exact List.not_mem_nil counted
            | cons first others =>
                unfold countedPart at counted
                rw [List.any_cons, Bool.or_eq_true, not_or] at none
                rw [if_neg none.2] at counted
                exact List.not_mem_nil counted
          rw [countedPart, if_pos some]
          exact List.mem_cons_of_mem _ counted

def writtenKeys (fold : FoldState) (event : Event) : List ResultKey :=
  (writtenMessage event).toList.flatMap resultKeys ++ (writtenResult fold event).toList

def writtenTo (fold : FoldState) (event : Event) : List String :=
  (writtenMessage event).toList.map Msg.id ++ (writtenResult fold event).toList.map Prod.fst

theorem toolResultIds_congr {left right : Msg} (same : toolResults left = toolResults right) :
    toolResultIds left = toolResultIds right := by
  have ids : ∀ message : Msg,
      toolResultIds message = (toolResults message).map ToolResultBlock.id := by
    intro message
    unfold toolResultIds toolResults
    rw [List.map_filterMap]
  rw [ids, ids, same]

theorem countedIds_event {event : Event} (keeps : keepsMarks fold event = true)
    (behind : ∀ id ∈ writtenTo fold event, id ∉ countedPart fold.messages.items) :
    countedIds (applyEvent fold event).messages.items = countedIds fold.messages.items := by
  have change := applyEvent_change fold event
  generalize (applyEvent fold event).messages = after at change ⊢
  cases change with
  | kept => rfl
  | @changed held message found present same results =>
      have only : ∀ other ∈ fold.messages.items, other.id = message.id → other = held := by
        intro other member own
        have ids : message.id = held.id := congrArg Prod.fst same
        have found := KeyedList.find?_of_mem member
        rw [own, ids, KeyedList.find?_of_mem present] at found
        exact (Option.some.inj found).symm
      apply collectCounted_put
      · intro other member own
        rw [only other member own]
        exact sameMark_standing same
      · intro absent
        refine absurd (List.mem_map.mpr ⟨held, present, ?_⟩) absent
        exact (congrArg Prod.fst same).symm
      · intro counted other member own
        rw [only other member own]
        rcases results with stay | ⟨toolCallId, writes, _⟩
        · exact toolResultIds_congr stay
        · refine absurd counted ?_
          rw [show message.id = held.id from congrArg Prod.fst same]
          refine behind held.id (List.mem_append_right _ ?_)
          rw [writes]
          exact List.mem_singleton.mpr rfl
  | @opened message fresh blank _ =>
      have absent := (KeyedList.find?_eq_none _ _).mp fresh
      apply collectCounted_put
      · intro other member own
        exact absurd (own ▸ List.mem_map_of_mem member) absent
      · intro _
        rw [show message.name = .default from congrArg (fun parts => parts.2.2.1) blank]
        nofun
      · intro _ other member own
        exact absurd (own ▸ List.mem_map_of_mem member) absent
  | @written message base writes origin =>
      have stands := map_bare_base origin
      obtain ⟨plain, free⟩ := keepsMarks_base keeps writes origin
      have counted : countedIds base.messages.items = countedIds fold.messages.items := by
        unfold countedIds
        rw [← collectCounted_bare [] [] base.messages.items,
          ← collectCounted_bare [] [] fold.messages.items, stands]
      rw [← counted]
      apply collectCounted_put
      · intro held member own
        refine Or.inl ⟨plain, free held ?_⟩
        rw [← own]
        exact KeyedList.find?_of_mem member
      · exact fun _ => plain
      · intro inFront
        refine absurd ?_ (behind message.id (List.mem_append_left _ ?_))
        · rw [← countedPart_bare, ← stands, countedPart_bare]
          exact inFront
        · rw [writes]
          exact List.mem_singleton.mpr rfl

theorem results_event {event : Event} {message : Msg}
    (present : message ∈ (applyEvent fold event).messages.items)
    (listed : result ∈ toolResults message) :
    (message.id, result.id) ∈ writtenKeys fold event ∨
      ∃ held ∈ fold.messages.items, held.id = message.id ∧ result ∈ toolResults held := by
  have change := applyEvent_change fold event
  generalize (applyEvent fold event).messages = after at change present
  cases change with
  | kept => exact Or.inr ⟨message, present, rfl, listed⟩
  | @changed held other found stood same results =>
      rcases KeyedList.mem_put present with rfl | before
      · have ids : message.id = held.id := congrArg Prod.fst same
        rcases results with stay | ⟨toolCallId, writes, own⟩
        · rw [stay] at listed
          exact Or.inr ⟨held, stood, ids.symm, listed⟩
        · rcases own result listed with written | stayed
          · refine Or.inl (List.mem_append_right _ ?_)
            rw [writes, written, ids]
            exact List.mem_singleton.mpr rfl
          · exact Or.inr ⟨held, stood, ids.symm, stayed⟩
      · exact Or.inr ⟨message, before, rfl, listed⟩
  | @opened other fresh blank empty =>
      rcases KeyedList.mem_put present with rfl | before
      · rw [empty] at listed
        exact absurd listed List.not_mem_nil
      · exact Or.inr ⟨message, before, rfl, listed⟩
  | @written other base writes origin =>
      rcases KeyedList.mem_put present with rfl | before
      · refine Or.inl (List.mem_append_left _ ?_)
        rw [writes]
        exact List.mem_flatMap.mpr ⟨message, List.mem_singleton.mpr rfl,
          List.mem_map_of_mem listed⟩
      · have member : bare message ∈ base.messages.items.map bare := List.mem_map_of_mem before
        rw [map_bare_base origin] at member
        obtain ⟨held, stood, same⟩ := List.mem_map.mp member
        refine Or.inr ⟨held, stood, ?_, ?_⟩
        · rw [← bare_id, same, bare_id]
        · rw [← toolResults_bare, same, toolResults_bare]
          exact listed

end Ftre.Compaction
