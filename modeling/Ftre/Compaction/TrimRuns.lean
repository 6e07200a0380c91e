import Ftre.Compaction.TrimLaw

/-!
Runs of a session with fast compactions. Beside the session stands what its calls
meant to trim, each at the time of the call; the view of every later state is held
against that.
-/

namespace Ftre.Compaction

open Lib Message Session FoldState

structure TrimState where
  fold : FoldState
  trimmed : List ResultKey
  settled : Option Int

def TrimState.history (state : TrimState) : List Msg := state.fold.messages.items

/-- A session as it is found: what is trimmed in it counts as meant. -/
def TrimState.found (fold : FoldState) : TrimState where
  fold := fold
  trimmed := (fold.messages.items.flatMap resultKeys).filter fun key =>
    key.2 ∈ trimIds fold.messages.items
  settled := none

inductive TrimAction where
  /-- A fast compaction; its mark gets the id. -/
  | compressFast (keepTurns seq time : Int) (id : String)
  | write (event : Event)

/-- What a call on the view means to trim. -/
def trimmedKeys (keepTurns : Int) (view : List Msg) : List ResultKey :=
  (unprotected keepTurns view).flatMap fun message =>
    ((toolResults message).filter isUntrimmed).map fun result => (message.id, result.id)

def trimStep (state : TrimState) : TrimAction → Option TrimState
  | .compressFast keepTurns seq time id =>
      if freshFor id state.history then
        match compressFast state.history keepTurns with
        | none => some { state with settled := some keepTurns }
        | some data =>
            some {
              fold := applyEvent state.fold (fastEvent seq time id data)
              trimmed := state.trimmed ++ trimmedKeys keepTurns (buildContextView state.history)
              settled := some keepTurns }
      else none
  | .write event =>
      if keepsMarks state.fold event then
        some { state with
          fold := applyEvent state.fold event
          settled := none }
      else none

def trimming : StepSystem TrimState TrimAction := ⟨trimStep⟩

def Marked (state : TrimState) (id : String) : Prop :=
  id ∈ state.history.flatMap markNames ∨ id ∈ state.trimmed.map Prod.snd

/-- No id of a result that a call trims is empty or that of another result of the history, unless
that one is trimmed too. -/
def TrimsOwn (state : TrimState) (keepTurns : Int) : Prop :=
  let meant := trimmedKeys keepTurns (buildContextView state.history)
  (∀ key ∈ meant, key.2 ≠ "") ∧
    ∀ message ∈ state.history, ∀ result ∈ toolResults message, result.id ∈ meant.map Prod.snd →
      result.output = trimmedOutput ∨ (message.id, result.id) ∈ state.trimmed ∨
        (message.id, result.id) ∈ meant

/-- Call ids are not used again: a call trims its own results, and an event writes no result under
a marked id, unless it is the trimmed one itself, and none in front of an old mark that only
counts. -/
def trimGuard (state : TrimState) : TrimAction → Prop
  | .compressFast keepTurns _ _ _ => TrimsOwn state keepTurns
  | .write event =>
      (∀ key ∈ writtenKeys state.fold event, Marked state key.2 → key ∈ state.trimmed) ∧
        ∀ id ∈ writtenTo state.fold event, id ∉ countedPart state.history

instance (state : TrimState) (id : String) : Decidable (Marked state id) :=
  inferInstanceAs (Decidable (_ ∨ _))

instance (state : TrimState) (action : TrimAction) : Decidable (trimGuard state action) :=
  match action with
  | .compressFast keepTurns _ _ _ =>
      inferInstanceAs (Decidable ((∀ key ∈ trimmedKeys keepTurns _, key.2 ≠ "") ∧
        ∀ message ∈ state.history, ∀ result ∈ toolResults message, _ → _))
  | .write event =>
      inferInstanceAs (Decidable ((∀ key ∈ writtenKeys state.fold event,
        Marked state key.2 → key ∈ state.trimmed) ∧ ∀ id ∈ writtenTo state.fold event, _))

/-! ### The law -/

/-- The view shows every output but the trimmed ones, and the last call, made again,
finds nothing. -/
structure TrimsPrecisely (state : TrimState) : Prop where
  view : buildContextView state.history =
    (selectView state.history).map (replaceOutputs state.trimmed)
  again : ∀ keepTurns, state.settled = some keepTurns →
    compressFast state.history keepTurns = none

structure TrimInvariant (state : TrimState) : Prop where
  named : ∀ key ∈ state.trimmed, key.2 ∈ trimIds state.history
  only : ∀ message ∈ state.history, ∀ result ∈ toolResults message,
    result.id ∈ trimIds state.history →
      result.output = trimmedOutput ∨ (message.id, result.id) ∈ state.trimmed
  counted : ∀ id ∈ countedIds state.history, id ∈ state.trimmed.map Prod.snd
  again : ∀ keepTurns, state.settled = some keepTurns →
    compressFast state.history keepTurns = none

variable {state : TrimState} {keepTurns : Int} {id : String}

theorem TrimInvariant.precise (invariant : TrimInvariant state) :
    TrimsPrecisely state where
  view := by
    unfold buildContextView
    apply List.map_congr_left
    intro message present
    apply trimMessage_eq_replaceOutputs
    intro result listed
    by_cases named : result.id ∈ collectTrimIds [] [] state.history
    · rcases invariant.only message (mem_selectView present) result listed named with
        already | meant
      · exact Or.inl already
      · exact Or.inr (iff_of_true named meant)
    · exact Or.inr (iff_of_false named fun meant => named (invariant.named _ meant))
  again := invariant.again

theorem TrimInvariant.marked (invariant : TrimInvariant state) (named : id ∈ trimIds state.history) :
    Marked state id := by
  rcases mem_trimIds.mp named with name | count
  · exact Or.inl name
  · exact Or.inr (invariant.counted id count)

theorem countedIds_held (counts : id ∈ countedIds history) :
    id ∈ (history.flatMap resultKeys).map Prod.snd := by
  have within : ∀ (messages seen : List Msg) (trimmed : List String),
      id ∈ collectCounted seen trimmed messages →
        id ∈ (seen ++ messages).flatMap toolResultIds := by
    intro messages
    induction messages with
    | nil =>
        intro seen trimmed counts
        exact absurd counts List.not_mem_nil
    | cons message rest ih =>
        intro seen trimmed counts
        rcases List.mem_append.mp counts with own | later
        · unfold markCounts at own
          split at own
          · exact absurd own List.not_mem_nil
          · split at own
            · exact absurd own List.not_mem_nil
            · have taken := List.mem_of_mem_filter (List.mem_of_mem_take own)
              rw [List.flatMap_append]
              exact List.mem_append_left _ taken
        · have member := ih (seen ++ [message]) _ later
          rw [List.append_assoc] at member
          exact member
  obtain ⟨message, present, listed⟩ := List.mem_flatMap.mp (within history [] [] counts)
  obtain ⟨block, held, picked⟩ := List.mem_filterMap.mp listed
  obtain ⟨result, found, rfl⟩ := Option.map_eq_some_iff.mp picked
  exact List.mem_map.mpr ⟨(message.id, result.id), List.mem_flatMap.mpr ⟨message, present,
    List.mem_map_of_mem (List.mem_filterMap.mpr ⟨block, held, found⟩)⟩, rfl⟩

theorem invariant_found (fold : FoldState) : TrimInvariant (TrimState.found fold) where
  named := by
    intro key present
    exact of_decide_eq_true (List.mem_filter.mp present).2
  only := by
    intro message present result listed named
    refine Or.inr (List.mem_filter.mpr ⟨?_, decide_eq_true named⟩)
    exact List.mem_flatMap.mpr ⟨message, present, List.mem_map_of_mem listed⟩
  counted := by
    intro id counts
    obtain ⟨key, held, same⟩ := List.mem_map.mp (countedIds_held counts)
    refine List.mem_map.mpr ⟨key, List.mem_filter.mpr ⟨held, decide_eq_true ?_⟩, same⟩
    rw [same]
    exact mem_trimIds.mpr (Or.inr counts)
  again := by
    intro keepTurns settled
    cases settled

/-! ### A call -/

theorem mem_trimmableIds {view : List Msg} :
    id ∈ trimmableIds keepTurns view ↔
      ∃ result ∈ trimmable keepTurns view, result.id = id := by
  unfold trimmableIds
  rw [List.mem_insertionSort, List.mem_dedup, List.mem_map]

theorem mem_trimmedKeys {view : List Msg} {key : ResultKey}
    (meant : key ∈ trimmedKeys keepTurns view) : key.2 ∈ trimmableIds keepTurns view := by
  obtain ⟨message, within, listed⟩ := List.mem_flatMap.mp meant
  obtain ⟨result, kept, same⟩ := List.mem_map.mp listed
  obtain ⟨held, untrimmed⟩ := List.mem_filter.mp kept
  rw [← same]
  exact mem_trimmableIds.mpr
    ⟨result, mem_trimmable.mpr ⟨message, within, held, untrimmed⟩, rfl⟩

theorem trimmable_nil (keepTurns : Int) : trimmable keepTurns [] = [] := by
  unfold trimmable unprotected
  rw [headMessages, List.take_nil]
  rfl

theorem mem_trimmedKeys_ids {view : List Msg} :
    id ∈ (trimmedKeys keepTurns view).map Prod.snd ↔ id ∈ trimmableIds keepTurns view := by
  constructor
  · intro meant
    obtain ⟨key, present, rfl⟩ := List.mem_map.mp meant
    exact mem_trimmedKeys present
  · intro named
    obtain ⟨result, listed, rfl⟩ := mem_trimmableIds.mp named
    obtain ⟨message, within, held, untrimmed⟩ := mem_trimmable.mp listed
    exact List.mem_map.mpr ⟨(message.id, result.id), List.mem_flatMap.mpr ⟨message, within,
      List.mem_map.mpr ⟨result, List.mem_filter.mpr ⟨held, untrimmed⟩, rfl⟩⟩, rfl⟩

theorem TrimsOwn.data (own : TrimsOwn state keepTurns) {data : CompactData}
    (trims : compressFast state.history keepTurns = some data) :
    (∀ id ∈ data.toolResultIds, id ≠ "") ∧ data.toolResultIds ≠ [] := by
  obtain ⟨some, _, ids⟩ := compressFast_some trims
  rw [ids]
  refine ⟨fun id present => ?_, ?_⟩
  · obtain ⟨key, meant, rfl⟩ := List.mem_map.mp (mem_trimmedKeys_ids.mpr present)
    exact own.1 key meant
  · obtain ⟨result, listed⟩ := List.exists_mem_of_ne_nil _ some
    exact List.ne_nil_of_mem (mem_trimmableIds.mpr ⟨result, listed, rfl⟩)

theorem TrimsOwn.view (own : TrimsOwn state keepTurns) (invariant : TrimInvariant state)
    {message : Msg} (present : message ∈ buildContextView state.history)
    {result : ToolResultBlock} (listed : result ∈ toolResults message)
    (now : result.id ∈ trimmableIds keepTurns (buildContextView state.history)) :
    result.output = trimmedOutput ∨
      (message.id, result.id) ∈ trimmedKeys keepTurns (buildContextView state.history) := by
  obtain ⟨original, selected, rfl⟩ := List.mem_map.mp present
  rcases mem_toolResults_trim listed with already | ⟨unnamed, held⟩
  · exact Or.inl already
  · rcases own.2 original (mem_selectView selected) result held (mem_trimmedKeys_ids.mpr now) with
      already | trimmed | meant
    · exact Or.inl already
    · exact absurd (invariant.named _ trimmed) unnamed
    · exact Or.inr meant

theorem view_compressFast (invariant : TrimInvariant state) {data : CompactData}
    (trims : compressFast state.history keepTurns = some data) (seq time : Int)
    (fresh : freshFor id state.history = true) (own : TrimsOwn state keepTurns) :
    let after := (applyEvent state.fold (fastEvent seq time id data)).messages.items
    let mark := fastMessageOf (fastEvent seq time id data) data
    let view := buildContextView state.history
    trimIds after = trimIds state.history ++ trimmableIds keepTurns view ∧
    (∃ kept, buildContextView after = kept ++ [mark] ∧
      kept.map bare = (view.map (replaceOutputs (trimmedKeys keepTurns view))).map bare) ∧
    compressFast after keepTurns = none := by
  obtain ⟨some, fast, ids⟩ := compressFast_some trims
  obtain ⟨named, idsSome⟩ := own.data trims
  obtain ⟨kept, behind, same⟩ := view_fast fast named idsSome seq time fresh
  have viewSome : buildContextView state.history ≠ [] := by
    intro none
    rw [none, trimmable_nil] at some
    exact some rfl
  have nothing : trimmable keepTurns
      (kept ++ [fastMessageOf (fastEvent seq time id data) data]) = [] := by
    apply trimmable_after viewSome rfl rfl _ same
    intro result listed
    rw [ids]
    exact mem_trimmableIds.mpr ⟨result, listed, rfl⟩
  refine ⟨?_, ⟨kept, behind, ?_⟩, ?_⟩
  · rw [trimIds_fast fast named idsSome seq time fresh, ids]
    rfl
  · rw [same, ids]
    change ((buildContextView state.history).map _).map bare = _
    congr 1
    apply List.map_congr_left
    intro message present
    apply trimMessage_eq_replaceOutputs
    intro result listed
    by_cases now : result.id ∈ trimmableIds keepTurns (buildContextView state.history)
    · rcases own.view invariant present listed now with already | meant
      · exact Or.inl already
      · exact Or.inr (iff_of_true now meant)
    · exact Or.inr (iff_of_false now fun meant => now (mem_trimmedKeys meant))
  · unfold compressFast
    dsimp only
    rw [behind, nothing, if_pos rfl]

theorem countedIds_fast {fold : FoldState} {data : CompactData} (fast : data.mode = "fast")
    (named : ∀ id ∈ data.toolResultIds, id ≠ "") (some : data.toolResultIds ≠ [])
    (seq time : Int) (fresh : freshFor id fold.messages.items = true) :
    countedIds (applyEvent fold (fastEvent seq time id data)).messages.items =
      countedIds fold.messages.items := by
  obtain ⟨held, items, same⟩ := items_fast fast seq time fresh
  have names : countsOnly (fastMessageOf (fastEvent seq time id data) data) = false := by
    unfold countsOnly
    rw [namedResults_fast _ named some, decide_eq_false some, Bool.and_false, Bool.false_and]
  unfold countedIds
  rw [items, collectCounted_append, markCounts_named names, List.append_nil,
    ← collectCounted_bare [] [] held, ← collectCounted_bare [] [] fold.messages.items, same]

theorem invariant_compressFast (invariant : TrimInvariant state) {data : CompactData}
    (trims : compressFast state.history keepTurns = some data) (seq time : Int)
    (fresh : freshFor id state.history = true) (own : TrimsOwn state keepTurns) :
    TrimInvariant {
      fold := applyEvent state.fold (fastEvent seq time id data)
      trimmed := state.trimmed ++ trimmedKeys keepTurns (buildContextView state.history)
      settled := some keepTurns } := by
  obtain ⟨grown, _, nothing⟩ := view_compressFast invariant trims seq time fresh own
  obtain ⟨_, fast, _⟩ := compressFast_some trims
  obtain ⟨held, items, same⟩ := items_fast fast seq time fresh
  refine ⟨?_, ?_, ?_, ?_⟩
  · intro key present
    change key.2 ∈ trimIds (applyEvent state.fold _).messages.items
    rw [grown]
    rcases List.mem_append.mp present with earlier | now
    · exact List.mem_append_left _ (invariant.named key earlier)
    · exact List.mem_append_right _ (mem_trimmedKeys now)
  · intro message present result listed named
    change result.id ∈ trimIds (applyEvent state.fold _).messages.items at named
    rw [grown] at named
    change message ∈ (applyEvent state.fold _).messages.items at present
    rw [items] at present
    rcases List.mem_append.mp present with before | mark
    · have member : bare message ∈ held.map bare := List.mem_map_of_mem before
      rw [same] at member
      obtain ⟨original, early, same⟩ := List.mem_map.mp member
      have ids : original.id = message.id := by rw [← bare_id, same, bare_id]
      rw [← toolResults_bare, ← same, toolResults_bare] at listed
      rw [← ids]
      rcases List.mem_append.mp named with earlier | now
      · exact (invariant.only original early result listed earlier).imp_right
          (List.mem_append_left _)
      · rcases own.2 original early result listed (mem_trimmedKeys_ids.mpr now) with
          already | trimmed | meant
        · exact Or.inl already
        · exact Or.inr (List.mem_append_left _ trimmed)
        · exact Or.inr (List.mem_append_right _ meant)
    · rw [List.mem_singleton.mp mark] at listed
      exact absurd listed List.not_mem_nil
  · intro other counts
    obtain ⟨named, idsSome⟩ := own.data trims
    change other ∈ countedIds (applyEvent state.fold _).messages.items at counts
    rw [countedIds_fast fast named idsSome seq time fresh] at counts
    rw [List.map_append]
    exact List.mem_append_left _ (invariant.counted other counts)
  · intro other same
    cases same
    exact nothing

theorem invariant_write {state : TrimState} (invariant : TrimInvariant state) {event : Event}
    (keeps : keepsMarks state.fold event = true)
    (apart : ∀ key ∈ writtenKeys state.fold event, Marked state key.2 → key ∈ state.trimmed)
    (behind : ∀ id ∈ writtenTo state.fold event, id ∉ countedPart state.history) :
    TrimInvariant { state with
      fold := applyEvent state.fold event
      settled := none } := by
  have counts : countedIds (applyEvent state.fold event).messages.items =
      countedIds state.history := countedIds_event keeps behind
  have ids : ∀ id, id ∈ trimIds (applyEvent state.fold event).messages.items ↔
      id ∈ trimIds state.history := by
    intro id
    rw [mem_trimIds, mem_trimIds, counts]
    exact or_congr_left (markNames_event_iff keeps)
  refine ⟨fun key present => (ids key.2).mpr (invariant.named key present), ?_, ?_,
    fun keepTurns settled => by cases settled⟩
  · intro message present result listed named
    have before := (ids result.id).mp named
    rcases results_event present listed with written | ⟨held, stood, same, earlier⟩
    · exact Or.inr (apart _ written (invariant.marked before))
    · rw [← same]
      exact invariant.only held stood result earlier before
  · intro id counted
    change id ∈ countedIds (applyEvent state.fold event).messages.items at counted
    rw [counts] at counted
    exact invariant.counted id counted

theorem invariant_step {before after : TrimState} {action : TrimAction}
    (invariant : TrimInvariant before) (allowed : trimGuard before action)
    (moved : trimming.step before action = some after) : TrimInvariant after := by
  cases action with
  | compressFast keepTurns seq time id =>
      change trimStep before (.compressFast keepTurns seq time id) = some after at moved
      unfold trimStep at moved
      dsimp only at moved
      split at moved
      · rename_i fresh
        split at moved
        · rename_i nothing
          cases moved
          refine ⟨invariant.named, invariant.only, invariant.counted, fun other same => ?_⟩
          cases same
          exact nothing
        · rename_i data trims
          cases moved
          exact invariant_compressFast invariant trims seq time fresh allowed
      · cases moved
  | write event =>
      change trimStep before (.write event) = some after at moved
      unfold trimStep at moved
      dsimp only at moved
      split at moved
      · rename_i keeps
        cases moved
        exact invariant_write invariant keeps allowed.1 allowed.2
      · cases moved

def callWrite (seq : Int) (message call : String) : TrimAction :=
  .write ⟨seq, seq, some message, .toolCallStart call "read" .empty⟩

def resultWrite (seq : Int) (message call text : String) : TrimAction :=
  .write ⟨seq, seq, some message,
    .toolResult call "read" [.text ⟨text, "", "", none⟩] "success" .empty⟩

def userWrite (seq : Int) (id : String) : TrimAction :=
  .write ⟨seq, seq, some id, .userMessage [.object [("type", .str "text"), ("text", .str id)]]
    .empty ""⟩

def shownOutputs (state : TrimState) : List String :=
  ((buildContextView state.history).flatMap toolResults).map fun result =>
    toolResultText result.output

def distinctRun : List TrimAction :=
  [userWrite 1 "u1", callWrite 2 "a1" "c1", resultWrite 3 "a1" "c1" "first",
    .compressFast 0 4 4 "m1", userWrite 5 "u2", callWrite 6 "a2" "c2",
    resultWrite 7 "a2" "c2" "second", .compressFast 1 8 8 "m2"]

def reusingRun : List TrimAction :=
  [userWrite 1 "u1", callWrite 2 "a1" "c1", resultWrite 3 "a1" "c1" "first",
    .compressFast 0 4 4 "m1", userWrite 5 "u2", callWrite 6 "a2" "c1",
    resultWrite 7 "a2" "c1" "second"]

end Ftre.Compaction
