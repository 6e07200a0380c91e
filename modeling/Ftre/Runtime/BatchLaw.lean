import Mathlib.Tactic.ByContra
import Ftre.Runtime.ToolBatch

/-!
What a batch of tool calls owes: a start and a result for each call in the order of the model, the
result that its own task gave, the same text and state in event and context, and no task left
behind.
-/

namespace Ftre.Runtime

open Lib Message Ftre.Tools

namespace Batch

def startOf : BatchEvent → Option (String × String)
  | .resultStart id name => some (id, name)
  | _ => none

def resultOf? : BatchEvent → Option ShownResult
  | .result data => some data
  | _ => none

def writtenResult : ContextWrite → Option ShownResult
  | .result block => some block
  | _ => none

def starts (batch : Batch) : List (String × String) := batch.events.filterMap startOf

def results (batch : Batch) : List ShownResult := batch.events.filterMap resultOf?

def contextResults (batch : Batch) : List ShownResult := batch.context.filterMap writtenResult

def announced (calls : List BatchCall) : List (String × String) :=
  calls.map fun call => (call.id, call.name)

structure BatchLaw (batch : Batch) : Prop where
  startsInOrder : batch.starts <+: announced batch.calls
  resultsInOrder : batch.results.map ShownResult.id <+: batch.calls.map BatchCall.id
  complete : batch.phase = .ended .finished ∨ batch.phase = .ended .cancelled →
    batch.starts = announced batch.calls ∧
      batch.results.map ShownResult.id = batch.calls.map BatchCall.id
  suspended : batch.phase = .ended .suspended →
    batch.starts = announced batch.calls ∧ batch.results = []
  own : ∀ (index : Nat) (data : ShownResult), batch.results[index]? = some data → ∃ call result,
    batch.calls[index]? = some call ∧ batch.outcomeAt index call = some result ∧
      data = shown call result
  agree : ∀ (index : Nat) (data : ShownResult), batch.results[index]? = some data →
    ∃ block : ShownResult, batch.contextResults[index]? = some block ∧ block.id = data.id ∧
      block.text = data.text ∧ block.state = data.state
  settled : ∀ ending, batch.phase = .ended ending → ∀ task ∈ batch.tasks, task ≠ .running

/-- The ids are distinct where the tasks are made, every result that is told has a text, and
a close between the starts finds no task running. -/
def Clean (batch : Batch) : BatchAction → Prop
  | .resume =>
      match batch.phase with
      | .created => (batch.calls.map BatchCall.id).Nodup
      | _ => True
  | .gather =>
      askedCalls batch.calls batch.gatherResults = [] →
        ∀ result ∈ batch.gatherResults, result.result ≠ ""
  | .close =>
      match batch.phase with
      | .starting _ => ∀ task ∈ batch.tasks, task ≠ .running
      | _ => True
  | _ => True

variable {batch : Batch}

theorem taskTable_find {calls : List BatchCall} (distinct : (calls.map BatchCall.id).Nodup)
    {index : Nat} {call : BatchCall} (found : calls[index]? = some call) :
    (taskTable calls).find? call.id = some index := by
  have keys : (calls.zipIdx.map fun entry => (entry.1.id, entry.2)).map Prod.fst =
      calls.map BatchCall.id := by
    rw [List.map_map]
    have split : (Prod.fst ∘ fun entry : BatchCall × Nat => (entry.1.id, entry.2)) =
        BatchCall.id ∘ Prod.fst := rfl
    rw [split, ← List.map_map, List.zipIdx_map_fst]
  have whole := KeyedTable.ofList_entries
    (⟨calls.zipIdx.map fun entry => (entry.1.id, entry.2), keys ▸ distinct⟩ :
      KeyedTable String Nat)
  change (KeyedTable.ofList (calls.zipIdx.map fun entry => (entry.1.id, entry.2))).find? call.id =
    some index
  rw [whole, KeyedTable.find?_eq_some_iff]
  exact List.mem_map.mpr ⟨(call, index), List.mem_zipIdx_iff_getElem?.mpr found, rfl⟩

theorem taskTable_mem {calls : List BatchCall} (distinct : (calls.map BatchCall.id).Nodup)
    {index : Nat} (within : index < calls.length) : index ∈ (taskTable calls).values := by
  have found : calls[index]? = some calls[index] := List.getElem?_eq_getElem within
  have entry := (KeyedTable.find?_eq_some_iff _ _ _).mp (taskTable_find distinct found)
  exact List.mem_map.mpr ⟨_, entry, rfl⟩

theorem settled_of_tasksDone (distinct : (batch.calls.map BatchCall.id).Nodup)
    (length : batch.tasks.length = batch.calls.length) (finished : batch.tasksDone = true) :
    ∀ task ∈ batch.tasks, task ≠ .running := by
  intro task member running
  obtain ⟨index, found⟩ := List.getElem?_of_mem member
  have within : index < batch.calls.length := length ▸ (List.getElem?_eq_some_iff.mp found).1
  have ended := List.all_eq_true.mp finished index (taskTable_mem distinct within)
  unfold taskEnded at ended
  rw [found, running] at ended
  cases ended

theorem resultOf_own (distinct : (batch.calls.map BatchCall.id).Nodup)
    (length : batch.tasks.length = batch.calls.length)
    (settled : ∀ task ∈ batch.tasks, task ≠ .running) {index : Nat} {call : BatchCall}
    (found : batch.calls[index]? = some call) :
    batch.outcomeAt index call = some (batch.resultOf call) := by
  have within : index < batch.tasks.length := length ▸ (List.getElem?_eq_some_iff.mp found).1
  unfold resultOf
  rw [taskTable_find distinct found, Option.bind_some]
  unfold outcomeAt
  rw [List.getElem?_eq_getElem within]
  cases task : batch.tasks[index] with
  | running => exact absurd task (settled _ (List.getElem_mem within))
  | ended result => cases result <;> rfl

/-! ### The yields -/

def eventResults (yields : List Yielded) : List ShownResult :=
  (yields.map Yielded.event).filterMap resultOf?

def writeResults (yields : List Yielded) : List ShownResult :=
  (yields.flatMap Yielded.writes).filterMap writtenResult

theorem eventResults_append (left right : List Yielded) :
    eventResults (left ++ right) = eventResults left ++ eventResults right := by
  unfold eventResults
  rw [List.map_append, List.filterMap_append]

theorem writeResults_append (left right : List Yielded) :
    writeResults (left ++ right) = writeResults left ++ writeResults right := by
  unfold writeResults
  rw [List.flatMap_append, List.filterMap_append]

theorem eventResults_asks (asked : List (BatchCall × ToolResult)) :
    eventResults (asked.map fun (call, result) => askYield call result) = [] := by
  induction asked with
  | nil => rfl
  | cons head rest ih => exact ih

theorem eventResults_hints (hints : List String) : eventResults (hints.map hintYield) = [] := by
  induction hints with
  | nil => rfl
  | cons head rest ih => exact ih

theorem eventResults_records (pairs : List (BatchCall × ToolResult)) :
    eventResults (pairs.flatMap fun (call, result) => recordYields call result) =
      pairs.map fun (call, result) => shown call result := by
  induction pairs with
  | nil => rfl
  | cons head rest ih =>
      obtain ⟨call, result⟩ := head
      rw [List.flatMap_cons, eventResults_append, ih, List.map_cons]
      have one : eventResults (recordYields call result) = [shown call result] := by
        unfold recordYields
        by_cases empty : result.result = ""
        · rw [if_pos empty]
          rfl
        · rw [if_neg empty]
          rfl
      rw [one]
      rfl

variable (calls : List BatchCall)

theorem eventResults_tells (results : List ToolResult) :
    eventResults (tellYields calls results) =
      if askedCalls calls results = [] then
        (calls.zip results).map fun (call, result) => shown call result
      else [] := by
  unfold tellYields
  split
  · rw [eventResults_append, eventResults_records, eventResults_hints, List.append_nil]
  · exact eventResults_asks _

theorem recorded_eq {call : BatchCall} {result : ToolResult} (text : result.result ≠ "") :
    recorded call result = shown call result := by
  unfold recorded
  rw [if_neg text]
  rfl

theorem recorded_before_told (pairs : List (BatchCall × ToolResult))
    (texts : ∀ pair ∈ pairs, pair.2.result ≠ "") (told rest : List Yielded)
    (whole : pairs.flatMap (fun (call, result) => recordYields call result) = told ++ rest) :
    eventResults told <+: writeResults told := by
  induction pairs generalizing told rest with
  | nil =>
      have none : told = [] := (List.append_eq_nil_iff.mp whole.symm).1
      rw [none]
      exact List.prefix_rfl
  | cons head others ih =>
      obtain ⟨call, result⟩ := head
      have text := texts (call, result) List.mem_cons_self
      have later : ∀ pair ∈ others, pair.2.result ≠ "" := fun pair member =>
        texts pair (List.mem_cons_of_mem _ member)
      rw [List.flatMap_cons] at whole
      change recordYields call result ++ _ = _ at whole
      have two : recordYields call result =
          [⟨[.callState call.id .finished, .result (recorded call result)],
            .chunk call.id result.result⟩, ⟨[], .result (shown call result)⟩] := by
        unfold recordYields
        rw [if_neg text]
      rw [two, List.cons_append, List.cons_append, List.nil_append] at whole
      cases told with
      | nil => exact List.prefix_rfl
      | cons first told =>
          rw [List.cons_append, List.cons.injEq] at whole
          obtain ⟨same, whole⟩ := whole
          subst first
          cases told with
          | nil => exact List.nil_prefix
          | cons second told =>
              rw [List.cons_append, List.cons.injEq] at whole
              obtain ⟨same, whole⟩ := whole
              subst second
              have shownFirst : ∀ yields : List Yielded,
                  eventResults (⟨[.callState call.id .finished, .result (recorded call result)],
                    .chunk call.id result.result⟩ :: ⟨[], .result (shown call result)⟩ ::
                      yields) = shown call result :: eventResults yields := fun _ => rfl
              have writtenFirst : ∀ yields : List Yielded,
                  writeResults (⟨[.callState call.id .finished, .result (recorded call result)],
                    .chunk call.id result.result⟩ :: ⟨[], .result (shown call result)⟩ ::
                      yields) = recorded call result :: writeResults yields := fun _ => rfl
              rw [shownFirst, writtenFirst, recorded_eq text, List.prefix_cons_inj]
              exact ih later told rest whole

def startEvents : List BatchEvent := calls.map start

theorem startOf_startEvents : (startEvents calls).filterMap startOf = announced calls := by
  induction calls with
  | nil => rfl
  | cons head rest ih => exact congrArg (_ :: ·) ih

theorem resultOf_startEvents : (startEvents calls).filterMap resultOf? = [] := by
  induction calls with
  | nil => rfl
  | cons head rest ih => exact ih

structure Spawned (batch : Batch) : Prop where
  distinct : (batch.calls.map BatchCall.id).Nodup
  length : batch.tasks.length = batch.calls.length

def Announced (batch : Batch) (rest : List BatchCall) : Prop :=
  (∃ sent, batch.calls = sent ++ rest ∧ batch.events = startEvents sent) ∧ batch.context = []

structure Told (batch : Batch) (rest : List Yielded) (ending : BatchEnd) : Prop where
  spawned : batch.Spawned
  settled : ∀ task ∈ batch.tasks, task ≠ .running
  texts : askedCalls batch.calls batch.gatherResults = [] →
    ∀ result ∈ batch.gatherResults, result.result ≠ ""
  told : ∃ done, tellYields batch.calls batch.gatherResults = done ++ rest ∧
    batch.events = startEvents batch.calls ++ done.map Yielded.event ∧
      batch.context = done.flatMap Yielded.writes
  ending : ending = endingOf batch.calls batch.gatherResults batch.externallyCancelled

def Sound (batch : Batch) : Prop :=
  match batch.phase with
  | .created => batch.tasks = [] ∧ batch.events = [] ∧ batch.context = []
  | .starting rest => batch.Spawned ∧ batch.Announced rest
  | .waiting => batch.Spawned ∧ batch.Announced []
  | .telling rest ending => batch.Told rest ending
  | .ended .closed =>
      (∃ rest, (∀ task ∈ batch.tasks, task ≠ .running) ∧ batch.Announced rest) ∨
        ∃ rest ending, batch.Told rest ending
  | .ended .abandoned =>
      (∀ task ∈ batch.tasks, task ≠ .running) ∧ batch.Announced []
  | .ended ending => batch.Told [] ending

/-! ### The law -/

theorem law_of_announced {rest : List BatchCall} (announces : batch.Announced rest)
    (unfinished : ∀ ending, batch.phase = .ended ending →
      ending ≠ .finished ∧ ending ≠ .cancelled ∧ ending ≠ .suspended)
    (settled : ∀ ending, batch.phase = .ended ending → ∀ task ∈ batch.tasks, task ≠ .running) :
    batch.BatchLaw := by
  obtain ⟨⟨sent, calls, events⟩, context⟩ := announces
  have starts : batch.starts = announced sent := by
    unfold Batch.starts
    rw [events, startOf_startEvents]
  have results : batch.results = [] := by
    unfold Batch.results
    rw [events, resultOf_startEvents]
  refine
    { startsInOrder := ?_
      resultsInOrder := ?_
      complete := ?_
      suspended := fun ended => absurd rfl (unfinished _ ended).2.2
      own := fun index data found => ?_
      agree := fun index data found => ?_
      settled := settled }
  · rw [starts, calls]
    unfold announced
    rw [List.map_append]
    exact List.prefix_append _ _
  · rw [results]
    exact List.nil_prefix
  · intro ended
    cases ended with
    | inl ended => exact absurd rfl (unfinished _ ended).1
    | inr ended => exact absurd rfl (unfinished _ ended).2.1
  · rw [results] at found
    cases found
  · rw [results] at found
    cases found

theorem startOf_tells (results : List ToolResult) :
    ((tellYields calls results).map Yielded.event).filterMap startOf = [] := by
  have records : ∀ (call : BatchCall) (result : ToolResult),
      ((recordYields call result).map Yielded.event).filterMap startOf = [] := by
    intro call result
    unfold recordYields
    by_cases empty : result.result = ""
    · rw [if_pos empty]
      rfl
    · rw [if_neg empty]
      rfl
  unfold tellYields
  split
  · rw [List.map_append, List.filterMap_append, List.append_eq_nil_iff]
    constructor
    · induction calls.zip results with
      | nil => rfl
      | cons head rest ih =>
          rw [List.flatMap_cons, List.map_append, List.filterMap_append, ih, List.append_nil]
          exact records head.1 head.2
    · induction results.filterMap ToolResult.event with
      | nil => rfl
      | cons head rest ih => exact ih
  · induction askedCalls calls results with
    | nil => rfl
    | cons head rest ih => exact ih

theorem zip_gathered (batch : Batch) : batch.calls.zip batch.gatherResults =
    batch.calls.map fun call => (call, batch.resultOf call) := by
  unfold gatherResults
  induction batch.calls with
  | nil => rfl
  | cons head rest ih => rw [List.map_cons, List.zip_cons_cons, ih, List.map_cons]

theorem law_of_told {rest : List Yielded} {ending : BatchEnd} (told : batch.Told rest ending)
    (ended : ∀ final, batch.phase = .ended final → final ≠ .closed →
      rest = [] ∧ final = ending) :
    batch.BatchLaw := by
  obtain ⟨done, whole, events, context⟩ := told.told
  have starts : batch.starts = announced batch.calls := by
    have none := startOf_tells batch.calls batch.gatherResults
    rw [whole, List.map_append, List.filterMap_append] at none
    unfold Batch.starts
    rw [events, List.filterMap_append, startOf_startEvents,
      (List.append_eq_nil_iff.mp none).1, List.append_nil]
  have results : batch.results = eventResults done := by
    unfold Batch.results eventResults
    rw [events, List.filterMap_append, resultOf_startEvents, List.nil_append]
  have contextResults : batch.contextResults = writeResults done := by
    unfold Batch.contextResults writeResults
    rw [context]
  have shownAll : eventResults done ++ eventResults rest =
      if askedCalls batch.calls batch.gatherResults = [] then
        batch.calls.map fun call => shown call (batch.resultOf call)
      else [] := by
    rw [← eventResults_append, ← whole, eventResults_tells, zip_gathered, List.map_map]
    rfl
  have inOrder : batch.results <+: batch.calls.map fun call => shown call (batch.resultOf call) := by
    rw [results]
    split at shownAll
    · exact shownAll ▸ List.prefix_append _ _
    · rw [(List.append_eq_nil_iff.mp shownAll).1]
      exact List.nil_prefix
  have atIndex : ∀ (index : Nat) (data : ShownResult), batch.results[index]? = some data →
      ∃ call, batch.calls[index]? = some call ∧ data = shown call (batch.resultOf call) := by
    intro index data found
    obtain ⟨others, all⟩ := inOrder
    have within : index < batch.results.length := (List.getElem?_eq_some_iff.mp found).1
    have mapped : (batch.calls.map fun call => shown call (batch.resultOf call))[index]? =
        some data := by
      rw [← all, List.getElem?_append_left within, found]
    rw [List.getElem?_map] at mapped
    obtain ⟨call, at_, same⟩ := Option.map_eq_some_iff.mp mapped
    exact ⟨call, at_, same.symm⟩
  have before : eventResults done <+: writeResults done := by
    by_cases asked : askedCalls batch.calls batch.gatherResults = []
    · have texts := told.texts asked
      have records : tellYields batch.calls batch.gatherResults =
          ((batch.calls.zip batch.gatherResults).flatMap fun (call, result) =>
            recordYields call result) ++
              (batch.gatherResults.filterMap ToolResult.event).map hintYield := by
        unfold tellYields
        rw [if_pos asked]
      have paired : ∀ pair ∈ batch.calls.zip batch.gatherResults, pair.2.result ≠ "" :=
        fun pair member => texts pair.2 (List.of_mem_zip member).2
      rw [whole] at records
      cases List.append_eq_append_iff.mp records with
      | inl within =>
          obtain ⟨cut, whole, _⟩ := within
          exact recorded_before_told _ paired done cut whole
      | inr beyond =>
          obtain ⟨hints, same, hinted⟩ := beyond
          have all := recorded_before_told _ paired _ [] (List.append_nil _).symm
          have none : eventResults hints = [] := by
            have silent := eventResults_hints (batch.gatherResults.filterMap ToolResult.event)
            rw [hinted, eventResults_append] at silent
            exact (List.append_eq_nil_iff.mp silent).1
          rw [same, eventResults_append, none, List.append_nil, writeResults_append]
          exact all.trans (List.prefix_append _ _)
    · rw [if_neg asked] at shownAll
      rw [(List.append_eq_nil_iff.mp shownAll).1]
      exact List.nil_prefix
  have ids : (batch.calls.map fun call => shown call (batch.resultOf call)).map ShownResult.id =
      batch.calls.map BatchCall.id := by
    rw [List.map_map]
    rfl
  refine
    { startsInOrder := starts ▸ List.prefix_rfl
      resultsInOrder := ids ▸ inOrder.map ShownResult.id
      complete := ?_
      suspended := ?_
      own := ?_
      agree := ?_
      settled := fun _ _ => told.settled }
  · intro final
    have last : rest = [] ∧ askedCalls batch.calls batch.gatherResults = [] := by
      have asked : ∀ {final}, final = ending → final = .finished ∨ final = .cancelled →
          askedCalls batch.calls batch.gatherResults = [] := by
        intro final same finals
        rw [same, told.ending] at finals
        unfold endingOf at finals
        by_contra some
        rw [if_neg some] at finals
        exact absurd finals (by decide)
      cases final with
      | inl finished =>
          obtain ⟨none, same⟩ := ended _ finished (by decide)
          exact ⟨none, asked same (Or.inl rfl)⟩
      | inr cancelled =>
          obtain ⟨none, same⟩ := ended _ cancelled (by decide)
          exact ⟨none, asked same (Or.inr rfl)⟩
    rw [last.1, if_pos last.2] at shownAll
    have all : batch.results = batch.calls.map fun call => shown call (batch.resultOf call) := by
      rw [results, ← shownAll]
      exact (List.append_nil _).symm
    exact ⟨starts, by rw [all, ids]⟩
  · intro suspended
    obtain ⟨_, same⟩ := ended _ suspended (by decide)
    have asked : ¬ askedCalls batch.calls batch.gatherResults = [] := by
      intro none
      rw [told.ending, endingOf, if_pos none] at same
      split at same <;> cases same
    rw [if_neg asked] at shownAll
    exact ⟨starts, results.trans (List.append_eq_nil_iff.mp shownAll).1⟩
  · intro index data found
    obtain ⟨call, at_, same⟩ := atIndex index data found
    exact ⟨call, batch.resultOf call, at_,
      resultOf_own told.spawned.distinct told.spawned.length told.settled at_, same⟩
  · intro index data found
    rw [results] at found
    obtain ⟨others, all⟩ := before
    have within := (List.getElem?_eq_some_iff.mp found).1
    refine ⟨data, ?_, rfl, rfl, rfl⟩
    rw [contextResults, ← all, List.getElem?_append_left within, found]

theorem law_of_sound (sound : batch.Sound) : batch.BatchLaw := by
  unfold Sound at sound
  cases phase : batch.phase with
  | created =>
      rw [phase] at sound
      obtain ⟨_, events, context⟩ := sound
      have nothing : batch.Announced batch.calls := ⟨⟨[], rfl, events⟩, context⟩
      exact law_of_announced nothing (fun _ same => by rw [phase] at same; cases same)
        (fun _ same => by rw [phase] at same; cases same)
  | starting rest =>
      rw [phase] at sound
      exact law_of_announced sound.2 (fun _ same => by rw [phase] at same; cases same)
        (fun _ same => by rw [phase] at same; cases same)
  | waiting =>
      rw [phase] at sound
      exact law_of_announced sound.2 (fun _ same => by rw [phase] at same; cases same)
        (fun _ same => by rw [phase] at same; cases same)
  | telling rest ending =>
      rw [phase] at sound
      exact law_of_told sound fun _ same => by rw [phase] at same; cases same
  | ended ending =>
      rw [phase] at sound
      have final : ∀ {other}, batch.phase = .ended other → other = ending := by
        intro other same
        rw [phase] at same
        exact (BatchPhase.ended.inj same).symm
      cases ending with
      | closed =>
          cases sound with
          | inl early =>
              obtain ⟨rest, settled, announces⟩ := early
              refine law_of_announced announces (fun _ same => ?_) fun _ _ => settled
              rw [final same]
              decide
          | inr late =>
              obtain ⟨rest, ending, told⟩ := late
              exact law_of_told told fun _ same unclosed => absurd (final same) unclosed
      | abandoned =>
          refine law_of_announced sound.2 (fun _ same => ?_) fun _ _ => sound.1
          rw [final same]
          decide
      | finished => exact law_of_told sound fun _ same _ => ⟨rfl, final same⟩
      | cancelled => exact law_of_told sound fun _ same _ => ⟨rfl, final same⟩
      | suspended => exact law_of_told sound fun _ same _ => ⟨rfl, final same⟩

/-! ### One step -/

theorem sound_fresh : (fresh calls).Sound := ⟨rfl, rfl, rfl⟩

theorem sound_announce (spawned : batch.Spawned) {rest : List BatchCall}
    (announces : batch.Announced rest) : (batch.announce rest).Sound := by
  obtain ⟨⟨sent, calls, events⟩, context⟩ := announces
  cases rest with
  | nil => exact ⟨⟨spawned.distinct, spawned.length⟩, ⟨sent, calls, events⟩, context⟩
  | cons call rest =>
      refine ⟨⟨spawned.distinct, spawned.length⟩, ⟨sent ++ [call], ?_, ?_⟩, context⟩
      · rw [List.append_assoc]
        exact calls
      · change batch.events ++ [start call] = _
        rw [events, startEvents, startEvents, List.map_append]
        rfl

theorem sound_tell {rest : List Yielded} {ending : BatchEnd} (told : batch.Told rest ending)
    (telling : ending = .finished ∨ ending = .cancelled ∨ ending = .suspended) :
    (batch.tell ending rest).Sound := by
  obtain ⟨done, whole, events, context⟩ := told.told
  cases rest with
  | nil =>
      have same : (batch.tell ending []).Told [] ending :=
        ⟨⟨told.spawned.distinct, told.spawned.length⟩, told.settled, told.texts,
          ⟨done, whole, events, context⟩, told.ending⟩
      rcases telling with rfl | rfl | rfl <;> exact same
  | cons yielded rest =>
      refine ⟨⟨told.spawned.distinct, told.spawned.length⟩, told.settled, told.texts,
        ⟨done ++ [yielded], ?_, ?_, ?_⟩, told.ending⟩
      · rw [List.append_assoc]
        exact whole
      · change batch.events ++ [yielded.event] = _
        rw [events, List.map_append, List.append_assoc]
        rfl
      · change batch.context ++ yielded.writes = _
        rw [context, List.flatMap_append, List.flatMap_singleton]

theorem endingOf_cases (results : List ToolResult) (externallyCancelled : Bool) :
    endingOf calls results externallyCancelled = .finished ∨
      endingOf calls results externallyCancelled = .cancelled ∨
        endingOf calls results externallyCancelled = .suspended := by
  unfold endingOf
  split
  · split
    · exact Or.inr (Or.inl rfl)
    · exact Or.inl rfl
  · exact Or.inr (Or.inr rfl)

theorem sound_gather (spawned : batch.Spawned) (announces : batch.Announced [])
    (finished : batch.tasksDone = true)
    (texts : askedCalls batch.calls batch.gatherResults = [] →
      ∀ result ∈ batch.gatherResults, result.result ≠ "") :
    (batch.tell (endingOf batch.calls batch.gatherResults batch.externallyCancelled)
      (tellYields batch.calls batch.gatherResults)).Sound := by
  obtain ⟨⟨sent, calls, events⟩, context⟩ := announces
  have all : sent = batch.calls := (calls.trans (List.append_nil sent)).symm
  have told : batch.Told (tellYields batch.calls batch.gatherResults)
      (endingOf batch.calls batch.gatherResults batch.externallyCancelled) := by
    refine ⟨spawned, settled_of_tasksDone spawned.distinct spawned.length finished, texts,
      ⟨[], rfl, ?_, context⟩, rfl⟩
    rw [events, all]
    exact (List.append_nil _).symm
  exact sound_tell told (endingOf_cases _ _ _)

theorem sound_taskEnds (sound : batch.Sound) {index : Nat} {result : Option ToolResult}
    (running : batch.tasks[index]? = some .running) :
    Sound { batch with tasks := batch.tasks.set index (.ended result) } := by
  have member : TaskState.running ∈ batch.tasks := List.mem_of_getElem? running
  unfold Sound at sound ⊢
  cases phase : batch.phase with
  | created =>
      rw [phase] at sound
      rw [sound.1] at member
      cases member
  | starting rest =>
      rw [phase] at sound
      exact ⟨⟨sound.1.distinct, List.length_set.trans sound.1.length⟩, sound.2⟩
  | waiting =>
      rw [phase] at sound
      exact ⟨⟨sound.1.distinct, List.length_set.trans sound.1.length⟩, sound.2⟩
  | telling rest ending =>
      rw [phase] at sound
      exact absurd rfl (sound.settled _ member)
  | ended ending =>
      rw [phase] at sound
      cases ending with
      | closed =>
          cases sound with
          | inl early =>
              obtain ⟨_, settled, _⟩ := early
              exact absurd rfl (settled _ member)
          | inr late =>
              obtain ⟨_, _, told⟩ := late
              exact absurd rfl (told.settled _ member)
      | abandoned => exact absurd rfl (sound.1 _ member)
      | finished => exact absurd rfl (sound.settled _ member)
      | cancelled => exact absurd rfl (sound.settled _ member)
      | suspended => exact absurd rfl (sound.settled _ member)

theorem step_sound {after : Batch} {action : BatchAction} (sound : batch.Sound)
    (stepped : batch.step action = some after) (clean : batch.Clean action) : after.Sound := by
  cases action with
  | taskEnds index behaviour =>
      simp only [step] at stepped
      split at stepped
      next call running _ =>
        cases stepped
        exact sound_taskEnds sound running
      next => cases stepped
  | resume =>
      simp only [step] at stepped
      unfold Sound at sound
      unfold Clean at clean
      cases phase : batch.phase with
      | created =>
          rw [phase] at sound clean
          simp only [phase] at stepped
          cases stepped
          obtain ⟨_, events, context⟩ := sound
          have spawned : Spawned { batch with tasks := batch.calls.map fun _ => .running } :=
            ⟨clean, List.length_map _⟩
          have nothing : Announced { batch with tasks := batch.calls.map fun _ => .running }
              batch.calls := ⟨⟨[], rfl, events⟩, context⟩
          exact sound_announce spawned nothing
      | starting rest =>
          rw [phase] at stepped sound
          cases stepped
          exact sound_announce sound.1 sound.2
      | telling rest ending =>
          rw [phase] at stepped sound
          cases stepped
          exact sound_tell sound (sound.ending ▸ endingOf_cases _ _ _)
      | waiting =>
          rw [phase] at stepped
          cases stepped
      | ended ending =>
          rw [phase] at stepped
          cases stepped
  | cancel =>
      simp only [step] at stepped
      unfold Sound at sound
      split at stepped
      next waiting =>
        rw [waiting] at sound
        cases stepped
        unfold Sound
        rw [waiting]
        exact ⟨⟨sound.1.distinct, sound.1.length⟩, sound.2⟩
      next => cases stepped
  | gather =>
      simp only [step] at stepped
      unfold Sound at sound
      split at stepped
      next waiting =>
        rw [waiting] at sound
        split at stepped
        next finished =>
          cases stepped
          exact sound_gather sound.1 sound.2 finished clean
        next => cases stepped
      next => cases stepped
  | abandon =>
      simp only [step] at stepped
      unfold Sound at sound
      split at stepped
      next waiting =>
        rw [waiting] at sound
        split at stepped
        next both =>
          cases stepped
          have finished := (Bool.and_eq_true _ _ ▸ both).2
          exact ⟨settled_of_tasksDone sound.1.distinct sound.1.length finished, sound.2⟩
        next => cases stepped
      next => cases stepped
  | close =>
      simp only [step] at stepped
      unfold Sound at sound
      unfold Clean at clean
      cases phase : batch.phase with
      | created =>
          rw [phase] at stepped sound
          cases stepped
          obtain ⟨tasks, events, context⟩ := sound
          refine Or.inl ⟨batch.calls, fun task member => ?_, ⟨[], rfl, events⟩, context⟩
          change task ∈ batch.tasks at member
          rw [tasks] at member
          cases member
      | starting rest =>
          rw [phase] at stepped sound clean
          cases stepped
          exact Or.inl ⟨rest, clean, sound.2⟩
      | telling rest ending =>
          rw [phase] at stepped sound
          cases stepped
          exact Or.inr ⟨rest, ending, ⟨⟨sound.spawned.distinct, sound.spawned.length⟩,
            sound.settled, sound.texts, sound.told, sound.ending⟩⟩
      | waiting =>
          rw [phase] at stepped
          cases stepped
      | ended ending =>
          rw [phase] at stepped
          cases stepped

end Batch

/-- In a run whose steps are clean the batch keeps its law in every state. -/
theorem batch_lawful (calls : List BatchCall) (actions : List Batch.BatchAction)
    (clean : toolBatches.EachStep Batch.Clean (.fresh calls) actions) :
    toolBatches.Always Batch.BatchLaw (.fresh calls) actions :=
  StepSystem.always_of_eachStep Batch.Sound (fun _ => Batch.law_of_sound)
    (fun _ _ _ sound stepped => Batch.step_sound sound stepped) (Batch.sound_fresh calls) clean

def readCall : BatchCall := ⟨"call", "read", some .empty⟩

def listCall : BatchCall := ⟨"other-call", "list", some .empty⟩

def behaviourOf (text : String) : ToolBehaviour := .executed ⟨text, .completed, none, .empty⟩ none

/-- The task of the second call ends first; the results are told in the order of the calls. -/
theorem read_batch_lawful : toolBatches.Always Batch.BatchLaw (.fresh [readCall, listCall])
    [.resume, .resume, .taskEnds 1 (behaviourOf "names"), .resume,
      .taskEnds 0 (behaviourOf "text"), .gather, .resume, .resume, .resume, .resume] := by
  apply batch_lawful
  have distinct : ([readCall, listCall].map BatchCall.id).Nodup := by decide
  refine StepSystem.eachStep_cons rfl distinct ?_
  iterate 4 refine StepSystem.eachStep_cons rfl trivial ?_
  refine StepSystem.eachStep_cons rfl (fun _ result member => ?_) ?_
  · rcases List.mem_cons.mp member with rfl | later
    · change "text" ≠ ""
      decide
    · cases List.mem_singleton.mp later
      change "names" ≠ ""
      decide
  iterate 3 refine StepSystem.eachStep_cons rfl trivial ?_
  exact StepSystem.eachStep_cons rfl trivial trivial

/-- A tool without output: its event has no text, and the context has one. -/
theorem silent_result_disagrees : ¬ toolBatches.Always Batch.BatchLaw (.fresh [readCall])
    [.resume, .resume, .taskEnds 0 (behaviourOf ""), .gather] := by
  intro always
  have law : Batch.BatchLaw _ := (((always.2 _ rfl).2 _ rfl).2 _ rfl).2 _ rfl
  obtain ⟨block, found, _, text, _⟩ := law.agree 0 _ rfl
  cases found
  exact absurd text (by decide)

end Ftre.Runtime
