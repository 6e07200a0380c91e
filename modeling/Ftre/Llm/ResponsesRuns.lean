import Ftre.Llm.AssemblerRuns
import Ftre.Llm.Responses

/-!
The Responses loop beside the assembler.
-/

namespace Ftre.Llm.Responses

open Lib

/-! ### Courses -/

inductive Touch where
  | prose (prose : Prose)
  | arguments (delta : String)
  | announced (call : FunctionCall)
  | finished (call : FunctionCall)
deriving DecidableEq, Repr

/-- What the events so far made of an item id. A call remembers the id and name
it was announced with and what the assembler has of it. -/
inductive Course where
  | untouched
  | prose (prose : Prose)
  | call (callId name : String) (started : Bool) (assembled : FunctionCall)
  | ended
deriving DecidableEq, Repr

/-- `goes` to a next course, `raises` a missing key with no block of its own
left open, or `breaks` the protocol. -/
inductive Outcome where
  | goes (course : Course)
  | raises
  | breaks
deriving DecidableEq, Repr

namespace FunctionCall

def blank : FunctionCall := ⟨"", "", ""⟩

def wire (call : FunctionCall) : WireBlock := .toolCall call.callId call.name call.arguments

def absorb (call : FunctionCall) (callId name delta : String) : FunctionCall where
  callId := if callId ≠ "" then callId else call.callId
  name := if name ≠ "" then name else call.name
  arguments := call.arguments ++ delta

theorem wire_inj {left right : FunctionCall} (same : left.wire = right.wire) : left = right := by
  cases left
  cases right
  cases same
  rfl

end FunctionCall

namespace Course

def step : Course → Touch → Outcome
  | .untouched, .prose kind => .goes (.prose kind)
  | .untouched, .arguments delta => .goes (.call "" "" true (FunctionCall.blank.absorb "" "" delta))
  | .untouched, .announced told => .goes (.call told.callId told.name false .blank)
  | .untouched, .finished told => if told = .blank then .goes .ended else .breaks
  | .prose kind, .prose other => if other = kind then .goes (.prose kind) else .breaks
  | .prose _, .arguments _ => .breaks
  | .prose kind, .announced _ => .goes (.prose kind)
  | .prose _, .finished _ => .breaks
  | .call _ _ _ _, .prose _ => .breaks
  | .call callId name _ assembled, .arguments delta =>
      .goes (.call callId name true (assembled.absorb callId name delta))
  | .call _ _ started assembled, .announced told =>
      .goes (.call told.callId told.name started assembled)
  | .call _ _ _ assembled, .finished told => if told = assembled then .goes .ended else .breaks
  | .ended, .prose _ => .raises
  | .ended, .arguments _ => .breaks
  | .ended, .announced _ => .goes .ended
  | .ended, .finished _ => .breaks

def isOpen : Course → Bool
  | .prose _ => true
  | .call _ _ started _ => started
  | _ => false

def isCalling : Course → Bool
  | .call _ _ started _ => started
  | _ => false

end Course

def ResponseEvent.touch : ResponseEvent → Option (Option String × Touch)
  | .proseDelta prose itemId delta =>
      if delta.getD "" = "" then none else some (itemId, .prose prose)
  | .argumentsDelta itemId delta =>
      if delta.getD "" = "" then none else some (itemId, .arguments (delta.getD ""))
  | .itemAdded item => if item.isFunctionCall then some (item.id, .announced item.call) else none
  | .itemDone item => if item.isFunctionCall then some (item.id, .finished item.call) else none
  | .completed _ => none
  | .unhandled => none

def ResponseEvent.doneCall : ResponseEvent → Option FunctionCall
  | .itemDone item => if item.isFunctionCall then some item.call else none
  | _ => none

def doneCalls (events : List ResponseEvent) : List FunctionCall :=
  events.filterMap ResponseEvent.doneCall

def callEnds (chunks : List StreamChunk) : List Nat :=
  chunks.filterMap fun chunk =>
    match chunk with
    | .blockEnd index (some (.toolCall _ _ _)) => some index
    | _ => none

theorem callEnds_append (initial later : List StreamChunk) :
    callEnds (initial ++ later) = callEnds initial ++ callEnds later :=
  List.filterMap_append

/-! ### The invariant -/

structure Holds (asm : BlockAssembler) (entry : ItemEntry) (index : Nat) (block : OpenBlock) :
    Prop where
  placed : entry.index = some index
  started : entry.started = true
  unended : entry.ended = false
  present : asm.openBlocks.find? index = some block

inductive Fits (asm : BlockAssembler) : Course → Option ItemEntry → Prop where
  | untouched : Fits asm .untouched none
  | prose (kind : Prose) (entry : ItemEntry) (index : Nat) (block : OpenBlock) (text : String)
      (entryKind : entry.kind = kind.blockType) (hasText : entry.text = some text)
      (holds : Holds asm entry index block) (typed : block.blockType = kind.blockType) :
      Fits asm (.prose kind) (some entry)
  | announced (entry : ItemEntry) (callId name : String) (entryKind : entry.kind = .toolCall)
      (noText : entry.text = none) (unplaced : entry.index = none)
      (unstarted : entry.started = false) (unended : entry.ended = false)
      (sameId : entry.callId = callId) (sameName : entry.name = name) :
      Fits asm (.call callId name false .blank) (some entry)
  | called (entry : ItemEntry) (index : Nat) (block : OpenBlock) (callId name : String)
      (assembled : FunctionCall) (entryKind : entry.kind = .toolCall)
      (noText : entry.text = none) (holds : Holds asm entry index block)
      (typed : block.blockType = .toolCall)
      (sameId : entry.callId = callId) (sameName : entry.name = name)
      (gathered : BlockAssembler.finalizeBlock block = assembled.wire) :
      Fits asm (.call callId name true assembled) (some entry)
  | ended (entry : ItemEntry) (index : Nat) (entryKind : entry.kind = .toolCall)
      (noText : entry.text = none) (placed : entry.index = some index)
      (started : entry.started = true) (isEnded : entry.ended = true)
      (closed : asm.openBlocks.find? index = none) : Fits asm .ended (some entry)

def StreamState.places (state : StreamState) (itemId : Option String) (index : Nat) : Prop :=
  ∃ entry, state.items.find? itemId = some entry ∧ entry.index = some index

structure Tracks (state : StreamState) (asm : BlockAssembler) (courses : Option String → Course)
    (dones : List FunctionCall) : Prop where
  fed : BlockAssembler.fresh.feedAll state.emitted = .ok asm
  next : asm.nextIndex = state.nextIndex
  unfinished : asm.finished = false
  quiet : ∀ chunk ∈ state.emitted, chunk.isFinish = false
  fits : ∀ itemId, Fits asm (courses itemId) (state.items.find? itemId)
  separate : ∀ left right index, state.places left index → state.places right index → left = right
  below : ∀ itemId index, state.places itemId index → index < state.nextIndex
  owned : ∀ index, (asm.openBlocks.find? index).isSome →
    ∃ itemId, state.places itemId index ∧ (courses itemId).isOpen = true
  carried : (callEnds state.emitted).map asm.blockTable.find? =
    dones.map fun call => some call.wire

theorem tracks_initial : Tracks .initial .fresh (fun _ => .untouched) [] where
  fed := rfl
  next := rfl
  unfinished := rfl
  quiet := fun _ member => absurd member List.not_mem_nil
  fits := fun _ => .untouched
  separate := by
    rintro left right index ⟨entry, found, _⟩
    cases found
  below := by
    rintro itemId index ⟨entry, found, _⟩
    cases found
  owned := by
    intro index isSome
    cases isSome
  carried := rfl

variable {course : Course} {courses : Option String → Course} {asm : BlockAssembler}
  {dones : List FunctionCall} {itemId : Option String} {state : StreamState}

theorem Fits.elsewhere {asm next : BlockAssembler} {course : Course} {entry : Option ItemEntry}
    (fits : Fits asm course entry)
    (same : ∀ index present, entry = some present → present.index = some index →
      next.openBlocks.find? index = asm.openBlocks.find? index) : Fits next course entry := by
  cases fits with
  | untouched => exact .untouched
  | prose kind entry index block text entryKind hasText holds typed =>
      exact .prose kind entry index block text entryKind hasText
        ⟨holds.placed, holds.started, holds.unended,
          (same index entry rfl holds.placed).trans holds.present⟩ typed
  | announced entry callId name entryKind noText unplaced unstarted unended sameId sameName =>
      exact .announced entry callId name entryKind noText unplaced unstarted unended sameId sameName
  | called entry index block callId name assembled entryKind noText holds typed sameId sameName
      gathered =>
      exact .called entry index block callId name assembled entryKind noText
        ⟨holds.placed, holds.started, holds.unended,
          (same index entry rfl holds.placed).trans holds.present⟩ typed sameId sameName gathered
  | ended entry index entryKind noText placed started isEnded closed =>
      exact .ended entry index entryKind noText placed started isEnded
        ((same index entry rfl placed).trans closed)

theorem Tracks.touch {state after : StreamState} {asm next : BlockAssembler}
    {courses : Option String → Course} {dones laterDones : List FunctionCall}
    (tracks : Tracks state asm courses dones) (itemId : Option String) (entry : ItemEntry)
    (course : Course) (items : after.items = state.items.set itemId entry)
    (fed : BlockAssembler.fresh.feedAll after.emitted = .ok next)
    (nextFed : next.nextIndex = after.nextIndex) (unfinished : next.finished = false)
    (quiet : ∀ chunk ∈ after.emitted, chunk.isFinish = false)
    (grows : state.nextIndex ≤ after.nextIndex)
    (placed : ∀ index, entry.index = some index →
      state.places itemId index ∨ state.nextIndex ≤ index ∧ index < after.nextIndex)
    (kept : ∀ index, state.places itemId index → entry.index = some index)
    (sameElsewhere : ∀ index, entry.index ≠ some index →
      next.openBlocks.find? index = asm.openBlocks.find? index)
    (fits : Fits next course (some entry))
    (owns : ∀ index, entry.index = some index → (next.openBlocks.find? index).isSome →
      course.isOpen = true)
    (carried : (callEnds after.emitted).map next.blockTable.find? =
      laterDones.map fun call => some call.wire) :
    Tracks after next (Function.update courses itemId course) laterDones := by
  have placesHere : ∀ index, after.places itemId index ↔ entry.index = some index := by
    intro index
    unfold StreamState.places
    rw [items]
    simp
  have placesElsewhere : ∀ other index, other ≠ itemId →
      (after.places other index ↔ state.places other index) := by
    intro other index different
    unfold StreamState.places
    rw [items, KeyedTable.find?_set_ne _ _ (Ne.symm different)]
  have apart : ∀ other index, other ≠ itemId → state.places other index →
      entry.index ≠ some index := by
    intro other index different places same
    rcases placed index same with held | ⟨fresh, _⟩
    · exact different (tracks.separate other itemId index places held)
    · exact absurd (tracks.below other index places) (Nat.not_lt.mpr fresh)
  constructor
  · exact fed
  · exact nextFed
  · exact unfinished
  · exact quiet
  · intro other
    by_cases same : other = itemId
    · subst other
      rw [Function.update_self, items, KeyedTable.find?_set_self]
      exact fits
    · rw [Function.update_of_ne same, items, KeyedTable.find?_set_ne _ _ (Ne.symm same)]
      refine (tracks.fits other).elsewhere fun index present found indexed => ?_
      exact sameElsewhere index (apart other index same ⟨present, found, indexed⟩)
  · intro left right index placesLeft placesRight
    by_cases sameLeft : left = itemId
    · by_cases sameRight : right = itemId
      · rw [sameLeft, sameRight]
      · rw [sameLeft, placesHere] at placesLeft
        exact absurd placesLeft
          (apart right index sameRight ((placesElsewhere right index sameRight).mp placesRight))
    · have leftBefore := (placesElsewhere left index sameLeft).mp placesLeft
      by_cases sameRight : right = itemId
      · rw [sameRight, placesHere] at placesRight
        exact absurd placesRight (apart left index sameLeft leftBefore)
      · exact tracks.separate left right index leftBefore
          ((placesElsewhere right index sameRight).mp placesRight)
  · intro other index places
    by_cases same : other = itemId
    · rw [same] at places
      rcases placed index ((placesHere index).mp places) with held | ⟨_, within⟩
      · exact Nat.lt_of_lt_of_le (tracks.below itemId index held) grows
      · exact within
    · exact Nat.lt_of_lt_of_le
        (tracks.below other index ((placesElsewhere other index same).mp places)) grows
  · intro index isSome
    by_cases here : entry.index = some index
    · exact ⟨itemId, (placesHere index).mpr here, by
        rw [Function.update_self]
        exact owns index here isSome⟩
    · rw [sameElsewhere index here] at isSome
      obtain ⟨owner, places, isOpen⟩ := tracks.owned index isSome
      have different : owner ≠ itemId := by
        intro same
        subst owner
        exact here (kept index places)
      exact ⟨owner, (placesElsewhere owner index different).mpr places, by
        rw [Function.update_of_ne different]
        exact isOpen⟩
  · exact carried

theorem Tracks.congr {state after : StreamState} (tracks : Tracks state asm courses dones)
    (items : after.items = state.items) (nextIndex : after.nextIndex = state.nextIndex)
    (emitted : after.emitted = state.emitted) : Tracks after asm courses dones := by
  have places : after.places = state.places := by
    unfold StreamState.places
    rw [items]
  constructor
  · rw [emitted]
    exact tracks.fed
  · rw [nextIndex]
    exact tracks.next
  · exact tracks.unfinished
  · rw [emitted]
    exact tracks.quiet
  · rw [items]
    exact tracks.fits
  · rw [places]
    exact tracks.separate
  · rw [places, nextIndex]
    exact tracks.below
  · rw [places]
    exact tracks.owned
  · rw [emitted]
    exact tracks.carried

/-! ### Opening, growing and closing one block -/

theorem Tracks.open {state after : StreamState} (tracks : Tracks state asm courses dones)
    (itemId : Option String) (kind : BlockType) {entry : ItemEntry}
    (unplaced : ∀ index, ¬ state.places itemId index) (placed : entry.index = some state.nextIndex)
    (fits : Fits (asm.opened kind) course (some entry)) (isOpen : course.isOpen = true)
    (items : after.items = state.items.set itemId entry)
    (nextIndex : after.nextIndex = state.nextIndex + 1)
    (emitted : after.emitted = state.emitted ++ [.blockStart state.nextIndex kind]) :
    Tracks after (asm.opened kind) (Function.update courses itemId course) dones := by
  apply tracks.touch itemId entry course items
  · rw [emitted, BlockAssembler.feedAll_concat tracks.fed, BlockAssembler.feed, tracks.unfinished,
      if_neg Bool.false_ne_true, ← tracks.next]
    exact if_neg (not_not.mpr rfl)
  · rw [nextIndex, ← tracks.next]
    rfl
  · exact tracks.unfinished
  · intro chunk member
    rw [emitted] at member
    rcases List.mem_append.mp member with earlier | last
    · exact tracks.quiet chunk earlier
    · rw [List.mem_singleton.mp last]
      rfl
  · rw [nextIndex]
    exact Nat.le_succ _
  · intro index same
    rw [placed] at same
    cases same
    exact Or.inr ⟨Nat.le_refl _, by rw [nextIndex]; exact Nat.lt_succ_self _⟩
  · intro index places
    exact absurd places (unplaced index)
  · intro index different
    rw [placed] at different
    refine KeyedTable.find?_set_ne _ _ fun same => different ?_
    rw [← same, tracks.next]
  · exact fits
  · exact fun _ _ _ => isOpen
  · rw [emitted, callEnds_append, show callEnds [.blockStart state.nextIndex kind] = [] from rfl,
      List.append_nil]
    exact tracks.carried

theorem Tracks.grow {state after : StreamState} (tracks : Tracks state asm courses dones)
    {entry later : ItemEntry} {index : Nat} {block larger : OpenBlock} {chunk : StreamChunk}
    (found : state.items.find? itemId = some entry) (holds : Holds asm entry index block)
    (accepted : asm.feed chunk = .ok (asm.grown index larger))
    (fits : Fits (asm.grown index larger) course (some later)) (notFinish : chunk.isFinish = false)
    (notEnd : callEnds [chunk] = []) (sameIndex : later.index = entry.index)
    (isOpen : course.isOpen = true) (items : after.items = state.items.set itemId later)
    (nextIndex : after.nextIndex = state.nextIndex)
    (emitted : after.emitted = state.emitted ++ [chunk]) :
    Tracks after (asm.grown index larger) (Function.update courses itemId course) dones := by
  apply tracks.touch itemId later course items
  · rw [emitted, BlockAssembler.feedAll_concat tracks.fed]
    exact accepted
  · rw [nextIndex]
    exact tracks.next
  · exact tracks.unfinished
  · intro other member
    rw [emitted] at member
    rcases List.mem_append.mp member with earlier | last
    · exact tracks.quiet other earlier
    · rw [List.mem_singleton.mp last]
      exact notFinish
  · rw [nextIndex]
  · intro position same
    exact Or.inl ⟨entry, found, sameIndex.symm.trans same⟩
  · rintro position ⟨present, foundAgain, placed⟩
    rw [found] at foundAgain
    cases foundAgain
    exact sameIndex.trans placed
  · intro position different
    refine KeyedTable.find?_set_ne _ _ fun same => different ?_
    rw [sameIndex, holds.placed, same]
  · exact fits
  · exact fun _ _ _ => isOpen
  · rw [emitted, callEnds_append, notEnd, List.append_nil]
    exact tracks.carried

theorem Tracks.close {state after : StreamState} (tracks : Tracks state asm courses dones)
    {entry later : ItemEntry} {index : Nat} {block : OpenBlock} {call : FunctionCall}
    (found : state.items.find? itemId = some entry) (holds : Holds asm entry index block)
    (gathered : BlockAssembler.finalizeBlock block = call.wire)
    (typed : block.blockType = .toolCall) (ended : later = { entry with ended := true })
    (entryKind : entry.kind = .toolCall) (noText : entry.text = none)
    (items : after.items = state.items.set itemId later)
    (nextIndex : after.nextIndex = state.nextIndex)
    (emitted : after.emitted = state.emitted ++ [.blockEnd index (some call.wire)]) :
    Tracks after (asm.closed index block) (Function.update courses itemId .ended)
      (dones ++ [call]) := by
  have account := BlockAssembler.account_of_accepted tracks.fed
  have pendingHere : index ∈ asm.pending := by
    rw [account.openPending, holds.present]
    rfl
  subst later
  apply tracks.touch itemId { entry with ended := true } .ended items
  · rw [emitted, BlockAssembler.feedAll_concat tracks.fed]
    exact BlockAssembler.feed_end tracks.unfinished holds.present (by rw [typed]; rfl)
  · rw [nextIndex]
    exact tracks.next
  · exact tracks.unfinished
  · intro other member
    rw [emitted] at member
    rcases List.mem_append.mp member with earlier | last
    · exact tracks.quiet other earlier
    · rw [List.mem_singleton.mp last]
      rfl
  · rw [nextIndex]
  · intro position same
    exact Or.inl ⟨entry, found, same⟩
  · rintro position ⟨present, foundAgain, placed⟩
    rw [found] at foundAgain
    cases foundAgain
    exact placed
  · intro position different
    refine KeyedTable.find?_erase_ne _ fun same => different ?_
    rw [holds.placed, same]
  · exact .ended _ index entryKind noText holds.placed holds.started rfl
      (KeyedTable.find?_erase_self _ _)
  · intro position same isSome
    rw [show entry.index = some index from holds.placed] at same
    cases same
    rw [show (asm.closed index block).openBlocks.find? index = none from
      KeyedTable.find?_erase_self _ _] at isSome
    cases isSome
  · rw [emitted, callEnds_append, List.map_append, List.map_append]
    refine congrArg₂ _ ?_ ?_
    · rw [← tracks.carried]
      refine List.map_congr_left fun position member => ?_
      have present : (asm.blockTable.find? position).isSome := by
        have listed : asm.blockTable.find? position ∈ dones.map fun call => some call.wire := by
          rw [← tracks.carried]
          exact List.mem_map_of_mem member
        obtain ⟨done, _, same⟩ := List.mem_map.mp listed
        rw [← same]
        rfl
      refine KeyedTable.find?_set_ne _ _ fun same => ?_
      subst position
      exact (account.closedStarted index present).2 pendingHere
    · simp [callEnds, FunctionCall.wire, BlockAssembler.closed, gathered]

/-! ### One event -/

namespace StreamState

variable {state : StreamState} {itemId : Option String} {entry : ItemEntry}

theorem start_of_held {index : Nat} (kind : BlockType)
    (found : state.items.find? itemId = some entry) (placed : entry.index = some index)
    (started : entry.started = true) : state.start itemId kind = (state, entry) := by
  simp [start, place, entryAt, found, placed, started]

theorem start_of_new {kind : BlockType} (found : state.entryAt itemId kind = entry)
    (unplaced : entry.index = none) (unstarted : entry.started = false) :
    state.start itemId kind =
      ({ state with nextIndex := state.nextIndex + 1 }.yield (.blockStart state.nextIndex kind),
        { entry with index := some state.nextIndex, started := true }) := by
  simp [start, place, found, unplaced, unstarted]

theorem entryAt_of_none (kind : BlockType) (missing : state.items.find? itemId = none) :
    state.entryAt itemId kind = .fresh kind := by
  rw [entryAt, missing]
  rfl

theorem entryAt_of_some (kind : BlockType) (found : state.items.find? itemId = some entry) :
    state.entryAt itemId kind = entry := by
  rw [entryAt, found]
  rfl

theorem put_of_found (found : state.items.find? itemId = some entry) :
    state.put itemId entry = state := by
  rw [put, KeyedTable.set_of_find? found]

end StreamState

/-- `start` gives an untouched or prose item an open block of the prose kind. -/
theorem Tracks.startProse (tracks : Tracks state asm courses dones) (itemId : Option String)
    (kind : Prose) (course : courses itemId = .untouched ∨ courses itemId = .prose kind) :
    ∃ next started entry index block text,
      state.start itemId kind.blockType = (started, entry) ∧
      Tracks (started.put itemId entry) next (Function.update courses itemId (.prose kind)) dones ∧
      Holds next entry index block ∧ block.blockType = kind.blockType ∧
      entry.kind = kind.blockType ∧ entry.text = some text := by
  have fits := tracks.fits itemId
  rcases course with untouched | prose
  · rw [untouched] at fits
    cases found : state.items.find? itemId with
    | some entry => rw [found] at fits; cases fits
    | none =>
        have entryFound := StreamState.entryAt_of_none kind.blockType found
        have unplaced : ∀ index, ¬ state.places itemId index := by
          rintro index ⟨entry, present, _⟩
          rw [found] at present
          cases present
        have holds : Holds (asm.opened kind.blockType)
            { ItemEntry.fresh kind.blockType with index := some state.nextIndex, started := true }
            state.nextIndex (OpenBlock.start asm.nextIndex kind.blockType) :=
          ⟨rfl, rfl, rfl, by
            rw [← tracks.next]
            exact KeyedTable.find?_set_self ..⟩
        have hasText : (ItemEntry.fresh kind.blockType).text = some "" := by
          cases kind <;> rfl
        refine ⟨_, _, _, _, _, "", StreamState.start_of_new entryFound rfl rfl, ?_, holds, rfl, rfl,
          hasText⟩
        exact tracks.open itemId kind.blockType unplaced rfl
          (.prose kind { ItemEntry.fresh kind.blockType with
            index := some state.nextIndex
            started := true } _ _ "" rfl hasText holds rfl) rfl rfl rfl rfl
  · rw [prose] at fits
    cases found : state.items.find? itemId with
    | none => rw [found] at fits; cases fits
    | some entry =>
        rw [found] at fits
        cases fits with
        | prose _ _ index block text entryKind hasText holds typed =>
            refine ⟨asm, state, entry, index, block, text,
              StreamState.start_of_held _ found holds.placed holds.started, ?_, holds, typed,
              entryKind, hasText⟩
            rw [StreamState.put_of_found found, ← prose, Function.update_eq_self]
            exact tracks

/-- `start` gives an untouched item or a call an open tool-call block. -/
theorem Tracks.startCall {state : StreamState} {asm : BlockAssembler}
    {courses : Option String → Course} {dones : List FunctionCall}
    (tracks : Tracks state asm courses dones) (itemId : Option String)
    {callId name : String} {begun : Bool} {assembled : FunctionCall}
    (course : courses itemId = .untouched ∧ callId = "" ∧ name = "" ∧ assembled = .blank ∨
      courses itemId = .call callId name begun assembled) :
    ∃ next started entry index block,
      state.start itemId .toolCall = (started, entry) ∧
      Tracks (started.put itemId entry) next
        (Function.update courses itemId (.call callId name true assembled)) dones ∧
      Holds next entry index block ∧ block.blockType = .toolCall ∧ entry.kind = .toolCall ∧
      entry.text = none ∧ entry.callId = callId ∧ entry.name = name ∧
      BlockAssembler.finalizeBlock block = assembled.wire := by
  have fits := tracks.fits itemId
  have opening : ∀ entry : ItemEntry, state.entryAt itemId .toolCall = entry →
      (∀ index, ¬ state.places itemId index) → entry.index = none → entry.started = false →
      entry.ended = false → entry.kind = .toolCall → entry.text = none →
      ∃ next started later index block, state.start itemId .toolCall = (started, later) ∧
        Tracks (started.put itemId later) next
          (Function.update courses itemId (.call entry.callId entry.name true .blank)) dones ∧
        Holds next later index block ∧ block.blockType = .toolCall ∧ later.kind = .toolCall ∧
        later.text = none ∧ later.callId = entry.callId ∧ later.name = entry.name ∧
        BlockAssembler.finalizeBlock block = FunctionCall.blank.wire := by
    intro entry entryFound unheld unplaced unstarted unended entryKind noText
    have holds : Holds (asm.opened .toolCall)
        { entry with index := some state.nextIndex, started := true } state.nextIndex
        (OpenBlock.start asm.nextIndex .toolCall) :=
      ⟨rfl, rfl, unended, by
        rw [← tracks.next]
        exact KeyedTable.find?_set_self ..⟩
    refine ⟨_, _, _, _, _, StreamState.start_of_new entryFound unplaced unstarted, ?_, holds, rfl,
      entryKind, noText, rfl, rfl, rfl⟩
    exact tracks.open itemId .toolCall unheld rfl
      (.called { entry with index := some state.nextIndex, started := true } _ _ _ _ _ entryKind
        noText holds rfl rfl rfl rfl) rfl rfl rfl rfl
  rcases course with ⟨untouched, rfl, rfl, rfl⟩ | call
  · rw [untouched] at fits
    cases found : state.items.find? itemId with
    | some entry => rw [found] at fits; cases fits
    | none =>
        refine opening (.fresh .toolCall) (StreamState.entryAt_of_none _ found) ?_ rfl rfl rfl rfl rfl
        rintro index ⟨entry, present, _⟩
        rw [found] at present
        cases present
  · rw [call] at fits
    cases found : state.items.find? itemId with
    | none => rw [found] at fits; cases fits
    | some entry =>
        rw [found] at fits
        cases fits with
        | announced _ _ _ entryKind noText unplaced unstarted unended sameId sameName =>
            have opened := opening entry (StreamState.entryAt_of_some _ found) (by
              rintro index ⟨present, foundAgain, placed⟩
              rw [found] at foundAgain
              cases foundAgain
              rw [unplaced] at placed
              cases placed) unplaced unstarted unended entryKind noText
            rwa [sameId, sameName] at opened
        | called _ index block _ _ _ entryKind noText holds typed sameId sameName gathered =>
            refine ⟨asm, state, entry, index, block,
              StreamState.start_of_held _ found holds.placed holds.started, ?_, holds, typed,
              entryKind, noText, sameId, sameName, gathered⟩
            rw [StreamState.put_of_found found, ← call, Function.update_eq_self]
            exact tracks

theorem feed_proseDelta {index : Nat} {block : OpenBlock} {kind : Prose} (delta : String)
    (unfinished : asm.finished = false) (present : asm.openBlocks.find? index = some block)
    (typed : block.blockType = kind.blockType) :
    asm.feed (kind.deltaChunk index delta) =
      .ok (asm.grown index { block with text := block.text ++ delta }) := by
  cases kind with
  | text =>
      rw [Prose.deltaChunk, BlockAssembler.feed, unfinished, if_neg Bool.false_ne_true]
      exact BlockAssembler.feedDelta_grows delta present typed
  | reasoning =>
      rw [Prose.deltaChunk, BlockAssembler.feed, unfinished, if_neg Bool.false_ne_true]
      exact BlockAssembler.feedDelta_grows delta present typed

theorem Tracks.onProseDelta (tracks : Tracks state asm courses dones) {kind : Prose}
    {delta : String} (nonempty : delta ≠ "")
    (course : courses itemId = .untouched ∨ courses itemId = .prose kind) :
    ∃ after next, state.onProseDelta kind itemId delta = .ok after ∧
      Tracks after next (Function.update courses itemId (.prose kind)) dones := by
  obtain ⟨asm, started, entry, index, block, text, starting, tracks, holds, typed, entryKind,
    hasText⟩ := tracks.startProse itemId kind course
  have accepted := feed_proseDelta delta tracks.unfinished holds.present typed
  have grown : (asm.grown index { block with text := block.text ++ delta }).openBlocks.find? index =
      some { block with text := block.text ++ delta } := KeyedTable.find?_set_self ..
  have fits : Fits (asm.grown index { block with text := block.text ++ delta }) (.prose kind)
      (some { entry with text := some (text ++ delta) }) :=
    .prose kind { entry with text := some (text ++ delta) } index _ (text ++ delta) entryKind rfl
      ⟨holds.placed, holds.started, holds.unended, grown⟩ typed
  have growing : Tracks ((started.put itemId { entry with text := some (text ++ delta) }).yield
      (kind.deltaChunk (entry.index.getD 0) delta)) _ _ dones :=
    tracks.grow (KeyedTable.find?_set_self ..) holds accepted fits (by cases kind <;> rfl)
      (by cases kind <;> rfl) rfl rfl (KeyedTable.set_set ..).symm rfl (by rw [holds.placed]; rfl)
  rw [Function.update_idem] at growing
  refine ⟨_, _, ?_, growing⟩
  simp only [StreamState.onProseDelta, if_neg nonempty, starting, hasText]

theorem Tracks.onArgumentsDelta {state : StreamState} {asm : BlockAssembler}
    {courses : Option String → Course} {dones : List FunctionCall}
    (tracks : Tracks state asm courses dones) {itemId : Option String} {delta : String}
    (nonempty : delta ≠ "") {callId name : String} (begun : Bool) {assembled : FunctionCall}
    (course : courses itemId = .untouched ∧ callId = "" ∧ name = "" ∧ assembled = .blank ∨
      courses itemId = .call callId name begun assembled) :
    ∃ next, Tracks (state.onArgumentsDelta itemId delta) next
      (Function.update courses itemId
        (.call callId name true (assembled.absorb callId name delta))) dones := by
  obtain ⟨asm, started, entry, index, block, starting, tracks, holds, typed, entryKind, noText,
    sameId, sameName, gathered⟩ := tracks.startCall itemId course
  subst sameId sameName
  have accepted := BlockAssembler.feed_toolDelta entry.callId entry.name delta tracks.unfinished
    holds.present typed
  have larger : BlockAssembler.finalizeBlock
      (BlockAssembler.withCallDelta block entry.callId entry.name delta) =
        (assembled.absorb entry.callId entry.name delta).wire := by
    simp only [BlockAssembler.finalizeBlock, typed, FunctionCall.wire, WireBlock.toolCall.injEq]
      at gathered
    simp [BlockAssembler.finalizeBlock, BlockAssembler.withCallDelta, typed, FunctionCall.wire,
      FunctionCall.absorb, gathered]
  have fits : Fits (asm.grown index
      (BlockAssembler.withCallDelta block entry.callId entry.name delta))
      (.call entry.callId entry.name true (assembled.absorb entry.callId entry.name delta))
      (some entry) :=
    .called entry index _ _ _ _ entryKind noText
      ⟨holds.placed, holds.started, holds.unended, KeyedTable.find?_set_self ..⟩ typed rfl rfl larger
  have growing : Tracks ((started.put itemId entry).yield
      (.toolCallDelta (entry.index.getD 0) entry.callId entry.name delta)) _ _ dones :=
    tracks.grow (KeyedTable.find?_set_self ..) holds accepted fits rfl rfl rfl rfl
      (KeyedTable.set_set ..).symm rfl (by rw [holds.placed]; rfl)
  rw [Function.update_idem] at growing
  have shape : state.onArgumentsDelta itemId delta = (started.put itemId entry).yield
      (.toolCallDelta (entry.index.getD 0) entry.callId entry.name delta) := by
    simp only [StreamState.onArgumentsDelta, if_neg nonempty, starting]
  rw [shape]
  exact ⟨_, growing⟩

theorem Tracks.onItemAdded (tracks : Tracks state asm courses dones) {item : ResponseItem}
    (isCall : item.isFunctionCall = true)
    (goes : (courses item.id).step (.announced item.call) = .goes course) :
    Tracks (state.onItemAdded item) asm (Function.update courses item.id course) dones := by
  have fits := tracks.fits item.id
  have added : state.onItemAdded item = state.put item.id { state.entryAt item.id .toolCall with
      callId := item.call.callId
      name := item.call.name } := if_pos isCall
  have retell : ∀ entry : ItemEntry, state.entryAt item.id .toolCall = entry →
      (∀ index, state.places item.id index ↔ entry.index = some index) →
      Fits asm course (some { entry with callId := item.call.callId, name := item.call.name }) →
      (∀ index, entry.index = some index → (asm.openBlocks.find? index).isSome →
        course.isOpen = true) →
      Tracks (state.onItemAdded item) asm (Function.update courses item.id course) dones := by
    intro entry entryFound places retold owns
    rw [added, entryFound]
    exact tracks.touch item.id _ course rfl tracks.fed tracks.next tracks.unfinished tracks.quiet
      (Nat.le_refl _) (fun index same => Or.inl ((places index).mpr same))
      (fun index placed => (places index).mp placed) (fun _ _ => rfl) retold owns tracks.carried
  cases found : state.items.find? item.id with
  | none =>
      rw [found] at fits
      refine retell (.fresh .toolCall) (StreamState.entryAt_of_none _ found) ?_ ?_ ?_
      · intro index
        constructor
        · rintro ⟨entry, present, _⟩
          rw [found] at present
          cases present
        · intro placed
          cases placed
      · cases named : courses item.id with
        | untouched =>
            rw [named] at goes
            cases goes
            exact .announced _ _ _ rfl rfl rfl rfl rfl rfl rfl
        | prose _ => rw [named] at fits; cases fits
        | call _ _ _ _ => rw [named] at fits; cases fits
        | ended => rw [named] at fits; cases fits
      · intro index placed
        cases placed
  | some entry =>
      rw [found] at fits
      refine retell entry (StreamState.entryAt_of_some _ found) ?_ ?_ ?_
      · intro index
        constructor
        · rintro ⟨present, foundAgain, placed⟩
          rw [found] at foundAgain
          cases foundAgain
          exact placed
        · exact fun placed => ⟨entry, found, placed⟩
      · generalize courses item.id = before at fits goes
        cases fits with
        | prose kind _ index block text entryKind hasText holds typed =>
            cases goes
            exact .prose kind _ index block text entryKind hasText
              ⟨holds.placed, holds.started, holds.unended, holds.present⟩ typed
        | announced _ _ _ entryKind noText unplaced unstarted unended _ _ =>
            cases goes
            exact .announced _ _ _ entryKind noText unplaced unstarted unended rfl rfl
        | called _ index block _ _ _ entryKind noText holds typed _ _ gathered =>
            cases goes
            exact .called _ index block _ _ _ entryKind noText
              ⟨holds.placed, holds.started, holds.unended, holds.present⟩ typed rfl rfl gathered
        | ended _ index entryKind noText placed started isEnded closed =>
            cases goes
            exact .ended _ index entryKind noText placed started isEnded closed
      · intro index placed isSome
        generalize courses item.id = before at fits goes
        cases fits with
        | prose _ _ _ _ _ _ _ _ _ => cases goes; rfl
        | announced _ _ _ _ _ unplaced _ _ _ _ =>
            rw [unplaced] at placed
            cases placed
        | called _ _ _ _ _ _ _ _ _ _ _ _ _ => cases goes; rfl
        | ended _ _ _ _ endedPlaced _ _ closed =>
            rw [endedPlaced] at placed
            cases placed
            rw [closed] at isSome
            cases isSome

theorem Tracks.keepOutputItem (tracks : Tracks state asm courses dones) (item : ResponseItem) :
    Tracks (state.keepOutputItem item) asm courses dones := by
  unfold StreamState.keepOutputItem
  cases item.raw with
  | none => exact tracks
  | some raw => exact tracks.congr rfl rfl rfl

theorem Tracks.onItemDone {state : StreamState} {asm : BlockAssembler}
    {courses : Option String → Course} {dones : List FunctionCall}
    (tracks : Tracks state asm courses dones) {item : ResponseItem}
    (isCall : item.isFunctionCall = true) {callId name : String} (begun : Bool)
    (course : courses item.id = .untouched ∧ callId = "" ∧ name = "" ∧ item.call = .blank ∨
      courses item.id = .call callId name begun item.call) :
    ∃ next, Tracks (state.onItemDone item) next (Function.update courses item.id .ended)
      (dones ++ [item.call]) := by
  have kept := tracks.keepOutputItem item
  obtain ⟨asm, started, entry, index, block, starting, tracks, holds, typed, entryKind, noText,
    _, _, gathered⟩ := kept.startCall item.id course
  have closing : Tracks ((started.put item.id { entry with ended := true }).yield
      (.blockEnd (entry.index.getD 0)
        (some (.toolCall item.call.callId item.call.name item.call.arguments))))
      (asm.closed index block) _ (dones ++ [item.call]) :=
    tracks.close (KeyedTable.find?_set_self ..) holds gathered typed rfl entryKind noText
      (KeyedTable.set_set ..).symm rfl (by rw [holds.placed]; rfl)
  rw [Function.update_idem] at closing
  refine ⟨asm.closed index block, ?_⟩
  simp only [StreamState.onItemDone, if_pos isCall, starting]
  split
  · exact closing.congr rfl rfl rfl
  · exact closing

end Ftre.Llm.Responses
