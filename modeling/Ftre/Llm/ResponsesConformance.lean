import Mathlib.Data.List.Pairwise
import Ftre.Llm.ResponsesRuns

/-!
Protocol conformance of the Responses adapter.
-/

namespace Ftre.Llm.Responses

open Lib

/-- A chunk stream the assembler takes without complaint and whose finished
calls are, in order, the calls of the done items. -/
structure Conforms (calls : List FunctionCall) (chunks : List StreamChunk) : Prop where
  accepted : ∃ final, BlockAssembler.fresh.feedAll chunks = .ok final
  closedOnce : ∀ index, startsAt index chunks → endCount index chunks = 1
  validated : ∀ final reason, BlockAssembler.fresh.feedAll chunks = .ok final →
    final.finish = some reason → reason.kind ≠ .error → final.validate = .ok ()
  finishLast : ∃ initial reason, chunks = initial ++ [.finish reason] ∧
    ∀ chunk ∈ initial, chunk.isFinish = false
  carried : ∀ final, BlockAssembler.fresh.feedAll chunks = .ok final →
    (callEnds chunks).map final.blockTable.find? = calls.map fun call => some call.wire

/-- Every event continues the course of its item, and no call is left open. A
prose delta for a finished call stops the stream, so nothing may be open then
and no later call done. -/
def Tame (courses : Option String → Course) : List ResponseEvent → Prop
  | [] => ∀ itemId, (courses itemId).isCalling = false
  | event :: rest =>
      match event.touch with
      | none => Tame courses rest
      | some (itemId, touch) =>
          match (courses itemId).step touch with
          | .goes course => Tame (Function.update courses itemId course) rest
          | .raises => (∀ other, (courses other).isOpen = false) ∧ doneCalls rest = []
          | .breaks => False

def StreamState.finishFrom (state : StreamState) (events : List ResponseEvent) :
    List StreamChunk :=
  match state.consume events with
  | .error stopped => stopped.emitted ++ [Llm.StreamState.errorFinish missingText]
  | .ok final => final.conclude

theorem conforms_iff {calls : List FunctionCall} {chunks : List StreamChunk}
    {final : BlockAssembler} (accepted : BlockAssembler.fresh.feedAll chunks = .ok final)
    (finished : final.finished = true)
    (finishLast : ∃ initial reason, chunks = initial ++ [.finish reason] ∧
      ∀ chunk ∈ initial, chunk.isFinish = false) :
    Conforms calls chunks ↔ final.pending = ∅ ∧
      (callEnds chunks).map final.blockTable.find? = calls.map fun call => some call.wire := by
  have closing := BlockAssembler.closedOnce_iff_pending_empty accepted
  have unique : ∀ {other}, BlockAssembler.fresh.feedAll chunks = .ok other → other = final := by
    intro other again
    rw [accepted] at again
    exact (Except.ok.inj again).symm
  constructor
  · intro conforms
    exact ⟨closing.mp conforms.closedOnce, conforms.carried final accepted⟩
  · rintro ⟨none, carried⟩
    refine ⟨⟨final, accepted⟩, closing.mpr none, ?_, finishLast, ?_⟩
    · intro other reason again _ _
      rw [unique again, BlockAssembler.validate, if_neg (not_not.mpr none), finished]
      rfl
    · intro other again
      rw [unique again]
      exact carried

variable {state : StreamState} {courses : Option String → Course} {dones : List FunctionCall}
  {asm : BlockAssembler} {itemId : Option String} {event : ResponseEvent} {touch : Touch}

theorem Tracks.carried_later {asm final : BlockAssembler} {later : List StreamChunk}
    (tracks : Tracks state asm courses dones) (accepted : asm.feedAll later = .ok final) :
    (callEnds state.emitted).map final.blockTable.find? = dones.map fun call => some call.wire := by
  rw [← tracks.carried]
  refine List.map_congr_left fun index member => ?_
  have listed : asm.blockTable.find? index ∈ dones.map fun call => some call.wire := by
    rw [← tracks.carried]
    exact List.mem_map_of_mem member
  obtain ⟨call, _, found⟩ := List.mem_map.mp listed
  rw [← found]
  exact BlockAssembler.blockTable_persists (BlockAssembler.account_of_accepted tracks.fed) accepted
    found.symm

theorem Tracks.open_pending (tracks : Tracks state asm courses dones)
    (isOpen : (courses itemId).isOpen = true) :
    ∃ index, state.places itemId index ∧ index ∈ asm.pending := by
  have account := BlockAssembler.account_of_accepted tracks.fed
  have fits := tracks.fits itemId
  have holding : ∀ entry index block, state.items.find? itemId = some entry →
      Holds asm entry index block → ∃ index, state.places itemId index ∧ index ∈ asm.pending := by
    intro entry index block found holds
    refine ⟨index, ⟨entry, found, holds.placed⟩, ?_⟩
    rw [account.openPending, holds.present]
    rfl
  generalize course : courses itemId = current at fits isOpen
  generalize found : state.items.find? itemId = entry at fits
  cases fits with
  | untouched => cases isOpen
  | prose _ entry index block _ _ _ holds _ => exact holding entry index block found holds
  | announced _ _ _ _ _ _ _ _ _ _ => cases isOpen
  | called entry index block _ _ _ _ _ holds _ _ _ _ => exact holding entry index block found holds
  | ended _ _ _ _ _ _ _ _ => cases isOpen

theorem Tracks.pending_empty_iff (tracks : Tracks state asm courses dones) :
    asm.pending = ∅ ↔ ∀ itemId, (courses itemId).isOpen = false := by
  have account := BlockAssembler.account_of_accepted tracks.fed
  rw [Finset.eq_empty_iff_forall_notMem]
  constructor
  · intro none itemId
    by_contra isOpen
    obtain ⟨index, _, member⟩ := tracks.open_pending (Bool.eq_true_of_not_eq_false isOpen)
    exact none index member
  · intro closed index member
    obtain ⟨itemId, _, isOpen⟩ := tracks.owned index ((account.openPending index).mp member)
    rw [closed itemId] at isOpen
    cases isOpen

/-! ### The end of the stream -/

private theorem lateEnd_iff {course : Course} {entry : ItemEntry}
    (fits : Fits asm course (some entry)) (ending : Nat × WireBlock) :
    entry.lateEnd = some ending ↔ ∃ kind text, course = .prose kind ∧ entry.text = some text ∧
      entry.index = some ending.1 ∧ ending.2 = kind.wireBlock text := by
  cases fits with
  | prose kind _ index block text entryKind hasText holds typed =>
      have shape : entry.lateEnd = some (index, kind.wireBlock text) := by
        unfold ItemEntry.lateEnd
        rw [if_pos ⟨holds.started, holds.unended⟩, entryKind, hasText, holds.placed]
        cases kind <;> rfl
      rw [shape]
      constructor
      · intro same
        cases same
        exact ⟨kind, text, rfl, hasText, holds.placed, rfl⟩
      · rintro ⟨other, written, same, hasWritten, placed, block⟩
        cases same
        rw [hasText] at hasWritten
        cases hasWritten
        rw [holds.placed] at placed
        cases placed
        rw [← block]
  | announced _ _ _ _ _ _ unstarted _ _ _ =>
      rw [ItemEntry.lateEnd, if_neg (by simp [unstarted])]
      simp
  | called _ _ _ _ _ _ entryKind _ holds _ _ _ _ =>
      rw [ItemEntry.lateEnd, if_pos ⟨holds.started, holds.unended⟩, entryKind]
      simp
  | ended _ _ _ _ _ _ isEnded _ =>
      rw [ItemEntry.lateEnd, if_neg (by simp [isEnded])]
      simp

private theorem mem_lateEnds_iff (tracks : Tracks state asm courses dones)
    (ending : Nat × WireBlock) :
    ending ∈ state.lateEnds ↔ ∃ itemId entry kind text,
      state.items.find? itemId = some entry ∧ courses itemId = .prose kind ∧
      entry.text = some text ∧ entry.index = some ending.1 ∧ ending.2 = kind.wireBlock text := by
  have fitting : ∀ itemId entry, state.items.find? itemId = some entry →
      Fits asm (courses itemId) (some entry) := by
    intro itemId entry found
    rw [← found]
    exact tracks.fits itemId
  unfold StreamState.lateEnds KeyedTable.values
  rw [List.mem_filterMap]
  constructor
  · rintro ⟨entry, listed, ends⟩
    obtain ⟨⟨itemId, present⟩, member, same⟩ := List.mem_map.mp listed
    cases same
    have found := (KeyedTable.find?_eq_some_iff state.items itemId present).mpr member
    obtain ⟨kind, text, rest⟩ := (lateEnd_iff (fitting itemId present found) ending).mp ends
    exact ⟨itemId, present, kind, text, found, rest⟩
  · rintro ⟨itemId, entry, kind, text, found, rest⟩
    refine ⟨entry, List.mem_map.mpr ⟨(itemId, entry), ?_, rfl⟩, ?_⟩
    · exact (KeyedTable.find?_eq_some_iff state.items itemId entry).mp found
    · exact (lateEnd_iff (fitting itemId entry found) ending).mpr ⟨kind, text, rest⟩

private theorem lateEnds_distinct (tracks : Tracks state asm courses dones) :
    (state.lateEnds.map Prod.fst).Nodup := by
  have fitting : ∀ pair ∈ state.items.entries, Fits asm (courses pair.1) (some pair.2) := by
    rintro ⟨itemId, entry⟩ member
    rw [← (KeyedTable.find?_eq_some_iff state.items itemId entry).mpr member]
    exact tracks.fits itemId
  unfold StreamState.lateEnds KeyedTable.values List.Nodup
  rw [List.pairwise_map, List.pairwise_filterMap, List.pairwise_map]
  refine (List.pairwise_map.mp state.items.distinct).imp_of_mem ?_
  rintro ⟨left, leftEntry⟩ ⟨right, rightEntry⟩ leftMember rightMember different
  intro leftEnd leftEnds rightEnd rightEnds same
  obtain ⟨_, _, _, _, leftPlaced, _⟩ := (lateEnd_iff (fitting _ leftMember) leftEnd).mp leftEnds
  obtain ⟨_, _, _, _, rightPlaced, _⟩ := (lateEnd_iff (fitting _ rightMember) rightEnd).mp rightEnds
  refine different (tracks.separate left right leftEnd.1 ⟨leftEntry, ?_, leftPlaced⟩
    ⟨rightEntry, ?_, by rw [same]; exact rightPlaced⟩)
  · exact (KeyedTable.find?_eq_some_iff state.items left leftEntry).mpr leftMember
  · exact (KeyedTable.find?_eq_some_iff state.items right rightEntry).mpr rightMember

private theorem conclude_accepted (tracks : Tracks state asm courses dones) :
    ∃ later final, state.conclude = state.emitted ++ later ∧ asm.feedAll later = .ok final ∧
      final.finished = true ∧ callEnds later = [] ∧
      (final.pending = ∅ ↔ ∀ itemId, (courses itemId).isCalling = false) := by
  have account := BlockAssembler.account_of_accepted tracks.fed
  have closable : ∀ ending ∈ state.lateEnds, ∃ block, asm.openBlocks.find? ending.1 = some block ∧
      BlockAssembler.wireType block.blockType = ending.2.type := by
    intro ending member
    obtain ⟨itemId, entry, kind, text, found, course, _, placed, block⟩ :=
      (mem_lateEnds_iff tracks ending).mp member
    have fits := tracks.fits itemId
    rw [found, course] at fits
    cases fits with
    | prose _ _ index openBlock _ _ _ holds typed =>
        rw [holds.placed] at placed
        cases placed
        refine ⟨openBlock, holds.present, ?_⟩
        rw [typed, block]
        cases kind <;> rfl
  obtain ⟨ended, endsFed, endedUnfinished, pending⟩ :=
    BlockAssembler.feedAll_ends state.lateEnds tracks.unfinished (lateEnds_distinct tracks) closable
  obtain ⟨usages, usageShape⟩ : ∃ usages : List (Option Usage),
      state.yieldUsage = usages.map StreamChunk.usage := by
    unfold StreamState.yieldUsage
    cases state.usage with
    | none => exact ⟨[], rfl⟩
    | some usage => exact ⟨[some usage], rfl⟩
  obtain ⟨reported, usagesFed, reportedUnfinished, reportedPending⟩ :=
    BlockAssembler.feedAll_usages usages endedUnfinished
  refine ⟨_, { reported with finish := some state.finishReason, finished := true }, rfl, ?_, rfl, ?_,
    ?_⟩
  · rw [BlockAssembler.feedAll_append, endsFed]
    simp only [usageShape]
    rw [BlockAssembler.feedAll_concat usagesFed, BlockAssembler.feed, reportedUnfinished,
      if_neg Bool.false_ne_true]
  · rw [callEnds_append, callEnds_append, usageShape]
    refine List.append_eq_nil_iff.mpr ⟨?_, List.append_eq_nil_iff.mpr ⟨?_, rfl⟩⟩
    · refine List.filterMap_eq_nil_iff.mpr fun chunk member => ?_
      obtain ⟨ending, listed, rfl⟩ := List.mem_map.mp member
      obtain ⟨_, _, kind, text, _, _, _, _, block⟩ := (mem_lateEnds_iff tracks ending).mp listed
      rw [endChunk, block]
      cases kind <;> rfl
    · refine List.filterMap_eq_nil_iff.mpr fun chunk member => ?_
      obtain ⟨usage, _, rfl⟩ := List.mem_map.mp member
      rfl
  · change reported.pending = ∅ ↔ _
    rw [reportedPending, Finset.eq_empty_iff_forall_notMem]
    constructor
    · intro none itemId
      by_contra calling
      have isCalling := Bool.eq_true_of_not_eq_false calling
      have isOpen : (courses itemId).isOpen = true := by
        cases course : courses itemId with
        | call _ _ started _ => rw [course] at isCalling; exact isCalling
        | untouched => rw [course] at isCalling; cases isCalling
        | prose _ => rfl
        | ended => rw [course] at isCalling; cases isCalling
      obtain ⟨index, places, member⟩ := tracks.open_pending isOpen
      refine none index ((pending index).mpr ⟨member, fun listed => ?_⟩)
      obtain ⟨ending, late, same⟩ := List.mem_map.mp listed
      obtain ⟨owner, entry, kind, _, found, course, _, placed, _⟩ :=
        (mem_lateEnds_iff tracks ending).mp late
      rw [same] at placed
      cases tracks.separate owner itemId index ⟨entry, found, placed⟩ places
      rw [course] at isCalling
      cases isCalling
    · intro noneCalling index member
      obtain ⟨isPending, unlisted⟩ := (pending index).mp member
      obtain ⟨itemId, ⟨entry, found, placed⟩, isOpen⟩ :=
        tracks.owned index ((account.openPending index).mp isPending)
      have fits := tracks.fits itemId
      rw [found] at fits
      have notCalling := noneCalling itemId
      cases course : courses itemId with
      | untouched => rw [course] at isOpen; cases isOpen
      | ended => rw [course] at isOpen; cases isOpen
      | call _ _ _ _ =>
          rw [course] at isOpen notCalling
          rw [Course.isOpen] at isOpen
          rw [Course.isCalling, isOpen] at notCalling
          cases notCalling
      | prose kind =>
          rw [course] at fits
          cases fits with
          | prose _ _ _ _ text _ hasText _ _ =>
              refine unlisted (List.mem_map.mpr ⟨(index, kind.wireBlock text), ?_, rfl⟩)
              exact (mem_lateEnds_iff tracks _).mpr
                ⟨itemId, entry, kind, text, found, course, hasText, placed, rfl⟩

private theorem conclude_finishes (tracks : Tracks state asm courses dones) :
    ∃ initial reason, state.finishFrom [] = initial ++ [.finish reason] ∧
      ∀ chunk ∈ initial, chunk.isFinish = false := by
  refine ⟨state.emitted ++ (state.lateEnds.map endChunk ++ state.yieldUsage), state.finishReason,
    ?_, ?_⟩
  · simp only [StreamState.finishFrom, StreamState.consume, StreamState.conclude, List.append_assoc]
  · intro chunk member
    rcases List.mem_append.mp member with emitted | later
    · exact tracks.quiet chunk emitted
    · rcases List.mem_append.mp later with ended | reported
      · obtain ⟨_, _, rfl⟩ := List.mem_map.mp ended
        rfl
      · unfold StreamState.yieldUsage at reported
        split at reported
        · cases reported
        · rw [List.mem_singleton.mp reported]
          rfl

/-! ### One event of the loop -/

private inductive Touches : ResponseEvent → Option String → Touch → Prop where
  | prose (kind : Prose) (itemId : Option String) (delta : Option String)
      (nonempty : delta.getD "" ≠ "") : Touches (.proseDelta kind itemId delta) itemId (.prose kind)
  | arguments (itemId : Option String) (delta : Option String) (nonempty : delta.getD "" ≠ "") :
      Touches (.argumentsDelta itemId delta) itemId (.arguments (delta.getD ""))
  | announced (item : ResponseItem) (isCall : item.isFunctionCall = true) :
      Touches (.itemAdded item) item.id (.announced item.call)
  | finished (item : ResponseItem) (isCall : item.isFunctionCall = true) :
      Touches (.itemDone item) item.id (.finished item.call)

private theorem touches_of_touch (touched : event.touch = some (itemId, touch)) :
    Touches event itemId touch := by
  cases event with
  | proseDelta kind id delta =>
      by_cases empty : delta.getD "" = ""
      · rw [ResponseEvent.touch, if_pos empty] at touched
        cases touched
      · rw [ResponseEvent.touch, if_neg empty] at touched
        cases touched
        exact .prose kind itemId delta empty
  | argumentsDelta id delta =>
      by_cases empty : delta.getD "" = ""
      · rw [ResponseEvent.touch, if_pos empty] at touched
        cases touched
      · rw [ResponseEvent.touch, if_neg empty] at touched
        cases touched
        exact .arguments itemId delta empty
  | itemAdded item =>
      by_cases isCall : item.isFunctionCall = true
      · rw [ResponseEvent.touch, if_pos isCall] at touched
        cases touched
        exact .announced item isCall
      · rw [ResponseEvent.touch, if_neg isCall] at touched
        cases touched
  | itemDone item =>
      by_cases isCall : item.isFunctionCall = true
      · rw [ResponseEvent.touch, if_pos isCall] at touched
        cases touched
        exact .finished item isCall
      · rw [ResponseEvent.touch, if_neg isCall] at touched
        cases touched
  | completed _ => cases touched
  | unhandled => cases touched

private theorem onEvent_goes (tracks : Tracks state asm courses dones)
    (touched : event.touch = some (itemId, touch)) {course : Course}
    (goes : (courses itemId).step touch = .goes course) :
    ∃ after next, state.onEvent event = .ok after ∧
      Tracks after next (Function.update courses itemId course)
        (dones ++ event.doneCall.toList) := by
  have unchanged : dones ++ (none : Option FunctionCall).toList = dones := List.append_nil _
  cases touches_of_touch touched with
  | prose kind _ delta nonempty =>
      cases named : courses itemId with
      | untouched =>
          rw [named] at goes
          cases goes
          obtain ⟨after, next, ran, tracking⟩ := tracks.onProseDelta nonempty (Or.inl named)
          exact ⟨after, next, ran, unchanged.symm ▸ tracking⟩
      | prose other =>
          rw [named] at goes
          by_cases same : kind = other
          · subst other
            rw [Course.step, if_pos rfl] at goes
            cases goes
            obtain ⟨after, next, ran, tracking⟩ := tracks.onProseDelta nonempty (Or.inr named)
            exact ⟨after, next, ran, unchanged.symm ▸ tracking⟩
          · rw [Course.step, if_neg same] at goes
            cases goes
      | call _ _ _ _ => rw [named] at goes; cases goes
      | ended => rw [named] at goes; cases goes
  | arguments _ delta nonempty =>
      cases named : courses itemId with
      | untouched =>
          rw [named] at goes
          cases goes
          obtain ⟨next, tracking⟩ :=
            tracks.onArgumentsDelta nonempty false (Or.inl ⟨named, rfl, rfl, rfl⟩)
          exact ⟨_, next, rfl, unchanged.symm ▸ tracking⟩
      | prose _ => rw [named] at goes; cases goes
      | call _ _ _ _ =>
          rw [named] at goes
          cases goes
          obtain ⟨next, tracking⟩ := tracks.onArgumentsDelta nonempty _ (Or.inr named)
          exact ⟨_, next, rfl, unchanged.symm ▸ tracking⟩
      | ended => rw [named] at goes; cases goes
  | announced item isCall =>
      exact ⟨_, asm, rfl, unchanged.symm ▸ tracks.onItemAdded isCall goes⟩
  | finished item isCall =>
      rw [ResponseEvent.doneCall, if_pos isCall]
      cases named : courses item.id with
      | untouched =>
          rw [named] at goes
          by_cases blank : item.call = .blank
          · rw [Course.step, if_pos blank] at goes
            cases goes
            obtain ⟨next, tracking⟩ :=
              tracks.onItemDone isCall false (Or.inl ⟨named, rfl, rfl, blank⟩)
            exact ⟨_, next, rfl, tracking⟩
          · rw [Course.step, if_neg blank] at goes
            cases goes
      | prose _ => rw [named] at goes; cases goes
      | call _ _ _ assembled =>
          rw [named] at goes
          by_cases same : item.call = assembled
          · subst assembled
            rw [Course.step, if_pos rfl] at goes
            cases goes
            obtain ⟨next, tracking⟩ := tracks.onItemDone isCall _ (Or.inr named)
            exact ⟨_, next, rfl, tracking⟩
          · rw [Course.step, if_neg same] at goes
            cases goes
      | ended => rw [named] at goes; cases goes

private theorem onEvent_none (tracks : Tracks state asm courses dones)
    (untouched : event.touch = none) :
    event.doneCall = none ∧
      ∃ after, state.onEvent event = .ok after ∧ Tracks after asm courses dones := by
  cases event with
  | proseDelta kind id delta =>
      by_cases empty : delta.getD "" = ""
      · refine ⟨rfl, state, ?_, tracks⟩
        rw [StreamState.onEvent, StreamState.onProseDelta, if_pos empty]
      · rw [ResponseEvent.touch, if_neg empty] at untouched
        cases untouched
  | argumentsDelta id delta =>
      by_cases empty : delta.getD "" = ""
      · refine ⟨rfl, state, ?_, tracks⟩
        rw [StreamState.onEvent, StreamState.onArgumentsDelta, if_pos empty]
      · rw [ResponseEvent.touch, if_neg empty] at untouched
        cases untouched
  | itemAdded item =>
      by_cases isCall : item.isFunctionCall = true
      · rw [ResponseEvent.touch, if_pos isCall] at untouched
        cases untouched
      · refine ⟨rfl, state, ?_, tracks⟩
        rw [StreamState.onEvent, StreamState.onItemAdded, if_neg isCall]
  | itemDone item =>
      by_cases isCall : item.isFunctionCall = true
      · rw [ResponseEvent.touch, if_pos isCall] at untouched
        cases untouched
      · refine ⟨if_neg isCall, state.keepOutputItem item, ?_, tracks.keepOutputItem item⟩
        simp only [StreamState.onEvent, StreamState.onItemDone, if_neg isCall]
  | completed response => exact ⟨rfl, state.onCompleted response, rfl, tracks.congr rfl rfl rfl⟩
  | unhandled => exact ⟨rfl, state, rfl, tracks⟩

/-! ### What is yielded stays yielded -/

namespace StreamState

theorem start_emitted (state : StreamState) (itemId : Option String) (kind : BlockType) :
    ∃ later, (state.start itemId kind).1.emitted = state.emitted ++ later := by
  have placed : ∀ entry, (state.place entry).1.emitted = state.emitted := by
    intro entry
    unfold place
    split <;> rfl
  unfold start
  simp only
  split
  · exact ⟨[], by rw [placed, List.append_nil]⟩
  · exact ⟨_, congrArg (· ++ _) (placed _)⟩

theorem keepOutputItem_items (state : StreamState) (item : ResponseItem) :
    (state.keepOutputItem item).items = state.items := by
  unfold keepOutputItem
  split <;> rfl

theorem keepOutputItem_emitted (state : StreamState) (item : ResponseItem) :
    (state.keepOutputItem item).emitted = state.emitted := by
  unfold keepOutputItem
  split <;> rfl

theorem onItemDone_emitted {item : ResponseItem} (isCall : item.isFunctionCall = true)
    {state started : StreamState} {entry : ItemEntry}
    (starting : (state.keepOutputItem item).start item.id .toolCall = (started, entry)) :
    (state.onItemDone item).emitted =
      started.emitted ++ [.blockEnd (entry.index.getD 0) (some item.call.wire)] := by
  simp only [onItemDone, if_pos isCall, starting]
  split <;> rfl

theorem onEvent_emitted (state : StreamState) (event : ResponseEvent) :
    (∀ after, state.onEvent event = .ok after → ∃ later, after.emitted = state.emitted ++ later) ∧
    ∀ stopped, state.onEvent event = .error stopped →
      ∃ later, stopped.emitted = state.emitted ++ later := by
  have same : ∀ after : StreamState, after.emitted = state.emitted →
      ∃ later, after.emitted = state.emitted ++ later :=
    fun after equal => ⟨[], by rw [equal, List.append_nil]⟩
  cases event with
  | proseDelta kind itemId delta =>
      obtain ⟨first, starting⟩ := state.start_emitted itemId kind.blockType
      unfold onEvent onProseDelta
      by_cases empty : delta.getD "" = ""
      · simp only [if_pos empty]
        exact ⟨fun after ran => by cases ran; exact same _ rfl, fun _ never => by cases never⟩
      · simp only [if_neg empty]
        cases (state.start itemId kind.blockType).2.text with
        | none =>
            refine ⟨fun _ never => ?_, fun stopped raised => ?_⟩
            · cases never
            · cases raised
              exact ⟨_, starting⟩
        | some text =>
            refine ⟨fun after ran => ?_, fun _ never => by cases never⟩
            cases ran
            exact ⟨first ++ [_], by
              rw [← List.append_assoc, ← starting]
              rfl⟩
  | argumentsDelta itemId delta =>
      obtain ⟨first, starting⟩ := state.start_emitted itemId .toolCall
      refine ⟨fun after ran => ?_, fun _ never => by cases never⟩
      cases ran
      unfold onArgumentsDelta
      by_cases empty : delta.getD "" = ""
      · rw [if_pos empty]
        exact same _ rfl
      · rw [if_neg empty]
        exact ⟨first ++ [_], by
          rw [← List.append_assoc, ← starting]
          rfl⟩
  | itemAdded item =>
      refine ⟨fun after ran => ?_, fun _ never => by cases never⟩
      cases ran
      unfold onItemAdded
      split <;> exact same _ rfl
  | itemDone item =>
      refine ⟨fun after ran => ?_, fun _ never => by cases never⟩
      cases ran
      by_cases isCall : item.isFunctionCall = true
      · obtain ⟨first, extended⟩ := (state.keepOutputItem item).start_emitted item.id .toolCall
        cases starting : (state.keepOutputItem item).start item.id .toolCall with
        | mk started entry =>
            rw [starting, keepOutputItem_emitted] at extended
            rw [onItemDone_emitted isCall starting, extended, List.append_assoc]
            exact ⟨_, rfl⟩
      · simp only [onItemDone, if_neg isCall]
        exact same _ (state.keepOutputItem_emitted item)
  | completed response =>
      exact ⟨fun after ran => by cases ran; exact same _ rfl, fun _ never => by cases never⟩
  | unhandled =>
      exact ⟨fun after ran => by cases ran; exact same _ rfl, fun _ never => by cases never⟩

theorem finishFrom_nil (state : StreamState) : state.finishFrom [] = state.conclude := rfl

theorem finishFrom_cons_ok {state after : StreamState} {event : ResponseEvent}
    (ran : state.onEvent event = .ok after) (rest : List ResponseEvent) :
    state.finishFrom (event :: rest) = after.finishFrom rest := by
  rw [finishFrom, consume, ran]
  rfl

theorem finishFrom_cons_error {state stopped : StreamState} {event : ResponseEvent}
    (raised : state.onEvent event = .error stopped) (rest : List ResponseEvent) :
    state.finishFrom (event :: rest) =
      stopped.emitted ++ [Llm.StreamState.errorFinish missingText] := by
  rw [finishFrom, consume, raised]

theorem finishFrom_extends (events : List ResponseEvent) (state : StreamState) :
    ∃ later, state.finishFrom events = state.emitted ++ later := by
  induction events generalizing state with
  | nil => exact ⟨_, rfl⟩
  | cons event rest ih =>
      obtain ⟨okExtends, errorExtends⟩ := state.onEvent_emitted event
      cases ran : state.onEvent event with
      | ok after =>
          obtain ⟨first, extended⟩ := okExtends after ran
          obtain ⟨second, later⟩ := ih after
          exact ⟨first ++ second, by
            rw [finishFrom_cons_ok ran, later, extended, List.append_assoc]⟩
      | error stopped =>
          obtain ⟨first, extended⟩ := errorExtends stopped ran
          exact ⟨first ++ [_], by
            rw [finishFrom_cons_error ran, extended, List.append_assoc]⟩

end StreamState

/-! ### Events that leave the course -/

private theorem not_conforms_of_rejected (tracks : Tracks state asm courses dones)
    {chunk : StreamChunk} {error : LLMError} (rejected : asm.feed chunk = .error error)
    (calls : List FunctionCall) (later : List StreamChunk) :
    ¬ Conforms calls (state.emitted ++ chunk :: later) := by
  intro conforms
  obtain ⟨final, accepted⟩ := conforms.accepted
  rw [BlockAssembler.feedAll_append, tracks.fed] at accepted
  simp only [BlockAssembler.feedAll, rejected] at accepted
  cases accepted

private theorem not_conforms_of_yield {state after : StreamState}
    (tracks : Tracks state asm courses dones) {chunk : StreamChunk} {error : LLMError}
    (ran : state.onEvent event = .ok after) (emitted : after.emitted = state.emitted ++ [chunk])
    (rejected : asm.feed chunk = .error error) (calls : List FunctionCall)
    (rest : List ResponseEvent) : ¬ Conforms calls (state.finishFrom (event :: rest)) := by
  obtain ⟨later, extended⟩ := StreamState.finishFrom_extends rest after
  rw [StreamState.finishFrom_cons_ok ran, extended, emitted, List.append_assoc]
  exact not_conforms_of_rejected tracks rejected calls later

private theorem stopped_conforms_iff {emitted : List StreamChunk}
    (fed : BlockAssembler.fresh.feedAll emitted = .ok asm) (unfinished : asm.finished = false)
    (quiet : ∀ chunk ∈ emitted, chunk.isFinish = false) (calls : List FunctionCall) :
    Conforms calls (emitted ++ [Llm.StreamState.errorFinish StreamState.missingText]) ↔
      asm.pending = ∅ ∧
        (callEnds emitted).map asm.blockTable.find? = calls.map fun call => some call.wire := by
  have accepted : BlockAssembler.fresh.feedAll
      (emitted ++ [Llm.StreamState.errorFinish StreamState.missingText]) =
        .ok { asm with
          finish := some ⟨.error, some StreamState.missingText, "", .empty⟩
          finished := true } := by
    rw [BlockAssembler.feedAll_concat fed, Llm.StreamState.errorFinish, BlockAssembler.feed,
      unfinished, if_neg Bool.false_ne_true]
  rw [conforms_iff accepted rfl ⟨emitted, _, rfl, quiet⟩, callEnds_append,
    show callEnds [Llm.StreamState.errorFinish StreamState.missingText] = [] from rfl,
    List.append_nil]

private theorem feed_wrongProse {index : Nat} {block : OpenBlock} {kind : Prose} (delta : String)
    (unfinished : asm.finished = false) (present : asm.openBlocks.find? index = some block)
    (wrong : block.blockType ≠ kind.blockType) :
    ∃ error, asm.feed (kind.deltaChunk index delta) = .error error := by
  cases kind with
  | text =>
      rw [Prose.deltaChunk, BlockAssembler.feed, unfinished, if_neg Bool.false_ne_true]
      simp only [BlockAssembler.feedDelta, BlockAssembler.requireOpen, present]
      exact ⟨_, if_pos wrong⟩
  | reasoning =>
      rw [Prose.deltaChunk, BlockAssembler.feed, unfinished, if_neg Bool.false_ne_true]
      simp only [BlockAssembler.feedDelta, BlockAssembler.requireOpen, present]
      exact ⟨_, if_pos wrong⟩

private theorem feed_withoutCall {index : Nat} (unfinished : asm.finished = false)
    (without : ∀ block, asm.openBlocks.find? index = some block → block.blockType ≠ .toolCall) :
    (∀ callId name delta, ∃ error,
      asm.feed (.toolCallDelta index callId name delta) = .error error) ∧
    ∀ callId name arguments, ∃ error,
      asm.feed (.blockEnd index (some (.toolCall callId name arguments))) = .error error := by
  constructor
  · intro callId name delta
    rw [BlockAssembler.feed, unfinished, if_neg Bool.false_ne_true]
    cases present : asm.openBlocks.find? index with
    | none =>
        simp only [BlockAssembler.feedToolDelta, BlockAssembler.requireOpen, present]
        exact ⟨_, rfl⟩
    | some block =>
        simp only [BlockAssembler.feedToolDelta, BlockAssembler.requireOpen, present]
        exact ⟨_, if_pos (without block present)⟩
  · intro callId name arguments
    rw [BlockAssembler.feed, unfinished, if_neg Bool.false_ne_true]
    cases present : asm.openBlocks.find? index with
    | none =>
        simp only [BlockAssembler.feedEnd, BlockAssembler.requireOpen, present]
        exact ⟨_, rfl⟩
    | some block =>
        have mismatched : BlockAssembler.mismatchedEnd block
            (some (.toolCall callId name arguments)) = some "tool-call" := by
          refine if_pos ?_
          have wrong := without block present
          cases typed : block.blockType with
          | text => exact (by decide : "text" ≠ "tool-call")
          | reasoning => exact (by decide : "thinking" ≠ "tool-call")
          | toolCall => exact absurd typed wrong
        simp only [BlockAssembler.feedEnd, BlockAssembler.requireOpen, present, mismatched]
        exact ⟨_, rfl⟩

private theorem breaks_withoutCall (tracks : Tracks state asm courses dones)
    (touched : event.touch = some (itemId, touch)) {entry : ItemEntry} {index : Nat}
    (found : state.items.find? itemId = some entry) (placed : entry.index = some index)
    (started : entry.started = true)
    (without : ∀ block, asm.openBlocks.find? index = some block → block.blockType ≠ .toolCall)
    (forCall : (∃ delta, touch = .arguments delta) ∨ ∃ call, touch = .finished call)
    (calls : List FunctionCall) (rest : List ResponseEvent) :
    ¬ Conforms calls (state.finishFrom (event :: rest)) := by
  obtain ⟨noDelta, noEnd⟩ := feed_withoutCall tracks.unfinished without
  have starting := StreamState.start_of_held .toolCall found placed started
  cases touches_of_touch touched with
  | prose _ _ _ _ => rcases forCall with ⟨_, same⟩ | ⟨_, same⟩ <;> cases same
  | announced _ _ => rcases forCall with ⟨_, same⟩ | ⟨_, same⟩ <;> cases same
  | arguments _ delta nonempty =>
      obtain ⟨error, rejected⟩ := noDelta entry.callId entry.name (delta.getD "")
      refine not_conforms_of_yield tracks rfl ?_ rejected calls rest
      simp only [StreamState.onArgumentsDelta, if_neg nonempty, starting]
      rw [StreamState.yield, placed]
      rfl
  | finished item isCall =>
      obtain ⟨error, rejected⟩ := noEnd item.call.callId item.call.name item.call.arguments
      have foundKept : (state.keepOutputItem item).items.find? item.id = some entry := by
        rw [StreamState.keepOutputItem_items]
        exact found
      refine not_conforms_of_yield tracks rfl ?_ rejected calls rest
      rw [StreamState.onItemDone_emitted isCall
        (StreamState.start_of_held .toolCall foundKept placed started),
        StreamState.keepOutputItem_emitted, placed]
      rfl

private theorem breaks_mismatch {state : StreamState} {asm : BlockAssembler}
    {courses : Option String → Course} {dones : List FunctionCall}
    (tracks : Tracks state asm courses dones) {item : ResponseItem}
    (isCall : item.isFunctionCall = true) {callId name : String} (begun : Bool)
    {assembled : FunctionCall} (different : item.call ≠ assembled)
    (course : courses item.id = .untouched ∧ callId = "" ∧ name = "" ∧ assembled = .blank ∨
      courses item.id = .call callId name begun assembled) (rest : List ResponseEvent) :
    ¬ Conforms (dones ++ doneCalls (.itemDone item :: rest))
      (state.finishFrom (.itemDone item :: rest)) := by
  intro conforms
  obtain ⟨asm, started, entry, index, block, starting, tracks, holds, typed, _, _, _, _, gathered⟩ :=
    (tracks.keepOutputItem item).startCall item.id course
  obtain ⟨final, accepted⟩ := conforms.accepted
  have carried := conforms.carried final accepted
  obtain ⟨later, extended⟩ := StreamState.finishFrom_extends rest (state.onItemDone item)
  have shape : state.finishFrom (.itemDone item :: rest) =
      started.emitted ++ (.blockEnd index (some item.call.wire) :: later) := by
    rw [StreamState.finishFrom_cons_ok rfl, extended, StreamState.onItemDone_emitted isCall starting,
      holds.placed, List.append_assoc]
    rfl
  have closes : asm.feed (.blockEnd index (some item.call.wire)) = .ok (asm.closed index block) :=
    BlockAssembler.feed_end tracks.unfinished holds.present (by rw [typed]; rfl)
  have fed : BlockAssembler.fresh.feedAll started.emitted = .ok asm := tracks.fed
  rw [shape] at accepted carried
  have afterEnd : (asm.closed index block).feedAll later = .ok final := by
    rw [BlockAssembler.feedAll_append, fed] at accepted
    simpa only [BlockAssembler.feedAll, closes] using accepted
  -- The block the end closed keeps what the deltas made of it.
  have kept : final.blockTable.find? index = some assembled.wire := by
    refine BlockAssembler.blockTable_persists (BlockAssembler.account_feed
      (BlockAssembler.account_of_accepted fed) closes) afterEnd ?_
    rw [← gathered]
    exact KeyedTable.find?_set_self ..
  have sameLength : ((callEnds started.emitted).map final.blockTable.find?).length =
      (dones.map fun call => some call.wire).length := by
    have lengths := congrArg List.length tracks.carried
    rw [List.length_map, List.length_map] at lengths ⊢
    exact lengths
  have called : ResponseEvent.doneCall (.itemDone item) = some item.call := if_pos isCall
  rw [callEnds_append, List.map_append, doneCalls, List.filterMap_cons_some called,
    List.map_append] at carried
  have here := (List.append_inj carried sameLength).2
  have first := (List.cons.inj here).1
  rw [kept] at first
  exact different (FunctionCall.wire_inj (Option.some.inj first)).symm

private theorem breaks_call (tracks : Tracks state asm courses dones) {delta : Option String}
    (nonempty : delta.getD "" ≠ "") {callId name : String} {begun : Bool} {assembled : FunctionCall}
    (course : courses itemId = .call callId name begun assembled) (kind : Prose)
    (calls : List FunctionCall) (rest : List ResponseEvent) :
    ¬ Conforms calls (state.finishFrom (.proseDelta kind itemId delta :: rest)) := by
  have account := BlockAssembler.account_of_accepted tracks.fed
  have fits := tracks.fits itemId
  cases found : state.items.find? itemId with
  | none => rw [course, found] at fits; cases fits
  | some entry =>
      rw [course, found] at fits
      cases fits with
      | announced _ _ _ entryKind noText unplaced unstarted _ _ _ =>
          have starting := StreamState.start_of_new
            (StreamState.entryAt_of_some kind.blockType found) unplaced unstarted
          have raised : state.onEvent (.proseDelta kind itemId delta) = .error
              ({ state with nextIndex := state.nextIndex + 1 }.yield
                (.blockStart state.nextIndex kind.blockType)) := by
            simp only [StreamState.onEvent, StreamState.onProseDelta, if_neg nonempty, starting,
              noText]
          have fed : BlockAssembler.fresh.feedAll
              (state.emitted ++ [.blockStart state.nextIndex kind.blockType]) =
                .ok (asm.opened kind.blockType) := by
            rw [BlockAssembler.feedAll_concat tracks.fed, BlockAssembler.feed, tracks.unfinished,
              if_neg Bool.false_ne_true, ← tracks.next]
            exact if_neg (not_not.mpr rfl)
          rw [StreamState.finishFrom_cons_error raised]
          intro conforms
          have none := ((stopped_conforms_iff fed tracks.unfinished (by
            intro chunk member
            rcases List.mem_append.mp member with earlier | last
            · exact tracks.quiet chunk earlier
            · rw [List.mem_singleton.mp last]
              rfl) calls).mp conforms).1
          exact absurd (Finset.mem_insert_self asm.nextIndex asm.pending)
            (Finset.eq_empty_iff_forall_notMem.mp none _)
      | called _ index block _ _ _ _ noText holds _ _ _ _ =>
          have raised : state.onEvent (.proseDelta kind itemId delta) = .error state := by
            simp only [StreamState.onEvent, StreamState.onProseDelta, if_neg nonempty,
              StreamState.start_of_held _ found holds.placed holds.started, noText]
          rw [StreamState.finishFrom_cons_error raised]
          intro conforms
          have none :=
            ((stopped_conforms_iff tracks.fed tracks.unfinished tracks.quiet calls).mp conforms).1
          refine Finset.eq_empty_iff_forall_notMem.mp none index ?_
          rw [account.openPending, holds.present]
          rfl

private theorem onEvent_breaks (tracks : Tracks state asm courses dones)
    (touched : event.touch = some (itemId, touch)) (breaks : (courses itemId).step touch = .breaks)
    (rest : List ResponseEvent) :
    ¬ Conforms (dones ++ doneCalls (event :: rest)) (state.finishFrom (event :: rest)) := by
  have fits := tracks.fits itemId
  cases course : courses itemId with
  | untouched =>
      rw [course] at breaks
      cases touches_of_touch touched with
      | prose _ _ _ _ => cases breaks
      | arguments _ _ _ => cases breaks
      | announced _ _ => cases breaks
      | finished item isCall =>
          by_cases blank : item.call = .blank
          · rw [Course.step, if_pos blank] at breaks
            cases breaks
          · exact breaks_mismatch tracks isCall false blank
              (Or.inl ⟨course, rfl, rfl, rfl⟩) rest
  | call callId name begun assembled =>
      rw [course] at breaks
      cases touches_of_touch touched with
      | prose kind _ delta nonempty => exact breaks_call tracks nonempty course kind _ rest
      | arguments _ _ _ => cases breaks
      | announced _ _ => cases breaks
      | finished item isCall =>
          by_cases same : item.call = assembled
          · rw [Course.step, if_pos same] at breaks
            cases breaks
          · exact breaks_mismatch tracks isCall begun same (Or.inr course) rest
  | prose kind =>
      rw [course] at breaks
      generalize found : state.items.find? itemId = present at fits
      rw [course] at fits
      cases fits with
      | prose _ entry index block text entryKind hasText holds typed =>
          have notCall : ∀ other, asm.openBlocks.find? index = some other →
              other.blockType ≠ .toolCall := by
            intro other here
            rw [holds.present] at here
            cases here
            rw [typed]
            cases kind <;> decide
          cases touches_of_touch touched with
          | prose other _ delta nonempty =>
              have different : kind ≠ other := by
                rintro rfl
                rw [Course.step, if_pos rfl] at breaks
                cases breaks
              have wrong : block.blockType ≠ other.blockType := by
                rw [typed]
                revert different
                cases kind <;> cases other <;> decide
              obtain ⟨error, rejected⟩ :=
                feed_wrongProse (delta.getD "") tracks.unfinished holds.present wrong
              refine not_conforms_of_yield tracks (by
                rw [StreamState.onEvent, StreamState.onProseDelta, if_neg nonempty,
                  StreamState.start_of_held _ found holds.placed holds.started]
                simp only [hasText]
                rfl) ?_ rejected _ rest
              rw [StreamState.yield, holds.placed]
              rfl
          | announced _ _ => cases breaks
          | arguments _ _ _ =>
              exact breaks_withoutCall tracks touched found holds.placed holds.started notCall
                (Or.inl ⟨_, rfl⟩) _ rest
          | finished _ _ =>
              exact breaks_withoutCall tracks touched found holds.placed holds.started notCall
                (Or.inr ⟨_, rfl⟩) _ rest
  | ended =>
      rw [course] at breaks
      generalize found : state.items.find? itemId = present at fits
      rw [course] at fits
      cases fits with
      | ended entry index _ _ placed started _ closed =>
          have notCall : ∀ other, asm.openBlocks.find? index = some other →
              other.blockType ≠ .toolCall := by
            intro other here
            rw [closed] at here
            cases here
          cases touches_of_touch touched with
          | prose _ _ _ _ => cases breaks
          | announced _ _ => cases breaks
          | arguments _ _ _ =>
              exact breaks_withoutCall tracks touched found placed started notCall
                (Or.inl ⟨_, rfl⟩) _ rest
          | finished _ _ =>
              exact breaks_withoutCall tracks touched found placed started notCall
                (Or.inr ⟨_, rfl⟩) _ rest

private theorem onEvent_raises {state : StreamState} {asm : BlockAssembler}
    {courses : Option String → Course} {dones : List FunctionCall}
    (tracks : Tracks state asm courses dones) {event : ResponseEvent} {itemId : Option String}
    {touch : Touch} (touched : event.touch = some (itemId, touch))
    (raises : (courses itemId).step touch = .raises) :
    event.doneCall = none ∧ state.onEvent event = .error state := by
  have fits := tracks.fits itemId
  cases touches_of_touch touched with
  | prose kind _ delta nonempty =>
      refine ⟨rfl, ?_⟩
      cases course : courses itemId with
      | untouched => rw [course] at raises; cases raises
      | call _ _ _ _ => rw [course] at raises; cases raises
      | prose other =>
          rw [course, Course.step] at raises
          split at raises <;> cases raises
      | ended =>
          generalize found : state.items.find? itemId = present at fits
          rw [course] at fits
          cases fits with
          | ended entry index _ noText placed started _ _ =>
              simp only [StreamState.onEvent, StreamState.onProseDelta, if_neg nonempty,
                StreamState.start_of_held _ found placed started, noText]
  | arguments _ _ _ => cases course : courses itemId <;> rw [course] at raises <;> cases raises
  | announced item _ => cases course : courses item.id <;> rw [course] at raises <;> cases raises
  | finished item _ =>
      cases course : courses item.id <;> rw [course] at raises <;>
        first | cases raises | (rw [Course.step] at raises; split at raises <;> cases raises)

theorem conforms_iff_tame (events : List ResponseEvent) (tracks : Tracks state asm courses dones) :
    Conforms (dones ++ doneCalls events) (state.finishFrom events) ↔ Tame courses events := by
  induction events generalizing state asm courses dones with
  | nil =>
      obtain ⟨later, final, shape, accepted, finished, silent, pending⟩ := conclude_accepted tracks
      have whole : BlockAssembler.fresh.feedAll (state.finishFrom []) = .ok final := by
        rw [StreamState.finishFrom_nil, shape, BlockAssembler.feedAll_append, tracks.fed]
        exact accepted
      have carried : (callEnds (state.finishFrom [])).map final.blockTable.find? =
          (dones ++ doneCalls []).map fun call => some call.wire := by
        rw [StreamState.finishFrom_nil, shape, callEnds_append, silent, List.append_nil,
          tracks.carried_later accepted]
        simp [doneCalls]
      rw [conforms_iff whole finished (conclude_finishes tracks), pending, Tame]
      exact and_iff_left carried
  | cons event rest ih =>
      cases touched : event.touch with
      | none =>
          obtain ⟨noCall, after, ran, tracking⟩ := onEvent_none tracks touched
          rw [StreamState.finishFrom_cons_ok ran, doneCalls, List.filterMap_cons_none noCall, Tame,
            touched]
          exact ih tracking
      | some touch =>
          obtain ⟨itemId, touch⟩ := touch
          rw [Tame, touched]
          cases outcome : (courses itemId).step touch with
          | goes course =>
              obtain ⟨after, next, ran, tracking⟩ := onEvent_goes tracks touched outcome
              have split : dones ++ doneCalls (event :: rest) =
                  dones ++ event.doneCall.toList ++ doneCalls rest := by
                unfold doneCalls
                rw [List.append_assoc]
                cases called : event.doneCall with
                | none => rw [List.filterMap_cons_none called]; rfl
                | some call => rw [List.filterMap_cons_some called]; rfl
              simp only [outcome]
              rw [StreamState.finishFrom_cons_ok ran, split]
              exact ih tracking
          | raises =>
              obtain ⟨noCall, raised⟩ := onEvent_raises tracks touched outcome
              simp only [outcome]
              rw [StreamState.finishFrom_cons_error raised, doneCalls,
                List.filterMap_cons_none noCall,
                stopped_conforms_iff tracks.fed tracks.unfinished tracks.quiet,
                tracks.pending_empty_iff, tracks.carried, List.map_append]
              refine and_congr_right fun _ => ?_
              rw [List.self_eq_append_right, List.map_eq_nil_iff]
              rfl
          | breaks =>
              simp only [outcome, iff_false]
              exact onEvent_breaks tracks touched outcome rest

/-- The Responses adapter conforms to the assembler's protocol exactly on the
tame event sequences. -/
theorem stream_conforms_iff_tame (arrivals : List Arrival) :
    Conforms (doneCalls (heard arrivals)) (stream arrivals none) ↔
      Tame (fun _ => .untouched) (heard arrivals) := by
  have whole : stream arrivals none = StreamState.initial.finishFrom (heard arrivals) := by
    unfold stream StreamState.finishFrom
    cases StreamState.initial.consume (heard arrivals) <;> rfl
  rw [whole]
  exact conforms_iff_tame (heard arrivals) tracks_initial

def argumentsWhenDone : List Arrival :=
  let item (arguments : String) : ResponseItem :=
    ⟨some "fc-1", "function_call", ⟨"call-9", "read", arguments⟩, none⟩
  [⟨false, .itemAdded (item "")⟩, ⟨false, .itemDone (item "\x7b\x7d")⟩,
    ⟨false, .completed ⟨none, [], "completed", false⟩⟩]

/-- The assembled call has neither id, name nor arguments. -/
theorem argumentsWhenDone_not_conforms :
    ¬ Conforms (doneCalls (heard argumentsWhenDone)) (stream argumentsWhenDone none) := by
  intro conforms
  obtain ⟨final, accepted⟩ := conforms.accepted
  have carried := conforms.carried final accepted
  have computed : (BlockAssembler.fresh.feedAll (stream argumentsWhenDone none)).toOption.map
      (fun assembler => (callEnds (stream argumentsWhenDone none)).map assembler.blockTable.find?) =
        some [some (.toolCall "" "" "")] := by decide
  rw [accepted] at computed
  have assembled : (callEnds (stream argumentsWhenDone none)).map final.blockTable.find? =
      [some (.toolCall "" "" "")] := Option.some.inj computed
  rw [assembled] at carried
  exact absurd carried (by decide)

end Ftre.Llm.Responses
