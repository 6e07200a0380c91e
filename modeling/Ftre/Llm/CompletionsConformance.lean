import Ftre.Llm.CompletionsRuns

/-!
Protocol conformance of the chat-completions adapter.
-/

namespace Ftre.Llm

open Lib

/-- A chunk stream the assembler takes without complaint: accepted, every block
closed once, valid before a non-error finish, one finish and it is last, and
tool-call blocks carrying their own call's fragments in order. -/
structure Conforms (calls : List ToolCallDelta) (chunks : List StreamChunk) : Prop where
  accepted : ∃ final, BlockAssembler.fresh.feedAll chunks = .ok final
  closedOnce : ∀ index, startsAt index chunks → endCount index chunks = 1
  validated : ∀ final reason, BlockAssembler.fresh.feedAll chunks = .ok final →
    final.finish = some reason → reason.kind ≠ .error → final.validate = .ok ()
  finishLast : ∃ initial reason, chunks = initial ++ [.finish reason] ∧
    ∀ chunk ∈ initial, chunk.isFinish = false
  arguments : ∃ wireOf : Nat → Int,
    (∀ left right, .blockStart left .toolCall ∈ chunks → .blockStart right .toolCall ∈ chunks →
      wireOf left = wireOf right → left = right) ∧
    ∀ index, .blockStart index .toolCall ∈ chunks →
      argumentsAt index chunks = (route calls).fragments (wireOf index) ∧
      (∀ final id name arguments, BlockAssembler.fresh.feedAll chunks = .ok final →
        final.blockTable.find? index = some (.toolCall id name arguments) →
        arguments = (route calls).fragments (wireOf index)) ∧
      ∀ id name arguments, .blockEnd index (some (.toolCall id name arguments)) ∈ chunks →
        arguments = (route calls).fragments (wireOf index)

/-! ### The ends a stream yields -/

namespace StreamState

def withEnds (state : StreamState) (ends : List (Nat × WireBlock)) : StreamState :=
  { state with emitted := state.emitted ++ ends.map endChunk }

def reasoningEnds (state : StreamState) : List (Nat × WireBlock) :=
  match state.reasoningIndex with
  | none => []
  | some index => [(index, .thinking (String.join state.reasoningParts))]

def textEnds (state : StreamState) : List (Nat × WireBlock) :=
  match state.textIndex with
  | none => []
  | some index => [(index, .text (String.join state.textParts))]

def toolEnds (state : StreamState) : List (Int × ToolEntry) → List (Nat × WireBlock)
  | [] => []
  | (wire, entry) :: rest =>
      if entry.id = "" ∨ entry.name = "" then state.toolEnds rest
      else
        match state.toolBlockIndex.find? wire with
        | none => []
        | some index =>
            (index, .toolCall entry.id entry.name entry.arguments) :: state.toolEnds rest

def ends (state : StreamState) : List (Nat × WireBlock) :=
  state.reasoningEnds ++ state.textEnds ++ state.toolEnds state.accumulator.entries

theorem withEnds_append (state : StreamState) (first second : List (Nat × WireBlock)) :
    (state.withEnds first).withEnds second = state.withEnds (first ++ second) := by
  simp [withEnds, List.append_assoc]

theorem withEnds_nil (state : StreamState) : state.withEnds [] = state := by
  simp [withEnds]

theorem toolEnds_withEnds (state : StreamState) (first : List (Nat × WireBlock))
    (entries : List (Int × ToolEntry)) :
    (state.withEnds first).toolEnds entries = state.toolEnds entries := by
  induction entries with
  | nil => rfl
  | cons head rest ih =>
      simp only [toolEnds, ih]
      rfl

theorem closeReasoning_eq (state : StreamState) :
    state.closeReasoning = state.withEnds state.reasoningEnds := by
  unfold closeReasoning reasoningEnds
  cases state.reasoningIndex with
  | none => exact state.withEnds_nil.symm
  | some index => rfl

theorem closeText_eq (state : StreamState) : state.closeText = state.withEnds state.textEnds := by
  unfold closeText textEnds
  cases state.textIndex with
  | none => exact state.withEnds_nil.symm
  | some index => rfl

theorem closeTools_eq (entries : List (Int × ToolEntry)) (state : StreamState) :
    (∃ key, state.closeTools entries = .error (key, state.withEnds (state.toolEnds entries))) ∨
      state.closeTools entries = .ok (state.withEnds (state.toolEnds entries)) := by
  induction entries generalizing state with
  | nil => exact Or.inr (by rw [closeTools, toolEnds, withEnds_nil])
  | cons head rest ih =>
      rcases head with ⟨wire, entry⟩
      unfold closeTools toolEnds
      by_cases skipped : entry.id = "" ∨ entry.name = ""
      · rw [if_pos skipped, if_pos skipped]
        exact ih state
      · rw [if_neg skipped, if_neg skipped]
        cases state.toolBlockIndex.find? wire with
        | none => exact Or.inl ⟨wire, by rw [withEnds_nil]⟩
        | some index =>
            have yielded : state.yield (.blockEnd index
                (some (.toolCall entry.id entry.name entry.arguments))) =
                state.withEnds [(index, .toolCall entry.id entry.name entry.arguments)] := rfl
            simp only [yielded]
            have rest := ih (state.withEnds [(index, .toolCall entry.id entry.name entry.arguments)])
            rwa [toolEnds_withEnds, withEnds_append] at rest

theorem conclude_shape (state : StreamState) :
    ∃ (usages : List (Option Usage)) (reason : FinishReason),
      state.conclude = state.emitted ++
        (state.ends.map endChunk ++ (usages.map StreamChunk.usage ++ [.finish reason])) := by
  have finishing : ∃ reason, state.finishChunk = .finish reason := by
    unfold finishChunk
    split
    · exact ⟨_, rfl⟩
    · split <;> exact ⟨_, rfl⟩
  have closing : state.closeReasoning.closeText =
      state.withEnds (state.reasoningEnds ++ state.textEnds) := by
    rw [closeText_eq, closeReasoning_eq, show (state.withEnds _).textEnds = state.textEnds from rfl,
      withEnds_append]
  unfold conclude closeAll ends
  rw [closing]
  rcases closeTools_eq state.accumulator.entries
    (state.withEnds (state.reasoningEnds ++ state.textEnds)) with ⟨key, stopped⟩ | closed
  · simp only [stopped, toolEnds_withEnds, withEnds_append]
    refine ⟨[], ⟨.error, some (missingKey key), "", .empty⟩, ?_⟩
    rw [withEnds, errorFinish, List.map_nil, List.nil_append, List.append_assoc]
  · obtain ⟨reason, finished⟩ := finishing
    simp only [closed, toolEnds_withEnds, withEnds_append, finished]
    unfold yieldUsage
    cases reported : state.usage with
    | none =>
        refine ⟨[], reason, ?_⟩
        simp [withEnds, reported]
    | some usage =>
        refine ⟨[some usage], reason, ?_⟩
        simp [withEnds, reported, StreamState.yield]

end StreamState

/-! ### Owners of the ends -/

private theorem toolEnds_owned (state : StreamState) (entries : List (Int × ToolEntry)) :
    ∀ ending ∈ state.toolEnds entries, ∃ wire entry, (wire, entry) ∈ entries ∧
      state.toolBlockIndex.find? wire = some ending.1 ∧
      ending.2 = .toolCall entry.id entry.name entry.arguments := by
  induction entries with
  | nil => simp [StreamState.toolEnds]
  | cons head rest ih =>
      rcases head with ⟨wire, entry⟩
      intro ending member
      unfold StreamState.toolEnds at member
      by_cases skipped : entry.id = "" ∨ entry.name = ""
      · rw [if_pos skipped] at member
        obtain ⟨other, found, present, rest⟩ := ih ending member
        exact ⟨other, found, List.mem_cons_of_mem _ present, rest⟩
      · rw [if_neg skipped] at member
        cases placed : state.toolBlockIndex.find? wire with
        | none => rw [placed] at member; cases member
        | some index =>
            rw [placed] at member
            rcases List.mem_cons.mp member with rfl | later
            · exact ⟨wire, entry, List.mem_cons_self, placed, rfl⟩
            · obtain ⟨other, found, present, rest⟩ := ih ending later
              exact ⟨other, found, List.mem_cons_of_mem _ present, rest⟩

variable {state : StreamState} {asm : BlockAssembler} {routing : Routing}

private theorem toolEnds_distinct (layout : Layout state asm) (entries : List (Int × ToolEntry))
    (distinct : (entries.map Prod.fst).Nodup) : ((state.toolEnds entries).map Prod.fst).Nodup := by
  induction entries with
  | nil => exact List.nodup_nil
  | cons head rest ih =>
      rcases head with ⟨wire, entry⟩
      obtain ⟨fresh, restDistinct⟩ := List.nodup_cons.mp distinct
      unfold StreamState.toolEnds
      by_cases skipped : entry.id = "" ∨ entry.name = ""
      · rw [if_pos skipped]
        exact ih restDistinct
      · rw [if_neg skipped]
        cases placed : state.toolBlockIndex.find? wire with
        | none => exact List.nodup_nil
        | some index =>
            refine List.nodup_cons.mpr ⟨fun member => ?_, ih restDistinct⟩
            obtain ⟨ending, present, same⟩ := List.mem_map.mp member
            obtain ⟨other, otherEntry, listed, found, _⟩ := toolEnds_owned state rest ending present
            rw [same] at found
            have owners := layout.separate (.tool wire) (.tool other) index placed found
            cases owners
            exact fresh (List.mem_map.mpr ⟨(wire, otherEntry), listed, rfl⟩)

private theorem mem_toolEnds (layout : Layout state asm) {wire : Int} {index : Nat}
    (found : state.toolBlockIndex.find? wire = some index) (entries : List (Int × ToolEntry))
    (sorted : entries.Pairwise fun left right => left.1 < right.1) :
    index ∈ (state.toolEnds entries).map Prod.fst ↔
      ∃ entry, (wire, entry) ∈ entries ∧ entry.id ≠ "" ∧ entry.name ≠ "" ∧
        ∀ earlier other, (earlier, other) ∈ entries → earlier < wire → other.id ≠ "" →
          other.name ≠ "" → (state.toolBlockIndex.find? earlier).isSome := by
  induction entries with
  | nil => simp [StreamState.toolEnds]
  | cons head rest ih =>
      rcases head with ⟨first, firstEntry⟩
      obtain ⟨before, restSorted⟩ := List.pairwise_cons.mp sorted
      have ih := ih restSorted
      unfold StreamState.toolEnds
      by_cases skipped : firstEntry.id = "" ∨ firstEntry.name = ""
      · rw [if_pos skipped, ih]
        constructor
        · rintro ⟨entry, member, identified, named, earlierPlaced⟩
          refine ⟨entry, List.mem_cons_of_mem _ member, identified, named, ?_⟩
          intro earlier other listed smaller otherId otherName
          rcases List.mem_cons.mp listed with same | later
          · cases same
            rcases skipped with blank | blank
            · exact absurd blank otherId
            · exact absurd blank otherName
          · exact earlierPlaced earlier other later smaller otherId otherName
        · rintro ⟨entry, member, identified, named, earlierPlaced⟩
          rcases List.mem_cons.mp member with same | later
          · cases same
            rcases skipped with blank | blank
            · exact absurd blank identified
            · exact absurd blank named
          · exact ⟨entry, later, identified, named, fun earlier other listed =>
              earlierPlaced earlier other (List.mem_cons_of_mem _ listed)⟩
      · rw [if_neg skipped]
        obtain ⟨firstId, firstName⟩ := not_or.mp skipped
        cases placed : state.toolBlockIndex.find? first with
        | none =>
            constructor
            · intro member
              cases member
            rintro ⟨entry, member, _, _, earlierPlaced⟩
            rcases List.mem_cons.mp member with same | later
            · cases same
              rw [found] at placed
              cases placed
            · have missing := earlierPlaced first firstEntry List.mem_cons_self
                (before _ later) firstId firstName
              rw [placed] at missing
              cases missing
        | some position =>
            simp only [List.map_cons, List.mem_cons, ih]
            constructor
            · rintro (same | ⟨entry, member, identified, named, earlierPlaced⟩)
              · subst position
                cases layout.separate (.tool wire) (.tool first) index found placed
                refine ⟨firstEntry, Or.inl rfl, firstId, firstName, ?_⟩
                rintro earlier other (same | later) smaller _ _
                · cases same
                  exact absurd smaller (lt_irrefl _)
                · exact absurd smaller (lt_asymm (before _ later))
              · refine ⟨entry, Or.inr member, identified, named, ?_⟩
                rintro earlier other (same | later) smaller otherId otherName
                · cases same
                  rw [placed]
                  rfl
                · exact earlierPlaced earlier other later smaller otherId otherName
            · rintro ⟨entry, same | later, identified, named, earlierPlaced⟩
              · cases same
                rw [found] at placed
                cases placed
                exact Or.inl rfl
              · exact Or.inr ⟨entry, later, identified, named, fun earlier other listed =>
                  earlierPlaced earlier other (Or.inr listed)⟩

theorem entries_sorted (accumulator : ToolCallAccumulator) :
    accumulator.entries.Pairwise fun left right => left.1 < right.1 := by
  have ordered : accumulator.entries.Pairwise fun left right => left.1 ≤ right.1 := by
    have : Std.Total fun left right : Int × ToolEntry => left.1 ≤ right.1 :=
      ⟨fun left right => le_total left.1 right.1⟩
    have : IsTrans (Int × ToolEntry) fun left right => left.1 ≤ right.1 :=
      ⟨fun _ _ _ first second => le_trans first second⟩
    exact List.pairwise_insertionSort _ _
  have distinct : (accumulator.entries.map Prod.fst).Nodup :=
    ((List.perm_insertionSort _ _).map Prod.fst).nodup_iff.mpr accumulator.items.distinct
  have separate := List.pairwise_map.mp distinct
  exact (ordered.and separate).imp fun both => lt_of_le_of_ne both.1 both.2

theorem mem_entries (accumulator : ToolCallAccumulator) (wire : Int) (entry : ToolEntry) :
    (wire, entry) ∈ accumulator.entries ↔ accumulator.items.find? wire = some entry := by
  rw [KeyedTable.find?_eq_some_iff]
  exact List.mem_insertionSort _

/-! ### The ends of a tracked state -/

private theorem plainEnds_owned (ending : Nat × WireBlock)
    (member : ending ∈ state.reasoningEnds ++ state.textEnds) :
    ∃ owner, (∀ wire, owner ≠ .tool wire) ∧ state.blockOf owner = some ending.1 ∧
      BlockAssembler.wireType owner.blockType = ending.2.type := by
  rcases List.mem_append.mp member with reasoning | text
  · unfold StreamState.reasoningEnds at reasoning
    cases placed : state.reasoningIndex with
    | none => rw [placed] at reasoning; cases reasoning
    | some index =>
        rw [placed] at reasoning
        cases List.mem_singleton.mp reasoning
        exact ⟨.reasoning, by simp, placed, rfl⟩
  · unfold StreamState.textEnds at text
    cases placed : state.textIndex with
    | none => rw [placed] at text; cases text
    | some index =>
        rw [placed] at text
        cases List.mem_singleton.mp text
        exact ⟨.text, by simp, placed, rfl⟩

private theorem ends_owned (ending : Nat × WireBlock) (member : ending ∈ state.ends) :
    ∃ owner, state.blockOf owner = some ending.1 ∧
      BlockAssembler.wireType owner.blockType = ending.2.type := by
  rcases List.mem_append.mp member with plain | tool
  · obtain ⟨owner, _, placed, typed⟩ := plainEnds_owned ending plain
    exact ⟨owner, placed, typed⟩
  · obtain ⟨wire, entry, _, placed, block⟩ := toolEnds_owned state _ ending tool
    exact ⟨.tool wire, placed, by rw [block]; rfl⟩

private theorem plainEnds_distinct (layout : Layout state asm) :
    ((state.reasoningEnds ++ state.textEnds).map Prod.fst).Nodup := by
  unfold StreamState.reasoningEnds StreamState.textEnds
  cases reasoning : state.reasoningIndex with
  | none => cases state.textIndex <;> simp
  | some reasoningIndex =>
      cases text : state.textIndex with
      | none => simp
      | some textIndex =>
          have different : reasoningIndex ≠ textIndex := by
            intro same
            subst same
            cases layout.separate .reasoning .text reasoningIndex reasoning text
          simpa using different

private theorem ends_distinct (layout : Layout state asm) : (state.ends.map Prod.fst).Nodup := by
  have keys : (state.accumulator.entries.map Prod.fst).Nodup :=
    ((List.perm_insertionSort _ _).map Prod.fst).nodup_iff.mpr state.accumulator.items.distinct
  unfold StreamState.ends
  rw [List.map_append, List.nodup_append]
  refine ⟨plainEnds_distinct layout, toolEnds_distinct layout _ keys, ?_⟩
  intro left leftListed right rightListed same
  subst same
  obtain ⟨plain, plainMember, plainIndex⟩ := List.mem_map.mp leftListed
  obtain ⟨tool, toolMember, toolIndex⟩ := List.mem_map.mp rightListed
  obtain ⟨owner, notTool, placed, _⟩ := plainEnds_owned plain plainMember
  obtain ⟨wire, _, _, found, _⟩ := toolEnds_owned state _ tool toolMember
  rw [plainIndex] at placed
  rw [toolIndex] at found
  exact notTool wire (layout.separate owner (.tool wire) left placed found)

private theorem conclude_accepted (tracks : Tracks state asm routing) :
    ∃ final, BlockAssembler.fresh.feedAll state.conclude = .ok final ∧
      final.finished = true ∧
      ∀ index, index ∈ final.pending ↔
        index ∈ asm.pending ∧ index ∉ state.ends.map Prod.fst := by
  obtain ⟨usages, reason, shape⟩ := state.conclude_shape
  have closable : ∀ ending ∈ state.ends, ∃ block, asm.openBlocks.find? ending.1 = some block ∧
      BlockAssembler.wireType block.blockType = ending.2.type := by
    intro ending member
    obtain ⟨owner, placed, typed⟩ := ends_owned ending member
    obtain ⟨block, present, blockType⟩ := tracks.layout.opened owner ending.1 placed
    exact ⟨block, present, by rw [blockType, typed]⟩
  obtain ⟨ended, endsFed, endedUnfinished, pending⟩ :=
    BlockAssembler.feedAll_ends state.ends tracks.layout.unfinished (ends_distinct tracks.layout) closable
  obtain ⟨reported, usagesFed, reportedUnfinished, samePending⟩ :=
    BlockAssembler.feedAll_usages usages endedUnfinished
  have finishFed : reported.feed (.finish reason) =
      .ok { reported with finish := some reason, finished := true } := by
    rw [BlockAssembler.feed, reportedUnfinished, if_neg Bool.false_ne_true]
  refine ⟨{ reported with finish := some reason, finished := true }, ?_, rfl, ?_⟩
  · rw [shape, BlockAssembler.feedAll_append, tracks.layout.fed]
    simp only [BlockAssembler.feedAll_append, endsFed, usagesFed, BlockAssembler.feedAll, finishFed]
  · intro index
    change index ∈ reported.pending ↔ _
    rw [samePending]
    exact pending index

private theorem mem_pending_iff_owned (layout : Layout state asm) (index : Nat) :
    index ∈ asm.pending ↔ ∃ owner, state.blockOf owner = some index := by
  have account := BlockAssembler.account_of_accepted layout.fed
  constructor
  · intro member
    have started := account.pendingStarted index member
    rw [layout.next] at started
    exact (layout.owned index).mp started
  · rintro ⟨owner, placed⟩
    obtain ⟨block, present, _⟩ := layout.opened owner index placed
    rw [account.openPending, present]
    rfl

private theorem pending_empty_iff {state : StreamState} {asm final : BlockAssembler}
    (layout : Layout state asm)
    (pending : ∀ index, index ∈ final.pending ↔
      index ∈ asm.pending ∧ index ∉ state.ends.map Prod.fst) :
    final.pending = ∅ ↔ ∀ wire index, state.toolBlockIndex.find? wire = some index →
      index ∈ (state.toolEnds state.accumulator.entries).map Prod.fst := by
  rw [Finset.eq_empty_iff_forall_notMem]
  constructor
  · intro none wire index placed
    have listed : index ∈ state.ends.map Prod.fst := by
      by_contra missing
      exact none index ((pending index).mpr
        ⟨(mem_pending_iff_owned layout index).mpr ⟨.tool wire, placed⟩, missing⟩)
    obtain ⟨ending, member, same⟩ := List.mem_map.mp listed
    unfold StreamState.ends at member
    rcases List.mem_append.mp member with plain | tool
    · obtain ⟨owner, notTool, held, _⟩ := plainEnds_owned ending plain
      rw [same] at held
      exact absurd (layout.separate owner (.tool wire) index held placed) (notTool wire)
    · exact same ▸ List.mem_map_of_mem tool
  · intro closed index member
    obtain ⟨isPending, unlisted⟩ := (pending index).mp member
    obtain ⟨owner, placed⟩ := (mem_pending_iff_owned layout index).mp isPending
    apply unlisted
    unfold StreamState.ends
    rw [List.map_append, List.map_append]
    cases owner with
    | reasoning =>
        refine List.mem_append_left _ (List.mem_append_left _ ?_)
        rw [StreamState.reasoningEnds, show state.reasoningIndex = some index from placed]
        exact List.mem_singleton_self _
    | text =>
        refine List.mem_append_left _ (List.mem_append_right _ ?_)
        rw [StreamState.textEnds, show state.textIndex = some index from placed]
        exact List.mem_singleton_self _
    | tool wire => exact List.mem_append_right _ (closed wire index placed)

private theorem toolEnds_complete_iff (tracks : Tracks state asm routing) :
    (∀ wire index, state.toolBlockIndex.find? wire = some index →
      index ∈ (state.toolEnds state.accumulator.entries).map Prod.fst) ↔ routing.Closable := by
  have sorted := entries_sorted state.accumulator
  have gathered := tracks.calls.gathered
  have entryOf : ∀ wire entry, (wire, entry) ∈ state.accumulator.entries →
      state.accumulator.entryAt wire = entry := by
    intro wire entry member
    unfold ToolCallAccumulator.entryAt
    rw [(mem_entries _ _ _).mp member]
    rfl
  have listed : ∀ wire, routing.carriesId wire →
      (wire, state.accumulator.entryAt wire) ∈ state.accumulator.entries := by
    intro wire carries
    have identified := (gathered.ids wire).mpr carries
    rw [mem_entries]
    unfold ToolCallAccumulator.entryAt at identified ⊢
    cases found : state.accumulator.items.find? wire with
    | none => rw [found] at identified; exact absurd rfl identified
    | some entry => rfl
  have placedIff : ∀ wire, (state.toolBlockIndex.find? wire).isSome ↔
      routing.carriesId wire ∧ routing.fragments wire ≠ "" := by
    intro wire
    rw [tracks.calls.settled, gathered.ids, gathered.arguments]
  constructor
  · intro closed wire carries nonempty
    obtain ⟨index, placed⟩ := Option.isSome_iff_exists.mp ((placedIff wire).mpr ⟨carries, nonempty⟩)
    obtain ⟨entry, member, _, named, earlierPlaced⟩ :=
      (mem_toolEnds tracks.layout placed _ sorted).mp (closed wire index placed)
    refine ⟨?_, ?_⟩
    · rw [← gathered.names, entryOf wire entry member]
      exact named
    · intro earlier smaller earlierId earlierName
      exact ((placedIff earlier).mp (earlierPlaced earlier _ (listed earlier earlierId) smaller
        ((gathered.ids earlier).mpr earlierId) ((gathered.names earlier).mpr earlierName))).2
  · intro closable wire index placed
    obtain ⟨carries, nonempty⟩ := (placedIff wire).mp (by rw [placed]; rfl)
    obtain ⟨named, earlierFilled⟩ := closable wire carries nonempty
    refine (mem_toolEnds tracks.layout placed _ sorted).mpr
      ⟨_, listed wire carries, (gathered.ids wire).mpr carries, (gathered.names wire).mpr named, ?_⟩
    intro earlier other member smaller otherId otherName
    rw [← entryOf earlier other member] at otherId otherName
    have earlierId := (gathered.ids earlier).mp otherId
    exact (placedIff earlier).mpr
      ⟨earlierId, earlierFilled earlier smaller earlierId ((gathered.names earlier).mp otherName)⟩

/-! ### Arguments -/

private theorem argumentsAt_append_silent (index : Nat) (chunks : List StreamChunk)
    (later : List StreamChunk) (silent : ∀ chunk ∈ later, chunk.argumentsFor index = "") :
    argumentsAt index (chunks ++ later) = argumentsAt index chunks := by
  induction later using List.reverseRecOn with
  | nil => rw [List.append_nil]
  | append_singleton initial last ih =>
      rw [← List.append_assoc, argumentsAt_concat,
        silent last (List.mem_append_right _ (List.mem_singleton_self _)), String.append_empty]
      exact ih fun chunk member => silent chunk (List.mem_append_left _ member)

private theorem mem_tail {state : StreamState} {usages : List (Option Usage)}
    {reason : FinishReason} {chunk : StreamChunk}
    (member : chunk ∈ state.ends.map endChunk ++
      (usages.map StreamChunk.usage ++ [.finish reason])) :
    (∃ ending ∈ state.ends, chunk = endChunk ending) ∨ (∃ usage, chunk = .usage usage) ∨
      chunk = .finish reason := by
  rcases List.mem_append.mp member with ended | rest
  · obtain ⟨ending, listed, same⟩ := List.mem_map.mp ended
    exact Or.inl ⟨ending, listed, same.symm⟩
  · rcases List.mem_append.mp rest with reported | finished
    · obtain ⟨usage, _, same⟩ := List.mem_map.mp reported
      exact Or.inr (Or.inl ⟨usage, same.symm⟩)
    · exact Or.inr (Or.inr (List.mem_singleton.mp finished))

private theorem tail_silent {usages : List (Option Usage)} {reason : FinishReason} (index : Nat) :
    ∀ chunk ∈ state.ends.map endChunk ++ (usages.map StreamChunk.usage ++ [.finish reason]),
      chunk.argumentsFor index = "" := by
  intro chunk member
  rcases mem_tail member with ⟨_, _, rfl⟩ | ⟨_, rfl⟩ | rfl <;> rfl

private theorem emitted_no_end {state : StreamState} {asm : BlockAssembler}
    (layout : Layout state asm) (index : Nat) (block : Option WireBlock) :
    .blockEnd index block ∉ state.emitted := by
  intro member
  have account := BlockAssembler.account_of_accepted layout.fed
  have none : endCount index state.emitted = 0 := by
    rw [account.ended, if_neg]
    rintro ⟨started, notPending⟩
    rw [layout.next] at started
    exact notPending ((mem_pending_iff_owned layout index).mpr ((layout.owned index).mp started))
  have some := List.countP_eq_zero.mp none (.blockEnd index block) member
  simp [StreamChunk.endsBlock] at some

private theorem conclude_arguments (tracks : Tracks state asm routing) :
    ∃ wireOf : Nat → Int,
      (∀ left right, .blockStart left .toolCall ∈ state.conclude →
        .blockStart right .toolCall ∈ state.conclude → wireOf left = wireOf right → left = right) ∧
      ∀ index, .blockStart index .toolCall ∈ state.conclude →
        argumentsAt index state.conclude = routing.fragments (wireOf index) ∧
        ∀ id name arguments,
          .blockEnd index (some (.toolCall id name arguments)) ∈ state.conclude →
          arguments = routing.fragments (wireOf index) := by
  classical
  obtain ⟨usages, reason, shape⟩ := state.conclude_shape
  have startOwned : ∀ index, .blockStart index .toolCall ∈ state.conclude →
      ∃ wire, state.toolBlockIndex.find? wire = some index := by
    intro index member
    rw [shape] at member
    rcases List.mem_append.mp member with emitted | later
    · obtain ⟨owner, placed, typed⟩ := tracks.layout.starts index .toolCall emitted
      cases owner with
      | reasoning => cases typed
      | text => cases typed
      | tool wire => exact ⟨wire, placed⟩
    · rcases mem_tail later with ⟨_, _, same⟩ | ⟨_, same⟩ | same <;> cases same
  have fragmentsOf : ∀ wire index, state.toolBlockIndex.find? wire = some index →
      argumentsAt index state.conclude = routing.fragments wire := by
    intro wire index placed
    obtain ⟨block, present, _⟩ := tracks.layout.opened (.tool wire) index placed
    rw [shape, argumentsAt_append_silent _ _ _ (tail_silent index),
      ← (BlockAssembler.account_of_accepted tracks.layout.fed).openArguments index block present,
      tracks.calls.toolArguments wire index block placed present,
      tracks.calls.gathered.arguments]
  refine ⟨fun index => if owned : ∃ wire, state.toolBlockIndex.find? wire = some index
    then owned.choose else 0, ?_, ?_⟩
  · intro left right leftStart rightStart same
    have leftOwned := startOwned left leftStart
    have rightOwned := startOwned right rightStart
    simp only [dif_pos leftOwned, dif_pos rightOwned] at same
    have leftPlaced := leftOwned.choose_spec
    rw [same, rightOwned.choose_spec] at leftPlaced
    exact (Option.some.inj leftPlaced).symm
  · intro index started
    have owned := startOwned index started
    simp only [dif_pos owned]
    refine ⟨fragmentsOf _ index owned.choose_spec, ?_⟩
    intro id name arguments member
    rw [shape] at member
    rcases List.mem_append.mp member with emitted | later
    · exact absurd emitted (emitted_no_end tracks.layout index _)
    · rcases mem_tail later with ⟨⟨position, block⟩, listed, same⟩ | ⟨_, same⟩ | same
      · cases same
        rcases List.mem_append.mp listed with plain | tool
        · obtain ⟨owner, notTool, placed, _⟩ := plainEnds_owned _ plain
          exact absurd (tracks.layout.separate owner (.tool _) position placed owned.choose_spec)
            (notTool _)
        · obtain ⟨wire, entry, present, placed, block⟩ := toolEnds_owned state _ _ tool
          have sameWire := tracks.layout.separate (.tool wire) (.tool _) position placed
            owned.choose_spec
          obtain ⟨_, _, rfl⟩ := WireBlock.toolCall.inj block
          rw [← Owner.tool.inj sameWire, ← tracks.calls.gathered.arguments]
          unfold ToolCallAccumulator.entryAt
          rw [(mem_entries _ _ _).mp present]
          rfl
      · cases same
      · cases same

private theorem stream_tracks (arrivals : List Arrival) :
    ∃ asm, Tracks (StreamState.initial.consume arrivals) asm (route (arrivedCalls arrivals)) :=
  consume_tracks arrivals tracks_initial

private theorem conclude_finishes (tracks : Tracks state asm routing) :
    ∃ initial reason, state.conclude = initial ++ [.finish reason] ∧
      ∀ chunk ∈ initial, chunk.isFinish = false := by
  obtain ⟨usages, reason, shape⟩ := state.conclude_shape
  refine ⟨state.emitted ++ (state.ends.map endChunk ++ usages.map StreamChunk.usage), reason, ?_, ?_⟩
  · rw [shape]
    simp only [List.append_assoc]
  · intro chunk member
    rcases List.mem_append.mp member with emitted | later
    · exact tracks.layout.quiet chunk emitted
    · rcases List.mem_append.mp later with ended | reported
      · obtain ⟨_, _, rfl⟩ := List.mem_map.mp ended
        rfl
      · obtain ⟨_, _, rfl⟩ := List.mem_map.mp reported
        rfl

/-- The adapter conforms to the assembler's protocol exactly when every call
that sent an id and arguments can be closed. -/
theorem stream_conforms_iff (arrivals : List Arrival) :
    Conforms (arrivedCalls arrivals) (stream arrivals none) ↔
      (route (arrivedCalls arrivals)).Closable := by
  obtain ⟨asm, tracks⟩ := stream_tracks arrivals
  obtain ⟨final, accepted, finished, pending⟩ := conclude_accepted tracks
  have closing := BlockAssembler.closedOnce_iff_pending_empty accepted
  have emptied := (pending_empty_iff tracks.layout pending).trans (toolEnds_complete_iff tracks)
  change Conforms _ (StreamState.initial.consume arrivals).conclude ↔ _
  constructor
  · intro conforms
    exact emptied.mp (closing.mp conforms.closedOnce)
  · intro closable
    have none := emptied.mpr closable
    obtain ⟨wireOf, injective, fragments⟩ := conclude_arguments tracks
    have unique : ∀ {other}, BlockAssembler.fresh.feedAll
        (StreamState.initial.consume arrivals).conclude = .ok other → other = final := by
      intro other again
      rw [accepted] at again
      exact (Except.ok.inj again).symm
    refine
      { accepted := ⟨final, accepted⟩
        closedOnce := closing.mpr none
        validated := ?_
        finishLast := conclude_finishes tracks
        arguments := ⟨wireOf, injective, ?_⟩ }
    · intro other reason again _ _
      rw [unique again, BlockAssembler.validate, if_neg (not_not.mpr none), finished]
      rfl
    · intro index started
      obtain ⟨sent, ended⟩ := fragments index started
      refine ⟨sent, ?_, ended⟩
      intro other id name arguments again found
      rw [unique again] at found
      exact ((BlockAssembler.account_of_accepted accepted).closedArguments
        index id name arguments found).trans sent

def argumentlessFirst : List Arrival :=
  let call (index : Int) (id name : String) (arguments : Option String) : ToolCallDelta :=
    ⟨some index, some id, some ⟨some name, arguments⟩⟩
  let choice (calls : List ToolCallDelta) (reason : Option String) : Arrival :=
    ⟨false, ⟨[], none, [⟨some ⟨none, none, calls⟩, reason⟩]⟩⟩
  [choice [call 0 "call-0" "get_time" none] none,
    choice [call 1 "call-1" "bash" (some "\x7b\x7d")] none,
    choice [] (some "tool_calls")]

/-- The complete call's block is opened and never closed. -/
theorem argumentlessFirst_not_conforms :
    ¬ Conforms (arrivedCalls argumentlessFirst) (stream argumentlessFirst none) := by
  intro conforms
  have once := conforms.closedOnce 0 ⟨.blockStart 0 .toolCall, by decide, by decide⟩
  exact absurd once (by decide)

end Ftre.Llm
