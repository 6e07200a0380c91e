import Ftre.Llm.ToolCallRouting

/-!
The streaming loop simulates the assembler: at every point of the loop the
chunks yielded so far are accepted, and every block index handed out belongs to
exactly one owner, whose block is open with that owner's type.
-/

namespace Ftre.Llm

open Lib

inductive Owner where
  | reasoning
  | text
  | tool (wire : Int)
deriving DecidableEq

def Owner.blockType : Owner → BlockType
  | .reasoning => .reasoning
  | .text => .text
  | .tool _ => .toolCall

def StreamState.blockOf (state : StreamState) : Owner → Option Nat
  | .reasoning => state.reasoningIndex
  | .text => state.textIndex
  | .tool wire => state.toolBlockIndex.find? wire

structure Layout (state : StreamState) (asm : BlockAssembler) : Prop where
  fed : BlockAssembler.fresh.feedAll state.emitted = .ok asm
  next : asm.nextIndex = state.nextIndex
  unfinished : asm.finished = false
  quiet : ∀ chunk ∈ state.emitted, chunk.isFinish = false
  owned : ∀ index, index < state.nextIndex ↔ ∃ owner, state.blockOf owner = some index
  separate : ∀ left right index, state.blockOf left = some index →
    state.blockOf right = some index → left = right
  opened : ∀ owner index, state.blockOf owner = some index →
    ∃ block, asm.openBlocks.find? index = some block ∧ block.blockType = owner.blockType
  starts : ∀ index blockType, .blockStart index blockType ∈ state.emitted →
    ∃ owner, state.blockOf owner = some index ∧ owner.blockType = blockType

structure Calls (state : StreamState) (asm : BlockAssembler) (routing : Routing) : Prop where
  gathered : Gathered routing state.accumulator
  settled : ∀ wire, (state.toolBlockIndex.find? wire).isSome ↔
    (state.accumulator.entryAt wire).id ≠ "" ∧ (state.accumulator.entryAt wire).arguments ≠ ""
  sent : ∀ wire, (state.accumulator.entryAt wire).emittedLength =
    if (state.toolBlockIndex.find? wire).isSome
      then (state.accumulator.entryAt wire).arguments.length else 0
  toolArguments : ∀ wire index block, state.toolBlockIndex.find? wire = some index →
    asm.openBlocks.find? index = some block →
    block.arguments = (state.accumulator.entryAt wire).arguments

structure Tracks (state : StreamState) (asm : BlockAssembler) (routing : Routing) : Prop where
  layout : Layout state asm
  calls : Calls state asm routing

theorem tracks_initial : Tracks .initial .fresh .none where
  layout :=
    { fed := rfl
      next := rfl
      unfinished := rfl
      quiet := by simp [StreamState.initial]
      owned := by
        intro index
        constructor
        · intro below
          exact absurd below (Nat.not_lt_zero index)
        · rintro ⟨owner, found⟩
          cases owner <;> cases found
      separate := by
        intro left right index found _
        cases left <;> cases found
      opened := by
        intro owner index found
        cases owner <;> cases found
      starts := by
        intro index blockType member
        cases member }
  calls :=
    { gathered := gathered_fresh
      settled := fun _ => by
        simp [StreamState.initial, ToolCallAccumulator.entryAt, ToolCallAccumulator.fresh,
          ToolEntry.blank]
      sent := fun _ => rfl
      toolArguments := by
        intro wire index block found
        cases found }

/-! ### Opening a block and growing it -/

variable {asm : BlockAssembler} {routing : Routing} {state : StreamState}

theorem Layout.open {state after : StreamState} {asm : BlockAssembler}
    (layout : Layout state asm) (owner : Owner) (unowned : state.blockOf owner = none)
    (emitted : after.emitted =
      state.emitted ++ [.blockStart state.nextIndex owner.blockType])
    (nextIndex : after.nextIndex = state.nextIndex + 1)
    (blockOf : ∀ other, after.blockOf other =
      if other = owner then some state.nextIndex else state.blockOf other) :
    Layout after (asm.opened owner.blockType) := by
  have below : ∀ other index, state.blockOf other = some index → index < state.nextIndex :=
    fun other index found => (layout.owned index).mpr ⟨other, found⟩
  constructor
  · rw [emitted, BlockAssembler.feedAll_concat layout.fed, BlockAssembler.feed, layout.unfinished,
      if_neg Bool.false_ne_true, ← layout.next]
    exact if_neg (not_not.mpr rfl)
  · rw [nextIndex, ← layout.next]
    rfl
  · exact layout.unfinished
  · intro chunk member
    rw [emitted] at member
    rcases List.mem_append.mp member with earlier | last
    · exact layout.quiet chunk earlier
    · rw [List.mem_singleton.mp last]
      rfl
  · intro index
    rw [nextIndex]
    constructor
    · intro within
      by_cases newest : index = state.nextIndex
      · exact ⟨owner, by rw [blockOf, if_pos rfl, newest]⟩
      · obtain ⟨other, found⟩ := (layout.owned index).mp (by omega)
        refine ⟨other, ?_⟩
        rw [blockOf, if_neg, found]
        intro same
        rw [same, unowned] at found
        cases found
    · rintro ⟨other, found⟩
      rw [blockOf] at found
      by_cases same : other = owner
      · rw [if_pos same] at found
        cases found
        exact Nat.lt_succ_self _
      · rw [if_neg same] at found
        exact Nat.lt_succ_of_lt (below other index found)
  · intro left right index foundLeft foundRight
    rw [blockOf] at foundLeft foundRight
    by_cases sameLeft : left = owner
    · by_cases sameRight : right = owner
      · rw [sameLeft, sameRight]
      · rw [if_pos sameLeft] at foundLeft
        rw [if_neg sameRight] at foundRight
        cases foundLeft
        exact absurd (below right _ foundRight) (Nat.lt_irrefl _)
    · rw [if_neg sameLeft] at foundLeft
      by_cases sameRight : right = owner
      · rw [if_pos sameRight] at foundRight
        cases foundRight
        exact absurd (below left _ foundLeft) (Nat.lt_irrefl _)
      · rw [if_neg sameRight] at foundRight
        exact layout.separate left right index foundLeft foundRight
  · intro other index found
    rw [blockOf] at found
    simp only [BlockAssembler.opened]
    rw [layout.next]
    by_cases same : other = owner
    · rw [if_pos same] at found
      cases found
      exact ⟨_, KeyedTable.find?_set_self .., by rw [same]; rfl⟩
    · rw [if_neg same] at found
      have older := below other index found
      rw [KeyedTable.find?_set_ne _ _ (by omega)]
      exact layout.opened other index found
  · intro index blockType member
    rw [emitted] at member
    rcases List.mem_append.mp member with earlier | last
    · obtain ⟨other, found, typed⟩ := layout.starts index blockType earlier
      refine ⟨other, ?_, typed⟩
      rw [blockOf, if_neg, found]
      intro same
      rw [same, unowned] at found
      cases found
    · cases List.mem_singleton.mp last
      exact ⟨owner, by rw [blockOf, if_pos rfl], rfl⟩

theorem Layout.grow {state after : StreamState} (layout : Layout state asm) {owner : Owner}
    {index : Nat} {block larger : OpenBlock} {chunk : StreamChunk}
    (found : state.blockOf owner = some index) (present : asm.openBlocks.find? index = some block)
    (accepted : asm.feed chunk = .ok (asm.grown index larger))
    (sameType : larger.blockType = block.blockType) (notFinish : chunk.isFinish = false)
    (notStart : ∀ index, chunk.startsBlock index = false)
    (emitted : after.emitted = state.emitted ++ [chunk])
    (nextIndex : after.nextIndex = state.nextIndex) (blockOf : after.blockOf = state.blockOf) :
    Layout after (asm.grown index larger) := by
  constructor
  · rw [emitted, BlockAssembler.feedAll_concat layout.fed]
    exact accepted
  · rw [nextIndex]
    exact layout.next
  · exact layout.unfinished
  · intro other member
    rw [emitted] at member
    rcases List.mem_append.mp member with earlier | last
    · exact layout.quiet other earlier
    · rw [List.mem_singleton.mp last]
      exact notFinish
  · rw [nextIndex, blockOf]
    exact layout.owned
  · rw [blockOf]
    exact layout.separate
  · intro other position placed
    rw [blockOf] at placed
    simp only [BlockAssembler.grown]
    by_cases same : index = position
    · subst position
      obtain rfl := layout.separate owner other index found placed
      obtain ⟨previous, previousAt, previousType⟩ := layout.opened owner index found
      rw [present] at previousAt
      cases previousAt
      exact ⟨larger, KeyedTable.find?_set_self .., sameType.trans previousType⟩
    · rw [KeyedTable.find?_set_ne _ _ same]
      exact layout.opened other position placed
  · intro position blockType member
    rw [emitted] at member
    rw [blockOf]
    rcases List.mem_append.mp member with earlier | last
    · exact layout.starts position blockType earlier
    · have starting := notStart position
      rw [← List.mem_singleton.mp last] at starting
      simp [StreamChunk.startsBlock] at starting

theorem Layout.congr {state after : StreamState} (layout : Layout state asm)
    (emitted : after.emitted = state.emitted) (nextIndex : after.nextIndex = state.nextIndex)
    (blockOf : after.blockOf = state.blockOf) : Layout after asm where
  fed := by rw [emitted]; exact layout.fed
  next := by rw [nextIndex]; exact layout.next
  unfinished := layout.unfinished
  quiet := by rw [emitted]; exact layout.quiet
  owned := by rw [nextIndex, blockOf]; exact layout.owned
  separate := by rw [blockOf]; exact layout.separate
  opened := by rw [blockOf]; exact layout.opened
  starts := by rw [emitted, blockOf]; exact layout.starts

theorem Calls.congr {state after : StreamState} {asm later : BlockAssembler} {routing : Routing}
    (calls : Calls state asm routing) (accumulator : after.accumulator = state.accumulator)
    (toolBlockIndex : after.toolBlockIndex = state.toolBlockIndex)
    (sameOpen : ∀ wire index, state.toolBlockIndex.find? wire = some index →
      later.openBlocks.find? index = asm.openBlocks.find? index) :
    Calls after later routing where
  gathered := by rw [accumulator]; exact calls.gathered
  settled := by rw [accumulator, toolBlockIndex]; exact calls.settled
  sent := by rw [accumulator, toolBlockIndex]; exact calls.sent
  toolArguments := by
    intro wire index block found present
    rw [toolBlockIndex] at found
    rw [sameOpen wire index found] at present
    rw [accumulator]
    exact calls.toolArguments wire index block found present

theorem Tracks.congr {state after : StreamState} (tracks : Tracks state asm routing)
    (emitted : after.emitted = state.emitted) (nextIndex : after.nextIndex = state.nextIndex)
    (blockOf : after.blockOf = state.blockOf) (accumulator : after.accumulator = state.accumulator)
    (toolBlockIndex : after.toolBlockIndex = state.toolBlockIndex) : Tracks after asm routing where
  layout := tracks.layout.congr emitted nextIndex blockOf
  calls := tracks.calls.congr accumulator toolBlockIndex fun _ _ _ => rfl

/-! ### Reasoning and text -/

private theorem Tracks.openPlain {state after : StreamState} {asm : BlockAssembler}
    {routing : Routing} (tracks : Tracks state asm routing) (owner : Owner)
    (unowned : state.blockOf owner = none)
    (emitted : after.emitted = state.emitted ++ [.blockStart state.nextIndex owner.blockType])
    (nextIndex : after.nextIndex = state.nextIndex + 1)
    (blockOf : ∀ other, after.blockOf other =
      if other = owner then some state.nextIndex else state.blockOf other)
    (accumulator : after.accumulator = state.accumulator)
    (toolBlockIndex : after.toolBlockIndex = state.toolBlockIndex) :
    Tracks after (asm.opened owner.blockType) routing where
  layout := tracks.layout.open owner unowned emitted nextIndex blockOf
  calls := tracks.calls.congr accumulator toolBlockIndex (by
    intro wire index found
    have below := (tracks.layout.owned index).mpr ⟨.tool wire, found⟩
    have different : asm.nextIndex ≠ index := by
      have next := tracks.layout.next
      omega
    exact KeyedTable.find?_set_ne _ _ different)

private theorem Tracks.growPlain {state after : StreamState} {asm : BlockAssembler}
    {routing : Routing} (tracks : Tracks state asm routing) {owner : Owner} {index : Nat}
    {block larger : OpenBlock} {chunk : StreamChunk} (plain : ∀ wire, owner ≠ .tool wire)
    (found : state.blockOf owner = some index) (present : asm.openBlocks.find? index = some block)
    (accepted : asm.feed chunk = .ok (asm.grown index larger))
    (sameType : larger.blockType = block.blockType) (notFinish : chunk.isFinish = false)
    (notStart : ∀ index, chunk.startsBlock index = false)
    (emitted : after.emitted = state.emitted ++ [chunk])
    (nextIndex : after.nextIndex = state.nextIndex) (blockOf : after.blockOf = state.blockOf)
    (accumulator : after.accumulator = state.accumulator)
    (toolBlockIndex : after.toolBlockIndex = state.toolBlockIndex) :
    Tracks after (asm.grown index larger) routing where
  layout := tracks.layout.grow found present accepted sameType notFinish notStart emitted nextIndex blockOf
  calls := tracks.calls.congr accumulator toolBlockIndex (by
    intro wire position placed
    have different : index ≠ position := by
      intro same
      subst position
      exact plain wire (tracks.layout.separate owner (.tool wire) index found placed)
    exact KeyedTable.find?_set_ne _ _ different)

theorem openReasoning_tracks (tracks : Tracks state asm routing) :
    ∃ next index, Tracks state.openReasoning next routing ∧
      state.openReasoning.reasoningIndex = some index := by
  unfold StreamState.openReasoning
  cases found : state.reasoningIndex with
  | some index => exact ⟨asm, index, tracks, found⟩
  | none =>
      refine ⟨asm.opened .reasoning, state.nextIndex,
        tracks.openPlain .reasoning found rfl rfl ?_ rfl rfl, rfl⟩
      intro other
      cases other <;> rfl

theorem onReasoning_tracks (tracks : Tracks state asm routing) (reasoning : String) :
    ∃ next, Tracks (state.onReasoning reasoning) next routing := by
  unfold StreamState.onReasoning
  by_cases blank : reasoning = ""
  · rw [if_pos blank]
    exact ⟨asm, tracks⟩
  · rw [if_neg blank]
    obtain ⟨middle, index, opened, placed⟩ := openReasoning_tracks tracks
    obtain ⟨block, present, blockType⟩ := opened.layout.opened .reasoning index placed
    have plain : ∀ wire, Owner.reasoning ≠ .tool wire := fun _ same => by cases same
    have accepted : middle.feed (.reasoningDelta index reasoning) =
        .ok (middle.grown index { block with text := block.text ++ reasoning }) := by
      rw [BlockAssembler.feed, opened.layout.unfinished, if_neg Bool.false_ne_true]
      exact BlockAssembler.feedDelta_grows reasoning present blockType
    refine ⟨_, opened.growPlain plain placed present accepted rfl rfl (fun _ => rfl)
      ?_ rfl ?_ rfl rfl⟩
    · simp [StreamState.yield, placed]
    · exact funext fun owner => by cases owner <;> rfl

theorem openText_tracks (tracks : Tracks state asm routing) :
    ∃ next index, Tracks state.openText next routing ∧ state.openText.textIndex = some index := by
  unfold StreamState.openText
  cases found : state.textIndex with
  | some index => exact ⟨asm, index, tracks, found⟩
  | none =>
      refine ⟨asm.opened .text, state.nextIndex,
        tracks.openPlain .text found rfl rfl ?_ rfl rfl, rfl⟩
      intro other
      cases other <;> rfl

theorem onContent_tracks (tracks : Tracks state asm routing) (content : String) :
    ∃ next, Tracks (state.onContent content) next routing := by
  unfold StreamState.onContent
  by_cases blank : content = ""
  · rw [if_pos blank]
    exact ⟨asm, tracks⟩
  · rw [if_neg blank]
    obtain ⟨middle, index, opened, placed⟩ := openText_tracks tracks
    obtain ⟨block, present, blockType⟩ := opened.layout.opened .text index placed
    have plain : ∀ wire, Owner.text ≠ .tool wire := fun _ same => by cases same
    have accepted : middle.feed (.textDelta index content) =
        .ok (middle.grown index { block with text := block.text ++ content }) := by
      rw [BlockAssembler.feed, opened.layout.unfinished, if_neg Bool.false_ne_true]
      exact BlockAssembler.feedDelta_grows content present blockType
    refine ⟨_, opened.growPlain plain placed present accepted rfl rfl (fun _ => rfl)
      ?_ rfl ?_ rfl rfl⟩
    · simp [StreamState.yield, placed]
    · exact funext fun owner => by cases owner <;> rfl

/-! ### Tool calls -/

private theorem unsent_append (sent fragment : String) (entry : ToolEntry)
    (arguments : entry.arguments = sent ++ fragment) (length : entry.emittedLength = sent.length) :
    entry.unsent = fragment := by
  unfold ToolEntry.unsent
  rw [arguments, length, String.toList_append, ← String.length_toList, List.drop_left,
    String.ofList_toList]

private theorem Calls.settledEntry (calls : Calls state asm routing) (delta : ToolCallDelta)
    (nothing : (state.accumulator.absorbed delta).hasUnsent = false) :
    let wire := state.accumulator.wireIndex delta
    let entry := state.accumulator.absorbed delta
    ((state.toolBlockIndex.find? wire).isSome ↔ entry.id ≠ "" ∧ entry.arguments ≠ "") ∧
      entry.emittedLength =
        (if (state.toolBlockIndex.find? wire).isSome then entry.arguments.length else 0) ∧
      ((state.toolBlockIndex.find? wire).isSome →
        entry.arguments = (state.accumulator.entryAt wire).arguments) := by
  intro wire entry
  have settled := calls.settled wire
  have sent : entry.emittedLength = _ := calls.sent wire
  have grown : entry.arguments =
      (state.accumulator.entryAt wire).arguments ++ delta.argumentsFragment := rfl
  have bounded : entry.id ≠ "" → entry.arguments.length ≤ entry.emittedLength := by
    intro identified
    have unsent : ¬ (entry.id ≠ "" ∧ entry.arguments.length > entry.emittedLength) := by
      simpa [ToolEntry.hasUnsent] using nothing
    exact Nat.le_of_not_lt fun longer => unsent ⟨identified, longer⟩
  by_cases opened : (state.toolBlockIndex.find? wire).isSome
  · obtain ⟨oldId, oldArguments⟩ := settled.mp opened
    rw [if_pos opened] at sent
    have identified : entry.id ≠ "" := by
      change (if delta.callId ≠ "" then delta.callId else _) ≠ ""
      split
      · assumption
      · exact oldId
    have fits := bounded identified
    rw [sent, grown, String.length_append] at fits
    have blank : delta.argumentsFragment = "" :=
      String.length_eq_zero_iff.mp (by omega)
    have same : entry.arguments = (state.accumulator.entryAt wire).arguments := by
      rw [grown, blank, String.append_empty]
    refine ⟨⟨fun _ => ⟨identified, same ▸ oldArguments⟩, fun _ => opened⟩, ?_, fun _ => same⟩
    rw [if_pos opened, sent, same]
  · rw [if_neg opened] at sent
    refine ⟨⟨fun present => absurd present opened, ?_⟩, ?_, fun present => absurd present opened⟩
    · rintro ⟨identified, nonempty⟩
      have fits := bounded identified
      rw [sent] at fits
      exact absurd (String.length_eq_zero_iff.mp (Nat.le_zero.mp fits)) nonempty
    · rw [if_neg opened, sent]

private theorem onToolCall_quiet (tracks : Tracks state asm routing) (delta : ToolCallDelta)
    (nothing : (state.accumulator.absorbed delta).hasUnsent = false) :
    Tracks { state with accumulator := (state.accumulator.feed delta).1 } asm
      (routing.add delta) := by
  obtain ⟨settledHere, sentHere, sameHere⟩ := tracks.calls.settledEntry delta nothing
  have settleSelf : (state.accumulator.absorbed delta).settle = state.accumulator.absorbed delta := by
    rw [ToolEntry.settle, nothing, if_neg Bool.false_ne_true]
  refine ⟨tracks.layout.congr rfl rfl (funext fun owner => by cases owner <;> rfl), ?_⟩
  constructor
  · exact gathered_feed tracks.calls.gathered delta
  · intro wire
    simp only [ToolCallAccumulator.entryAt_feed, settleSelf]
    by_cases here : state.accumulator.wireIndex delta = wire
    · subst wire
      rw [if_pos rfl]
      exact settledHere
    · rw [if_neg here]
      exact tracks.calls.settled wire
  · intro wire
    simp only [ToolCallAccumulator.entryAt_feed, settleSelf]
    by_cases here : state.accumulator.wireIndex delta = wire
    · subst wire
      rw [if_pos rfl]
      exact sentHere
    · rw [if_neg here]
      exact tracks.calls.sent wire
  · intro wire index block found present
    simp only [ToolCallAccumulator.entryAt_feed, settleSelf]
    have arguments := tracks.calls.toolArguments wire index block found present
    by_cases here : state.accumulator.wireIndex delta = wire
    · subst wire
      rw [if_pos rfl, arguments]
      exact (sameHere (by rw [show state.toolBlockIndex.find? _ = some index from found]; rfl)).symm
    · rw [if_neg here]
      exact arguments

private structure ToolOpened (state : StreamState) (asm : BlockAssembler) (wire : Int)
    (middle : BlockAssembler) (index : Nat) (block : OpenBlock) : Prop where
  layout : Layout (state.openTool wire) middle
  found : (state.openTool wire).toolBlockIndex.find? wire = some index
  present : middle.openBlocks.find? index = some block
  typed : block.blockType = .toolCall
  origin : (state.toolBlockIndex.find? wire = some index ∧ asm.openBlocks.find? index = some block) ∨
    (state.toolBlockIndex.find? wire = none ∧ block.arguments = "")
  others : ∀ other, other ≠ wire →
    (state.openTool wire).toolBlockIndex.find? other = state.toolBlockIndex.find? other
  othersOpen : ∀ other position, other ≠ wire → state.toolBlockIndex.find? other = some position →
    middle.openBlocks.find? position = asm.openBlocks.find? position

private theorem openTool_opened (layout : Layout state asm) (wire : Int) :
    ∃ middle index block, ToolOpened state asm wire middle index block := by
  cases found : state.toolBlockIndex.find? wire with
  | some index =>
      have unchanged : state.openTool wire = state := by
        unfold StreamState.openTool
        rw [found]
      obtain ⟨block, present, typed⟩ := layout.opened (.tool wire) index found
      exact ⟨asm, index, block,
        { layout := by rw [unchanged]; exact layout
          found := by rw [unchanged]; exact found
          present := present
          typed := typed
          origin := Or.inl ⟨found, present⟩
          others := fun _ _ => by rw [unchanged]
          othersOpen := fun _ _ _ _ => rfl }⟩
  | none =>
      have changed : state.openTool wire =
          { state with
            toolBlockIndex := state.toolBlockIndex.set wire state.nextIndex
            nextIndex := state.nextIndex + 1 }.yield (.blockStart state.nextIndex .toolCall) := by
        unfold StreamState.openTool
        rw [found]
      have opened : Layout (state.openTool wire) (asm.opened .toolCall) := by
        rw [changed]
        refine layout.open (.tool wire) found rfl rfl ?_
        intro other
        cases other with
        | reasoning => rfl
        | text => rfl
        | tool other =>
            by_cases same : other = wire
            · subst other
              rw [if_pos rfl]
              exact KeyedTable.find?_set_self ..
            · rw [if_neg (fun equal => same (Owner.tool.inj equal))]
              exact KeyedTable.find?_set_ne _ _ (Ne.symm same)
      refine ⟨asm.opened .toolCall, state.nextIndex, .start state.nextIndex .toolCall, ?_⟩
      exact
        { layout := opened
          found := by rw [changed]; exact KeyedTable.find?_set_self ..
          present := by rw [← layout.next]; exact KeyedTable.find?_set_self ..
          typed := rfl
          origin := Or.inr ⟨found, rfl⟩
          others := by
            intro other different
            rw [changed]
            exact KeyedTable.find?_set_ne _ _ (Ne.symm different)
          othersOpen := by
            intro other position _ placed
            have below := (layout.owned position).mpr ⟨.tool other, placed⟩
            have next := layout.next
            exact KeyedTable.find?_set_ne _ _ (by omega) }

private theorem onToolCall_sent (tracks : Tracks state asm routing) (delta : ToolCallDelta)
    (something : (state.accumulator.absorbed delta).hasUnsent = true) :
    let wire := state.accumulator.wireIndex delta
    let entry := state.accumulator.absorbed delta
    let opened := { state with accumulator := (state.accumulator.feed delta).1 }.openTool wire
    ∃ next, Tracks (opened.yield (.toolCallDelta ((opened.toolBlockIndex.find? wire).getD 0)
      entry.id entry.name entry.unsent)) next (routing.add delta) := by
  intro wire entry opened
  have base : Layout { state with accumulator := (state.accumulator.feed delta).1 } asm :=
    tracks.layout.congr rfl rfl (funext fun owner => by cases owner <;> rfl)
  obtain ⟨middle, index, block, toolOpened⟩ := openTool_opened base wire
  obtain ⟨larger, accepted, sameType, arguments⟩ : ∃ larger,
      middle.feed (.toolCallDelta index entry.id entry.name entry.unsent) =
        .ok (middle.grown index larger) ∧ larger.blockType = block.blockType ∧
      larger.arguments = block.arguments ++ entry.unsent :=
    ⟨_, BlockAssembler.feed_toolDelta entry.id entry.name entry.unsent
      toolOpened.layout.unfinished toolOpened.present toolOpened.typed, rfl, rfl⟩
  have accumulatorSame : opened.accumulator = (state.accumulator.feed delta).1 := by
    change (StreamState.openTool _ wire).accumulator = _
    unfold StreamState.openTool
    split <;> rfl
  have sent := tracks.calls.sent wire
  -- The block holds exactly the part of the arguments that was sent before.
  have complete : larger.arguments = entry.arguments := by
    rw [arguments]
    rcases toolOpened.origin with ⟨found, present⟩ | ⟨absent, blank⟩
    · have held := tracks.calls.toolArguments wire index block found present
      rw [if_pos (by rw [show state.toolBlockIndex.find? wire = some index from found]; rfl)] at sent
      rw [unsent_append block.arguments delta.argumentsFragment entry
        (by rw [held]; rfl) (by rw [held]; exact sent), held]
      rfl
    · rw [if_neg (by rw [show state.toolBlockIndex.find? wire = none from absent]; simp)] at sent
      rw [unsent_append "" entry.arguments entry
        (by rw [String.empty_append]) sent, blank, String.empty_append]
  obtain ⟨identified, longer⟩ : entry.id ≠ "" ∧ entry.arguments.length > entry.emittedLength := by
    simpa [ToolEntry.hasUnsent] using something
  have nonempty : entry.arguments ≠ "" := by
    intro blank
    rw [blank] at longer
    exact absurd longer (Nat.not_lt_zero _)
  have settleSent : entry.settle = entry.markSent := by
    rw [ToolEntry.settle, something, if_pos rfl]
  refine ⟨middle.grown index larger, ?_, ?_⟩
  · have owned : opened.blockOf (.tool wire) = some index := toolOpened.found
    refine toolOpened.layout.grow owned toolOpened.present accepted sameType rfl
      (fun _ => rfl) ?_ rfl (funext fun owner => by cases owner <;> rfl)
    change opened.emitted ++ _ = opened.emitted ++ _
    rw [show opened.toolBlockIndex.find? wire = some index from toolOpened.found]
    rfl
  · constructor
    · change Gathered (routing.add delta) opened.accumulator
      rw [accumulatorSame]
      exact gathered_feed tracks.calls.gathered delta
    · intro other
      change (opened.toolBlockIndex.find? other).isSome ↔ (opened.accumulator.entryAt other).id ≠ "" ∧
        (opened.accumulator.entryAt other).arguments ≠ ""
      rw [accumulatorSame, ToolCallAccumulator.entryAt_feed]
      by_cases here : wire = other
      · subst other
        rw [if_pos rfl, show opened.toolBlockIndex.find? wire = _ from toolOpened.found]
        simp only [ToolEntry.settle_id, ToolEntry.settle_arguments, Option.isSome_some, true_iff]
        exact ⟨identified, nonempty⟩
      · rw [if_neg here, show opened.toolBlockIndex.find? other = _ from
          toolOpened.others other (Ne.symm here)]
        exact tracks.calls.settled other
    · intro other
      change (opened.accumulator.entryAt other).emittedLength =
        if (opened.toolBlockIndex.find? other).isSome
          then (opened.accumulator.entryAt other).arguments.length else 0
      rw [accumulatorSame, ToolCallAccumulator.entryAt_feed]
      by_cases here : wire = other
      · subst other
        rw [if_pos rfl, show opened.toolBlockIndex.find? wire = _ from toolOpened.found]
        change entry.settle.emittedLength = if true = true then entry.settle.arguments.length else 0
        rw [if_pos rfl, settleSent]
        rfl
      · rw [if_neg here, show opened.toolBlockIndex.find? other = _ from
          toolOpened.others other (Ne.symm here)]
        exact tracks.calls.sent other
    · intro other position held placed present
      change opened.toolBlockIndex.find? other = some position at placed
      change held.arguments = (opened.accumulator.entryAt other).arguments
      rw [accumulatorSame, ToolCallAccumulator.entryAt_feed]
      by_cases here : wire = other
      · subst other
        have same := Option.some.inj (placed.symm.trans toolOpened.found)
        subst position
        simp only [BlockAssembler.grown, KeyedTable.find?_set_self, Option.some.injEq] at present
        subst held
        rw [if_pos rfl, ToolEntry.settle_arguments]
        exact complete
      · have placedBefore := placed
        rw [show opened.toolBlockIndex.find? other = _ from
          toolOpened.others other (Ne.symm here)] at placedBefore
        have different : index ≠ position := by
          intro same
          subst position
          exact here (Owner.tool.inj (toolOpened.layout.separate (.tool wire) (.tool other) index
            toolOpened.found placed))
        simp only [BlockAssembler.grown, KeyedTable.find?_set_ne _ _ different] at present
        rw [toolOpened.othersOpen other position (Ne.symm here) placedBefore] at present
        rw [if_neg here]
        exact tracks.calls.toolArguments other position held placedBefore present

theorem onToolCall_tracks (tracks : Tracks state asm routing) (delta : ToolCallDelta) :
    ∃ next, Tracks (state.onToolCall delta) next (routing.add delta) := by
  have event := state.accumulator.feed_event delta
  unfold StreamState.onToolCall
  cases fed : state.accumulator.feed delta with
  | mk accumulator sent =>
      rw [fed] at event
      cases unsent : (state.accumulator.absorbed delta).hasUnsent with
      | false =>
          rw [unsent, if_neg Bool.false_ne_true] at event
          subst event
          have quiet := onToolCall_quiet tracks delta unsent
          rw [fed] at quiet
          exact ⟨asm, quiet⟩
      | true =>
          rw [unsent, if_pos rfl] at event
          subst event
          have result := onToolCall_sent tracks delta unsent
          rw [fed] at result
          exact result

private theorem toolCalls_tracks (deltas : List ToolCallDelta) (tracks : Tracks state asm routing) :
    ∃ next, Tracks (deltas.foldl StreamState.onToolCall state) next
      (deltas.foldl Routing.add routing) := by
  induction deltas generalizing state asm routing with
  | nil => exact ⟨asm, tracks⟩
  | cons delta rest ih =>
      obtain ⟨next, later⟩ := onToolCall_tracks tracks delta
      exact ih later

theorem onFinishReason_tracks (tracks : Tracks state asm routing) (finishReason : Option String) :
    Tracks (state.onFinishReason finishReason) asm routing := by
  unfold StreamState.onFinishReason
  by_cases blank : finishReason.getD "" = ""
  · rw [if_pos blank]
    exact tracks
  · rw [if_neg blank]
    exact tracks.congr rfl rfl (funext fun owner => by cases owner <;> rfl) rfl rfl

theorem onUsage_tracks (tracks : Tracks state asm routing) (chunk : ChatChunk) :
    Tracks (state.onUsage chunk) asm routing := by
  unfold StreamState.onUsage
  cases chunk.usage with
  | none => exact tracks
  | some usage =>
      by_cases blank : (normalizeUsage usage).entries = []
      · simp only [if_pos blank]
        exact tracks
      · simp only [if_neg blank]
        exact tracks.congr rfl rfl (funext fun owner => by cases owner <;> rfl) rfl rfl

theorem onChoice_tracks (tracks : Tracks state asm routing) (choice : Choice) :
    ∃ next, Tracks (state.onChoice choice) next
      (((choice.delta.map ChoiceDelta.toolCalls).getD []).foldl Routing.add routing) := by
  obtain ⟨_, reasoned⟩ := onReasoning_tracks tracks
    ((choice.delta.bind ChoiceDelta.reasoningContent).getD "")
  obtain ⟨_, answered⟩ := onContent_tracks reasoned
    ((choice.delta.bind ChoiceDelta.content).getD "")
  obtain ⟨last, called⟩ := toolCalls_tracks
    ((choice.delta.map ChoiceDelta.toolCalls).getD []) answered
  exact ⟨last, onFinishReason_tracks called choice.finishReason⟩

theorem onChunk_tracks (tracks : Tracks state asm routing) (chunk : ChatChunk) :
    ∃ next, Tracks (state.onChunk chunk) next (chunk.toolCallDeltas.foldl Routing.add routing) := by
  have described : Tracks (state.onMetadata chunk) asm routing :=
    tracks.congr rfl rfl (funext fun owner => by cases owner <;> rfl) rfl rfl
  have recorded := onUsage_tracks described chunk
  unfold StreamState.onChunk ChatChunk.toolCallDeltas
  cases chunk.choices with
  | nil => exact ⟨asm, recorded⟩
  | cons choice _ => exact onChoice_tracks recorded choice

theorem consume_tracks (arrivals : List Arrival) {state : StreamState} {asm : BlockAssembler}
    {routing : Routing} (tracks : Tracks state asm routing) :
    ∃ next, Tracks (state.consume arrivals) next ((arrivedCalls arrivals).foldl Routing.add routing) := by
  induction arrivals generalizing state asm routing with
  | nil => exact ⟨asm, tracks⟩
  | cons arrival rest ih =>
      unfold StreamState.consume arrivedCalls
      by_cases cancelled : arrival.cancelled = true
      · rw [if_pos cancelled, if_pos cancelled]
        exact ⟨asm, tracks⟩
      · rw [if_neg cancelled, if_neg cancelled, List.foldl_append]
        obtain ⟨_, stepped⟩ := onChunk_tracks tracks arrival.chunk
        exact ih stepped

end Ftre.Llm
