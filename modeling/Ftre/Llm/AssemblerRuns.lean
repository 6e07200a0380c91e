import Ftre.Llm.BlockAssembler

/-!
What an accepted chunk sequence leaves in the assembler.
-/

namespace Ftre.Llm

open Lib

/-- The concatenation of the argument deltas sent for the block at `index`. -/
def argumentsAt (index : Nat) (chunks : List StreamChunk) : String :=
  String.join (chunks.map fun chunk => chunk.argumentsFor index)

def startsAt (index : Nat) (chunks : List StreamChunk) : Prop :=
  ∃ chunk ∈ chunks, chunk.startsBlock index = true

def endCount (index : Nat) (chunks : List StreamChunk) : Nat :=
  chunks.countP fun chunk => chunk.endsBlock index

theorem argumentsAt_concat (index : Nat) (chunks : List StreamChunk) (chunk : StreamChunk) :
    argumentsAt index (chunks ++ [chunk]) = argumentsAt index chunks ++ chunk.argumentsFor index := by
  simp [argumentsAt]

theorem startsAt_concat (index : Nat) (chunks : List StreamChunk) (chunk : StreamChunk) :
    startsAt index (chunks ++ [chunk]) ↔ startsAt index chunks ∨ chunk.startsBlock index = true := by
  simp [startsAt, or_and_right, exists_or]

theorem endCount_concat (index : Nat) (chunks : List StreamChunk) (chunk : StreamChunk) :
    endCount index (chunks ++ [chunk]) =
      endCount index chunks + if chunk.endsBlock index then 1 else 0 := by
  simp [endCount, List.countP_append, List.countP_singleton]

namespace BlockAssembler

/-! ### What one accepted chunk does -/

def opened (asm : BlockAssembler) (blockType : BlockType) : BlockAssembler :=
  { asm with
    openBlocks := asm.openBlocks.set asm.nextIndex (OpenBlock.start asm.nextIndex blockType)
    pending := insert asm.nextIndex asm.pending
    nextIndex := asm.nextIndex + 1 }

def grown (asm : BlockAssembler) (index : Nat) (block : OpenBlock) : BlockAssembler :=
  { asm with openBlocks := asm.openBlocks.set index block }

def closed (asm : BlockAssembler) (index : Nat) (block : OpenBlock) : BlockAssembler :=
  { asm with
    openBlocks := asm.openBlocks.erase index
    pending := asm.pending.erase index
    blockTable := asm.blockTable.set index (finalizeBlock block) }

/-- A chunk that grows the block at `index` and touches no other. -/
structure Grows (chunk : StreamChunk) (index : Nat) (before after : OpenBlock) : Prop where
  arguments : after.arguments = before.arguments ++ chunk.argumentsFor index
  sameType : after.blockType = before.blockType
  elsewhere : ∀ other, other ≠ index → chunk.argumentsFor other = ""
  startsNone : ∀ other, chunk.startsBlock other = false
  endsNone : ∀ other, chunk.endsBlock other = false
  notFinish : chunk.isFinish = false

inductive Fed (asm : BlockAssembler) : StreamChunk → BlockAssembler → Prop where
  | start (blockType : BlockType) :
      Fed asm (.blockStart asm.nextIndex blockType) (asm.opened blockType)
  | grow (chunk : StreamChunk) (index : Nat) (before after : OpenBlock)
      (found : asm.openBlocks.find? index = some before) (grows : Grows chunk index before after) :
      Fed asm chunk (asm.grown index after)
  | close (index : Nat) (wireBlock : Option WireBlock) (block : OpenBlock)
      (found : asm.openBlocks.find? index = some block)
      (agrees : mismatchedEnd block wireBlock = none) :
      Fed asm (.blockEnd index wireBlock) (asm.closed index block)
  | usage (usage : Option Usage) : Fed asm (.usage usage) { asm with usage := usage }
  | finish (reason : FinishReason) :
      Fed asm (.finish reason) { asm with finish := some reason, finished := true }

variable {asm : BlockAssembler} {index : Nat} {block : OpenBlock} {chunk : StreamChunk}
  {chunks : List StreamChunk}

private theorem requireOpen_found (required : asm.requireOpen index = .ok block) :
    asm.openBlocks.find? index = some block := by
  unfold requireOpen at required
  cases found : asm.openBlocks.find? index with
  | none => rw [found] at required; cases required
  | some present =>
      rw [found] at required
      cases required
      rfl

variable {asm next : BlockAssembler}

variable {expectedType : BlockType} {before chunks : List StreamChunk} {asm final : BlockAssembler}

private theorem feedDelta_fed {text : String}
    (accepted : asm.feedDelta index expectedType text = .ok next) :
    ∃ before, asm.openBlocks.find? index = some before ∧
      next = asm.grown index { before with text := before.text ++ text } := by
  unfold feedDelta at accepted
  cases required : asm.requireOpen index with
  | error _ => rw [required] at accepted; cases accepted
  | ok block =>
      rw [required] at accepted
      by_cases mismatch : block.blockType ≠ expectedType
      · simp only [if_pos mismatch] at accepted
        cases accepted
      · simp only [if_neg mismatch] at accepted
        cases accepted
        exact ⟨block, requireOpen_found required, rfl⟩

private theorem feedToolDelta_fed {callId name argumentsDelta : String}
    (accepted : asm.feedToolDelta index callId name argumentsDelta = .ok next) :
    ∃ before after, asm.openBlocks.find? index = some before ∧ next = asm.grown index after ∧
      after.arguments = before.arguments ++ argumentsDelta ∧
      after.blockType = before.blockType := by
  unfold feedToolDelta at accepted
  cases required : asm.requireOpen index with
  | error _ => rw [required] at accepted; cases accepted
  | ok block =>
      rw [required] at accepted
      by_cases mismatch : block.blockType ≠ .toolCall
      · simp only [if_pos mismatch] at accepted
        cases accepted
      · simp only [if_neg mismatch] at accepted
        cases accepted
        exact ⟨block, _, requireOpen_found required, rfl, rfl, rfl⟩

private theorem feedEnd_fed {wireBlock : Option WireBlock}
    (accepted : asm.feedEnd index wireBlock = .ok next) :
    Fed asm (.blockEnd index wireBlock) next := by
  unfold feedEnd at accepted
  cases required : asm.requireOpen index with
  | error _ => rw [required] at accepted; cases accepted
  | ok block =>
      rw [required] at accepted
      cases agrees : mismatchedEnd block wireBlock with
      | some _ => simp only [agrees] at accepted; cases accepted
      | none =>
          simp only [agrees] at accepted
          cases accepted
          exact .close index wireBlock block (requireOpen_found required) agrees

theorem feed_cases (accepted : asm.feed chunk = .ok next) :
    asm.finished = false ∧ Fed asm chunk next := by
  unfold feed at accepted
  by_cases finished : asm.finished = true
  · rw [if_pos finished] at accepted
    cases accepted
  · rw [if_neg finished] at accepted
    refine ⟨Bool.eq_false_of_not_eq_true finished, ?_⟩
    cases chunk with
    | blockStart index blockType =>
        simp only [feedStart] at accepted
        by_cases unexpected : index ≠ asm.nextIndex
        · rw [if_pos unexpected] at accepted
          cases accepted
        · rw [if_neg unexpected] at accepted
          cases accepted
          obtain rfl := not_not.mp unexpected
          exact .start blockType
    | textDelta index text =>
        obtain ⟨before, found, rfl⟩ := feedDelta_fed accepted
        exact .grow _ index before _ found
          ⟨by simp [StreamChunk.argumentsFor], rfl, fun _ _ => rfl, fun _ => rfl, fun _ => rfl, rfl⟩
    | reasoningDelta index text =>
        obtain ⟨before, found, rfl⟩ := feedDelta_fed accepted
        exact .grow _ index before _ found
          ⟨by simp [StreamChunk.argumentsFor], rfl, fun _ _ => rfl, fun _ => rfl, fun _ => rfl, rfl⟩
    | toolCallDelta index callId name argumentsDelta =>
        obtain ⟨before, after, found, rfl, arguments, sameType⟩ := feedToolDelta_fed accepted
        exact .grow _ index before _ found
          ⟨by simpa [StreamChunk.argumentsFor] using arguments, sameType,
            fun _ different => if_neg different.symm, fun _ => rfl, fun _ => rfl, rfl⟩
    | blockEnd index block => exact feedEnd_fed accepted
    | usage usage =>
        cases accepted
        exact .usage usage
    | finish reason =>
        cases accepted
        exact .finish reason

/-! ### Whole runs -/

theorem feedAll_append (asm : BlockAssembler) (initial later : List StreamChunk) :
    asm.feedAll (initial ++ later) =
      match asm.feedAll initial with
      | .error error => .error error
      | .ok middle => middle.feedAll later := by
  induction initial generalizing asm with
  | nil => rfl
  | cons chunk rest ih =>
      simp only [List.cons_append, feedAll]
      cases asm.feed chunk with
      | error _ => rfl
      | ok next => exact ih next

theorem feedAll_concat {asm middle : BlockAssembler} (fed : asm.feedAll chunks = .ok middle)
    (chunk : StreamChunk) : asm.feedAll (chunks ++ [chunk]) = middle.feed chunk := by
  rw [feedAll_append, fed]
  simp only [feedAll]
  cases middle.feed chunk <;> rfl

structure Account (chunks : List StreamChunk) (asm : BlockAssembler) : Prop where
  started : ∀ index, startsAt index chunks ↔ index < asm.nextIndex
  openPending : ∀ index, index ∈ asm.pending ↔ (asm.openBlocks.find? index).isSome
  pendingStarted : ∀ index, index ∈ asm.pending → index < asm.nextIndex
  ended : ∀ index, endCount index chunks =
    if index < asm.nextIndex ∧ index ∉ asm.pending then 1 else 0
  unstarted : ∀ index, asm.nextIndex ≤ index → argumentsAt index chunks = ""
  openArguments : ∀ index block, asm.openBlocks.find? index = some block →
    block.arguments = argumentsAt index chunks
  closedArguments : ∀ index id name arguments,
    asm.blockTable.find? index = some (.toolCall id name arguments) →
    arguments = argumentsAt index chunks
  closedStarted : ∀ index, (asm.blockTable.find? index).isSome →
    index < asm.nextIndex ∧ index ∉ asm.pending

theorem account_fresh : Account [] fresh where
  started := by simp [startsAt, fresh]
  openPending := by simp [fresh]
  pendingStarted := by simp [fresh]
  ended := by simp [endCount, fresh]
  unstarted := by simp [argumentsAt, String.join]
  openArguments := by simp [fresh]
  closedArguments := by simp [fresh]
  closedStarted := by simp [fresh]

private theorem account_opened {chunks : List StreamChunk} {asm : BlockAssembler}
    (account : Account chunks asm) (blockType : BlockType) :
    Account (chunks ++ [.blockStart asm.nextIndex blockType]) (asm.opened blockType) := by
  have absent : asm.nextIndex ∉ asm.pending := fun member =>
    Nat.lt_irrefl _ (account.pendingStarted _ member)
  have silent : ∀ index, argumentsAt index (chunks ++ [.blockStart asm.nextIndex blockType]) =
      argumentsAt index chunks := by
    intro index
    simp [argumentsAt_concat, StreamChunk.argumentsFor]
  constructor
  · intro index
    rw [startsAt_concat, account.started]
    simp only [StreamChunk.startsBlock, decide_eq_true_eq, opened]
    omega
  · intro index
    by_cases same : asm.nextIndex = index
    · subst index
      simp [opened]
    · simp only [opened, Finset.mem_insert, KeyedTable.find?_set_ne _ _ same]
      rw [account.openPending]
      simp [Ne.symm same]
  · intro index member
    rcases Finset.mem_insert.mp member with rfl | earlier
    · exact Nat.lt_succ_self _
    · exact Nat.lt_succ_of_lt (account.pendingStarted index earlier)
  · intro index
    rw [endCount_concat, account.ended]
    simp only [StreamChunk.endsBlock, Bool.false_eq_true, if_false, Nat.add_zero, opened,
      Finset.mem_insert]
    by_cases same : index = asm.nextIndex
    · subst index
      simp
    · have bounds : index < asm.nextIndex + 1 ↔ index < asm.nextIndex := by omega
      simp [same, bounds]
  · intro index bound
    rw [silent]
    exact account.unstarted index (Nat.le_of_succ_le bound)
  · intro index block found
    rw [silent]
    by_cases same : asm.nextIndex = index
    · subst index
      simp only [opened, KeyedTable.find?_set_self, Option.some.injEq] at found
      subst block
      rw [account.unstarted _ (Nat.le_refl _)]
      rfl
    · simp only [opened, KeyedTable.find?_set_ne _ _ same] at found
      exact account.openArguments index block found
  · intro index id name arguments found
    rw [silent]
    exact account.closedArguments index id name arguments found
  · intro index present
    obtain ⟨started, notPending⟩ := account.closedStarted index present
    refine ⟨Nat.lt_succ_of_lt started, fun member => ?_⟩
    rcases Finset.mem_insert.mp member with rfl | earlier
    · exact Nat.lt_irrefl _ started
    · exact notPending earlier

private theorem account_grown (account : Account chunks asm) {before after : OpenBlock}
    (found : asm.openBlocks.find? index = some before) (grows : Grows chunk index before after) :
    Account (chunks ++ [chunk]) (asm.grown index after) := by
  have pendingHere : index ∈ asm.pending := by
    rw [account.openPending, found]
    rfl
  have elsewhere : ∀ other, other ≠ index →
      argumentsAt other (chunks ++ [chunk]) = argumentsAt other chunks := by
    intro other different
    rw [argumentsAt_concat, grows.elsewhere other different, String.append_empty]
  constructor
  · intro other
    rw [startsAt_concat, account.started, grows.startsNone]
    simp [grown]
  · intro other
    rw [show (asm.grown index after).pending = asm.pending from rfl, account.openPending]
    by_cases same : index = other
    · subst other
      simp [grown, found]
    · simp [grown, KeyedTable.find?_set_ne _ _ same]
  · exact account.pendingStarted
  · intro other
    rw [endCount_concat, grows.endsNone, if_neg Bool.false_ne_true, Nat.add_zero]
    exact account.ended other
  · intro other bound
    have different : other ≠ index := by
      intro same
      subst other
      exact Nat.not_lt.mpr bound (account.pendingStarted index pendingHere)
    rw [elsewhere other different]
    exact account.unstarted other bound
  · intro other block present
    by_cases same : index = other
    · subst other
      simp only [grown, KeyedTable.find?_set_self, Option.some.injEq] at present
      subst block
      rw [argumentsAt_concat, grows.arguments, account.openArguments index before found]
    · simp only [grown, KeyedTable.find?_set_ne _ _ same] at present
      rw [elsewhere other (Ne.symm same)]
      exact account.openArguments other block present
  · intro other id name arguments present
    have closedOther := (account.closedStarted other (by
      rw [show asm.blockTable.find? other = _ from present]
      rfl)).2
    rw [elsewhere other (fun same => closedOther (same ▸ pendingHere))]
    exact account.closedArguments other id name arguments present
  · exact account.closedStarted

private theorem account_closed (account : Account chunks asm) (wireBlock : Option WireBlock)
    (found : asm.openBlocks.find? index = some block) :
    Account (chunks ++ [.blockEnd index wireBlock]) (asm.closed index block) := by
  have pendingHere : index ∈ asm.pending := by
    rw [account.openPending, found]
    rfl
  have startedHere := account.pendingStarted index pendingHere
  have silent : ∀ other, argumentsAt other (chunks ++ [.blockEnd index wireBlock]) =
      argumentsAt other chunks := by
    intro other
    simp [argumentsAt_concat, StreamChunk.argumentsFor]
  constructor
  · intro other
    rw [startsAt_concat, account.started]
    simp [StreamChunk.startsBlock, closed]
  · intro other
    simp only [closed, Finset.mem_erase]
    by_cases same : other = index
    · subst other
      simp
    · rw [KeyedTable.find?_erase_ne _ same, account.openPending]
      simp [same]
  · intro other member
    exact account.pendingStarted other (Finset.mem_of_mem_erase member)
  · intro other
    rw [endCount_concat, account.ended]
    simp only [StreamChunk.endsBlock, closed, Finset.mem_erase, decide_eq_true_eq]
    by_cases same : other = index
    · subst other
      simp [pendingHere, startedHere]
    · simp [same, Ne.symm same]
  · intro other bound
    rw [silent]
    exact account.unstarted other bound
  · intro other openBlock present
    rw [silent]
    have different : other ≠ index := by
      intro same
      subst other
      simp [closed] at present
    simp only [closed, KeyedTable.find?_erase_ne _ different] at present
    exact account.openArguments other openBlock present
  · intro other id name arguments present
    rw [silent]
    by_cases same : index = other
    · subst other
      simp only [closed, KeyedTable.find?_set_self, Option.some.injEq] at present
      have blockArguments := account.openArguments index block found
      unfold finalizeBlock at present
      cases typed : block.blockType with
      | text => rw [typed] at present; cases present
      | reasoning => rw [typed] at present; cases present
      | toolCall =>
          rw [typed] at present
          cases present
          exact blockArguments
    · simp only [closed, KeyedTable.find?_set_ne _ _ same] at present
      exact account.closedArguments other id name arguments present
  · intro other present
    by_cases same : index = other
    · subst other
      exact ⟨startedHere, Finset.notMem_erase index asm.pending⟩
    · simp only [closed, KeyedTable.find?_set_ne _ _ same] at present
      obtain ⟨started, notPending⟩ := account.closedStarted other present
      exact ⟨started, fun member => notPending (Finset.mem_of_mem_erase member)⟩

private theorem account_silent (account : Account chunks asm)
    (startsNone : ∀ index, chunk.startsBlock index = false)
    (endsNone : ∀ index, chunk.endsBlock index = false)
    (silent : ∀ index, chunk.argumentsFor index = "") (sameOpen : next.openBlocks = asm.openBlocks)
    (sameNext : next.nextIndex = asm.nextIndex) (samePending : next.pending = asm.pending)
    (sameTable : next.blockTable = asm.blockTable) : Account (chunks ++ [chunk]) next := by
  have sameArguments : ∀ index, argumentsAt index (chunks ++ [chunk]) = argumentsAt index chunks := by
    intro index
    rw [argumentsAt_concat, silent, String.append_empty]
  constructor
  · intro index
    rw [startsAt_concat, startsNone, sameNext, account.started]
    simp
  · rw [sameOpen, samePending]
    exact account.openPending
  · rw [samePending, sameNext]
    exact account.pendingStarted
  · intro index
    rw [endCount_concat, endsNone, sameNext, samePending]
    simpa using account.ended index
  · intro index bound
    rw [sameNext] at bound
    rw [sameArguments]
    exact account.unstarted index bound
  · intro index block found
    rw [sameOpen] at found
    rw [sameArguments]
    exact account.openArguments index block found
  · intro index id name arguments found
    rw [sameTable] at found
    rw [sameArguments]
    exact account.closedArguments index id name arguments found
  · rw [sameTable, sameNext, samePending]
    exact account.closedStarted

theorem account_feed (account : Account chunks asm) (accepted : asm.feed chunk = .ok next) :
    Account (chunks ++ [chunk]) next := by
  cases (feed_cases accepted).2 with
  | start blockType => exact account_opened account blockType
  | grow _ index before after found grows => exact account_grown account found grows
  | close index wireBlock block found _ => exact account_closed account wireBlock found
  | usage _ =>
      exact account_silent account (fun _ => rfl) (fun _ => rfl) (fun _ => rfl) rfl rfl rfl rfl
  | finish _ =>
      exact account_silent account (fun _ => rfl) (fun _ => rfl) (fun _ => rfl) rfl rfl rfl rfl

private theorem account_run (account : Account before asm)
    (accepted : asm.feedAll chunks = .ok final) : Account (before ++ chunks) final := by
  induction chunks generalizing before asm with
  | nil =>
      cases accepted
      rw [List.append_nil]
      exact account
  | cons chunk rest ih =>
      unfold feedAll at accepted
      cases fed : asm.feed chunk with
      | error _ => rw [fed] at accepted; cases accepted
      | ok next =>
          rw [fed] at accepted
          have result := ih (account_feed account fed) accepted
          rwa [List.append_assoc, List.singleton_append] at result

theorem account_of_accepted {final : BlockAssembler} (accepted : fresh.feedAll chunks = .ok final) :
    Account chunks final := by
  have result := account_run account_fresh accepted
  rwa [List.nil_append] at result

theorem closedOnce_iff_pending_empty {final : BlockAssembler}
    (accepted : fresh.feedAll chunks = .ok final) :
    (∀ index, startsAt index chunks → endCount index chunks = 1) ↔ final.pending = ∅ := by
  have account := account_of_accepted accepted
  constructor
  · intro closedOnce
    rw [Finset.eq_empty_iff_forall_notMem]
    intro index member
    have started := (account.started index).mpr (account.pendingStarted index member)
    have once := closedOnce index started
    rw [account.ended, if_neg (fun both => both.2 member)] at once
    cases once
  · intro none index started
    rw [account.ended, if_pos ⟨(account.started index).mp started,
      by rw [none]; exact Finset.notMem_empty index⟩]

theorem blockTable_persists (account : Account before asm)
    (accepted : asm.feedAll chunks = .ok final) {block : WireBlock}
    (finishedBlock : asm.blockTable.find? index = some block) :
    final.blockTable.find? index = some block := by
  induction chunks generalizing before asm with
  | nil =>
      cases accepted
      exact finishedBlock
  | cons chunk rest ih =>
      unfold feedAll at accepted
      cases fed : asm.feed chunk with
      | error _ => rw [fed] at accepted; cases accepted
      | ok next =>
          rw [fed] at accepted
          refine ih (account_feed account fed) accepted ?_
          cases (feed_cases fed).2 with
          | start _ => exact finishedBlock
          | grow _ _ _ _ _ _ => exact finishedBlock
          | close other _ openBlock found _ =>
              have different : other ≠ index := by
                intro same
                subst other
                refine (account.closedStarted index (by rw [finishedBlock]; rfl)).2 ?_
                rw [account.openPending, found]
                rfl
              exact (KeyedTable.find?_set_ne _ _ different).trans finishedBlock
          | usage _ => exact finishedBlock
          | finish _ => exact finishedBlock

theorem feedDelta_grows (text : String) (present : asm.openBlocks.find? index = some block)
    (typed : block.blockType = expectedType) :
    asm.feedDelta index expectedType text =
      .ok (asm.grown index { block with text := block.text ++ text }) := by
  simp only [feedDelta, requireOpen, present]
  exact if_neg (not_not.mpr typed)

def withCallDelta (block : OpenBlock) (callId name argumentsDelta : String) : OpenBlock :=
  { block with
    callId := if callId ≠ "" then callId else block.callId
    name := if name ≠ "" then name else block.name
    arguments := block.arguments ++ argumentsDelta }

theorem feed_toolDelta (callId name argumentsDelta : String) (unfinished : asm.finished = false)
    (present : asm.openBlocks.find? index = some block) (typed : block.blockType = .toolCall) :
    asm.feed (.toolCallDelta index callId name argumentsDelta) =
      .ok (asm.grown index (withCallDelta block callId name argumentsDelta)) := by
  rw [feed, unfinished, if_neg Bool.false_ne_true]
  simp only [feedToolDelta, requireOpen, present]
  exact if_neg (not_not.mpr typed)

theorem feed_end {wireBlock : WireBlock} (unfinished : asm.finished = false)
    (present : asm.openBlocks.find? index = some block)
    (typed : wireType block.blockType = wireBlock.type) :
    asm.feed (endChunk (index, wireBlock)) = .ok (asm.closed index block) := by
  have agrees : mismatchedEnd block (some wireBlock) = none :=
    if_neg (not_not.mpr typed)
  rw [endChunk, feed, unfinished, if_neg Bool.false_ne_true]
  simp only [feedEnd, requireOpen, present, agrees]
  rfl

theorem feedAll_ends (ends : List (Nat × WireBlock)) {asm : BlockAssembler}
    (unfinished : asm.finished = false) (distinct : (ends.map Prod.fst).Nodup)
    (closable : ∀ ending ∈ ends, ∃ block, asm.openBlocks.find? ending.1 = some block ∧
      wireType block.blockType = ending.2.type) :
    ∃ final, asm.feedAll (ends.map endChunk) = .ok final ∧ final.finished = false ∧
      ∀ index, index ∈ final.pending ↔ index ∈ asm.pending ∧ index ∉ ends.map Prod.fst := by
  induction ends generalizing asm with
  | nil => exact ⟨asm, rfl, unfinished, fun index => by simp⟩
  | cons head rest ih =>
      rcases head with ⟨index, wireBlock⟩
      obtain ⟨fresh, restDistinct⟩ := List.nodup_cons.mp distinct
      obtain ⟨block, present, typed⟩ := closable (index, wireBlock) List.mem_cons_self
      have fed := feed_end unfinished present typed
      have restClosable : ∀ ending ∈ rest, ∃ later,
          (asm.closed index block).openBlocks.find? ending.1 = some later ∧
            wireType later.blockType = ending.2.type := by
        intro ending member
        obtain ⟨later, laterPresent, laterTyped⟩ := closable ending (List.mem_cons_of_mem _ member)
        have different : ending.1 ≠ index := fun same =>
          fresh (List.mem_map.mpr ⟨ending, member, same⟩)
        exact ⟨later, (KeyedTable.find?_erase_ne _ different).trans laterPresent, laterTyped⟩
      have stillUnfinished : (asm.closed index block).finished = false := unfinished
      obtain ⟨final, accepted, finalUnfinished, pending⟩ :=
        ih stillUnfinished restDistinct restClosable
      refine ⟨final, ?_, finalUnfinished, ?_⟩
      · simp only [List.map_cons, feedAll, fed]
        exact accepted
      · intro other
        rw [pending]
        simp only [closed, Finset.mem_erase, List.map_cons, List.mem_cons, not_or]
        tauto

theorem feedAll_usages (usages : List (Option Usage)) (unfinished : asm.finished = false) :
    ∃ final, asm.feedAll (usages.map StreamChunk.usage) = .ok final ∧ final.finished = false ∧
      final.pending = asm.pending := by
  induction usages generalizing asm with
  | nil => exact ⟨asm, rfl, unfinished, rfl⟩
  | cons usage rest ih =>
      have fed : asm.feed (.usage usage) = .ok { asm with usage := usage } := by
        rw [feed, unfinished, if_neg Bool.false_ne_true]
      have stillUnfinished : { asm with usage := usage }.finished = false := unfinished
      obtain ⟨final, accepted, finalUnfinished, pending⟩ := ih stillUnfinished
      refine ⟨final, ?_, finalUnfinished, pending⟩
      simp only [List.map_cons, feedAll, fed]
      exact accepted

end BlockAssembler

end Ftre.Llm
