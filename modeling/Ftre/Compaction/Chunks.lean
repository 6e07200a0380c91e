import Mathlib.Data.List.Chain
import Ftre.Session.TokenUsage

/-!
Chunks of a context for parallel summaries.
-/

namespace Ftre.Compaction

open Lib Message Session

/-- The fields that `_as_msg` takes from a record. -/
def recordFields : List String :=
  ["id", "name", "role", "content", "metadata", "created_at", "token", "finished_at",
    "finished_reason", "structured_output", "error"]

/-- `_as_msg(record)` of a record with all its fields; the number of the message is not taken. -/
def asMsg (record : Json) : Option Msg :=
  Msg.modelValidate (.object (recordFields.filterMap (fun key =>
    (record.get? key).map fun value => (key, value)) ++ [("seq", .int (-1))]))

/-- `estimate_messages_tokens(records)`, if every record is a message. -/
def estimateRecords (records : List Json) : Option Nat :=
  (records.mapM asMsg).map estimateMessagesTokens

structure ChunkState where
  chunks : List (List Json)
  current : List Json
  currentTokens : Nat

namespace ChunkState

def start : ChunkState := ⟨[], [], 0⟩

def flushed (limit : Nat) (state : ChunkState) (recordTokens : Nat) : ChunkState :=
  if state.current ≠ [] ∧ limit < state.currentTokens + recordTokens then
    ⟨state.chunks ++ [state.current], [], 0⟩
  else state

def put (state : ChunkState) (record : Json) (recordTokens : Nat) : ChunkState where
  chunks := state.chunks
  current := state.current ++ [record]
  currentTokens := state.currentTokens + recordTokens

def step (limit : Nat) (state : ChunkState) (record : Json) : Option ChunkState :=
  (estimateRecords [record]).map fun recordTokens =>
    (state.flushed limit recordTokens).put record recordTokens

def finished (state : ChunkState) : List (List Json) :=
  if state.current ≠ [] then state.chunks ++ [state.current] else state.chunks

end ChunkState

/-- `max(1, int(chunk_tokens))`. -/
def chunkLimit (chunkTokens : Int) : Nat := (max 1 chunkTokens).toNat

def chunkMessagesByTokens (messages : List Json) (chunkTokens : Int) :
    Option (List (List Json)) :=
  (messages.foldlM (ChunkState.step (chunkLimit chunkTokens)) .start).map ChunkState.finished

theorem estimateRecords_append (left right : List Json) :
    estimateRecords (left ++ right) = (estimateRecords left).bind fun first =>
      (estimateRecords right).map fun second => first + second := by
  unfold estimateRecords
  rw [List.mapM_append]
  cases left.mapM asMsg with
  | none => rfl
  | some first =>
      cases right.mapM asMsg with
      | none => rfl
      | some second =>
          change some (estimateMessagesTokens (first ++ second)) = some _
          unfold estimateMessagesTokens Encoding.toOpenai
          rw [List.flatMap_append, List.map_append, List.sum_append]

variable {record : Json} {limit : Nat} {seen : List Json} {state after : ChunkState}

theorem estimateRecords_concat {records : List Json} {tokens recordTokens : Nat}
    (whole : estimateRecords records = some tokens)
    (own : estimateRecords [record] = some recordTokens) :
    estimateRecords (records ++ [record]) = some (tokens + recordTokens) := by
  rw [estimateRecords_append, whole, own]
  rfl

/-! ### Chunks -/

def Fits (limit : Nat) (chunk : List Json) : Prop :=
  ∃ tokens, estimateRecords chunk = some tokens ∧ (tokens ≤ limit ∨ ∃ record, chunk = [record])

def Overflows (limit : Nat) (chunk next : List Json) : Prop :=
  ∃ record rest tokens, next = record :: rest ∧
    estimateRecords (chunk ++ [record]) = some tokens ∧ limit < tokens

structure Chunked (limit : Nat) (records : List Json) (chunks : List (List Json)) : Prop where
  whole : chunks.flatten = records
  nonempty : ∀ chunk ∈ chunks, chunk ≠ []
  fits : ∀ chunk ∈ chunks, Fits limit chunk
  greedy : chunks.IsChain (Overflows limit)

structure Gathered (limit : Nat) (seen : List Json) (state : ChunkState) : Prop where
  chunked : Chunked limit seen state.finished
  tokens : estimateRecords state.current = some state.currentTokens
  started : state.current = [] → state.chunks = []

theorem gathered_start (limit : Nat) : Gathered limit [] .start where
  chunked := ⟨rfl, fun _ member => absurd member List.not_mem_nil,
    fun _ member => absurd member List.not_mem_nil, List.isChain_nil⟩
  tokens := rfl
  started := fun _ => rfl

theorem finished_current {state : ChunkState} (listed : state.current ≠ []) :
    state.finished = state.chunks ++ [state.current] := if_pos listed

theorem isChain_exchange {limit : Nat} {chunks : List (List Json)} {last next : List Json}
    (chain : (chunks ++ [last]).IsChain (Overflows limit))
    (kept : ∀ chunk, Overflows limit chunk last → Overflows limit chunk next) :
    (chunks ++ [next]).IsChain (Overflows limit) := by
  rw [List.isChain_append] at chain ⊢
  refine ⟨chain.1, List.isChain_singleton _, fun chunk member other head => ?_⟩
  rw [List.head?_cons, Option.mem_some_iff] at head
  rw [← head]
  exact kept chunk (chain.2.2 chunk member last rfl)

theorem gathered_open {state : ChunkState} {recordTokens : Nat}
    (gathered : Gathered limit seen state) (listed : state.current ≠ [])
    (own : estimateRecords [record] = some recordTokens)
    (excess : limit < state.currentTokens + recordTokens) :
    Gathered limit (seen ++ [record])
      ⟨state.chunks ++ [state.current], [record], recordTokens⟩ := by
  have chunked := gathered.chunked
  rw [finished_current listed] at chunked
  have single : ([record] : List Json) ≠ [] := List.cons_ne_nil _ _
  refine ⟨⟨?_, fun chunk member => ?_, fun chunk member => ?_, ?_⟩, own, fun empty =>
    absurd empty single⟩
  · rw [finished_current single, List.flatten_append, chunked.whole, List.flatten_singleton]
  · rw [finished_current single] at member
    rcases List.mem_append.mp member with earlier | last
    · exact chunked.nonempty chunk earlier
    · rw [List.mem_singleton.mp last]
      exact single
  · rw [finished_current single] at member
    rcases List.mem_append.mp member with earlier | last
    · exact chunked.fits chunk earlier
    · rw [List.mem_singleton.mp last]
      exact ⟨recordTokens, own, Or.inr ⟨record, rfl⟩⟩
  · rw [finished_current single, List.isChain_append]
    refine ⟨chunked.greedy, List.isChain_singleton _, fun chunk member other head => ?_⟩
    rw [List.head?_cons, Option.mem_some_iff] at head
    rw [List.getLast?_concat, Option.mem_some_iff] at member
    rw [← head, ← member]
    exact ⟨record, [], _, rfl, estimateRecords_concat gathered.tokens own, excess⟩

theorem gathered_put {state : ChunkState} {recordTokens : Nat}
    (gathered : Gathered limit seen state) (own : estimateRecords [record] = some recordTokens)
    (room : state.current ≠ [] → state.currentTokens + recordTokens ≤ limit) :
    Gathered limit (seen ++ [record]) (state.put record recordTokens) := by
  have chunked := gathered.chunked
  have listed : (state.put record recordTokens).current ≠ [] :=
    List.append_ne_nil_of_right_ne_nil _ (List.cons_ne_nil _ _)
  have tokens := estimateRecords_concat gathered.tokens own
  have fits : Fits limit (state.current ++ [record]) := by
    refine ⟨_, tokens, ?_⟩
    by_cases empty : state.current = []
    · rw [empty]
      exact Or.inr ⟨record, rfl⟩
    · exact Or.inl (room empty)
  refine ⟨?_, tokens, fun empty => absurd empty listed⟩
  rw [finished_current listed]
  by_cases empty : state.current = []
  · have first := gathered.started empty
    have fresh : seen = [] := by
      rw [← chunked.whole, ChunkState.finished, if_neg (not_not.mpr empty), first]
      rfl
    rw [fresh]
    unfold ChunkState.put
    dsimp only
    rw [first, empty]
    rw [empty] at fits
    refine ⟨rfl, fun chunk member => ?_, fun chunk member => ?_, List.isChain_singleton _⟩
    · rw [List.mem_singleton.mp member]
      exact List.cons_ne_nil _ _
    · rw [List.mem_singleton.mp member]
      exact fits
  · rw [finished_current empty] at chunked
    unfold ChunkState.put
    dsimp only
    refine ⟨?_, fun chunk member => ?_, fun chunk member => ?_, ?_⟩
    · rw [← chunked.whole, List.flatten_append, List.flatten_append, List.flatten_singleton,
        List.flatten_singleton, List.append_assoc]
    · rcases List.mem_append.mp member with earlier | last
      · exact chunked.nonempty chunk (List.mem_append_left _ earlier)
      · rw [List.mem_singleton.mp last]
        exact listed
    · rcases List.mem_append.mp member with earlier | last
      · exact chunked.fits chunk (List.mem_append_left _ earlier)
      · rw [List.mem_singleton.mp last]
        exact fits
    · refine isChain_exchange chunked.greedy fun chunk overflows => ?_
      obtain ⟨first, rest, total, same, estimate, excess⟩ := overflows
      exact ⟨first, rest ++ [record], total, by rw [same, List.cons_append], estimate, excess⟩

theorem gathered_step (gathered : Gathered limit seen state)
    (stepped : state.step limit record = some after) : Gathered limit (seen ++ [record]) after := by
  obtain ⟨recordTokens, own, same⟩ := Option.map_eq_some_iff.mp stepped
  rw [← same]
  unfold ChunkState.flushed
  split
  next full =>
    have opened := gathered_open gathered full.1 own full.2
    rw [← Nat.zero_add recordTokens] at opened
    exact opened
  next fitting =>
    exact gathered_put gathered own fun listed =>
      Nat.le_of_not_lt fun more => fitting ⟨listed, more⟩

theorem gathered_run {records seen : List Json} (gathered : Gathered limit seen state)
    (run : records.foldlM (ChunkState.step limit) state = some after) :
    Gathered limit (seen ++ records) after := by
  induction records generalizing seen state with
  | nil =>
      rw [List.foldlM_nil] at run
      cases run
      rw [List.append_nil]
      exact gathered
  | cons record rest ih =>
      rw [List.foldlM_cons] at run
      obtain ⟨next, stepped, later⟩ := Option.bind_eq_some_iff.mp run
      have whole := ih (gathered_step gathered stepped) later
      rwa [List.append_assoc] at whole

theorem step_isSome (limit : Nat) (state : ChunkState) (record : Json) :
    (state.step limit record).isSome = (asMsg record).isSome := by
  unfold ChunkState.step estimateRecords
  rw [Option.isSome_map, Option.isSome_map, List.mapM_cons]
  cases asMsg record <;> rfl

theorem run_isSome (limit : Nat) (records : List Json) (state : ChunkState) :
    (records.foldlM (ChunkState.step limit) state).isSome ↔
      ∀ record ∈ records, (asMsg record).isSome := by
  induction records generalizing state with
  | nil => exact iff_of_true rfl fun _ member => absurd member List.not_mem_nil
  | cons record rest ih =>
      rw [List.foldlM_cons, List.forall_mem_cons, ← step_isSome limit state record]
      cases state.step limit record with
      | none => exact iff_of_false Bool.false_ne_true fun both => Bool.false_ne_true both.1
      | some next => exact (ih next).trans (and_iff_right rfl).symm

def shortRecord : Json := (Msg.plain "m" .user [.text ⟨"hi", "b", "t", none⟩] "t").modelDump

end Ftre.Compaction
