import Ftre.Llm.AssemblerRuns
import Ftre.Llm.Completions

/-!
Which call a tool-call delta belongs to, read from the deltas alone, and the
accumulator as a summary of that routing: last non-empty id and name, and the
argument fragments in order.
-/

namespace Ftre.Llm

open Lib

/-- Wire indices in order of first use, and each delta with its wire index. -/
structure Routing where
  seen : List Int
  routed : List (Int × ToolCallDelta)

namespace Routing

def none : Routing := ⟨[], []⟩

def wireOf (routing : Routing) (delta : ToolCallDelta) : Int :=
  delta.index.getD routing.seen.length

def add (routing : Routing) (delta : ToolCallDelta) : Routing where
  seen :=
    if routing.wireOf delta ∈ routing.seen then routing.seen
    else routing.seen ++ [routing.wireOf delta]
  routed := routing.routed ++ [(routing.wireOf delta, delta)]

def carriesId (routing : Routing) (wire : Int) : Prop :=
  ∃ delta, (wire, delta) ∈ routing.routed ∧ delta.callId ≠ ""

def carriesName (routing : Routing) (wire : Int) : Prop :=
  ∃ delta, (wire, delta) ∈ routing.routed ∧ delta.name ≠ ""

def fragments (routing : Routing) (wire : Int) : String :=
  String.join (routing.routed.map fun entry =>
    if entry.1 = wire then entry.2.argumentsFragment else "")

/-- Every call that sent an id and arguments also sent a name, and no call of a
smaller wire index sent an id and a name but no arguments. -/
def Closable (routing : Routing) : Prop :=
  ∀ wire, routing.carriesId wire → routing.fragments wire ≠ "" →
    routing.carriesName wire ∧
      ∀ earlier, earlier < wire → routing.carriesId earlier → routing.carriesName earlier →
        routing.fragments earlier ≠ ""

variable (routing : Routing)

theorem fragments_add (delta : ToolCallDelta) (wire : Int) :
    (routing.add delta).fragments wire =
      routing.fragments wire ++
        if routing.wireOf delta = wire then delta.argumentsFragment else "" := by
  simp [fragments, add]

private theorem carries_add (property : ToolCallDelta → Prop) (routing : Routing)
    (delta : ToolCallDelta) (wire : Int) :
    (∃ other, (wire, other) ∈ (routing.add delta).routed ∧ property other) ↔
      (∃ other, (wire, other) ∈ routing.routed ∧ property other) ∨
        (routing.wireOf delta = wire ∧ property delta) := by
  simp only [add, List.mem_append, List.mem_singleton, Prod.mk.injEq]
  constructor
  · rintro ⟨other, member | ⟨rfl, rfl⟩, holds⟩
    · exact Or.inl ⟨other, member, holds⟩
    · exact Or.inr ⟨rfl, holds⟩
  · rintro (⟨other, member, holds⟩ | ⟨rfl, holds⟩)
    · exact ⟨other, Or.inl member, holds⟩
    · exact ⟨delta, Or.inr ⟨rfl, rfl⟩, holds⟩

theorem carriesId_add (delta : ToolCallDelta) (wire : Int) :
    (routing.add delta).carriesId wire ↔
      routing.carriesId wire ∨ (routing.wireOf delta = wire ∧ delta.callId ≠ "") :=
  carries_add (fun other => other.callId ≠ "") routing delta wire

theorem carriesName_add (delta : ToolCallDelta) (wire : Int) :
    (routing.add delta).carriesName wire ↔
      routing.carriesName wire ∨ (routing.wireOf delta = wire ∧ delta.name ≠ "") :=
  carries_add (fun other => other.name ≠ "") routing delta wire

end Routing

def route (deltas : List ToolCallDelta) : Routing := deltas.foldl Routing.add Routing.none

def ChatChunk.toolCallDeltas (chunk : ChatChunk) : List ToolCallDelta :=
  match chunk.choices with
  | [] => []
  | choice :: _ => (choice.delta.map ChoiceDelta.toolCalls).getD []

/-- The tool-call deltas that arrive before the stream is cancelled. -/
def arrivedCalls : List Arrival → List ToolCallDelta
  | [] => []
  | arrival :: rest =>
      if arrival.cancelled then [] else arrival.chunk.toolCallDeltas ++ arrivedCalls rest

/-! ### The accumulator -/

def ToolEntry.settle (entry : ToolEntry) : ToolEntry :=
  if entry.hasUnsent then entry.markSent else entry

@[simp] theorem ToolEntry.settle_id (entry : ToolEntry) : entry.settle.id = entry.id := by
  unfold settle
  split <;> rfl

@[simp] theorem ToolEntry.settle_name (entry : ToolEntry) : entry.settle.name = entry.name := by
  unfold settle
  split <;> rfl

@[simp] theorem ToolEntry.settle_arguments (entry : ToolEntry) :
    entry.settle.arguments = entry.arguments := by
  unfold settle
  split <;> rfl

namespace ToolCallAccumulator

def absorbed (accumulator : ToolCallAccumulator) (delta : ToolCallDelta) : ToolEntry :=
  (accumulator.entryAt (accumulator.wireIndex delta)).absorb delta

variable (accumulator : ToolCallAccumulator)

theorem feed_items (delta : ToolCallDelta) :
    (accumulator.feed delta).1.items =
      accumulator.items.set (accumulator.wireIndex delta) (accumulator.absorbed delta).settle := by
  unfold feed absorbed ToolEntry.settle
  by_cases unsent : ((accumulator.entryAt (accumulator.wireIndex delta)).absorb delta).hasUnsent
  · simp only [unsent, if_true]
  · simp only [unsent, if_false, Bool.false_eq_true]

theorem feed_event (delta : ToolCallDelta) :
    (accumulator.feed delta).2 =
      if (accumulator.absorbed delta).hasUnsent then
        some ⟨accumulator.wireIndex delta, (accumulator.absorbed delta).id,
          (accumulator.absorbed delta).name, (accumulator.absorbed delta).unsent⟩
      else none := by
  unfold feed absorbed
  by_cases unsent : ((accumulator.entryAt (accumulator.wireIndex delta)).absorb delta).hasUnsent
  · simp only [unsent, if_true]
  · simp only [unsent, if_false, Bool.false_eq_true]

theorem entryAt_feed (delta : ToolCallDelta) (wire : Int) :
    (accumulator.feed delta).1.entryAt wire =
      if accumulator.wireIndex delta = wire then (accumulator.absorbed delta).settle
      else accumulator.entryAt wire := by
  unfold entryAt
  rw [feed_items, KeyedTable.find?_set]
  split <;> rfl

end ToolCallAccumulator

structure Gathered (routing : Routing) (accumulator : ToolCallAccumulator) : Prop where
  keys : accumulator.items.keys = routing.seen
  ids : ∀ wire, (accumulator.entryAt wire).id ≠ "" ↔ routing.carriesId wire
  names : ∀ wire, (accumulator.entryAt wire).name ≠ "" ↔ routing.carriesName wire
  arguments : ∀ wire, (accumulator.entryAt wire).arguments = routing.fragments wire

theorem gathered_fresh : Gathered Routing.none .fresh where
  keys := rfl
  ids := by simp [Routing.none, Routing.carriesId, ToolCallAccumulator.entryAt,
    ToolCallAccumulator.fresh, ToolEntry.blank]
  names := by simp [Routing.none, Routing.carriesName, ToolCallAccumulator.entryAt,
    ToolCallAccumulator.fresh, ToolEntry.blank]
  arguments := fun _ => rfl

theorem Gathered.wireIndex {routing : Routing} {accumulator : ToolCallAccumulator}
    (gathered : Gathered routing accumulator) (delta : ToolCallDelta) :
    accumulator.wireIndex delta = routing.wireOf delta := by
  unfold ToolCallAccumulator.wireIndex Routing.wireOf
  rw [← gathered.keys]
  simp [KeyedTable.keys, KeyedTable.size]

private theorem overwrite_ne_empty (written previous : String) :
    (if written ≠ "" then written else previous) ≠ "" ↔ previous ≠ "" ∨ written ≠ "" := by
  by_cases blank : written = "" <;> simp [blank]

theorem gathered_feed {routing : Routing} {accumulator : ToolCallAccumulator}
    (gathered : Gathered routing accumulator) (delta : ToolCallDelta) :
    Gathered (routing.add delta) (accumulator.feed delta).1 := by
  have wireEq := gathered.wireIndex delta
  constructor
  · rw [ToolCallAccumulator.feed_items, KeyedTable.keys_set, gathered.keys, wireEq]
    rfl
  · intro wire
    rw [ToolCallAccumulator.entryAt_feed, Routing.carriesId_add, ← gathered.ids, wireEq]
    by_cases here : routing.wireOf delta = wire
    · subst wire
      simp only [if_pos, ToolEntry.settle_id, ToolCallAccumulator.absorbed, wireEq,
        ToolEntry.absorb, true_and]
      exact overwrite_ne_empty _ _
    · simp only [here, if_false, false_and, or_false]
  · intro wire
    rw [ToolCallAccumulator.entryAt_feed, Routing.carriesName_add, ← gathered.names, wireEq]
    by_cases here : routing.wireOf delta = wire
    · subst wire
      simp only [if_pos, ToolEntry.settle_name, ToolCallAccumulator.absorbed, wireEq,
        ToolEntry.absorb, true_and]
      exact overwrite_ne_empty _ _
    · simp only [here, if_false, false_and, or_false]
  · intro wire
    rw [ToolCallAccumulator.entryAt_feed, Routing.fragments_add, ← gathered.arguments, wireEq]
    by_cases here : routing.wireOf delta = wire
    · subst wire
      simp only [if_pos, ToolEntry.settle_arguments, ToolCallAccumulator.absorbed, wireEq,
        ToolEntry.absorb]
    · simp only [if_neg here, String.append_empty]

end Ftre.Llm
