import Mathlib.Data.List.Basic
import Mathlib.Data.List.Nodup

/-!
Insertion-ordered dictionaries with distinct keys. Writing a present key replaces its value in
place; writing a fresh key appends.
-/

namespace Ftre.Lib

/-- A dictionary whose iteration order is the order of first insertion. -/
structure KeyedTable (κ ν : Type) where
  entries : List (κ × ν)
  distinct : (entries.map Prod.fst).Nodup

namespace KeyedTable

variable {κ ν : Type}

@[ext] theorem ext_entries {left right : KeyedTable κ ν}
    (same : left.entries = right.entries) : left = right := by
  cases left
  cases right
  cases same
  rfl

instance [DecidableEq κ] [DecidableEq ν] : DecidableEq (KeyedTable κ ν) :=
  fun left right => decidable_of_iff (left.entries = right.entries)
    ⟨ext_entries, fun same => same ▸ rfl⟩

def empty : KeyedTable κ ν where
  entries := []
  distinct := List.nodup_nil

instance : Inhabited (KeyedTable κ ν) := ⟨empty⟩

variable (table : KeyedTable κ ν)

def keys : List κ := table.entries.map Prod.fst

def values : List ν := table.entries.map Prod.snd

def size : Nat := table.entries.length

variable [DecidableEq κ]

/-! ### Entry lists -/

def lookupEntry (key : κ) : List (κ × ν) → Option ν
  | [] => none
  | (other, value) :: rest => if other = key then some value else lookupEntry key rest

def writeEntry (key : κ) (value : ν) : List (κ × ν) → List (κ × ν)
  | [] => [(key, value)]
  | (other, previous) :: rest =>
      if other = key then (key, value) :: rest
      else (other, previous) :: writeEntry key value rest

example : lookupEntry 2 [(1, 'a'), (2, 'b')] = some 'b' := by simp [lookupEntry]

example : writeEntry 1 'c' [(1, 'a'), (2, 'b')] = [(1, 'c'), (2, 'b')] := by simp [writeEntry]

theorem writeEntry_keys (key : κ) (value : ν) (entries : List (κ × ν)) :
    (writeEntry key value entries).map Prod.fst =
      if key ∈ entries.map Prod.fst then entries.map Prod.fst
      else entries.map Prod.fst ++ [key] := by
  induction entries with
  | nil => simp [writeEntry]
  | cons head rest ih =>
      rcases head with ⟨other, previous⟩
      by_cases same : other = key
      · subst other
        simp [writeEntry]
      · have different : key ≠ other := fun equal => same equal.symm
        simp only [writeEntry, if_neg same, List.map_cons, ih, List.mem_cons, different, false_or]
        by_cases member : key ∈ rest.map Prod.fst
        · rw [if_pos member, if_pos member]
        · rw [if_neg member, if_neg member, List.cons_append]

theorem lookupEntry_writeEntry (key other : κ) (value : ν) (entries : List (κ × ν)) :
    lookupEntry other (writeEntry key value entries) =
      if key = other then some value else lookupEntry other entries := by
  induction entries with
  | nil => simp [writeEntry, lookupEntry]
  | cons head rest ih =>
      rcases head with ⟨present, previous⟩
      by_cases same : present = key
      · subst present
        by_cases hit : key = other <;> simp [writeEntry, lookupEntry, hit]
      · simp only [writeEntry, if_neg same, lookupEntry, ih]
        by_cases hit : present = other
        · subst other
          rw [if_pos rfl, if_pos rfl, if_neg (fun equal => same equal.symm)]
        · rw [if_neg hit, if_neg hit]

theorem writeEntry_writeEntry (key : κ) (earlier later : ν) (entries : List (κ × ν)) :
    writeEntry key later (writeEntry key earlier entries) = writeEntry key later entries := by
  induction entries with
  | nil => simp [writeEntry]
  | cons head rest ih =>
      rcases head with ⟨other, previous⟩
      by_cases same : other = key
      · simp [writeEntry, same]
      · simp [writeEntry, same, ih]

theorem writeEntry_lookupEntry {key : κ} {value : ν} {entries : List (κ × ν)}
    (found : lookupEntry key entries = some value) : writeEntry key value entries = entries := by
  induction entries with
  | nil => cases found
  | cons head rest ih =>
      rcases head with ⟨other, previous⟩
      by_cases same : other = key
      · subst other
        simp only [lookupEntry, if_pos] at found
        cases found
        simp [writeEntry]
      · simp only [lookupEntry, if_neg same] at found
        simp [writeEntry, same, ih found]

theorem lookupEntry_isSome (key : κ) (entries : List (κ × ν)) :
    (lookupEntry key entries).isSome ↔ key ∈ entries.map Prod.fst := by
  induction entries with
  | nil => simp [lookupEntry]
  | cons head rest ih =>
      rcases head with ⟨other, value⟩
      by_cases same : other = key
      · simp [lookupEntry, same]
      · have different : ¬ key = other := fun equal => same equal.symm
        simp only [lookupEntry, if_neg same, ih, List.map_cons, List.mem_cons, different, false_or]

theorem lookupEntry_eq_some (key : κ) (value : ν) (entries : List (κ × ν))
    (distinct : (entries.map Prod.fst).Nodup) :
    lookupEntry key entries = some value ↔ (key, value) ∈ entries := by
  induction entries with
  | nil => simp [lookupEntry]
  | cons head rest ih =>
      rcases head with ⟨other, previous⟩
      obtain ⟨fresh, restDistinct⟩ := List.nodup_cons.mp distinct
      by_cases same : other = key
      · subst other
        have absent : (key, value) ∉ rest := fun member =>
          fresh (List.mem_map.mpr ⟨(key, value), member, rfl⟩)
        simp [lookupEntry, absent, eq_comm]
      · have different : ¬ key = other := fun equal => same equal.symm
        simp only [lookupEntry, if_neg same, ih restDistinct, List.mem_cons, Prod.mk.injEq,
          different, false_and, false_or]

theorem lookupEntry_filter_ne (key other : κ) (entries : List (κ × ν)) :
    lookupEntry other (entries.filter fun entry => entry.1 ≠ key) =
      if other = key then none else lookupEntry other entries := by
  induction entries with
  | nil => simp [lookupEntry]
  | cons head rest ih =>
      rcases head with ⟨present, value⟩
      by_cases removed : present = key
      · subst present
        by_cases hit : key = other
        · subst other
          simpa using ih
        · simpa [lookupEntry, hit] using ih
      · by_cases hit : present = other
        · subst other
          simp [lookupEntry, removed]
        · simpa [lookupEntry, removed, hit] using ih

/-! ### Tables -/

/-- `table.get(key)`. -/
def find? (key : κ) : Option ν := lookupEntry key table.entries

def contains (key : κ) : Bool := (table.find? key).isSome

/-- `table[key] = value`. -/
def set (table : KeyedTable κ ν) (key : κ) (value : ν) : KeyedTable κ ν where
  entries := writeEntry key value table.entries
  distinct := by
    rw [writeEntry_keys]
    by_cases present : key ∈ table.entries.map Prod.fst
    · rw [if_pos present]
      exact table.distinct
    · rw [if_neg present]
      exact List.nodup_append.mpr ⟨table.distinct, List.nodup_singleton key, by
        intro left member right only
        rw [List.mem_singleton.mp only]
        exact fun equal => present (equal ▸ member)⟩

/-- `table.pop(key, None)`. -/
def erase (table : KeyedTable κ ν) (key : κ) : KeyedTable κ ν where
  entries := table.entries.filter fun entry => entry.1 ≠ key
  distinct := (List.filter_sublist.map Prod.fst).nodup table.distinct

def filter (table : KeyedTable κ ν) (keep : κ → ν → Bool) : KeyedTable κ ν where
  entries := table.entries.filter fun entry => keep entry.1 entry.2
  distinct := (List.filter_sublist.map Prod.fst).nodup table.distinct

def setDefault (table : KeyedTable κ ν) (key : κ) (value : ν) : KeyedTable κ ν :=
  if table.contains key then table else table.set key value

def update (table other : KeyedTable κ ν) : KeyedTable κ ν :=
  other.entries.foldl (fun current entry => current.set entry.1 entry.2) table

/-- The table a comprehension over key-value pairs builds. -/
def ofList (entries : List (κ × ν)) : KeyedTable κ ν :=
  entries.foldl (fun current entry => current.set entry.1 entry.2) empty

@[simp] theorem find?_empty (key : κ) : (empty : KeyedTable κ ν).find? key = none := rfl

theorem find?_set (key other : κ) (value : ν) :
    (table.set key value).find? other = if key = other then some value else table.find? other :=
  lookupEntry_writeEntry key other value table.entries

@[simp] theorem find?_set_self (key : κ) (value : ν) :
    (table.set key value).find? key = some value := by
  rw [find?_set, if_pos rfl]

theorem find?_set_ne {key other : κ} (value : ν) (different : key ≠ other) :
    (table.set key value).find? other = table.find? other := by
  rw [find?_set, if_neg different]

@[simp] theorem set_set (key : κ) (earlier later : ν) :
    (table.set key earlier).set key later = table.set key later :=
  ext_entries (writeEntry_writeEntry key earlier later table.entries)

theorem set_of_find? {table : KeyedTable κ ν} {key : κ} {value : ν}
    (found : table.find? key = some value) : table.set key value = table :=
  ext_entries (writeEntry_lookupEntry found)

theorem find?_erase (key other : κ) :
    (table.erase key).find? other = if other = key then none else table.find? other :=
  lookupEntry_filter_ne key other table.entries

@[simp] theorem find?_erase_self (key : κ) : (table.erase key).find? key = none := by
  rw [find?_erase, if_pos rfl]

theorem find?_erase_ne {key other : κ} (different : other ≠ key) :
    (table.erase key).find? other = table.find? other := by
  rw [find?_erase, if_neg different]

theorem mem_keys_iff (key : κ) : key ∈ table.keys ↔ (table.find? key).isSome :=
  (lookupEntry_isSome key table.entries).symm

theorem find?_eq_some_iff (key : κ) (value : ν) :
    table.find? key = some value ↔ (key, value) ∈ table.entries :=
  lookupEntry_eq_some key value table.entries table.distinct

theorem find?_filter (keep : κ → ν → Bool) (key : κ) (value : ν) :
    (table.filter keep).find? key = some value ↔
      table.find? key = some value ∧ keep key value = true := by
  rw [find?_eq_some_iff, find?_eq_some_iff]
  exact List.mem_filter

theorem keys_set (key : κ) (value : ν) :
    (table.set key value).keys = if key ∈ table.keys then table.keys else table.keys ++ [key] :=
  writeEntry_keys key value table.entries

theorem find?_setDefault (key other : κ) (value : ν) :
    (table.setDefault key value).find? other =
      if key = other then some ((table.find? key).getD value) else table.find? other := by
  unfold setDefault contains
  cases present : table.find? key with
  | none =>
      rw [Option.isSome_none, if_neg Bool.false_ne_true, find?_set]
      rfl
  | some previous =>
      rw [Option.isSome_some, if_pos rfl]
      by_cases same : key = other
      · subst other
        rw [if_pos rfl, present]
        rfl
      · rw [if_neg same]

private theorem find?_foldl_set (entries : List (κ × ν))
    (distinct : (entries.map Prod.fst).Nodup) (table : KeyedTable κ ν) (key : κ) :
    (entries.foldl (fun current entry => current.set entry.1 entry.2) table).find? key =
      (lookupEntry key entries).or (table.find? key) := by
  induction entries generalizing table with
  | nil => rfl
  | cons head rest ih =>
      rcases head with ⟨written, value⟩
      obtain ⟨fresh, restDistinct⟩ := List.nodup_cons.mp distinct
      rw [List.foldl_cons, ih restDistinct, find?_set]
      by_cases same : written = key
      · subst written
        have absent : lookupEntry key rest = none := by
          rw [← Option.not_isSome_iff_eq_none, lookupEntry_isSome]
          exact fresh
        simp [lookupEntry, absent]
      · simp [lookupEntry, same]

/-- Entries of `other` win; keys it does not write keep their value. -/
theorem find?_update (table other : KeyedTable κ ν) (key : κ) :
    (table.update other).find? key = (other.find? key).or (table.find? key) :=
  find?_foldl_set other.entries other.distinct table key

private theorem writeEntry_of_absent (key : κ) (value : ν) (entries : List (κ × ν))
    (absent : key ∉ entries.map Prod.fst) :
    writeEntry key value entries = entries ++ [(key, value)] := by
  induction entries with
  | nil => rfl
  | cons head rest ih =>
      rcases head with ⟨other, previous⟩
      rw [List.map_cons, List.mem_cons, not_or] at absent
      obtain ⟨different, later⟩ := absent
      rw [writeEntry, if_neg fun same => different same.symm, ih later, List.cons_append]

private theorem entries_foldl_set (entries : List (κ × ν)) (table : KeyedTable κ ν)
    (distinct : ((table.entries ++ entries).map Prod.fst).Nodup) :
    (entries.foldl (fun current entry => current.set entry.1 entry.2) table).entries =
      table.entries ++ entries := by
  induction entries generalizing table with
  | nil => rw [List.append_nil, List.foldl_nil]
  | cons head rest ih =>
      rcases head with ⟨key, value⟩
      have absent : key ∉ table.entries.map Prod.fst := by
        intro member
        rw [List.map_append, List.map_cons] at distinct
        exact (List.nodup_append.mp distinct).2.2 key member key List.mem_cons_self rfl
      have written : (table.set key value).entries = table.entries ++ [(key, value)] :=
        writeEntry_of_absent key value table.entries absent
      have regrouped : table.entries ++ (key, value) :: rest =
          (table.set key value).entries ++ rest := by
        rw [written, List.append_assoc]
        rfl
      rw [regrouped] at distinct ⊢
      exact ih (table.set key value) distinct

theorem ofList_entries : ofList table.entries = table := by
  apply ext_entries
  have read := entries_foldl_set table.entries (empty : KeyedTable κ ν) table.distinct
  exact read

def mapValues {μ : Type} (convert : ν → μ) (table : KeyedTable κ ν) : KeyedTable κ μ where
  entries := table.entries.map fun entry => (entry.1, convert entry.2)
  distinct := by
    rw [List.map_map]
    exact table.distinct

theorem find?_mapValues {μ : Type} (convert : ν → μ) (table : KeyedTable κ ν) (key : κ) :
    (table.mapValues convert).find? key = (table.find? key).map convert := by
  change lookupEntry key (table.entries.map fun entry => (entry.1, convert entry.2)) =
    (lookupEntry key table.entries).map convert
  induction table.entries with
  | nil => rfl
  | cons entry rest ih =>
      rw [List.map_cons, lookupEntry, lookupEntry]
      by_cases same : entry.1 = key
      · rw [if_pos same, if_pos same]
        rfl
      · rw [if_neg same, if_neg same]
        exact ih

end KeyedTable

end Ftre.Lib
