import Ftre.Lib.Json
import Ftre.Lib.KeyedList

/-!
JSON objects as maps. A decoded object has distinct keys; two values are alike if the same is
found in them at every path of keys, whatever the order of their fields.
-/

namespace Ftre.Lib

namespace Json

/-! ### Fields -/

example : lookup "b" [("a", .null), ("b", .bool true)] = some (.bool true) := by simp [lookup]

variable {key : String} {fields : List (String × Json)}

theorem mem_of_lookup {value : Json} (found : lookup key fields = some value) :
    (key, value) ∈ fields := by
  induction fields with
  | nil => cases found
  | cons field rest ih =>
      rcases field with ⟨other, own⟩
      rw [lookup] at found
      by_cases same : other = key
      · rw [if_pos same] at found
        cases found
        rw [same]
        exact List.mem_cons_self
      · rw [if_neg same] at found
        exact List.mem_cons_of_mem _ (ih found)

theorem lookup_of_mem (distinct : (fields.map Prod.fst).Nodup) {field : String × Json}
    (member : field ∈ fields) : lookup field.1 fields = some field.2 := by
  induction fields with
  | nil => cases member
  | cons head rest ih =>
      rw [List.map_cons, List.nodup_cons] at distinct
      rw [lookup]
      rcases List.mem_cons.mp member with same | later
      · rw [same]
        exact if_pos rfl
      · have other : head.1 ≠ field.1 := by
          intro equal
          exact distinct.1 (equal ▸ List.mem_map_of_mem later)
        rw [if_neg other]
        exact ih distinct.2 later

theorem lookup_isSome : (lookup key fields).isSome = true ↔ key ∈ fields.map Prod.fst := by
  induction fields with
  | nil => exact ⟨nofun, nofun⟩
  | cons head rest ih =>
      rw [lookup, List.map_cons, List.mem_cons]
      by_cases same : head.1 = key
      · rw [if_pos same]
        exact ⟨fun _ => Or.inl same.symm, fun _ => rfl⟩
      · rw [if_neg same, ih]
        exact ⟨Or.inr, fun found => found.resolve_left fun equal => same equal.symm⟩

theorem lookup_putItem (key wanted : String) (value : Json) (fields : List (String × Json)) :
    lookup wanted (KeyedList.putItem Prod.fst (key, value) fields) =
      if key = wanted then some value else lookup wanted fields := by
  induction fields with
  | nil => rfl
  | cons head rest ih =>
      unfold KeyedList.putItem
      by_cases own : head.1 = key
      · rw [if_pos own]
        by_cases same : key = wanted
        · rw [if_pos same]
          exact if_pos same
        · have other : head.1 ≠ wanted := fun equal => same (own.symm.trans equal)
          rw [if_neg same]
          exact (if_neg same).trans (if_neg other).symm
      · rw [if_neg own]
        by_cases same : head.1 = wanted
        · have other : key ≠ wanted := fun equal => own (same.trans equal.symm)
          rw [if_neg other]
          exact (if_pos same).trans (if_pos same).symm
        · change (if head.1 = wanted then some head.2 else _) = _
          rw [if_neg same, ih]
          change _ = if key = wanted then some value else
            if head.1 = wanted then some head.2 else lookup wanted rest
          rw [if_neg same]

theorem lookup_erase (key wanted : String) (fields : List (String × Json)) :
    lookup wanted (fields.filter fun field => decide (field.1 ≠ key)) =
      if key = wanted then none else lookup wanted fields := by
  induction fields with
  | nil => exact (ite_self none).symm
  | cons head rest ih =>
      by_cases own : head.1 = key
      · rw [List.filter_cons_of_neg (by simpa using own), ih]
        by_cases same : key = wanted
        · rw [if_pos same, if_pos same]
        · have other : head.1 ≠ wanted := fun equal => same (own.symm.trans equal)
          rw [if_neg same, if_neg same]
          exact (if_neg other).symm
      · rw [List.filter_cons_of_pos (by simpa using own), lookup, ih]
        by_cases same : head.1 = wanted
        · have other : key ≠ wanted := fun equal => own (same.trans equal.symm)
          rw [if_pos same, if_neg other]
          exact (if_pos same).symm
        · rw [if_neg same, lookup, if_neg same]

/-! ### Distinct keys -/

mutual

def distinctKeys : Json → Bool
  | .object fields => decide (fields.map Prod.fst).Nodup && distinctFields fields
  | _ => true

def distinctFields : List (String × Json) → Bool
  | [] => true
  | (_, value) :: rest => distinctKeys value && distinctFields rest

end

theorem distinctFields_cons (field : String × Json) (rest : List (String × Json)) :
    distinctFields (field :: rest) = (distinctKeys field.2 && distinctFields rest) := rfl

theorem distinctFields_iff {fields : List (String × Json)} :
    distinctFields fields = true ↔ ∀ field ∈ fields, distinctKeys field.2 = true := by
  induction fields with
  | nil => exact ⟨fun _ => nofun, fun _ => rfl⟩
  | cons head rest ih =>
      rw [distinctFields_cons, Bool.and_eq_true, ih, List.forall_mem_cons]

theorem distinct_object :
    (object fields).distinctKeys = true ↔
      (fields.map Prod.fst).Nodup ∧ ∀ field ∈ fields, distinctKeys field.2 = true := by
  change (decide (fields.map Prod.fst).Nodup && distinctFields fields) = true ↔ _
  rw [Bool.and_eq_true, decide_eq_true_iff, distinctFields_iff]

theorem distinct_lookup (distinct : (object fields).distinctKeys = true) {value : Json}
    (found : lookup key fields = some value) : value.distinctKeys = true :=
  (distinct_object.mp distinct).2 _ (mem_of_lookup found)

private theorem mem_putItem {value : Json} {field : String × Json}
    (member : field ∈ KeyedList.putItem Prod.fst (key, value) fields) :
    field = (key, value) ∨ field ∈ fields := by
  induction fields with
  | nil => exact Or.inl (List.mem_singleton.mp member)
  | cons head rest ih =>
      unfold KeyedList.putItem at member
      split at member
      · rcases List.mem_cons.mp member with same | later
        · exact Or.inl same
        · exact Or.inr (List.mem_cons_of_mem _ later)
      · rcases List.mem_cons.mp member with same | later
        · exact Or.inr (same ▸ List.mem_cons_self)
        · exact (ih later).imp_right (List.mem_cons_of_mem _)

theorem distinct_putItem {value : Json} (distinct : (object fields).distinctKeys = true)
    (own : value.distinctKeys = true) :
    (object (KeyedList.putItem Prod.fst (key, value) fields)).distinctKeys = true := by
  obtain ⟨keys, values⟩ := distinct_object.mp distinct
  apply distinct_object.mpr
  constructor
  · rw [KeyedList.putItem_keys]
    split
    · exact keys
    · rename_i fresh
      exact List.nodup_append.mpr ⟨keys, List.nodup_singleton _, by
        intro other present new member same
        rw [List.mem_singleton.mp member] at same
        exact fresh (same ▸ present)⟩
  · intro field member
    rcases mem_putItem member with same | old
    · rw [same]
      exact own
    · exact values field old

theorem distinct_putItems {fields added : List (String × Json)}
    (distinct : (object fields).distinctKeys = true)
    (own : ∀ field ∈ added, field.2.distinctKeys = true) :
    (object (added.foldl (fun fields field => KeyedList.putItem Prod.fst field fields)
      fields)).distinctKeys = true := by
  induction added generalizing fields with
  | nil => exact distinct
  | cons field rest ih =>
      rw [List.foldl_cons]
      apply ih (distinct_putItem distinct (own field List.mem_cons_self))
      exact fun later member => own later (List.mem_cons_of_mem _ member)

theorem distinct_filter (kept : String × Json → Bool)
    (distinct : (object fields).distinctKeys = true) :
    (object (fields.filter kept)).distinctKeys = true := by
  obtain ⟨keys, values⟩ := distinct_object.mp distinct
  apply distinct_object.mpr
  exact ⟨(List.filter_sublist.map _).nodup keys,
    fun field member => values field (List.mem_filter.mp member).1⟩

/-- What stands at the end of a path. -/
inductive Leaf where
  | plain (value : Json)
  | object
deriving DecidableEq

def leafAt : List String → Json → Option Leaf
  | [], .object _ => some .object
  | [], value => some (.plain value)
  | key :: rest, value => (value.get? key).bind (leafAt rest)

def Alike (left right : Json) : Prop := ∀ path, leafAt path left = leafAt path right

def AlikeAt (left right : Option Json) : Prop :=
  ∀ path, left.bind (leafAt path) = right.bind (leafAt path)

theorem Alike.refl (value : Json) : Alike value value := fun _ => rfl

theorem AlikeAt.refl (value : Option Json) : AlikeAt value value := fun _ => rfl

theorem leafAt_nil_isSome (value : Json) : (leafAt [] value).isSome = true := by
  cases value <;> rfl

theorem AlikeAt.isSome {left right : Option Json} (alike : AlikeAt left right) :
    left.isSome = right.isSome := by
  have head := congrArg Option.isSome (alike [])
  cases left with
  | none =>
      cases right with
      | none => rfl
      | some value =>
          rw [Option.bind_none, Option.bind_some, leafAt_nil_isSome] at head
          cases head
  | some value =>
      cases right with
      | none =>
          rw [Option.bind_none, Option.bind_some, leafAt_nil_isSome] at head
          cases head
      | some other => rfl

theorem alike_object {left right : List (String × Json)}
    (fields : ∀ key, AlikeAt (lookup key left) (lookup key right)) :
    Alike (.object left) (.object right) := by
  intro path
  cases path with
  | nil => rfl
  | cons key rest => exact fields key rest

end Json

/-- A value as it is decoded. -/
structure Decoded where
  value : Json
  distinct : value.distinctKeys = true

/-- The fields of a decoded object. -/
structure Dict where
  fields : List (String × Json)
  distinct : (Json.object fields).distinctKeys = true

namespace Dict

def empty : Dict := ⟨[], rfl⟩

instance : Inhabited Dict := ⟨empty⟩

def lookup (dict : Dict) (key : String) : Option Json := Json.lookup key dict.fields

def put (dict : Dict) (key : String) (value : Decoded) : Dict :=
  ⟨KeyedList.putItem Prod.fst (key, value.value) dict.fields,
    Json.distinct_putItem dict.distinct value.distinct⟩

def erase (dict : Dict) (key : String) : Dict :=
  ⟨dict.fields.filter fun field => decide (field.1 ≠ key), Json.distinct_filter _ dict.distinct⟩

def toDecoded (dict : Dict) : Decoded := ⟨.object dict.fields, dict.distinct⟩

def putAll (dict second : Dict) : Dict :=
  ⟨second.fields.foldl (fun fields field => KeyedList.putItem Prod.fst field fields) dict.fields,
    Json.distinct_putItems dict.distinct (Json.distinct_object.mp second.distinct).2⟩

def dict? (dict : Dict) (key : String) : Option Dict :=
  match found : Json.lookup key dict.fields with
  | some (.object fields) => some ⟨fields, Json.distinct_lookup dict.distinct found⟩
  | _ => none

theorem lookup_put (dict : Dict) (key wanted : String) (value : Decoded) :
    (dict.put key value).lookup wanted =
      if key = wanted then some value.value else dict.lookup wanted :=
  Json.lookup_putItem key wanted value.value dict.fields

theorem lookup_erase (dict : Dict) (key wanted : String) :
    (dict.erase key).lookup wanted = if key = wanted then none else dict.lookup wanted :=
  Json.lookup_erase key wanted dict.fields

theorem dict?_eq {dict inner : Dict} {key : String}
    (found : dict.lookup key = some (.object inner.fields)) : dict.dict? key = some inner := by
  unfold dict?
  split
  · rename_i fields present
    have same := Json.object.inj (Option.some.inj (present.symm.trans found))
    cases inner
    cases same
    rfl
  · rename_i other
    exact absurd found (other _)

theorem dict?_some {dict inner : Dict} {key : String} (found : dict.dict? key = some inner) :
    dict.lookup key = some (.object inner.fields) := by
  unfold dict? at found
  split at found
  · rename_i fields present
    cases found
    exact present
  · cases found

end Dict

def Decoded.dict? (decoded : Decoded) : Option Dict :=
  match form : decoded.value with
  | .object fields => some ⟨fields, form ▸ decoded.distinct⟩
  | _ => none

theorem Decoded.dict?_eq {decoded : Decoded} {dict : Dict}
    (form : decoded.value = .object dict.fields) : decoded.dict? = some dict := by
  unfold Decoded.dict?
  split
  · rename_i fields present
    have same := Json.object.inj (present.symm.trans form)
    cases dict
    cases same
    rfl
  · rename_i other
    exact absurd form (other _)

end Ftre.Lib
