import Mathlib.Data.List.Basic
import Mathlib.Data.List.Nodup

/-!
Ordered collections of values that carry their own key, with distinct keys.
-/

namespace Ftre.Lib

/-- A list whose values have pairwise distinct keys. -/
structure KeyedList {κ ν : Type} (key : ν → κ) where
  items : List ν
  distinct : (items.map key).Nodup

namespace KeyedList

variable {κ ν : Type} {key : ν → κ}

@[ext] theorem ext_items {left right : KeyedList key} (same : left.items = right.items) :
    left = right := by
  cases left
  cases right
  cases same
  rfl

instance [DecidableEq ν] : DecidableEq (KeyedList key) :=
  fun left right => decidable_of_iff (left.items = right.items)
    ⟨ext_items, fun same => same ▸ rfl⟩

def empty : KeyedList key where
  items := []
  distinct := List.nodup_nil

instance : Inhabited (KeyedList key) := ⟨empty⟩

variable [DecidableEq κ]

/-! ### Lists of values -/

def putItem (key : ν → κ) (value : ν) : List ν → List ν
  | [] => [value]
  | head :: rest => if key head = key value then value :: rest else head :: putItem key value rest

def lookupItem (key : ν → κ) (wanted : κ) : List ν → Option ν
  | [] => none
  | head :: rest => if key head = wanted then some head else lookupItem key wanted rest

example : lookupItem id 2 [1, 2] = some 2 := by simp [lookupItem]

example : putItem id 3 [1, 2] = [1, 2, 3] := by simp [putItem]

theorem putItem_keys (value : ν) (items : List ν) :
    (putItem key value items).map key =
      if key value ∈ items.map key then items.map key else items.map key ++ [key value] := by
  induction items with
  | nil => simp [putItem]
  | cons head rest ih =>
      by_cases same : key head = key value
      · simp [putItem, same]
      · have different : ¬ key value = key head := fun equal => same equal.symm
        simp only [putItem, if_neg same, List.map_cons, ih, List.mem_cons, different, false_or]
        by_cases member : key value ∈ rest.map key
        · rw [if_pos member, if_pos member]
        · rw [if_neg member, if_neg member, List.cons_append]

theorem lookupItem_putItem (value : ν) (wanted : κ) (items : List ν) :
    lookupItem key wanted (putItem key value items) =
      if key value = wanted then some value else lookupItem key wanted items := by
  induction items with
  | nil => rfl
  | cons head rest ih =>
      by_cases same : key head = key value
      · by_cases hit : key value = wanted
        · simp [putItem, lookupItem, same, hit]
        · simp [putItem, lookupItem, same, hit]
      · simp only [putItem, if_neg same, lookupItem, ih]
        by_cases hit : key head = wanted
        · have other : ¬ key value = wanted := fun equal => same (hit.trans equal.symm)
          rw [if_pos hit, if_neg other, if_pos hit]
        · rw [if_neg hit, if_neg hit]

theorem lookupItem_isSome (wanted : κ) (items : List ν) :
    (lookupItem key wanted items).isSome ↔ wanted ∈ items.map key := by
  induction items with
  | nil => simp [lookupItem]
  | cons head rest ih =>
      by_cases same : key head = wanted
      · simp [lookupItem, same]
      · have different : ¬ wanted = key head := fun equal => same equal.symm
        simp only [lookupItem, if_neg same, ih, List.map_cons, List.mem_cons, different, false_or]

variable {items : List ν} {value : ν}

theorem lookupItem_mem {wanted : κ} (found : lookupItem key wanted items = some value) :
    value ∈ items ∧ key value = wanted := by
  induction items with
  | nil => cases found
  | cons head rest ih =>
      unfold lookupItem at found
      by_cases same : key head = wanted
      · rw [if_pos same] at found
        cases found
        exact ⟨List.mem_cons_self, same⟩
      · rw [if_neg same] at found
        obtain ⟨member, keyed⟩ := ih found
        exact ⟨List.mem_cons_of_mem _ member, keyed⟩

theorem lookupItem_of_mem (distinct : (items.map key).Nodup) (member : value ∈ items) :
    lookupItem key (key value) items = some value := by
  induction items with
  | nil => cases member
  | cons head rest ih =>
      obtain ⟨fresh, restDistinct⟩ := List.nodup_cons.mp distinct
      rcases List.mem_cons.mp member with rfl | later
      · exact if_pos rfl
      · have different : key head ≠ key value := fun same =>
          fresh (same ▸ List.mem_map_of_mem later)
        rw [lookupItem, if_neg different]
        exact ih restDistinct later

theorem putItem_fresh (fresh : key value ∉ items.map key) :
    putItem key value items = items ++ [value] := by
  induction items with
  | nil => rfl
  | cons head rest ih =>
      rw [List.map_cons, List.mem_cons, not_or] at fresh
      rw [putItem, if_neg fun same => fresh.1 same.symm, ih fresh.2]
      rfl

theorem putItem_map {β : Type} (look : ν → β) (present : key value ∈ items.map key)
    (kept : ∀ held, lookupItem key (key value) items = some held → look held = look value) :
    (putItem key value items).map look = items.map look := by
  induction items with
  | nil => exact absurd present List.not_mem_nil
  | cons head rest ih =>
      by_cases same : key head = key value
      · have own : look head = look value := kept head (by rw [lookupItem, if_pos same])
        rw [putItem, if_pos same, List.map_cons, List.map_cons, own]
      · have later : key value ∈ rest.map key := by
          rcases List.mem_cons.mp present with first | behind
          · exact absurd first.symm same
          · exact behind
        have rests := ih later fun held found =>
          kept held (by rw [lookupItem, if_neg same]; exact found)
        rw [putItem, if_neg same, List.map_cons, List.map_cons, rests]

theorem items_ext {left right : List ν} (distinct : (left.map key).Nodup)
    (keys : left.map key = right.map key)
    (lookups : ∀ wanted, lookupItem key wanted left = lookupItem key wanted right) :
    left = right := by
  induction left generalizing right with
  | nil =>
      cases right with
      | nil => rfl
      | cons head rest => cases keys
  | cons head rest ih =>
      cases right with
      | nil => cases keys
      | cons other others =>
          obtain ⟨sameKey, sameKeys⟩ := List.cons.inj keys
          obtain ⟨fresh, restDistinct⟩ := List.nodup_cons.mp distinct
          have sameHead : head = other := by
            have found := lookups (key head)
            rw [lookupItem, if_pos rfl, lookupItem, if_pos sameKey.symm] at found
            exact Option.some.inj found
          subst other
          rw [ih restDistinct sameKeys]
          intro wanted
          by_cases hit : key head = wanted
          · subst wanted
            have leftNone : lookupItem key (key head) rest = none := by
              rw [← Option.not_isSome_iff_eq_none, lookupItem_isSome]
              exact fresh
            have rightNone : lookupItem key (key head) others = none := by
              rw [← Option.not_isSome_iff_eq_none, lookupItem_isSome, ← sameKeys]
              exact fresh
            rw [leftNone, rightNone]
          · have found := lookups wanted
            rwa [lookupItem, if_neg hit, lookupItem, if_neg hit] at found

/-! ### Keyed lists -/

variable (list : KeyedList key)

def keys : List κ := list.items.map key

def find? (wanted : κ) : Option ν := lookupItem key wanted list.items

def put (list : KeyedList key) (value : ν) : KeyedList key where
  items := putItem key value list.items
  distinct := by
    rw [putItem_keys]
    by_cases present : key value ∈ list.items.map key
    · rw [if_pos present]
      exact list.distinct
    · rw [if_neg present]
      exact List.nodup_append.mpr ⟨list.distinct, List.nodup_singleton _, by
        intro left member right only
        rw [List.mem_singleton.mp only]
        exact fun equal => present (equal ▸ member)⟩

/-- Values of `other` win; new keys follow in the order of `other`. -/
def merge (list other : KeyedList key) : KeyedList key := other.items.foldl put list

/-- The first `count` values. -/
def take (list : KeyedList key) (count : Nat) : KeyedList key where
  items := list.items.take count
  distinct := ((List.take_sublist count list.items).map key).nodup list.distinct

theorem ext_find? {left right : KeyedList key} (keys : left.keys = right.keys)
    (lookups : ∀ wanted, left.find? wanted = right.find? wanted) : left = right :=
  ext_items (items_ext left.distinct keys lookups)

@[simp] theorem find?_empty (wanted : κ) : (empty : KeyedList key).find? wanted = none := rfl

theorem find?_put (value : ν) (wanted : κ) :
    (list.put value).find? wanted = if key value = wanted then some value else list.find? wanted :=
  lookupItem_putItem value wanted list.items

@[simp] theorem find?_put_self (value : ν) : (list.put value).find? (key value) = some value := by
  rw [find?_put, if_pos rfl]

theorem keys_put (value : ν) :
    (list.put value).keys = if key value ∈ list.keys then list.keys else list.keys ++ [key value] :=
  putItem_keys value list.items

theorem find?_isSome (wanted : κ) : (list.find? wanted).isSome ↔ wanted ∈ list.keys :=
  lookupItem_isSome wanted list.items

theorem find?_eq_none (wanted : κ) : list.find? wanted = none ↔ wanted ∉ list.keys := by
  rw [← find?_isSome, Option.isSome_iff_ne_none, not_not]

theorem find?_mem {list : KeyedList key} {wanted : κ} (found : list.find? wanted = some value) :
    value ∈ list.items ∧ key value = wanted :=
  lookupItem_mem found

theorem find?_of_mem {list : KeyedList key} (member : value ∈ list.items) :
    list.find? (key value) = some value :=
  lookupItem_of_mem list.distinct member

theorem mem_put {list : KeyedList key} {value other : ν} (member : other ∈ (list.put value).items) :
    other = value ∨ other ∈ list.items := by
  have found := find?_of_mem member
  rw [find?_put] at found
  by_cases same : key value = key other
  · rw [if_pos same] at found
    exact Or.inl (Option.some.inj found).symm
  · rw [if_neg same] at found
    exact Or.inr (find?_mem found).1

theorem find?_put_isSome (value : ν) {wanted : κ} (present : (list.find? wanted).isSome) :
    ((list.put value).find? wanted).isSome := by
  rw [find?_put]
  split
  · rfl
  · exact present

private theorem find?_foldl_put (items : List ν) (distinct : (items.map key).Nodup)
    (list : KeyedList key) (wanted : κ) :
    (items.foldl put list).find? wanted = (lookupItem key wanted items).or (list.find? wanted) := by
  induction items generalizing list with
  | nil => rfl
  | cons head rest ih =>
      obtain ⟨fresh, restDistinct⟩ := List.nodup_cons.mp distinct
      rw [List.foldl_cons, ih restDistinct, find?_put, lookupItem]
      by_cases hit : key head = wanted
      · have absent : lookupItem key wanted rest = none := by
          rw [← Option.not_isSome_iff_eq_none, lookupItem_isSome, ← hit]
          exact fresh
        simp [hit, absent]
      · simp [hit]

theorem find?_foldl_put_last (items : List ν) (list : KeyedList key) (wanted : κ) :
    (items.foldl put list).find? wanted =
      (items.reverse.find? fun value => decide (key value = wanted)).or (list.find? wanted) := by
  induction items generalizing list with
  | nil => rfl
  | cons head rest ih =>
      rw [List.foldl_cons, ih, find?_put, List.reverse_cons, List.find?_append]
      by_cases hit : key head = wanted
      · rw [if_pos hit, List.find?_cons_of_pos (by simpa using hit)]
        cases rest.reverse.find? fun value => decide (key value = wanted) <;> rfl
      · rw [if_neg hit, List.find?_cons_of_neg (by simpa using hit), List.find?_nil,
          Option.or_none]

theorem find?_merge (list other : KeyedList key) (wanted : κ) :
    (list.merge other).find? wanted = (other.find? wanted).or (list.find? wanted) :=
  find?_foldl_put other.items other.distinct list wanted

private theorem keys_foldl_put (items : List ν) (distinct : (items.map key).Nodup)
    (list : KeyedList key) :
    (items.foldl put list).keys =
      list.keys ++ (items.map key).filter fun wanted => wanted ∉ list.keys := by
  induction items generalizing list with
  | nil => simp
  | cons head rest ih =>
      obtain ⟨fresh, restDistinct⟩ := List.nodup_cons.mp distinct
      rw [List.foldl_cons, ih restDistinct, keys_put]
      by_cases present : key head ∈ list.keys
      · simp [present]
      · simp only [if_neg present, List.map_cons, List.append_assoc]
        congr 1
        rw [List.filter_cons_of_pos (by simpa using present), List.singleton_append]
        congr 1
        apply List.filter_congr
        intro wanted member
        have different : wanted ≠ key head := fun same => fresh (same ▸ member)
        simp [different]

theorem keys_merge (list other : KeyedList key) :
    (list.merge other).keys =
      list.keys ++ other.keys.filter fun wanted => wanted ∉ list.keys :=
  keys_foldl_put other.items other.distinct list

@[simp] theorem merge_empty : list.merge empty = list := rfl

theorem merge_put (list other : KeyedList key) (value : ν) :
    list.merge (other.put value) = (list.merge other).put value := by
  apply ext_find?
  · rw [keys_merge, keys_put, keys_put, keys_merge]
    by_cases inOther : key value ∈ other.keys
    · have inMerge : key value ∈ list.keys ++ other.keys.filter fun wanted => wanted ∉ list.keys := by
        by_cases inList : key value ∈ list.keys
        · exact List.mem_append_left _ inList
        · exact List.mem_append_right _ (List.mem_filter.mpr ⟨inOther, by simpa using inList⟩)
      rw [if_pos inOther, if_pos inMerge]
    · rw [if_neg inOther, List.filter_append]
      by_cases inList : key value ∈ list.keys
      · rw [if_pos (List.mem_append_left _ inList)]
        simp [inList]
      · have absent : key value ∉
            list.keys ++ other.keys.filter fun wanted => wanted ∉ list.keys := by
          intro member
          rcases List.mem_append.mp member with first | second
          · exact inList first
          · exact inOther (List.mem_filter.mp second).1
        rw [if_neg absent]
        simp [inList, List.append_assoc]
  · intro wanted
    rw [find?_merge, find?_put, find?_put, find?_merge]
    by_cases hit : key value = wanted <;> simp [hit]

end KeyedList

end Ftre.Lib
