import Mathlib.Data.List.Nodup
import Mathlib.Data.List.Basic

/-!
Lists whose items have distinct keys, changed at an index.
-/

namespace Ftre.Lib

variable {α κ : Type} [DecidableEq κ] (key : α → κ)

private theorem filter_all_ne {items : List α} {removed : κ} (absent : removed ∉ items.map key) :
    (items.filter fun other => decide (key other ≠ removed)) = items := by
  rw [List.filter_eq_self]
  intro other member
  apply decide_eq_true
  intro same
  exact absent (same ▸ List.mem_map_of_mem member)

theorem eraseIdx_eq_filter {items : List α} (distinct : (items.map key).Nodup) {index : Nat}
    {item : α} (found : items[index]? = some item) :
    items.eraseIdx index = items.filter fun other => decide (key other ≠ key item) := by
  induction items generalizing index with
  | nil => cases found
  | cons head rest ih =>
      obtain ⟨fresh, restDistinct⟩ := List.nodup_cons.mp distinct
      cases index with
      | zero =>
          have same : head = item := Option.some.inj found
          rw [List.eraseIdx_cons_zero, List.filter_cons_of_neg, ← same]
          · exact (filter_all_ne key fresh).symm
          · rw [same]
            exact fun different => of_decide_eq_true different rfl
      | succ index =>
          have later : rest[index]? = some item := found
          have different : key head ≠ key item := by
            intro same
            exact fresh (same ▸ List.mem_map_of_mem (List.mem_of_getElem? later))
          rw [List.eraseIdx_cons_succ, ih restDistinct later, List.filter_cons_of_pos]
          exact decide_eq_true different

theorem set_eq_map {items : List α} (distinct : (items.map key).Nodup) {index : Nat} {item : α}
    (found : items[index]? = some item) (change : α → α) :
    items.set index (change item) =
      items.map fun other => if key other = key item then change other else other := by
  induction items generalizing index with
  | nil => cases found
  | cons head rest ih =>
      obtain ⟨fresh, restDistinct⟩ := List.nodup_cons.mp distinct
      cases index with
      | zero =>
          have same : head = item := Option.some.inj found
          have others : ∀ other ∈ rest,
              (if key other = key item then change other else other) = other := by
            intro other member
            apply if_neg
            intro equal
            apply fresh
            rw [same, ← equal]
            exact List.mem_map_of_mem member
          rw [List.set_cons_zero, List.map_cons, same, if_pos rfl, List.map_congr_left others,
            List.map_id']
      | succ index =>
          have later : rest[index]? = some item := found
          have different : key head ≠ key item := by
            intro same
            exact fresh (same ▸ List.mem_map_of_mem (List.mem_of_getElem? later))
          rw [List.set_cons_succ, List.map_cons, if_neg different, ih restDistinct later]

theorem getElem?_eraseIdx_of_before {items : List α} {index removed : Nat} {item : α}
    (found : items[index]? = some item) (before : index < removed) :
    (items.eraseIdx removed)[index]? = some item := by
  rw [List.getElem?_eraseIdx_of_lt before]
  exact found

end Ftre.Lib
