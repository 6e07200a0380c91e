import Mathlib.Data.List.Basic

/-!
JSON values as a syntax tree, with the two functions a content fingerprint is made of: removal of
a key at every depth, and rendering with sorted keys.
-/

namespace Ftre.Lib

inductive Json where
  | null
  | bool (value : Bool)
  | int (value : Int)
  | float (literal : String)
  | str (value : String)
  | array (items : List Json)
  | object (fields : List (String × Json))
deriving Repr, Inhabited

namespace Json

/-! ### Decidable equality -/

mutual

def same : Json → Json → Bool
  | .null, .null => true
  | .bool left, .bool right => decide (left = right)
  | .int left, .int right => decide (left = right)
  | .float left, .float right => decide (left = right)
  | .str left, .str right => decide (left = right)
  | .array left, .array right => sameItems left right
  | .object left, .object right => sameFields left right
  | _, _ => false

def sameItems : List Json → List Json → Bool
  | [], [] => true
  | left :: lefts, right :: rights => same left right && sameItems lefts rights
  | _, _ => false

def sameFields : List (String × Json) → List (String × Json) → Bool
  | [], [] => true
  | (leftKey, left) :: lefts, (rightKey, right) :: rights =>
      decide (leftKey = rightKey) && same left right && sameFields lefts rights
  | _, _ => false

end

mutual

theorem same_refl : ∀ value : Json, same value value = true
  | .null => rfl
  | .bool _ => by simp [same]
  | .int _ => by simp [same]
  | .float _ => by simp [same]
  | .str _ => by simp [same]
  | .array items => by rw [same]; exact sameItems_refl items
  | .object fields => by rw [same]; exact sameFields_refl fields

theorem sameItems_refl : ∀ items : List Json, sameItems items items = true
  | [] => rfl
  | head :: rest => by rw [sameItems, same_refl head, sameItems_refl rest]; rfl

theorem sameFields_refl : ∀ fields : List (String × Json), sameFields fields fields = true
  | [] => rfl
  | (key, value) :: rest => by
      rw [sameFields, same_refl value, sameFields_refl rest]
      simp

end

mutual

theorem eq_of_same : ∀ left right : Json, same left right = true → left = right
  | .null, right, equal => by cases right <;> simp_all [same]
  | .bool _, right, equal => by cases right <;> simp_all [same]
  | .int _, right, equal => by cases right <;> simp_all [same]
  | .float _, right, equal => by cases right <;> simp_all [same]
  | .str _, right, equal => by cases right <;> simp_all [same]
  | .array items, right, equal => by
      cases right with
      | array others =>
          rw [same] at equal
          rw [eq_of_sameItems items others equal]
      | _ => simp [same] at equal
  | .object fields, right, equal => by
      cases right with
      | object others =>
          rw [same] at equal
          rw [eq_of_sameFields fields others equal]
      | _ => simp [same] at equal

theorem eq_of_sameItems : ∀ lefts rights : List Json, sameItems lefts rights = true → lefts = rights
  | [], rights, equal => by cases rights <;> simp_all [sameItems]
  | left :: lefts, rights, equal => by
      cases rights with
      | nil => simp [sameItems] at equal
      | cons right rights =>
          rw [sameItems, Bool.and_eq_true] at equal
          rw [eq_of_same left right equal.1, eq_of_sameItems lefts rights equal.2]

theorem eq_of_sameFields :
    ∀ lefts rights : List (String × Json), sameFields lefts rights = true → lefts = rights
  | [], rights, equal => by cases rights <;> simp_all [sameFields]
  | (leftKey, left) :: lefts, rights, equal => by
      cases rights with
      | nil => simp [sameFields] at equal
      | cons head rights =>
          rcases head with ⟨rightKey, right⟩
          rw [sameFields, Bool.and_eq_true, Bool.and_eq_true] at equal
          rw [of_decide_eq_true equal.1.1, eq_of_same left right equal.1.2,
            eq_of_sameFields lefts rights equal.2]

end

instance : DecidableEq Json := fun left right =>
  decidable_of_iff (same left right = true)
    ⟨eq_of_same left right, fun equal => equal ▸ same_refl left⟩

def lookup (key : String) : List (String × Json) → Option Json
  | [] => none
  | (other, value) :: rest => if other = key then some value else lookup key rest

/-- `value.get(key)` on an object; anything else has no field. -/
def get? (value : Json) (key : String) : Option Json :=
  match value with
  | .object fields => lookup key fields
  | _ => none

def asString? : Json → Option String
  | .str value => some value
  | _ => none

def asInt? : Json → Option Int
  | .int value => some value
  | _ => none

def asArray? : Json → Option (List Json)
  | .array items => some items
  | _ => none

def asFields? : Json → Option (List (String × Json))
  | .object fields => some fields
  | _ => none

def asOptionString? : Json → Option (Option String)
  | .null => some none
  | .str value => some (some value)
  | _ => none

mutual

def without (key : String) : Json → Json
  | .array items => .array (withoutItems key items)
  | .object fields => .object (withoutFields key fields)
  | .null => .null
  | .bool value => .bool value
  | .int value => .int value
  | .float literal => .float literal
  | .str value => .str value

def withoutItems (key : String) : List Json → List Json
  | [] => []
  | item :: rest => without key item :: withoutItems key rest

def withoutFields (key : String) : List (String × Json) → List (String × Json)
  | [] => []
  | (field, value) :: rest =>
      if field = key then withoutFields key rest
      else (field, without key value) :: withoutFields key rest

end

end Json

end Ftre.Lib
