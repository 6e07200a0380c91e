import Mathlib.Algebra.GroupWithZero.Nat
import Mathlib.Algebra.Order.BigOperators.Group.List
import Mathlib.Algebra.Order.Group.Nat
import Ftre.Lib.JsonObjects
import Ftre.Lib.JsonText

/-!
Texts joined by a separator: how long the result is, when two separators give the
same text, and how much longer an encoded value is than what it holds.
-/

namespace Ftre.Lib

/-! ### Joining -/

theorem intercalate_length (separator : String) {texts : List String} (nonempty : texts ≠ []) :
    (separator.intercalate texts).length + separator.length =
      (texts.map String.length).sum + texts.length * separator.length := by
  induction texts with
  | nil => exact absurd rfl nonempty
  | cons text rest ih =>
      by_cases last : rest = []
      · subst last
        simp
      · have behind := ih last
        rw [String.intercalate_cons_of_ne_nil last, String.length_append, String.length_append,
          List.map_cons, List.sum_cons, List.length_cons, Nat.add_mul]
        omega

theorem join_cons (text : String) (rest : List String) :
    "".intercalate (text :: rest) = text ++ "".intercalate rest := by
  cases rest with
  | nil => simp
  | cons other more =>
      rw [String.intercalate_cons_cons]
      simp

theorem join_nonempty (texts : List String) :
    "".intercalate (texts.filter fun text => text ≠ "") = "".intercalate texts := by
  induction texts with
  | nil => rfl
  | cons text rest ih =>
      by_cases blank : text = ""
      · rw [List.filter_cons_of_neg (by simp [blank]), ih, join_cons, blank, String.empty_append]
      · rw [List.filter_cons_of_pos (by simp [blank]), join_cons, join_cons, ih]

theorem joins_agree (texts : List String) :
    "".intercalate texts = "\n".intercalate texts ↔ texts.length ≤ 1 := by
  constructor
  · intro same
    by_cases nonempty : texts = []
    · simp [nonempty]
    · have plain := intercalate_length "" nonempty
      have lines := intercalate_length "\n" nonempty
      rw [← same] at lines
      have one : "\n".length = 1 := rfl
      have zero : "".length = 0 := rfl
      rw [one] at lines
      rw [zero] at plain
      omega
  · intro short
    cases texts with
    | nil => rfl
    | cons text rest =>
        cases rest with
        | nil => simp
        | cons other more => exact absurd short (by simp)

theorem length_le_intercalate (separator : String) {texts : List String} {text : String}
    (member : text ∈ texts) : text.length ≤ (separator.intercalate texts).length := by
  have whole := intercalate_length separator (List.ne_nil_of_mem member)
  have part : text.length ≤ (texts.map String.length).sum :=
    List.le_sum_of_mem (List.mem_map_of_mem member)
  have positive : 1 ≤ texts.length := List.length_pos_of_mem member
  have separators : separator.length ≤ texts.length * separator.length := by
    calc separator.length = 1 * separator.length := (Nat.one_mul _).symm
      _ ≤ texts.length * separator.length := Nat.mul_le_mul_right _ positive
  omega

theorem intercalate_flatten (separator : String) {texts : List String} (nonempty : texts ≠ [])
    (others : List String) :
    separator.intercalate (separator.intercalate texts :: others) =
      separator.intercalate (texts ++ others) := by
  by_cases none : others = []
  · rw [none, String.intercalate_singleton, List.append_nil]
  · rw [String.intercalate_cons_of_ne_nil none,
      String.intercalate_append_of_ne_nil nonempty none]

theorem intercalate_block (separator : String) {fronts backs : List String}
    (before : fronts ≠ []) (first second third : String) (behind : backs ≠ []) :
    separator.intercalate (fronts ++ ([first, second, third] ++ backs)) =
      separator.intercalate fronts ++ separator ++ (first ++ separator ++ (second ++ separator ++
        (third ++ separator ++ separator.intercalate backs))) := by
  rw [String.intercalate_append_of_ne_nil before (by simp), List.cons_append, List.cons_append,
    List.cons_append, List.nil_append, String.intercalate_cons_of_ne_nil (List.cons_ne_nil _ _),
    String.intercalate_cons_of_ne_nil (List.cons_ne_nil _ _),
    String.intercalate_cons_of_ne_nil behind]

namespace Json

theorem encodeItems_eq (items : List Json) : encodeItems items = items.map encode := by
  induction items with
  | nil => rfl
  | cons item rest ih => rw [encodeItems, ih, List.map_cons]

theorem encodeFields_eq (fields : List (String × Json)) :
    encodeFields fields = fields.map fun field => quote field.1 ++ ": " ++ encode field.2 := by
  induction fields with
  | nil => rfl
  | cons field rest ih =>
      rcases field with ⟨key, value⟩
      rw [encodeFields, ih, List.map_cons]

theorem escapeChar_length (character : Char) : 1 ≤ (escapeChar character).length := by
  rw [escapeChar]
  repeat' split
  all_goals simp

theorem length_le_quote (text : String) : text.length ≤ (quote text).length := by
  have escaped (characters : List Char) :
      characters.length ≤ (characters.flatMap escapeChar).length := by
    induction characters with
    | nil => exact Nat.le_refl 0
    | cons character rest ih =>
        have own := escapeChar_length character
        rw [List.flatMap_cons, List.length_append, List.length_cons]
        omega
  have body := escaped text.toList
  rw [String.length_toList] at body
  rw [quote, String.length_append, String.length_append]
  have inside : (String.ofList (text.toList.flatMap escapeChar)).length =
      (text.toList.flatMap escapeChar).length := String.length_ofList
  omega

theorem length_le_encode {fields : List (String × Json)} {key text : String}
    (member : (key, .str text) ∈ fields) : text.length ≤ (encode (.object fields)).length := by
  have field : quote key ++ ": " ++ encode (.str text) ∈ encodeFields fields := by
    rw [encodeFields_eq]
    exact List.mem_map.mpr ⟨(key, .str text), member, rfl⟩
  have inside := length_le_intercalate ", " field
  have quoted : text.length ≤ (encode (.str text)).length := by
    rw [encode]
    exact length_le_quote text
  rw [encode, String.length_append, String.length_append]
  rw [String.length_append, String.length_append] at inside
  omega

end Json

end Ftre.Lib
