import Mathlib.Data.List.Basic

/-!
Searching a text for a pattern, as a list of letter tests.
-/

namespace Ftre.Lib

variable {α : Type}

def afterPattern : List (α → Bool) → List α → Option (List α)
  | [], text => some text
  | _ :: _, [] => none
  | accepts :: pattern, head :: text => if accepts head then afterPattern pattern text else none

def findPattern (pattern : List (α → Bool)) : List α → Option (List α × List α)
  | [] => (afterPattern pattern []).map fun rest => ([], rest)
  | head :: text =>
      match afterPattern pattern (head :: text) with
      | some rest => some ([], rest)
      | none => (findPattern pattern text).map fun found => (head :: found.1, found.2)

example : findPattern [fun digit : Nat => decide (digit = 2)] [1, 2, 3] = some ([1], [3]) := by
  simp [findPattern, afterPattern]

def findBetween (opening closing : List (α → Bool)) (text : List α) : Option (List α) :=
  (findPattern opening text).bind fun found => (findPattern closing found.2).map Prod.fst

def contains (pattern : List (α → Bool)) (text : List α) : Bool := (findPattern pattern text).isSome

/-- Leave out what `token` accepts, from the left; `token` gives what follows. -/
def removeAll (token : List α → Option (List α)) : Nat → List α → List α
  | 0, text => text
  | _ + 1, [] => []
  | fuel + 1, head :: text =>
      match token (head :: text) with
      | some rest => removeAll token fuel rest
      | none => head :: removeAll token fuel text

def Strange (pattern : List (α → Bool)) (letter : α) : Prop :=
  ∀ accepts ∈ pattern, accepts letter = false

/-! ### Occurrences -/

variable {pattern : List (α → Bool)}

theorem afterPattern_append {text left : List α} (rest : List α)
    (matched : afterPattern pattern text = some left) :
    afterPattern pattern (text ++ rest) = some (left ++ rest) := by
  induction pattern generalizing text with
  | nil =>
      cases matched
      rfl
  | cons accepts pattern ih =>
      cases text with
      | nil => cases matched
      | cons head text =>
          obtain ⟨accepted, behind⟩ := Option.ite_none_right_eq_some.mp matched
          rw [List.cons_append, afterPattern, if_pos accepted]
          exact ih behind

theorem afterPattern_strange {letter : α} (strange : Strange pattern letter) (text rest : List α) :
    afterPattern pattern (text ++ letter :: rest) =
      (afterPattern pattern text).map fun left => left ++ letter :: rest := by
  induction pattern generalizing text with
  | nil => rfl
  | cons accepts pattern ih =>
      have own : accepts letter = false := strange accepts List.mem_cons_self
      have others : Strange pattern letter := fun other present =>
        strange other (List.mem_cons_of_mem _ present)
      cases text with
      | nil =>
          rw [List.nil_append]
          change (if accepts letter then afterPattern pattern rest else none) = none
          rw [own]
          rfl
      | cons head text =>
          rw [List.cons_append, afterPattern, afterPattern]
          by_cases accepted : accepts head = true
          · rw [if_pos accepted, if_pos accepted]
            exact ih others text
          · rw [if_neg accepted, if_neg accepted]
            rfl

theorem findPattern_here {text rest : List α} (matched : afterPattern pattern text = some rest) :
    findPattern pattern text = some ([], rest) := by
  cases text with
  | nil => rw [findPattern, matched]; rfl
  | cons head text => rw [findPattern, matched]

theorem findPattern_strange (nonempty : pattern ≠ []) {letter : α}
    (strange : Strange pattern letter) {text : List α} (absent : findPattern pattern text = none)
    (rest : List α) :
    findPattern pattern (text ++ letter :: rest) =
      (findPattern pattern rest).map fun found => (text ++ letter :: found.1, found.2) := by
  induction text with
  | nil =>
      have start : afterPattern pattern (letter :: rest) = none := by
        have parted := afterPattern_strange strange [] rest
        rw [List.nil_append] at parted
        rw [parted]
        cases pattern with
        | nil => exact absurd rfl nonempty
        | cons accepts pattern => rfl
      rw [List.nil_append, findPattern, start]
      rfl
  | cons head text ih =>
      rw [findPattern] at absent
      cases start : afterPattern pattern (head :: text) with
      | some left => rw [start] at absent; cases absent
      | none =>
          rw [start] at absent
          have later : findPattern pattern text = none := Option.map_eq_none_iff.mp absent
          have parted := afterPattern_strange strange (head :: text) rest
          rw [start, List.cons_append] at parted
          rw [List.cons_append, findPattern, parted]
          simp only [Option.map_none, ih later, Option.map_map]
          rfl

theorem findPattern_nil (nonempty : pattern ≠ []) : findPattern pattern [] = none := by
  cases pattern with
  | nil => exact absurd rfl nonempty
  | cons accepts pattern => rfl

theorem findPattern_behind (nonempty : pattern ≠ []) {front : List α}
    (strange : ∀ letter ∈ front, Strange pattern letter) (rest : List α) :
    findPattern pattern (front ++ rest) =
      (findPattern pattern rest).map fun found => (front ++ found.1, found.2) := by
  induction front with
  | nil =>
      rw [List.nil_append]
      cases findPattern pattern rest with
      | none => rfl
      | some found => rfl
  | cons letter front ih =>
      have moved := findPattern_strange nonempty (strange letter List.mem_cons_self)
        (findPattern_nil nonempty) (front ++ rest)
      rw [List.nil_append] at moved
      rw [List.cons_append, moved, ih fun other present =>
        strange other (List.mem_cons_of_mem _ present), Option.map_map]
      rfl

theorem absent_join (nonempty : pattern ≠ []) {letter : α} (strange : Strange pattern letter)
    {left right : List α} (first : findPattern pattern left = none)
    (second : findPattern pattern right = none) :
    findPattern pattern (left ++ letter :: right) = none := by
  rw [findPattern_strange nonempty strange first, second]
  rfl

theorem absent_behind {pattern : List (α → Bool)} (nonempty : pattern ≠ []) {front rest : List α}
    (strange : ∀ letter ∈ front, Strange pattern letter)
    (absent : findPattern pattern rest = none) : findPattern pattern (front ++ rest) = none := by
  rw [findPattern_behind nonempty strange, absent]
  rfl

theorem absent_strange (nonempty : pattern ≠ []) {text : List α}
    (strange : ∀ letter ∈ text, Strange pattern letter) : findPattern pattern text = none := by
  have whole := absent_behind nonempty strange (findPattern_nil nonempty)
  rwa [List.append_nil] at whole

theorem absent_part {front middle back : List α}
    (absent : findPattern pattern (front ++ (middle ++ back)) = none) :
    findPattern pattern middle = none := by
  have behind : findPattern pattern (middle ++ back) = none := by
    induction front with
    | nil => exact absent
    | cons head front ih =>
        rw [List.cons_append, findPattern] at absent
        cases start : afterPattern pattern (head :: (front ++ (middle ++ back))) with
        | some left => rw [start] at absent; cases absent
        | none =>
            rw [start] at absent
            exact ih (Option.map_eq_none_iff.mp absent)
  clear absent
  have unmatched : ∀ text : List α, findPattern pattern (text ++ back) = none →
      afterPattern pattern text = none := by
    intro text none
    cases matched : afterPattern pattern text with
    | none => rfl
    | some left =>
        rw [findPattern_here (afterPattern_append back matched)] at none
        cases none
  induction middle with
  | nil => rw [findPattern, unmatched [] behind]; rfl
  | cons head middle ih =>
      have start := unmatched (head :: middle) behind
      rw [findPattern, start]
      rw [List.cons_append, findPattern] at behind
      cases further : afterPattern pattern (head :: (middle ++ back)) with
      | some left => rw [further] at behind; cases behind
      | none =>
          rw [further] at behind
          simp only [ih (Option.map_eq_none_iff.mp behind), Option.map_none]

theorem findBetween_tagged {opening closing : List (α → Bool)} {openTag closeTag : List α}
    {front body rest : List α} {before behind : α}
    (openMatches : afterPattern opening openTag = some [])
    (closeMatches : afterPattern closing closeTag = some [])
    (openNonempty : opening ≠ []) (closeNonempty : closing ≠ [])
    (strangeBefore : Strange opening before) (strangeBehind : Strange closing behind)
    (frontPlain : findPattern opening front = none)
    (bodyPlain : findPattern closing body = none) :
    findBetween opening closing
        (front ++ before :: (openTag ++ (body ++ behind :: (closeTag ++ rest)))) =
      some (body ++ [behind]) := by
  have openedHere : findPattern opening (openTag ++ (body ++ behind :: (closeTag ++ rest))) =
      some ([], body ++ behind :: (closeTag ++ rest)) :=
    findPattern_here (afterPattern_append _ openMatches)
  have closedHere : findPattern closing (closeTag ++ rest) = some ([], rest) :=
    findPattern_here (afterPattern_append _ closeMatches)
  rw [findBetween, findPattern_strange openNonempty strangeBefore frontPlain, openedHere]
  simp only [Option.map_some, Option.bind_some]
  rw [findPattern_strange closeNonempty strangeBehind bodyPlain, closedHere]
  rfl

end Ftre.Lib
