import Ftre.Tools.EditTool

/-!
The lines of a text with their ends.
-/

namespace Ftre.Tools

/-! ### Lines with their ends -/

/-- `text.splitlines(keepends=True)` of a text without carriage returns. -/
def keptLines (current : Text) : Text → List Text
  | [] => if current = [] then [] else [current]
  | character :: rest =>
      if isLineBreak character then (current ++ [character]) :: keptLines [] rest
      else keptLines (current ++ [character]) rest

def endsWithBreak (text : Text) : Bool := text.getLast?.any isLineBreak

def dropBreak (line : Text) : Text := if endsWithBreak line then line.dropLast else line

def Unbroken (text : Text) : Prop := ∀ character ∈ text, isLineBreak character = false

def Closed (line : Text) : Prop :=
  ∃ body character, line = body ++ [character] ∧ isLineBreak character = true ∧ Unbroken body

def Unended (line : Text) : Prop := line ≠ [] ∧ Unbroken line

structure Shape (lines : List Text) : Prop where
  each : ∀ line ∈ lines, Closed line ∨ Unended line
  closed : ∀ before line behind, lines = before ++ line :: behind → behind ≠ [] → Closed line

variable {lines : List Text}

theorem Shape.tail {line : Text} (shape : Shape (line :: lines)) :
    Shape lines where
  each := fun other member => shape.each other (List.mem_cons_of_mem _ member)
  closed := fun before other behind split =>
    shape.closed (line :: before) other behind (by rw [split, List.cons_append])

theorem Shape.behind {before lines : List Text} (shape : Shape (before ++ lines)) :
    Shape lines := by
  induction before with
  | nil => exact shape
  | cons line rest ih => exact ih shape.tail

theorem Shape.before {before lines : List Text} (shape : Shape (before ++ lines))
    (others : lines ≠ []) : ∀ line ∈ before, Closed line := by
  intro line member
  obtain ⟨first, second, split⟩ := List.append_of_mem member
  refine shape.closed first line (second ++ lines) ?_ ?_
  · rw [split, List.append_assoc, List.cons_append]
  · exact List.append_ne_nil_of_right_ne_nil _ others

theorem Shape.flatten_ne_nil (shape : Shape lines) (listed : lines ≠ []) : lines.flatten ≠ [] := by
  cases lines with
  | nil => exact absurd rfl listed
  | cons line rest =>
      rw [List.flatten_cons]
      refine List.append_ne_nil_of_left_ne_nil ?_ _
      rcases shape.each line List.mem_cons_self with ⟨body, character, same, _⟩ | unended
      · rw [same]
        exact List.append_ne_nil_of_right_ne_nil _ (List.cons_ne_nil _ _)
      · exact unended.1

theorem keptLines_shape {current : Text} (unbroken : Unbroken current) (text : Text) :
    Shape (keptLines current text) := by
  induction text generalizing current with
  | nil =>
      rw [keptLines]
      split
      next =>
        exact ⟨fun _ member => absurd member List.not_mem_nil, fun before line behind split =>
          absurd split.symm (List.append_ne_nil_of_right_ne_nil _ (List.cons_ne_nil _ _))⟩
      next started =>
        refine ⟨fun line member => ?_, fun before line behind split others => ?_⟩
        · rw [List.mem_singleton.mp member]
          exact Or.inr ⟨started, unbroken⟩
        · have size := congrArg List.length split
          rw [List.length_singleton, List.length_append, List.length_cons] at size
          have positive := List.length_pos_iff.mpr others
          omega
  | cons character rest ih =>
      rw [keptLines]
      split
      next breaks =>
        have fresh : Unbroken [] := fun _ member => absurd member List.not_mem_nil
        have later := ih fresh
        have own : Closed (current ++ [character]) := ⟨current, character, rfl, breaks, unbroken⟩
        refine ⟨fun line member => ?_, fun before line behind split others => ?_⟩
        · cases List.mem_cons.mp member with
          | inl same => exact Or.inl (same ▸ own)
          | inr inside => exact later.each line inside
        · cases before with
          | nil =>
              rw [List.nil_append] at split
              exact (List.cons.inj split).1 ▸ own
          | cons first more =>
              rw [List.cons_append] at split
              exact later.closed more line behind (List.cons.inj split).2 others
      next plain =>
        refine ih fun other member => ?_
        cases List.mem_append.mp member with
        | inl earlier => exact unbroken other earlier
        | inr same =>
            rw [List.mem_singleton.mp same]
            exact Bool.eq_false_iff.mpr plain

theorem keptLines_flatten (current text : Text) :
    (keptLines current text).flatten = current ++ text := by
  induction text generalizing current with
  | nil =>
      rw [keptLines, List.append_nil]
      split
      next empty => rw [empty, List.flatten_nil]
      next => rw [List.flatten_cons, List.flatten_nil, List.append_nil]
  | cons character rest ih =>
      rw [keptLines]
      split
      · rw [List.flatten_cons, ih, List.nil_append, List.append_assoc]
        rfl
      · rw [ih, List.append_assoc]
        rfl

theorem endsWithBreak_concat (text : Text) (character : Char) :
    endsWithBreak (text ++ [character]) = isLineBreak character := by
  rw [endsWithBreak, List.getLast?_concat]
  rfl

theorem dropBreak_concat (body : Text) {character : Char}
    (breaks : isLineBreak character = true) : dropBreak (body ++ [character]) = body := by
  rw [dropBreak, endsWithBreak_concat, if_pos breaks, List.dropLast_concat]

theorem endsWithBreak_unbroken {text : Text} (unbroken : Unbroken text) :
    endsWithBreak text = false := by
  cases last : text.getLast? with
  | none =>
      rw [endsWithBreak, last]
      rfl
  | some character =>
      rw [endsWithBreak, last]
      exact unbroken character (List.mem_of_getLast? last)

theorem dropBreak_unbroken {text : Text} (unbroken : Unbroken text) : dropBreak text = text := by
  rw [dropBreak, endsWithBreak_unbroken unbroken]
  rfl

theorem splitLines_eq {text : Text} (plain : '\r' ∉ text) {current : Text}
    (unbroken : Unbroken current) :
    splitLines current text = (keptLines current text).map dropBreak := by
  induction text generalizing current with
  | nil =>
      rw [splitLines, keptLines]
      split
      · rfl
      · rw [List.map_singleton, dropBreak_unbroken unbroken]
  | cons character rest ih =>
      rw [List.mem_cons, not_or] at plain
      have read : splitLines current (character :: rest) =
          if isLineBreak character then current :: splitLines [] rest
          else splitLines (current ++ [character]) rest := by
        rw [splitLines]
        exact fun _ same _ => plain.1 same.symm
      rw [read, keptLines]
      split
      next breaks =>
        rw [List.map_cons, dropBreak_concat current breaks,
          ih plain.2 fun _ member => absurd member List.not_mem_nil]
      next stays =>
        refine ih plain.2 fun other member => ?_
        cases List.mem_append.mp member with
        | inl earlier => exact unbroken other earlier
        | inr same =>
            rw [List.mem_singleton.mp same]
            exact Bool.eq_false_iff.mpr stays

/-! ### Joined lines -/

theorem joinLines_cons (line : Text) {others : List Text} (more : others ≠ []) :
    joinLines (line :: others) = line ++ '\n' :: joinLines others := by
  rw [joinLines, List.intercalate_cons_of_ne_nil more, List.append_assoc]
  rfl

theorem joinLines_append {left right : List Text} (first : left ≠ []) (second : right ≠ []) :
    joinLines (left ++ right) = joinLines left ++ '\n' :: joinLines right := by
  induction left with
  | nil => exact absurd rfl first
  | cons line rest ih =>
      by_cases last : rest = []
      · rw [last, List.cons_append, List.nil_append, joinLines_cons line second]
        exact congrArg (· ++ _) List.intercalate_singleton.symm
      · have whole := List.append_ne_nil_of_left_ne_nil last right
        rw [List.cons_append, joinLines_cons line whole, joinLines_cons line last, ih last,
          List.append_assoc]
        rfl

theorem joinLines_splitOn (text : Text) : joinLines (text.splitOn '\n') = text :=
  List.intercalate_splitOn '\n'

def Feeds (text : Text) : Prop :=
  ∀ character ∈ text, isLineBreak character = true → character = '\n'

theorem Feeds.left {left right : Text} (feeds : Feeds (left ++ right)) : Feeds left :=
  fun character member => feeds character (List.mem_append_left _ member)

theorem Feeds.right {left right : Text} (feeds : Feeds (left ++ right)) : Feeds right :=
  fun character member => feeds character (List.mem_append_right _ member)

theorem closed_feed {line : Text} (closed : Closed line) (feeds : Feeds line) :
    line = dropBreak line ++ ['\n'] := by
  obtain ⟨body, character, rfl, breaks, _⟩ := closed
  rw [dropBreak_concat body breaks,
    feeds character (List.mem_append_right _ (List.mem_singleton_self _)) breaks]

theorem joinLines_closed (closed : ∀ line ∈ lines, Closed line) (feeds : Feeds lines.flatten)
    {others : List Text} (more : others ≠ []) :
    joinLines (lines.map dropBreak ++ others) = lines.flatten ++ joinLines others := by
  induction lines with
  | nil => rfl
  | cons line rest ih =>
      rw [List.flatten_cons] at feeds
      have later := ih (fun other member => closed other (List.mem_cons_of_mem _ member))
        feeds.right
      have behind := List.append_ne_nil_of_right_ne_nil (rest.map dropBreak) more
      rw [List.map_cons, List.cons_append, List.flatten_cons, List.append_assoc, ← later,
        joinLines_cons _ behind]
      nth_rewrite 2 [closed_feed (closed line List.mem_cons_self) feeds.left]
      rw [List.append_assoc]
      rfl

theorem joinLines_last (shape : Shape lines) (listed : lines ≠ []) (feeds : Feeds lines.flatten) :
    joinLines (lines.map dropBreak) ++ (if endsWithFeed lines.flatten then ['\n'] else []) =
      lines.flatten := by
  induction lines with
  | nil => exact absurd rfl listed
  | cons line rest ih =>
      cases rest with
      | nil =>
          have single : joinLines [dropBreak line] = dropBreak line := List.intercalate_singleton
          rw [List.flatten_cons, List.flatten_nil, List.append_nil] at feeds ⊢
          rw [List.map_singleton, single]
          rcases shape.each line List.mem_cons_self with closed | unended
          · have whole := closed_feed closed feeds
            have ended : endsWithFeed line = true := by
              rw [whole, endsWithFeed, List.getLast?_concat]
              rfl
            rw [if_pos ended]
            exact whole.symm
          · have unfed : endsWithFeed line = false := by
              rw [endsWithFeed, beq_eq_false_iff_ne]
              intro last
              have breaks := unended.2 _ (List.mem_of_getLast? last)
              revert breaks
              decide
            rw [unfed, dropBreak_unbroken unended.2]
            exact List.append_nil line
      | cons second more =>
          have someMore : second :: more ≠ [] := List.cons_ne_nil _ _
          have closed := shape.closed [] line (second :: more) rfl someMore
          rw [List.flatten_cons] at feeds
          have later := ih shape.tail someMore feeds.right
          have someText := shape.tail.flatten_ne_nil someMore
          have ending : endsWithFeed (line ++ (second :: more).flatten) =
              endsWithFeed (second :: more).flatten := by
            rw [endsWithFeed, List.getLast?_append_of_ne_nil _ someText]
            rfl
          rw [List.flatten_cons, ending, List.map_cons, List.map_cons]
          have start : joinLines (dropBreak line :: dropBreak second :: more.map dropBreak) =
              line ++ joinLines (dropBreak second :: more.map dropBreak) := by
            rw [joinLines_cons _ (List.cons_ne_nil _ _)]
            nth_rewrite 2 [closed_feed closed feeds.left]
            rw [List.append_assoc]
            rfl
          rw [start, List.append_assoc]
          exact congrArg (line ++ ·) later

end Ftre.Tools
