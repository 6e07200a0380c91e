import Mathlib.Data.List.Chain
import Ftre.Tools.TextFiles

/-!
The glyphs of a text file: its characters with each line end as one. The text that is edited has
one character for each glyph, so a span of it is a span of the file.
-/

namespace Ftre.Tools

/-! ### Glyphs -/

inductive Glyph where
  | line (style : LineEnd)
  | plain (character : Char)
deriving DecidableEq, Repr

def Glyph.text : Glyph → Text
  | .line style => style.text
  | .plain character => [character]

def Glyph.char : Glyph → Char
  | .line _ => '\n'
  | .plain character => character

def glyphs : Text → List Glyph
  | '\r' :: '\n' :: rest => .line .crlf :: glyphs rest
  | '\r' :: rest => .line .cr :: glyphs rest
  | '\n' :: rest => .line .lf :: glyphs rest
  | character :: rest => .plain character :: glyphs rest
  | [] => []

def glyphText (found : List Glyph) : Text := found.flatMap Glyph.text

def restyle (style : LineEnd) (text : Text) : Text := replaceCharacter '\n' style.text text

theorem glyphs_crlf (rest : Text) : glyphs ('\r' :: '\n' :: rest) = .line .crlf :: glyphs rest :=
  rfl

theorem glyphs_lf (rest : Text) : glyphs ('\n' :: rest) = .line .lf :: glyphs rest := rfl

theorem glyphs_cr {rest : Text} (noLf : ∀ after, rest = '\n' :: after → False) :
    glyphs ('\r' :: rest) = .line .cr :: glyphs rest := by
  rw [glyphs]
  exact noLf

variable {character : Char} {raw : Text} {part : List Glyph}

theorem glyphs_character {rest : Text} (notCr : character ≠ '\r') (notLf : character ≠ '\n') :
    glyphs (character :: rest) = .plain character :: glyphs rest := by
  rw [glyphs]
  · exact fun _ same _ => notCr same
  · exact notCr
  · exact notLf

theorem glyphText_glyphs (raw : Text) : glyphText (glyphs raw) = raw := by
  induction raw using lineEnds.induct with
  | case1 rest ih =>
      rw [glyphs_crlf, glyphText, List.flatMap_cons]
      exact congrArg (['\r', '\n'] ++ ·) ih
  | case2 rest noLf ih =>
      rw [glyphs_cr noLf, glyphText, List.flatMap_cons]
      exact congrArg (['\r'] ++ ·) ih
  | case3 rest ih =>
      rw [glyphs_lf, glyphText, List.flatMap_cons]
      exact congrArg (['\n'] ++ ·) ih
  | case4 character rest noCrlf noCr noLf ih =>
      rw [glyphs_character (fun same => noCr same) (fun same => noLf same), glyphText,
        List.flatMap_cons]
      exact congrArg ([character] ++ ·) ih
  | case5 => rfl

theorem normalized_cons {character : Char} {raw rest : Text}
    (reads : replaceCrlf raw = character :: replaceCrlf rest) :
    normalized raw = (if character = '\r' then '\n' else character) :: normalized rest := by
  unfold normalized replaceCharacter
  rw [reads, List.flatMap_cons]
  split <;> rfl

theorem normalized_eq (raw : Text) : normalized raw = (glyphs raw).map Glyph.char := by
  induction raw using lineEnds.induct with
  | case1 rest ih =>
      have reads : replaceCrlf ('\r' :: '\n' :: rest) = '\n' :: replaceCrlf rest := rfl
      rw [glyphs_crlf, List.map_cons, ← ih]
      exact normalized_cons reads
  | case2 rest noLf ih =>
      have reads : replaceCrlf ('\r' :: rest) = '\r' :: replaceCrlf rest := by
        rw [replaceCrlf]
        exact fun after _ => noLf after
      rw [glyphs_cr noLf, List.map_cons, ← ih]
      exact normalized_cons reads
  | case3 rest ih =>
      have reads : replaceCrlf ('\n' :: rest) = '\n' :: replaceCrlf rest := rfl
      rw [glyphs_lf, List.map_cons, ← ih]
      exact normalized_cons reads
  | case4 character rest noCrlf noCr noLf ih =>
      have notCr : character ≠ '\r' := fun same => noCr same
      have reads : replaceCrlf (character :: rest) = character :: replaceCrlf rest := by
        rw [replaceCrlf]
        exact fun _ same _ => notCr same
      have whole := normalized_cons reads
      rw [if_neg notCr] at whole
      rw [glyphs_character notCr fun same => noLf same, List.map_cons, ← ih, whole]
      rfl
  | case5 => rfl

theorem mem_normalized (member : character ∈ normalized raw) :
    character = '\n' ∨ character ∈ raw := by
  rw [normalized_eq] at member
  obtain ⟨glyph, found, same⟩ := List.mem_map.mp member
  cases glyph with
  | line style => exact Or.inl same.symm
  | plain other =>
      have inside : other ∈ glyphText (glyphs raw) :=
        List.mem_flatMap.mpr ⟨_, found, List.mem_singleton_self _⟩
      rw [glyphText_glyphs] at inside
      exact Or.inr (same ▸ inside)

theorem cr_not_mem_normalized (raw : Text) : '\r' ∉ normalized raw :=
  not_mem_replaceCharacter (by decide) _

theorem plain_of_mem (member : .plain character ∈ glyphs raw) :
    character ≠ '\r' ∧ character ≠ '\n' := by
  induction raw using lineEnds.induct with
  | case1 rest ih =>
      rw [glyphs] at member
      cases List.mem_cons.mp member with
      | inl same => cases same
      | inr later => exact ih later
  | case2 rest noLf ih =>
      rw [glyphs_cr noLf] at member
      cases List.mem_cons.mp member with
      | inl same => cases same
      | inr later => exact ih later
  | case3 rest ih =>
      rw [glyphs] at member
      cases List.mem_cons.mp member with
      | inl same => cases same
      | inr later => exact ih later
  | case4 other rest noCrlf noCr noLf ih =>
      rw [glyphs_character (fun same => noCr same) (fun same => noLf same)] at member
      cases List.mem_cons.mp member with
      | inl same =>
          cases same
          exact ⟨fun same => noCr same, fun same => noLf same⟩
      | inr later => exact ih later
  | case5 => cases member

theorem line_mem_iff (raw : Text) (style : LineEnd) :
    .line style ∈ glyphs raw ↔ style ∈ lineEnds raw := by
  induction raw using lineEnds.induct with
  | case1 rest ih => rw [glyphs_crlf, lineEnds, List.mem_cons, List.mem_cons, ih, Glyph.line.injEq]
  | case2 rest noLf ih =>
      rw [glyphs_cr noLf, lineEnds_cr noLf, List.mem_cons, List.mem_cons, ih, Glyph.line.injEq]
  | case3 rest ih => rw [glyphs_lf, lineEnds, List.mem_cons, List.mem_cons, ih, Glyph.line.injEq]
  | case4 character rest noCrlf noCr noLf ih =>
      rw [glyphs_character (fun same => noCr same) (fun same => noLf same),
        lineEnds_character (fun same => noCr same) (fun same => noLf same), List.mem_cons, ih]
      exact or_iff_right fun same => by cases same
  | case5 =>
      exact ⟨fun member => absurd member List.not_mem_nil,
        fun member => absurd member List.not_mem_nil⟩

theorem line_length {style : LineEnd} (member : .line style ∈ glyphs raw) :
    style.text.length ≤ (detectNewline raw).text.length := by
  cases style with
  | crlf =>
      have windows : ['\r', '\n'] <:+: raw := (crlf_mem raw).mpr ((line_mem_iff raw _).mp member)
      rw [detectNewline, if_pos windows]
  | cr => cases detectNewline raw <;> decide
  | lf => cases detectNewline raw <;> decide

theorem restyle_append (style : LineEnd) (left right : Text) :
    restyle style (left ++ right) = restyle style left ++ restyle style right :=
  List.flatMap_append

theorem restyle_cons (style : LineEnd) (character : Char) (rest : Text) :
    restyle style (character :: rest) =
      (if character = '\n' then style.text else [character]) ++ restyle style rest := by
  unfold restyle replaceCharacter
  rw [List.flatMap_cons]

theorem restyle_length (inside : ∀ glyph ∈ part, glyph ∈ glyphs raw) :
    (glyphText part).length ≤
      (restyle (detectNewline raw) (part.map Glyph.char)).length := by
  induction part with
  | nil => exact Nat.le_refl _
  | cons glyph rest ih =>
      have later := ih fun other member => inside other (List.mem_cons_of_mem _ member)
      have own := inside glyph List.mem_cons_self
      rw [List.map_cons, restyle_cons, glyphText, List.flatMap_cons, List.length_append,
        List.length_append]
      refine Nat.add_le_add ?_ later
      cases glyph with
      | line style => exact line_length own
      | plain character =>
          rw [Glyph.char, if_neg (plain_of_mem own).2]
          exact Nat.le_refl _

theorem restyle_iff (inside : ∀ glyph ∈ part, glyph ∈ glyphs raw) :
    restyle (detectNewline raw) (part.map Glyph.char) = glyphText part ↔
      ∀ style, .line style ∈ part → style = detectNewline raw := by
  induction part with
  | nil => exact ⟨fun _ _ member => absurd member List.not_mem_nil, fun _ => rfl⟩
  | cons glyph rest ih =>
      have within : ∀ other ∈ rest, other ∈ glyphs raw :=
        fun other member => inside other (List.mem_cons_of_mem _ member)
      have own := inside glyph List.mem_cons_self
      rw [List.map_cons, restyle_cons, glyphText, List.flatMap_cons]
      cases glyph with
      | line style =>
          rw [Glyph.char, if_pos rfl]
          constructor
          · intro same other member
            have longer := restyle_length within
            have total := congrArg List.length same
            rw [List.length_append, List.length_append] at total
            have size : (detectNewline raw).text.length = style.text.length :=
              Nat.le_antisymm (by
                have bound := longer
                unfold glyphText at bound
                change _ + _ = style.text.length + _ at total
                omega) (line_length own)
            obtain ⟨head, tail⟩ := List.append_inj same size
            have alike : style = detectNewline raw := by
              revert head
              generalize detectNewline raw = detected
              intro head
              cases style <;> cases detected <;> first | rfl | (revert head; decide)
            cases List.mem_cons.mp member with
            | inl here =>
                cases here
                exact alike
            | inr later => exact (ih within).mp tail other later
          · intro alike
            have tail := (ih within).mpr fun other member =>
              alike other (List.mem_cons_of_mem _ member)
            rw [tail, ← alike style List.mem_cons_self]
            rfl
      | plain character =>
          rw [Glyph.char, if_neg (plain_of_mem own).2]
          constructor
          · intro same other member
            cases List.mem_cons.mp member with
            | inl here => cases here
            | inr later => exact (ih within).mp (List.append_cancel_left same) other later
          · intro alike
            have tail := (ih within).mpr fun other member =>
              alike other (List.mem_cons_of_mem _ member)
            rw [tail]
            rfl

/-! ### Neighbours -/

def Split (left right : Glyph) : Prop := ¬ (left = .line .cr ∧ right = .line .lf)

theorem glyphs_head {rest : List Glyph} (first : glyphs raw = .line .lf :: rest) :
    ∃ behind, raw = '\n' :: behind := by
  induction raw using lineEnds.induct with
  | case1 later _ =>
      rw [glyphs] at first
      cases first
  | case2 later noLf _ =>
      rw [glyphs_cr noLf] at first
      cases first
  | case3 later _ => exact ⟨later, rfl⟩
  | case4 character later noCrlf noCr noLf _ =>
      rw [glyphs_character (fun same => noCr same) (fun same => noLf same)] at first
      cases first
  | case5 => cases first

theorem glyphs_split (raw : Text) : (glyphs raw).IsChain Split := by
  induction raw using lineEnds.induct with
  | case1 rest ih =>
      rw [glyphs_crlf, List.isChain_cons]
      exact ⟨fun _ _ both => absurd both.1 (by decide), ih⟩
  | case2 rest noLf ih =>
      rw [glyphs_cr noLf, List.isChain_cons]
      refine ⟨fun glyph head both => ?_, ih⟩
      rw [both.2] at head
      obtain ⟨more, same⟩ := List.head?_eq_some_iff.mp head
      obtain ⟨behind, text⟩ := glyphs_head same
      exact noLf behind text
  | case3 rest ih =>
      rw [glyphs_lf, List.isChain_cons]
      exact ⟨fun _ _ both => absurd both.1 (by decide), ih⟩
  | case4 character rest noCrlf noCr noLf ih =>
      rw [glyphs_character (fun same => noCr same) (fun same => noLf same), List.isChain_cons]
      refine ⟨fun _ _ both => ?_, ih⟩
      cases both.1
  | case5 => exact List.isChain_nil

theorem restyle_short {ending : LineEnd}
    (inside : ∀ glyph ∈ part ++ [Glyph.line ending], glyph ∈ glyphs raw)
    (chain : (part ++ [Glyph.line ending]).IsChain Split) :
    restyle (detectNewline raw) (part.map Glyph.char) ≠
      glyphText (part ++ [Glyph.line ending]) := by
  induction part with
  | nil =>
      intro same
      cases ending <;> cases same
  | cons glyph rest ih =>
      rw [List.cons_append] at chain inside
      have later := ih (fun other member => inside other (List.mem_cons_of_mem _ member))
        chain.tail
      have own := inside glyph List.mem_cons_self
      rw [List.map_cons, restyle_cons, List.cons_append, glyphText, List.flatMap_cons]
      cases glyph with
      | plain character =>
          rw [Glyph.char, if_neg (plain_of_mem own).2]
          exact fun same => later (List.append_cancel_left same)
      | line style =>
          rw [Glyph.char, if_pos rfl]
          have short := line_length own
          have apart : ∀ other more, rest ++ [Glyph.line ending] = other :: more →
              Split (.line style) other := by
            intro other more next
            rw [next, List.isChain_cons_cons] at chain
            exact chain.1
          generalize detectNewline raw = detected at short later
          intro same
          cases detected with
          | crlf =>
              cases style with
              | crlf => exact later (List.append_cancel_left same)
              | lf => cases (List.cons.inj same).1
              | cr =>
                  have next := (List.cons.inj same).2
                  cases tail : rest ++ [Glyph.line ending] with
                  | nil => exact List.append_ne_nil_of_right_ne_nil _ (List.cons_ne_nil _ _) tail
                  | cons other more =>
                      have split := apart other more tail
                      have found := inside other
                        (List.mem_cons_of_mem _ (tail ▸ List.mem_cons_self))
                      rw [tail, List.flatMap_cons] at next
                      cases other with
                      | plain character =>
                          exact (plain_of_mem found).2 (List.cons.inj next).1.symm
                      | line kind =>
                          cases kind with
                          | crlf => cases (List.cons.inj next).1
                          | cr => cases (List.cons.inj next).1
                          | lf => exact split ⟨rfl, rfl⟩
          | cr =>
              cases style with
              | crlf => exact absurd short (by decide)
              | cr => exact later (List.append_cancel_left same)
              | lf => cases (List.cons.inj same).1
          | lf =>
              cases style with
              | crlf => exact absurd short (by decide)
              | cr => cases (List.cons.inj same).1
              | lf => exact later (List.append_cancel_left same)

end Ftre.Tools
