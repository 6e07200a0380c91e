import Ftre.InlineExtension.Parser

/-!
What the token reader accepts, and where.
-/

namespace Ftre.InlineExtension

open Lib Lib.UrlQuery

/-! ### Readers -/

theorem literal_append (expected rest : Text) : literal expected (expected ++ rest) = some rest := by
  induction expected with
  | nil => rfl
  | cons character others ih => rw [List.cons_append, literal, if_pos rfl, ih]

theorem literal_some {expected text rest : Text} (read : literal expected text = some rest) :
    text = expected ++ rest := by
  induction expected generalizing text with
  | nil => exact Option.some.inj read
  | cons character others ih =>
      cases text with
      | nil => cases read
      | cons first later =>
          rw [literal] at read
          split at read
          next same => rw [same, ih read, List.cons_append]
          next => cases read

section

variable {allowed : Char → Bool} {valid : Text → Bool}

theorem readRun_some {text run rest : Text} (read : readRun allowed valid text = some (run, rest)) :
    text = run ++ rest ∧ valid run = true ∧ ∀ character ∈ run, allowed character = true := by
  unfold readRun at read
  split at read
  next holds =>
    cases read
    exact ⟨List.takeWhile_append_dropWhile.symm, holds, fun _ member =>
      List.mem_takeWhile_imp member⟩
  next => cases read

theorem readRun_append {run : Text} (inside : ∀ character ∈ run, allowed character = true)
    (holds : valid run = true) {stop : Char} (stops : allowed stop = false) (rest : Text) :
    readRun allowed valid (run ++ stop :: rest) = some (run, stop :: rest) := by
  have stuck : ¬ allowed stop = true := Bool.eq_false_iff.mp stops
  rw [readRun, List.takeWhile_append_of_pos inside, List.takeWhile_cons_of_neg stuck,
    List.append_nil, if_pos holds, List.dropWhile_append_of_pos inside,
    List.dropWhile_cons_of_neg stuck]

end

theorem kindTail_chars {behindHyphen : Bool} {text : Text}
    (tail : kindTail behindHyphen text = true) :
    ∀ character ∈ text, isKindChar character = true := by
  induction text generalizing behindHyphen with
  | nil => exact fun _ member => absurd member List.not_mem_nil
  | cons first rest ih =>
      rw [kindTail] at tail
      intro character member
      split at tail
      next hyphen =>
        rw [Bool.and_eq_true] at tail
        cases List.mem_cons.mp member with
        | inl same =>
            rw [same, hyphen]
            decide
        | inr later => exact ih tail.2 character later
      next =>
        rw [Bool.and_eq_true] at tail
        cases List.mem_cons.mp member with
        | inl same => rw [same, isKindChar, tail.1, Bool.true_or]
        | inr later => exact ih tail.2 character later

theorem isKind_chars {kind : Text} (holds : isKind kind = true) :
    ∀ character ∈ kind, isKindChar character = true := by
  cases kind with
  | nil => exact fun _ member => absurd member List.not_mem_nil
  | cons first rest =>
      rw [isKind, Bool.and_eq_true] at holds
      intro character member
      cases List.mem_cons.mp member with
      | inl same => rw [same, isKindChar, holds.1, Bool.true_or, Bool.true_or]
      | inr later => exact kindTail_chars holds.2 character later

theorem not_mem_kind {kind : Text} (holds : isKind kind = true) {other : Char}
    (outside : isKindChar other = false) : other ∉ kind := by
  intro member
  rw [isKind_chars holds other member] at outside
  cases outside

theorem readKind_append {kind : Text} (holds : isKind kind = true) {rest : Text} {stop : Char}
    (behind : rest.head? = some stop) (stops : isKindChar stop = false) :
    readKind (kind ++ rest) = some (kind, rest) := by
  cases rest with
  | nil => cases behind
  | cons first others =>
      cases behind
      exact readRun_append (isKind_chars holds) holds stops others

/-! ### Matches -/

structure TokenMatch.WellFormed (token : TokenMatch) : Prop where
  alt : isKind token.alt = true
  version : ∃ digits, token.version = 'v' :: digits ∧ digits ≠ [] ∧
    ∀ digit ∈ digits, isDigit digit = true
  type : isKind token.type = true
  name : isKind token.name = true
  query : ∀ query, token.query = some query → ∀ character ∈ query, isQueryChar character = true

theorem readQuery_some {text rest : Text} {query : Option Text}
    (read : readQuery text = (query, rest)) : text = querySuffix query ++ rest ∧
      ∀ run, query = some run → ∀ character ∈ run, isQueryChar character = true := by
  unfold readQuery at read
  split at read
  next others =>
    cases read
    refine ⟨?_, fun run same character member => ?_⟩
    · rw [querySuffix, List.cons_append, List.takeWhile_append_dropWhile]
    · cases same
      exact List.mem_takeWhile_imp member
  next =>
    cases read
    exact ⟨rfl, fun run same => by cases same⟩

theorem readQuery_append {query : Option Text}
    (inside : ∀ run, query = some run → ∀ character ∈ run, isQueryChar character = true)
    (rest : Text) : readQuery (querySuffix query ++ ')' :: rest) = (query, ')' :: rest) := by
  cases query with
  | none => rfl
  | some run =>
      have chars := inside run rfl
      rw [querySuffix, List.cons_append, readQuery, List.takeWhile_append_of_pos chars,
        List.takeWhile_cons_of_neg (by decide), List.append_nil,
        List.dropWhile_append_of_pos chars, List.dropWhile_cons_of_neg (by decide)]

theorem version_literal (digits rest : Text) :
    "](ftre://".toList ++ ('v' :: digits ++ rest) = "](ftre://v".toList ++ (digits ++ rest) := rfl

theorem raw_append (alt digits type name : Text) (query : Option Text) (rest : Text) :
    (⟨alt, 'v' :: digits, type, name, query⟩ : TokenMatch).raw ++ rest =
      "![ftre:".toList ++ (alt ++ ("](ftre://v".toList ++ (digits ++ ("/".toList ++ (type ++
        ("/".toList ++ (name ++ (querySuffix query ++ (")".toList ++ rest))))))))) := by
  rw [← version_literal]
  unfold TokenMatch.raw
  generalize "![ftre:".toList = opening
  generalize "](ftre://".toList = scheme
  generalize "/".toList = slash
  generalize ")".toList = closing
  simp only [List.append_assoc]

variable {token : TokenMatch}

theorem matchToken_some {text rest : Text} (matched : matchToken text = some (token, rest)) :
    token.WellFormed ∧ text = token.raw ++ rest := by
  unfold matchToken at matched
  obtain ⟨afterOpen, opening, matched⟩ := Option.bind_eq_some_iff.mp matched
  obtain ⟨⟨alt, afterAlt⟩, readAlt, matched⟩ := Option.bind_eq_some_iff.mp matched
  obtain ⟨afterScheme, scheme, matched⟩ := Option.bind_eq_some_iff.mp matched
  obtain ⟨⟨digits, afterDigits⟩, readVersion, matched⟩ := Option.bind_eq_some_iff.mp matched
  obtain ⟨beforeType, firstSlash, matched⟩ := Option.bind_eq_some_iff.mp matched
  obtain ⟨⟨type, afterType⟩, readType, matched⟩ := Option.bind_eq_some_iff.mp matched
  obtain ⟨beforeName, secondSlash, matched⟩ := Option.bind_eq_some_iff.mp matched
  obtain ⟨⟨name, afterName⟩, readName, matched⟩ := Option.bind_eq_some_iff.mp matched
  cases read : readQuery afterName with
  | mk query afterQuery =>
      dsimp only at matched
      rw [read] at matched
      obtain ⟨beforeRest, closing, matched⟩ := Option.bind_eq_some_iff.mp matched
      dsimp only at matched closing
      cases Option.some.inj matched
      obtain ⟨altText, altKind, _⟩ := readRun_some readAlt
      obtain ⟨versionText, nonempty, digitsOnly⟩ := readRun_some readVersion
      obtain ⟨typeText, typeKind, _⟩ := readRun_some readType
      obtain ⟨nameText, nameKind, _⟩ := readRun_some readName
      obtain ⟨queryText, queryChars⟩ := readQuery_some read
      refine ⟨⟨altKind, ⟨digits, rfl, of_decide_eq_true nonempty, digitsOnly⟩, typeKind, nameKind,
        queryChars⟩, ?_⟩
      rw [raw_append, literal_some opening, altText, literal_some scheme, versionText,
        literal_some firstSlash, typeText, literal_some secondSlash, nameText, queryText,
        literal_some closing]

theorem querySuffix_head (query : Option Text) (rest : Text) :
    ∃ stop, (querySuffix query ++ (")".toList ++ rest)).head? = some stop ∧
      isKindChar stop = false := by
  cases query with
  | none => exact ⟨')', rfl, by decide⟩
  | some run => exact ⟨'?', rfl, by decide⟩

theorem matchToken_raw (formed : token.WellFormed) (rest : Text) :
    matchToken (token.raw ++ rest) = some (token, rest) := by
  cases token with
  | mk alt version type name query =>
      obtain ⟨digits, same, nonempty, digitsOnly⟩ := formed.version
      dsimp only at same
      have readAlt : ∀ rest : Text, readKind (alt ++ ("](ftre://v".toList ++ rest)) =
          some (alt, "](ftre://v".toList ++ rest) :=
        fun _ => readKind_append formed.alt rfl (by decide : isKindChar ']' = false)
      have readVersion : ∀ rest : Text, readDigits (digits ++ ("/".toList ++ rest)) =
          some (digits, "/".toList ++ rest) :=
        readRun_append digitsOnly (decide_eq_true nonempty) (by decide : isDigit '/' = false)
      have readType : ∀ rest : Text, readKind (type ++ ("/".toList ++ rest)) =
          some (type, "/".toList ++ rest) :=
        fun _ => readKind_append formed.type rfl (by decide : isKindChar '/' = false)
      obtain ⟨stop, behind, stops⟩ := querySuffix_head query rest
      have readName := readKind_append formed.name behind stops
      have readSuffix : readQuery (querySuffix query ++ (")".toList ++ rest)) =
        (query, ")".toList ++ rest) := readQuery_append formed.query rest
      rw [same, raw_append, matchToken, literal_append]
      simp only [Option.bind_eq_bind, Option.bind_some, readAlt, literal_append, readVersion,
        readType, readName, readSuffix]
      rfl

/-! ### The search -/

theorem raw_length (token : TokenMatch) : 0 < token.raw.length := by
  unfold TokenMatch.raw
  rw [List.length_append]
  exact Nat.add_pos_right _ (by decide)

theorem findIter_skip (read rest : Text) (position : Nat) :
    findIter read.length position (read ++ rest) =
      findIter 0 (position + read.length) rest := by
  induction read generalizing position with
  | nil => rfl
  | cons character later ih =>
      rw [List.cons_append, List.length_cons, findIter, ih]
      congr 1
      omega

theorem findIter_token (formed : token.WellFormed) (rest : Text) (position : Nat) :
    findIter 0 position (token.raw ++ rest) =
      (token, position) :: findIter 0 (position + token.raw.length) rest := by
  have matched := matchToken_raw formed rest
  cases written : token.raw with
  | nil => exact absurd (raw_length token) (by rw [written]; decide)
  | cons first others =>
      rw [written, List.cons_append] at matched
      rw [List.cons_append, findIter, matched]
      dsimp only
      rw [written, List.length_cons, Nat.add_sub_cancel, findIter_skip]
      congr 2
      omega

theorem findIter_infix {text : Text} {skip position : Nat} {found : TokenMatch × Nat}
    (member : found ∈ findIter skip position text) :
    found.1.WellFormed ∧ found.1.raw <:+: text := by
  induction text generalizing skip position with
  | nil =>
      rw [findIter] at member
      cases member
  | cons character rest ih =>
      cases skip with
      | succ left =>
          obtain ⟨formed, inside⟩ := ih member
          exact ⟨formed, List.infix_cons inside⟩
      | zero =>
          rw [findIter] at member
          split at member
          next token behind matched =>
            cases List.mem_cons.mp member with
            | inl same =>
                obtain ⟨formed, whole⟩ := matchToken_some matched
                rw [same]
                exact ⟨formed, whole ▸ (List.prefix_append _ _).isInfix⟩
            | inr later =>
                obtain ⟨formed, inside⟩ := ih later
                exact ⟨formed, List.infix_cons inside⟩
          next =>
            obtain ⟨formed, inside⟩ := ih member
            exact ⟨formed, List.infix_cons inside⟩

def Contained (text rest : Text) : Prop :=
  ∀ before after, text = before ++ after → after ≠ [] → ∀ token behind,
    matchToken (after ++ rest) = some (token, behind) → token.raw <+: after

theorem findIter_append {text rest : Text} (contained : Contained text rest) {skip : Nat}
    (within : skip ≤ text.length) (position : Nat) :
    findIter skip position (text ++ rest) =
      findIter skip position text ++ findIter 0 (position + text.length) rest := by
  induction text generalizing skip position with
  | nil =>
      cases Nat.le_zero.mp within
      rfl
  | cons character later ih =>
      have inner : Contained later rest := fun before after split =>
        contained (character :: before) after (by rw [split, List.cons_append])
      have shift : position + (later.length + 1) = position + 1 + later.length := by omega
      rw [List.length_cons] at within
      rw [List.cons_append, List.length_cons, shift]
      cases skip with
      | succ left => exact ih inner (Nat.le_of_succ_le_succ within) (position + 1)
      | zero =>
          rw [findIter, findIter]
          cases matched : matchToken (character :: (later ++ rest)) with
          | some found =>
              obtain ⟨token, behind⟩ := found
              have inside : token.raw <+: character :: later :=
                contained [] (character :: later) rfl (List.cons_ne_nil _ _) token behind matched
              obtain ⟨others, whole⟩ := inside
              have own : matchToken (character :: later) = some (token, others) := by
                rw [← whole]
                exact matchToken_raw (matchToken_some matched).1 others
              have short : token.raw.length - 1 ≤ later.length := by
                have total := congrArg List.length whole
                rw [List.length_append, List.length_cons] at total
                omega
              rw [own]
              dsimp only
              rw [ih inner short, List.cons_append]
          | none =>
              have own : matchToken (character :: later) = none := by
                cases alone : matchToken (character :: later) with
                | none => rfl
                | some found =>
                    obtain ⟨formed, whole⟩ := matchToken_some alone
                    rw [← List.cons_append, whole, List.append_assoc,
                      matchToken_raw formed] at matched
                    cases matched
              rw [own]
              exact ih inner (Nat.zero_le _) (position + 1)

/-! ### Written tokens -/

def label (token : TokenMatch) : Text := "[ftre:".toList ++ token.alt ++ "]".toList

theorem not_mem_label (formed : token.WellFormed) {other : Char}
    (outside : isKindChar other = false)
    (opening : other ∉ "[ftre:".toList) (closing : other ∉ "]".toList) : other ∉ label token := by
  intro member
  cases List.mem_append.mp member with
  | inl earlier =>
      cases List.mem_append.mp earlier with
      | inl front => exact opening front
      | inr inside => exact not_mem_kind formed.alt outside inside
  | inr last => exact closing last

theorem raw_parts (formed : token.WellFormed) :
    ∃ body, token.raw = '!' :: label token ++ '(' :: (body ++ [')']) ∧ '(' ∉ body := by
  obtain ⟨digits, same, _, digitsOnly⟩ := formed.version
  refine ⟨"ftre://".toList ++ token.version ++ "/".toList ++ token.type ++ "/".toList ++
    token.name ++ querySuffix token.query, ?_, ?_⟩
  · have opening : "![ftre:".toList = '!' :: "[ftre:".toList := by simp
    have scheme : "](ftre://".toList = "]".toList ++ '(' :: "ftre://".toList := by simp
    have closing : ")".toList = [')'] := by simp
    unfold TokenMatch.raw label
    simp only [opening, scheme, closing, List.append_assoc, List.cons_append]
  · have version : '(' ∉ token.version := by
      rw [same]
      intro member
      cases List.mem_cons.mp member with
      | inl letter => exact absurd letter (by decide)
      | inr digit => exact absurd (digitsOnly '(' digit) (by decide)
    have suffix : '(' ∉ querySuffix token.query := by
      cases asked : token.query with
      | none => exact List.not_mem_nil
      | some query =>
          intro member
          cases List.mem_cons.mp member with
          | inl mark => exact absurd mark (by decide)
          | inr inside => exact absurd (formed.query query asked '(' inside) (by decide)
    have slash : '(' ∉ "/".toList := by decide
    have scheme : '(' ∉ "ftre://".toList := by decide
    have type := not_mem_kind formed.type (by decide : isKindChar '(' = false)
    have name := not_mem_kind formed.name (by decide : isKindChar '(' = false)
    simp only [List.mem_append, not_or]
    exact ⟨⟨⟨⟨⟨⟨scheme, version⟩, slash⟩, type⟩, slash⟩, name⟩, suffix⟩

theorem split_once {α : Type} {mark : α} {left right first second : List α}
    (same : left ++ mark :: right = first ++ mark :: second) (before : mark ∉ first)
    (behind : mark ∉ second) : left = first := by
  rcases List.append_eq_append_iff.mp same with ⟨more, split, others⟩ | ⟨more, split, others⟩
  · cases more with
    | nil => rw [split, List.append_nil]
    | cons character later =>
        cases others
        exact absurd (split ▸ List.mem_append_right _ List.mem_cons_self) before
  · cases more with
    | nil => rw [split, List.append_nil]
    | cons character later =>
        cases others
        exact absurd (List.mem_append_right _ List.mem_cons_self) behind

theorem contained_before (formed : token.WellFormed) (gap rest : Text) :
    Contained gap (token.raw ++ rest) := by
  intro before after _ nonempty found behind matched
  obtain ⟨foundFormed, whole⟩ := matchToken_some matched
  rcases List.append_eq_append_iff.mp whole with ⟨reach, split, others⟩ | ⟨left, split, _⟩
  · by_cases short : reach = []
    · have whole : found.raw = after := by rw [split, short, List.append_nil]
      exact whole ▸ List.prefix_refl after
    exfalso
    obtain ⟨foundBody, foundParts, foundBare⟩ := raw_parts foundFormed
    obtain ⟨body, parts, _⟩ := raw_parts formed
    have closes : ')' ∈ reach := by
      have last : (after ++ reach).getLast? = some ')' := by
        have ended : found.raw = ('!' :: label found ++ '(' :: foundBody) ++ [')'] := by
          rw [foundParts, List.append_assoc]
          rfl
        rw [← split, ended]
        exact List.getLast?_concat
      rw [List.getLast?_append_of_ne_nil _ short] at last
      exact List.mem_of_getLast? last
    have unclosed : ')' ∉ '!' :: label token := by
      intro member
      cases List.mem_cons.mp member with
      | inl same => exact absurd same (by decide)
      | inr inside =>
          exact not_mem_label formed (by decide) (by decide) (by decide) inside
    rw [parts, List.append_assoc] at others
    rcases List.append_eq_append_iff.mp others with ⟨more, head, tail⟩ | ⟨more, head, _⟩
    · cases more with
      | nil =>
          rw [head, List.append_nil] at closes
          exact unclosed closes
      | cons character later =>
          have same : '(' = character := (List.cons.inj tail).1
          rw [foundParts, head, ← same, ← List.append_assoc] at split
          have openings : '(' ∉ '!' :: label found := by
            intro member
            cases List.mem_cons.mp member with
            | inl same => exact absurd same (by decide)
            | inr inside =>
                exact not_mem_label foundFormed (by decide) (by decide) (by decide) inside
          have bodies : '(' ∉ foundBody ++ [')'] := by
            intro member
            cases List.mem_append.mp member with
            | inl inside => exact foundBare inside
            | inr last => exact absurd (List.mem_singleton.mp last) (by decide)
          have same := split_once split.symm openings bodies
          cases after with
          | nil => exact nonempty rfl
          | cons first later =>
              rw [List.cons_append] at same
              have inside : '!' ∈ label found :=
                (List.cons.inj same).2 ▸ List.mem_append_right _ List.mem_cons_self
              exact not_mem_label foundFormed (by decide) (by decide) (by decide) inside
    · exact unclosed (head ▸ List.mem_append_left _ closes)
  · exact split ▸ List.prefix_append _ _

end Ftre.InlineExtension
