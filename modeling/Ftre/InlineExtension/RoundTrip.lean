import Ftre.InlineExtension.TokenScan

/-!
References are read back from what is written for them, alone and inside any text.
-/

namespace Ftre.InlineExtension

open Lib Lib.UrlQuery

/-- Both references name the same, with the same arguments. -/
structure SameRef (left right : ExtensionRef) : Prop where
  version : left.version = right.version
  type : left.type = right.type
  name : left.name = right.name
  args : ∀ key, left.args.find? key = right.args.find? key

structure Grammatical (ref : ExtensionRef) : Prop where
  type : isKind ref.type = true
  name : isKind ref.name = true
  keys : [] ∉ ref.args.keys

def Fits (token : Text) : Prop := (utf8 token).length ≤ maxTokenBytes

/-- No part of the text is a token. -/
def NoToken (text : Text) : Prop := ∀ part, part <:+: text → ∀ ref, parseOne part ≠ .ok ref

/-- A reference in a text, behind other text. -/
structure Piece where
  gap : Text
  ref : ExtensionRef
  token : Text
  written : serialize ref = .ok token

def assemble (pieces : List Piece) (tail : Text) : Text :=
  pieces.flatMap (fun piece => piece.gap ++ piece.token) ++ tail

/-- Where the tokens start. -/
def starts (position : Nat) : List Piece → List Nat
  | [] => []
  | piece :: rest =>
      (position + piece.gap.length) ::
        starts (position + piece.gap.length + piece.token.length) rest

/-- `text[span.start:span.end]`. -/
def slice (text : Text) (span : ExtensionSpan) : Text :=
  (text.drop span.start).take (span.stop - span.start)

variable (args : KeyedTable Text Text)

theorem sortedFields_perm : (sortedFields args).Perm args.entries := List.mergeSort_perm _ _

theorem sortedFields_keys : ((sortedFields args).map Prod.fst).Nodup :=
  ((sortedFields_perm args).map Prod.fst).nodup_iff.mpr args.distinct

def sortedArgs (args : KeyedTable Text Text) : KeyedTable Text Text where
  entries := sortedFields args
  distinct := sortedFields_keys args

theorem sortedFields_sortedArgs : sortedFields (sortedArgs args) = sortedFields args := by
  refine List.mergeSort_of_pairwise ?_
  refine List.pairwise_mergeSort (fun first second third early late => ?_)
    (fun left right => ?_) args.entries
  · exact decide_eq_true (le_trans (of_decide_eq_true early) (of_decide_eq_true late))
  · rw [Bool.or_eq_true, decide_eq_true_eq, decide_eq_true_eq]
    exact le_total _ _

theorem find?_sortedArgs (key : Text) : (sortedArgs args).find? key = args.find? key := by
  apply Option.ext
  intro value
  rw [KeyedTable.find?_eq_some_iff, KeyedTable.find?_eq_some_iff]
  exact (sortedFields_perm args).mem_iff

theorem sortedFields_eq_nil {args : KeyedTable Text Text} :
    sortedFields args = [] ↔ args.entries = [] := by
  constructor
  · intro empty
    have order := sortedFields_perm args
    rw [empty] at order
    exact order.nil_eq.symm
  · intro empty
    have order := sortedFields_perm args
    rw [empty] at order
    exact order.eq_nil

theorem collectArgs_ok {fields : List Field} (keyed : [] ∉ fields.map Prod.fst)
    (args : KeyedTable Text Text) :
    collectArgs args fields =
      .ok (fields.foldl (fun current field => current.set field.1 field.2) args) := by
  induction fields generalizing args with
  | nil => rfl
  | cons field rest ih =>
      rw [List.map_cons, List.mem_cons, not_or] at keyed
      rw [collectArgs, if_neg fun same => keyed.1 same.symm, ih keyed.2]
      rfl

theorem collectArgs_keys {fields : List Field} {args result : KeyedTable Text Text}
    (keyed : [] ∉ args.keys) (collected : collectArgs args fields = .ok result) :
    [] ∉ result.keys := by
  induction fields generalizing args with
  | nil =>
      cases collected
      exact keyed
  | cons field rest ih =>
      rw [collectArgs] at collected
      split at collected
      next => cases collected
      next nonempty =>
        refine ih ?_ collected
        rw [KeyedTable.keys_set]
        split
        · exact keyed
        · intro member
          cases List.mem_append.mp member with
          | inl earlier => exact keyed earlier
          | inr own => exact nonempty (List.mem_singleton.mp own).symm

/-! ### The token of a reference -/

def tokenOf (ref : ExtensionRef) : TokenMatch where
  alt := ref.type
  version := ref.version
  type := ref.type
  name := ref.name
  query := if ref.args.entries = [] then none else some (urlencode (sortedFields ref.args))

theorem serialize_eq (ref : ExtensionRef) : serialize ref = .ok (tokenOf ref).raw := by
  have suffix : (if urlencode (sortedFields ref.args) = [] then []
      else '?' :: urlencode (sortedFields ref.args)) = querySuffix (tokenOf ref).query := by
    unfold tokenOf
    dsimp only
    by_cases empty : ref.args.entries = []
    · rw [if_pos empty, sortedFields_eq_nil.mpr empty]
      rfl
    · have nonempty : urlencode (sortedFields ref.args) ≠ [] := by
        cases fields : sortedFields ref.args with
        | nil => exact absurd (sortedFields_eq_nil.mp fields) empty
        | cons first others => exact urlencode_cons first others
      rw [if_neg empty, if_neg nonempty]
      rfl
  unfold serialize
  rw [if_neg fun other => other ref.supported]
  dsimp only
  rw [suffix]
  rfl

theorem queryChar_of_written {fields : List Field} {character : Char}
    (member : character ∈ urlencode fields) : isQueryChar character = true := by
  rcases mem_urlencode member with quoted | ampersand | equals
  · have code := code_of_quoted quoted
    have unspaced : Session.isSpace character = false := by
      unfold Session.isSpace
      simp only [Bool.or_eq_false_iff, Bool.and_eq_false_iff, decide_eq_false_iff_not,
        beq_eq_false_iff_ne]
      omega
    unfold isQueryChar
    rw [unspaced, Bool.not_false, Bool.and_true, Bool.and_eq_true, bne_iff_ne, bne_iff_ne]
    exact ⟨ne_of_quoted quoted (by decide), ne_of_quoted quoted (by decide)⟩
  · rw [ampersand]
    decide
  · rw [equals]
    decide

theorem tokenOf_formed {ref : ExtensionRef} (grammatical : Grammatical ref) :
    (tokenOf ref).WellFormed where
  alt := grammatical.type
  version := ⟨['1'], ref.supported, List.cons_ne_nil _ _, fun digit member => by
    rw [List.mem_singleton.mp member]
    decide⟩
  type := grammatical.type
  name := grammatical.name
  query := fun query asked character member => by
    unfold tokenOf at asked
    dsimp only at asked
    split at asked
    next => cases asked
    next =>
      cases asked
      exact queryChar_of_written member

def readBack (ref : ExtensionRef) (start : Nat) : ExtensionRef where
  version := ref.version
  type := ref.type
  name := ref.name
  args := sortedArgs ref.args
  raw := (tokenOf ref).raw
  span := ⟨start, start + (tokenOf ref).raw.length, Nat.le_add_right _ _⟩
  supported := ref.supported
  typed := ref.typed
  named := ref.named

theorem readBack_same (ref : ExtensionRef) (start : Nat) : SameRef (readBack ref start) ref where
  version := rfl
  type := rfl
  name := rfl
  args := find?_sortedArgs ref.args

theorem fromMatch_tokenOf {ref : ExtensionRef} (grammatical : Grammatical ref) (start : Nat) :
    fromMatch (tokenOf ref) start = .ok (readBack ref start) := by
  have parsed : parseQsl ((tokenOf ref).query.getD []) = .ok (sortedFields ref.args) := by
    unfold tokenOf
    dsimp only
    split
    next empty =>
      rw [sortedFields_eq_nil.mpr empty]
      rfl
    next => exact parseQsl_urlencode _
  have keyed : [] ∉ (sortedFields ref.args).map Prod.fst := fun member =>
    grammatical.keys (((sortedFields_perm ref.args).map Prod.fst).mem_iff.mp member)
  have collected : collectArgs .empty (sortedFields ref.args) = .ok (sortedArgs ref.args) := by
    rw [collectArgs_ok keyed]
    exact congrArg _ (KeyedTable.ofList_entries (sortedArgs ref.args))
  unfold fromMatch
  rw [parsed]
  dsimp only
  rw [collected]
  dsimp only
  unfold ExtensionRef.make
  have supported : (tokenOf ref).version = "v1".toList := ref.supported
  have typed : (tokenOf ref).type ≠ [] := ref.typed
  have named : (tokenOf ref).name ≠ [] := ref.named
  rw [dif_pos supported, dif_pos typed, dif_pos named]
  rfl

variable {token : TokenMatch} {ref : ExtensionRef}

theorem matchToken_whole (formed : token.WellFormed) : matchToken token.raw = some (token, []) := by
  have matched := matchToken_raw formed []
  rwa [List.append_nil] at matched

theorem parseOne_raw (formed : token.WellFormed) (fits : Fits token.raw)
    (same : token.alt = token.type) : parseOne token.raw = fromMatch token 0 := by
  unfold parseOne
  rw [matchToken_whole formed]
  dsimp only
  rw [if_neg (Nat.not_lt.mpr fits), if_neg fun other => other same]

theorem parseOne_written (grammatical : Grammatical ref) (fits : Fits (tokenOf ref).raw) :
    parseOne (tokenOf ref).raw = .ok (readBack ref 0) := by
  rw [parseOne_raw (tokenOf_formed grammatical) fits rfl, fromMatch_tokenOf grammatical]

theorem tokenOf_readBack (ref : ExtensionRef) (start : Nat) :
    tokenOf (readBack ref start) = tokenOf ref := by
  have empty : (sortedArgs ref.args).entries = [] ↔ ref.args.entries = [] := sortedFields_eq_nil
  unfold tokenOf readBack
  dsimp only
  rw [sortedFields_sortedArgs]
  simp only [empty]

/-- What `parse_one` accepts is of the grammar. -/
theorem fromMatch_grammatical (formed : token.WellFormed) {start : Nat}
    (read : fromMatch token start = .ok ref) : Grammatical ref := by
  unfold fromMatch at read
  split at read
  next => cases read
  next fields _ =>
    split at read
    next => cases read
    next args collected =>
      unfold ExtensionRef.make at read
      split at read
      next =>
        split at read
        next =>
          split at read
          next =>
            cases read
            exact ⟨formed.type, formed.name,
              collectArgs_keys List.not_mem_nil collected⟩
          next => cases read
        next => cases read
      next => cases read

theorem parseOne_some {raw : Text} (read : parseOne raw = .ok ref) :
    Fits raw ∧ ∃ token, token.WellFormed ∧ token.raw = raw ∧ fromMatch token 0 = .ok ref := by
  unfold parseOne at read
  split at read
  next token matched =>
    obtain ⟨formed, whole⟩ := matchToken_some matched
    rw [List.append_nil] at whole
    split at read
    next => cases read
    next small =>
      split at read
      next => cases read
      next => exact ⟨Nat.not_lt.mp small, token, formed, whole.symm, read⟩
  next => cases read

/-! ### Tokens in a text -/

theorem fromMatch_ok {start : Nat} (other : Nat) (read : fromMatch token start = .ok ref) :
    ∃ moved, fromMatch token other = .ok moved := by
  unfold fromMatch at read ⊢
  split at read
  next => cases read
  next fields _ =>
    split at read
    next => cases read
    next args _ =>
      unfold ExtensionRef.make at read ⊢
      split at read
      next supported =>
        rw [dif_pos supported]
        split at read
        next typed =>
          rw [dif_pos typed]
          split at read
          next named => exact ⟨_, dif_pos named⟩
          next => cases read
        next => cases read
      next => cases read

theorem parseLoop_full {refs : List ExtensionRef} (full : refs.length ≥ maxRefs)
    (found : List (TokenMatch × Nat)) : parseLoop refs found = refs := by
  cases found with
  | nil => rfl
  | cons first rest => rw [parseLoop, if_pos full]

/-- Tokens that `parse_one` refuses leave no reference. -/
theorem parseLoop_refused {found : List (TokenMatch × Nat)}
    (refused : ∀ entry ∈ found, entry.1.WellFormed ∧ ∀ ref, parseOne entry.1.raw ≠ .ok ref)
    (refs : List ExtensionRef) (rest : List (TokenMatch × Nat)) :
    parseLoop refs (found ++ rest) = parseLoop refs rest := by
  induction found with
  | nil => rfl
  | cons entry others ih =>
      have later := ih fun other member => refused other (List.mem_cons_of_mem _ member)
      obtain ⟨formed, never⟩ := refused entry List.mem_cons_self
      by_cases full : refs.length ≥ maxRefs
      · rw [parseLoop_full full, parseLoop_full full]
      · rw [List.cons_append, parseLoop, if_neg full]
        split
        next => exact later
        next small =>
          split
          next => exact later
          next same =>
            split
            next ref read =>
              obtain ⟨moved, first⟩ := fromMatch_ok 0 read
              rw [← parseOne_raw formed (Nat.not_lt.mp small) (not_not.mp same)] at first
              exact absurd first (never moved)
            next => exact later

theorem noToken_refused {text : Text} (clear : NoToken text) (position : Nat) :
    ∀ entry ∈ findIter 0 position text,
      entry.1.WellFormed ∧ ∀ ref, parseOne entry.1.raw ≠ .ok ref := by
  intro entry member
  obtain ⟨formed, inside⟩ := findIter_infix member
  exact ⟨formed, clear _ inside⟩

theorem Piece.token_eq (piece : Piece) : piece.token = (tokenOf piece.ref).raw := by
  have written := piece.written
  rw [serialize_eq] at written
  exact (Except.ok.inj written).symm

structure Piece.Readable (piece : Piece) : Prop where
  grammatical : Grammatical piece.ref
  fits : Fits piece.token
  gap : NoToken piece.gap

def readAll (position : Nat) : List Piece → List ExtensionRef
  | [] => []
  | piece :: rest =>
      readBack piece.ref (position + piece.gap.length) ::
        readAll (position + piece.gap.length + piece.token.length) rest

theorem parseLoop_pieces {pieces : List Piece} (readable : ∀ piece ∈ pieces, piece.Readable)
    {tail : Text} (clear : NoToken tail) {refs : List ExtensionRef}
    (room : refs.length + pieces.length ≤ maxRefs) (position : Nat) :
    parseLoop refs (findIter 0 position (assemble pieces tail)) =
      refs ++ readAll position pieces := by
  induction pieces generalizing refs position with
  | nil =>
      have unread := parseLoop_refused (noToken_refused clear position) refs []
      rw [List.append_nil] at unread
      rw [readAll, List.append_nil]
      exact unread
  | cons piece rest ih =>
      have own := readable piece List.mem_cons_self
      have formed := tokenOf_formed own.grammatical
      have fits := own.fits
      rw [piece.token_eq] at fits
      have text : assemble (piece :: rest) tail =
          piece.gap ++ ((tokenOf piece.ref).raw ++ assemble rest tail) := by
        rw [assemble, List.flatMap_cons, piece.token_eq, List.append_assoc, List.append_assoc]
        rfl
      rw [List.length_cons] at room
      have unfilled : ¬ refs.length ≥ maxRefs := by omega
      rw [text, findIter_append (contained_before formed _ _) (Nat.zero_le _),
        parseLoop_refused (noToken_refused own.gap position), findIter_token formed, parseLoop,
        if_neg unfilled, if_neg (Nat.not_lt.mpr fits), if_neg fun other => other rfl,
        fromMatch_tokenOf own.grammatical]
      dsimp only
      rw [ih (fun other member => readable other (List.mem_cons_of_mem _ member))
        (by rw [List.length_append, List.length_singleton]; omega), readAll, piece.token_eq,
        List.append_assoc]
      rfl

theorem readAll_same (pieces : List Piece) (position : Nat) :
    List.Forall₂ SameRef (readAll position pieces) (pieces.map Piece.ref) := by
  induction pieces generalizing position with
  | nil => exact List.Forall₂.nil
  | cons piece rest ih => exact List.Forall₂.cons (readBack_same _ _) (ih _)

theorem readAll_starts (pieces : List Piece) (position : Nat) :
    (readAll position pieces).map (fun ref => ref.span.start) = starts position pieces := by
  induction pieces generalizing position with
  | nil => rfl
  | cons piece rest ih =>
      rw [readAll, List.map_cons, ih, starts]
      rfl

theorem readAll_slices (pieces : List Piece) (before tail : Text) :
    (readAll before.length pieces).map
      (fun ref => slice (before ++ assemble pieces tail) ref.span) =
        pieces.map Piece.token := by
  induction pieces generalizing before with
  | nil => rfl
  | cons piece rest ih =>
      have text : before ++ assemble (piece :: rest) tail =
          (before ++ piece.gap) ++ (piece.token ++ assemble rest tail) := by
        rw [assemble, List.flatMap_cons, List.append_assoc, List.append_assoc, List.append_assoc]
        rfl
      have size : (tokenOf piece.ref).raw.length = piece.token.length := by rw [piece.token_eq]
      have own : slice (before ++ assemble (piece :: rest) tail)
          (readBack piece.ref (before.length + piece.gap.length)).span = piece.token := by
        unfold slice readBack
        dsimp only
        rw [text, ← List.length_append, List.drop_left, Nat.add_sub_cancel_left, size,
          List.take_left]
      have later := ih ((before ++ piece.gap) ++ piece.token)
      rw [List.append_assoc _ piece.token, ← text, List.length_append, List.length_append] at later
      rw [readAll, List.map_cons, List.map_cons, own, later]

/-! ### The round trip -/

/-- A written reference that fits is read back, alone and among others in a text; what is written
for a token that was read is written again. -/
theorem extension_round_trip :
    (∀ ref token, Grammatical ref → serialize ref = .ok token → Fits token →
      ∃ read, parseOne token = .ok read ∧ SameRef read ref) ∧
    (∀ pieces tail, pieces.length ≤ maxRefs → (∀ piece ∈ pieces, piece.Readable) → NoToken tail →
      List.Forall₂ SameRef (parse (assemble pieces tail)) (pieces.map Piece.ref) ∧
        (parse (assemble pieces tail)).map (fun ref => ref.span.start) = starts 0 pieces ∧
        (parse (assemble pieces tail)).map (fun ref => slice (assemble pieces tail) ref.span) =
          pieces.map Piece.token) ∧
    (∀ raw ref token, parseOne raw = .ok ref → serialize ref = .ok token → Fits token →
      ∃ again, parseOne token = .ok again ∧ SameRef again ref ∧ serialize again = .ok token) := by
  refine ⟨fun ref token grammatical written fits => ?_, fun pieces tail few readable clear => ?_,
    fun raw ref token read written fits => ?_⟩
  · rw [serialize_eq] at written
    cases written
    exact ⟨_, parseOne_written grammatical fits, readBack_same ref 0⟩
  · have parsed : parse (assemble pieces tail) = readAll 0 pieces :=
      parseLoop_pieces readable clear (by rwa [List.length_nil, Nat.zero_add]) 0
    rw [parsed]
    exact ⟨readAll_same pieces 0, readAll_starts pieces 0, readAll_slices pieces [] tail⟩
  · obtain ⟨_, token, formed, _, built⟩ := parseOne_some read
    have grammatical := fromMatch_grammatical formed built
    rw [serialize_eq] at written
    cases written
    refine ⟨_, parseOne_written grammatical fits, readBack_same ref 0, ?_⟩
    rw [serialize_eq, tokenOf_readBack]

def reviewCode : ExtensionRef where
  version := "v1".toList
  type := "skill".toList
  name := "review-code".toList
  args := ⟨[("path".toList, "src/a b".toList)], by decide⟩
  raw := []
  span := ⟨0, 0, Nat.le_refl 0⟩
  supported := rfl
  typed := by decide
  named := by decide

theorem reviewCode_sorted : sortedFields reviewCode.args = [("path".toList, "src/a b".toList)] :=
  List.mergeSort_singleton _

def reviewCodeToken : Text :=
  "![ftre:skill](ftre://v1/skill/review-code?path=src%2Fa%20b)".toList

theorem reviewCode_written : serialize reviewCode = .ok reviewCodeToken := by
  have query : urlencode (sortedFields reviewCode.args) = "path=src%2Fa%20b".toList := by
    rw [reviewCode_sorted]
    decide
  unfold serialize
  rw [query]
  decide

theorem noToken_of_unmarked {text : Text} (unmarked : '!' ∉ text) : NoToken text := by
  intro part inside ref read
  obtain ⟨_, token, _, rfl, _⟩ := parseOne_some read
  apply unmarked
  apply inside.subset
  unfold TokenMatch.raw
  simp

theorem reviewCode_grammatical : Grammatical reviewCode := by
  refine ⟨?_, ?_, ?_⟩
  · decide
  · decide
  · decide

theorem reviewCode_fits : Fits reviewCodeToken := by
  unfold Fits
  decide

private def reviewPiece (gap : Text) : Piece := ⟨gap, reviewCode, _, reviewCode_written⟩

/-- The reference alone, twice in a message, and once more after it is read. -/
theorem reviewCode_read :
    (∃ read, parseOne reviewCodeToken = .ok read ∧ SameRef read reviewCode) ∧
    List.Forall₂ SameRef
      (parse ("Use ".toList ++ reviewCodeToken ++ (" and ".toList ++ reviewCodeToken) ++ ".".toList))
      [reviewCode, reviewCode] ∧
    ∃ again, parseOne reviewCodeToken = .ok again ∧ serialize again = .ok reviewCodeToken := by
  have canonical : (tokenOf reviewCode).raw = reviewCodeToken :=
    Except.ok.inj ((serialize_eq reviewCode).symm.trans reviewCode_written)
  have parsed : parseOne reviewCodeToken = .ok (readBack reviewCode 0) := by
    rw [← canonical]
    exact parseOne_written reviewCode_grammatical (by rw [canonical]; exact reviewCode_fits)
  have rewritten : serialize (readBack reviewCode 0) = .ok reviewCodeToken := by
    rw [serialize_eq, tokenOf_readBack, canonical]
  refine ⟨?_, ?_, ?_⟩
  · exact extension_round_trip.1 reviewCode _ reviewCode_grammatical reviewCode_written
      reviewCode_fits
  · have pieces : ∀ piece ∈ [reviewPiece "Use ".toList, reviewPiece " and ".toList],
        piece.Readable := by
      intro piece present
      rcases List.mem_cons.mp present with rfl | later
      · exact ⟨reviewCode_grammatical, reviewCode_fits, noToken_of_unmarked (by decide)⟩
      · cases List.mem_singleton.mp later
        exact ⟨reviewCode_grammatical, reviewCode_fits, noToken_of_unmarked (by decide)⟩
    exact (extension_round_trip.2.1 _ ".".toList (by decide) pieces
      (noToken_of_unmarked (by decide))).1
  · obtain ⟨again, read, _, same⟩ :=
      extension_round_trip.2.2 _ _ _ parsed rewritten reviewCode_fits
    exact ⟨again, read, same⟩

/-! A reference whose argument has as many letters as one likes. -/

def noteOf (size : Nat) : ExtensionRef where
  version := "v1".toList
  type := "skill".toList
  name := "review".toList
  args := ⟨[("note".toList, List.replicate size 'x')], List.nodup_singleton _⟩
  raw := []
  span := ⟨0, 0, Nat.le_refl 0⟩
  supported := rfl
  typed := by decide
  named := by decide

theorem noteOf_long (size : Nat) : size < (tokenOf (noteOf size)).raw.length := by
  have one : sortedFields (noteOf size).args = [("note".toList, List.replicate size 'x')] :=
    List.mergeSort_singleton _
  have query : (tokenOf (noteOf size)).query =
      some (encodeField ("note".toList, List.replicate size 'x')) := by
    have listed : (noteOf size).args.entries ≠ [] := List.cons_ne_nil _ _
    unfold tokenOf
    dsimp only
    rw [if_neg listed, one, urlencode, List.map_singleton, List.intercalate_singleton]
  have value := length_le_quote (List.replicate size 'x')
  rw [List.length_replicate] at value
  unfold TokenMatch.raw
  rw [query, querySuffix, encodeField]
  simp only [List.length_append, List.length_cons]
  omega

theorem noteOf_grammatical (size : Nat) : Grammatical (noteOf size) := by
  refine ⟨?_, ?_, ?_⟩
  · change isKind "skill".toList = true
    decide
  · change isKind "review".toList = true
    decide
  · change [] ∉ ["note".toList]
    decide

/-- A reference beyond the size limit is written and cannot be read. -/
theorem longNote_refused : ¬ ∀ ref token, Grammatical ref → serialize ref = .ok token →
    ∃ read, parseOne token = .ok read ∧ SameRef read ref := by
  intro always
  obtain ⟨read, parsed, _⟩ :=
    always (noteOf maxTokenBytes) _ (noteOf_grammatical _) (serialize_eq _)
  obtain ⟨fits, _⟩ := parseOne_some parsed
  have long := noteOf_long maxTokenBytes
  have bytes := length_le_utf8 (tokenOf (noteOf maxTokenBytes)).raw
  exact Nat.not_le.mpr (Nat.lt_of_lt_of_le long bytes) fits

end Ftre.InlineExtension
