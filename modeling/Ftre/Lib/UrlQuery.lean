import Mathlib.Data.List.SplitBy

/-!
The queries of URLs, as a host's library writes and reads them: percent-encoded bytes of UTF-8,
fields joined by ampersands. Reading undoes writing for every list of fields.
-/

namespace Ftre.Lib.UrlQuery

def isUnreserved (character : Char) : Bool :=
  let code := character.toNat
  (48 ≤ code && code ≤ 57) || (65 ≤ code && code ≤ 90) || (97 ≤ code && code ≤ 122) ||
    code == 45 || code == 46 || code == 95 || code == 126

def hexDigit (value : Nat) : Char :=
  Char.ofNat (if value < 10 then 48 + value else 55 + value)

def hexValue (digit : Char) : Option Nat :=
  let code := digit.toNat
  if 48 ≤ code ∧ code ≤ 57 then some (code - 48)
  else if 65 ≤ code ∧ code ≤ 70 then some (code - 55)
  else if 97 ≤ code ∧ code ≤ 102 then some (code - 87)
  else none

def quoteByte (byte : UInt8) : List Char :=
  if isUnreserved (Char.ofNat byte.toNat) then [Char.ofNat byte.toNat]
  else ['%', hexDigit (byte.toNat / 16), hexDigit (byte.toNat % 16)]

variable (text : List Char) (character : Char) (byte : UInt8)

def utf8 : List UInt8 := text.flatMap String.utf8EncodeChar

def quote : List Char := (utf8 text).flatMap quoteByte

def escaped (first high low : Char) : Option UInt8 :=
  if first = '%' then
    match hexValue high, hexValue low with
    | some upper, some lower => some (UInt8.ofNat (16 * upper + lower))
    | _, _ => none
  else none

def byteOf : UInt8 := UInt8.ofNat character.toNat

/-- `unquote_to_bytes`: a percent sign without two digits stands for itself. -/
def unquoteToBytes : List Char → List UInt8
  | [] => []
  | [only] => [byteOf only]
  | [first, second] => [byteOf first, byteOf second]
  | first :: high :: low :: rest =>
      match escaped first high low with
      | some byte => byte :: unquoteToBytes rest
      | none => byteOf first :: unquoteToBytes (high :: low :: rest)

def within (low high : UInt8) (byte : UInt8) : Bool := low ≤ byte && byte ≤ high

def sequenceOf (first : UInt8) : Option (Nat × (UInt8 → Bool)) :=
  if within 0xC2 0xDF first then some (1, within 0x80 0xBF)
  else if first = 0xE0 then some (2, within 0xA0 0xBF)
  else if first = 0xED then some (2, within 0x80 0x9F)
  else if within 0xE1 0xEF first then some (2, within 0x80 0xBF)
  else if first = 0xF0 then some (3, within 0x90 0xBF)
  else if first = 0xF4 then some (3, within 0x80 0x8F)
  else if within 0xF1 0xF3 first then some (3, within 0x80 0xBF)
  else none

def malformedLength (first : UInt8) (rest : List UInt8) : Nat :=
  match sequenceOf first, rest with
  | some (more, allowed), second :: others =>
      if allowed second then
        2 + ((others.take (more - 1)).takeWhile (within 0x80 0xBF)).length
      else 1
  | _, _ => 1

/-- `data.decode("utf-8", "replace")`. -/
def decodeReplace : List UInt8 → List Char
  | [] => []
  | first :: rest =>
      match (first :: rest).toByteArray.utf8DecodeChar? 0 with
      | some character => character :: decodeReplace (rest.drop (character.utf8Size - 1))
      | none => '\uFFFD' :: decodeReplace (rest.drop (malformedLength first rest - 1))
termination_by bytes => bytes.length
decreasing_by
  all_goals
    rw [List.length_drop, List.length_cons]
    omega

def isAscii : Bool := character.toNat < 128

def unquote (text : List Char) : List Char :=
  (text.splitBy fun left right => isAscii left == isAscii right).flatMap fun run =>
    if run.all isAscii then decodeReplace (unquoteToBytes run) else run

def unquotePlus (text : List Char) : List Char :=
  unquote (text.map fun character => if character = '+' then ' ' else character)

abbrev Field := List Char × List Char

/-- `urlencode(fields, quote_via=quote)`. -/
def encodeField (field : Field) : List Char := quote field.1 ++ '=' :: quote field.2

def urlencode (fields : List Field) : List Char := ['&'].intercalate (fields.map encodeField)

def parseField (text : List Char) : Except (List Char) Field :=
  match text.dropWhile (· ≠ '=') with
  | [] => .error text
  | _ :: value => .ok (unquotePlus (text.takeWhile (· ≠ '=')), unquotePlus value)

def parseQsl (query : List Char) : Except (List Char) (List Field) :=
  if query = [] then .ok [] else (query.splitOn '&').mapM parseField

/-! ### Quoted text -/

def isQuoted : Bool := isUnreserved character || character == '%'

theorem code_of_quoted {character : Char} (quoted : isQuoted character = true) :
    (48 ≤ character.toNat ∧ character.toNat ≤ 57) ∨
      (65 ≤ character.toNat ∧ character.toNat ≤ 90) ∨
      (97 ≤ character.toNat ∧ character.toNat ≤ 122) ∨ character.toNat = 45 ∨
      character.toNat = 46 ∨ character.toNat = 95 ∨ character.toNat = 126 ∨
      character.toNat = 37 := by
  unfold isQuoted isUnreserved at quoted
  simp only [Bool.or_eq_true, Bool.and_eq_true, decide_eq_true_eq, beq_iff_eq] at quoted
  rcases quoted with unreserved | percent
  · omega
  · rw [percent]
    decide

theorem isAscii_of_quoted {character : Char} (quoted : isQuoted character = true) :
    isAscii character = true := by
  have code := code_of_quoted quoted
  unfold isAscii
  rw [decide_eq_true_eq]
  omega

theorem ne_of_quoted {character other : Char} (quoted : isQuoted character = true)
    (reserved : isQuoted other = false) : character ≠ other := by
  intro same
  rw [same, reserved] at quoted
  cases quoted

theorem hexDigit_quoted {value : Nat} (small : value < 16) : isQuoted (hexDigit value) = true := by
  have every : ∀ digit : Fin 16, isQuoted (hexDigit digit) = true := by decide
  exact every ⟨value, small⟩

theorem hexValue_hexDigit {value : Nat} (small : value < 16) :
    hexValue (hexDigit value) = some value := by
  have every : ∀ digit : Fin 16, hexValue (hexDigit digit) = some digit.val := by decide
  exact every ⟨value, small⟩

theorem toNat_ofByte : (Char.ofNat byte.toNat).toNat = byte.toNat := by
  have valid : byte.toNat.isValidChar :=
    Or.inl (Nat.lt_trans (UInt8.toNat_lt_size byte) (by decide))
  rw [Char.ofNat, dif_pos valid]
  rfl

theorem quoteByte_quoted : ∀ character ∈ quoteByte byte,
    isQuoted character = true := by
  intro character member
  have bounded : byte.toNat < 256 := UInt8.toNat_lt_size byte
  unfold quoteByte at member
  split at member
  next unreserved =>
    rw [List.mem_singleton.mp member, isQuoted, unreserved]
    rfl
  next =>
    simp only [List.mem_cons, List.not_mem_nil, or_false] at member
    rcases member with percent | high | low
    · rw [percent]
      decide
    · rw [high]
      exact hexDigit_quoted (by omega)
    · rw [low]
      exact hexDigit_quoted (by omega)

theorem quote_quoted : ∀ character ∈ quote text,
    isQuoted character = true := by
  intro character member
  obtain ⟨byte, _, inside⟩ := List.mem_flatMap.mp member
  exact quoteByte_quoted byte character inside

theorem length_le_flatMap {α β : Type} {write : α → List β}
    (written : ∀ item, write item ≠ []) (items : List α) :
    items.length ≤ (items.flatMap write).length := by
  induction items with
  | nil => exact Nat.zero_le _
  | cons item rest ih =>
      have positive := List.length_pos_iff.mpr (written item)
      rw [List.flatMap_cons, List.length_append, List.length_cons]
      omega

theorem quoteByte_ne_nil : quoteByte byte ≠ [] := by
  unfold quoteByte
  split <;> exact List.cons_ne_nil _ _

theorem length_le_utf8 : text.length ≤ (utf8 text).length :=
  length_le_flatMap (fun _ => String.utf8EncodeChar_ne_nil) text

theorem length_le_quote : text.length ≤ (quote text).length :=
  Nat.le_trans (length_le_utf8 text) (length_le_flatMap quoteByte_ne_nil (utf8 text))

/-! ### Reading what was quoted -/

theorem unquoteToBytes_plain {character : Char} (plain : character ≠ '%') (rest : List Char) :
    unquoteToBytes (character :: rest) = byteOf character :: unquoteToBytes rest := by
  match rest with
  | [] => rfl
  | [_] => rfl
  | high :: low :: later =>
      rw [unquoteToBytes, escaped, if_neg plain]

theorem byteOf_ofByte : byteOf (Char.ofNat byte.toNat) = byte := by
  rw [byteOf, toNat_ofByte]
  exact UInt8.ofNat_toNat

theorem unquoteToBytes_quoteByte (rest : List Char) :
    unquoteToBytes (quoteByte byte ++ rest) = byte :: unquoteToBytes rest := by
  have bounded : byte.toNat < 256 := UInt8.toNat_lt_size byte
  unfold quoteByte
  split
  next unreserved =>
    have plain : Char.ofNat byte.toNat ≠ '%' := by
      intro same
      rw [same] at unreserved
      revert unreserved
      decide
    rw [List.cons_append, List.nil_append, unquoteToBytes_plain plain, byteOf_ofByte]
  next =>
    have whole : 16 * (byte.toNat / 16) + byte.toNat % 16 = byte.toNat :=
      Nat.div_add_mod byte.toNat 16
    have read : escaped '%' (hexDigit (byte.toNat / 16)) (hexDigit (byte.toNat % 16)) =
        some byte := by
      rw [escaped, if_pos rfl, hexValue_hexDigit (by omega), hexValue_hexDigit (by omega)]
      dsimp only
      rw [whole, UInt8.ofNat_toNat]
    rw [List.cons_append, List.cons_append, List.cons_append, List.nil_append, unquoteToBytes,
      read]

theorem unquoteToBytes_quoteBytes (bytes : List UInt8) :
    unquoteToBytes (bytes.flatMap quoteByte) = bytes := by
  induction bytes with
  | nil => rfl
  | cons byte rest ih => rw [List.flatMap_cons, unquoteToBytes_quoteByte, ih]

theorem decodeReplace_append (rest : List UInt8) :
    decodeReplace (String.utf8EncodeChar character ++ rest) =
      character :: decodeReplace rest := by
  have decoded : (String.utf8EncodeChar character ++ rest).toByteArray.utf8DecodeChar? 0 =
      some character := by
    rw [List.toByteArray_append]
    exact ByteArray.utf8DecodeChar?_utf8EncodeChar_append
  have size := String.length_utf8EncodeChar character
  cases written : String.utf8EncodeChar character with
  | nil => exact absurd written String.utf8EncodeChar_ne_nil
  | cons first others =>
      rw [written] at decoded size
      rw [List.cons_append] at decoded ⊢
      rw [decodeReplace, decoded]
      dsimp only
      rw [← size, List.length_cons, Nat.add_sub_cancel, List.drop_left]

theorem decodeReplace_utf8 : decodeReplace (utf8 text) = text := by
  induction text with
  | nil => rw [utf8, List.flatMap_nil, decodeReplace]
  | cons character rest ih =>
      rw [utf8, List.flatMap_cons, decodeReplace_append]
      exact congrArg _ ih

theorem unquote_ascii {text : List Char} (ascii : ∀ character ∈ text, isAscii character = true) :
    unquote text = decodeReplace (unquoteToBytes text) := by
  by_cases empty : text = []
  · rw [empty, unquote, List.splitBy_nil, List.flatMap_nil, unquoteToBytes, decodeReplace]
  · have one : text.splitBy (fun left right => isAscii left == isAscii right) = [text] := by
      refine List.splitBy_of_isChain empty ?_
      refine List.Pairwise.isChain ?_
      refine List.pairwise_of_forall_mem_list fun left member right later => ?_
      rw [ascii left member, ascii right later]
      rfl
    rw [unquote, one, List.flatMap_singleton, if_pos (List.all_eq_true.mpr ascii)]

theorem unquote_quote : unquote (quote text) = text := by
  rw [unquote_ascii fun character member => isAscii_of_quoted (quote_quoted text character member),
    quote, unquoteToBytes_quoteBytes, decodeReplace_utf8]

theorem unquotePlus_quote : unquotePlus (quote text) = text := by
  have unchanged : (quote text).map (fun character => if character = '+' then ' ' else character) =
      (quote text).map id :=
    List.map_congr_left fun character member =>
      if_neg (ne_of_quoted (quote_quoted text character member) (by decide))
  rw [unquotePlus, unchanged, List.map_id, unquote_quote]

theorem parseField_encodeField (field : Field) : parseField (encodeField field) = .ok field := by
  have inside : ∀ character ∈ quote field.1, decide (character ≠ '=') = true :=
    fun character member => decide_eq_true
      (ne_of_quoted (quote_quoted field.1 character member) (by decide))
  have name : (encodeField field).takeWhile (· ≠ '=') = quote field.1 := by
    rw [encodeField, List.takeWhile_append_of_pos inside,
      List.takeWhile_cons_of_neg (by decide), List.append_nil]
  have value : (encodeField field).dropWhile (· ≠ '=') = '=' :: quote field.2 := by
    rw [encodeField, List.dropWhile_append_of_pos inside, List.dropWhile_cons_of_neg (by decide)]
  rw [parseField, value]
  dsimp only
  rw [name, unquotePlus_quote, unquotePlus_quote]

theorem encodeField_unbroken (field : Field) : '&' ∉ encodeField field := by
  intro member
  cases List.mem_append.mp member with
  | inl key => exact ne_of_quoted (quote_quoted _ _ key) (by decide) rfl
  | inr others =>
      cases List.mem_cons.mp others with
      | inl same => exact absurd same (by decide)
      | inr value => exact ne_of_quoted (quote_quoted _ _ value) (by decide) rfl

theorem mapM_parseField (fields : List Field) :
    (fields.map encodeField).mapM parseField = .ok fields := by
  induction fields with
  | nil => rfl
  | cons field rest ih =>
      rw [List.map_cons, List.mapM_cons, parseField_encodeField, ih]
      rfl

theorem urlencode_cons (field : Field) (rest : List Field) : urlencode (field :: rest) ≠ [] := by
  intro empty
  have first : encodeField field ≠ [] := List.append_ne_nil_of_right_ne_nil _ (List.cons_ne_nil _ _)
  cases rest with
  | nil =>
      refine first ?_
      rwa [urlencode, List.map_cons, List.map_nil, List.intercalate_singleton] at empty
  | cons second later =>
      rw [urlencode, List.map_cons, List.map_cons, List.intercalate_cons_cons] at empty
      exact first (List.append_eq_nil_iff.mp (List.append_eq_nil_iff.mp empty).1).1

theorem parseQsl_urlencode (fields : List Field) : parseQsl (urlencode fields) = .ok fields := by
  cases fields with
  | nil => rfl
  | cons field rest =>
      have split : (urlencode (field :: rest)).splitOn '&' = (field :: rest).map encodeField := by
        refine List.splitOn_intercalate '&' (fun text member => ?_) (List.cons_ne_nil _ _)
        obtain ⟨other, _, same⟩ := List.mem_map.mp member
        rw [← same]
        exact encodeField_unbroken other
      rw [parseQsl, if_neg (urlencode_cons field rest), split]
      exact mapM_parseField (field :: rest)

/-! What is written has quoted characters and the two separators only. -/

theorem mem_urlencode {fields : List Field} {character : Char}
    (member : character ∈ urlencode fields) :
    isQuoted character = true ∨ character = '&' ∨ character = '=' := by
  induction fields with
  | nil => cases member
  | cons field rest ih =>
      have inField : character ∈ encodeField field →
          isQuoted character = true ∨ character = '&' ∨ character = '=' := by
        intro inside
        cases List.mem_append.mp inside with
        | inl key => exact Or.inl (quote_quoted _ _ key)
        | inr others =>
            cases List.mem_cons.mp others with
            | inl same => exact Or.inr (Or.inr same)
            | inr value => exact Or.inl (quote_quoted _ _ value)
      cases rest with
      | nil =>
          rw [urlencode, List.map_cons, List.map_nil, List.intercalate_singleton] at member
          exact inField member
      | cons second later =>
          rw [urlencode, List.map_cons, List.map_cons, List.intercalate_cons_cons] at member
          cases List.mem_append.mp member with
          | inl earlier =>
              cases List.mem_append.mp earlier with
              | inl own => exact inField own
              | inr separator => exact Or.inr (Or.inl (List.mem_singleton.mp separator))
          | inr others => exact ih others

end Ftre.Lib.UrlQuery
