import Mathlib.Data.List.Basic
import Mathlib.Data.List.Forall2
import Mathlib.Data.List.Infix

/-!
Reading a text file and writing it back. The reader takes the first encoding that decodes the
file, and one line end for all of it; the text itself has line feeds only.
-/

namespace Ftre.Tools

abbrev Bytes := List UInt8

abbrev Text := List Char

/-! ### Encodings -/

/-- A codec writes what it has read as it was. It may write more: the yen sign becomes the byte of
the backslash in `shift_jis`. -/
structure Codec where
  decode : Bytes → Option Text
  encode : Text → Option Bytes
  writesBack : ∀ data text, decode data = some text → encode text = some data

namespace Codec

def Exact (codec : Codec) : Prop :=
  ∀ data text, codec.decode data = some text ↔ codec.encode text = some data

theorem mapM_eq_some {α β : Type} {read : α → Option β} {items : List α}
    {values : List β} :
    items.mapM read = some values ↔
      List.Forall₂ (fun item value => read item = some value) items values := by
  induction items generalizing values with
  | nil =>
      rw [List.mapM_nil, List.forall₂_nil_left_iff]
      exact ⟨fun same => (Option.some.inj same).symm, fun same => congrArg some same.symm⟩
  | cons item rest ih =>
      rw [List.mapM_cons, List.forall₂_cons_left_iff]
      constructor
      · intro read
        obtain ⟨value, head, read⟩ := Option.bind_eq_some_iff.mp read
        obtain ⟨others, tail, read⟩ := Option.bind_eq_some_iff.mp read
        exact ⟨value, others, head, ih.mp tail, (Option.some.inj read).symm⟩
      · rintro ⟨value, others, head, tail, rfl⟩
        rw [head, ih.mpr tail]
        rfl

def readByte (limit : Nat) (byte : UInt8) : Option Char :=
  if byte.toNat < limit then some (Char.ofNat byte.toNat) else none

def writeByte (limit : Nat) (character : Char) : Option UInt8 :=
  if character.toNat < limit then some (UInt8.ofNat character.toNat) else none

private theorem readByte_iff {limit : Nat} (small : limit ≤ 256) {byte : UInt8}
    {character : Char} :
    readByte limit byte = some character ↔ writeByte limit character = some byte := by
  have code : (Char.ofNat byte.toNat).toNat = byte.toNat := by
    have valid : byte.toNat.isValidChar :=
      Or.inl (Nat.lt_trans (UInt8.toNat_lt_size byte) (by decide))
    rw [Char.ofNat, dif_pos valid]
    rfl
  unfold readByte writeByte
  rw [Option.ite_none_right_eq_some, Option.ite_none_right_eq_some]
  constructor
  · rintro ⟨below, same⟩
    cases same
    rw [code]
    exact ⟨below, congrArg some (UInt8.ofNat_toNat)⟩
  · rintro ⟨below, same⟩
    cases same
    have kept : (UInt8.ofNat character.toNat).toNat = character.toNat :=
      UInt8.toNat_ofNat_of_lt' (Nat.lt_of_lt_of_le below small)
    rw [kept]
    exact ⟨below, congrArg some (Char.ofNat_toNat character)⟩

private theorem singleByte_iff {limit : Nat} (small : limit ≤ 256) (data : Bytes) (text : Text) :
    data.mapM (readByte limit) = some text ↔ text.mapM (writeByte limit) = some data := by
  rw [mapM_eq_some, mapM_eq_some]
  constructor
  · exact fun read => List.Forall₂.flip (read.imp fun _ _ => (readByte_iff small).mp)
  · exact fun read => List.Forall₂.flip (read.imp fun _ _ => (readByte_iff small).mpr)

def singleByte (limit : Nat) (small : limit ≤ 256) : Codec where
  decode data := data.mapM (readByte limit)
  encode text := text.mapM (writeByte limit)
  writesBack data text := (singleByte_iff small data text).mp

theorem singleByte_exact (limit : Nat) (small : limit ≤ 256) : (singleByte limit small).Exact :=
  singleByte_iff small

def ascii : Codec := singleByte 128 (by decide)

def latin1 : Codec := singleByte 256 (Nat.le_refl 256)

private theorem utf8_iff (data : Bytes) (text : Text) :
    (String.fromUTF8? ⟨data.toArray⟩).map String.toList = some text ↔
      some (String.ofList text).toByteArray.data.toList = some data := by
  unfold String.fromUTF8?
  constructor
  · intro read
    obtain ⟨decoded, valid, same⟩ := Option.map_eq_some_iff.mp read
    split at valid
    · cases valid
      rw [← same, String.ofList_toList]
      rfl
    · cases valid
  · intro written
    have same := Option.some.inj written
    subst same
    have valid : ByteArray.IsValidUTF8 ⟨(String.ofList text).toByteArray.data.toList.toArray⟩ :=
      (String.ofList text).isValidUTF8
    rw [dif_pos valid]
    exact congrArg some (String.toList_ofList)

def utf8 : Codec where
  decode data := (String.fromUTF8? ⟨data.toArray⟩).map String.toList
  encode text := some (String.ofList text).toByteArray.data.toList
  writesBack data text := (utf8_iff data text).mp

theorem utf8_exact : utf8.Exact := utf8_iff

end Codec

/-- `cp936` is another name of `gbk`. -/
structure Codecs where
  gbk : Codec
  shiftJis : Codec

structure ExactCodecs extends Codecs where
  gbkExact : gbk.Exact
  shiftJisExact : shiftJis.Exact

inductive Encoding where
  | utf8Sig
  | utf8
  | gbk
  | cp936
  | shiftJis
  | latin1
deriving DecidableEq, Repr

def encodingCandidates : List Encoding := [.utf8Sig, .utf8, .gbk, .cp936, .shiftJis]

def bom : Bytes := [0xEF, 0xBB, 0xBF]

namespace Codecs

/-- `data.decode(encoding)`; `utf-8-sig` drops a byte order mark. -/
def decode (codecs : Codecs) (data : Bytes) : Encoding → Option Text
  | .utf8Sig => Codec.utf8.decode (if bom.isPrefixOf data then data.drop bom.length else data)
  | .utf8 => Codec.utf8.decode data
  | .gbk => codecs.gbk.decode data
  | .cp936 => codecs.gbk.decode data
  | .shiftJis => codecs.shiftJis.decode data
  | .latin1 => Codec.latin1.decode data

/-- `text.encode(encoding)`; `utf-8-sig` puts a byte order mark. -/
def encode (codecs : Codecs) (text : Text) : Encoding → Option Bytes
  | .utf8Sig => (Codec.utf8.encode text).map fun data => bom ++ data
  | .utf8 => Codec.utf8.encode text
  | .gbk => codecs.gbk.encode text
  | .cp936 => codecs.gbk.encode text
  | .shiftJis => codecs.shiftJis.encode text
  | .latin1 => Codec.latin1.encode text

end Codecs

inductive LineEnd where
  | crlf
  | cr
  | lf
deriving DecidableEq, Repr

def LineEnd.text : LineEnd → Text
  | .crlf => ['\r', '\n']
  | .cr => ['\r']
  | .lf => ['\n']

def detectNewline (raw : Text) : LineEnd :=
  if ['\r', '\n'] <:+: raw then .crlf
  else if '\r' ∈ raw then .cr
  else .lf

/-- `raw.replace("\r\n", "\n")`. -/
def replaceCrlf : Text → Text
  | '\r' :: '\n' :: rest => '\n' :: replaceCrlf rest
  | character :: rest => character :: replaceCrlf rest
  | [] => []

/-- `text.replace(old, new)` for one character. -/
def replaceCharacter (old : Char) (new : Text) (text : Text) : Text :=
  text.flatMap fun character => if character = old then new else [character]

def normalized (raw : Text) : Text := replaceCharacter '\r' ['\n'] (replaceCrlf raw)

structure TextFile where
  text : Text
  encoding : Encoding
  newline : LineEnd
  hadBom : Bool

/-- The encoding that decodes the file, and its text as it stands there. -/
def Codecs.rawText (codecs : Codecs) (data : Bytes) : Encoding × Text :=
  match encodingCandidates.findSome? fun encoding =>
      (codecs.decode data encoding).map fun raw => (encoding, raw) with
  | some (.utf8Sig, raw) => (if bom.isPrefixOf data then .utf8Sig else .utf8, raw)
  | some decoded => decoded
  | none => (.latin1, data.map fun byte => Char.ofNat byte.toNat)

def readText (codecs : Codecs) (data : Bytes) : TextFile :=
  let (encoding, raw) := codecs.rawText data
  { text := normalized raw
    encoding := encoding
    newline := detectNewline raw
    hadBom := bom.isPrefixOf data }

/-- `write_text_preserving`: what is written, if the text can be encoded. -/
def writeTextPreserving (codecs : Codecs) (text : Text) (original : TextFile) : Option Bytes :=
  let out :=
    if original.newline = .lf then text else replaceCharacter '\n' original.newline.text text
  let encoding :=
    if original.encoding = .latin1 ∧ codecs.encode out .latin1 = none then .utf8
    else original.encoding
  codecs.encode out encoding

/-! ### Restoring line ends -/

def lineEnds : Text → List LineEnd
  | '\r' :: '\n' :: rest => .crlf :: lineEnds rest
  | '\r' :: rest => .cr :: lineEnds rest
  | '\n' :: rest => .lf :: lineEnds rest
  | _ :: rest => lineEnds rest
  | [] => []

/-- All line ends of the text are alike. -/
def OneLineEnd (raw : Text) : Prop := ∃ style, ∀ found ∈ lineEnds raw, found = style

theorem lineEnds_cr {rest : Text} (noLf : ∀ after, rest = '\n' :: after → False) :
    lineEnds ('\r' :: rest) = .cr :: lineEnds rest := by
  rw [lineEnds]
  exact noLf

theorem lineEnds_character {character : Char} {rest : Text} (notCr : character ≠ '\r')
    (notLf : character ≠ '\n') : lineEnds (character :: rest) = lineEnds rest := by
  rw [lineEnds]
  · exact fun _ same _ => notCr same
  · exact notCr
  · exact notLf

theorem replaceCharacter_same (character : Char) (text : Text) :
    replaceCharacter character [character] text = text := by
  unfold replaceCharacter
  induction text with
  | nil => rfl
  | cons head rest ih =>
      rw [List.flatMap_cons, ih]
      by_cases same : head = character
      · rw [if_pos same, same]
        rfl
      · rw [if_neg same]
        rfl

theorem not_mem_replaceCharacter {old : Char} {new : Text} (gone : old ∉ new)
    (text : Text) : old ∉ replaceCharacter old new text := by
  intro present
  obtain ⟨character, _, inside⟩ := List.mem_flatMap.mp present
  by_cases same : character = old
  · rw [if_pos same] at inside
    exact gone inside
  · rw [if_neg same] at inside
    exact same (List.mem_singleton.mp inside).symm

def restored (style : LineEnd) (raw : Text) : Text :=
  replaceCharacter '\n' style.text (normalized raw)

theorem restored_end {style : LineEnd} {raw rest : Text}
    (reads : replaceCrlf raw = '\r' :: replaceCrlf rest ∨
      replaceCrlf raw = '\n' :: replaceCrlf rest) :
    restored style raw = style.text ++ restored style rest := by
  unfold restored normalized replaceCharacter
  rcases reads with lone | line
  · rw [lone]
    rfl
  · rw [line]
    rfl

theorem restored_character {style : LineEnd} {character : Char} {raw rest : Text}
    (reads : replaceCrlf raw = character :: replaceCrlf rest) (notCr : character ≠ '\r')
    (notLf : character ≠ '\n') : restored style raw = character :: restored style rest := by
  unfold restored normalized replaceCharacter
  rw [reads, List.flatMap_cons, if_neg notCr, List.flatMap_append, List.flatMap_singleton,
    if_neg notLf]
  rfl

theorem restored_iff (style : LineEnd) (raw : Text) :
    restored style raw = raw ↔ ∀ found ∈ lineEnds raw, found = style := by
  induction raw using lineEnds.induct with
  | case1 rest ih =>
      rw [restored_end (Or.inr rfl), lineEnds, List.forall_mem_cons, ← ih]
      cases style with
      | crlf => simp [LineEnd.text]
      | lf => simp [LineEnd.text]
      | cr =>
          refine ⟨fun same => ?_, fun wrong => absurd wrong.1 (by decide)⟩
          have tail : restored .cr rest = '\n' :: rest := (List.cons.inj same).2
          have absent : '\n' ∉ restored .cr rest := not_mem_replaceCharacter (by decide) _
          rw [tail] at absent
          exact absurd List.mem_cons_self absent
  | case2 rest noLf ih =>
      have reads : replaceCrlf ('\r' :: rest) = '\r' :: replaceCrlf rest := by
        rw [replaceCrlf]
        exact fun after _ => noLf after
      rw [restored_end (Or.inl reads), lineEnds_cr noLf, List.forall_mem_cons, ← ih]
      cases style with
      | crlf =>
          refine ⟨fun same => ?_, fun wrong => absurd wrong.1 (by decide)⟩
          exact absurd (List.cons.inj same).2.symm (noLf _)
      | lf => simp [LineEnd.text]
      | cr => simp [LineEnd.text]
  | case3 rest ih =>
      rw [restored_end (Or.inr rfl), lineEnds, List.forall_mem_cons, ← ih]
      cases style <;> simp [LineEnd.text]
  | case4 character rest noCrlf noCr noLf ih =>
      have notCr : character ≠ '\r' := fun same => noCr same
      have notLf : character ≠ '\n' := fun same => noLf same
      have reads : replaceCrlf (character :: rest) = character :: replaceCrlf rest := by
        rw [replaceCrlf]
        exact fun _ same _ => notCr same
      rw [restored_character reads notCr notLf, lineEnds_character notCr notLf, ← ih]
      exact List.cons_inj_right character
  | case5 =>
      exact ⟨fun _ _ present => absurd present List.not_mem_nil, fun _ => rfl⟩

theorem crlf_mem (raw : Text) : ['\r', '\n'] <:+: raw ↔ .crlf ∈ lineEnds raw := by
  induction raw using lineEnds.induct with
  | case1 rest ih =>
      rw [lineEnds]
      exact ⟨fun _ => List.mem_cons_self, fun _ => ⟨[], rest, rfl⟩⟩
  | case2 rest noLf ih =>
      rw [List.infix_cons_iff, ih, lineEnds_cr noLf, List.mem_cons]
      apply or_congr_left
      constructor
      · rintro ⟨after, same⟩
        exact absurd (List.cons.inj same).2.symm (noLf after)
      · intro wrong
        cases wrong
  | case3 rest ih =>
      rw [List.infix_cons_iff, ih, lineEnds, List.mem_cons]
      apply or_congr_left
      constructor
      · rintro ⟨after, same⟩
        exact absurd (List.cons.inj same).1 (by decide)
      · intro wrong
        cases wrong
  | case4 character rest noCrlf noCr noLf ih =>
      rw [List.infix_cons_iff, ih, lineEnds_character noCr noLf]
      apply or_iff_right
      rintro ⟨after, same⟩
      exact noCr (List.cons.inj same).1.symm
  | case5 => simp [lineEnds]

private theorem cr_mem (raw : Text) :
    '\r' ∈ raw ↔ .crlf ∈ lineEnds raw ∨ .cr ∈ lineEnds raw := by
  induction raw using lineEnds.induct with
  | case1 rest ih => simp [lineEnds]
  | case2 rest noLf ih => simp [lineEnds_cr noLf]
  | case3 rest ih => simp [lineEnds, ih]
  | case4 character rest noCrlf noCr noLf ih =>
      rw [List.mem_cons, ih, lineEnds_character noCr noLf]
      exact or_iff_right fun same => noCr same.symm
  | case5 => simp [lineEnds]

theorem oneLineEnd_iff (raw : Text) :
    OneLineEnd raw ↔ ∀ found ∈ lineEnds raw, found = detectNewline raw := by
  constructor
  · rintro ⟨style, alike⟩ found present
    have own := alike found present
    subst own
    unfold detectNewline
    by_cases windows : ['\r', '\n'] <:+: raw
    · rw [if_pos windows]
      exact (alike _ ((crlf_mem raw).mp windows)).symm
    · rw [if_neg windows]
      have noCrlf : .crlf ∉ lineEnds raw := fun member => windows ((crlf_mem raw).mpr member)
      by_cases carriage : '\r' ∈ raw
      · rw [if_pos carriage]
        exact (alike _ (((cr_mem raw).mp carriage).resolve_left noCrlf)).symm
      · rw [if_neg carriage]
        cases found with
        | crlf => exact absurd present noCrlf
        | cr => exact absurd ((cr_mem raw).mpr (Or.inr present)) carriage
        | lf => rfl
  · exact fun alike => ⟨_, alike⟩

/-! ### Writing back -/

private theorem latin1_decode (data : Bytes) :
    Codec.latin1.decode data = some (data.map fun byte => Char.ofNat byte.toNat) := by
  change data.mapM (Codec.readByte 256) = _
  induction data with
  | nil => rfl
  | cons byte rest ih =>
      rw [List.mapM_cons, ih, Codec.readByte, if_pos (UInt8.toNat_lt_size byte)]
      rfl

private theorem found_encoding {codecs : Codecs} {data : Bytes} {encoding : Encoding} {raw : Text}
    (found : (encodingCandidates.findSome? fun encoding =>
      (codecs.decode data encoding).map fun raw => (encoding, raw)) = some (encoding, raw)) :
    encoding ∈ encodingCandidates ∧ codecs.decode data encoding = some raw := by
  obtain ⟨candidate, listed, decoded⟩ := List.exists_of_findSome?_eq_some found
  obtain ⟨text, reads, same⟩ := Option.map_eq_some_iff.mp decoded
  cases same
  exact ⟨listed, reads⟩

private theorem encode_utf8Sig (codecs : Codecs) {data : Bytes}
    (marked : bom.isPrefixOf data = true) (text : Text) :
    codecs.encode text .utf8Sig = some data ↔ codecs.decode data .utf8Sig = some text := by
  obtain ⟨rest, split⟩ := List.isPrefixOf_iff_prefix.mp marked
  have dropped : data.drop bom.length = rest := by
    rw [← split, List.drop_left]
  change (Codec.utf8.encode text).map _ = some data ↔
    Codec.utf8.decode (if bom.isPrefixOf data then data.drop bom.length else data) = some text
  rw [if_pos marked, dropped, Codec.utf8_exact, Option.map_eq_some_iff]
  constructor
  · rintro ⟨written, encoded, same⟩
    rw [← split] at same
    rw [encoded, List.append_cancel_left same]
  · exact fun encoded => ⟨rest, encoded, split⟩

theorem decode_rawText (codecs : Codecs) (data : Bytes) :
    codecs.decode data (codecs.rawText data).1 = some (codecs.rawText data).2 ∧
      ((codecs.rawText data).1 = .utf8Sig → bom.isPrefixOf data = true) := by
  unfold Codecs.rawText
  cases found : encodingCandidates.findSome? fun encoding =>
      (codecs.decode data encoding).map fun raw => (encoding, raw) with
  | none => exact ⟨latin1_decode data, nofun⟩
  | some decoded =>
      obtain ⟨encoding, raw⟩ := decoded
      obtain ⟨listed, reads⟩ := found_encoding found
      cases encoding with
      | utf8Sig =>
          dsimp only
          by_cases marked : bom.isPrefixOf data = true
          · rw [if_pos marked]
            exact ⟨reads, fun _ => marked⟩
          · rw [if_neg marked]
            change Codec.utf8.decode (if bom.isPrefixOf data then _ else data) = some raw at reads
            rw [if_neg marked] at reads
            exact ⟨reads, nofun⟩
      | utf8 => exact ⟨reads, nofun⟩
      | gbk => exact ⟨reads, nofun⟩
      | cp936 => exact ⟨reads, nofun⟩
      | shiftJis => exact ⟨reads, nofun⟩
      | latin1 => exact absurd listed (by decide)

private theorem encode_iff (codecs : ExactCodecs) {encoding : Encoding}
    (plain : encoding ≠ .utf8Sig) (data : Bytes) (text : Text) :
    codecs.encode text encoding = some data ↔ codecs.decode data encoding = some text := by
  cases encoding with
  | utf8Sig => exact absurd rfl plain
  | utf8 => exact (Codec.utf8_exact data text).symm
  | gbk => exact (codecs.gbkExact data text).symm
  | cp936 => exact (codecs.gbkExact data text).symm
  | shiftJis => exact (codecs.shiftJisExact data text).symm
  | latin1 => exact (Codec.singleByte_exact 256 (Nat.le_refl 256) data text).symm

theorem encode_rawText (codecs : ExactCodecs) (data : Bytes) (text : Text) :
    codecs.encode text (codecs.rawText data).1 = some data ↔ text = (codecs.rawText data).2 := by
  obtain ⟨reads, marked⟩ := decode_rawText codecs.toCodecs data
  have written : codecs.encode text (codecs.rawText data).1 = some data ↔
      codecs.decode data (codecs.rawText data).1 = some text := by
    by_cases plain : (codecs.rawText data).1 = .utf8Sig
    · rw [plain]
      exact encode_utf8Sig codecs.toCodecs (marked plain) text
    · exact encode_iff codecs plain data text
  rw [written, reads, Option.some.injEq]
  exact eq_comm

private theorem latin1_last {codecs : Codecs} {data : Bytes}
    (last : (codecs.rawText data).1 = .latin1) : Codec.utf8.decode data = none := by
  unfold Codecs.rawText at last
  cases found : encodingCandidates.findSome? fun encoding =>
      (codecs.decode data encoding).map fun raw => (encoding, raw) with
  | none =>
      have refused := List.findSome?_eq_none_iff.mp found .utf8 (by decide)
      exact Option.map_eq_none_iff.mp refused
  | some decoded =>
      obtain ⟨encoding, raw⟩ := decoded
      obtain ⟨listed, _⟩ := found_encoding found
      rw [found] at last
      cases encoding with
      | utf8Sig =>
          dsimp only at last
          by_cases marked : bom.isPrefixOf data = true
          · rw [if_pos marked] at last
            cases last
          · rw [if_neg marked] at last
            cases last
      | latin1 => exact absurd listed (by decide)
      | utf8 => cases last
      | gbk => cases last
      | cp936 => cases last
      | shiftJis => cases last

theorem written_restored (codecs : ExactCodecs) (data : Bytes) :
    writeTextPreserving codecs.toCodecs (readText codecs.toCodecs data).text
        (readText codecs.toCodecs data) = some data ↔
      restored (detectNewline (codecs.rawText data).2) (codecs.rawText data).2 =
        (codecs.rawText data).2 := by
  have out : (if (readText codecs.toCodecs data).newline = .lf then
      (readText codecs.toCodecs data).text
      else replaceCharacter '\n' (readText codecs.toCodecs data).newline.text
        (readText codecs.toCodecs data).text) =
      restored (detectNewline (codecs.rawText data).2) (codecs.rawText data).2 := by
    change (if detectNewline (codecs.rawText data).2 = .lf then normalized (codecs.rawText data).2
      else _) = _
    by_cases lines : detectNewline (codecs.rawText data).2 = .lf
    · rw [if_pos lines, lines]
      exact (replaceCharacter_same '\n' _).symm
    · exact if_neg lines
  have encoding : (readText codecs.toCodecs data).encoding = (codecs.rawText data).1 := rfl
  unfold writeTextPreserving
  dsimp only
  rw [out, encoding]
  by_cases refused : (codecs.rawText data).1 = .latin1 ∧
      codecs.encode (restored (detectNewline (codecs.rawText data).2) (codecs.rawText data).2)
        .latin1 = none
  · -- Neither the one encoding nor the other writes the file.
    rw [if_pos refused, ← encode_rawText, refused.1, refused.2, encode_iff codecs (by decide)]
    change Codec.utf8.decode data = _ ↔ _
    rw [latin1_last refused.1]
    constructor
    · intro wrong
      cases wrong
    · intro wrong
      cases wrong
  · rw [if_neg refused, encode_rawText]

/-- A file is left as it was if and only if all its line ends are alike. -/
theorem write_back_identity (codecs : ExactCodecs) (data : Bytes) :
    writeTextPreserving codecs.toCodecs (readText codecs.toCodecs data).text
        (readText codecs.toCodecs data) = some data ↔
      OneLineEnd (codecs.rawText data).2 := by
  rw [written_restored, restored_iff, oneLineEnd_iff]

theorem rawText_utf8 (codecs : Codecs) {data : Bytes} {text : Text}
    (unmarked : bom.isPrefixOf data = false) (written : Codec.utf8.encode text = some data) :
    codecs.rawText data = (.utf8, text) := by
  have reads : codecs.decode data .utf8Sig = some text := by
    rw [Codecs.decode, unmarked]
    exact (Codec.utf8_exact data text).mpr written
  unfold Codecs.rawText encodingCandidates
  rw [List.findSome?_cons, reads, unmarked]
  rfl

private def asciiPair : ExactCodecs where
  gbk := .ascii
  shiftJis := .ascii
  gbkExact := Codec.singleByte_exact _ _
  shiftJisExact := Codec.singleByte_exact _ _

/-- Both lines end alike. -/
theorem windows_file_kept :
    writeTextPreserving asciiPair.toCodecs
        (readText asciiPair.toCodecs [0x61, 0x0D, 0x0A, 0x62, 0x0D, 0x0A]).text
        (readText asciiPair.toCodecs [0x61, 0x0D, 0x0A, 0x62, 0x0D, 0x0A]) =
      some [0x61, 0x0D, 0x0A, 0x62, 0x0D, 0x0A] := by
  refine (write_back_identity asciiPair _).mpr ⟨.crlf, ?_⟩
  have raw : asciiPair.rawText [0x61, 0x0D, 0x0A, 0x62, 0x0D, 0x0A] =
      (.utf8, ['a', '\r', '\n', 'b', '\r', '\n']) := rawText_utf8 _ rfl rfl
  rw [raw]
  decide

/-- The second line ends as on another system. -/
def mixedFile : Bytes := [0x61, 0x0D, 0x0A, 0x62, 0x0A]

private theorem mixed_file_written :
    writeTextPreserving asciiPair.toCodecs (readText asciiPair.toCodecs mixedFile).text
        (readText asciiPair.toCodecs mixedFile) = some [0x61, 0x0D, 0x0A, 0x62, 0x0D, 0x0A] := by
  have raw : asciiPair.rawText mixedFile = (.utf8, ['a', '\r', '\n', 'b', '\n']) :=
    rawText_utf8 _ rfl rfl
  have file : readText asciiPair.toCodecs mixedFile =
      ⟨['a', '\n', 'b', '\n'], .utf8, .crlf, false⟩ := by
    unfold readText
    rw [raw]
    rfl
  rw [file]
  rfl

/-- Its line feed becomes a carriage return and a line feed. -/
theorem mixed_file_rewritten :
    writeTextPreserving asciiPair.toCodecs (readText asciiPair.toCodecs mixedFile).text
        (readText asciiPair.toCodecs mixedFile) ≠ some mixedFile := by
  rw [mixed_file_written]
  decide

end Ftre.Tools
