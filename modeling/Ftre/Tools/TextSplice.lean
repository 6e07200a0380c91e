import Ftre.Tools.TextGlyphs

/-!
Replacing a span of a text file in place.
-/

namespace Ftre.Tools

/-! ### Encodings without a state -/

def Codec.Readable (codec : Codec) (text : Text) : Prop :=
  ∀ character ∈ text, ∀ data, codec.encode [character] = some data →
    codec.decode data = some [character]

/-- A text is written and read character by character; the characters that are read are written as
the bytes they were read from, and so are line ends. -/
structure Codec.Stateless (codec : Codec) : Prop where
  writes : ∀ left right, codec.encode (left ++ right) =
    (codec.encode left).bind fun first => (codec.encode right).map (first ++ ·)
  empty : codec.decode [] = some []
  joins : ∀ first second left right, codec.decode first = some left →
    codec.decode second = some right → codec.decode (first ++ second) = some (left ++ right)
  readable : ∀ data text, codec.decode data = some text → codec.Readable text
  ends : codec.Readable ['\r', '\n']

theorem Codec.Exact.stateless {codec : Codec} (exact : codec.Exact)
    (writes : ∀ left right, codec.encode (left ++ right) =
      (codec.encode left).bind fun first => (codec.encode right).map (first ++ ·))
    (empty : codec.encode [] = some []) : codec.Stateless where
  writes := writes
  empty := (exact [] []).mpr empty
  joins first second left right head tail := by
    rw [exact] at head tail ⊢
    rw [writes, head, tail]
    rfl
  readable _ _ _ _ _ data written := (exact data _).mpr written
  ends _ _ data written := (exact data _).mpr written

theorem Codec.utf8_stateless : Codec.utf8.Stateless := by
  refine Codec.utf8_exact.stateless (fun left right => ?_) rfl
  change some (String.ofList (left ++ right)).toByteArray.data.toList =
    some ((String.ofList left).toByteArray.data.toList ++
      (String.ofList right).toByteArray.data.toList)
  rw [String.toByteArray_ofList, String.toByteArray_ofList, String.toByteArray_ofList,
    List.utf8Encode_append, ByteArray.data_append, Array.toList_append]

theorem Codec.singleByte_stateless (limit : Nat) (small : limit ≤ 256) :
    (Codec.singleByte limit small).Stateless := by
  refine (Codec.singleByte_exact limit small).stateless (fun left right => ?_) rfl
  change (left ++ right).mapM (writeByte limit) = (left.mapM (writeByte limit)).bind
    fun first => (right.mapM (writeByte limit)).map (first ++ ·)
  rw [List.mapM_append]
  cases left.mapM (writeByte limit) with
  | none => rfl
  | some first => cases right.mapM (writeByte limit) <;> rfl

variable {left right : Text} {data : Bytes} {text : Text} {character : Char}

theorem Codec.Stateless.parts {codec : Codec} (stateless : codec.Stateless)
    (written : codec.encode (left ++ right) = some data) :
    ∃ first second, codec.encode left = some first ∧ codec.encode right = some second ∧
      data = first ++ second := by
  rw [stateless.writes] at written
  obtain ⟨first, start, written⟩ := Option.bind_eq_some_iff.mp written
  obtain ⟨second, others, same⟩ := Option.map_eq_some_iff.mp written
  exact ⟨first, second, start, others, same.symm⟩

theorem Codec.Stateless.reads {codec : Codec} (stateless : codec.Stateless)
    (readable : codec.Readable text) (written : codec.encode text = some data) :
    codec.decode data = some text := by
  induction text generalizing data with
  | nil =>
      have nothing := codec.writesBack [] [] stateless.empty
      rw [nothing] at written
      cases written
      exact stateless.empty
  | cons character rest ih =>
      obtain ⟨first, second, head, tail, same⟩ :=
        stateless.parts (show codec.encode ([character] ++ rest) = some data from written)
      rw [same]
      exact stateless.joins first second [character] rest
        (readable character List.mem_cons_self first head)
        (ih (fun other member => readable other (List.mem_cons_of_mem _ member)) tail)

/-- The encodings that write no character by what came before it. -/
structure StatelessCodecs extends Codecs where
  gbkStateless : gbk.Stateless
  shiftJisStateless : shiftJis.Stateless

def Encoding.mark : Encoding → Bytes
  | .utf8Sig => bom
  | _ => []

def Codecs.body (codecs : Codecs) : Encoding → Codec
  | .utf8Sig => Codec.utf8
  | .utf8 => Codec.utf8
  | .gbk => codecs.gbk
  | .cp936 => codecs.gbk
  | .shiftJis => codecs.shiftJis
  | .latin1 => Codec.latin1

theorem encode_body (codecs : Codecs) (text : Text) (encoding : Encoding) :
    codecs.encode text encoding =
      ((codecs.body encoding).encode text).map (encoding.mark ++ ·) := by
  cases encoding with
  | utf8Sig => rfl
  | _ => exact Option.map_id.symm ▸ rfl

theorem body_stateless (codecs : StatelessCodecs) (encoding : Encoding) :
    (codecs.toCodecs.body encoding).Stateless := by
  cases encoding with
  | utf8Sig => exact Codec.utf8_stateless
  | utf8 => exact Codec.utf8_stateless
  | gbk => exact codecs.gbkStateless
  | cp936 => exact codecs.gbkStateless
  | shiftJis => exact codecs.shiftJisStateless
  | latin1 => exact Codec.singleByte_stateless 256 (Nat.le_refl 256)

/-! ### Latin-1 -/

theorem latin1_cons (character : Char) (rest : Text) :
    Codec.latin1.encode (character :: rest) = (Codec.writeByte 256 character).bind
      fun byte => (Codec.latin1.encode rest).map (byte :: ·) := by
  change (character :: rest).mapM (Codec.writeByte 256) = (Codec.writeByte 256 character).bind
    fun byte => (rest.mapM (Codec.writeByte 256)).map (byte :: ·)
  rw [List.mapM_cons]
  cases Codec.writeByte 256 character with
  | none => rfl
  | some byte => cases rest.mapM (Codec.writeByte 256) <;> rfl

theorem latin1_writes (text : Text) :
    (∃ data, Codec.latin1.encode text = some data) ↔
      ∀ character ∈ text, character.toNat < 256 := by
  induction text with
  | nil => exact ⟨fun _ _ member => absurd member List.not_mem_nil, fun _ => ⟨[], rfl⟩⟩
  | cons character rest ih =>
      rw [List.forall_mem_cons, ← ih, latin1_cons, Codec.writeByte]
      by_cases small : character.toNat < 256
      · rw [if_pos small, Option.bind_some]
        cases Codec.latin1.encode rest with
        | none =>
            constructor
            · rintro ⟨_, wrong⟩
              cases wrong
            · rintro ⟨_, _, wrong⟩
              cases wrong
        | some bytes => exact ⟨fun _ => ⟨small, _, rfl⟩, fun _ => ⟨_, rfl⟩⟩
      · rw [if_neg small]
        constructor
        · rintro ⟨_, wrong⟩
          cases wrong
        · exact fun both => absurd both.1 small

theorem latin1_length (written : Codec.latin1.encode text = some data) :
    data.length = text.length :=
  (Codec.mapM_eq_some.mp written).length_eq.symm

theorem utf8_encode_cons (character : Char) (rest : Text) :
    Codec.utf8.encode (character :: rest) = (Codec.utf8.encode rest).map
      (String.utf8EncodeChar character ++ ·) := by
  have split := Codec.utf8_stateless.writes [character] rest
  have single : Codec.utf8.encode [character] = some (String.utf8EncodeChar character) := by
    change some (String.ofList [character]).toByteArray.data.toList = _
    rw [String.toByteArray_ofList, List.utf8Encode_singleton, List.data_toByteArray]
  rw [single] at split
  exact split

def IsAscii (text : Text) : Prop := ∀ character ∈ text, character.toNat < 128

theorem ascii_of_size (one : character.utf8Size = 1) : character.toNat < 128 := by
  have small : character.val ≤ 127 := Char.utf8Size_eq_one_iff.mp one
  exact Nat.lt_succ_of_le (UInt32.le_iff_toNat_le.mp small)

theorem size_of_ascii (ascii : character.toNat < 128) : character.utf8Size = 1 :=
  Char.utf8Size_eq_one_iff.mpr (UInt32.le_iff_toNat_le.mpr (Nat.le_of_lt_succ ascii))

theorem utf8_length (text : Text) : ∃ data, Codec.utf8.encode text = some data ∧
    text.length ≤ data.length ∧ (data.length = text.length → IsAscii text) := by
  induction text with
  | nil => exact ⟨[], rfl, Nat.le_refl _, fun _ _ member => by cases member⟩
  | cons character rest ih =>
      obtain ⟨data, written, bound, ascii⟩ := ih
      have size := String.length_utf8EncodeChar character
      have positive := Char.utf8Size_pos character
      refine ⟨String.utf8EncodeChar character ++ data, ?_, ?_, ?_⟩
      · rw [utf8_encode_cons, written]
        rfl
      · rw [List.length_append, List.length_cons]
        omega
      · intro same
        rw [List.length_append, List.length_cons] at same
        intro other member
        cases List.mem_cons.mp member with
        | inl own =>
            have one : character.utf8Size = 1 := by omega
            rw [own]
            exact ascii_of_size one
        | inr later => exact ascii (by omega) other later

theorem ascii_of_same (latin : Codec.latin1.encode text = some data)
    (utf : Codec.utf8.encode text = some data) : IsAscii text := by
  obtain ⟨other, written, _, ascii⟩ := utf8_length text
  rw [utf] at written
  cases written
  exact ascii (latin1_length latin)

theorem same_of_ascii (ascii : IsAscii text) :
    Codec.utf8.encode text = Codec.latin1.encode text := by
  induction text with
  | nil => rfl
  | cons character rest ih =>
      have later := ih fun other member => ascii other (List.mem_cons_of_mem _ member)
      have small := ascii character List.mem_cons_self
      have byte : String.utf8EncodeChar character = [UInt8.ofNat character.toNat] :=
        String.utf8EncodeChar_eq_singleton (size_of_ascii small)
      rw [utf8_encode_cons, later, latin1_cons, Codec.writeByte, byte,
        if_pos (Nat.lt_trans small (by decide))]
      rfl

/-! ### Spans -/

def fileGlyphs (codecs : Codecs) (data : Bytes) : List Glyph := glyphs (codecs.rawText data).2

def fileStyle (codecs : Codecs) (data : Bytes) : LineEnd := detectNewline (codecs.rawText data).2

def FallsBack (codecs : Codecs) (data : Bytes) (new : Text) : Prop :=
  (codecs.rawText data).1 = .latin1 ∧
    Codec.latin1.encode (restyle (fileStyle codecs data) new) = none

instance (codecs : Codecs) (data : Bytes) (new : Text) : Decidable (FallsBack codecs data new) :=
  inferInstanceAs (Decidable (_ ∧ _))

def writtenEncoding (codecs : Codecs) (data : Bytes) (new : Text) : Encoding :=
  if FallsBack codecs data new then .utf8 else (codecs.rawText data).1

structure Parts where
  lead : List Glyph
  span : List Glyph
  trail : List Glyph

def parts (codecs : Codecs) (data : Bytes) (start length : Nat) : Parts where
  lead := (fileGlyphs codecs data).take start
  span := ((fileGlyphs codecs data).drop start).take length
  trail := (fileGlyphs codecs data).drop (start + length)

def Spliced (codecs : Codecs) (data : Bytes) (start length : Nat) (new : Text) (out : Bytes) :
    Prop :=
  let encoding := (codecs.rawText data).1
  let around := parts codecs data start length
  let written := codecs.body (writtenEncoding codecs data new)
  ∃ lead span trail replacement,
    data = encoding.mark ++ (lead ++ (span ++ trail)) ∧
      out = encoding.mark ++ (lead ++ (replacement ++ trail)) ∧
      (codecs.body encoding).encode (glyphText around.lead) = some lead ∧
      (codecs.body encoding).encode (glyphText around.span) = some span ∧
      (codecs.body encoding).encode (glyphText around.trail) = some trail ∧
      written.encode (glyphText around.lead) = some lead ∧
      written.encode (glyphText around.trail) = some trail ∧
      written.decode replacement = some (restyle (fileStyle codecs data) new)

def splicedText (codecs : Codecs) (data : Bytes) (start length : Nat) (new : Text) : Text :=
  glyphText (parts codecs data start length).lead ++ (restyle (fileStyle codecs data) new ++
    glyphText (parts codecs data start length).trail)

def ReadsBack (codecs : Codecs) (data : Bytes) (new : Text) : Prop :=
  (codecs.body (writtenEncoding codecs data new)).Readable new

def SameBytes (codecs : Codecs) (data : Bytes) (start length : Nat) (new : Text) : Prop :=
  FallsBack codecs data new → IsAscii (glyphText (parts codecs data start length).lead) ∧
    IsAscii (glyphText (parts codecs data start length).trail)

theorem glyphText_append (left right : List Glyph) :
    glyphText (left ++ right) = glyphText left ++ glyphText right := List.flatMap_append

theorem parts_whole (codecs : Codecs) (data : Bytes) (start length : Nat) :
    (parts codecs data start length).lead ++ ((parts codecs data start length).span ++
      (parts codecs data start length).trail) = fileGlyphs codecs data := by
  unfold parts
  dsimp only
  rw [← List.drop_drop, List.take_append_drop, List.take_append_drop]

theorem parts_text (codecs : Codecs) (data : Bytes) (start length : Nat) :
    glyphText (parts codecs data start length).lead ++
      (glyphText (parts codecs data start length).span ++
        glyphText (parts codecs data start length).trail) = (codecs.rawText data).2 := by
  rw [← glyphText_append, ← glyphText_append, parts_whole]
  exact glyphText_glyphs _

theorem rawText_body (codecs : Codecs) (data : Bytes) :
    ∃ bytes, data = (codecs.rawText data).1.mark ++ bytes ∧
      (codecs.body (codecs.rawText data).1).decode bytes = some (codecs.rawText data).2 := by
  obtain ⟨reads, marked⟩ := decode_rawText codecs data
  by_cases plain : (codecs.rawText data).1 = .utf8Sig
  · obtain ⟨rest, split⟩ := List.isPrefixOf_iff_prefix.mp (marked plain)
    have dropped : data.drop bom.length = rest := by rw [← split, List.drop_left]
    rw [plain] at reads ⊢
    change Codec.utf8.decode (if bom.isPrefixOf data then data.drop bom.length else data) = _
      at reads
    rw [if_pos (marked plain), dropped] at reads
    exact ⟨rest, split.symm, reads⟩
  · refine ⟨data, ?_, ?_⟩
    · cases same : (codecs.rawText data).1 with
      | utf8Sig => exact absurd same plain
      | _ => rfl
    · cases same : (codecs.rawText data).1 with
      | utf8Sig => exact absurd same plain
      | _ =>
          rw [same] at reads
          exact reads

theorem parts_bytes (codecs : StatelessCodecs) (data : Bytes) (start length : Nat) :
    ∃ lead span trail, data = (codecs.rawText data).1.mark ++ (lead ++ (span ++ trail)) ∧
      (codecs.body (codecs.rawText data).1).encode
        (glyphText (parts codecs.toCodecs data start length).lead) = some lead ∧
      (codecs.body (codecs.rawText data).1).encode
        (glyphText (parts codecs.toCodecs data start length).span) = some span ∧
      (codecs.body (codecs.rawText data).1).encode
        (glyphText (parts codecs.toCodecs data start length).trail) = some trail := by
  obtain ⟨bytes, marked, reads⟩ := rawText_body codecs.toCodecs data
  have written := Codec.writesBack _ _ _ reads
  rw [← parts_text codecs.toCodecs data start length] at written
  obtain ⟨lead, others, first, written, joined⟩ :=
    (body_stateless codecs (codecs.rawText data).1).parts written
  obtain ⟨span, trail, second, third, rest⟩ :=
    (body_stateless codecs (codecs.rawText data).1).parts written
  refine ⟨lead, span, trail, ?_, first, second, third⟩
  rw [← rest, ← joined]
  exact marked

theorem readable_file (codecs : StatelessCodecs) (data : Bytes) (new : Text) :
    (codecs.body (writtenEncoding codecs.toCodecs data new)).Readable
      (codecs.rawText data).2 := by
  unfold writtenEncoding
  split
  next falls => exact fun character _ bytes written => (Codec.utf8_exact bytes _).mpr written
  next =>
    obtain ⟨bytes, _, reads⟩ := rawText_body codecs.toCodecs data
    exact (body_stateless codecs _).readable bytes _ reads

theorem mem_restyle {style : LineEnd} (member : character ∈ restyle style text) :
    character ∈ style.text ∨ character ∈ text := by
  obtain ⟨other, inside, written⟩ := List.mem_flatMap.mp member
  split at written
  next => exact Or.inl written
  next => exact Or.inr (List.mem_singleton.mp written ▸ inside)

theorem Codec.Stateless.readable_ends {codec : Codec} (stateless : codec.Stateless)
    (style : LineEnd) : codec.Readable style.text := by
  intro character member
  refine stateless.ends character ?_
  cases style with
  | crlf => exact member
  | cr => exact List.mem_cons.mpr (Or.inl (List.mem_singleton.mp member))
  | lf => exact List.mem_cons_of_mem _ member

theorem Codec.Stateless.readable_restyle {codec : Codec} (stateless : codec.Stateless)
    (style : LineEnd) : codec.Readable (restyle style text) ↔ codec.Readable text := by
  constructor
  · intro readable character member
    by_cases feed : character = '\n'
    · rw [feed]
      exact stateless.ends '\n' (List.mem_cons_of_mem _ List.mem_cons_self)
    · refine readable character (List.mem_flatMap.mpr ⟨character, member, ?_⟩)
      rw [if_neg feed]
      exact List.mem_singleton_self _
  · intro readable character member
    rcases mem_restyle member with line | inText
    · exact stateless.readable_ends style character line
    · exact readable character inText

theorem restyled_chars {codecs : Codecs} {new : Text} (style : LineEnd)
    (others : ∀ character ∈ text, character ∈ (readText codecs data).text ∨ character = '\n' ∨
      character ∈ new) :
    ∀ character ∈ restyle style text, character ∈ (codecs.rawText data).2 ∨ character = '\r' ∨
      character = '\n' ∨ character ∈ new := by
  intro character member
  rcases mem_restyle member with line | inText
  · cases style with
    | crlf =>
        rcases List.mem_cons.mp line with carriage | feed
        · exact Or.inr (Or.inl carriage)
        · exact Or.inr (Or.inr (Or.inl (List.mem_singleton.mp feed)))
    | cr => exact Or.inr (Or.inl (List.mem_singleton.mp line))
    | lf => exact Or.inr (Or.inr (Or.inl (List.mem_singleton.mp line)))
  · rcases others character inText with old | feed | fresh
    · rcases mem_normalized old with feed | inside
      · exact Or.inr (Or.inr (Or.inl feed))
      · exact Or.inl inside
    · exact Or.inr (Or.inr (Or.inl feed))
    · exact Or.inr (Or.inr (Or.inr fresh))

theorem spliced_iff (codecs : StatelessCodecs) {data body : Bytes} {start length : Nat}
    {new text : Text}
    (written : (codecs.body (writtenEncoding codecs.toCodecs data new)).encode text = some body)
    (others : ∀ character ∈ text, character ∈ (codecs.rawText data).2 ∨ character = '\r' ∨
      character = '\n' ∨ character ∈ new) :
    Spliced codecs.toCodecs data start length new ((codecs.rawText data).1.mark ++ body) ↔
      text = splicedText codecs.toCodecs data start length new ∧
        SameBytes codecs.toCodecs data start length new ∧ ReadsBack codecs.toCodecs data new := by
  have stateless := body_stateless codecs (writtenEncoding codecs.toCodecs data new)
  have file := readable_file codecs data new
  have inside : ∀ character ∈ glyphText (parts codecs.toCodecs data start length).lead ++
      glyphText (parts codecs.toCodecs data start length).trail,
      character ∈ (codecs.rawText data).2 := by
    intro character member
    rw [← parts_text codecs.toCodecs data start length]
    rcases List.mem_append.mp member with before | behind
    · exact List.mem_append_left _ before
    · exact List.mem_append_right _ (List.mem_append_right _ behind)
  constructor
  · rintro ⟨lead, span, trail, replacement, _, same, first, _, third, kept, rest, replaced⟩
    have back : ReadsBack codecs.toCodecs data new :=
      (stateless.readable_restyle _).mp (stateless.readable _ _ replaced)
    have own : (codecs.body (writtenEncoding codecs.toCodecs data new)).Readable text := by
      intro character member
      rcases others character member with old | carriage | feed | fresh
      · exact file character old
      · exact stateless.ends character (carriage ▸ List.mem_cons_self)
      · exact stateless.ends character (feed ▸ List.mem_cons_of_mem _ List.mem_cons_self)
      · exact back character fresh
    have leadReads := stateless.reads
      (fun character member => file character (inside character (List.mem_append_left _ member)))
      kept
    have trailReads := stateless.reads
      (fun character member => file character (inside character (List.mem_append_right _ member)))
      rest
    have joined := stateless.joins _ _ _ _ leadReads
      (stateless.joins _ _ _ _ replaced trailReads)
    rw [← List.append_cancel_left same, stateless.reads own written] at joined
    refine ⟨Option.some.inj joined, fun falls => ?_, back⟩
    have latin := falls.1
    rw [latin] at first third
    rw [writtenEncoding, if_pos falls] at kept rest
    exact ⟨ascii_of_same first kept, ascii_of_same third rest⟩
  · rintro ⟨same, ascii, back⟩
    obtain ⟨lead, span, trail, whole, first, second, third⟩ :=
      parts_bytes codecs data start length
    have kept : (codecs.body (writtenEncoding codecs.toCodecs data new)).encode
        (glyphText (parts codecs.toCodecs data start length).lead) = some lead ∧
        (codecs.body (writtenEncoding codecs.toCodecs data new)).encode
          (glyphText (parts codecs.toCodecs data start length).trail) = some trail := by
      unfold writtenEncoding
      split
      next falls =>
        obtain ⟨before, behind⟩ := ascii falls
        rw [falls.1] at first third
        exact ⟨(same_of_ascii before).trans first, (same_of_ascii behind).trans third⟩
      next => exact ⟨first, third⟩
    rw [same, splicedText] at written
    obtain ⟨head, others, firstAgain, later, joined⟩ := stateless.parts written
    obtain ⟨replacement, tail, replaced, lastAgain, rest⟩ := stateless.parts later
    rw [kept.1] at firstAgain
    rw [kept.2] at lastAgain
    cases firstAgain
    cases lastAgain
    exact ⟨lead, span, trail, replacement, whole, by rw [joined, rest], first, second, third,
      kept.1, kept.2, stateless.reads ((stateless.readable_restyle _).mpr back) replaced⟩

/-! ### What the writer does -/

theorem style_small (style : LineEnd) : ∀ character ∈ style.text, character.toNat < 256 := by
  intro character member
  cases style with
  | crlf =>
      rcases List.mem_cons.mp member with first | second
      · rw [first]
        decide
      · rw [List.mem_singleton.mp second]
        decide
  | cr =>
      rw [List.mem_singleton.mp member]
      decide
  | lf =>
      rw [List.mem_singleton.mp member]
      decide

theorem latin1_text {codecs : Codecs} (latin : (codecs.rawText data).1 = .latin1) :
    ∀ character ∈ (readText codecs data).text, character.toNat < 256 := by
  obtain ⟨bytes, _, reads⟩ := rawText_body codecs data
  rw [latin] at reads
  have small := (latin1_writes _).mp ⟨bytes, Codec.writesBack _ _ _ reads⟩
  intro character member
  rcases mem_normalized member with feed | inside
  · rw [feed]
    decide
  · exact small character inside

theorem writeTextPreserving_eq (codecs : Codecs) (data : Bytes) {text new : Text}
    (inside : new <:+: text)
    (others : ∀ character ∈ text, character ∈ (readText codecs data).text ∨ character = '\n' ∨
      character ∈ new) :
    writeTextPreserving codecs text (readText codecs data) =
      ((codecs.body (writtenEncoding codecs data new)).encode
        (restyle (fileStyle codecs data) text)).map ((codecs.rawText data).1.mark ++ ·) := by
  have style : (readText codecs data).newline = fileStyle codecs data := rfl
  have encoding : (readText codecs data).encoding = (codecs.rawText data).1 := rfl
  have out : (if (readText codecs data).newline = .lf then text
      else replaceCharacter '\n' (readText codecs data).newline.text text) =
      restyle (fileStyle codecs data) text := by
    rw [style]
    split
    next lines =>
      rw [lines]
      exact (replaceCharacter_same '\n' text).symm
    next => rfl
  unfold writeTextPreserving
  dsimp only
  rw [out, encoding]
  by_cases latin : (codecs.rawText data).1 = .latin1
  · have refused : codecs.encode (restyle (fileStyle codecs data) text) .latin1 = none ↔
        Codec.latin1.encode (restyle (fileStyle codecs data) new) = none := by
      have small := latin1_text latin
      rw [Option.eq_none_iff_forall_ne_some, Option.eq_none_iff_forall_ne_some,
        ← not_exists, ← not_exists]
      refine not_congr ?_
      change (∃ data, Codec.latin1.encode _ = some data) ↔ _
      rw [latin1_writes, latin1_writes]
      constructor
      · intro every character member
        obtain ⟨before, behind, whole⟩ := inside
        refine every character ?_
        rw [← whole, restyle_append, restyle_append]
        exact List.mem_append_left _ (List.mem_append_right _ member)
      · intro every character member
        rcases mem_restyle member with line | inText
        · exact style_small _ character line
        · rcases others character inText with old | feed | own
          · exact small character old
          · rw [feed]
            decide
          · by_cases feed : character = '\n'
            · rw [feed]
              decide
            · refine every character ?_
              refine List.mem_flatMap.mpr ⟨character, own, ?_⟩
              rw [if_neg feed]
              exact List.mem_singleton_self _
    by_cases falls : FallsBack codecs data new
    · rw [if_pos ⟨latin, refused.mpr falls.2⟩, writtenEncoding, if_pos falls, encode_body, latin]
      rfl
    · have kept : ¬ ((codecs.rawText data).1 = .latin1 ∧
          codecs.encode (restyle (fileStyle codecs data) text) .latin1 = none) :=
        fun both => falls ⟨latin, refused.mp both.2⟩
      rw [if_neg kept, writtenEncoding, if_neg falls, encode_body]
  · have kept : ¬ ((codecs.rawText data).1 = .latin1 ∧
        codecs.encode (restyle (fileStyle codecs data) text) .latin1 = none) :=
      fun both => latin both.1
    have stays : ¬ FallsBack codecs data new := fun falls => latin falls.1
    rw [if_neg kept, writtenEncoding, if_neg stays, encode_body]

def SameStyle (codecs : Codecs) (data : Bytes) (start length : Nat) : Prop :=
  ∀ style, .line style ∈ (parts codecs data start length).lead ++
    (parts codecs data start length).trail → style = fileStyle codecs data

theorem splicedText_iff (codecs : Codecs) (data : Bytes) (start length : Nat) (new : Text) :
    restyle (fileStyle codecs data) ((parts codecs data start length).lead.map Glyph.char ++
      (new ++ (parts codecs data start length).trail.map Glyph.char)) =
        splicedText codecs data start length new ↔ SameStyle codecs data start length := by
  have leadInside : ∀ glyph ∈ (parts codecs data start length).lead,
      glyph ∈ glyphs (codecs.rawText data).2 := fun glyph member => List.mem_of_mem_take member
  have trailInside : ∀ glyph ∈ (parts codecs data start length).trail,
      glyph ∈ glyphs (codecs.rawText data).2 := fun glyph member => List.mem_of_mem_drop member
  have leadLength := restyle_length leadInside
  have trailLength := restyle_length trailInside
  rw [restyle_append, restyle_append, splicedText]
  constructor
  · intro same style member
    have total := congrArg List.length same
    rw [List.length_append, List.length_append, List.length_append, List.length_append] at total
    have size : (restyle (fileStyle codecs data)
        ((parts codecs data start length).lead.map Glyph.char)).length =
          (glyphText (parts codecs data start length).lead).length := by
      unfold fileStyle at total ⊢
      omega
    obtain ⟨head, tail⟩ := List.append_inj same size
    cases List.mem_append.mp member with
    | inl before => exact (restyle_iff leadInside).mp head style before
    | inr behind =>
        exact (restyle_iff trailInside).mp (List.append_cancel_left tail) style behind
  · intro alike
    have head := (restyle_iff leadInside).mpr fun style member =>
      alike style (List.mem_append_left _ member)
    have tail := (restyle_iff trailInside).mpr fun style member =>
      alike style (List.mem_append_right _ member)
    change restyle (detectNewline _) _ ++ (_ ++ restyle (detectNewline _) _) = _
    rw [head, tail]

end Ftre.Tools
