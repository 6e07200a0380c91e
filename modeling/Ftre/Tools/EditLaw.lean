import Mathlib.Tactic.ByContra
import Ftre.Tools.EditLines

/-!
What an edit may change. A call that fails leaves the files as they are, but for a write that
raises.
-/

namespace Ftre.Tools

structure LineSpan where
  lead : Text
  span : Text
  trail : Text

def spanOf (before lines behind : List Text) (new : Text) : LineSpan :=
  let lead := before.flatten
  let span := lines.flatten
  let trail := behind.flatten
  if new = [] then
    if endsWithBreak span then ⟨lead, span, trail⟩
    else ⟨lead.dropLast, lead.drop (lead.length - 1) ++ span, trail⟩
  else if endsWithBreak span then ⟨lead, span.dropLast, span.drop (span.length - 1) ++ trail⟩
  else ⟨lead, span, trail⟩

def wantedEnd (call : EditCall) : Nat :=
  (if call.endLine > 0 then call.endLine else call.startLine).toNat

def lineSpan (content : Text) (call : EditCall) : LineSpan :=
  let lines := keptLines [] content
  spanOf (lines.take (call.startLine.toNat - 1))
    ((lines.take (wantedEnd call)).drop (call.startLine.toNat - 1)) (lines.drop (wantedEnd call))
    (normalized call.newStr)

def StringReplaced (codecs : Codecs) (data : Bytes) (call : EditCall) (out : Bytes) : Prop :=
  ∃ before behind,
    (readText codecs data).text = before ++ (normalized call.oldStr ++ behind) ∧
      (∀ other rest, (readText codecs data).text = other ++ (normalized call.oldStr ++ rest) →
        other = before) ∧
      Spliced codecs data before.length (normalized call.oldStr).length (normalized call.newStr)
        out

def LinesReplaced (codecs : Codecs) (data : Bytes) (call : EditCall) (out : Bytes) : Prop :=
  Spliced codecs data (lineSpan (readText codecs data).text call).lead.length
    (lineSpan (readText codecs data).text call).span.length (normalized call.newStr) out

def Replaced (codecs : Codecs) (data : Bytes) (call : EditCall) (out : Bytes) : Prop :=
  if call.startLine > 0 then LinesReplaced codecs data call out
  else StringReplaced codecs data call out

def Edited (codecs : Codecs) (resolve : String → String) (files : Files) (call : EditCall)
    (behind : Files) : Prop :=
  ∃ data out, files (resolve call.path) = .file data ∧
    behind = Function.update files (resolve call.path) (.file out) ∧
    Replaced codecs data call out

def Apart (needle text : Text) : Prop :=
  ∀ first behind second rest, text = first ++ (needle ++ behind) →
    text = second ++ (needle ++ rest) → first.length < second.length →
      first.length + needle.length ≤ second.length

structure KeptAround (codecs : Codecs) (data : Bytes) (start length : Nat) (new : Text) : Prop where
  style : SameStyle codecs data start length
  bytes : SameBytes codecs data start length new
  reads : ReadsBack codecs data new

structure CarefulString (codecs : Codecs) (data : Bytes) (call : EditCall) : Prop where
  apart : Apart (normalized call.oldStr) (readText codecs data).text
  around : ∀ before behind,
    (readText codecs data).text = before ++ (normalized call.oldStr ++ behind) →
      KeptAround codecs data before.length (normalized call.oldStr).length
        (normalized call.newStr)

structure LinesClear (content new : Text) (parts : LineSpan) : Prop where
  feeds : Feeds (parts.lead ++ parts.trail)
  last : new = [] → parts.trail = [] → parts.lead ≠ [] → endsWithBreak content = true →
    endsWithFeed content = true
  blank : new = [] → endsWithFeed content = true → parts.lead ++ parts.trail ≠ ['\n']

structure CarefulLines (codecs : Codecs) (data : Bytes) (call : EditCall) : Prop where
  lines : LinesClear (readText codecs data).text (normalized call.newStr)
    (lineSpan (readText codecs data).text call)
  around : KeptAround codecs data (lineSpan (readText codecs data).text call).lead.length
    (lineSpan (readText codecs data).text call).span.length (normalized call.newStr)

def Careful (codecs : Codecs) (data : Bytes) (call : EditCall) : Prop :=
  if call.startLine > 0 then CarefulLines codecs data call else CarefulString codecs data call

/-! ### Occurrences -/

theorem findFirst_some {needle text : Text} {index : Nat}
    (found : findFirst needle text = some index) :
    ∃ behind, text = text.take index ++ (needle ++ behind) ∧ index ≤ text.length ∧
      ∀ other rest, text = other ++ (needle ++ rest) → index ≤ other.length := by
  induction text generalizing index with
  | nil => cases found
  | cons character later ih =>
      rw [findFirst] at found
      split at found
      next here =>
        cases found
        obtain ⟨behind, whole⟩ := here
        exact ⟨behind, whole.symm, Nat.zero_le _, fun _ _ _ => Nat.zero_le _⟩
      next absent =>
        obtain ⟨inner, foundLater, same⟩ := Option.map_eq_some_iff.mp found
        obtain ⟨behind, whole, within, least⟩ := ih foundLater
        rw [← same]
        refine ⟨behind, ?_, Nat.succ_le_succ within, fun other rest split => ?_⟩
        · rw [List.take_succ_cons, List.cons_append, ← whole]
        · cases other with
          | nil =>
              rw [List.nil_append] at split
              exact absurd ⟨rest, split.symm⟩ absent
          | cons first others =>
              rw [List.cons_append] at split
              exact Nat.succ_le_succ (least others rest (List.cons.inj split).2)

theorem countFrom_skip (needle passed text : Text) :
    countFrom needle passed.length (passed ++ text) = countFrom needle 0 text := by
  induction passed with
  | nil => rfl
  | cons character rest ih => exact ih

theorem countFrom_here {needle : Text} (nonempty : needle ≠ []) (behind : Text) :
    countFrom needle 0 (needle ++ behind) = 1 + countFrom needle 0 behind := by
  cases needle with
  | nil => exact absurd rfl nonempty
  | cons first others =>
      have here : first :: others <+: first :: (others ++ behind) := List.prefix_append _ _
      rw [List.cons_append, countFrom, if_pos here, List.length_cons, Nat.add_sub_cancel,
        countFrom_skip]

theorem countFrom_occurs {needle : Text} (nonempty : needle ≠ []) (before behind : Text) :
    0 < countFrom needle 0 (before ++ (needle ++ behind)) := by
  induction before with
  | nil =>
      rw [List.nil_append, countFrom_here nonempty]
      exact Nat.add_pos_left Nat.one_pos _
  | cons character rest ih =>
      rw [List.cons_append, countFrom]
      split
      · exact Nat.add_pos_left Nat.one_pos _
      · exact ih

variable {text : Text} {data out : Bytes} {call : EditCall} {counts : Nat × Nat × Nat}
  {codecs : Codecs} {resolve : String → String} {files : Files}

theorem countFrom_found {needle : Text} (nonempty : needle ≠ []) {index : Nat}
    (found : findFirst needle text = some index) :
    countFrom needle 0 text = 1 + countFrom needle 0 (text.drop (index + needle.length)) := by
  induction text generalizing index with
  | nil => cases found
  | cons character later ih =>
      rw [findFirst] at found
      split at found
      next here =>
        cases found
        obtain ⟨behind, whole⟩ := here
        rw [← whole, countFrom_here nonempty, Nat.zero_add, List.drop_left]
      next absent =>
        obtain ⟨inner, foundLater, same⟩ := Option.map_eq_some_iff.mp found
        have shift : inner + 1 + needle.length = inner + needle.length + 1 := by omega
        rw [countFrom, if_neg absent, ih foundLater, ← same, shift, List.drop_succ_cons]

theorem findFirst_none {needle text : Text} (missing : findFirst needle text = none) :
    countFrom needle 0 text = 0 := by
  induction text with
  | nil => rfl
  | cons character later ih =>
      rw [findFirst] at missing
      split at missing
      next => cases missing
      next absent =>
        rw [countFrom, if_neg absent]
        exact ih (Option.map_eq_none_iff.mp missing)

theorem replaceFirst_once {needle text : Text} (nonempty : needle ≠ [])
    (once : countFrom needle 0 text = 1) (new : Text) :
    ∃ before behind, text = before ++ (needle ++ behind) ∧
      replaceFirst needle new text = before ++ (new ++ behind) ∧
      (Apart needle text → ∀ other rest, text = other ++ (needle ++ rest) → other = before) := by
  cases found : findFirst needle text with
  | none =>
      rw [findFirst_none found] at once
      cases once
  | some index =>
      obtain ⟨behind, whole, within, least⟩ := findFirst_some found
      have size : (text.take index).length = index := List.length_take_of_le within
      have rest : text.drop (index + needle.length) = behind := by
        nth_rewrite 1 [whole]
        rw [← List.drop_drop, List.drop_left' size, List.drop_left]
      refine ⟨text.take index, behind, whole, ?_, fun apart other after occurs => ?_⟩
      · rw [replaceFirst, found]
        dsimp only
        rw [rest]
      · have first := least other after occurs
        have same : other.length = index := by
          refine Nat.le_antisymm (Nat.le_of_not_lt fun later => ?_) first
          have far := apart _ behind other after whole occurs (by rw [size]; exact later)
          rw [size] at far
          have counted := countFrom_found nonempty found
          rw [once] at counted
          have split : text.drop (index + needle.length) =
              other.drop (index + needle.length) ++ (needle ++ after) := by
            nth_rewrite 1 [occurs]
            exact List.drop_append_of_le_length far
          have again := countFrom_occurs nonempty (other.drop (index + needle.length)) after
          rw [← split] at again
          omega
        have taken : text.take index = other := by
          nth_rewrite 1 [occurs]
          rw [← same, List.take_left]
        exact taken.symm

section

variable {codecs : Codecs} {data : Bytes}

theorem content_eq : (readText codecs data).text = (fileGlyphs codecs data).map Glyph.char :=
  normalized_eq _

theorem parts_content {lead span trail : Text}
    (whole : (readText codecs data).text = lead ++ (span ++ trail)) :
    (parts codecs data lead.length span.length).lead.map Glyph.char = lead ∧
      (parts codecs data lead.length span.length).trail.map Glyph.char = trail := by
  rw [content_eq] at whole
  unfold parts
  dsimp only
  rw [List.map_take, List.map_drop, whole, List.take_left, ← List.drop_drop, List.drop_left,
    List.drop_left]
  exact ⟨rfl, rfl⟩

end

theorem replaced_chars {content lead span trail new : Text}
    (whole : content = lead ++ (span ++ trail)) :
    ∀ character ∈ lead ++ (new ++ trail),
      character ∈ content ∨ character = '\n' ∨ character ∈ new := by
  intro character member
  rw [whole]
  cases List.mem_append.mp member with
  | inl first => exact Or.inl (List.mem_append_left _ first)
  | inr later =>
      cases List.mem_append.mp later with
      | inl own => exact Or.inr (Or.inr own)
      | inr last => exact Or.inl (List.mem_append_right _ (List.mem_append_right _ last))

theorem restyled_iff (codecs : StatelessCodecs) {data : Bytes} {lead span trail new : Text}
    (whole : (readText codecs.toCodecs data).text = lead ++ (span ++ trail)) {body : Bytes}
    (written : (codecs.body (writtenEncoding codecs.toCodecs data new)).encode
      (restyle (fileStyle codecs.toCodecs data) (lead ++ (new ++ trail))) = some body) :
    Spliced codecs.toCodecs data lead.length span.length new
        ((codecs.rawText data).1.mark ++ body) ↔
      KeptAround codecs.toCodecs data lead.length span.length new := by
  obtain ⟨leadChars, trailChars⟩ := parts_content whole
  have others : ∀ character ∈ lead ++ (new ++ trail),
      character ∈ (readText codecs.toCodecs data).text ∨ character = '\n' ∨ character ∈ new :=
    replaced_chars whole
  rw [spliced_iff codecs written (restyled_chars _ others)]
  have text := splicedText_iff codecs.toCodecs data lead.length span.length new
  rw [leadChars, trailChars] at text
  rw [text]
  exact ⟨fun kept => ⟨kept.1, kept.2.1, kept.2.2⟩, fun kept => ⟨kept.style, kept.bytes, kept.reads⟩⟩

theorem normalized_ne_nil (nonempty : text ≠ []) : normalized text ≠ [] := by
  rw [normalized_eq]
  intro empty
  have bare := List.map_eq_nil_iff.mp empty
  have whole := glyphText_glyphs text
  rw [bare] at whole
  exact nonempty whole.symm

theorem string_iff (codecs : StatelessCodecs) {data out : Bytes} {call : EditCall}
    {counts : Nat × Nat × Nat} {newContent : Text}
    (edited : editByString (readText codecs.toCodecs data).text call.oldStr
      (normalized call.newStr) = .ok (newContent, counts))
    (written : writeTextPreserving codecs.toCodecs newContent (readText codecs.toCodecs data) =
      some out) :
    StringReplaced codecs.toCodecs data call out ↔ CarefulString codecs.toCodecs data call := by
  unfold editByString at edited
  split at edited
  next => cases edited
  next given =>
    have nonempty := normalized_ne_nil given
    dsimp only at edited
    split at edited
    next => cases edited
    next counted =>
      split at edited
      next => cases edited
      next few =>
        have once : countFrom (normalized call.oldStr) 0
            (readText codecs.toCodecs data).text = 1 := by omega
        obtain ⟨before, behind, whole, replaced, unique⟩ :=
          replaceFirst_once nonempty once (normalized call.newStr)
        cases edited
        rw [replaced, writeTextPreserving_eq codecs.toCodecs data
          ⟨before, behind, by rw [List.append_assoc]⟩ (replaced_chars whole)] at written
        obtain ⟨body, encoded, same⟩ := Option.map_eq_some_iff.mp written
        have around := restyled_iff codecs whole encoded
        subst same
        constructor
        · rintro ⟨first, rest, split, alone, spliced⟩
          have own := alone before behind whole
          rw [← own] at spliced
          refine ⟨fun one oneRest two twoRest oneSplit twoSplit less => ?_,
            fun other after occurs => ?_⟩
          · rw [alone one oneRest oneSplit, alone two twoRest twoSplit] at less
            exact absurd less (Nat.lt_irrefl _)
          · rw [alone other after occurs, ← own]
            exact around.mp spliced
        · intro careful
          exact ⟨before, behind, whole, unique careful.apart,
            around.mpr (careful.around before behind whole)⟩

/-! ### Edits by lines -/

def linesJoined (content : Text) (before behind : List Text) (new : Text) : Text :=
  let replacement := if new ≠ [] then new.splitOn '\n' else []
  let joined := joinLines (before.map dropBreak ++ (replacement ++ behind.map dropBreak))
  if endsWithFeed content = true ∧ joined ≠ [] then joined ++ ['\n'] else joined

structure LinesAround (content : Text) (before middle : List Text) (line : Text)
    (behind : List Text) : Prop where
  shape : Shape (before ++ (middle ++ line :: behind))
  content : (before ++ (middle ++ line :: behind)).flatten = content

namespace LinesAround

variable {content new : Text} {before middle behind : List Text} {line : Text}

theorem beforeClosed (around : LinesAround content before middle line behind) :
    ∀ other ∈ before, Closed other :=
  around.shape.before (List.append_ne_nil_of_right_ne_nil _ (List.cons_ne_nil _ _))

theorem beforeShape (around : LinesAround content before middle line behind) : Shape before where
  each := fun other member => Or.inl (around.beforeClosed other member)
  closed := fun _ other _ split _ => around.beforeClosed other
    (split ▸ List.mem_append_right _ List.mem_cons_self)

theorem beforeFlatten (around : LinesAround content before middle line behind)
    (listed : before ≠ []) : before.flatten ≠ [] := around.beforeShape.flatten_ne_nil listed

theorem beforeFeed (around : LinesAround content before middle line behind)
    (listed : before ≠ []) (feeds : Feeds before.flatten) :
    endsWithFeed before.flatten = true := by
  obtain ⟨front, last, split⟩ : ∃ front last, before = front ++ [last] :=
    ⟨_, _, (List.dropLast_append_getLast listed).symm⟩
  obtain ⟨body, character, same, breaks, _⟩ :=
    around.beforeClosed last (split ▸ List.mem_append_right _ (List.mem_singleton_self _))
  have text : before.flatten = (front.flatten ++ body) ++ [character] := by
    rw [split, List.flatten_append, List.flatten_cons, List.flatten_nil, List.append_nil, same,
      List.append_assoc]
  have feed : character = '\n' :=
    feeds character (text ▸ List.mem_append_right _ (List.mem_singleton_self _)) breaks
  rw [text, feed, endsWithFeed, List.getLast?_concat]
  rfl

theorem lineShape (around : LinesAround content before middle line behind) :
    Shape (line :: behind) := around.shape.behind.behind

theorem line_ne_nil (around : LinesAround content before middle line behind) : line ≠ [] := by
  rcases around.lineShape.each line List.mem_cons_self with ⟨body, _, same, _⟩ | unended
  · rw [same]
    exact List.append_ne_nil_of_right_ne_nil _ (List.cons_ne_nil _ _)
  · exact unended.1

theorem lines_break (around : LinesAround content before middle line behind) :
    endsWithBreak (middle ++ [line]).flatten = endsWithBreak line := by
  rw [List.flatten_append, List.flatten_cons, List.flatten_nil, List.append_nil, endsWithBreak,
    endsWithBreak, List.getLast?_append_of_ne_nil _ around.line_ne_nil]

theorem unended_last (around : LinesAround content before middle line behind)
    (unended : Unended line) : behind = [] := by
  by_contra others
  obtain ⟨body, character, same, breaks, _⟩ :=
    around.lineShape.closed [] line behind rfl others
  have plain := unended.2 character (same ▸ List.mem_append_right _ (List.mem_singleton_self _))
  rw [breaks] at plain
  cases plain

theorem content_last (around : LinesAround content before middle line behind) :
    content.getLast? = (line ++ behind.flatten).getLast? := by
  have nonempty : line ++ behind.flatten ≠ [] :=
    List.append_ne_nil_of_left_ne_nil around.line_ne_nil _
  rw [← around.content, List.flatten_append, List.flatten_append, List.flatten_cons,
    ← List.append_assoc, List.getLast?_append_of_ne_nil _ nonempty]

theorem content_feed (around : LinesAround content before middle line behind) :
    endsWithFeed content = endsWithFeed (line ++ behind.flatten) := by
  rw [endsWithFeed, endsWithFeed, around.content_last]

theorem unended_feed (around : LinesAround content before middle line behind)
    (unended : Unended line) : endsWithFeed content = false := by
  rw [around.content_feed, around.unended_last unended, List.flatten_nil, List.append_nil,
    endsWithFeed, beq_eq_false_iff_ne]
  intro last
  have breaks := unended.2 _ (List.mem_of_getLast? last)
  revert breaks
  decide

theorem spanOf_closed (around : LinesAround content before middle line behind) {body : Text}
    {character : Char} (same : line = body ++ [character])
    (breaks : isLineBreak character = true) :
    spanOf before (middle ++ [line]) behind new =
      if new = [] then ⟨before.flatten, (middle ++ [line]).flatten, behind.flatten⟩
      else ⟨before.flatten, middle.flatten ++ body, [character] ++ behind.flatten⟩ := by
  have ends : endsWithBreak (middle ++ [line]).flatten = true := by
    rw [around.lines_break, same, endsWithBreak_concat, breaks]
  have text : (middle ++ [line]).flatten = (middle.flatten ++ body) ++ [character] := by
    rw [List.flatten_append, List.flatten_cons, List.flatten_nil, List.append_nil, same,
      List.append_assoc]
  unfold spanOf
  dsimp only
  rw [if_pos ends, if_pos ends]
  split
  · rfl
  · rw [text, List.dropLast_concat, List.length_append, List.length_singleton,
      Nat.add_sub_cancel, List.drop_left]

theorem spanOf_unended (around : LinesAround content before middle line behind)
    (unended : Unended line) :
    spanOf before (middle ++ [line]) behind new =
      if new = [] then ⟨before.flatten.dropLast,
        before.flatten.drop (before.flatten.length - 1) ++ (middle ++ [line]).flatten, []⟩
      else ⟨before.flatten, (middle ++ [line]).flatten, []⟩ := by
  have ends : ¬ endsWithBreak (middle ++ [line]).flatten = true := by
    rw [around.lines_break, endsWithBreak_unbroken unended.2]
    exact Bool.false_ne_true
  unfold spanOf
  dsimp only
  rw [if_neg ends, if_neg ends, around.unended_last unended, List.flatten_nil]

theorem spanOf_content (around : LinesAround content before middle line behind) :
    content = (spanOf before (middle ++ [line]) behind new).lead ++
      ((spanOf before (middle ++ [line]) behind new).span ++
        (spanOf before (middle ++ [line]) behind new).trail) := by
  have whole : content = before.flatten ++ ((middle ++ [line]).flatten ++ behind.flatten) := by
    rw [← around.content, List.flatten_append, List.flatten_append, List.flatten_append,
      List.flatten_cons, List.flatten_cons, List.flatten_nil, List.append_nil,
      List.append_assoc]
  rcases around.lineShape.each line List.mem_cons_self with ⟨body, character, same, breaks, _⟩ |
    unended
  · rw [around.spanOf_closed same breaks]
    split
    · exact whole
    · rw [whole, same, List.flatten_append, List.flatten_cons, List.flatten_nil, List.append_nil]
      simp only [List.append_assoc]
  · rw [around.spanOf_unended unended]
    have ending : behind.flatten = [] := by rw [around.unended_last unended, List.flatten_nil]
    split
    · dsimp only
      have split : before.flatten.dropLast ++
          before.flatten.drop (before.flatten.length - 1) = before.flatten := by
        rw [List.dropLast_eq_take, List.take_append_drop]
      rw [whole, ending, List.append_nil, List.append_nil, ← List.append_assoc, split]
    · rw [whole, ending]

theorem feed_added {joined : Text} (nonempty : joined ≠ []) :
    (if endsWithFeed content = true ∧ joined ≠ [] then joined ++ ['\n'] else joined) =
      joined ++ (if endsWithFeed content then ['\n'] else []) := by
  by_cases feeding : endsWithFeed content = true
  · rw [if_pos ⟨feeding, nonempty⟩, if_pos feeding]
  · rw [if_neg fun both => feeding both.1, if_neg feeding, List.append_nil]

theorem joined_new (around : LinesAround content before middle line behind) (given : new ≠ [])
    (clear : LinesClear content new (spanOf before (middle ++ [line]) behind new)) :
    linesJoined content before behind new =
      (spanOf before (middle ++ [line]) behind new).lead ++
        (new ++ (spanOf before (middle ++ [line]) behind new).trail) := by
  have feeds := clear.feeds
  have pieces : new.splitOn '\n' ≠ [] := List.splitOn_ne_nil _ _
  have written : before.flatten ++ new ≠ [] := List.append_ne_nil_of_right_ne_nil _ given
  unfold linesJoined
  dsimp only
  rw [if_pos given]
  rcases around.lineShape.each line List.mem_cons_self with ⟨body, character, same, breaks, _⟩ |
    unended
  · rw [around.spanOf_closed same breaks, if_neg given] at feeds ⊢
    dsimp only at feeds ⊢
    have feed : character = '\n' :=
      feeds character (List.mem_append_right _ List.mem_cons_self) breaks
    have lead : joinLines (before.map dropBreak ++ (new.splitOn '\n' ++ behind.map dropBreak)) =
        before.flatten ++ joinLines (new.splitOn '\n' ++ behind.map dropBreak) :=
      joinLines_closed around.beforeClosed feeds.left
        (List.append_ne_nil_of_left_ne_nil pieces _)
    by_cases ending : behind = []
    · have ended : endsWithFeed content = true := by
        rw [around.content_feed, ending, List.flatten_nil, List.append_nil, same, feed,
          endsWithFeed, List.getLast?_concat]
        rfl
      rw [lead, ending, List.map_nil, List.append_nil, joinLines_splitOn, if_pos ⟨ended, written⟩,
        feed, List.flatten_nil, List.append_assoc]
      rfl
    · have others : behind.map dropBreak ≠ [] := fun empty =>
        ending (List.map_eq_nil_iff.mp empty)
      have last := joinLines_last around.lineShape.tail ending feeds.right.right
      have ended : endsWithFeed content = endsWithFeed behind.flatten := by
        have text : behind.flatten ≠ [] := around.lineShape.tail.flatten_ne_nil ending
        rw [around.content_feed, endsWithFeed, endsWithFeed,
          List.getLast?_append_of_ne_nil _ text]
      have joined : before.flatten ++ (new ++ '\n' :: joinLines (behind.map dropBreak)) ≠ [] :=
        List.append_ne_nil_of_right_ne_nil _ (List.append_ne_nil_of_left_ne_nil given _)
      rw [lead, joinLines_append pieces others, joinLines_splitOn, feed_added joined, ended, feed,
        List.append_assoc, List.append_assoc, List.cons_append, last]
      rfl
  · rw [around.spanOf_unended unended, if_neg given] at feeds ⊢
    dsimp only at feeds ⊢
    have lead : joinLines (before.map dropBreak ++ (new.splitOn '\n' ++ behind.map dropBreak)) =
        before.flatten ++ joinLines (new.splitOn '\n' ++ behind.map dropBreak) :=
      joinLines_closed around.beforeClosed feeds.left
        (List.append_ne_nil_of_left_ne_nil pieces _)
    rw [lead, around.unended_last unended, List.map_nil, List.append_nil, joinLines_splitOn,
      around.unended_feed unended, if_neg fun both => absurd both.1 Bool.false_ne_true,
      List.append_nil]

theorem joined_front (around : LinesAround content before middle line behind)
    (feeds : Feeds before.flatten.dropLast) :
    joinLines (before.map dropBreak) = before.flatten.dropLast := by
  by_cases listed : before = []
  · rw [listed]
    rfl
  · obtain ⟨front, last, split⟩ : ∃ front last, before = front ++ [last] :=
      ⟨_, _, (List.dropLast_append_getLast listed).symm⟩
    have closed := around.beforeClosed
    rw [split] at closed feeds ⊢
    obtain ⟨body, character, same, breaks, unbroken⟩ :=
      closed last (List.mem_append_right _ (List.mem_singleton_self _))
    have text : (front ++ [last]).flatten = (front.flatten ++ body) ++ [character] := by
      rw [List.flatten_append, List.flatten_cons, List.flatten_nil, List.append_nil, same,
        List.append_assoc]
    rw [text, List.dropLast_concat] at feeds ⊢
    have joined := joinLines_closed (fun other member => closed other
      (List.mem_append_left _ member)) feeds.left (List.cons_ne_nil (dropBreak last) [])
    have single : joinLines [dropBreak last] = dropBreak last := List.intercalate_singleton
    rw [List.map_append, List.map_singleton, joined, single, same, dropBreak_concat body breaks]

theorem joined_deletion (around : LinesAround content before middle line behind)
    (clear : LinesClear content [] (spanOf before (middle ++ [line]) behind [])) :
    linesJoined content before behind [] =
      (spanOf before (middle ++ [line]) behind []).lead ++
        (spanOf before (middle ++ [line]) behind []).trail := by
  have feeds := clear.feeds
  have notBlank := clear.blank rfl
  have lastClear := clear.last rfl
  unfold linesJoined
  dsimp only
  have gone : (if ([] : Text) ≠ [] then ([] : Text).splitOn '\n' else []) = [] := rfl
  rw [gone, List.nil_append]
  rcases around.lineShape.each line List.mem_cons_self with ⟨body, character, same, breaks, _⟩ |
    unended
  · rw [around.spanOf_closed same breaks, if_pos rfl] at feeds notBlank lastClear ⊢
    dsimp only at feeds notBlank lastClear ⊢
    by_cases ending : behind = []
    · rw [ending, List.map_nil, List.append_nil, List.flatten_nil, List.append_nil]
      rw [ending, List.flatten_nil, List.append_nil] at notBlank
      by_cases first : before = []
      · rw [first]
        exact if_neg fun both => both.2 rfl
      · have text := around.beforeFlatten first
        have ended : endsWithFeed content = true := by
          refine lastClear (by rw [ending]; rfl) text ?_
          rw [endsWithBreak, around.content_last, ending, List.flatten_nil, List.append_nil, same,
            List.getLast?_concat]
          exact breaks
        have last := joinLines_last around.beforeShape first feeds.left
        rw [if_pos (around.beforeFeed first feeds.left)] at last
        have joined : joinLines (before.map dropBreak) ≠ [] := by
          intro empty
          rw [empty] at last
          exact notBlank ended last.symm
        rw [if_pos ⟨ended, joined⟩, last]
    · have others : behind.map dropBreak ≠ [] := fun empty =>
        ending (List.map_eq_nil_iff.mp empty)
      have last := joinLines_last around.lineShape.tail ending feeds.right
      have ended : endsWithFeed content = endsWithFeed behind.flatten := by
        have text : behind.flatten ≠ [] := around.lineShape.tail.flatten_ne_nil ending
        rw [around.content_feed, endsWithFeed, endsWithFeed,
          List.getLast?_append_of_ne_nil _ text]
      have lead := joinLines_closed around.beforeClosed feeds.left others
      rw [← ended] at last
      rw [lead]
      by_cases joined : before.flatten ++ joinLines (behind.map dropBreak) = []
      · obtain ⟨front, tail⟩ := List.append_eq_nil_iff.mp joined
        have unfed : ¬ endsWithFeed content = true := by
          intro feeding
          rw [if_pos feeding, tail] at last
          refine notBlank feeding ?_
          rw [front, ← last]
          rfl
        rw [if_neg unfed, tail, List.append_nil] at last
        rw [if_neg fun both => unfed both.1, tail, last]
      · rw [feed_added joined, List.append_assoc, last]
  · rw [around.spanOf_unended unended, if_pos rfl] at feeds ⊢
    dsimp only at feeds ⊢
    rw [around.unended_last unended, List.map_nil, List.append_nil, List.append_nil,
      around.unended_feed unended, if_neg fun both => absurd both.1 Bool.false_ne_true]
    exact around.joined_front feeds.left

theorem joined_short (around : LinesAround content before middle line behind)
    (ending : behind = []) (listed : before ≠ []) (feeds : Feeds before.flatten)
    (unfed : endsWithFeed content = false) :
    before.flatten = linesJoined content before behind [] ++ ['\n'] := by
  have last := joinLines_last around.beforeShape listed feeds
  rw [if_pos (around.beforeFeed listed feeds)] at last
  have gone : (if ([] : Text) ≠ [] then ([] : Text).splitOn '\n' else []) = [] := rfl
  unfold linesJoined
  dsimp only
  rw [gone, ending, List.nil_append, List.map_nil, List.append_nil, unfed,
    if_neg fun both => absurd both.1 Bool.false_ne_true]
  exact last.symm

theorem joined_blank (around : LinesAround content before middle line behind)
    (feeding : endsWithFeed content = true)
    (blank : (spanOf before (middle ++ [line]) behind []).lead ++
      (spanOf before (middle ++ [line]) behind []).trail = ['\n']) :
    linesJoined content before behind [] = [] := by
  have gone : (if ([] : Text) ≠ [] then ([] : Text).splitOn '\n' else []) = [] := rfl
  have feeds : Feeds ['\n'] := fun character member _ => List.mem_singleton.mp member
  rcases around.lineShape.each line List.mem_cons_self with ⟨body, character, same, breaks, _⟩ |
    unended
  · rw [around.spanOf_closed same breaks, if_pos rfl] at blank
    dsimp only at blank
    have empty : joinLines (before.map dropBreak ++ behind.map dropBreak) = [] := by
      by_cases ending : behind = []
      · rw [ending, List.flatten_nil, List.append_nil] at blank
        have listed : before ≠ [] := by
          intro empty
          rw [empty] at blank
          cases blank
        have last := joinLines_last around.beforeShape listed (blank ▸ feeds)
        rw [if_pos (around.beforeFeed listed (blank ▸ feeds)), blank] at last
        rw [ending, List.map_nil, List.append_nil]
        exact List.append_left_eq_self.mp last
      · have text := around.lineShape.tail.flatten_ne_nil ending
        have front : before.flatten = [] := by
          have size := congrArg List.length blank
          rw [List.length_append, List.length_singleton] at size
          have positive := List.length_pos_iff.mpr text
          exact List.length_eq_zero_iff.mp (by omega)
        have first : before = [] := by
          by_contra listed
          exact around.beforeFlatten listed front
        rw [front, List.nil_append] at blank
        have last := joinLines_last around.lineShape.tail ending (blank ▸ feeds)
        rw [blank] at last
        rw [first, List.map_nil, List.nil_append]
        exact List.append_left_eq_self.mp last
    unfold linesJoined
    dsimp only
    rw [gone, List.nil_append, if_neg fun both => both.2 empty, empty]
  · rw [around.unended_feed unended] at feeding
    cases feeding

end LinesAround

/-! ### Rare breaks -/

def rare (character : Char) : Bool :=
  isLineBreak character && character != '\n' && character != '\r'

theorem rare_of_unbroken (unbroken : Unbroken text) : text.filter rare = [] := by
  rw [List.filter_eq_nil_iff]
  intro character member
  rw [rare, unbroken character member, Bool.false_and, Bool.false_and]
  exact Bool.false_ne_true

theorem feeds_of_filter (common : text.filter rare = []) (plain : '\r' ∉ text) : Feeds text := by
  intro character member breaks
  by_contra other
  have notCr : character ≠ '\r' := fun same => plain (same ▸ member)
  refine List.filter_eq_nil_iff.mp common character member ?_
  rw [rare, breaks, Bool.true_and, Bool.and_eq_true, bne_iff_ne, bne_iff_ne]
  exact ⟨other, notCr⟩

theorem joinLines_rare (lines : List Text) :
    (joinLines lines).filter rare = lines.flatMap fun line => line.filter rare := by
  induction lines with
  | nil => rfl
  | cons line rest ih =>
      by_cases last : rest = []
      · have single : joinLines [line] = line := List.intercalate_singleton
        rw [last, single, List.flatMap_singleton]
      · have feed : rare '\n' = false := by decide
        rw [joinLines_cons line last, List.filter_append, List.filter_cons_of_neg
          (by rw [feed]; exact Bool.false_ne_true), ih, List.flatMap_cons]

theorem restyle_rare (style : LineEnd) (text : Text) :
    (restyle style text).filter rare = text.filter rare := by
  have ends : style.text.filter rare = [] := by cases style <;> decide
  induction text with
  | nil => rfl
  | cons character rest ih =>
      rw [restyle_cons, List.filter_append, ih]
      by_cases feed : character = '\n'
      · have common : rare '\n' = false := by decide
        rw [if_pos feed, feed, ends, List.filter_cons_of_neg
          (by rw [common]; exact Bool.false_ne_true)]
        rfl
      · rw [if_neg feed, ← List.filter_append]
        rfl

theorem dropBreak_rare {line : Text} (either : Closed line ∨ Unended line) :
    (dropBreak line).filter rare = [] := by
  rcases either with ⟨body, character, same, breaks, unbroken⟩ | unended
  · rw [same, dropBreak_concat body breaks]
    exact rare_of_unbroken unbroken
  · rw [dropBreak_unbroken unended.2]
    exact rare_of_unbroken unended.2

theorem mem_joinLines {lines : List Text} {character : Char}
    (member : character ∈ joinLines lines) :
    character = '\n' ∨ ∃ line ∈ lines, character ∈ line := by
  induction lines with
  | nil => cases member
  | cons line rest ih =>
      by_cases last : rest = []
      · have single : joinLines [line] = line := List.intercalate_singleton
        rw [last, single] at member
        exact Or.inr ⟨line, List.mem_cons_self, member⟩
      · rw [joinLines_cons line last] at member
        rcases List.mem_append.mp member with own | later
        · exact Or.inr ⟨line, List.mem_cons_self, own⟩
        · rcases List.mem_cons.mp later with feed | inside
          · exact Or.inl feed
          · rcases ih inside with feed | ⟨other, listed, found⟩
            · exact Or.inl feed
            · exact Or.inr ⟨other, List.mem_cons_of_mem _ listed, found⟩

theorem joinLines_infix (left middle right : List Text) :
    joinLines middle <:+: joinLines (left ++ (middle ++ right)) := by
  by_cases empty : middle = []
  · rw [empty]
    exact List.nil_infix
  · have inner : joinLines middle <+: joinLines (middle ++ right) := by
      by_cases last : right = []
      · rw [last, List.append_nil]
      · rw [joinLines_append empty last]
        exact List.prefix_append _ _
    by_cases first : left = []
    · rw [first, List.nil_append]
      exact inner.isInfix
    · rw [joinLines_append first (List.append_ne_nil_of_left_ne_nil empty _)]
      exact inner.isInfix.trans ((List.suffix_cons _ _).trans (List.suffix_append _ _)).isInfix

namespace LinesAround

variable {content new : Text} {before middle behind : List Text} {line : Text}

theorem replacement_joined (new : Text) :
    joinLines (if new ≠ [] then new.splitOn '\n' else []) = new := by
  split
  next => exact joinLines_splitOn new
  next empty =>
    rw [not_not.mp empty]
    rfl

theorem linesJoined_cases (content : Text) (before behind : List Text) (new : Text) :
    ∃ tail, (tail = [] ∨ tail = ['\n']) ∧ linesJoined content before behind new =
      joinLines (before.map dropBreak ++
        ((if new ≠ [] then new.splitOn '\n' else []) ++ behind.map dropBreak)) ++ tail := by
  unfold linesJoined
  generalize (if new ≠ [] then new.splitOn '\n' else []) = pieces
  dsimp only
  split
  · exact ⟨['\n'], Or.inr rfl, rfl⟩
  · exact ⟨[], Or.inl rfl, (List.append_nil _).symm⟩

theorem joined_rare (around : LinesAround content before middle line behind) (new : Text) :
    (linesJoined content before behind new).filter rare = new.filter rare := by
  have dropped : ∀ lines : List Text, (∀ other ∈ lines, Closed other ∨ Unended other) →
      (lines.map dropBreak).flatMap (fun other => other.filter rare) = [] := by
    intro lines each
    rw [List.flatMap_eq_nil_iff]
    intro other member
    obtain ⟨source, listed, same⟩ := List.mem_map.mp member
    rw [← same]
    exact dropBreak_rare (each source listed)
  have whole : (joinLines (before.map dropBreak ++
      ((if new ≠ [] then new.splitOn '\n' else []) ++ behind.map dropBreak))).filter rare =
        new.filter rare := by
    rw [joinLines_rare, List.flatMap_append, List.flatMap_append,
      dropped before around.beforeShape.each, dropped behind around.lineShape.tail.each,
      List.nil_append, List.append_nil, ← joinLines_rare, replacement_joined]
  obtain ⟨tail, either, same⟩ := linesJoined_cases content before behind new
  have common : tail.filter rare = [] := by
    rcases either with empty | feed
    · rw [empty]
      rfl
    · rw [feed]
      decide
  rw [same, List.filter_append, whole, common, List.append_nil]

theorem joined_infix (content : Text) (before behind : List Text) (new : Text) :
    new <:+: linesJoined content before behind new := by
  have inner := joinLines_infix (before.map dropBreak) (if new ≠ [] then new.splitOn '\n' else [])
    (behind.map dropBreak)
  rw [replacement_joined] at inner
  obtain ⟨tail, _, same⟩ := linesJoined_cases content before behind new
  rw [same]
  exact inner.trans (List.prefix_append _ _).isInfix

theorem joined_chars (around : LinesAround content before middle line behind) {character : Char}
    (member : character ∈ linesJoined content before behind new) :
    character ∈ content ∨ character = '\n' ∨ character ∈ new := by
  have kept : ∀ other : Text, ∀ found ∈ dropBreak other, found ∈ other := by
    intro other found inside
    unfold dropBreak at inside
    split at inside
    · exact List.dropLast_subset _ inside
    · exact inside
  have inLines : ∀ other ∈ before ++ (middle ++ line :: behind), character ∈ dropBreak other →
      character ∈ content := by
    intro other listed inside
    rw [← around.content]
    exact List.mem_flatten.mpr ⟨other, listed, kept other character inside⟩
  have inner : character ∈ joinLines (before.map dropBreak ++
      ((if new ≠ [] then new.splitOn '\n' else []) ++ behind.map dropBreak)) →
        character ∈ content ∨ character = '\n' ∨ character ∈ new := by
    intro inside
    rcases mem_joinLines inside with feed | ⟨other, listed, found⟩
    · exact Or.inr (Or.inl feed)
    · rcases List.mem_append.mp listed with first | later
      · obtain ⟨source, own, same⟩ := List.mem_map.mp first
        exact Or.inl (inLines source (List.mem_append_left _ own) (same ▸ found))
      · rcases List.mem_append.mp later with added | last
        · have piece : other <:+: new := by
            obtain ⟨front, back, split⟩ := List.append_of_mem added
            have part := joinLines_infix front [other] back
            rw [List.singleton_append, ← split, replacement_joined] at part
            have single : joinLines [other] = other := List.intercalate_singleton
            rwa [single] at part
          exact Or.inr (Or.inr (piece.subset found))
        · obtain ⟨source, own, same⟩ := List.mem_map.mp last
          exact Or.inl (inLines source (List.mem_append_right _ (List.mem_append_right _
            (List.mem_cons_of_mem _ own))) (same ▸ found))
  obtain ⟨tail, either, same⟩ := linesJoined_cases content before behind new
  rw [same] at member
  rcases List.mem_append.mp member with first | last
  · exact inner first
  · rcases either with empty | feed
    · rw [empty] at last
      cases last
    · rw [feed] at last
      exact Or.inr (Or.inl (List.mem_singleton.mp last))

end LinesAround

/-! ### Lines of a file -/

theorem glyphText_rare {raw : Text} {part : List Glyph}
    (inside : ∀ glyph ∈ part, glyph ∈ glyphs raw) :
    (glyphText part).filter rare = (part.map Glyph.char).filter rare := by
  rw [← restyle_rare .lf (part.map Glyph.char)]
  induction part with
  | nil => rfl
  | cons glyph rest ih =>
      have later := ih fun other member => inside other (List.mem_cons_of_mem _ member)
      rw [glyphText, List.flatMap_cons, List.map_cons, restyle_cons, List.filter_append,
        List.filter_append, ← later]
      refine congrArg (· ++ _) ?_
      cases glyph with
      | line style =>
          cases style <;> decide
      | plain character =>
          rw [Glyph.char, if_neg (plain_of_mem (inside _ List.mem_cons_self)).2]
          rfl

theorem glyphText_eq_nil {part : List Glyph} (empty : glyphText part = []) : part = [] := by
  cases part with
  | nil => rfl
  | cons glyph rest =>
      rw [glyphText, List.flatMap_cons] at empty
      have first := (List.append_eq_nil_iff.mp empty).1
      cases glyph with
      | line style => cases style <;> cases first
      | plain character => cases first

theorem editByLine_around {content new newContent : Text} {start endLine : Int}
    (plain : '\r' ∉ content) (positive : 0 < start)
    (edited : editByLine content new start endLine = .ok (newContent, counts)) :
    ∃ before middle line behind, LinesAround content before middle line behind ∧
      before = (keptLines [] content).take (start.toNat - 1) ∧
      middle ++ [line] = ((keptLines [] content).take
        (if endLine > 0 then endLine else start).toNat).drop (start.toNat - 1) ∧
      behind = (keptLines [] content).drop (if endLine > 0 then endLine else start).toNat ∧
      newContent = linesJoined content before behind new := by
  have unbroken : Unbroken [] := fun _ member => absurd member List.not_mem_nil
  have lines := splitLines_eq plain unbroken
  have shape := keptLines_shape unbroken content
  have whole := keptLines_flatten [] content
  unfold editByLine at edited
  dsimp only at edited
  rw [lines, List.length_map] at edited
  generalize keptLines [] content = kept at edited shape whole ⊢
  generalize (if endLine > 0 then endLine else start) = wanted at edited ⊢
  split at edited
  next => cases edited
  next within =>
    split at edited
    next => cases edited
    next ordered =>
      cases edited
      have split : kept = kept.take (start.toNat - 1) ++
          ((kept.take wanted.toNat).drop (start.toNat - 1) ++ kept.drop wanted.toNat) := by
        have early : start.toNat - 1 ≤ wanted.toNat := by omega
        have front : kept.take (start.toNat - 1) =
            (kept.take wanted.toNat).take (start.toNat - 1) := by
          rw [List.take_take, Nat.min_eq_left early]
        rw [front, ← List.append_assoc, List.take_append_drop, List.take_append_drop]
      have listed : (kept.take wanted.toNat).drop (start.toNat - 1) ≠ [] := by
        rw [← List.length_pos_iff, List.length_drop, List.length_take]
        omega
      have last := List.dropLast_append_getLast listed
      have stop : (kept.map dropBreak).drop (min wanted.toNat kept.length) =
          (kept.drop wanted.toNat).map dropBreak := by
        rw [List.map_drop]
        rcases Nat.le_total wanted.toNat kept.length with inside | beyond
        · rw [Nat.min_eq_left inside]
        · rw [Nat.min_eq_right beyond, List.drop_of_length_le (by rw [List.length_map]),
            List.drop_of_length_le (by rw [List.length_map]; exact beyond)]
      have arranged : kept = kept.take (start.toNat - 1) ++
          (((kept.take wanted.toNat).drop (start.toNat - 1)).dropLast ++
            ((kept.take wanted.toNat).drop (start.toNat - 1)).getLast listed ::
              kept.drop wanted.toNat) := by
        nth_rewrite 1 [split]
        nth_rewrite 1 [← last]
        rw [List.append_assoc, List.singleton_append]
      refine ⟨_, _, _, _, ⟨arranged ▸ shape, arranged ▸ whole⟩, rfl, last, rfl, ?_⟩
      rw [stop, ← List.map_take]
      rfl

theorem LinesAround.joined_clear {content new : Text} {before middle behind : List Text}
    {line : Text} (around : LinesAround content before middle line behind)
    (clear : LinesClear content new (spanOf before (middle ++ [line]) behind new)) :
    linesJoined content before behind new =
      (spanOf before (middle ++ [line]) behind new).lead ++
        (new ++ (spanOf before (middle ++ [line]) behind new).trail) := by
  by_cases given : new = []
  · rw [given] at clear ⊢
    exact around.joined_deletion clear
  · exact around.joined_new given clear

section

variable {codecs : Codecs} {data : Bytes} {new newContent : Text} {before middle behind : List Text}
  {line : Text}

theorem feeds_of_spliced {start length : Nat} {lead trail : Text} (plain : '\r' ∉ lead ++ trail)
    (leadChars : (parts codecs data start length).lead.map Glyph.char = lead)
    (trailChars : (parts codecs data start length).trail.map Glyph.char = trail)
    (common : newContent.filter rare = new.filter rare)
    (same : restyle (fileStyle codecs data) newContent =
      splicedText codecs data start length new) : Feeds (lead ++ trail) := by
  have leadInside : ∀ glyph ∈ (parts codecs data start length).lead,
      glyph ∈ glyphs (codecs.rawText data).2 := fun glyph member => List.mem_of_mem_take member
  have trailInside : ∀ glyph ∈ (parts codecs data start length).trail,
      glyph ∈ glyphs (codecs.rawText data).2 := fun glyph member => List.mem_of_mem_drop member
  have filtered := congrArg (List.filter rare) same
  rw [restyle_rare, common, splicedText, List.filter_append, List.filter_append, restyle_rare,
    glyphText_rare leadInside, glyphText_rare trailInside, leadChars, trailChars] at filtered
  have size := congrArg List.length filtered
  rw [List.length_append, List.length_append] at size
  have leadNone : lead.filter rare = [] := List.length_eq_zero_iff.mp (by omega)
  have trailNone : trail.filter rare = [] := List.length_eq_zero_iff.mp (by omega)
  refine feeds_of_filter ?_ plain
  rw [List.filter_append, leadNone, trailNone]
  rfl

theorem not_spliced_short {start length : Nat}
    (leadChars : (parts codecs data start length).lead.map Glyph.char = newContent ++ ['\n'])
    (trailChars : (parts codecs data start length).trail.map Glyph.char = []) :
    restyle (fileStyle codecs data) newContent ≠ splicedText codecs data start length [] := by
  obtain ⟨part, last, split, chars, feed⟩ := List.map_eq_append_iff.mp leadChars
  obtain ⟨glyph, single, char⟩ := List.map_eq_singleton_iff.mp feed
  have empty := List.map_eq_nil_iff.mp trailChars
  have inside : ∀ other ∈ (parts codecs data start length).lead,
      other ∈ glyphs (codecs.rawText data).2 := fun other member => List.mem_of_mem_take member
  have chain : ((parts codecs data start length).lead).IsChain Split :=
    (glyphs_split (codecs.rawText data).2).take start
  rw [split, single] at inside chain
  intro same
  rw [splicedText, empty, split, single, ← chars] at same
  cases glyph with
  | plain character =>
      exact (plain_of_mem (inside _ (List.mem_append_right _ (List.mem_singleton_self _)))).2 char
  | line ending =>
      refine restyle_short inside chain ?_
      change restyle (fileStyle codecs data) _ = _
      rw [same]
      exact List.append_nil _

theorem LinesAround.clear_of_spliced (around : LinesAround (readText codecs data).text before
      middle line behind)
    (same : restyle (fileStyle codecs data)
        (linesJoined (readText codecs data).text before behind new) =
      splicedText codecs data (spanOf before (middle ++ [line]) behind new).lead.length
        (spanOf before (middle ++ [line]) behind new).span.length new) :
    LinesClear (readText codecs data).text new (spanOf before (middle ++ [line]) behind new) := by
  have whole : (readText codecs data).text = (spanOf before (middle ++ [line]) behind new).lead ++
      ((spanOf before (middle ++ [line]) behind new).span ++
        (spanOf before (middle ++ [line]) behind new).trail) := around.spanOf_content
  obtain ⟨leadChars, trailChars⟩ := parts_content whole
  have plain : '\r' ∉ (readText codecs data).text := cr_not_mem_normalized _
  have feeds : Feeds ((spanOf before (middle ++ [line]) behind new).lead ++
      (spanOf before (middle ++ [line]) behind new).trail) := by
    refine feeds_of_spliced (fun member => plain ?_) leadChars trailChars
      (around.joined_rare new) same
    rw [whole]
    rcases List.mem_append.mp member with inLead | inTrail
    · exact List.mem_append_left _ inLead
    · exact List.mem_append_right _ (List.mem_append_right _ inTrail)
  refine ⟨feeds, fun empty ends listed broken => ?_, fun empty feeding blank => ?_⟩
  · by_contra fed
    have unfed := Bool.eq_false_iff.mpr fed
    rw [empty] at ends listed leadChars trailChars feeds same
    rcases around.lineShape.each line List.mem_cons_self with
      ⟨body, character, own, breaks, _⟩ | unended
    · rw [around.spanOf_closed own breaks, if_pos rfl] at ends listed leadChars trailChars feeds same
      dsimp only at ends listed leadChars trailChars feeds same
      have ending : behind = [] := by
        by_contra others
        exact around.lineShape.tail.flatten_ne_nil others ends
      have lines : before ≠ [] := by
        intro first
        rw [first] at listed
        exact listed rfl
      have short := around.joined_short ending lines feeds.left unfed
      rw [ends] at trailChars
      exact not_spliced_short (leadChars.trans short) trailChars same
    · rw [endsWithBreak, around.content_last, around.unended_last unended, List.flatten_nil,
        List.append_nil] at broken
      have plainLine := endsWithBreak_unbroken unended.2
      rw [endsWithBreak, broken] at plainLine
      cases plainLine
  · rw [empty] at blank leadChars trailChars same
    rw [around.joined_blank feeding blank, splicedText] at same
    obtain ⟨lead, rest⟩ := List.append_eq_nil_iff.mp same.symm
    obtain ⟨_, trail⟩ := List.append_eq_nil_iff.mp rest
    rw [glyphText_eq_nil lead] at leadChars
    rw [glyphText_eq_nil trail] at trailChars
    rw [← leadChars, ← trailChars] at blank
    cases blank

end

theorem lines_iff (codecs : StatelessCodecs) {data out : Bytes} {call : EditCall}
    {counts : Nat × Nat × Nat} {newContent : Text} (positive : call.startLine > 0)
    (edited : editByLine (readText codecs.toCodecs data).text (normalized call.newStr)
      call.startLine call.endLine = .ok (newContent, counts))
    (written : writeTextPreserving codecs.toCodecs newContent (readText codecs.toCodecs data) =
      some out) :
    LinesReplaced codecs.toCodecs data call out ↔ CarefulLines codecs.toCodecs data call := by
  obtain ⟨before, middle, line, behind, around, first, asked, last, joined⟩ :=
    editByLine_around (cr_not_mem_normalized _) positive edited
  have spanned : lineSpan (readText codecs.toCodecs data).text call =
      spanOf before (middle ++ [line]) behind (normalized call.newStr) := by
    rw [first, asked, last]
    rfl
  have others : ∀ character ∈ newContent, character ∈ (readText codecs.toCodecs data).text ∨
      character = '\n' ∨ character ∈ normalized call.newStr :=
    fun character member => around.joined_chars (joined ▸ member)
  rw [writeTextPreserving_eq codecs.toCodecs data (joined ▸ LinesAround.joined_infix _ _ _ _)
    others] at written
  obtain ⟨body, encoded, same⟩ := Option.map_eq_some_iff.mp written
  subst same
  have whole : (readText codecs.toCodecs data).text =
      (spanOf before (middle ++ [line]) behind (normalized call.newStr)).lead ++
        ((spanOf before (middle ++ [line]) behind (normalized call.newStr)).span ++
          (spanOf before (middle ++ [line]) behind (normalized call.newStr)).trail) :=
    around.spanOf_content
  unfold LinesReplaced
  rw [spanned]
  constructor
  · intro spliced
    have text := ((spliced_iff codecs encoded (restyled_chars _ others)).mp spliced).1
    rw [joined] at text encoded
    have clear := around.clear_of_spliced text
    rw [around.joined_clear clear] at encoded
    have kept := (restyled_iff codecs whole encoded).mp spliced
    exact ⟨spanned ▸ clear, spanned ▸ kept⟩
  · rintro ⟨clear, kept⟩
    rw [spanned] at clear kept
    rw [joined, around.joined_clear clear] at encoded
    exact (restyled_iff codecs whole encoded).mpr kept

/-! ### Edits of files -/

/-- The call comes to write `out`. -/
structure Wrote (codecs : Codecs) (data : Bytes) (call : EditCall) (newContent : Text)
    (counts : Nat × Nat × Nat) (out : Bytes) : Prop where
  made : editContent (readText codecs data).text call = .ok (newContent, counts)
  written : writeTextPreserving codecs newContent (readText codecs data) = some out

theorem edit_done {newContent : Text} (stands : files (resolve call.path) = .file data)
    (wrote : Wrote codecs data call newContent counts out) :
    edit codecs resolve files .done call = (Function.update files (resolve call.path) (.file out),
      .ok ⟨counts.1, counts.2.1, out.length, counts.2.2, newContent⟩) := by
  unfold edit
  dsimp only
  rw [stands]
  dsimp only
  rw [wrote.made]
  dsimp only
  rw [wrote.written]

theorem edit_raises {newContent : Text} {left : Bytes}
    (stands : files (resolve call.path) = .file data)
    (wrote : Wrote codecs data call newContent counts out) :
    edit codecs resolve files (.raises left) call =
      (Function.update files (resolve call.path) (.file left), .error .writeBytes) := by
  unfold edit
  dsimp only
  rw [stands]
  dsimp only
  rw [wrote.made]
  dsimp only
  rw [wrote.written]

theorem edit_refused {write : WriteBytes}
    (never : ∀ data newContent counts out, files (resolve call.path) = .file data →
      ¬ Wrote codecs data call newContent counts out) :
    ∃ failure, edit codecs resolve files write call = (files, .error failure) := by
  unfold edit
  dsimp only
  cases stands : files (resolve call.path) with
  | missing => exact ⟨_, rfl⟩
  | directory => exact ⟨_, rfl⟩
  | special => exact ⟨_, rfl⟩
  | file data =>
      dsimp only
      cases made : editContent (readText codecs data).text call with
      | error failure => exact ⟨_, rfl⟩
      | ok result =>
          obtain ⟨newContent, oldLines, newLines, startLine⟩ := result
          dsimp only
          cases written : writeTextPreserving codecs newContent (readText codecs data) with
          | none => exact ⟨_, rfl⟩
          | some out => exact absurd ⟨made, written⟩ (never data newContent _ out stands)

theorem edited_iff (stands : files (resolve call.path) = .file data) :
    Edited codecs resolve files call
        (Function.update files (resolve call.path) (.file out)) ↔
      Replaced codecs data call out := by
  constructor
  · rintro ⟨other, written, found, same, replaced⟩
    have file : Target.file data = .file other := stands.symm.trans found
    have content := congrFun same (resolve call.path)
    rw [Function.update_self, Function.update_self] at content
    cases file
    cases content
    exact replaced
  · exact fun replaced => ⟨data, out, stands, rfl, replaced⟩

theorem replaced_iff (codecs : StatelessCodecs) {newContent : Text}
    (wrote : Wrote codecs.toCodecs data call newContent counts out) :
    Replaced codecs.toCodecs data call out ↔ Careful codecs.toCodecs data call := by
  obtain ⟨made, written⟩ := wrote
  unfold editContent at made
  unfold Replaced Careful
  split at made
  next positive =>
    rw [if_pos positive, if_pos positive]
    exact lines_iff codecs positive made written
  next other =>
    rw [if_neg other, if_neg other]
    exact string_iff codecs made written

/-- A call that fails changes no file, and one that succeeds has changed what it was asked to and
nothing else. -/
structure EditKept (codecs : Codecs) (resolve : String → String) (files : Files)
    (write : WriteBytes) (call : EditCall) : Prop where
  failed : ∀ failure, (edit codecs resolve files write call).2 = .error failure →
    (edit codecs resolve files write call).1 = files
  done : ∀ report, (edit codecs resolve files write call).2 = .ok report →
    Edited codecs resolve files call (edit codecs resolve files write call).1

/-- A write that is done is that of a careful call, and one that raises leaves what stood there. -/
def Harmless (codecs : Codecs) (data : Bytes) (call : EditCall) : WriteBytes → Prop
  | .done => Careful codecs data call
  | .raises left => left = data

/-- The law of edits holds exactly for the calls that write nothing and those whose write is
harmless. -/
theorem edit_kept_iff (codecs : StatelessCodecs) (resolve : String → String) (files : Files)
    (write : WriteBytes) (call : EditCall) :
    EditKept codecs.toCodecs resolve files write call ↔
      ∀ data newContent counts out, files (resolve call.path) = .file data →
        Wrote codecs.toCodecs data call newContent counts out →
          Harmless codecs.toCodecs data call write := by
  constructor
  · intro kept data newContent counts out stands wrote
    cases write with
    | done =>
        have edited := kept.done _ (congrArg Prod.snd (edit_done stands wrote))
        rw [edit_done stands wrote, edited_iff stands, replaced_iff codecs wrote] at edited
        exact edited
    | raises left =>
        have same := kept.failed _ (congrArg Prod.snd (edit_raises stands wrote))
        rw [edit_raises stands wrote] at same
        have content : Function.update files (resolve call.path) (.file left)
            (resolve call.path) = files (resolve call.path) := congrFun same (resolve call.path)
        rw [Function.update_self, stands] at content
        cases content
        rfl
  · intro harmless
    by_cases writes : ∃ data newContent counts out, files (resolve call.path) = .file data ∧
        Wrote codecs.toCodecs data call newContent counts out
    · obtain ⟨data, newContent, counts, out, stands, wrote⟩ := writes
      have safe := harmless data newContent counts out stands wrote
      cases write with
      | done =>
          rw [Harmless, ← replaced_iff codecs wrote, ← edited_iff stands] at safe
          constructor
          · intro failure failed
            rw [edit_done stands wrote] at failed
            cases failed
          · intro report _
            rw [edit_done stands wrote]
            exact safe
      | raises left =>
          constructor
          · intro failure _
            rw [edit_raises stands wrote, show left = data from safe, ← stands,
              Function.update_eq_self]
          · intro report done
            rw [edit_raises stands wrote] at done
            cases done
    · have refused : ∃ failure, edit codecs.toCodecs resolve files write call =
          (files, .error failure) :=
        edit_refused fun data newContent counts out stands wrote =>
          writes ⟨data, newContent, counts, out, stands, wrote⟩
      obtain ⟨failure, same⟩ := refused
      constructor
      · intro _ _
        rw [same]
      · intro report done
        rw [same] at done
        cases done

def asciiCodecs : StatelessCodecs where
  gbk := .ascii
  shiftJis := .ascii
  gbkStateless := Codec.singleByte_stateless _ _
  shiftJisStateless := Codec.singleByte_stateless _ _

def oneFile (data : Bytes) : Files := fun path => if path = "note" then .file data else .missing

def letterCall : EditCall := ⟨"note", ['c'], ['b'], 0, 0⟩

private theorem letter_raw : asciiCodecs.rawText [0x61, 0x62] = (.utf8, ['a', 'b']) :=
  rawText_utf8 _ rfl rfl

private theorem letter_file :
    readText asciiCodecs.toCodecs [0x61, 0x62] = ⟨['a', 'b'], .utf8, .lf, false⟩ := by
  unfold readText
  rw [letter_raw]
  rfl

private theorem letter_careful : Careful asciiCodecs.toCodecs [0x61, 0x62] letterCall := by
  have first : ∀ before behind, (readText asciiCodecs.toCodecs [0x61, 0x62]).text =
      before ++ (normalized letterCall.oldStr ++ behind) → before = ['a'] := by
    rw [letter_file]
    intro before behind split
    match before, split with
    | [], split => cases split
    | [letter], split =>
        cases split
        rfl
    | letter :: other :: rest, split =>
        have size := congrArg List.length split
        rw [List.length_append, List.length_append] at size
        change 2 = rest.length + 2 + (1 + behind.length) at size
        omega
  constructor
  · intro one oneRest two twoRest oneSplit twoSplit less
    rw [first one oneRest oneSplit, first two twoRest twoSplit] at less
    exact absurd less (Nat.lt_irrefl _)
  · intro before behind split
    rw [first before behind split]
    have stays : ¬ FallsBack asciiCodecs.toCodecs [0x61, 0x62] (normalized letterCall.newStr) := by
      intro falls
      have latin := falls.1
      rw [letter_raw] at latin
      cases latin
    refine ⟨fun style member => ?_, fun falls => absurd falls stays, ?_⟩
    · unfold parts fileGlyphs at member
      rw [letter_raw] at member
      cases List.mem_singleton.mp member
    · unfold ReadsBack writtenEncoding
      rw [if_neg stays, letter_raw]
      exact fun character _ data written => (Codec.utf8_exact data _).mpr written

theorem letter_edited :
    EditKept asciiCodecs.toCodecs id (oneFile [0x61, 0x62]) .done letterCall ∧
      edit asciiCodecs.toCodecs id (oneFile [0x61, 0x62]) .done letterCall =
        (Function.update (oneFile [0x61, 0x62]) "note" (.file [0x61, 0x63]),
          .ok ⟨1, 1, 2, 1, ['a', 'c']⟩) := by
  constructor
  · refine (edit_kept_iff asciiCodecs id (oneFile [0x61, 0x62]) .done letterCall).mpr ?_
    intro data newContent counts out stands _
    cases stands
    exact letter_careful
  · have stands : oneFile [0x61, 0x62] (id letterCall.path) = .file [0x61, 0x62] := rfl
    have wrote : Wrote asciiCodecs.toCodecs [0x61, 0x62] letterCall ['a', 'c'] (1, 1, 1)
        [0x61, 0x63] := by
      constructor
      · rw [letter_file]
        decide
      · rw [letter_file]
        rfl
    exact edit_done stands wrote

def overlapCall : EditCall := ⟨"note", ['b'], ['a', 'a'], 0, 0⟩

/-- The edit succeeds though the old text stands at two places. -/
theorem overlap_edited :
    ¬ EditKept asciiCodecs.toCodecs id (oneFile [0x61, 0x61, 0x61]) .done overlapCall := by
  have raw : asciiCodecs.rawText [0x61, 0x61, 0x61] = (.utf8, ['a', 'a', 'a']) :=
    rawText_utf8 _ rfl rfl
  have file : readText asciiCodecs.toCodecs [0x61, 0x61, 0x61] =
      ⟨['a', 'a', 'a'], .utf8, .lf, false⟩ := by
    unfold readText
    rw [raw]
    rfl
  have wrote : Wrote asciiCodecs.toCodecs [0x61, 0x61, 0x61] overlapCall ['b', 'a'] (1, 1, 1)
      [0x62, 0x61] := by
    constructor
    · rw [file]
      decide
    · rw [file]
      rfl
  intro kept
  have own : oneFile [0x61, 0x61, 0x61] (id overlapCall.path) = .file [0x61, 0x61, 0x61] := rfl
  obtain ⟨data, out, stands, _, replaced⟩ :=
    kept.done _ (congrArg Prod.snd (edit_done own wrote))
  cases stands
  obtain ⟨before, _, _, alone, _⟩ := replaced
  have first := alone [] ['a'] (by rw [file]; rfl)
  have second := alone ['a'] [] (by rw [file]; rfl)
  rw [← first] at second
  cases second

end Ftre.Tools
