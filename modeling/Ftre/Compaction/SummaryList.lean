import Ftre.Compaction.Summary
import Ftre.Lib.JoinedText

/-!
A summary gives its list of user messages back as it was put in, as long as no text of the
list closes the list and no section before it opens one.
-/

namespace Ftre.Compaction

open Lib Message Session

/-! ### Texts without a tag -/

def foreign (tag : String) (letter : Char) : Bool :=
  tag.toList.all fun own => decide (letter ∉ caseVariants own)

theorem strange_of_foreign {tag : String} {letter : Char} (other : foreign tag letter = true) :
    Strange (tagPattern tag) letter := by
  intro accepts present
  obtain ⟨own, member, same⟩ := List.mem_map.mp present
  rw [← same]
  exact decide_eq_false (of_decide_eq_true (List.all_eq_true.mp other own member))

def listOpen : String := openTag "all_user_messages"

def listClose : String := closeTag "all_user_messages"

theorem openTag_letters (name : String) :
    (openTag name).toList = '<' :: (name.toList ++ ['>']) := by
  rw [openTag, String.toList_append, String.toList_append]
  rfl

theorem closeTag_letters (name : String) :
    (closeTag name).toList = '<' :: '/' :: (name.toList ++ ['>']) := by
  rw [closeTag, String.toList_append, String.toList_append]
  rfl

theorem listOpen_letters : listOpen.toList =
    ['<', 'a', 'l', 'l', '_', 'u', 's', 'e', 'r', '_', 'm', 'e', 's', 's', 'a', 'g', 'e', 's',
      '>'] := by
  simp only [listOpen, openTag_letters, String.reduceToList, List.cons_append, List.nil_append]

theorem listClose_letters : listClose.toList =
    ['<', '/', 'a', 'l', 'l', '_', 'u', 's', 'e', 'r', '_', 'm', 'e', 's', 's', 'a', 'g', 'e', 's',
      '>'] := by
  simp only [listClose, closeTag_letters, String.reduceToList, List.cons_append, List.nil_append]

theorem listOpen_pattern_nonempty : tagPattern listOpen ≠ [] := by
  rw [tagPattern, listOpen_letters]
  exact List.cons_ne_nil _ _

theorem listClose_pattern_nonempty : tagPattern listClose ≠ [] := by
  rw [tagPattern, listClose_letters]
  exact List.cons_ne_nil _ _

theorem newline_foreign_open : foreign listOpen '\n' = true := by
  rw [foreign, listOpen_letters]
  decide

theorem space_foreign_open : foreign listOpen ' ' = true := by
  rw [foreign, listOpen_letters]
  decide

theorem newline_foreign_close : foreign listClose '\n' = true := by
  rw [foreign, listClose_letters]
  decide

theorem space_foreign_close : foreign listClose ' ' = true := by
  rw [foreign, listClose_letters]
  decide

theorem digit_foreign_close {letter : Char} (digit : letter.isDigit = true) :
    foreign listClose letter = true := by
  rw [foreign, List.all_eq_true]
  intro own member
  apply decide_eq_true
  intro variant
  have none : (listClose.toList.flatMap caseVariants).all (fun other => !other.isDigit) = true := by
    rw [listClose_letters]
    decide
  have other := List.all_eq_true.mp none letter (List.mem_flatMap.mpr ⟨own, member, variant⟩)
  rw [digit] at other
  cases other

theorem not_hasTag {tag text : String} :
    hasTag tag text = false ↔ findPattern (tagPattern tag) text.toList = none := by
  rw [hasTag, contains, Option.isSome_eq_false_iff, Option.isNone_iff_eq_none]

variable {texts : List String} {text : String} {summaries : List Sections}

theorem not_hasTag_intercalate {tag separator : String} (nonempty : tagPattern tag ≠ [])
    (between : ∀ letter ∈ separator.toList, foreign tag letter = true)
    (parted : separator.toList ≠ []) (free : ∀ text ∈ texts, hasTag tag text = false) :
    hasTag tag (separator.intercalate texts) = false := by
  induction texts with
  | nil => exact not_hasTag.mpr (findPattern_nil nonempty)
  | cons text rest ih =>
      have own := not_hasTag.mp (free text List.mem_cons_self)
      by_cases last : rest = []
      · subst last
        rw [String.intercalate_singleton]
        exact not_hasTag.mpr own
      · have behind := not_hasTag.mp (ih fun other present =>
          free other (List.mem_cons_of_mem _ present))
        rw [String.intercalate_cons_of_ne_nil last, not_hasTag, String.toList_append,
          String.toList_append, List.append_assoc]
        cases letters : separator.toList with
        | nil => exact absurd letters parted
        | cons letter more =>
            rw [letters] at between
            rw [List.cons_append]
            apply absent_join nonempty
            · exact strange_of_foreign (between letter List.mem_cons_self)
            · exact own
            · exact absent_behind nonempty (fun other present =>
                strange_of_foreign (between other (List.mem_cons_of_mem _ present))) behind

/-! ### Trimmed texts -/

theorem stripChars_between {front back : List Char} (before : ∀ letter ∈ front, isSpace letter)
    (behind : ∀ letter ∈ back, isSpace letter) (characters : List Char) :
    stripChars (front ++ (characters ++ back)) = stripChars characters := by
  have leading : (front ++ (characters ++ back)).dropWhile isSpace =
      (characters ++ back).dropWhile isSpace := List.dropWhile_append_of_pos before
  have blankBack : back.dropWhile isSpace = [] := List.dropWhile_eq_nil_iff.mpr behind
  rw [stripChars, stripChars, leading, List.dropWhile_append, blankBack]
  by_cases blank : (characters.dropWhile isSpace).isEmpty = true
  · rw [if_pos blank, List.isEmpty_iff.mp blank]
  · rw [if_neg blank, List.reverse_append]
    congr 1
    exact List.dropWhile_append_of_pos fun letter present =>
      behind letter (List.mem_reverse.mp present)

theorem stripChars_part (characters : List Char) :
    ∃ front back, characters = front ++ (stripChars characters ++ back) := by
  obtain ⟨front, leading⟩ := List.dropWhile_suffix isSpace (l := characters)
  obtain ⟨back, trailing⟩ := List.rdropWhile_prefix isSpace (characters.dropWhile isSpace)
  refine ⟨front, back, ?_⟩
  change characters = front ++ ((characters.dropWhile isSpace).rdropWhile isSpace ++ back)
  rw [trailing, leading]

theorem stripChars_front {first : Char} {front rest : List Char} (visible : isSpace first = false)
    (trimmed : stripChars rest = rest) (nonempty : rest ≠ []) :
    stripChars (first :: (front ++ rest)) = first :: (front ++ rest) := by
  have whole : ∀ list : List Char, stripChars list = (list.dropWhile isSpace).rdropWhile isSpace :=
    fun _ => rfl
  have ends : rest.rdropWhile isSpace = rest := by
    rw [← trimmed, whole, List.rdropWhile_idempotent]
  rw [whole, List.dropWhile_cons_of_neg (by simp [visible]), List.rdropWhile_eq_self_iff]
  intro _
  rw [List.getLast_cons (by simp [nonempty]), List.getLast_append_of_ne_nil _ nonempty]
  exact List.rdropWhile_eq_self_iff.mp ends nonempty

structure Listable (text : String) : Prop where
  trimmed : strip text = text
  visible : text ≠ ""
  closed : hasTag listClose text = false

theorem toList_ne_nil (visible : text ≠ "") : text.toList ≠ [] := by
  intro none
  exact visible (by rw [← String.ofList_toList (s := text), none])

theorem stripChars_of_strip (trimmed : strip text = text) :
    stripChars text.toList = text.toList := by
  have same := congrArg String.toList trimmed
  rwa [strip, String.toList_ofList] at same

theorem strip_of_stripChars (trimmed : stripChars text.toList = text.toList) :
    strip text = text := by
  rw [strip, trimmed, String.ofList_toList]

theorem userEntry_letters (index : Nat) (text : String) :
    ∃ label, (userEntry index text).toList = '用' :: (label ++ text.toList) ∧
      ∀ letter ∈ '用' :: label, foreign listClose letter = true := by
  refine ⟨"户消息 ".toList ++ ((toString index).toList ++ ": ".toList), ?_, ?_⟩
  · have parts : userEntry index text = "用户消息 " ++ toString index ++ ": " ++ text := rfl
    rw [parts, String.toList_append, String.toList_append, String.toList_append]
    simp
  · intro letter present
    rw [← List.cons_append, List.mem_append, List.mem_append] at present
    rcases present with word | digit | mark
    · have all : ['用', '户', '消', '息', ' '].all (foreign listClose) = true := by
        unfold foreign
        rw [listClose_letters]
        decide
      exact List.all_eq_true.mp all letter (by simpa using word)
    · rw [Nat.toString_eq_repr, Nat.toList_repr] at digit
      exact digit_foreign_close (Nat.isDigit_of_mem_toDigits (by decide) (by decide) digit)
    · have all : [':', ' '].all (foreign listClose) = true := by
        unfold foreign
        rw [listClose_letters]
        decide
      exact List.all_eq_true.mp all letter (by simpa using mark)

theorem listable_entry (listable : Listable text) (index : Nat) :
    Listable (userEntry index text) := by
  obtain ⟨label, letters, others⟩ := userEntry_letters index text
  constructor
  · apply strip_of_stripChars
    rw [letters]
    exact stripChars_front (by decide) (stripChars_of_strip listable.trimmed)
      (toList_ne_nil listable.visible)
  · intro none
    rw [none] at letters
    cases letters
  · rw [not_hasTag, letters, ← List.cons_append]
    exact absent_behind listClose_pattern_nonempty
      (fun letter present => strange_of_foreign (others letter present))
      (not_hasTag.mp listable.closed)

/-! ### Lists of texts -/

def ListsTexts (texts : List String) (body : String) : Prop :=
  ∃ numbers : List Nat, numbers.length = texts.length ∧
    body = "\n\n".intercalate (List.zipWith userEntry numbers texts)

theorem listable_join {entries : List String} (nonempty : entries ≠ [])
    (listable : ∀ entry ∈ entries, Listable entry) (first : ∀ entry ∈ entries,
      ∃ rest, entry.toList = '用' :: rest) : Listable ("\n\n".intercalate entries) := by
  induction entries with
  | nil => exact absurd rfl nonempty
  | cons entry rest ih =>
      by_cases last : rest = []
      · subst last
        rw [String.intercalate_singleton]
        exact listable entry List.mem_cons_self
      · have behind := ih last (fun other present => listable other (List.mem_cons_of_mem _ present))
          (fun other present => first other (List.mem_cons_of_mem _ present))
        obtain ⟨label, letters⟩ := first entry List.mem_cons_self
        have whole : ("\n\n".intercalate (entry :: rest)).toList =
            '用' :: ((label ++ "\n\n".toList) ++ ("\n\n".intercalate rest).toList) := by
          rw [String.intercalate_cons_of_ne_nil last, String.toList_append, String.toList_append,
            letters]
          rfl
        constructor
        · apply strip_of_stripChars
          rw [whole]
          exact stripChars_front (by decide) (stripChars_of_strip behind.trimmed)
            (toList_ne_nil behind.visible)
        · intro none
          rw [none] at whole
          cases whole
        · apply not_hasTag_intercalate listClose_pattern_nonempty ?_ (by decide)
          · exact fun other present => (listable other present).closed
          · intro letter present
            have newline : letter = '\n' := by simpa using present
            rw [newline]
            exact newline_foreign_close

theorem zipWith_entries (listable : ∀ text ∈ texts, Listable text) {numbers : List Nat}
    {entry : String} (member : entry ∈ List.zipWith userEntry numbers texts) :
    Listable entry ∧ ∃ rest, entry.toList = '用' :: rest := by
  rw [List.zipWith_eq_zipWith_take_min, ← List.map_uncurry_zip_eq_zipWith] at member
  obtain ⟨pair, present, same⟩ := List.mem_map.mp member
  have text : pair.2 ∈ texts := List.mem_of_mem_take (List.of_mem_zip present).2
  rw [← same]
  obtain ⟨label, letters, _⟩ := userEntry_letters pair.1 pair.2
  exact ⟨listable_entry (listable pair.2 text) pair.1, _, letters⟩

theorem ListsTexts.listable {body : String} (lists : ListsTexts texts body)
    (listable : ∀ text ∈ texts, Listable text) (nonempty : texts ≠ []) : Listable body := by
  obtain ⟨numbers, length, same⟩ := lists
  rw [same]
  apply listable_join
  · intro none
    have size := congrArg List.length none
    rw [List.length_zipWith, length, Nat.min_self] at size
    exact nonempty (List.length_eq_zero_iff.mp size)
  · exact fun entry present => (zipWith_entries listable present).1
  · exact fun entry present => (zipWith_entries listable present).2

theorem texts_of_blank (lists : ListsTexts texts "") : texts = [] := by
  obtain ⟨numbers, length, same⟩ := lists
  cases texts with
  | nil => rfl
  | cons text rest =>
      cases numbers with
      | nil => cases length
      | cons number others =>
          obtain ⟨label, letters, _⟩ := userEntry_letters number text
          have whole := congrArg String.toList same
          rw [List.zipWith_cons_cons] at whole
          by_cases last : List.zipWith userEntry others rest = []
          · rw [last, String.intercalate_singleton, letters] at whole
            cases whole
          · rw [String.intercalate_cons_of_ne_nil last, String.toList_append,
              String.toList_append, letters] at whole
            cases whole

theorem ListsTexts.nil {body : String} (lists : ListsTexts [] body) : body = "" := by
  obtain ⟨numbers, length, same⟩ := lists
  rw [same, List.zipWith_nil_right]
  rfl

theorem numbered_entries (number : Nat → Nat) (texts : List String) :
    ∃ numbers : List Nat, numbers.length = texts.length ∧
      texts.mapIdx (fun index text => userEntry (number index) text) =
        List.zipWith userEntry numbers texts := by
  induction texts generalizing number with
  | nil => exact ⟨[], rfl, rfl⟩
  | cons text rest ih =>
      obtain ⟨numbers, length, same⟩ := ih fun index => number (index + 1)
      refine ⟨number 0 :: numbers, by simp [length], ?_⟩
      rw [List.mapIdx_cons, List.zipWith_cons_cons, same]

theorem trimmedText_visible {text trimmed : String} (found : trimmedText text = some trimmed) :
    trimmed ≠ "" := by
  obtain ⟨visible, same⟩ := Option.ite_none_right_eq_some.mp found
  rw [← Option.some.inj same]
  exact visible

theorem build_lists {previous : Option String}
    (prior : ListsTexts texts ((previousList previous).getD "")) (messages : List Msg) :
    ListsTexts (texts ++ extractUserMessageTexts messages)
      (buildUserMessagesSection messages previous) := by
  obtain ⟨numbers, length, entries⟩ :=
    numbered_entries (fun index => index + 1) (extractUserMessageTexts messages)
  rw [buildUserMessagesSection, entries]
  cases earlier : previousList previous with
  | none =>
      rw [earlier] at prior
      rw [texts_of_blank prior]
      exact ⟨numbers, length, rfl⟩
  | some body =>
      rw [earlier] at prior
      obtain ⟨_, _, found⟩ := Option.bind_eq_some_iff.mp earlier
      have visible : body ≠ "" := trimmedText_visible found
      obtain ⟨numbered, size, same⟩ := prior
      change body = _ at same
      refine ⟨numbered ++ numbers, by simp [size, length], ?_⟩
      have nonempty : List.zipWith userEntry numbered texts ≠ [] := by
        intro none
        rw [none] at same
        exact visible same
      rw [List.zipWith_append size, ← intercalate_flatten "\n\n" nonempty, ← same]
      rfl

/-! ### Reading the list back -/

def leadingSections : List String :=
  summarySectionOrder.takeWhile fun name => name ≠ "all_user_messages"

def trailingSections : List String := ["pending_tasks", "current_work", "next_step"]

theorem summarySectionOrder_parts :
    summarySectionOrder = leadingSections ++ "all_user_messages" :: trailingSections := by
  decide

theorem leadingSections_names : leadingSections =
    ["primary_request_and_intent", "key_technical_concepts", "files_and_code_sections",
      "errors_and_fixes", "problem_solving"] := by
  decide

def opensNoList (summaries : List Sections) : Bool :=
  summaries.all fun part => leadingSections.all fun name => !hasTag listOpen (sectionText part name)

theorem not_hasTag_leading (plain : opensNoList summaries = true) (userMessages : String) :
    hasTag listOpen ("\n".intercalate ("<state_snapshot>" ::
      leadingSections.flatMap (sectionLines summaries userMessages))) = false := by
  have headings : ∀ name ∈ leadingSections, name ≠ "all_user_messages" ∧
      hasTag listOpen ("  " ++ openTag name) = false ∧
      hasTag listOpen ("  " ++ closeTag name) = false := by
    rw [leadingSections_names]
    simp only [not_hasTag, tagPattern, listOpen_letters, String.toList_append, openTag_letters,
      closeTag_letters, List.forall_mem_cons, String.reduceToList]
    decide
  have newline : ∀ letter ∈ "\n".toList, foreign listOpen letter = true := by
    intro letter present
    have same : letter = '\n' := by simpa using present
    rw [same]
    exact newline_foreign_open
  have blankLine : ∀ letter ∈ "\n\n".toList, foreign listOpen letter = true := by
    intro letter present
    have same : letter = '\n' := by simpa using present
    rw [same]
    exact newline_foreign_open
  apply not_hasTag_intercalate listOpen_pattern_nonempty newline (by decide)
  intro line present
  rcases List.mem_cons.mp present with snapshot | listed
  · rw [snapshot, not_hasTag, tagPattern, listOpen_letters]
    simp only [String.reduceToList]
    decide
  · obtain ⟨name, leading, member⟩ := List.mem_flatMap.mp listed
    obtain ⟨other, opening, closing⟩ := headings name leading
    rw [sectionLines, List.mem_cons, List.mem_cons, List.mem_singleton] at member
    rcases member with opens | values | closes
    · rw [opens]
      exact opening
    · rw [values]
      apply not_hasTag_intercalate listOpen_pattern_nonempty blankLine (by decide)
      intro value kept
      have given := List.mem_of_mem_filter kept
      rw [if_neg other] at given
      obtain ⟨part, own, same⟩ := List.mem_map.mp given
      rw [← same]
      simpa using List.all_eq_true.mp (List.all_eq_true.mp plain part own) name leading
    · rw [closes]
      exact closing

theorem sectionLines_list (summaries : List Sections) {userMessages : String}
    (trimmed : strip userMessages = userMessages) :
    sectionLines summaries userMessages "all_user_messages" =
      ["  " ++ listOpen, userMessages, "  " ++ listClose] := by
  have value : "\n\n".intercalate
      (sectionValues summaries userMessages "all_user_messages") = userMessages := by
    rw [sectionValues, if_pos rfl, trimmed]
    by_cases blank : userMessages = ""
    · rw [blank]
      rfl
    · rw [List.filter_cons_of_pos (by simp [blank]), List.filter_nil, String.intercalate_singleton]
  rw [sectionLines, value]
  rfl

theorem merged_text {userMessages summary : String}
    (merged : mergeChunkSummaries summaries userMessages = some summary)
    (trimmed : strip userMessages = userMessages) :
    ∃ front back, front = "\n".intercalate ("<state_snapshot>" ::
        leadingSections.flatMap (sectionLines summaries userMessages)) ∧
      summary = front ++ "\n" ++ ("  " ++ listOpen ++ "\n" ++ (userMessages ++ "\n" ++
        ("  " ++ listClose ++ "\n" ++ back))) := by
  obtain ⟨_, same⟩ := Option.ite_none_right_eq_some.mp merged
  refine ⟨_, "\n".intercalate (trailingSections.flatMap (sectionLines summaries userMessages) ++
    ["</state_snapshot>"]), rfl, ?_⟩
  rw [← Option.some.inj same, summarySectionOrder_parts, List.flatMap_append, List.flatMap_cons,
    sectionLines_list summaries trimmed, List.append_assoc, ← List.cons_append, List.append_assoc]
  exact intercalate_block _ (List.cons_ne_nil _ _) _ _ _ (by simp)

theorem listOpen_matches : afterPattern (tagPattern listOpen) listOpen.toList = some [] := by
  rw [tagPattern, listOpen_letters]
  decide

theorem listClose_matches : afterPattern (tagPattern listClose) listClose.toList = some [] := by
  rw [tagPattern, listClose_letters]
  decide

theorem front_plain (plain : opensNoList summaries = true) (userMessages : String) :
    findPattern (tagPattern listOpen) (("\n".intercalate ("<state_snapshot>" ::
      leadingSections.flatMap (sectionLines summaries userMessages))).toList ++
        '\n' :: [' ']) = none := by
  apply absent_join listOpen_pattern_nonempty (strange_of_foreign newline_foreign_open)
  · exact not_hasTag.mp (not_hasTag_leading plain userMessages)
  · apply absent_strange listOpen_pattern_nonempty
    intro letter present
    rw [List.mem_singleton.mp present]
    exact strange_of_foreign space_foreign_open

theorem searchSection_merged {userMessages summary : String}
    (merged : mergeChunkSummaries summaries userMessages = some summary)
    (trimmed : strip userMessages = userMessages) (closed : hasTag listClose userMessages = false)
    (plain : opensNoList summaries = true) :
    ∃ content, searchSection "all_user_messages" summary = some content ∧
      strip content = userMessages := by
  obtain ⟨front, back, fronts, text⟩ := merged_text merged trimmed
  have frontPlain : findPattern (tagPattern listOpen) (front.toList ++ '\n' :: [' ']) = none := by
    rw [fronts]
    exact front_plain plain userMessages
  have bodyPlain : findPattern (tagPattern listClose)
      (['\n'] ++ (userMessages.toList ++ '\n' :: [' '])) = none := by
    apply absent_behind listClose_pattern_nonempty
    · intro letter present
      rw [List.mem_singleton.mp present]
      exact strange_of_foreign newline_foreign_close
    · apply absent_join listClose_pattern_nonempty (strange_of_foreign newline_foreign_close)
        (not_hasTag.mp closed)
      apply absent_strange listClose_pattern_nonempty
      intro letter present
      rw [List.mem_singleton.mp present]
      exact strange_of_foreign space_foreign_close
  have letters : summary.toList = (front.toList ++ '\n' :: [' ']) ++ ' ' :: (listOpen.toList ++
      ((['\n'] ++ (userMessages.toList ++ '\n' :: [' '])) ++ ' ' :: (listClose.toList ++
        ('\n' :: back.toList)))) := by
    rw [text]
    simp
  have found := @findBetween_tagged _ _ _ _ _ _ _ ('\n' :: back.toList) _ _ listOpen_matches listClose_matches
    listOpen_pattern_nonempty listClose_pattern_nonempty
    (strange_of_foreign space_foreign_open) (strange_of_foreign space_foreign_close)
    frontPlain bodyPlain
  refine ⟨String.ofList (['\n'] ++ (userMessages.toList ++ '\n' :: [' ']) ++ [' ']), ?_, ?_⟩
  · rw [searchSection, letters]
    exact congrArg (Option.map String.ofList) found
  · rw [strip, String.toList_ofList, List.append_assoc, List.append_assoc, stripChars_between]
    · exact trimmed
    · intro letter present
      rw [List.mem_singleton.mp present]
      rfl
    · intro letter present
      simp only [List.cons_append, List.nil_append, List.mem_cons, List.not_mem_nil,
        or_false] at present
      rcases present with same | same | same <;> rw [same] <;> rfl

end Ftre.Compaction
