import Ftre.Lib.JoinedText
import Ftre.Encoding.Alignment

/-!
Where the two encoders give a tool output, a hint or a summary the same text.
-/

namespace Ftre.Encoding

open Lib Message Llm

/-! ### Texts -/

def OneChunk : ToolOutput → Prop
  | .plain _ => True
  | .parts items => (∀ item ∈ items, (outputText? item).isSome = true) ∧
      ((items.filterMap outputText?).filter fun text => text ≠ "").length ≤ 1

def OneText (hint : Json) : Prop := ∀ items, hint = .array items → items.length ≤ 1

private theorem chunk_of_text {item : OutputPart} {text : String}
    (found : outputText? item = some text) : outputChunk item = text := by
  cases item with
  | text block => exact Option.some.inj found
  | data block => cases found
  | other value =>
      simp only [outputText?] at found
      simp only [outputChunk]
      by_cases own : isTextItem value = true
      · rw [if_pos own] at found ⊢
        exact Option.some.inj found
      · rw [if_neg own] at found
        cases found

private theorem chunks_of_texts {items : List OutputPart}
    (texts : ∀ item ∈ items, (outputText? item).isSome = true) :
    items.map outputChunk = items.filterMap outputText? := by
  induction items with
  | nil => rfl
  | cons item rest ih =>
      obtain ⟨text, found⟩ := Option.isSome_iff_exists.mp (texts item List.mem_cons_self)
      rw [List.map_cons, List.filterMap_cons_some found, chunk_of_text found,
        ih fun other later => texts other (List.mem_cons_of_mem _ later)]

private theorem itemText_of_text {item : Json} {text : String}
    (own : item.get? "text" = some (.str text)) : itemText item = text := by
  rw [itemText, own]
  rfl

private theorem chunk_length {item : OutputPart} (noData : OutputPart.isData item = false)
    (textual : ∀ value, item = .other value → isTextItem value = true → textItem value) :
    (outputChunk item).length ≤ (item.modelDump.encode).length := by
  cases item with
  | data block => cases noData
  | text block =>
      have member : ("text", Json.str block.text) ∈
          ("type", Json.str "text") :: ("text", Json.str block.text) ::
            coordinates block.id block.createdAt block.finishedAt :=
        List.mem_cons_of_mem _ List.mem_cons_self
      exact Json.length_le_encode member
  | other value =>
      simp only [outputChunk, OutputPart.modelDump]
      by_cases own : isTextItem value = true
      · obtain ⟨text, held⟩ := textual value rfl own
        rw [if_pos own, itemText_of_text held]
        cases value with
        | object fields => exact Json.length_le_encode (Json.mem_of_lookup held)
        | _ => cases held
      · rw [if_neg own]

private theorem list_longer {items : List OutputPart} (nonempty : items ≠ [])
    (plain : plainOutput (.parts items)) :
    (toolResultContent (.parts items)).length <
      ((Json.array (items.map OutputPart.modelDump)).encode).length := by
  have chunks : ((items.map outputChunk).map String.length).sum ≤
      ((items.map fun item => item.modelDump.encode).map String.length).sum := by
    rw [List.map_map, List.map_map]
    exact List.sum_le_sum fun item present =>
      chunk_length (plain item present).1 (plain item present).2
  have kept : (((items.map outputChunk).filter fun chunk => chunk ≠ "").map String.length).sum ≤
      ((items.map outputChunk).map String.length).sum :=
    (List.filter_sublist.map String.length).sum_le_sum fun _size _member => Nat.zero_le _
  have fewer : ((items.map outputChunk).filter fun chunk => chunk ≠ "").length ≤ items.length := by
    simpa using List.length_filter_le (fun chunk => chunk ≠ "") (items.map outputChunk)
  have encoded := @intercalate_length ", " (items.map fun item => item.modelDump.encode)
    (by simpa using nonempty)
  have two : ", ".length = 2 := rfl
  have one : "\n".length = 1 := rfl
  rw [Json.encode, Json.encodeItems_eq, List.map_map, String.length_append, String.length_append,
    toolResultContent]
  have shape : (Json.encode ∘ OutputPart.modelDump) = fun item : OutputPart => item.modelDump.encode := rfl
  rw [shape]
  rw [two, List.length_map] at encoded
  by_cases silent : ((items.map outputChunk).filter fun chunk => chunk ≠ "") = []
  · rw [silent]
    have bracket : 1 ≤ "[".length := by decide
    simp only [String.intercalate_nil, String.length_empty]
    omega
  · have lines := intercalate_length "\n" silent
    rw [one] at lines
    have bracket : 1 ≤ "[".length := by decide
    have positive : 1 ≤ items.length := List.length_pos_iff.mpr nonempty
    omega

theorem output_agrees {output : ToolOutput} (plain : plainOutput output) :
    hostToolResultContent output = toolResultContent output ↔ OneChunk output := by
  cases output with
  | plain text => exact ⟨fun _same => trivial, fun _one => rfl⟩
  | parts items =>
      by_cases texts : ∀ item ∈ items, (outputText? item).isSome = true
      · have host : hostToolResultContent (.parts items) =
            "".intercalate (items.filterMap outputText?) := by
          rw [hostToolResultContent, if_pos (List.all_eq_true.mpr texts)]
        rw [host, toolResultContent, chunks_of_texts texts, ← join_nonempty, joins_agree]
        exact ⟨fun short => ⟨texts, short⟩, fun one => one.2⟩
      · have host : hostToolResultContent (.parts items) =
            (Json.array (items.map OutputPart.modelDump)).encode := by
          rw [hostToolResultContent, if_neg (fun all => texts (List.all_eq_true.mp all))]
        have nonempty : items ≠ [] := by
          intro empty
          subst empty
          exact texts fun _item present => absurd present List.not_mem_nil
        refine ⟨fun same => ?_, fun one => absurd one.1 texts⟩
        have longer := list_longer nonempty plain
        rw [← host, same] at longer
        exact absurd longer (Nat.lt_irrefl _)

private theorem partText_of_text {item : Json} {text : String}
    (own : item.get? "text" = some (.str text)) : partText item = text := by
  rw [partText, own]
  rfl

private theorem hintPart_text (includeImages : Bool) {item : Json} (own : isTextItem item = true) :
    hintPart includeImages item = some item := by
  cases item with
  | object fields =>
      have typed : (Json.object fields).get? "type" = some (.str "text") := by
        simpa [isTextItem, hasType] using own
      have noData : hasType (.object fields) ["data"] = false := by
        simp [hasType, typed]
      rw [hintPart, noData]
      rfl
  | _ => exact absurd own (by simp [isTextItem, hasType, Json.get?])

private theorem contentText_textPart (text : String) :
    contentText (.parts [textPart text]) = text := by
  have kept : isTextItem (textPart text) = true := by
    simp [isTextItem, hasType, textPart, Json.get?, Json.lookup]
  have own : partText (textPart text) = text := partText_of_text rfl
  rw [contentText, List.filter_cons_of_pos kept, List.map_cons, own]
  exact String.intercalate_singleton

theorem hint_agrees (includeImages : Bool) {block : HintBlock} (plain : plainHint block.hint) :
    view (hintMessage includeImages block) = view (runtimeHint block) ↔ OneText block.hint := by
  rcases plain with ⟨text, written⟩ | ⟨items, listed, textual⟩
  · rw [hintMessage, runtimeHint, written]
    refine ⟨fun _same => ?_, fun _one => rfl⟩
    rintro items ⟨⟩
  · have passed : items.filterMap (hintPart includeImages) = items := by
      rw [List.filterMap_congr fun item present =>
        hintPart_text includeImages (textual item present).1]
      exact List.filterMap_some
    have noneOmitted : (items.any fun item => (hintPart includeImages item).isNone) = false := by
      rw [List.any_eq_false]
      intro item present
      rw [hintPart_text includeImages (textual item present).1]
      exact Bool.false_ne_true
    have kept : items.filter isTextItem = items :=
      List.filter_eq_self.mpr fun item present => (textual item present).1
    have same : items.map itemText = items.map partText :=
      List.map_congr_left fun item present => by
        obtain ⟨text, held⟩ := (textual item present).2
        rw [itemText_of_text held, partText_of_text held]
    have host : view (hintMessage includeImages block) =
        ⟨"user", "".intercalate (items.map partText), []⟩ := by
      rw [hintMessage, listed]
      simp only [passed, noneOmitted, Bool.false_eq_true, if_false, List.append_nil]
      by_cases empty : items = []
      · rw [empty]
        rfl
      · rw [if_neg empty, view, ChatMessage.plain, contentText, kept]
        rfl
    have runtime : view (runtimeHint block) =
        ⟨"user", "\n".intercalate (items.map partText), []⟩ := by
      have shown : contentPart? (.hint block) =
          some (textPart ("\n".intercalate (items.map partText))) := by
        rw [contentPart?, toOpenaiPart, listed]
        simp only [kept, same]
        all_goals simp
      have content : (toOpenaiMessage [.hint block] "user").content =
          .parts [textPart ("\n".intercalate (items.map partText))] := by
        rw [toOpenaiMessage, if_neg (by decide)]
        simp only [List.filterMap_cons_some shown, List.filterMap_nil, List.cons_ne_nil, if_false]
        rfl
      rw [runtimeHint, listed]
      change view (toOpenaiMessage [.hint block] "user") = _
      rw [view, content, contentText_textPart]
      rfl
    rw [host, runtime, WireView.mk.injEq]
    simp only [true_and, and_true]
    rw [joins_agree, List.length_map]
    constructor
    · intro short others own
      rw [listed] at own
      exact Json.array.inj own ▸ short
    · intro one
      exact one items listed

theorem summary_differs (text : TextBlock) (legacy : Option String) :
    view (.plain "user" (.text (summaryPrefix ++ summaryText [.text text]))) ≠
      view (runtimePiece (.summary [.text text] legacy)) := by
  have shown : (RuntimeExpansion.inject legacy (toOpenaiMessage [.text text] "user")).content =
      .parts [textPart text.text] := by
    cases legacy with
    | none => rfl
    | some reasoning => rfl
  have own : summaryText [.text text] = text.text := String.intercalate_singleton
  intro same
  have texts : summaryPrefix ++ text.text = text.text := by
    have read := congrArg WireView.text same
    rw [runtimePiece, view, view, shown, contentText_textPart, own] at read
    exact read
  have lengths := congrArg String.length texts
  rw [String.length_append] at lengths
  have positive : 0 < summaryPrefix.length := by decide
  omega

end Ftre.Encoding
