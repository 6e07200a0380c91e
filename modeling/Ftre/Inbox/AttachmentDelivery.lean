import Mathlib.Data.List.Infix
import Ftre.Inbox.PersistencePaths
import Ftre.Runtime.TurnExecutor

/-!
What of an item's attachments the first reasoning step sees.
-/

namespace Ftre.Inbox

open Lib Message Session Session.Multimodal Ftre.Runtime

def imageSource (url : String) : DataSource :=
  if "data:".toList.isPrefixOf url.toList then
    let header := url.toList.takeWhile fun character => character ≠ ','
    let payload := (url.toList.dropWhile fun character => character ≠ ',').drop 1
    let type := ((header.takeWhile fun character => character ≠ ';').dropWhile
      fun character => character ≠ ':').drop 1
    let mediaType := if type = [] then "image/png" else String.ofList type
    if ";base64".toList <:+: header then .base64 (String.ofList payload) mediaType
    else .url url mediaType
  else .url url "image/png"

/-- `from_openai_part`, for the texts and images that `build_user_content` makes. -/
def fromOpenaiPart (blockId createdAt : String) (part : Json) : ContentBlock :=
  if isType part "image_url" then
    .data ⟨imageSource (strOr ((part.get? "image_url").bind fun image => image.get? "url") none),
      none, blockId, createdAt, none⟩
  else .text ⟨strOr (part.get? "text") none, blockId, createdAt, none⟩

/-- The blocks of `from_openai_message`, for a message of the user's. -/
def fromOpenaiContent (blockId createdAt : String) : UserContent → List ContentBlock
  | .text text => if text = "" then [] else [.text ⟨text, blockId, createdAt, none⟩]
  | .parts parts => parts.map (fromOpenaiPart blockId createdAt)

/-- A queued item starts a turn, recorded by the inbox's claim or left to the
engine; a steering one joins the running turn. -/
inductive Route where
  | claimed
  | fallback
  | steered
deriving DecidableEq

/-- The session the item meets, and the coordinates its message gets. -/
structure Consumption where
  earlier : List Msg
  vision : Bool
  event : Event
  metadata : KeyedTable String Json
  historyMessageId : Option String
  generatedId : String
  createdAt : String

def recordedMessages (readFile : ReadFile) (item : QueueItem) (seen : Consumption)
    (route : Route) : List Msg :=
  let byEngine := engineParts readFile (deliveredInput item seen.generatedId seen.createdAt)
  let parts := if route = .claimed then (inboxParts item).orElse fun _ => byEngine else byEngine
  (parts.map fun parts => userMessageOf seen.event parts seen.metadata).toList

/-- `_build_messages`: the history, or the input itself if there is none. -/
def buildMessages (readFile : ReadFile) (messages : List Msg) (input : RuntimeInput)
    (seen : Consumption) : List ContextInput :=
  if messages ≠ [] then messages.map .typed
  else
    [.raw
      { id := none
        role := .user
        blocks := fromOpenaiContent seen.generatedId seen.createdAt
          (buildUserContent readFile (.str input.content) input.attachments seen.vision)
        metadata := .empty
        generatedId := seen.generatedId
        createdAt := seen.createdAt }]

/-- `on_before_reasoning`: a claimed item as a message of the running turn. -/
def injectedMessage (item : QueueItem) (seen : Consumption) : RawMessage where
  id := seen.historyMessageId
  role := if item.source = .user then .user else .system
  blocks := fromOpenaiContent seen.generatedId seen.createdAt (.text item.content)
  metadata := (KeyedTable.empty.set "request_id" (.str item.requestId)).set "source"
    (.str item.source.value)
  generatedId := seen.generatedId
  createdAt := seen.createdAt

def stepContext (readFile : ReadFile) (item : QueueItem) (seen : Consumption) (route : Route) :
    List Msg :=
  if route = .steered then
    MessageContext.addRaw seen.earlier (.raw (injectedMessage item seen))
  else
    (buildMessages readFile (seen.earlier ++ recordedMessages readFile item seen route)
      (deliveredInput item seen.generatedId seen.createdAt) seen).foldl MessageContext.addRaw []

/-- What the context holds besides the earlier messages of the session. -/
def requestMessages (readFile : ReadFile) (item : QueueItem) (seen : Consumption) (route : Route) :
    List Msg :=
  (stepContext readFile item seen route).drop seen.earlier.length

def blockImage? : ContentBlock → Option DataSource
  | .data block => some block.source
  | _ => none

def images (messages : List Msg) : List DataSource :=
  messages.flatMap fun message => message.content.filterMap blockImage?

def shownText (messages : List Msg) : List Char :=
  messages.flatMap fun message => (blockTexts message).flatMap String.toList

/-- The text with every image in order; without vision, the text and then the notice. -/
def Delivered (readFile : ReadFile) (item : QueueItem) (vision : Bool) (messages : List Msg) :
    Prop :=
  if vision = true then
    item.content.toList <:+: shownText messages ∧
      images messages = (imageUrls readFile item).map imageSource
  else
    ∃ front between back, shownText messages =
      front ++ item.content.toList ++ between ++ imageOmittedNotice.toList ++ back

/-- The item has no text and nobody records it, and the session has no message. -/
def LeavesNoHistory (item : QueueItem) (seen : Consumption) (route : Route) : Prop :=
  seen.earlier = [] ∧ item.content = "" ∧
    (route = .fallback ∨ route = .claimed ∧ item.source ≠ .user)

/-! ### Messages without attachments -/

structure Textual (content : String) (messages : List Msg) : Prop where
  imageless : images messages = []
  shown : ∃ own : List Char, own.length ≤ content.toList.length ∧
    ∃ placeholders : List Char, '图' ∉ placeholders ∧ shownText messages = own ++ placeholders

variable {readFile : ReadFile} {item : QueueItem} {route : Route}

theorem Textual.not_delivered {messages : List Msg} (textual : Textual item.content messages)
    (attached : imageUrls readFile item ≠ []) (vision : Bool) :
    ¬ Delivered readFile item vision messages := by
  intro delivered
  cases vision with
  | true =>
      have same := delivered.2
      rw [textual.imageless] at same
      exact attached (List.map_eq_nil_iff.mp same.symm)
  | false =>
      obtain ⟨front, between, back, noticed⟩ := delivered
      obtain ⟨own, short, placeholders, plain, shown⟩ := textual.shown
      apply plain
      have within : own.length ≤ (front ++ item.content.toList ++ between).length := by
        simp only [List.length_append]
        omega
      have behind : '图' ∈ (shownText messages).drop own.length := by
        rw [noticed, List.append_assoc (front ++ _ ++ _), List.drop_append_of_le_length within]
        exact List.mem_append_right _ (List.mem_append_left _ (by decide))
      rw [shown, List.drop_left] at behind
      exact behind

theorem textual_nil (content : String) : Textual content [] :=
  ⟨rfl, [], Nat.zero_le _, [], List.not_mem_nil, rfl⟩

private theorem blockImage?_of_text {block : ContentBlock} {text : String}
    (read : block.asText?.map TextBlock.text = some text) : blockImage? block = none := by
  cases block <;> first | rfl | cases read

private def partText (part : Json) : Option String :=
  if isType part "text" then (part.get? "text").bind Json.asString? else some "[image_url]"

private theorem filterMap_partText (texts urls : List String) :
    (texts.map textPart ++ urls.map imagePart).filterMap partText =
      texts ++ urls.map fun _ => "[image_url]" := by
  rw [List.filterMap_append, List.filterMap_map, List.filterMap_map]
  congr 1
  · exact (List.filterMap_congr fun _ _ => rfl).trans List.filterMap_some
  · change urls.filterMap (some ∘ fun _ => "[image_url]") = _
    rw [List.filterMap_eq_map]

theorem textual_userMessageOf (seen : Consumption) (texts urls : List String) {content : String}
    (short : (texts.flatMap String.toList).length ≤ content.toList.length) :
    Textual content
      [userMessageOf seen.event (texts.map textPart ++ urls.map imagePart) seen.metadata] := by
  have read : ∀ messageId time index, ∀ part ∈ texts.map textPart ++ urls.map imagePart,
      (userBlock messageId time index part).asText?.map TextBlock.text = partText part ∧
        blockImage? (userBlock messageId time index part) = none := by
    intro messageId time index part member
    rcases List.mem_append.mp member with text | image
    · obtain ⟨text, _, same⟩ := List.mem_map.mp text
      have shown := userBlock_textPart messageId time text index
      rw [← same]
      exact ⟨shown, blockImage?_of_text shown⟩
    · obtain ⟨url, _, same⟩ := List.mem_map.mp image
      have shown := userBlock_imagePart messageId time url index
      rw [← same]
      exact ⟨shown, blockImage?_of_text shown⟩
  have texts_eq : blockTexts
      (userMessageOf seen.event (texts.map textPart ++ urls.map imagePart) seen.metadata) =
        texts ++ urls.map fun _ => "[image_url]" := by
    rw [← filterMap_partText]
    exact filterMap_mapIdx _ _ _ _ fun index part member => (read _ _ index part member).1
  constructor
  · change (List.filterMap blockImage? (List.mapIdx _ _)) ++ [] = []
    rw [List.append_nil, filterMap_mapIdx _ (fun _ => none) _ _ fun index part member =>
      (read _ _ index part member).2]
    exact List.filterMap_none _
  · refine ⟨texts.flatMap String.toList, short,
      (urls.map fun _ => "[image_url]").flatMap String.toList, ?_, ?_⟩
    · intro member
      obtain ⟨text, placeholder, inside⟩ := List.mem_flatMap.mp member
      obtain ⟨url, _, same⟩ := List.mem_map.mp placeholder
      rw [← same] at inside
      exact absurd inside (by decide)
    · unfold shownText
      rw [List.flatMap_singleton, texts_eq, List.flatMap_append]

private theorem strip_length (text : String) :
    (strip text).toList.length ≤ text.toList.length := by
  unfold strip stripChars
  rw [String.toList_ofList, List.length_reverse]
  calc
    _ ≤ (text.toList.dropWhile isSpace).reverse.length := List.length_dropWhile_le ..
    _ = (text.toList.dropWhile isSpace).length := List.length_reverse
    _ ≤ text.toList.length := List.length_dropWhile_le ..

theorem textual_recorded (readFile : ReadFile) (admitted : AdmittedItem) (seen : Consumption)
    (route : Route) :
    Textual admitted.item.content (recordedMessages readFile admitted.item seen route) := by
  have byEngine : Textual admitted.item.content (((engineParts readFile
      (deliveredInput admitted.item seen.generatedId seen.createdAt)).map fun parts =>
        userMessageOf seen.event parts seen.metadata).toList) := by
    rw [engineParts_delivered]
    by_cases blank : admitted.item.content = ""
    · rw [if_pos blank]
      exact textual_nil _
    · have own : ([strip admitted.item.content].flatMap String.toList).length ≤
          admitted.item.content.toList.length := by
        rw [List.flatMap_singleton]
        exact strip_length _
      rw [if_neg blank, engineContent_eq]
      by_cases imageless : (admitted.item.attachments.filter isObject).filterMap
          (attachmentUrl readFile) = []
      · rw [if_pos imageless]
        exact textual_userMessageOf seen [_] [] own
      · rw [if_neg imageless]
        by_cases empty : strip admitted.item.content = ""
        · rw [if_pos empty]
          exact textual_userMessageOf seen [] _ (Nat.zero_le _)
        · rw [if_neg empty]
          exact textual_userMessageOf seen [_] _ own
  unfold recordedMessages inboxParts
  dsimp only
  by_cases claimed : route = .claimed
  · by_cases user : admitted.item.source = .user
    · rw [if_pos claimed, if_pos user]
      exact textual_userMessageOf seen [admitted.item.content] []
        (by rw [List.flatMap_singleton])
    · rw [if_pos claimed, if_neg user]
      exact byEngine
  · rw [if_neg claimed]
    exact byEngine

theorem textual_injected (readFile : ReadFile) (item : QueueItem) (seen : Consumption) :
    Textual item.content (requestMessages readFile item seen .steered) := by
  unfold requestMessages stepContext MessageContext.addRaw
  rw [if_pos rfl]
  dsimp only
  split
  · rw [List.drop_length]
    exact textual_nil _
  · rw [List.drop_left]
    by_cases blank : item.content = ""
    · have empty : (injectedMessage item seen).blocks = [] := if_pos blank
      rw [empty]
      exact ⟨rfl, [], Nat.zero_le _, [], List.not_mem_nil, rfl⟩
    · have shown : (injectedMessage item seen).blocks =
          [.text ⟨item.content, seen.generatedId, seen.createdAt, none⟩] := if_neg blank
      rw [shown]
      exact ⟨rfl, item.content.toList, Nat.le_refl _, [], List.not_mem_nil, by
        simp [shownText, blockTexts, Msg.plain, ContentBlock.asText?]⟩

/-! ### Attachments reach the model -/

theorem requestMessages_of_history {seen : Consumption} (queued : route ≠ .steered)
    (history : seen.earlier ++ recordedMessages readFile item seen route ≠ []) :
    requestMessages readFile item seen route = recordedMessages readFile item seen route := by
  unfold requestMessages stepContext buildMessages
  rw [if_neg queued, if_pos history, Turn.foldl_addRaw_typed, List.nil_append, List.drop_left]

private theorem recordedMessages_eq_nil_iff (readFile : ReadFile) (admitted : AdmittedItem)
    (seen : Consumption) (queued : route ≠ .steered) :
    recordedMessages readFile admitted.item seen route = [] ↔
      admitted.item.content = "" ∧
        (route = .fallback ∨ route = .claimed ∧ admitted.item.source ≠ .user) := by
  unfold recordedMessages inboxParts
  rw [engineParts_delivered]
  by_cases blank : admitted.item.content = ""
  · by_cases user : admitted.item.source = .user
    · cases route <;> simp_all
    · cases route <;> simp_all
  · by_cases user : admitted.item.source = .user
    · cases route <;> simp_all
    · cases route <;> simp_all

private theorem images_direct (blockId createdAt : String) (urls : List String) :
    ((urls.map imagePart).map (fromOpenaiPart blockId createdAt)).filterMap blockImage? =
      urls.map imageSource := by
  rw [List.map_map, List.filterMap_map]
  change urls.filterMap (some ∘ fun url => imageSource (strOr (some (.str url)) none)) = _
  rw [List.filterMap_eq_map]
  apply List.map_congr_left
  intro url _
  by_cases blank : url = ""
  · rw [blank]
    rfl
  · simp [strOr, Json.orElse, Json.truthy, Json.toStr, blank]

theorem delivered_direct {seen : Consumption} (queued : route ≠ .steered)
    (attached : imageUrls readFile item ≠ []) (silent : item.content = "")
    (text : (deliveredInput item seen.generatedId seen.createdAt).content = "")
    (alone : seen.earlier = []) (unrecorded : recordedMessages readFile item seen route = []) :
    Delivered readFile item seen.vision (requestMessages readFile item seen route) := by
  have some_attachment : item.attachments.filter isObject ≠ [] := by
    intro none
    apply attached
    unfold imageUrls
    rw [none]
    rfl
  have request : requestMessages readFile item seen route =
      [{ Msg.plain seen.generatedId .user
          (fromOpenaiContent seen.generatedId seen.createdAt
            (buildUserContent readFile (.str "") (item.attachments.filter isObject) seen.vision))
          seen.createdAt with
        metadata := .empty }] := by
    rw [← text]
    unfold requestMessages stepContext buildMessages
    rw [if_neg queued, alone, unrecorded]
    rfl
  rw [request]
  unfold Delivered
  rw [silent]
  cases seen.vision with
  | true =>
      have parts : (imageUrls readFile item).map imagePart ≠ [] :=
        fun none => attached (List.map_eq_nil_iff.mp none)
      have content : buildUserContent readFile (.str "") (item.attachments.filter isObject) true =
          .parts ((imageUrls readFile item).map imagePart) :=
        (if_neg some_attachment).trans (if_neg parts)
      rw [content]
      refine ⟨List.nil_infix, ?_⟩
      unfold images
      rw [List.flatMap_singleton]
      exact images_direct _ _ _
  | false =>
      have content : buildUserContent readFile (.str "") (item.attachments.filter isObject) false =
          .text imageOmittedNotice :=
        (if_neg some_attachment).trans (congrArg UserContent.text String.intercalate_singleton)
      rw [content]
      exact ⟨[], [], [], by
        simp [shownText, blockTexts, fromOpenaiContent, Msg.plain, ContentBlock.asText?,
          imageOmittedNotice]⟩

/-- An item's images reach the model exactly when the item leaves nothing in the
history of its turn. -/
theorem attachments_delivered_iff (readFile : ReadFile) (admitted : AdmittedItem)
    (seen : Consumption) (route : Route) (attached : admitted.item.attachments ≠ [])
    (validated : ∀ attachment ∈ admitted.item.attachments,
      (attachmentUrl readFile attachment).isSome = true) :
    Delivered readFile admitted.item seen.vision
        (requestMessages readFile admitted.item seen route) ↔
      LeavesNoHistory admitted.item seen route := by
  have shown : imageUrls readFile admitted.item ≠ [] := by
    obtain ⟨attachment, member⟩ := List.exists_mem_of_ne_nil _ attached
    obtain ⟨url, read⟩ := Option.isSome_iff_exists.mp (validated attachment member)
    have entry : isObject attachment = true := by
      unfold attachmentUrl at read
      cases attachment <;> first | rfl | cases read
    exact List.ne_nil_of_mem (List.mem_filterMap.mpr
      ⟨attachment, List.mem_filter.mpr ⟨member, entry⟩, read⟩)
  by_cases steered : route = .steered
  · subst steered
    apply iff_of_false ((textual_injected readFile admitted.item seen).not_delivered shown _)
    rintro ⟨_, _, impossible | ⟨impossible, _⟩⟩
    · cases impossible
    · cases impossible
  · have silent_iff := recordedMessages_eq_nil_iff readFile admitted seen steered
    constructor
    · intro delivered
      have bare : seen.earlier ++ recordedMessages readFile admitted.item seen route = [] := by
        by_contra history
        rw [requestMessages_of_history steered history] at delivered
        exact (textual_recorded readFile admitted seen route).not_delivered shown _ delivered
      obtain ⟨alone, unrecorded⟩ := List.append_eq_nil_iff.mp bare
      exact ⟨alone, silent_iff.mp unrecorded⟩
    · rintro ⟨alone, left⟩
      have text := (admitted.joinTexts_normalizedMessages seen.generatedId seen.createdAt).trans
        left.1
      exact delivered_direct steered shown left.1 text alone (silent_iff.mpr left)

def pictured (source content : String) : AdmittedItem :=
  .ofInbound ⟨"session-1", "request-1", "web", content,
    [.object [("type", .str "image"), ("path", .str "cat.png")]], source, "default"⟩
    (by decide : "session-1" ≠ "")

def firstSeen : Consumption :=
  ⟨[], true, ⟨0, 0, some "message-1", .sessionStatus "" ""⟩, .empty, none, "message-2", ""⟩

theorem textless_picture_delivered :
    Delivered (fun _ => some [1, 2, 3]) (pictured "plugin" "").item true
      (requestMessages (fun _ => some [1, 2, 3]) (pictured "plugin" "").item firstSeen
        .fallback) :=
  (attachments_delivered_iff (fun _ => some [1, 2, 3]) (pictured "plugin" "") firstSeen .fallback
    (List.cons_ne_nil _ _) (by decide)).mpr ⟨rfl, rfl, Or.inl rfl⟩

/-- The picture of a message with text, recorded by the inbox, is dropped. -/
theorem picture_dropped :
    ¬ Delivered (fun _ => some [1, 2, 3]) (pictured "user" "What is this?").item true
      (requestMessages (fun _ => some [1, 2, 3]) (pictured "user" "What is this?").item firstSeen
        .claimed) := by
  have queued : Route.claimed ≠ .steered := by decide
  have history : firstSeen.earlier ++ recordedMessages (fun _ => some [1, 2, 3])
      (pictured "user" "What is this?").item firstSeen .claimed ≠ [] := List.cons_ne_nil _ _
  rw [requestMessages_of_history queued history]
  exact (textual_recorded _ (pictured "user" "What is this?") firstSeen .claimed).not_delivered
    (by decide) true

end Ftre.Inbox
