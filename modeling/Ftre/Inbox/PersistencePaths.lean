import Ftre.Inbox.Models
import Ftre.Session.Multimodal
import Ftre.Session.RequestIdempotence

/-!
The two ways a user message reaches the history.
-/

namespace Ftre.Inbox

open Lib Message Session Session.Multimodal

/-! ### The two paths -/

/-- The parts `_persist_user_messages` records; only the user's items are recorded. -/
def inboxParts (item : QueueItem) : Option (List Json) :=
  if item.source = .user then some [textPart item.content] else none

structure RuntimeInput where
  sessionId : String
  requestId : String
  content : String
  attachments : List Json
  historyMessageId : Option String

/-- `_to_agent_request` and `_to_inbound`; the message of a plain item has
generated coordinates. -/
def deliveredInput (item : QueueItem) (id createdAt : String) : RuntimeInput where
  sessionId := item.sessionId
  requestId := item.requestId
  content := joinTexts (item.normalizedMessages id createdAt)
  attachments := item.attachments.filter isObject
  historyMessageId := item.historyMessageId

/-- What the engine makes of a text and its attachments. -/
def engineContent (readFile : ReadFile) (content : String) (attachments : List Json) : List Json :=
  match buildUserContent readFile (.array (normalizeStoredUserContent (.str content)))
      attachments true with
  | .text text => [textPart text]
  | .parts parts => parts

/-- The parts `_persist_inbound_user_message` computes; none is a message it
leaves to its recorded form, or nothing to record. -/
def engineParts (readFile : ReadFile) (input : RuntimeInput) : Option (List Json) :=
  if input.sessionId = "" ∨ input.content = "" then none
  else if input.historyMessageId.getD "" ≠ "" then none
  else some (engineContent readFile input.content input.attachments)

def imageUrls (readFile : ReadFile) (item : QueueItem) : List String :=
  (item.attachments.filter isObject).filterMap (attachmentUrl readFile)

@[simp] private theorem textValue_textPart (text : String) : textValue (textPart text) = strip text := by
  unfold textValue textPart strOr Json.get? Json.lookup
  by_cases blank : text = ""
  · subst blank
    rfl
  · simp [Json.lookup, Json.orElse, Json.truthy, Json.toStr, blank]

private theorem isType_textPart (text : String) : isType (textPart text) "text" = true := by
  simp [isType, textPart, Json.get?, Json.lookup]

private theorem normalizeStored_text (content : String) :
    normalizeStoredUserContent (.str content) =
      if strip content = "" then [] else [textPart (strip content)] := by
  change ((nonempty (strip content)).map textPart).toList = _
  unfold nonempty
  split <;> rfl

private theorem contentToText_stored (content : String) :
    contentToText (.array (normalizeStoredUserContent (.str content))) = strip content := by
  rw [normalizeStored_text]
  by_cases blank : strip content = ""
  · rw [if_pos blank, blank]
    rfl
  · rw [if_neg blank]
    simp only [contentToText, List.filterMap_cons, List.filterMap_nil, isType_textPart, if_true,
      textValue_textPart, strip_strip, nonempty, if_neg blank]
    exact String.intercalate_singleton

private theorem normalizeUserContent_stored (readFile : ReadFile) (content : String) :
    Multimodal.normalizeUserContent readFile true (.array (normalizeStoredUserContent (.str content))) =
      .text (strip content) := by
  rw [normalizeStored_text]
  by_cases blank : strip content = ""
  · rw [if_pos blank, blank]
    rfl
  · have converted : userPart readFile true (textPart (strip content)) =
        ⟨some (textPart (strip content)), some (strip content), false⟩ := by
      unfold userPart ProviderPart.ofText
      rw [if_pos (isType_textPart _), textValue_textPart, strip_strip, if_neg blank]
    have read : strOr ((textPart (strip content)).get? "text") none = strip content := by
      simp [textPart, strOr, Json.get?, Json.lookup, Json.orElse, Json.truthy, Json.toStr, blank]
    rw [if_neg blank]
    simp only [Multimodal.normalizeUserContent, List.map_cons, List.map_nil, converted, List.filterMap_cons,
      List.filterMap_nil, List.all_cons, List.all_nil, isType_textPart, read, Bool.and_self,
      not_true_eq_false, if_false, if_true]
    rw [String.intercalate_singleton]

theorem engineContent_eq (readFile : ReadFile) (content : String) (attachments : List Json) :
    engineContent readFile content attachments =
      if attachments.filterMap (attachmentUrl readFile) = [] then [textPart (strip content)]
      else
        (if strip content = "" then [] else [textPart (strip content)]) ++
          (attachments.filterMap (attachmentUrl readFile)).map imagePart := by
  unfold engineContent buildUserContent
  rw [contentToText_stored, normalizeUserContent_stored]
  by_cases bare : attachments = []
  · subst bare
    simp
  rw [if_neg bare]
  dsimp only
  rw [if_neg (by simp)]
  by_cases blank : strip content = ""
  · rw [blank]
    by_cases imageless : attachments.filterMap (attachmentUrl readFile) = []
    · simp [imageless, nonempty]
    · simp [imageless, nonempty]
  · by_cases imageless : attachments.filterMap (attachmentUrl readFile) = []
    · simp [imageless, nonempty, blank]
    · simp [imageless, nonempty, blank]

/-! ### Agreement -/

/-- Both paths record the item, if both record it, with one fingerprint and one message. -/
def PathsAgree (readFile : ReadFile) (item : QueueItem) (id createdAt : String) : Prop :=
  ∀ recorded computed, inboxParts item = some recorded →
    engineParts readFile (deliveredInput item id createdAt) = some computed →
    requestFingerprint recorded = requestFingerprint computed ∧
      ∀ event metadata, userMessageOf event recorded metadata = userMessageOf event computed metadata

/-- The item is not the user's, or has no text, or has trimmed text and no
image attachment that can be read. -/
def Unconverted (readFile : ReadFile) (item : QueueItem) : Prop :=
  item.source ≠ .user ∨ item.content = "" ∨
    (strip item.content = item.content ∧ imageUrls readFile item = [])

instance (readFile : ReadFile) (item : QueueItem) : Decidable (Unconverted readFile item) := by
  unfold Unconverted
  infer_instance

def blockTexts (message : Msg) : List String :=
  message.content.filterMap fun block => block.asText?.map TextBlock.text

theorem userBlock_textPart (messageId timeIso text : String) (index : Nat) :
    (userBlock messageId timeIso index (textPart text)).asText?.map TextBlock.text = some text := by
  have type : strOr ((textPart text).get? "type") (some (.str "text")) = "text" := rfl
  have read : strOr ((textPart text).get? "text") ((textPart text).get? "data") = text := by
    by_cases blank : text = ""
    · subst blank
      rfl
    · simp [textPart, strOr, Json.get?, Json.lookup, Json.orElse, Json.truthy, Json.toStr, blank]
  unfold userBlock
  change (ContentBlock.asText? (if strOr ((textPart text).get? "type") (some (.str "text")) = "text"
    then _ else _)).map TextBlock.text = some text
  rw [if_pos type]
  exact congrArg some read

theorem userBlock_imagePart (messageId timeIso url : String) (index : Nat) :
    (userBlock messageId timeIso index (imagePart url)).asText?.map TextBlock.text =
      some "[image_url]" :=
  rfl

theorem filterMap_mapIdx {α β γ : Type} (read : β → Option γ) (plain : α → Option γ)
    (list : List α) (convert : Nat → α → β)
    (same : ∀ index, ∀ value ∈ list, read (convert index value) = plain value) :
    (list.mapIdx convert).filterMap read = list.filterMap plain := by
  induction list generalizing convert with
  | nil => rfl
  | cons head rest ih =>
      rw [List.mapIdx_cons, List.filterMap_cons, List.filterMap_cons,
        same 0 head List.mem_cons_self]
      rw [ih (fun index => convert (index + 1)) fun index value member =>
        same (index + 1) value (List.mem_cons_of_mem _ member)]

private theorem blockTexts_text (event : Event) (metadata : KeyedTable String Json) (text : String) :
    blockTexts (userMessageOf event [textPart text] metadata) = [text] := by
  change ([textPart text].mapIdx _).filterMap _ = _
  rw [filterMap_mapIdx _ (fun _ => some text)]
  · rfl
  · intro index part member
    cases List.mem_singleton.mp member
    exact userBlock_textPart ..

private theorem blockTexts_images (event : Event) (metadata : KeyedTable String Json)
    (urls : List String) :
    blockTexts (userMessageOf event (urls.map imagePart) metadata) =
      urls.map fun _ => "[image_url]" := by
  change ((urls.map imagePart).mapIdx _).filterMap _ = _
  rw [filterMap_mapIdx _ (fun _ => some "[image_url]")]
  · simp
  · intro index part member
    obtain ⟨url, _, same⟩ := List.mem_map.mp member
    subst same
    exact userBlock_imagePart ..

private theorem content_length (event : Event) (parts : List Json)
    (metadata : KeyedTable String Json) :
    (userMessageOf event parts metadata).content.length = parts.length :=
  List.length_mapIdx

private theorem engineContent_unconverted {readFile : ReadFile} {content : String}
    {attachments : List Json} (trimmed : strip content = content)
    (imageless : attachments.filterMap (attachmentUrl readFile) = []) :
    engineContent readFile content attachments = [textPart content] := by
  rw [engineContent_eq, if_pos imageless, trimmed]

private theorem unconverted_of_same {readFile : ReadFile} {content : String}
    {attachments : List Json}
    (same : ∀ event metadata, userMessageOf event [textPart content] metadata =
      userMessageOf event (engineContent readFile content attachments) metadata) :
    strip content = content ∧ attachments.filterMap (attachmentUrl readFile) = [] := by
  have message := same ⟨0, 0, none, .sessionStatus "" ""⟩ .empty
  rw [engineContent_eq] at message
  cases urls : attachments.filterMap (attachmentUrl readFile) with
  | nil =>
      rw [urls, if_pos rfl] at message
      have texts := congrArg blockTexts message
      rw [blockTexts_text, blockTexts_text] at texts
      exact ⟨(List.cons.inj texts).1.symm, rfl⟩
  | cons url rest =>
      rw [urls, if_neg (List.cons_ne_nil _ _)] at message
      by_cases blank : strip content = ""
      · rw [if_pos blank, List.nil_append] at message
        have texts := congrArg blockTexts message
        rw [blockTexts_text, blockTexts_images] at texts
        have marker : content = "[image_url]" := (List.cons.inj texts).1
        rw [marker] at blank
        exact absurd blank (by decide)
      · rw [if_neg blank] at message
        have lengths := congrArg (fun message => message.content.length) message
        simp only [content_length, List.length_append, List.length_map, List.length_cons,
          List.length_nil] at lengths
        omega

theorem engineParts_delivered (readFile : ReadFile) (admitted : AdmittedItem)
    (id createdAt : String) :
    engineParts readFile (deliveredInput admitted.item id createdAt) =
      if admitted.item.content = "" then none
      else some (engineContent readFile admitted.item.content
        (admitted.item.attachments.filter isObject)) := by
  have text : (deliveredInput admitted.item id createdAt).content = admitted.item.content :=
    admitted.joinTexts_normalizedMessages id createdAt
  have unclaimed : (deliveredInput admitted.item id createdAt).historyMessageId = none :=
    admitted.unclaimed
  unfold engineParts
  rw [text, unclaimed]
  by_cases blank : admitted.item.content = ""
  · rw [if_pos (Or.inr blank), if_pos blank]
  · have named : ¬ (deliveredInput admitted.item id createdAt).sessionId = "" := admitted.stored
    rw [if_neg (by simp [named, blank]), if_neg blank]
    rfl

private theorem pathsAgree_iff (readFile : ReadFile) (admitted : AdmittedItem)
    (id createdAt : String) :
    PathsAgree readFile admitted.item id createdAt ↔ Unconverted readFile admitted.item := by
  unfold PathsAgree Unconverted imageUrls
  rw [engineParts_delivered]
  constructor
  · intro agree
    by_cases user : admitted.item.source = .user
    · by_cases blank : admitted.item.content = ""
      · exact Or.inr (Or.inl blank)
      · have recorded : inboxParts admitted.item = some [textPart admitted.item.content] :=
          if_pos user
        have both := agree _ _ recorded (if_neg blank)
        exact Or.inr (Or.inr (unconverted_of_same both.2))
    · exact Or.inl user
  · rintro (other | blank | ⟨trimmed, imageless⟩) recorded computed byInbox byEngine
    · rw [inboxParts, if_neg other] at byInbox
      cases byInbox
    · rw [if_pos blank] at byEngine
      cases byEngine
    · unfold inboxParts at byInbox
      split at byInbox
      · cases byInbox
        split at byEngine
        · cases byEngine
        · cases byEngine
          rw [engineContent_unconverted trimmed imageless]
          exact ⟨rfl, fun _ _ => rfl⟩
      · cases byInbox

/-- Once a call appended `first` for the request, a call with `second` skips. -/
def SkipsDuplicate (requestId : String) (first second : List Json) : Prop :=
  ∀ (state next : ServiceState) (time : Int) (generated : String)
    (metadata : KeyedTable String Json) (event : Event),
    state.appendUserMessageIfAbsent time generated requestId first metadata =
        (.appended event, next) →
      ∀ (laterTime : Int) (laterGenerated : String) (laterMetadata : KeyedTable String Json),
        next.appendUserMessageIfAbsent laterTime laterGenerated requestId second laterMetadata =
          (.skipped, next)

private theorem skipsDuplicate_of_fingerprint {requestId : String} (named : requestId ≠ "")
    {first second : List Json} (same : requestFingerprint second = requestFingerprint first) :
    SkipsDuplicate requestId first second := by
  intro state next time generated metadata event appended laterTime laterGenerated laterMetadata
  have bound := ServiceState.bound_of_appended named appended
  rw [bound.appendUser named (requestFingerprint_ne_empty first), if_pos same]

/-- The paths agree exactly on unconverted items, and an item they agree on may
be recorded by either path and redelivered through the other. -/
theorem persistence_paths_agree_iff (readFile : ReadFile) (admitted : AdmittedItem)
    (id createdAt : String) :
    (PathsAgree readFile admitted.item id createdAt ↔ Unconverted readFile admitted.item) ∧
      (Unconverted readFile admitted.item → admitted.item.requestId ≠ "" →
        ∀ recorded computed, inboxParts admitted.item = some recorded →
          engineParts readFile (deliveredInput admitted.item id createdAt) = some computed →
            SkipsDuplicate admitted.item.requestId recorded computed ∧
              SkipsDuplicate admitted.item.requestId computed recorded) := by
  refine ⟨pathsAgree_iff readFile admitted id createdAt, ?_⟩
  intro unconverted named recorded computed byInbox byEngine
  have agree := (pathsAgree_iff readFile admitted id createdAt).mpr unconverted
  obtain ⟨same, _⟩ := agree recorded computed byInbox byEngine
  exact ⟨skipsDuplicate_of_fingerprint named same.symm, skipsDuplicate_of_fingerprint named same⟩

def spacedItem : AdmittedItem :=
  .ofInbound ⟨"session-1", "request-1", "web", "hello ", [], "user", "default"⟩ (by decide)

/-- Recorded by the inbox and redelivered through the engine, it conflicts. -/
theorem trailing_space_conflicts :
    ¬ PathsAgree (fun _ => none) spacedItem.item "message-1" "" ∧
      (((ServiceState.created "session-1").appendUserMessageIfAbsent 1000 "" "request-1"
          ((inboxParts spacedItem.item).getD []) .empty).2.appendUserMessageIfAbsent
        2000 "" "request-1"
        ((engineParts (fun _ => none) (deliveredInput spacedItem.item "message-1" "")).getD [])
        .empty).1 = .conflict := by
  refine ⟨?_, by decide⟩
  rw [pathsAgree_iff]
  decide

end Ftre.Inbox
