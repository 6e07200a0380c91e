import Ftre.Inbox.Storage
import Ftre.Messaging.Attachments
import Ftre.Messaging.InboundRoute
import Mathlib.Logic.Function.Basic

/-!
Attachments in the queues of the sessions. A prompt brings images that were checked and saved;
an edit of a queued item brings attachments nobody checks.
-/

namespace Ftre.Messaging

open Lib Session Inbox

/-- The root of the attachments, and the capacity of an inbox. -/
structure Deployment where
  root : String
  capacity : Nat

structure QueueHost where
  files : List (List Char)
  /-- What `save_image` was called for, with the file it returned. -/
  saved : List SavedImage
  inboxes : String → SessionInbox

def QueueHost.opened (files : List (List Char)) : QueueHost :=
  ⟨files, [], SessionInbox.start⟩

def QueueHost.update (host : QueueHost) (sessionId : String) (inbox : SessionInbox) : QueueHost :=
  { host with inboxes := Function.update host.inboxes sessionId inbox }

structure Surroundings where
  writes : List Char → Bool
  generated : Nat → GeneratedName
  reachesInbox : Bool
  sessionExists : Bool
  requestSeen : Bool
  agentId : String

/-- `data.get(key) or {}`. -/
def fieldOr (fields : List (String × Json)) (key : String) (fallback : Json) : Json :=
  (Json.orElse (Json.lookup key fields) none).getD fallback

def promptTarget (payload : List (String × Json)) : Option QueueTarget :=
  let mode := fieldOr payload "mode" (.str "queue")
  if mode = .str "queue" then some .nextTurn
  else if mode = .str "steer" then some .nextStep
  else none

def isContent : Option Json → Bool
  | none => true
  | some (.str _) => true
  | some (.array parts) => parts.all isObject
  | some _ => false

/-- `InboundData`: what it takes of the session and the text; none is a validation error. -/
def inboundData (payload : List (String × Json)) : Option (String × String) :=
  match Json.lookup "session_id" payload with
  | some (.str sessionId) =>
      if isContent (Json.lookup "content" payload) &&
          decide (Json.lookup "attachments" payload ≠ some .null) then
        some (sessionId, contentText (Json.lookup "content" payload))
      else none
  | _ => none

/-- `_item_from_message`, with the agent of the session. -/
def promptItem (sessionId requestId content : String) (attachments : List Json)
    (agentId : String) (stored : sessionId ≠ "") : Submission where
  item := ((AdmittedItem.ofInbound
    ⟨sessionId, requestId, "ws", content, attachments, "user", agentId⟩ stored).resolved agentId).item
  unnumbered := le_rfl

def QueueHost.admitPrompt (host : QueueHost) (deployment : Deployment) (surroundings : Surroundings)
    (payload : List (String × Json)) (requestId : String) (target : QueueTarget)
    (saved : List SavedImage) : QueueHost :=
  match inboundData payload with
  | none => host
  | some (sessionId, content) =>
      if stored : sessionId ≠ "" then
        if surroundings.reachesInbox && legalSession sessionId then
          let submission := promptItem sessionId requestId content
            (saved.map (SavedImage.stored deployment.root)) surroundings.agentId stored
          host.update sessionId ((host.inboxes sessionId).admitItem deployment.capacity submission
            target surroundings.sessionExists surroundings.requestSeen).2
        else host
      else host

/-- `_on_prompt`. -/
def QueueHost.prompt (host : QueueHost) (deployment : Deployment) (surroundings : Surroundings)
    (frame payload : List (String × Json)) : QueueHost :=
  match promptTarget payload, fieldOr frame "request_id" (.str "") with
  | some target, .str requestId =>
      if requestId = "" || !((Json.lookup "session_id" payload).getD (.str "")).truthy then host
      else
        match validateAttachments (Json.lookup "attachments" payload) with
        | .error _ => host
        | .ok images =>
            let named := images.mapIdx fun index image => (image, surroundings.generated index)
            let persisted := persistAttachments surroundings.writes named host.files
            let kept : QueueHost :=
              { host with
                files := persisted.files
                saved := persisted.saved ++ host.saved }
            if persisted.raised then kept
            else kept.admitPrompt deployment surroundings payload requestId target persisted.saved
  | _, _ => host

/-! ### `session.updateQueue` -/

def dictKey : Json → Option String
  | .array _ => none
  | .object _ => none
  | .str key => some key
  | key => some key.dumps

/-- A pair of `dict(pairs)`: two items, two characters, or two keys. -/
def dictPair : Json → Option (String × Json)
  | .array [key, value] => (dictKey key).map fun name => (name, value)
  | .str text =>
      match text.toList with
      | [key, value] => some (String.singleton key, .str (String.singleton value))
      | _ => none
  | .object [(key, _), (value, _)] => some (key, .str value)
  | _ => none

/-- `dict(value)`; none is the error it raises. -/
def asDict : Json → Option Json
  | .object fields => some (.object fields)
  | .array entries => (entries.mapM dictPair).map fun pairs =>
      .object (pairs.foldl (fun fields pair => KeyedList.putItem Prod.fst pair fields) [])
  | .str text => if text = "" then some (.object []) else none
  | _ => none

/-- `tuple(dict(item) for item in (attachments or ()))`. -/
def asDicts (attachments : Option Json) : Option (List Json) :=
  match Json.orElse attachments none with
  | none => some []
  | some (.array items) => items.mapM asDict
  | some (.object fields) => fields.mapM fun field => asDict (.str field.1)
  | some _ => none

inductive QueueAction where
  | edit (content : String) (attachments : List Json)
  | remove
  | promote

def isLocked (inbox : SessionInbox) (itemId : String) : Bool :=
  inbox.queues.nextStep.any fun item =>
    decide (item.source = .user) && decide (item.requestId = itemId)

/-- What `handle_control` does to an item; none is an error it replies. -/
def queueAction (inbox : SessionInbox) (itemId : String) (action : List (String × Json)) :
    Option QueueAction :=
  let kind := Json.lookup "kind" action
  if kind = some (.str "edit") then
    if isLocked inbox itemId then none
    else (asDicts (Json.lookup "attachments" action)).map
      (.edit (contentText (Json.lookup "content" action)))
  else if kind = some (.str "remove") then
    if isLocked inbox itemId then none else some .remove
  else if kind = some (.str "steer") then
    if inbox.queues.nextTurn.any fun item => decide (item.requestId = itemId) then some .promote
    else none
  else none

structure Control where
  sessionId : String
  itemId : String
  action : QueueAction

/-- `_on_control` and `handle_control`. -/
def QueueHost.control? (host : QueueHost) (frame payload : List (String × Json)) :
    Option Control :=
  let sessionId := strOr (Json.lookup "session_id" payload) none
  let itemId := strOr (Json.lookup "item_id" payload) none
  match fieldOr payload "action" (.object []) with
  | .object action =>
      if sessionId = "" || strOr (Json.lookup "request_id" frame) none = "" || itemId = "" ||
          !legalSession sessionId then
        none
      else (queueAction (host.inboxes sessionId) itemId action).map (⟨sessionId, itemId, ·⟩)
  | _ => none

def QueueAction.perform (inbox : SessionInbox) (itemId : String) : QueueAction → SessionInbox
  | .edit content attachments => (inbox.edit itemId content attachments).2
  | .remove => (inbox.remove itemId).2
  | .promote => (inbox.promote itemId).2

def QueueHost.control (host : QueueHost) (control : Control) : QueueHost :=
  host.update control.sessionId
    (control.action.perform (host.inboxes control.sessionId) control.itemId)

/-- A frame that changes the queues. -/
inductive QueueFrame where
  | prompt (frame payload : List (String × Json))
  | control (control : Control)

/-- `_on_message`. A cancel names its request in a field the inbox does not read, so it reaches
the agent only. -/
def QueueHost.queueFrame? (host : QueueHost) : Json → Option QueueFrame
  | .object frame =>
      let type := Json.lookup "type" frame
      match fieldOr frame "payload" (.object []) with
      | .object payload =>
          if type = some (.str "session.updateQueue") then
            (host.control? frame payload).map .control
          else if type = some (.str "session.prompt") then some (.prompt frame payload)
          else none
      | _ => none
  | _ => none

inductive HostStep where
  | frame (frame : Json) (surroundings : Surroundings)
  | claim (sessionId : String) (requestIds : List String)

def QueueHost.step (deployment : Deployment) (host : QueueHost) : HostStep → QueueHost
  | .frame frame surroundings =>
      match host.queueFrame? frame with
      | none => host
      | some (.prompt frame payload) => host.prompt deployment surroundings frame payload
      | some (.control control) => host.control control
  | .claim sessionId requestIds =>
      host.update sessionId ((host.inboxes sessionId).claim requestIds).2

def queueSystem (deployment : Deployment) : StepSystem QueueHost HostStep where
  step host action := some (host.step deployment action)

/-! ### Confinement -/

def Confined (root : String) (saved : List SavedImage) (attachments : List Json) : Prop :=
  attachments.length ≤ maxAttachmentsPerMessage ∧
    ∀ attachment ∈ attachments, ∃ image ∈ saved, attachment = image.stored root

def AgreeInside (root : String) (first second : Multimodal.ReadFile) : Prop :=
  ∀ file : RootFile, first (.str (file.path root)) = second (.str (file.path root))

structure Confinement (root : String) (host : QueueHost) : Prop where
  queued : ∀ sessionId, ∀ item ∈ (host.inboxes sessionId).pending,
    Confined root host.saved item.attachments
  inside : ∀ sessionId, ∀ item ∈ (host.inboxes sessionId).pending,
    ∀ first second, AgreeInside root first second → ∀ content,
      engineContent first content item.attachments = engineContent second content item.attachments

/-- An edit that reaches an item gives it attachments that were saved. -/
def EditsSaved (root : String) (host : QueueHost) : HostStep → Prop
  | .frame frame _ =>
      ∀ sessionId itemId content attachments,
        host.queueFrame? frame = some (.control ⟨sessionId, itemId, .edit content attachments⟩) →
          ((host.inboxes sessionId).find itemId).isSome = true →
            Confined root host.saved attachments
  | .claim .. => True

theorem lookup_putItem (key : String) (value : Json) (fields : List (String × Json)) :
    Json.lookup key (KeyedList.putItem Prod.fst (key, value) fields) = some value := by
  induction fields with
  | nil => exact if_pos rfl
  | cons head rest ih =>
      unfold KeyedList.putItem
      by_cases same : head.1 = key
      · rw [if_pos same]
        exact if_pos rfl
      · rw [if_neg same]
        exact (if_neg same).trans ih

theorem stored_path (root : String) (saved : SavedImage) :
    (saved.stored root).get? "path" = some (.str (saved.file.path root)) := by
  obtain ⟨index, accepted⟩ := saved.image.accepted
  unfold SavedImage.stored
  cases attachment : saved.image.attachment with
  | object fields => exact lookup_putItem "path" _ _
  | _ =>
      rw [attachment] at accepted
      cases accepted

variable {root : String} {host : QueueHost} {deployment : Deployment}

variable {first second : Multimodal.ReadFile} {item : QueueItem} {surroundings : Surroundings}

theorem attachmentUrl_stored (agree : AgreeInside root first second) (saved : SavedImage) :
    Multimodal.attachmentUrl first (saved.stored root) =
      Multimodal.attachmentUrl second (saved.stored root) := by
  unfold Multimodal.attachmentUrl Multimodal.loadAsDataUrl
  rw [stored_path]
  dsimp only [Option.getD_some]
  rw [agree saved.file]

theorem Confined.inside {saved : List SavedImage} {attachments : List Json}
    (confined : Confined root saved attachments) (agree : AgreeInside root first second)
    (content : String) :
    engineContent first content attachments = engineContent second content attachments := by
  have urls : attachments.filterMap (Multimodal.attachmentUrl first) =
      attachments.filterMap (Multimodal.attachmentUrl second) := by
    apply List.filterMap_congr
    intro attachment member
    obtain ⟨image, _, same⟩ := confined.2 attachment member
    rw [same, attachmentUrl_stored agree image]
  rw [engineContent_eq, engineContent_eq, urls]

theorem Confined.more {saved more : List SavedImage} {attachments : List Json}
    (confined : Confined root saved attachments) (kept : ∀ image ∈ saved, image ∈ more) :
    Confined root more attachments := by
  refine ⟨confined.1, ?_⟩
  intro attachment member
  obtain ⟨image, present, same⟩ := confined.2 attachment member
  exact ⟨image, kept image present, same⟩

theorem confinement_of_queued {root : String} {host : QueueHost}
    (queued : ∀ sessionId, ∀ item ∈ (host.inboxes sessionId).pending,
      Confined root host.saved item.attachments) : Confinement root host where
  queued := queued
  inside := fun sessionId item member _ _ agree content =>
    (queued sessionId item member).inside agree content

theorem attachments_admitItem (inbox : SessionInbox) (capacity : Nat) (submission : Submission)
    (target : QueueTarget) (sessionExists requestSeen : Bool) {item : QueueItem}
    (member : item ∈
      (inbox.admitItem capacity submission target sessionExists requestSeen).2.pending) :
    item ∈ inbox.pending ∨ item.attachments = submission.item.attachments := by
  rcases inbox.admit_cases capacity submission target sessionExists requestSeen with
    ⟨_, same⟩ | ⟨_, _, taken⟩
  · rw [same] at member
    exact Or.inl member
  · exact (taken item member).imp_right fun ⟨sequence, same⟩ => by rw [same]

theorem attachments_promote (inbox : SessionInbox) (requestId : String)
    (member : item ∈ (inbox.promote requestId).2.pending) :
    ∃ original ∈ inbox.pending, original.attachments = item.attachments := by
  unfold SessionInbox.promote at member
  split at member
  · exact ⟨item, member, rfl⟩
  · rename_i original found
    split at member
    · exact ⟨item, member, rfl⟩
    · rcases MutableInbox.mem_pending_promote.mp member with kept | promoted
      · exact ⟨item, (MutableInbox.mem_pending_without.mp kept).1, rfl⟩
      · rw [promoted]
        exact ⟨original, (MutableInbox.find_mem found).1, rfl⟩

theorem mem_claim (inbox : SessionInbox) (requestIds : List String)
    (member : item ∈ (inbox.claim requestIds).2.pending) : item ∈ inbox.pending := by
  rcases inbox.claim_cases requestIds with unchanged | ⟨_, _, left⟩
  · rw [unchanged] at member
    exact member
  · exact ((left item).mp member).1

theorem mem_remove (inbox : SessionInbox) (requestId : String)
    (member : item ∈ (inbox.remove requestId).2.pending) : item ∈ inbox.pending := by
  rcases inbox.remove_cases requestId with ⟨_, unchanged⟩ | ⟨_, _, _, left⟩
  · rw [unchanged] at member
    exact member
  · exact ((left item).mp member).1

/-! ### One step -/

theorem queued_update {root : String} {host : QueueHost}
    (queued : ∀ sessionId, ∀ item ∈ (host.inboxes sessionId).pending,
      Confined root host.saved item.attachments) (sessionId : String) {inbox : SessionInbox}
    (each : ∀ item ∈ inbox.pending, Confined root host.saved item.attachments) :
    Confinement root (host.update sessionId inbox) := by
  apply confinement_of_queued
  intro other item member
  change item ∈ (Function.update host.inboxes sessionId inbox other).pending at member
  by_cases same : other = sessionId
  · rw [same, Function.update_self] at member
    exact each item member
  · rw [Function.update_of_ne same] at member
    exact queued other item member

theorem confinement_admitPrompt (confinement : Confinement deployment.root host)
    (payload : List (String × Json)) (requestId : String) (target : QueueTarget)
    {saved : List SavedImage} (few : saved.length ≤ maxAttachmentsPerMessage)
    (known : ∀ image ∈ saved, image ∈ host.saved) :
    Confinement deployment.root
      (host.admitPrompt deployment surroundings payload requestId target saved) := by
  unfold QueueHost.admitPrompt
  split
  · exact confinement
  · split
    · split
      · apply queued_update confinement.queued
        intro item member
        rcases attachments_admitItem _ _ _ _ _ _ member with old | new
        · exact confinement.queued _ item old
        · rw [new]
          refine ⟨?_, ?_⟩
          · change (saved.map _).length ≤ _
            rw [List.length_map]
            exact few
          · intro attachment listed
            obtain ⟨image, present, same⟩ := List.mem_map.mp listed
            exact ⟨image, known image present, same.symm⟩
      · exact confinement
    · exact confinement

theorem confinement_prompt (confinement : Confinement deployment.root host)
    (frame payload : List (String × Json)) :
    Confinement deployment.root (host.prompt deployment surroundings frame payload) := by
  unfold QueueHost.prompt
  split
  · split
    · exact confinement
    · split
      · exact confinement
      · rename_i images accepted
        dsimp only
        generalize naming :
          (images.mapIdx fun index image => (image, surroundings.generated index)) = named
        have grown : Confinement deployment.root
            { host with
              files := (persistAttachments surroundings.writes named host.files).files
              saved := (persistAttachments surroundings.writes named host.files).saved ++
                host.saved } := by
          apply confinement_of_queued
          intro sessionId item member
          apply (confinement.queued sessionId item member).more
          exact fun image present => List.mem_append_right _ present
        split
        · exact grown
        · rename_i through
          apply confinement_admitPrompt grown
          · have same := congrArg List.length
              (persistAttachments_images surroundings.writes (Bool.eq_false_of_not_eq_true through))
            rw [List.length_map, List.length_map, ← naming, List.length_mapIdx] at same
            rw [← naming, same]
            exact validateAttachments_length accepted
          · exact fun image present => List.mem_append_left _ present
  · exact confinement

theorem confinement_control (confinement : Confinement root host) (control : Control) :
    Confinement root (host.control control) ↔
      ∀ content attachments, control.action = .edit content attachments →
        ((host.inboxes control.sessionId).find control.itemId).isSome = true →
          Confined root host.saved attachments := by
  obtain ⟨sessionId, itemId, action⟩ := control
  cases action with
  | remove =>
      refine ⟨fun _ => nofun, fun _ => ?_⟩
      exact queued_update confinement.queued sessionId fun item member =>
        confinement.queued sessionId item (mem_remove _ _ member)
  | promote =>
      refine ⟨fun _ => nofun, fun _ => ?_⟩
      apply queued_update confinement.queued sessionId
      intro item member
      obtain ⟨original, present, same⟩ := attachments_promote _ _ member
      rw [← same]
      exact confinement.queued sessionId original present
  | edit content attachments =>
      constructor
      · intro after _ _ same found
        cases same
        change ((host.inboxes sessionId).find itemId).isSome = true at found
        rcases (host.inboxes sessionId).edit_cases itemId content attachments with
          ⟨absent, _⟩ | ⟨item, _, edited, _⟩
        · rw [absent] at found
          cases found
        · refine after.queued sessionId (item.edited content attachments) ?_
          change _ ∈ (Function.update host.inboxes sessionId _ sessionId).pending
          rw [Function.update_self]
          exact edited
      · intro saved
        apply queued_update confinement.queued sessionId
        intro item member
        change item ∈ ((host.inboxes sessionId).edit itemId content attachments).2.pending at member
        rcases (host.inboxes sessionId).edit_cases itemId content attachments with
          ⟨_, unchanged⟩ | ⟨original, found, _, others⟩
        · rw [unchanged] at member
          exact confinement.queued sessionId item member
        · rcases others item member with same | ⟨old, _⟩
          · rw [same]
            exact saved content attachments rfl (Option.isSome_iff_exists.mpr ⟨original, found⟩)
          · exact confinement.queued sessionId item old

theorem confinement_step (confinement : Confinement deployment.root host) (action : HostStep) :
    Confinement deployment.root (host.step deployment action) ↔
      EditsSaved deployment.root host action := by
  cases action with
  | claim sessionId requestIds =>
      refine ⟨fun _ => trivial, fun _ => ?_⟩
      exact queued_update confinement.queued sessionId fun item member =>
        confinement.queued sessionId item (mem_claim _ _ member)
  | frame frame surroundings =>
      unfold QueueHost.step EditsSaved
      dsimp only
      cases host.queueFrame? frame with
      | none => exact ⟨fun _ => nofun, fun _ => confinement⟩
      | some changed =>
          cases changed with
          | prompt fields payload =>
              exact ⟨fun _ => nofun, fun _ => confinement_prompt confinement fields payload⟩
          | control control =>
              refine (confinement_control confinement control).trans ?_
              obtain ⟨sessionId, itemId, action⟩ := control
              constructor
              · intro saved other item content attachments same found
                cases same
                exact saved content attachments rfl found
              · intro saved content attachments same found
                change action = _ at same
                subst same
                exact saved sessionId itemId content attachments rfl found

/-- A run keeps the attachments confined exactly if its edits do. -/
theorem attachments_confined_iff (deployment : Deployment) (files : List (List Char))
    (steps : List HostStep) :
    (queueSystem deployment).Always (Confinement deployment.root) (.opened files) steps ↔
      (queueSystem deployment).EachStep (EditsSaved deployment.root) (.opened files) steps := by
  apply StepSystem.always_iff_eachStep
  · intro before action after confinement stepped
    cases stepped
    exact confinement_step confinement action
  · apply confinement_of_queued
    exact fun _ _ present => absurd present List.not_mem_nil

def quietSurroundings : Surroundings :=
  ⟨fun _ => true, fun _ => ⟨['a'], by decide⟩, true, true, false, "default"⟩

def helloFrame : Json :=
  .object [("type", .str "session.prompt"), ("request_id", .str "r1"),
    ("payload", .object [("session_id", .str "s1"), ("content", .str "hi")])]

def passwdAttachment : Json :=
  .object [("type", .str "image"), ("mime_type", .str "image/png"), ("path", .str "/etc/passwd")]

def passwdEdit : Json :=
  .object [("type", .str "session.updateQueue"), ("request_id", .str "r2"),
    ("payload", .object [("session_id", .str "s1"), ("item_id", .str "r1"),
      ("action", .object [("kind", .str "edit"), ("content", .str "hi"),
        ("attachments", .array [passwdAttachment])])])]

/-- A queued prompt is edited to name a file outside the root, and the file is read. -/
theorem edit_escapes_root :
    ¬ (queueSystem ⟨"/images", 100⟩).Always (Confinement "/images") (.opened [])
        [.frame helloFrame quietSurroundings, .frame passwdEdit quietSurroundings] ∧
      engineContent (fun path => if path = .str "/etc/passwd" then some [114] else none) "hi"
        [passwdAttachment] = [Multimodal.textPart "hi",
          Multimodal.imagePart "data:image/png;base64,cg=="] := by
  constructor
  · intro always
    have final := (always.2 _ rfl).2 _ rfl
    have listed : ∃ item ∈ (((QueueHost.opened []).step ⟨"/images", 100⟩
        (.frame helloFrame quietSurroundings)).step ⟨"/images", 100⟩
        (.frame passwdEdit quietSurroundings)).inboxes "s1" |>.pending,
        item.attachments = [passwdAttachment] := ⟨_, List.mem_cons_self, rfl⟩
    obtain ⟨item, member, same⟩ := listed
    have confined := final.queued "s1" item member
    rw [same] at confined
    obtain ⟨image, saved, _⟩ := confined.2 _ List.mem_cons_self
    exact absurd saved List.not_mem_nil
  · decide

end Ftre.Messaging
