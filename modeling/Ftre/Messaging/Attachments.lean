import Ftre.Inbox.PersistencePaths

/-!
Image attachments of a prompt: their check, and their files.
-/

namespace Ftre.Messaging

open Lib Session

def allowedImageMime : List String := ["image/png", "image/jpeg", "image/webp", "image/gif"]

def maxAttachmentBytes : Nat := 3 * 1024 * 1024

def maxAttachmentsPerMessage : Nat := 8

def base64Value (character : Char) : Option Nat :=
  let code := character.toNat
  if 65 ≤ code ∧ code ≤ 90 then some (code - 65)
  else if 97 ≤ code ∧ code ≤ 122 then some (code - 71)
  else if 48 ≤ code ∧ code ≤ 57 then some (code + 4)
  else if character = '+' then some 62
  else if character = '/' then some 63
  else none

def b64decode : List Char → Option (List UInt8)
  | [] => some []
  | [a, b, '=', '='] =>
      (base64Value a).bind fun first => (base64Value b).map fun second =>
        [UInt8.ofNat (first * 4 + second / 16)]
  | [a, b, c, '='] =>
      (base64Value a).bind fun first => (base64Value b).bind fun second =>
        (base64Value c).map fun third =>
          [UInt8.ofNat (first * 4 + second / 16), UInt8.ofNat (second % 16 * 16 + third / 4)]
  | a :: b :: c :: d :: rest =>
      (base64Value a).bind fun first => (base64Value b).bind fun second =>
        (base64Value c).bind fun third => (base64Value d).bind fun fourth =>
          (b64decode rest).map fun others =>
            UInt8.ofNat (first * 4 + second / 16) ::
              UInt8.ofNat (second % 16 * 16 + third / 4) ::
              UInt8.ofNat (third % 4 * 64 + fourth) :: others
  | _ => none

/-! ### Validation -/

/-- Why attachments are refused; `index` is the attachment's place in the list. -/
inductive AttachmentError where
  | notList
  | tooMany
  | notObject (index : Nat)
  | type (index : Nat)
  | mimeType (index : Nat)
  | unhashable (index : Nat)
  | data (index : Nat)
  | notBase64 (index : Nat)
  | tooLarge (index : Nat)
deriving DecidableEq, Repr

def isHashable : Json → Bool
  | .array _ => false
  | .object _ => false
  | _ => true

def validateAttachment (index : Nat) (attachment : Json) : Except AttachmentError (List UInt8) :=
  match attachment with
  | .object fields =>
      let mime := (Json.lookup "mime_type" fields).getD (.str "")
      if Json.lookup "type" fields ≠ some (.str "image") then .error (.type index)
      else if !isHashable mime then .error (.unhashable index)
      else if mime ∉ allowedImageMime.map Json.str then .error (.mimeType index)
      else
        match Json.lookup "data" fields with
        | some (.str text) =>
            if text = "" then .error (.data index)
            else
              match b64decode text.toList with
              | none => .error (.notBase64 index)
              | some raw =>
                  if maxAttachmentBytes < raw.length then .error (.tooLarge index) else .ok raw
        | _ => .error (.data index)
  | _ => .error (.notObject index)

structure AcceptedImage where
  attachment : Json
  raw : List UInt8
  accepted : ∃ index, validateAttachment index attachment = .ok raw

def acceptedImages : Nat → List Json → Except AttachmentError (List AcceptedImage)
  | _, [] => .ok []
  | index, attachment :: rest =>
      match passed : validateAttachment index attachment with
      | .error error => .error error
      | .ok raw => (acceptedImages (index + 1) rest).map (⟨attachment, raw, index, passed⟩ :: ·)

def validateAttachments : Option Json → Except AttachmentError (List AcceptedImage)
  | none => .ok []
  | some .null => .ok []
  | some (.array attachments) =>
      if maxAttachmentsPerMessage < attachments.length then .error .tooMany
      else acceptedImages 0 attachments
  | some _ => .error .notList

theorem acceptedImages_length {index : Nat} {attachments : List Json}
    {images : List AcceptedImage} (accepted : acceptedImages index attachments = .ok images) :
    images.length = attachments.length := by
  induction attachments generalizing index images with
  | nil =>
      cases accepted
      rfl
  | cons attachment rest ih =>
      unfold acceptedImages at accepted
      split at accepted
      · cases accepted
      · cases later : acceptedImages (index + 1) rest with
        | error error =>
            rw [later] at accepted
            cases accepted
        | ok others =>
            rw [later] at accepted
            cases accepted
            rw [List.length_cons, List.length_cons, ih later]

theorem validateAttachments_length {attachments : Option Json} {images : List AcceptedImage}
    (accepted : validateAttachments attachments = .ok images) :
    images.length ≤ maxAttachmentsPerMessage := by
  unfold validateAttachments at accepted
  split at accepted
  · cases accepted
    exact Nat.zero_le _
  · cases accepted
    exact Nat.zero_le _
  · rename_i items
    by_cases many : maxAttachmentsPerMessage < items.length
    · rw [if_pos many] at accepted
      cases accepted
    · rw [if_neg many] at accepted
      rw [acceptedImages_length accepted]
      exact Nat.le_of_not_lt many
  · cases accepted

/-! ### File names -/

def isSafeCharacter (character : Char) : Bool :=
  let code := character.toNat
  (97 ≤ code && code ≤ 122) || (65 ≤ code && code ≤ 90) || (48 ≤ code && code ≤ 57) ||
    decide (character = '.') || decide (character = '_') || decide (character = '-')

def safeCharacter (character : Char) : Char := if isSafeCharacter character then character else '_'

def basename (path : List Char) : List Char :=
  (path.reverse.takeWhile fun character => character ≠ '/').reverse

def imageExtension (mime : String) : List Char :=
  if mime = "image/png" then ['.', 'p', 'n', 'g']
  else if mime = "image/jpeg" then ['.', 'j', 'p', 'g']
  else if mime = "image/webp" then ['.', 'w', 'e', 'b', 'p']
  else if mime = "image/gif" then ['.', 'g', 'i', 'f']
  else ['.', 'b', 'i', 'n']

def nonemptyOr (first second : List Char) : List Char := if first = [] then second else first

/-- The name a file is saved under if it is free; `generated` is the name made for a client that
gives none. -/
def imageName (original generated : List Char) (mime : String) : List Char :=
  let named := (basename (nonemptyOr original generated)).map safeCharacter
  let name := nonemptyOr named generated
  if (imageExtension mime).isSuffixOf (name.map Char.toLower) then name
  else name ++ imageExtension mime

/-- `stem` and `suffix` of a path; a leading dot starts no suffix, and neither does a last one. -/
def splitSuffix (name : List Char) : List Char × List Char :=
  let last := (name.reverse.takeWhile fun character => character ≠ '.').reverse
  let front := name.take (name.length - last.length - 1)
  if last = [] ∨ front = [] ∨ last.length = name.length then (name, [])
  else (front, name.drop (name.length - last.length - 1))

def freeName (files : List (List Char)) : Nat → List Char → Nat → List Char
  | 0, name, _ => name
  | tries + 1, name, counter =>
      if name ∈ files then
        let (stem, suffix) := splitSuffix name
        freeName files tries (stem ++ '_' :: (toString counter).toList ++ suffix) (counter + 1)
      else name

private theorem freeName_succ (files : List (List Char)) (tries : Nat) (name : List Char)
    (counter : Nat) : freeName files (tries + 1) name counter =
      if name ∈ files then
        freeName files tries ((splitSuffix name).1 ++ '_' :: (toString counter).toList ++
          (splitSuffix name).2) (counter + 1)
      else name := rfl

/-- A file of the attachment root: a plain name that is none of the root itself and its parent. -/
structure RootFile where
  name : List Char
  plain : '/' ∉ name
  proper : 2 < name.length

def RootFile.path (root : String) (file : RootFile) : String := root ++ "/" ++ String.ofList file.name

theorem splitSuffix_append (name : List Char) :
    (splitSuffix name).1 ++ (splitSuffix name).2 = name := by
  unfold splitSuffix
  dsimp only
  split
  · exact List.append_nil _
  · exact List.take_append_drop _ _

theorem safeCharacter_ne_slash (character : Char) : safeCharacter character ≠ '/' := by
  unfold safeCharacter
  by_cases safe : isSafeCharacter character = true
  · rw [if_pos safe]
    rintro rfl
    revert safe
    decide
  · rw [if_neg safe]
    decide

/-- A name made for a client that gives none. -/
structure GeneratedName where
  name : List Char
  plain : '/' ∉ name

private theorem mapped_plain (characters : List Char) : '/' ∉ characters.map safeCharacter := by
  intro present
  obtain ⟨character, _, same⟩ := List.mem_map.mp present
  exact safeCharacter_ne_slash character same

theorem imageExtension_plain (mime : String) :
    '/' ∉ imageExtension mime ∧ 4 ≤ (imageExtension mime).length := by
  unfold imageExtension
  repeat' split
  all_goals exact ⟨by decide, by decide⟩

theorem imageName_plain (original : List Char) (generated : GeneratedName) (mime : String) :
    '/' ∉ imageName original generated.name mime := by
  unfold imageName
  dsimp only
  generalize spelled : (basename (nonemptyOr original generated.name)).map safeCharacter = named
  have plain : '/' ∉ nonemptyOr named generated.name := by
    unfold nonemptyOr
    split
    · exact generated.plain
    · rw [← spelled]
      exact mapped_plain _
  split
  · exact plain
  · intro present
    rcases List.mem_append.mp present with front | back
    · exact plain front
    · exact (imageExtension_plain mime).1 back

theorem imageName_length (original generated : List Char) (mime : String) :
    4 ≤ (imageName original generated mime).length := by
  have long := (imageExtension_plain mime).2
  unfold imageName
  dsimp only
  split
  · rename_i ends
    have within := (List.isSuffixOf_iff_suffix.mp ends).length_le
    rw [List.length_map] at within
    omega
  · rw [List.length_append]
    omega

/-! ### A free name -/

def countedName (name : List Char) (counter : Nat) : List Char :=
  (splitSuffix name).1 ++ '_' :: (toString counter).toList ++ (splitSuffix name).2

private theorem digits_plain (counter : Nat) : '/' ∉ (toString counter).toList := by
  intro present
  rw [Nat.toString_eq_repr, Nat.toList_repr] at present
  have digit := Nat.isDigit_of_mem_toDigits (by decide) (by decide) present
  revert digit
  decide

theorem countedName_plain {name : List Char} (plain : '/' ∉ name) (counter : Nat) :
    '/' ∉ countedName name counter := by
  have parts := splitSuffix_append name
  intro present
  unfold countedName at present
  rw [List.mem_append, List.mem_append, List.mem_cons] at present
  rcases present with (stem | underscore | digit) | suffix
  · exact plain (parts ▸ List.mem_append_left _ stem)
  · exact absurd underscore (by decide)
  · exact digits_plain counter digit
  · exact plain (parts ▸ List.mem_append_right _ suffix)

theorem countedName_length (name : List Char) (counter : Nat) :
    name.length < (countedName name counter).length := by
  have parts := congrArg List.length (splitSuffix_append name)
  unfold countedName
  rw [List.length_append, List.length_append, List.length_cons]
  rw [List.length_append] at parts
  omega

theorem freeName_plain (files : List (List Char)) {tries : Nat} {name : List Char}
    (plain : '/' ∉ name) (counter : Nat) : '/' ∉ freeName files tries name counter := by
  induction tries generalizing name counter with
  | zero => exact plain
  | succ tries ih =>
      rw [freeName_succ]
      split
      · exact ih (countedName_plain plain counter) (counter + 1)
      · exact plain

theorem freeName_length (files : List (List Char)) (tries : Nat) (name : List Char)
    (counter : Nat) : name.length ≤ (freeName files tries name counter).length := by
  induction tries generalizing name counter with
  | zero => exact le_rfl
  | succ tries ih =>
      rw [freeName_succ]
      split
      · exact le_trans (Nat.le_of_lt (countedName_length name counter)) (ih _ _)
      · exact le_rfl

def ahead (files : List (List Char)) (length : Nat) : List (List Char) :=
  files.filter fun file => decide (length ≤ file.length)

private theorem ahead_shrinks {files : List (List Char)} {name : List Char} {length : Nat}
    (taken : name ∈ files) (longer : name.length < length) :
    (ahead files length).length < (ahead files name.length).length := by
  have fewer : ahead files length = (ahead files name.length).filter fun file =>
      decide (length ≤ file.length) := by
    unfold ahead
    rw [List.filter_filter]
    apply List.filter_congr
    intro file _
    rw [← Bool.decide_and]
    apply decide_eq_decide.mpr
    omega
  have present : name ∈ ahead files name.length :=
    List.mem_filter.mpr ⟨taken, decide_eq_true le_rfl⟩
  rw [fewer]
  apply List.length_filter_lt_length_iff_exists.mpr
  exact ⟨name, present, by simpa using longer⟩

theorem freeName_free {files : List (List Char)} {tries : Nat} {name : List Char}
    (counter : Nat) (enough : (ahead files name.length).length ≤ tries) :
    freeName files tries name counter ∉ files := by
  induction tries generalizing name counter with
  | zero =>
      intro taken
      have none_ahead := List.eq_nil_of_length_eq_zero (Nat.le_zero.mp enough)
      have present : name ∈ ahead files name.length :=
        List.mem_filter.mpr ⟨taken, decide_eq_true le_rfl⟩
      rw [none_ahead] at present
      exact List.not_mem_nil present
  | succ tries ih =>
      rw [freeName_succ]
      split
      · rename_i taken
        have shrinks := ahead_shrinks taken (countedName_length name counter)
        apply ih
        exact Nat.le_of_lt_succ (Nat.lt_of_lt_of_le shrinks enough)
      · assumption

/-- `save_image`: the file its bytes are written to. -/
def saveImage (files : List (List Char)) (mime : String) (original : List Char)
    (generated : GeneratedName) : RootFile where
  name := freeName files files.length (imageName original generated.name mime) 1
  plain := freeName_plain files (imageName_plain original generated mime) 1
  proper := Nat.lt_of_lt_of_le (by decide)
    (le_trans (imageName_length original generated.name mime) (freeName_length files _ _ 1))

theorem saveImage_free (files : List (List Char)) (mime : String) (original : List Char)
    (generated : GeneratedName) : (saveImage files mime original generated).name ∉ files :=
  freeName_free 1 (List.length_filter_le _ _)

/-- An image that was accepted, with the file it was saved to. -/
structure SavedImage where
  image : AcceptedImage
  file : RootFile

def SavedImage.stored (root : String) (saved : SavedImage) : Json :=
  match saved.image.attachment with
  | .object fields =>
      .object (KeyedList.putItem Prod.fst ("path", .str (saved.file.path root))
        (fields.filter fun field => decide (field.1 ≠ "data")))
  | other => other

def originalName (attachment : Json) : Option (List Char) :=
  match attachment.get? "name" with
  | none => some []
  | some (.str name) => some name.toList
  | some value => if value.truthy then none else some []

structure Persisted where
  files : List (List Char)
  saved : List SavedImage
  raised : Bool

/-- `_persist_attachments`; `writes` says which files the disk takes, and each attachment has a
name generated for it. -/
def persistAttachments (writes : List Char → Bool) :
    List (AcceptedImage × GeneratedName) → List (List Char) → Persisted
  | [], files => ⟨files, [], false⟩
  | (image, generated) :: rest, files =>
      match originalName image.attachment with
      | none => ⟨files, [], true⟩
      | some original =>
          let mime := strOr (image.attachment.get? "mime_type") none
          let file := saveImage files mime original generated
          if writes file.name then
            let later := persistAttachments writes rest (file.name :: files)
            { later with saved := ⟨image, file⟩ :: later.saved }
          else ⟨files, [], true⟩

theorem persistAttachments_images (writes : List Char → Bool)
    {images : List (AcceptedImage × GeneratedName)} {files : List (List Char)}
    (through : (persistAttachments writes images files).raised = false) :
    (persistAttachments writes images files).saved.map SavedImage.image =
      images.map Prod.fst := by
  induction images generalizing files with
  | nil => rfl
  | cons head rest ih =>
      unfold persistAttachments at through ⊢
      cases original : originalName head.1.attachment with
      | none =>
          rw [original] at through
          cases through
      | some name =>
          rw [original] at through
          dsimp only at through ⊢
          split at through
          · rename_i written
            rw [if_pos written]
            exact congrArg (head.1 :: ·) (ih through)
          · cases through

end Ftre.Messaging
