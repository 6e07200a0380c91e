import Mathlib.Data.List.DropRight
import Ftre.Lib.IsoTime
import Ftre.Message.Msg

/-!
Reading the open parts of a user/message as typed blocks. Text and data parts
keep their kind; any other part is kept readable as text.
-/

namespace Ftre.Session

open Lib Message

/-- `str(first or second or "")` over two optional fields. -/
def strOr (first second : Option Json) : String :=
  match Json.orElse first second with
  | some value => if value.truthy then value.toStr else ""
  | none => ""

def optionalString (value : Option Json) : Option String := value.bind Json.asString?

def isOptionalString : Option Json → Bool
  | none => true
  | some .null => true
  | some (.str _) => true
  | _ => false

def isString : Option Json → Bool
  | none => true
  | some (.str _) => true
  | _ => false

def dataSource? (source : Json) : Option DataSource :=
  let typed (name : String) : Bool :=
    match source.get? "type" with
    | none => true
    | some value => value = .str name
  match typed "base64", optionalString (source.get? "data"),
      optionalString (source.get? "media_type"), typed "url", optionalString (source.get? "url") with
  | true, some data, some mediaType, _, _ => some (.base64 data mediaType)
  | _, _, some mediaType, true, some url => some (.url url mediaType)
  | _, _, _, _, _ => none

def dataBlock? (part : Json) (blockId createdAt : String) (finishedAt : Option String) :
    Option DataBlock :=
  if isOptionalString (part.get? "name") && isString (part.get? "id") &&
      isString (part.get? "created_at") && isOptionalString (part.get? "finished_at") then
    ((part.get? "source").bind dataSource?).map fun source =>
      { source := source
        name := optionalString (part.get? "name")
        id := blockId
        createdAt := createdAt
        finishedAt := finishedAt }
  else none

def readableValue (part : Json) : Option Json :=
  let present (value : Option Json) : Option Json :=
    value.bind fun found => if found = .null then none else some found
  match present (part.get? "text"), present (part.get? "data") with
  | some value, _ => some value
  | none, some value => some value
  | none, none => present (Json.orElse (part.get? "path") (part.get? "url"))

def readableText (value : Json) : String :=
  match value with
  | .array _ => value.dumps
  | .object _ => value.dumps
  | other => other.toStr

/-- Whitespace as `str.strip` removes it. -/
def isSpace (character : Char) : Bool :=
  let code := character.toNat
  (9 ≤ code && code ≤ 13) || (28 ≤ code && code ≤ 32) || code == 0x85 || code == 0xa0 ||
    code == 0x1680 || (0x2000 ≤ code && code ≤ 0x200a) || code == 0x2028 || code == 0x2029 ||
    code == 0x202f || code == 0x205f || code == 0x3000

def stripChars (characters : List Char) : List Char :=
  ((characters.dropWhile isSpace).reverse.dropWhile isSpace).reverse

def strip (text : String) : String := String.ofList (stripChars text.toList)

def fallbackText (partType : String) (value : Option Json) : String :=
  let label := "[" ++ partType ++ "]"
  match value with
  | none => label
  | some found => if found = .str "" then label else strip (label ++ " " ++ readableText found)

def userBlock (messageId timeIso : String) (index : Nat) (raw : Json) : ContentBlock :=
  let part : Json :=
    match raw with
    | .object _ => raw
    | other => .object [("type", .str "text"), ("text", .str other.toStr)]
  let partType := strOr (part.get? "type") (some (.str "text"))
  let blockId := strOr (part.get? "id") (some (.str (messageId ++ s!":block:{index}")))
  let createdAt := strOr (part.get? "created_at") (some (.str timeIso))
  let finishedAt := optionalString (part.get? "finished_at")
  let readable : ContentBlock :=
    .text ⟨fallbackText partType (readableValue part), blockId, createdAt, finishedAt⟩
  if partType = "text" then
    .text ⟨strOr (part.get? "text") (part.get? "data"), blockId, createdAt, finishedAt⟩
  else if partType = "data" then
    match dataBlock? part blockId createdAt finishedAt with
    | some block => .data block
    | none => readable
  else readable

def normalizeUserContent (content : List Json) (messageId timeIso : String) : List ContentBlock :=
  content.mapIdx fun index raw => userBlock messageId timeIso index raw

theorem stripChars_idempotent (characters : List Char) :
    stripChars (stripChars characters) = stripChars characters := by
  have trimmed : ∀ list : List Char, stripChars list = (list.dropWhile isSpace).rdropWhile isSpace :=
    fun _ => rfl
  have front : ((characters.dropWhile isSpace).rdropWhile isSpace).dropWhile isSpace =
      (characters.dropWhile isSpace).rdropWhile isSpace := by
    cases kept : (characters.dropWhile isSpace).rdropWhile isSpace with
    | nil => rfl
    | cons first rest =>
        obtain ⟨dropped, whole⟩ := List.rdropWhile_prefix isSpace (characters.dropWhile isSpace)
        rw [kept] at whole
        have visible := List.head?_dropWhile_not isSpace characters
        rw [← whole, List.cons_append, List.head?_cons] at visible
        exact List.dropWhile_cons_of_neg (by simpa using visible)
  rw [trimmed characters, trimmed, front, List.rdropWhile_idempotent]

@[simp] theorem strip_strip (text : String) : strip (strip text) = strip text := by
  unfold strip
  rw [String.toList_ofList, stripChars_idempotent]

end Ftre.Session
