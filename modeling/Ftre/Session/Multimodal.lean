import Ftre.Session.UserContent

/-!
User content as the host stores it and as a provider takes it: text with its whitespace trimmed,
skills as text, image attachments as data URLs.
-/

namespace Ftre.Session.Multimodal

open Lib

def base64Digit (value : Nat) : Char :=
  if value < 26 then Char.ofNat (65 + value)
  else if value < 52 then Char.ofNat (71 + value)
  else if value < 62 then Char.ofNat (value - 4)
  else if value = 62 then '+'
  else '/'

def b64encode : List UInt8 → List Char
  | [] => []
  | [a] =>
      let bits := a.toNat * 16
      [base64Digit (bits / 64), base64Digit (bits % 64), '=', '=']
  | [a, b] =>
      let bits := (a.toNat * 256 + b.toNat) * 4
      [base64Digit (bits / 4096), base64Digit (bits / 64 % 64), base64Digit (bits % 64), '=']
  | a :: b :: c :: rest =>
      let bits := (a.toNat * 256 + b.toNat) * 256 + c.toNat
      base64Digit (bits / 262144) :: base64Digit (bits / 4096 % 64) ::
        base64Digit (bits / 64 % 64) :: base64Digit (bits % 64) :: b64encode rest

def extension (path : String) : String :=
  let name := (path.toList.reverse.takeWhile fun character => character ≠ '/').reverse
  let body := name.dropWhile fun character => character = '.'
  if body.contains '.' then
    String.ofList
      (('.' :: (body.reverse.takeWhile fun character => character ≠ '.').reverse).map Char.toLower)
  else ""

def mimeOfExtension (extension : String) : String :=
  if extension = ".png" then "image/png"
  else if extension = ".jpg" ∨ extension = ".jpeg" then "image/jpeg"
  else if extension = ".webp" then "image/webp"
  else if extension = ".gif" then "image/gif"
  else "image/png"

/-- What the file system returns for a path; none is any failure to read it. -/
abbrev ReadFile := Json → Option (List UInt8)

def dataUrl (mime : String) (raw : List UInt8) : String :=
  "data:" ++ mime ++ ";base64," ++ String.ofList (b64encode raw)

def loadAsDataUrl (readFile : ReadFile) (path mime : Json) : Option String :=
  (readFile path).bind fun raw =>
    if mime.truthy then some (dataUrl mime.toStr raw)
    else path.asString?.map fun text => dataUrl (mimeOfExtension (extension text)) raw

/-! ### Parts -/

/-- Content as plain text or as parts. -/
inductive UserContent where
  | text (value : String)
  | parts (values : List Json)
deriving DecidableEq

def imageOmittedNotice : String := "[图片附件已省略：当前模型不支持视觉输入]"

def textPart (text : String) : Json := .object [("type", .str "text"), ("text", .str text)]

def imagePart (url : String) : Json :=
  .object [("type", .str "image_url"), ("image_url", .object [("url", .str url)])]

def isType (part : Json) (name : String) : Bool := decide (part.get? "type" = some (.str name))

def isObject : Json → Bool
  | .object _ => true
  | _ => false

def textValue (part : Json) : String := strip (strOr (part.get? "text") (part.get? "data"))

def skillName (part : Json) : String := strOr (part.get? "data") (part.get? "text")

def escapeXml (text : String) : String :=
  String.ofList (text.toList.flatMap fun character =>
    if character = '&' then "&amp;".toList
    else if character = '>' then "&gt;".toList
    else if character = '<' then "&lt;".toList
    else [character])

def skillPartToText (name : String) : String :=
  let safeName := escapeXml (strip name)
  if safeName = "" then ""
  else
    "<selected_skill name=\"" ++ safeName ++ "\">\n" ++
      "请调用 loadSkill 加载此 Skill 的完整内容。\n" ++ "</selected_skill>"

def nonempty (text : String) : Option String := if text = "" then none else some text

def contentToText : Json → String
  | .str text => text
  | .array parts => "\n".intercalate (parts.filterMap fun part =>
      if isType part "text" then nonempty (textValue part)
      else if isType part "skill" then nonempty (skillPartToText (skillName part))
      else none)
  | _ => ""

def storedPart (part : Json) : Option Json :=
  if isType part "text" then (nonempty (textValue part)).map textPart
  else if isType part "skill" then
    (nonempty (strip (skillName part))).map fun name =>
      .object [("type", .str "skill"), ("data", .str name)]
  else if isType part "image" then
    (part.get? "data").bind fun data =>
      if isObject data then some (.object [("type", .str "image"), ("data", data)]) else none
  else none

def normalizeStoredUserContent : Json → List Json
  | .str text => ((nonempty (strip text)).map textPart).toList
  | .array parts => parts.filterMap storedPart
  | _ => []

structure ProviderPart where
  part : Option Json
  text : Option String
  omitted : Bool

namespace ProviderPart

def none : ProviderPart := ⟨.none, .none, false⟩

def dropped : ProviderPart := ⟨.none, .none, true⟩

def ofText (text : String) : ProviderPart :=
  if text = "" then none else ⟨some (textPart text), some text, false⟩

def ofImage (part : Json) : ProviderPart := ⟨some part, .none, false⟩

end ProviderPart

def userPart (readFile : ReadFile) (includeImages : Bool) (part : Json) : ProviderPart :=
  if isType part "text" then .ofText (textValue part)
  else if isType part "skill" then .ofText (skillPartToText (skillName part))
  else if isType part "image_url" then
    if includeImages then
      match part.get? "image_url" with
      | some image =>
          if isObject image && ((image.get? "url").any Json.truthy) then
            .ofImage (.object [("type", .str "image_url"), ("image_url", image)])
          else .none
      | none => .none
    else .dropped
  else if isType part "image" then .dropped
  else if isType part "image_file" then
    if includeImages then
      let path := (part.get? "path").getD (.str "")
      if path.truthy then
        match (loadAsDataUrl readFile path ((part.get? "mime_type").getD (.str ""))).bind nonempty with
        | some url => .ofImage (imagePart url)
        | none => .dropped
      else .dropped
    else .dropped
  else .none

def normalizeUserContent (readFile : ReadFile) (includeImages : Bool) : Json → UserContent
  | .str text => .text text
  | .array parts =>
      let converted := parts.map (userPart readFile includeImages)
      let omitted := converted.any ProviderPart.omitted
      let normalized := converted.filterMap ProviderPart.part
      let texts := converted.filterMap ProviderPart.text
      if ¬ includeImages then
        .text ("\n\n".intercalate (if omitted then texts ++ [imageOmittedNotice] else texts))
      else if normalized.all fun part => isType part "text" then
        .text ("\n\n".intercalate (normalized.map fun part => strOr (part.get? "text") none))
      else .parts normalized
  | _ => .text ""

/-- The data URL of an image attachment that can be read. -/
def attachmentUrl (readFile : ReadFile) (attachment : Json) : Option String :=
  if isType attachment "image" then
    let path := (attachment.get? "path").getD (.str "")
    if path.truthy then
      (loadAsDataUrl readFile path ((attachment.get? "mime_type").getD (.str ""))).bind nonempty
    else none
  else none

def buildUserContent (readFile : ReadFile) (content : Json) (attachments : List Json)
    (includeImages : Bool) : UserContent :=
  if attachments = [] then normalizeUserContent readFile includeImages content
  else
    let text := contentToText content
    if ¬ includeImages then
      .text ("\n\n".intercalate ((nonempty text).toList ++ [imageOmittedNotice]))
    else
      let parts := ((nonempty text).map textPart).toList ++
        (attachments.filterMap (attachmentUrl readFile)).map imagePart
      if parts = [] then .text text else .parts parts

end Ftre.Session.Multimodal
