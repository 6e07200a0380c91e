import Mathlib.Data.Char
import Mathlib.Data.List.Lex
import Mathlib.Data.Prod.Lex
import Ftre.Lib.KeyedTable
import Ftre.Lib.UrlQuery
import Ftre.Session.UserContent

/-!
The parser of inline references. A token is read from the left with one choice at each place,
since what may follow a name is never a character of the name.
-/

namespace Ftre.InlineExtension

open Lib Lib.UrlQuery

abbrev Text := List Char

structure ExtensionSpan where
  start : Nat
  stop : Nat
  ordered : start ≤ stop
deriving DecidableEq

/-- `ValueError`s are raised by the types and by the host's library. -/
inductive ExtensionError where
  | parseError (message : String)
  | valueError (message : String)
  | badQueryField (field : Text)
deriving DecidableEq

structure ExtensionRef where
  version : Text
  type : Text
  name : Text
  args : KeyedTable Text Text
  raw : Text
  span : ExtensionSpan
  supported : version = "v1".toList
  typed : type ≠ []
  named : name ≠ []
deriving DecidableEq

/-- `ExtensionRef.__post_init__`. -/
def ExtensionRef.make (version type name : Text) (args : KeyedTable Text Text) (raw : Text)
    (span : ExtensionSpan) : Except ExtensionError ExtensionRef :=
  if supported : version = "v1".toList then
    if typed : type ≠ [] then
      if named : name ≠ [] then
        .ok ⟨version, type, name, args, raw, span, supported, typed, named⟩
      else .error (.valueError "extension type and name are required")
    else .error (.valueError "extension type and name are required")
  else .error (.valueError "unsupported extension protocol version")

/-! ### The token -/

def isLower (character : Char) : Bool := 'a' ≤ character && character ≤ 'z'

def isDigit (character : Char) : Bool := '0' ≤ character && character ≤ '9'

def isKindChar (character : Char) : Bool :=
  isLower character || isDigit character || character == '-'

/-- `[a-z0-9]*(?:-[a-z0-9]+)*`; behind a hyphen a letter or a digit is needed. -/
def kindTail (behindHyphen : Bool) : Text → Bool
  | [] => !behindHyphen
  | character :: rest =>
      if character = '-' then !behindHyphen && kindTail true rest
      else (isLower character || isDigit character) && kindTail false rest

/-- `[a-z][a-z0-9]*(?:-[a-z0-9]+)*`. -/
def isKind : Text → Bool
  | [] => false
  | first :: rest => isLower first && kindTail false rest

/-- `[^()\s]`. -/
def isQueryChar (character : Char) : Bool :=
  character != '(' && character != ')' && !Session.isSpace character

/-- The groups of a match. -/
structure TokenMatch where
  alt : Text
  version : Text
  type : Text
  name : Text
  query : Option Text
deriving DecidableEq

def querySuffix : Option Text → Text
  | some query => '?' :: query
  | none => []

/-- `match.group(0)`. -/
def TokenMatch.raw (token : TokenMatch) : Text :=
  "![ftre:".toList ++ token.alt ++ "](ftre://".toList ++ token.version ++ "/".toList ++
    token.type ++ "/".toList ++ token.name ++ querySuffix token.query ++ ")".toList

def literal : Text → Text → Option Text
  | [], text => some text
  | _ :: _, [] => none
  | expected :: others, character :: text =>
      if expected = character then literal others text else none

def readRun (allowed : Char → Bool) (valid : Text → Bool) (text : Text) : Option (Text × Text) :=
  if valid (text.takeWhile allowed) then some (text.takeWhile allowed, text.dropWhile allowed)
  else none

def readKind (text : Text) : Option (Text × Text) := readRun isKindChar isKind text

def readDigits (text : Text) : Option (Text × Text) := readRun isDigit (fun run => run ≠ []) text

def readQuery : Text → Option Text × Text
  | '?' :: text => (some (text.takeWhile isQueryChar), text.dropWhile isQueryChar)
  | text => (none, text)

/-- `_TOKEN` at the start of the text, with the text behind the match. -/
def matchToken (text : Text) : Option (TokenMatch × Text) := do
  let text ← literal "![ftre:".toList text
  let (alt, text) ← readKind text
  let text ← literal "](ftre://v".toList text
  let (digits, text) ← readDigits text
  let text ← literal "/".toList text
  let (type, text) ← readKind text
  let text ← literal "/".toList text
  let (name, text) ← readKind text
  let (query, text) := readQuery text
  let text ← literal ")".toList text
  return (⟨alt, 'v' :: digits, type, name, query⟩, text)

/-- `_TOKEN.finditer(text)`, from a position on; `skip` characters of the last match are left. -/
def findIter (skip position : Nat) : Text → List (TokenMatch × Nat)
  | [] => []
  | character :: text =>
      match skip with
      | left + 1 => findIter left (position + 1) text
      | 0 =>
          match matchToken (character :: text) with
          | some (token, _) =>
              (token, position) :: findIter (token.raw.length - 1) (position + 1) text
          | none => findIter 0 (position + 1) text

def maxTokenBytes : Nat := 8 * 1024

def maxRefs : Nat := 32

def collectArgs (args : KeyedTable Text Text) :
    List Field → Except ExtensionError (KeyedTable Text Text)
  | [] => .ok args
  | (key, value) :: rest =>
      if key = [] then .error (.parseError "extension query key is empty")
      else collectArgs (args.set key value) rest

def fromMatch (token : TokenMatch) (start : Nat) : Except ExtensionError ExtensionRef :=
  match parseQsl (token.query.getD []) with
  | .error field => .error (.badQueryField field)
  | .ok fields =>
      match collectArgs .empty fields with
      | .error failure => .error failure
      | .ok args =>
          ExtensionRef.make token.version token.type token.name args token.raw
            ⟨start, start + token.raw.length, Nat.le_add_right _ _⟩

def parseLoop (refs : List ExtensionRef) : List (TokenMatch × Nat) → List ExtensionRef
  | [] => refs
  | (token, start) :: rest =>
      if refs.length ≥ maxRefs then refs
      else if (utf8 token.raw).length > maxTokenBytes then parseLoop refs rest
      else if token.alt ≠ token.type then parseLoop refs rest
      else
        match fromMatch token start with
        | .ok ref => parseLoop (refs ++ [ref]) rest
        | .error _ => parseLoop refs rest

def parse (text : Text) : List ExtensionRef := parseLoop [] (findIter 0 0 text)

def parseOne (raw : Text) : Except ExtensionError ExtensionRef :=
  match matchToken raw with
  | some (token, []) =>
      if (utf8 raw).length > maxTokenBytes then
        .error (.parseError "extension token is too large")
      else if token.alt ≠ token.type then .error (.parseError "extension type mismatch")
      else fromMatch token 0
  | _ => .error (.parseError "invalid ftre extension token")

def sortedFields (args : KeyedTable Text Text) : List Field :=
  args.entries.mergeSort fun left right => decide (toLex left ≤ toLex right)

def serialize (ref : ExtensionRef) : Except ExtensionError Text :=
  if ref.version ≠ "v1".toList then
    .error (.parseError ("unsupported extension version: " ++ String.ofList ref.version))
  else
    let query := urlencode (sortedFields ref.args)
    let suffix := if query = [] then [] else '?' :: query
    .ok ("![ftre:".toList ++ ref.type ++ "](ftre://".toList ++ ref.version ++ "/".toList ++
      ref.type ++ "/".toList ++ ref.name ++ suffix ++ ")".toList)

end Ftre.InlineExtension
