import Mathlib.Data.List.Infix
import Ftre.Session.UserContent
import Ftre.Tools.TextSplice

/-!
The edit tool: a call replaces the one occurrence of a text, or a range of lines, of the text that
is read from a file, and writes the whole text back in the file's encoding and line ends.
-/

namespace Ftre.Tools

/-- `start_line` above zero selects the mode by lines. -/
structure EditCall where
  path : String
  newStr : Text
  oldStr : Text
  startLine : Int
  endLine : Int

/-- What stands at a path. -/
inductive Target where
  | missing
  | directory
  | special
  | file (data : Bytes)
deriving DecidableEq

abbrev Files := String → Target

inductive EditError where
  | missing (path : String)
  | directory (path : String)
  | special (path : String)
  | noOldStr
  | notFound (hits : List Nat)
  | ambiguous (count : Nat) (lines : List Nat)
  | startBeyond (startLine : Int) (total : Nat)
  | endBefore (endLine startLine : Int)
  /-- The text cannot be encoded; the message is that of the codec. -/
  | unicodeEncode
  /-- `path.write_bytes` has raised. -/
  | writeBytes
deriving DecidableEq

/-- What becomes of `path.write_bytes`, which empties the file as it opens it: a write that raises
leaves some bytes there. -/
inductive WriteBytes where
  | done
  | raises (left : Bytes)
deriving DecidableEq

/-- The line counts of a report, the size that was written, the first line that was edited, and
the new text, which the preview and the differences are made of. -/
structure EditReport where
  oldLines : Nat
  newLines : Nat
  size : Nat
  startLine : Nat
  newContent : Text
deriving DecidableEq

/-- The characters that `str.splitlines` splits at. -/
def isLineBreak (character : Char) : Bool :=
  let code := character.toNat
  (10 ≤ code && code ≤ 13) || (28 ≤ code && code ≤ 30) || code == 0x85 || code == 0x2028 ||
    code == 0x2029

/-- `text.splitlines()`, behind what was read of the current line. -/
def splitLines (current : Text) : Text → List Text
  | [] => if current = [] then [] else [current]
  | '\r' :: '\n' :: rest => current :: splitLines [] rest
  | character :: rest =>
      if isLineBreak character then current :: splitLines [] rest
      else splitLines (current ++ [character]) rest

/-- `"\n".join(lines)`. -/
def joinLines (lines : List Text) : Text := ['\n'].intercalate lines

/-- `text.count(needle)`: occurrences that do not overlap; `skip` characters of the last one are
left. -/
def countFrom (needle : Text) (skip : Nat) : Text → Nat
  | [] => 0
  | character :: rest =>
      match skip with
      | left + 1 => countFrom needle left rest
      | 0 =>
          if needle <+: character :: rest then 1 + countFrom needle (needle.length - 1) rest
          else countFrom needle 0 rest

/-- `text.find(needle)`. -/
def findFirst (needle : Text) : Text → Option Nat
  | [] => none
  | character :: rest =>
      if needle <+: character :: rest then some 0
      else (findFirst needle rest).map (· + 1)

/-- `text.replace(needle, new, 1)`. -/
def replaceFirst (needle new text : Text) : Text :=
  match findFirst needle text with
  | some index => text.take index ++ (new ++ text.drop (index + needle.length))
  | none => text

def lineNumber (text : Text) (index : Nat) : Nat := (text.take index).count '\n' + 1

/-- The loop of `_line_numbers_of_matches` over the occurrences, overlaps included. -/
def matchLines (text needle : Text) (maxShow : Nat) (start : Nat) : Nat → List Nat
  | 0 => []
  | fuel + 1 =>
      match maxShow, findFirst needle (text.drop start) with
      | more + 1, some index =>
          lineNumber text (start + index) ::
            matchLines text needle more (start + index + 1) fuel
      | _, _ => []

def lineNumbersOfMatches (text needle : Text) : List Nat :=
  matchLines text needle 5 0 (text.length + 1)

/-- `_trimmed_match_hint`: the lines that are the needle's first one but for spaces around it. -/
def trimmedMatchHint (text needle : Text) : List Nat :=
  match ((splitLines [] needle).map Session.stripChars).find? (· ≠ []) with
  | none => []
  | some fingerprint =>
      ((splitLines [] text).zipIdx.filter fun (line, _) =>
        Session.stripChars line = fingerprint).map fun (_, index) => index + 1

/-- `_edit_by_string` in front of the write: the new text, the lines and the first line. -/
def editByString (content oldStr newNorm : Text) :
    Except EditError (Text × Nat × Nat × Nat) :=
  if oldStr = [] then .error .noOldStr
  else
    let oldNorm := normalized oldStr
    let count := countFrom oldNorm 0 content
    if count = 0 then .error (.notFound ((trimmedMatchHint content oldNorm).take 3))
    else if count > 1 then .error (.ambiguous count (lineNumbersOfMatches content oldNorm))
    else
      .ok (replaceFirst oldNorm newNorm content, oldNorm.count '\n' + 1, newNorm.count '\n' + 1,
        lineNumber content ((findFirst oldNorm content).getD 0))

/-- `content.endswith("\n")`. -/
def endsWithFeed (content : Text) : Bool := content.getLast? == some '\n'

/-- `_edit_by_line` in front of the write. -/
def editByLine (content newNorm : Text) (startLine endLine : Int) :
    Except EditError (Text × Nat × Nat × Nat) :=
  let lines := splitLines [] content
  let total := lines.length
  if startLine > total then .error (.startBeyond startLine total)
  else
    let wanted := if endLine > 0 then endLine else startLine
    if wanted < startLine then .error (.endBefore wanted startLine)
    else
      let stop := min wanted.toNat total
      let startIdx := startLine.toNat - 1
      let replacement := if newNorm ≠ [] then newNorm.splitOn '\n' else []
      let joined := joinLines (lines.take startIdx ++ (replacement ++ lines.drop stop))
      let newContent :=
        if endsWithFeed content = true ∧ joined ≠ [] then joined ++ ['\n'] else joined
      .ok (newContent, stop - startIdx, replacement.length, startLine.toNat)

def editContent (content : Text) (call : EditCall) : Except EditError (Text × Nat × Nat × Nat) :=
  if call.startLine > 0 then
    editByLine content (normalized call.newStr) call.startLine call.endLine
  else editByString content call.oldStr (normalized call.newStr)

/-- `edit`: the files behind the call and what it returns. The path is resolved in the workspace;
an exception is returned as an error. -/
def edit (codecs : Codecs) (resolve : String → String) (files : Files) (write : WriteBytes)
    (call : EditCall) : Files × Except EditError EditReport :=
  let path := resolve call.path
  match files path with
  | .missing => (files, .error (.missing path))
  | .directory => (files, .error (.directory path))
  | .special => (files, .error (.special path))
  | .file data =>
      match editContent (readText codecs data).text call with
      | .error failure => (files, .error failure)
      | .ok (newContent, oldLines, newLines, startLine) =>
          match writeTextPreserving codecs newContent (readText codecs data) with
          | none => (files, .error .unicodeEncode)
          | some out =>
              match write with
              | .raises left => (Function.update files path (.file left), .error .writeBytes)
              | .done =>
                  (Function.update files path (.file out),
                    .ok ⟨oldLines, newLines, out.length, startLine, newContent⟩)

end Ftre.Tools
