import Ftre.Lib.JoinedText
import Ftre.Lib.UrlQuery
import Ftre.Session.UserContent
import Ftre.Tools.TextFiles

/-!
What the shell tool answers to a command that ran: the bytes of both streams are decoded, put
under the working directory, and cut in the middle if the answer is too long.
-/

namespace Ftre.Tools

open Lib

inductive CodecName where
  | gbk
  | utf8
deriving DecidableEq, Repr

/-- `value.decode(encoding)`; a codec that refuses the bytes raises. -/
def decodeAs (gbk : Bytes → Option Text) (value : Bytes) : CodecName → Option Text
  | .gbk => gbk value
  | .utf8 => Codec.utf8.decode value

def decodeFirst (gbk : Bytes → Option Text) (value : Bytes) : List CodecName → Text
  | [] => UrlQuery.decodeReplace value
  | encoding :: rest =>
      match decodeAs gbk value encoding with
      | some text => text
      | none => decodeFirst gbk value rest

def decode (gbk : Bytes → Option Text) (value : Bytes) (encodings : List CodecName) : Text :=
  if value = [] then [] else decodeFirst gbk value encodings

def shellEncodings : List CodecName := [.gbk, .utf8]

variable (text : Text) (gbk : Bytes → Option Text)

/-- UTF-8 bytes of a text. -/
def utf8Bytes : Bytes := (String.ofList text).toByteArray.data.toList

/-- How the process came to its end. -/
inductive Ended where
  | exited (code : Int)
  | timedOut
deriving DecidableEq, Repr

structure ProcessOutput where
  exitCode : Int
  stdout : Text
  stderr : Text
deriving DecidableEq

/-- `communicate`; a timeout is raised with what was read so far, and nothing was: the streams are
only assigned when the process has ended. -/
def communicate (gbk : Bytes → Option Text) (stdout stderr : Bytes) :
    Ended → Except (Text × Text) ProcessOutput
  | .exited code => .ok ⟨code, decode gbk stdout shellEncodings, decode gbk stderr shellEncodings⟩
  | .timedOut => .error (decode gbk [] shellEncodings, decode gbk [] shellEncodings)

def maxOutputChars : Nat := 100000

def truncateNotice (total omitted : Nat) : Text :=
  ("\n\n... [已截断：输出共 " ++ toString total ++ " 字符，超过上限 " ++ toString maxOutputChars ++
    "，中间省略 " ++ toString omitted ++ " 字符] ...\n\n").toList

def truncateOutput (text : Text) : Text :=
  if text.length ≤ maxOutputChars then text
  else
    let usable := maxOutputChars - 120
    let headSize := usable / 2
    let tailSize := usable - headSize
    text.take headSize ++ truncateNotice text.length (text.length - headSize - tailSize) ++
      text.drop (text.length - tailSize)

def rstrip : Text := (text.reverse.dropWhile Session.isSpace).reverse

def shown (text : Text) : Option Text :=
  if Session.stripChars text = [] then none else some (rstrip text)

/-- `text[-2000:]`. -/
def lastChars : Text := text.drop (text.length - 2000)

/-- What is shown of both streams. -/
structure Streams where
  stdout : Option Text
  stderr : Option Text
deriving DecidableEq

def Streams.of (stdout stderr : Text) : Ended → Streams
  | .exited _ => ⟨shown stdout, shown stderr⟩
  | .timedOut => ⟨(shown stdout).map lastChars, (shown stderr).map lastChars⟩

structure Shell where
  cwd : Text
  effectiveTimeout : Nat
  maxTimeout : Nat

def newline : Text := ['\n']

def Streams.lines (streams : Streams) : List Text :=
  streams.stdout.toList ++ streams.stderr.toList.map fun text => "[stderr]\n".toList ++ text

def timeoutMessage (shell : Shell) : Text :=
  ("[error] 命令超时（" ++ toString shell.effectiveTimeout ++
    "s），进程已被强制结束。如需运行长任务请拆分命令或调大 timeout 参数（最大 " ++
    toString shell.maxTimeout ++ "s）。").toList

def Streams.render (shell : Shell) (streams : Streams) : Ended → Text
  | .exited code =>
      newline.intercalate (["<FTRE_SYSTEM_FACT>".toList, "[cwd] ".toList ++ shell.cwd,
        "</FTRE_SYSTEM_FACT>".toList] ++ streams.lines ++
          if code = 0 then [] else ["[exit_code] ".toList ++ (toString code).toList])
  | .timedOut =>
      timeoutMessage shell ++
        if streams.lines = [] then [] else newline ++ newline.intercalate streams.lines

def streamsOf (gbk : Bytes → Option Text) (stdout stderr : Bytes) (ended : Ended) : Streams :=
  match communicate gbk stdout stderr ended with
  | .ok result => .of result.stdout result.stderr ended
  | .error (out, err) => .of out err ended

def finish (text : Text) : Ended → Text
  | .exited _ => truncateOutput text
  | .timedOut => text

/-- `bash`, once the command has run. -/
def bash (gbk : Bytes → Option Text) (shell : Shell) (stdout stderr : Bytes) (ended : Ended) :
    Text :=
  finish ((streamsOf gbk stdout stderr ended).render shell ended) ended

/-- Where a decoded text comes from; there always is one. -/
inductive Decoded (gbk : Bytes → Option Text) (value : Bytes) (encodings : List CodecName)
    (text : Text) : Prop where
  | empty (nothing : value = []) (same : text = [])
  | accepted (encoding : CodecName) (tried : encoding ∈ encodings)
      (accepts : decodeAs gbk value encoding = some text)
  | replaced (refused : ∀ encoding ∈ encodings, decodeAs gbk value encoding = none)
      (same : text = UrlQuery.decodeReplace value)

private theorem decodeFirst_cases (value : Bytes) (encodings : List CodecName) :
    (∃ encoding ∈ encodings,
      decodeAs gbk value encoding = some (decodeFirst gbk value encodings)) ∨
    (∀ encoding ∈ encodings, decodeAs gbk value encoding = none) ∧
      decodeFirst gbk value encodings = UrlQuery.decodeReplace value := by
  induction encodings with
  | nil => exact Or.inr ⟨fun _ member => absurd member List.not_mem_nil, rfl⟩
  | cons encoding rest ih =>
      unfold decodeFirst
      cases attempt : decodeAs gbk value encoding with
      | some text => exact Or.inl ⟨encoding, List.mem_cons_self, attempt⟩
      | none =>
          rcases ih with ⟨other, tried, accepts⟩ | ⟨refused, same⟩
          · exact Or.inl ⟨other, List.mem_cons_of_mem _ tried, accepts⟩
          · refine Or.inr ⟨fun other member => ?_, same⟩
            rcases List.mem_cons.mp member with first | later
            · rw [first, attempt]
            · exact refused other later

theorem decode_decoded (value : Bytes) (encodings : List CodecName) :
    Decoded gbk value encodings (decode gbk value encodings) := by
  unfold decode
  by_cases nothing : value = []
  · rw [if_pos nothing]
    exact .empty nothing rfl
  · rw [if_neg nothing]
    rcases decodeFirst_cases gbk value encodings with ⟨encoding, tried, accepts⟩ | ⟨refused, same⟩
    · exact .accepted encoding tried accepts
    · exact .replaced refused same

theorem decode_utf8Bytes : Codec.utf8.decode (utf8Bytes text) = some text :=
  (Codec.utf8_exact (utf8Bytes text) text).mpr rfl

theorem utf8Bytes_ne_nil {text : Text} (nonempty : text ≠ []) : utf8Bytes text ≠ [] := by
  intro nothing
  have blank : Codec.utf8.decode (utf8Bytes []) = some text := by
    have read := decode_utf8Bytes text
    rw [nothing] at read
    exact read
  rw [decode_utf8Bytes] at blank
  exact nonempty (Option.some.inj blank).symm

theorem decode_shell {text : Text} (nonempty : text ≠ []) :
    decode gbk (utf8Bytes text) shellEncodings = (gbk (utf8Bytes text)).getD text := by
  unfold decode shellEncodings decodeFirst decodeAs
  rw [if_neg (utf8Bytes_ne_nil nonempty)]
  cases gbk (utf8Bytes text) with
  | some read => rfl
  | none =>
      unfold decodeFirst decodeAs
      dsimp only
      rw [decode_utf8Bytes]
      rfl

/-- The answer to a text: all of it, or its head and its tail around the notice. -/
inductive Cut (full : Text) : Text → Prop where
  | whole (fits : full.length ≤ maxOutputChars) : Cut full full
  | parted (head omitted tail : Text) (long : maxOutputChars < full.length)
      (parts : full = head ++ omitted ++ tail) (sizes : head.length = 49940 ∧ tail.length = 49940) :
      Cut full (head ++ truncateNotice full.length omitted.length ++ tail)

theorem truncateOutput_cut : Cut text (truncateOutput text) := by
  unfold truncateOutput
  by_cases fits : text.length ≤ maxOutputChars
  · rw [if_pos fits]
    exact .whole fits
  · rw [if_neg fits]
    have limit : maxOutputChars = 100000 := rfl
    have long : 100000 < text.length := by omega
    have first : (text.take 49940).length = 49940 := by
      rw [List.length_take]
      omega
    have last : (text.drop (text.length - 49940)).length = 49940 := by
      rw [List.length_drop]
      omega
    have middle : ((text.drop 49940).take (text.length - 49940 - 49940)).length =
        text.length - 49940 - 49940 := by
      rw [List.length_take, List.length_drop]
      omega
    have whole : text = text.take 49940 ++ (text.drop 49940).take (text.length - 49940 - 49940) ++
        text.drop (text.length - 49940) := by
      have place : text.length - 49940 = 49940 + (text.length - 49940 - 49940) := by omega
      have behind : text.drop (text.length - 49940) =
          (text.drop 49940).drop (text.length - 49940 - 49940) := by
        rw [List.drop_drop, ← place]
      rw [behind, List.append_assoc, List.take_append_drop, List.take_append_drop]
    have parted : Cut text _ := .parted _ _ _ (by omega) whole ⟨first, last⟩
    rw [middle] at parted
    exact parted

def Readable (gbk : Bytes → Option Text) (text : Text) : Prop :=
  text = [] ∨ ∀ read, gbk (utf8Bytes text) = some read → shown read = shown text

/-- Nothing is lost of the text: the command ends, and the text is readable, or there is nothing to
show of it. -/
def Legible (gbk : Bytes → Option Text) (text : Text) : Ended → Prop
  | .exited _ => Readable gbk text
  | .timedOut => shown text = none

/-- The tool shows both texts as they were written. -/
structure Faithful (gbk : Bytes → Option Text) (shell : Shell) (stdout stderr : Text)
    (ended : Ended) : Prop where
  streams : streamsOf gbk (utf8Bytes stdout) (utf8Bytes stderr) ended = .of stdout stderr ended
  answer : bash gbk shell (utf8Bytes stdout) (utf8Bytes stderr) ended =
    finish ((Streams.of stdout stderr ended).render shell ended) ended

theorem shown_decode_iff (text : Text) :
    shown (decode gbk (utf8Bytes text) shellEncodings) = shown text ↔ Readable gbk text := by
  unfold Readable
  by_cases nothing : text = []
  · rw [nothing]
    exact ⟨fun _ => Or.inl rfl, fun _ => rfl⟩
  · rw [decode_shell gbk nothing]
    constructor
    · intro same
      right
      intro read accepted
      rw [accepted] at same
      exact same
    · intro readable
      cases accepted : gbk (utf8Bytes text) with
      | none => rfl
      | some read => exact readable.resolve_left nothing read accepted

theorem streams_iff (stdout stderr : Text) (ended : Ended) :
    streamsOf gbk (utf8Bytes stdout) (utf8Bytes stderr) ended = .of stdout stderr ended ↔
      Legible gbk stdout ended ∧ Legible gbk stderr ended := by
  cases ended with
  | exited code =>
      change Streams.mk (shown _) (shown _) = .mk (shown stdout) (shown stderr) ↔
        Readable gbk stdout ∧ Readable gbk stderr
      rw [Streams.mk.injEq, shown_decode_iff, shown_decode_iff]
  | timedOut =>
      have lost : ∀ text, none = (shown text).map lastChars ↔ shown text = none := by
        intro text
        rw [eq_comm, Option.map_eq_none_iff]
      change Streams.mk none none =
          .mk ((shown stdout).map lastChars) ((shown stderr).map lastChars) ↔
        shown stdout = none ∧ shown stderr = none
      rw [Streams.mk.injEq, lost, lost]

/-- Every byte string is decoded and every answer is cut exactly; the streams are shown as they
were written if and only if both are legible. -/
theorem output_faithful_iff (gbk : Bytes → Option Text) (shell : Shell) (stdout stderr : Text)
    (ended : Ended) :
    (∀ value encodings, Decoded gbk value encodings (decode gbk value encodings)) ∧
      (∀ text, Cut text (truncateOutput text)) ∧
      (Faithful gbk shell stdout stderr ended ↔
        Legible gbk stdout ended ∧ Legible gbk stderr ended) := by
  refine ⟨decode_decoded gbk, truncateOutput_cut, ?_⟩
  constructor
  · exact fun faithful => (streams_iff gbk stdout stderr ended).mp faithful.streams
  · intro legible
    have streams := (streams_iff gbk stdout stderr ended).mpr legible
    refine ⟨streams, ?_⟩
    unfold bash
    rw [streams]

/-- A double-byte codec over a table; ASCII stands for itself. -/
def doubleByte (table : List ((UInt8 × UInt8) × Char)) : Bytes → Option Text
  | [] => some []
  | [byte] => if byte.toNat < 128 then some [Char.ofNat byte.toNat] else none
  | byte :: next :: rest =>
      if byte.toNat < 128 then
        (doubleByte table (next :: rest)).map fun text => Char.ofNat byte.toNat :: text
      else
        match table.lookup (byte, next) with
        | none => none
        | some character => (doubleByte table rest).map fun text => character :: text

/-- What GBK has under the bytes of a greeting in UTF-8. -/
def greetingTable : List ((UInt8 × UInt8) × Char) :=
  [((0xE4, 0xBD), '浣'), ((0xA0, 0xE5), '犲'), ((0xA5, 0xBD), 'ソ')]

/-- The two characters are written and three others are shown. -/
theorem greeting_garbled :
    ¬ rstrip ['你', '好'] <:+: bash (doubleByte greetingTable) ⟨['/'], 60, 3600⟩
      (utf8Bytes ['你', '好']) (utf8Bytes []) (.exited 0) := by
  have bytes : utf8Bytes ['你', '好'] = [0xE4, 0xBD, 0xA0, 0xE5, 0xA5, 0xBD] := by decide
  have read : streamsOf (doubleByte greetingTable) (utf8Bytes ['你', '好']) (utf8Bytes [])
      (.exited 0) = ⟨some ['浣', '犲', 'ソ'], none⟩ := by
    rw [bytes]
    decide
  unfold bash
  rw [read]
  intro written
  have shownThere : '你' ∈ finish ((Streams.mk (some ['浣', '犲', 'ソ']) none).render
      ⟨['/'], 60, 3600⟩ (.exited 0)) (.exited 0) :=
    written.subset (by decide)
  revert shownThere
  decide

end Ftre.Tools
