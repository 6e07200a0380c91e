import Mathlib.Algebra.Group.Nat.Defs
import Mathlib.Data.List.Basic

/-!
SHA-256 over the UTF-8 bytes of a string, on natural numbers below 2 ^ 32.
-/

namespace Ftre.Lib.Sha256

def word : Nat := 4294967296

def rotateRight (value amount : Nat) : Nat :=
  Nat.lor (value >>> amount) ((value <<< (32 - amount)) % word)

def complement (value : Nat) : Nat := word - 1 - value

def choose (x y z : Nat) : Nat := Nat.xor (Nat.land x y) (Nat.land (complement x) z)

def majority (x y z : Nat) : Nat :=
  Nat.xor (Nat.xor (Nat.land x y) (Nat.land x z)) (Nat.land y z)

def bigSigma0 (x : Nat) : Nat :=
  Nat.xor (Nat.xor (rotateRight x 2) (rotateRight x 13)) (rotateRight x 22)

def bigSigma1 (x : Nat) : Nat :=
  Nat.xor (Nat.xor (rotateRight x 6) (rotateRight x 11)) (rotateRight x 25)

def smallSigma0 (x : Nat) : Nat :=
  Nat.xor (Nat.xor (rotateRight x 7) (rotateRight x 18)) (x >>> 3)

def smallSigma1 (x : Nat) : Nat :=
  Nat.xor (Nat.xor (rotateRight x 17) (rotateRight x 19)) (x >>> 10)

def roundConstants : List Nat :=
  [0x428a2f98, 0x71374491, 0xb5c0fbcf, 0xe9b5dba5, 0x3956c25b, 0x59f111f1, 0x923f82a4, 0xab1c5ed5,
   0xd807aa98, 0x12835b01, 0x243185be, 0x550c7dc3, 0x72be5d74, 0x80deb1fe, 0x9bdc06a7, 0xc19bf174,
   0xe49b69c1, 0xefbe4786, 0x0fc19dc6, 0x240ca1cc, 0x2de92c6f, 0x4a7484aa, 0x5cb0a9dc, 0x76f988da,
   0x983e5152, 0xa831c66d, 0xb00327c8, 0xbf597fc7, 0xc6e00bf3, 0xd5a79147, 0x06ca6351, 0x14292967,
   0x27b70a85, 0x2e1b2138, 0x4d2c6dfc, 0x53380d13, 0x650a7354, 0x766a0abb, 0x81c2c92e, 0x92722c85,
   0xa2bfe8a1, 0xa81a664b, 0xc24b8b70, 0xc76c51a3, 0xd192e819, 0xd6990624, 0xf40e3585, 0x106aa070,
   0x19a4c116, 0x1e376c08, 0x2748774c, 0x34b0bcb5, 0x391c0cb3, 0x4ed8aa4a, 0x5b9cca4f, 0x682e6ff3,
   0x748f82ee, 0x78a5636f, 0x84c87814, 0x8cc70208, 0x90befffa, 0xa4506ceb, 0xbef9a3f7, 0xc67178f2]

structure State where
  a : Nat
  b : Nat
  c : Nat
  d : Nat
  e : Nat
  f : Nat
  g : Nat
  h : Nat

def initial : State :=
  ⟨0x6a09e667, 0xbb67ae85, 0x3c6ef372, 0xa54ff53a, 0x510e527f, 0x9b05688c, 0x1f83d9ab, 0x5be0cd19⟩

def nextWord : List Nat → Nat
  | [w0, w1, _, _, _, _, _, _, _, w9, _, _, _, _, w14, _] =>
      (smallSigma1 w14 + w9 + smallSigma0 w1 + w0) % word
  | _ => 0

def round (state : State) (constant scheduled : Nat) : State :=
  let first := state.h + bigSigma1 state.e + choose state.e state.f state.g + constant + scheduled
  let second := bigSigma0 state.a + majority state.a state.b state.c
  ⟨(first + second) % word, state.a, state.b, state.c, (state.d + first) % word,
    state.e, state.f, state.g⟩

/-- One round per constant; `window` holds the next sixteen schedule words. -/
def rounds (state : State) (window : List Nat) : List Nat → State
  | [] => state
  | constant :: rest =>
      rounds (round state constant (window.headD 0)) (window.tail ++ [nextWord window]) rest

def addStates (left right : State) : State :=
  ⟨(left.a + right.a) % word, (left.b + right.b) % word, (left.c + right.c) % word,
    (left.d + right.d) % word, (left.e + right.e) % word, (left.f + right.f) % word,
    (left.g + right.g) % word, (left.h + right.h) % word⟩

def compress (state : State) (block : List Nat) : State :=
  addStates state (rounds state block roundConstants)

def utf8Char (character : Char) : List Nat :=
  let code := character.toNat
  if code < 0x80 then [code]
  else if code < 0x800 then [0xc0 + code / 64, 0x80 + code % 64]
  else if code < 0x10000 then [0xe0 + code / 4096, 0x80 + code / 64 % 64, 0x80 + code % 64]
  else [0xf0 + code / 262144, 0x80 + code / 4096 % 64, 0x80 + code / 64 % 64, 0x80 + code % 64]

def utf8 (text : String) : List Nat := text.toList.flatMap utf8Char

def bigEndian (value : Nat) : Nat → List Nat
  | 0 => []
  | width + 1 => value / 256 ^ width % 256 :: bigEndian value width

def padded (bytes : List Nat) : List Nat :=
  let zeros := (119 - bytes.length % 64) % 64
  bytes ++ 0x80 :: List.replicate zeros 0 ++ bigEndian (bytes.length * 8) 8

def toWords : List Nat → List Nat
  | a :: b :: c :: d :: rest => (((a * 256 + b) * 256 + c) * 256 + d) :: toWords rest
  | _ => []

/-- Fold the compression over the blocks of sixteen words, at most `fuel` of them. -/
def foldBlocks (state : State) (words : List Nat) : Nat → State
  | 0 => state
  | fuel + 1 =>
      if words.isEmpty then state
      else foldBlocks (compress state (words.take 16)) (words.drop 16) fuel

def hexText (value width : Nat) : List Char :=
  match width with
  | 0 => []
  | digits + 1 =>
      let digit := value / 16 ^ digits % 16
      (if digit < 10 then Char.ofNat (48 + digit) else Char.ofNat (87 + digit)) ::
        hexText value digits

def hexdigest (text : String) : String :=
  let words := toWords (padded (utf8 text))
  let final := foldBlocks initial words (words.length / 16)
  String.ofList ([final.a, final.b, final.c, final.d, final.e, final.f, final.g, final.h].flatMap
    fun value => hexText value 8)

end Ftre.Lib.Sha256
