/-!
# CodeAtlas.Fingerprint

Digests of file contents by SHA-256, in hexadecimal.

1. the message is followed by a bit one, as few zeros as fill a block, and its length
   in bits;
2. each block of 64 bytes is spread to 64 words and mixed into the eight words of the
   state in 64 rounds;
3. two contents with one digest are taken for the same content.
-/

namespace CodeAtlas.Fingerprint

/-! ## Constants -/

/-- One word per round. -/
def roundWords : Array UInt32 := #[
  0x428a2f98, 0x71374491, 0xb5c0fbcf, 0xe9b5dba5, 0x3956c25b, 0x59f111f1, 0x923f82a4, 0xab1c5ed5,
  0xd807aa98, 0x12835b01, 0x243185be, 0x550c7dc3, 0x72be5d74, 0x80deb1fe, 0x9bdc06a7, 0xc19bf174,
  0xe49b69c1, 0xefbe4786, 0x0fc19dc6, 0x240ca1cc, 0x2de92c6f, 0x4a7484aa, 0x5cb0a9dc, 0x76f988da,
  0x983e5152, 0xa831c66d, 0xb00327c8, 0xbf597fc7, 0xc6e00bf3, 0xd5a79147, 0x06ca6351, 0x14292967,
  0x27b70a85, 0x2e1b2138, 0x4d2c6dfc, 0x53380d13, 0x650a7354, 0x766a0abb, 0x81c2c92e, 0x92722c85,
  0xa2bfe8a1, 0xa81a664b, 0xc24b8b70, 0xc76c51a3, 0xd192e819, 0xd6990624, 0xf40e3585, 0x106aa070,
  0x19a4c116, 0x1e376c08, 0x2748774c, 0x34b0bcb5, 0x391c0cb3, 0x4ed8aa4a, 0x5b9cca4f, 0x682e6ff3,
  0x748f82ee, 0x78a5636f, 0x84c87814, 0x8cc70208, 0x90befffa, 0xa4506ceb, 0xbef9a3f7, 0xc67178f2]

/-! ## Padding -/

/-- A number as eight bytes, highest first. -/
def lengthBytes (n : Nat) : List UInt8 :=
  (List.range 8).map fun i => (n / Nat.pow 256 (7 - i)).toUInt8

/-- What follows a message of some number of bytes. -/
def padding (size : Nat) : List UInt8 :=
  0x80 :: List.replicate ((119 - size % 64) % 64) 0 ++ lengthBytes (8 * size)

/-! ## Rounds -/

def rotate (x : UInt32) (n : UInt32) : UInt32 := (x >>> n) ||| (x <<< (32 - n))

/-- The word after the words spread so far. -/
def nextWord (w : Array UInt32) : UInt32 :=
  let i := w.size
  let a := w.getD (i - 15) 0
  let b := w.getD (i - 2) 0
  w.getD (i - 16) 0 + (rotate a 7 ^^^ rotate a 18 ^^^ (a >>> 3)) + w.getD (i - 7) 0 +
    (rotate b 17 ^^^ rotate b 19 ^^^ (b >>> 10))

/-- The words of a block and the words that they spread to. -/
def spread (block : Array UInt32) : Array UInt32 :=
  (List.range 48).foldl (fun w _ => w.push (nextWord w)) block

/-- The eight words that are mixed. -/
structure State where
  a : UInt32
  b : UInt32
  c : UInt32
  d : UInt32
  e : UInt32
  f : UInt32
  g : UInt32
  h : UInt32

/-- One round. -/
def round (s : State) (k w : UInt32) : State :=
  let choice := (s.e &&& s.f) ^^^ ((~~~ s.e) &&& s.g)
  let majority := (s.a &&& s.b) ^^^ (s.a &&& s.c) ^^^ (s.b &&& s.c)
  let t := s.h + (rotate s.e 6 ^^^ rotate s.e 11 ^^^ rotate s.e 25) + choice + k + w
  let u := (rotate s.a 2 ^^^ rotate s.a 13 ^^^ rotate s.a 22) + majority
  ⟨t + u, s.a, s.b, s.c, s.d + t, s.e, s.f, s.g⟩

def State.add (s t : State) : State :=
  ⟨s.a + t.a, s.b + t.b, s.c + t.c, s.d + t.d, s.e + t.e, s.f + t.f, s.g + t.g, s.h + t.h⟩

/-- Mixes a block into the state. -/
def mix (s : State) (block : Array UInt32) : State :=
  let w := spread block
  s.add ((List.range 64).foldl (fun s i => round s (roundWords.getD i 0) (w.getD i 0)) s)

/-! ## Digests -/

/-- The word of four bytes from a place on. -/
def wordAt (bytes : ByteArray) (i : Nat) : UInt32 :=
  let byte (j : Nat) : UInt32 := (bytes.data.getD (i + j) 0).toUInt32
  (byte 0 <<< 24) ||| (byte 1 <<< 16) ||| (byte 2 <<< 8) ||| byte 3

/-- The block that starts at a place. -/
def blockAt (bytes : ByteArray) (i : Nat) : Array UInt32 :=
  ((List.range 16).map fun j => wordAt bytes (i + 4 * j)).toArray

def State.words (s : State) : List UInt32 := [s.a, s.b, s.c, s.d, s.e, s.f, s.g, s.h]

def State.initial : State := ⟨0x6a09e667, 0xbb67ae85, 0x3c6ef372, 0xa54ff53a, 0x510e527f,
  0x9b05688c, 0x1f83d9ab, 0x5be0cd19⟩

/-- The state after all blocks. -/
def digest (content : ByteArray) : State :=
  let bytes := (padding content.size).foldl ByteArray.push content
  (List.range (bytes.size / 64)).foldl (fun s i => mix s (blockAt bytes (64 * i))) .initial

/-- A word as eight hexadecimal digits. -/
def hexWord (w : UInt32) : List Char :=
  (List.range 8).map fun i => Nat.digitChar (w.toNat / Nat.pow 16 (7 - i) % 16)

end CodeAtlas.Fingerprint

namespace CodeAtlas

/-- The digest of a content, as it is written. -/
def fingerprint (content : ByteArray) : String :=
  String.ofList ((Fingerprint.digest content).words.flatMap Fingerprint.hexWord)

end CodeAtlas
