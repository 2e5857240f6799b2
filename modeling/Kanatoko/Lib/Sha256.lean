import Kanatoko.Lib.Chunks
import Mathlib.Algebra.Group.Nat.Defs

/-!
# SHA-256

The digest of FIPS 180-4, on words that are natural numbers below `2 ^ 32`, so that the
digest of a given message can be evaluated.
-/

namespace Sha256

abbrev Word := Nat

def word (n : Nat) : Word := n % 2 ^ 32

def rotr (n : Nat) (x : Word) : Word := word (x >>> n ||| x <<< (32 - n))

def ch (x y z : Word) : Word := (x &&& y) ^^^ ((2 ^ 32 - 1 - x) &&& z)
def maj (x y z : Word) : Word := (x &&& y) ^^^ (x &&& z) ^^^ (y &&& z)
def bigSigma0 (x : Word) : Word := rotr 2 x ^^^ rotr 13 x ^^^ rotr 22 x
def bigSigma1 (x : Word) : Word := rotr 6 x ^^^ rotr 11 x ^^^ rotr 25 x
def smallSigma0 (x : Word) : Word := rotr 7 x ^^^ rotr 18 x ^^^ x >>> 3
def smallSigma1 (x : Word) : Word := rotr 17 x ^^^ rotr 19 x ^^^ x >>> 10

/-- The fractional parts of the cube roots of the first 64 primes. -/
def roundConstants : List Word :=
  [0x428a2f98, 0x71374491, 0xb5c0fbcf, 0xe9b5dba5, 0x3956c25b, 0x59f111f1,
   0x923f82a4, 0xab1c5ed5, 0xd807aa98, 0x12835b01, 0x243185be, 0x550c7dc3,
   0x72be5d74, 0x80deb1fe, 0x9bdc06a7, 0xc19bf174, 0xe49b69c1, 0xefbe4786,
   0x0fc19dc6, 0x240ca1cc, 0x2de92c6f, 0x4a7484aa, 0x5cb0a9dc, 0x76f988da,
   0x983e5152, 0xa831c66d, 0xb00327c8, 0xbf597fc7, 0xc6e00bf3, 0xd5a79147,
   0x06ca6351, 0x14292967, 0x27b70a85, 0x2e1b2138, 0x4d2c6dfc, 0x53380d13,
   0x650a7354, 0x766a0abb, 0x81c2c92e, 0x92722c85, 0xa2bfe8a1, 0xa81a664b,
   0xc24b8b70, 0xc76c51a3, 0xd192e819, 0xd6990624, 0xf40e3585, 0x106aa070,
   0x19a4c116, 0x1e376c08, 0x2748774c, 0x34b0bcb5, 0x391c0cb3, 0x4ed8aa4a,
   0x5b9cca4f, 0x682e6ff3, 0x748f82ee, 0x78a5636f, 0x84c87814, 0x8cc70208,
   0x90befffa, 0xa4506ceb, 0xbef9a3f7, 0xc67178f2]

/-- The eight words of a digest under way. -/
structure State where
  a : Word
  b : Word
  c : Word
  d : Word
  e : Word
  f : Word
  g : Word
  h : Word

/-- The fractional parts of the square roots of the first eight primes. -/
def initial : State :=
  ⟨0x6a09e667, 0xbb67ae85, 0x3c6ef372, 0xa54ff53a,
    0x510e527f, 0x9b05688c, 0x1f83d9ab, 0x5be0cd19⟩

/-- One round, with the schedule word `w` and the round constant `k`. -/
def round (s : State) (w k : Word) : State :=
  let t₁ := s.h + bigSigma1 s.e + ch s.e s.f s.g + k + w
  let t₂ := bigSigma0 s.a + maj s.a s.b s.c
  ⟨word (t₁ + t₂), s.a, s.b, s.c, word (s.d + t₁), s.e, s.f, s.g⟩

/-- The next word of the schedule, from the sixteen before it. -/
def scheduled (window : List Word) : Word :=
  word (smallSigma1 (window.getD 14 0) + window.getD 9 0 + smallSigma0 (window.getD 1 0)
    + window.getD 0 0)

/-- The rounds that are left. The window holds the schedule words of the next sixteen. -/
def rounds : List Word → List Word → State → State
  | [], _, s => s
  | k :: ks, window, s =>
    rounds ks (window.tail ++ [scheduled window]) (round s (window.headD 0) k)

def State.add (s t : State) : State :=
  ⟨word (s.a + t.a), word (s.b + t.b), word (s.c + t.c), word (s.d + t.d), word (s.e + t.e),
    word (s.f + t.f), word (s.g + t.g), word (s.h + t.h)⟩

def compress (s : State) (block : List Word) : State :=
  s.add (rounds roundConstants block s)

/-- A big-endian word. -/
def ofBytes (bytes : List UInt8) : Word := bytes.foldl (fun n byte => 256 * n + byte.toNat) 0

/-- The bytes of a word, most significant first. -/
def toBytes (x : Word) : List UInt8 :=
  [UInt8.ofNat (x / 2 ^ 24), UInt8.ofNat (x / 2 ^ 16), UInt8.ofNat (x / 2 ^ 8), UInt8.ofNat x]

/-- The message, a one bit, zeros, and the length of the message in bits. -/
def padded (message : List UInt8) : List UInt8 :=
  let length := 8 * message.length
  message ++ 0x80 :: List.replicate ((119 - message.length % 64) % 64) 0
    ++ toBytes (length / 2 ^ 32) ++ toBytes (word length)

def State.toBytes (s : State) : List UInt8 :=
  Sha256.toBytes s.a ++ Sha256.toBytes s.b ++ Sha256.toBytes s.c ++ Sha256.toBytes s.d
    ++ Sha256.toBytes s.e ++ Sha256.toBytes s.f ++ Sha256.toBytes s.g ++ Sha256.toBytes s.h

def blocks (message : List UInt8) : List (List Word) :=
  Chunks.chunks 16 ((Chunks.chunks 4 (padded message)).map ofBytes)

def digest (message : List UInt8) : Vector UInt8 32 :=
  ⟨((blocks message).foldl compress initial).toBytes.toArray, rfl⟩

/-- The digest of the three letters `abc`. -/
example : (digest [0x61, 0x62, 0x63]).toList =
    [0xba, 0x78, 0x16, 0xbf, 0x8f, 0x01, 0xcf, 0xea, 0x41, 0x41, 0x40, 0xde, 0x5d, 0xae, 0x22,
      0x23, 0xb0, 0x03, 0x61, 0xa3, 0x96, 0x17, 0x7a, 0x9c, 0xb4, 0x10, 0xff, 0x61, 0xf2, 0x00,
      0x15, 0xad] := by
  decide +kernel

end Sha256
