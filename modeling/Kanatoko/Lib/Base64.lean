import Mathlib.Tactic.Common

/-!
# Base64

The standard alphabet with padding. Decoding is strict, as the `STANDARD` engine is: padding
must be there, and the bits it fills up must be zero.
-/

namespace Base64

def alphabet : List Char :=
  "ABCDEFGHIJKLMNOPQRSTUVWXYZabcdefghijklmnopqrstuvwxyz0123456789+/".toList

def digit (n : Nat) : Char := alphabet.getD n '='

def value (c : Char) : Option Nat := alphabet.idxOf? c

def encodeChars : List UInt8 → List Char
  | a :: b :: c :: rest =>
    digit (a.toNat / 4) :: digit (a.toNat % 4 * 16 + b.toNat / 16)
      :: digit (b.toNat % 16 * 4 + c.toNat / 64) :: digit (c.toNat % 64) :: encodeChars rest
  | [a, b] =>
    [digit (a.toNat / 4), digit (a.toNat % 4 * 16 + b.toNat / 16), digit (b.toNat % 16 * 4), '=']
  | [a] => [digit (a.toNat / 4), digit (a.toNat % 4 * 16), '=', '=']
  | [] => []

/-- The three bytes of four digits. -/
def decodeQuad (w x y z : Char) : Option (List UInt8) := do
  let w ← value w
  let x ← value x
  let y ← value y
  let z ← value z
  pure [UInt8.ofNat (w * 4 + x / 16), UInt8.ofNat (x % 16 * 16 + y / 4),
    UInt8.ofNat (y % 4 * 64 + z)]

/-- The one or two bytes in front of the padding. -/
def decodeTail (w x y : Char) : Option (List UInt8) := do
  let w ← value w
  let x ← value x
  if y = '=' then
    if x % 16 = 0 then pure [UInt8.ofNat (w * 4 + x / 16)] else none
  else do
    let y ← value y
    if y % 4 = 0 then
      pure [UInt8.ofNat (w * 4 + x / 16), UInt8.ofNat (x % 16 * 16 + y / 4)]
    else none

def decodeChars : List Char → Option (List UInt8)
  | [] => some []
  | w :: x :: y :: z :: rest =>
    if z = '=' then if rest = [] then decodeTail w x y else none
    else do
      let bytes ← decodeQuad w x y z
      let more ← decodeChars rest
      pure (bytes ++ more)
  | _ => none

def encode (bytes : List UInt8) : String := String.ofList (encodeChars bytes)

def decode (encoded : String) : Option (List UInt8) := decodeChars encoded.toList

/-! ## Decoding inverts encoding -/

theorem value_digit {n : Nat} (h : n < 64) : value (digit n) = some n := by
  have hall : ∀ n : Fin 64, value (digit n) = some n.val := by decide +kernel
  exact hall ⟨n, h⟩

theorem digit_ne_padding {n : Nat} (h : n < 64) : digit n ≠ '=' := by
  have hall : ∀ n : Fin 64, digit n ≠ '=' := by decide +kernel
  exact hall ⟨n, h⟩

theorem ofNat_eq {n : Nat} {byte : UInt8} (h : n = byte.toNat) : UInt8.ofNat n = byte := by
  rw [h, UInt8.ofNat_toNat]

theorem decodeQuad_digits (a b c : UInt8) :
    decodeQuad (digit (a.toNat / 4)) (digit (a.toNat % 4 * 16 + b.toNat / 16))
      (digit (b.toNat % 16 * 4 + c.toNat / 64)) (digit (c.toNat % 64)) = some [a, b, c] := by
  have ha := a.toNat_lt
  have hb := b.toNat_lt
  have hc := c.toNat_lt
  unfold decodeQuad
  rw [value_digit (by omega), value_digit (by omega), value_digit (by omega),
    value_digit (by omega)]
  show some [UInt8.ofNat _, UInt8.ofNat _, UInt8.ofNat _] = _
  rw [ofNat_eq (show _ = a.toNat by omega), ofNat_eq (show _ = b.toNat by omega),
    ofNat_eq (show _ = c.toNat by omega)]

theorem decodeTail_one (a : UInt8) :
    decodeTail (digit (a.toNat / 4)) (digit (a.toNat % 4 * 16)) '=' = some [a] := by
  have ha := a.toNat_lt
  unfold decodeTail
  rw [value_digit (by omega), value_digit (by omega)]
  simp only [Option.bind_eq_bind, Option.bind_some]
  rw [if_pos trivial, if_pos (by omega), ofNat_eq (show _ = a.toNat by omega)]
  rfl

theorem decodeTail_two (a b : UInt8) :
    decodeTail (digit (a.toNat / 4)) (digit (a.toNat % 4 * 16 + b.toNat / 16))
      (digit (b.toNat % 16 * 4)) = some [a, b] := by
  have ha := a.toNat_lt
  have hb := b.toNat_lt
  unfold decodeTail
  rw [value_digit (by omega), value_digit (by omega), value_digit (by omega)]
  simp only [Option.bind_eq_bind, Option.bind_some]
  rw [if_neg (digit_ne_padding (by omega)), if_pos (by omega),
    ofNat_eq (show _ = a.toNat by omega), ofNat_eq (show _ = b.toNat by omega)]
  rfl

theorem decodeChars_encodeChars (bytes : List UInt8) :
    decodeChars (encodeChars bytes) = some bytes := by
  induction bytes using encodeChars.induct with
  | case1 a b c rest ih =>
    have hc := c.toNat_lt
    rw [encodeChars, decodeChars, if_neg (digit_ne_padding (by omega)), decodeQuad_digits, ih]
    rfl
  | case2 a b =>
    rw [encodeChars, decodeChars, if_pos rfl, if_pos rfl, decodeTail_two]
  | case3 a =>
    rw [encodeChars, decodeChars, if_pos rfl, if_pos rfl, decodeTail_one]
  | case4 => rfl

/-- **Every byte string reads back from its base64.** -/
theorem decode_encode (bytes : List UInt8) : decode (encode bytes) = some bytes := by
  rw [decode, encode, String.toList_ofList, decodeChars_encodeChars]

end Base64
