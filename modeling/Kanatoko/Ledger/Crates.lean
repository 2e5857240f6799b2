import Kanatoko.Ledger.Xdr
import Kanatoko.Lib.Fallible

/-!
# The third-party crates

The program takes XDR, base64 and SHA-256 from other crates. They are parameters of the
model: `Crates` holds the functions, and `LawfulCrates` what the program relies on.
-/

namespace Kanatoko

class Crates where
  /-- `LedgerKey::to_xdr` with `Limits::none()`. -/
  ledgerKeyToXdr : LedgerKey → Option Bytes
  /-- `LedgerKey::from_xdr` with `Limits::none()`. -/
  ledgerKeyFromXdr : Bytes → Option LedgerKey
  /-- `LedgerEntry::to_xdr` with `Limits::none()`. -/
  ledgerEntryToXdr : LedgerEntry → Option Bytes
  /-- `Sha256::digest`. -/
  sha256 : Bytes → Hash
  /-- `BASE64.encode` and `BASE64.decode`, the standard alphabet with padding. -/
  base64Encode : Bytes → String
  base64Decode : String → Option Bytes

export Crates (ledgerKeyToXdr ledgerKeyFromXdr ledgerEntryToXdr sha256 base64Encode base64Decode)

/-- The codecs invert themselves on their images. -/
class LawfulCrates [Crates] : Prop where
  ledgerKeyFromXdr_toXdr : ∀ {key : LedgerKey} {xdr : Bytes},
    ledgerKeyToXdr key = some xdr → ledgerKeyFromXdr xdr = some key
  base64Decode_encode : ∀ bytes : Bytes, base64Decode (base64Encode bytes) = some bytes

variable [Crates]

/-- Two keys with one encoding are one key. -/
theorem ledgerKeyToXdr_inj [LawfulCrates] {a b : LedgerKey} {xdr : Bytes}
    (ha : ledgerKeyToXdr a = some xdr) (hb : ledgerKeyToXdr b = some xdr) : a = b := by
  have h := LawfulCrates.ledgerKeyFromXdr_toXdr ha
  rw [LawfulCrates.ledgerKeyFromXdr_toXdr hb] at h
  exact (Option.some.inj h).symm

/-! ## Bytes -/

/-- The UTF-8 bytes of a string: `str::as_bytes`. -/
def asBytes (s : String) : Bytes := s.toUTF8.data.toList

/-- The lowest `width` bytes of a number, most significant first: `to_be_bytes`. -/
def toBeBytes : Nat → Nat → Bytes
  | 0, _ => []
  | width + 1, n => UInt8.ofNat (n / 256 ^ width) :: toBeBytes width n

/-- The two lower-case digits of a byte, as `{:02x}` writes them. -/
def hexByte (byte : UInt8) : List Char :=
  [Nat.digitChar (byte.toNat / 16), Nat.digitChar (byte.toNat % 16)]

def hex (bytes : Bytes) : String := String.ofList (bytes.flatMap hexByte)

omit [Crates] in
theorem length_flatMap_hexByte (bytes : Bytes) :
    (bytes.flatMap hexByte).length = 2 * bytes.length := by
  induction bytes with
  | nil => rfl
  | cons byte bytes ih =>
    rw [List.flatMap_cons, List.length_append, ih, hexByte, List.length_cons, List.length_cons,
      List.length_cons, List.length_nil]
    omega

end Kanatoko
