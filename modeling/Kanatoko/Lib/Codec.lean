import Mathlib.Tactic.Common

/-!
# Codecs that read back what they write

A codec writes a value as bytes and reads it back from the front of a byte string, whatever
follows. The law travels with the codec, so codecs built from codecs need no proof of it.
-/

structure Codec (α : Type) where
  encode : α → Option (List UInt8)
  decode : List UInt8 → Option (α × List UInt8)
  decode_append : ∀ {a : α} {bytes : List UInt8}, encode a = some bytes →
    ∀ rest, decode (bytes ++ rest) = some (a, rest)

namespace Codec

variable {α β : Type}

/-- Writes nothing at all. -/
def never : Codec α := ⟨fun _ => none, fun _ => none, fun h => by cases h⟩

/-- Fixed bytes in front of a value. -/
def behind (tag : List UInt8) (c : Codec α) : Codec α where
  encode a := (c.encode a).map (tag ++ ·)
  decode bytes := if tag.isPrefixOf bytes then c.decode (bytes.drop tag.length) else none
  decode_append := by
    intro a bytes h rest
    obtain ⟨body, hbody, rfl⟩ := Option.map_eq_some_iff.mp h
    rw [if_pos (List.isPrefixOf_iff_prefix.mpr ⟨body ++ rest, by simp⟩), List.append_assoc,
      List.drop_left, c.decode_append hbody]

/-- A single value that takes no bytes. -/
def unit : Codec Unit where
  encode _ := some []
  decode bytes := some ((), bytes)
  decode_append := by
    intro _ bytes h rest
    cases h
    rfl

/-- Exactly `n` bytes. -/
def fixed (n : Nat) : Codec (Vector UInt8 n) where
  encode v := some v.toList
  decode bytes :=
    if h : (bytes.take n).length = n then some (⟨(bytes.take n).toArray, h⟩, bytes.drop n) else none
  decode_append := by
    intro v bytes h rest
    cases h
    have hlen : v.toList.length = n := Vector.length_toList
    have htake : (v.toList ++ rest).take n = v.toList := List.take_left' hlen
    rw [dif_pos (by rw [htake, hlen])]
    refine congrArg some (Prod.ext (Vector.toList_inj.mp ?_) (List.drop_left' hlen))
    exact htake

/-- One value behind the other. -/
def pair (c : Codec α) (d : Codec β) : Codec (α × β) where
  encode p := (c.encode p.1).bind fun first => (d.encode p.2).map (first ++ ·)
  decode bytes := (c.decode bytes).bind fun (a, rest) => (d.decode rest).map fun (b, rest) =>
    ((a, b), rest)
  decode_append := by
    intro p bytes h rest
    obtain ⟨first, hfirst, h₁⟩ := Option.bind_eq_some_iff.mp h
    obtain ⟨second, hsecond, rfl⟩ := Option.map_eq_some_iff.mp h₁
    rw [List.append_assoc, c.decode_append hfirst]
    simp only [Option.bind_some, d.decode_append hsecond, Option.map_some]

/-- The values of `β` that come from a value of `α`. -/
def map (f : α → β) (g : β → Option α) (h : ∀ {b a}, g b = some a → f a = b) (c : Codec α) :
    Codec β where
  encode b := (g b).bind c.encode
  decode bytes := (c.decode bytes).map fun (a, rest) => (f a, rest)
  decode_append := by
    intro b bytes henc rest
    obtain ⟨a, ha, hbytes⟩ := Option.bind_eq_some_iff.mp henc
    rw [c.decode_append hbytes]
    simp only [Option.map_some, h ha]

/-- A value behind the number of its case, as XDR unions are written. -/
def union (tagOf : α → UInt8) (body : UInt8 → Codec α) : Codec α where
  encode a := ((body (tagOf a)).encode a).map ([0, 0, 0, tagOf a] ++ ·)
  decode
    | 0 :: 0 :: 0 :: tag :: rest => (body tag).decode rest
    | _ => none
  decode_append := by
    intro a bytes h rest
    obtain ⟨body', hbody, rfl⟩ := Option.map_eq_some_iff.mp h
    exact (body (tagOf a)).decode_append hbody rest

/-- Reads a value that takes up all the bytes. -/
def decodeAll (c : Codec α) (bytes : List UInt8) : Option α :=
  match c.decode bytes with
  | some (a, []) => some a
  | _ => none

theorem decodeAll_encode (c : Codec α) {a : α} {bytes : List UInt8} (h : c.encode a = some bytes) :
    c.decodeAll bytes = some a := by
  have hdecode := c.decode_append h []
  rw [List.append_nil] at hdecode
  rw [decodeAll, hdecode]

end Codec
