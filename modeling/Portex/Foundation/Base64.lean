import Mathlib.Data.List.Basic
import Mathlib.Tactic.Common

/-!
# Base64

Three bytes are four characters of 64; the last group of an encoding can be shorter, and is filled
up with `'='`. The decoder is the lenient one: it goes over characters that are not in the
alphabet, and stops at the padding of a group.

## Main definitions

* `Base64`: an alphabet, and the characters that are read as one of its
* `Base64.encode`, `Base64.encodePadded`: the encodings
* `Base64.decode`: the decoder

## Main results

* `Base64.decode_encodePadded`: decoding undoes encoding
* `Base64.encode_injective`: different bytes have different encodings
-/

namespace Foundation

/-- An alphabet of 64 characters. -/
structure Base64 where
  char : ℕ → Char
  value : Char → Option ℕ
  value_char : ∀ n < 64, value (char n) = some n
  char_ne_pad : ∀ n < 64, char n ≠ '='

namespace Base64

variable (b : Base64)

/-- The groups of six bits of some bytes, the last of which is filled up with zeros. -/
def sextets : List UInt8 → List ℕ
  | [] => []
  | [x] => [x.toNat / 4, x.toNat % 4 * 16]
  | [x, y] => [x.toNat / 4, x.toNat % 4 * 16 + y.toNat / 16, y.toNat % 16 * 4]
  | x :: y :: z :: bytes =>
    x.toNat / 4 :: (x.toNat % 4 * 16 + y.toNat / 16) :: (y.toNat % 16 * 4 + z.toNat / 64) ::
      z.toNat % 64 :: sextets bytes

/-- The encoding without padding. -/
def encode (bytes : List UInt8) : List Char := (sextets bytes).map b.char

/-- The padding that a text of some length needs. -/
def padding (length : ℕ) : List Char := List.replicate ((4 - length % 4) % 4) '='

/-- The encoding with padding. -/
def encodePadded (bytes : List UInt8) : List Char :=
  b.encode bytes ++ padding (b.encode bytes).length

/-- The decoder, with the number of characters read of a group, the bits that are left of the last
of them, and the number of `'='` behind it. `none` is an error. -/
def decodeFrom : ℕ → ℕ → ℕ → List Char → Option (List UInt8)
  | quadPos, _, _, [] => if quadPos = 0 then some [] else none
  | quadPos, left, pads, ch :: text =>
    if ch = '=' then
      if 2 ≤ quadPos then
        -- A group that is filled up is the last one.
        if 4 ≤ quadPos + (pads + 1) then some [] else decodeFrom quadPos left (pads + 1) text
      else decodeFrom quadPos left pads text
    else
      match b.value ch with
      | none => decodeFrom quadPos left pads text
      | some n =>
        match quadPos with
        | 0 => decodeFrom 1 n 0 text
        | 1 => (decodeFrom 2 (n % 16) 0 text).map (UInt8.ofNat (left * 4 + n / 16) :: ·)
        | 2 => (decodeFrom 3 (n % 4) 0 text).map (UInt8.ofNat (left * 16 + n / 4) :: ·)
        | _ => (decodeFrom 0 0 0 text).map (UInt8.ofNat (left * 64 + n) :: ·)

/-- `binascii.a2b_base64(text)`. -/
def decode (text : List Char) : Option (List UInt8) := b.decodeFrom 0 0 0 text

variable {b} {bytes bytes' : List UInt8} {left pads : ℕ} {text : List Char}

/-! ## Encoding -/

theorem sextets_lt (bytes : List UInt8) : ∀ n ∈ sextets bytes, n < 64 := by
  induction bytes using sextets.induct with
  | case1 => simp [sextets]
  | case2 x =>
    have := x.toNat_lt
    simp only [sextets, List.mem_cons, List.not_mem_nil, or_false]
    omega
  | case3 x y =>
    have := x.toNat_lt
    have := y.toNat_lt
    simp only [sextets, List.mem_cons, List.not_mem_nil, or_false]
    omega
  | case4 x y z bytes ih =>
    have := x.toNat_lt
    have := y.toNat_lt
    have := z.toNat_lt
    intro n hn
    simp only [sextets, List.mem_cons] at hn
    rcases hn with rfl | rfl | rfl | rfl | hn
    · omega
    · omega
    · omega
    · omega
    · exact ih n hn

/-- No encoding has a `'='`, so that the padding can be taken off its end. -/
theorem ne_pad_of_mem_encode {ch : Char} (h : ch ∈ b.encode bytes) : ch ≠ '=' := by
  obtain ⟨n, hn, rfl⟩ := List.mem_map.mp h
  exact b.char_ne_pad n (sextets_lt bytes n hn)

/-! ## Decoding -/

section Char

variable {n : ℕ} (hn : n < 64)

include hn

theorem decodeFrom_first :
    b.decodeFrom 0 left pads (b.char n :: text) = b.decodeFrom 1 n 0 text := by
  rw [decodeFrom, if_neg (b.char_ne_pad n hn), b.value_char n hn]
  rfl

theorem decodeFrom_second : b.decodeFrom 1 left pads (b.char n :: text) =
    (b.decodeFrom 2 (n % 16) 0 text).map (UInt8.ofNat (left * 4 + n / 16) :: ·) := by
  rw [decodeFrom, if_neg (b.char_ne_pad n hn), b.value_char n hn]
  rfl

theorem decodeFrom_third : b.decodeFrom 2 left pads (b.char n :: text) =
    (b.decodeFrom 3 (n % 4) 0 text).map (UInt8.ofNat (left * 16 + n / 4) :: ·) := by
  rw [decodeFrom, if_neg (b.char_ne_pad n hn), b.value_char n hn]
  rfl

theorem decodeFrom_fourth : b.decodeFrom 3 left pads (b.char n :: text) =
    (b.decodeFrom 0 0 0 text).map (UInt8.ofNat (left * 64 + n) :: ·) := by
  rw [decodeFrom, if_neg (b.char_ne_pad n hn), b.value_char n hn]
  rfl

end Char

theorem ofNat_eq (x : UInt8) {n : ℕ} (h : n = x.toNat) : UInt8.ofNat n = x := by
  rw [h, UInt8.ofNat_toNat]

theorem length_sextets_add (x y z : UInt8) (bytes : List UInt8) :
    (sextets (x :: y :: z :: bytes)).length % 4 = (sextets bytes).length % 4 := by
  simp only [sextets, List.length_cons]
  omega

/-- **Decoding undoes encoding.** -/
theorem decode_encodePadded (b : Base64) (bytes : List UInt8) :
    b.decode (b.encodePadded bytes) = some bytes := by
  unfold decode encodePadded encode padding
  rw [List.length_map]
  -- The groups are read one after the other, and the last of them with its padding.
  induction bytes using sextets.induct with
  | case1 => rfl
  | case2 x =>
    have := x.toNat_lt
    simp only [sextets, List.map_cons, List.map_nil, List.length_cons, List.length_nil,
      List.cons_append, List.nil_append]
    rw [decodeFrom_first (by omega), decodeFrom_second (by omega), ofNat_eq x (by omega)]
    rfl
  | case3 x y =>
    have := x.toNat_lt
    have := y.toNat_lt
    simp only [sextets, List.map_cons, List.map_nil, List.length_cons, List.length_nil,
      List.cons_append, List.nil_append]
    rw [decodeFrom_first (by omega), decodeFrom_second (by omega), decodeFrom_third (by omega),
      ofNat_eq x (by omega), ofNat_eq y (by omega)]
    rfl
  | case4 x y z bytes ih =>
    have := x.toNat_lt
    have := y.toNat_lt
    have := z.toNat_lt
    rw [length_sextets_add]
    simp only [sextets, List.map_cons, List.cons_append]
    rw [decodeFrom_first (by omega), decodeFrom_second (by omega), decodeFrom_third (by omega),
      decodeFrom_fourth (by omega), ih, ofNat_eq x (by omega), ofNat_eq y (by omega),
      ofNat_eq z (by omega)]
    rfl

/-- **Different bytes** have different encodings, with or without padding. -/
theorem encode_injective (b : Base64) : Function.Injective b.encode := by
  intro bytes bytes' h
  have hpadded : b.encodePadded bytes = b.encodePadded bytes' := by
    rw [encodePadded, encodePadded, h]
  have hdecoded := b.decode_encodePadded bytes
  rw [hpadded, decode_encodePadded] at hdecoded
  exact (Option.some.inj hdecoded).symm

end Base64

end Foundation
