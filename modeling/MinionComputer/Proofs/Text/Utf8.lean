/-
# Texts that were encoded are decoded

A character is encoded as one byte to four.  The first of them says how many follow, and the decoder
holds the bits that it has read until the last one is there.  The bounds that the first byte sets for
the second are kept by every character, since it is neither a surrogate nor past the last code
point, and is never written longer than need be.

* `decodeFrom_whole`, `decodeFrom_part`, `decodeFrom_more`, `decodeFrom_last`: one byte;
* `decodeFrom_character`: the bytes of one character;
* `decode_encode`: a whole text.
-/
import MinionComputer.Text.Utf8

namespace MinionComputer
namespace Text
namespace Utf8

variable {b : UInt8} {r : List UInt8} {u : Unfinished} {c : Char} {pos : Nat}

/-! ## 1. One byte -/

theorem decodeFrom_whole (h : Opening.ofByte b = .whole c) :
    decodeFrom pos none (b :: r) =
      (decodeFrom (pos + 1) none r).map fun x => (c :: x.1, x.2) := by
  simp only [decodeFrom, h]

theorem decodeFrom_part (h : Opening.ofByte b = .part u) :
    decodeFrom pos none (b :: r) = decodeFrom (pos + 1) (some u) r := by
  simp only [decodeFrom, h]

/-- A byte between the bounds that is not the last one. -/
theorem decodeFrom_more (hlow : u.low ≤ b.toNat) (hhigh : b.toNat ≤ u.high) (howed : u.owed ≠ 1) :
    decodeFrom pos (some u) (b :: r) =
      decodeFrom (pos + 1)
        (some ⟨u.taken ++ [b], u.owed - 1, 0x80, 0xBF, u.bits * 64 + (b.toNat - 0x80)⟩) r := by
  simp only [decodeFrom, if_pos (And.intro hlow hhigh), if_neg howed]

/-- The last byte of a character completes its bits. -/
theorem decodeFrom_last (hlow : u.low ≤ b.toNat) (hhigh : b.toNat ≤ u.high) (howed : u.owed = 1)
    (hbits : u.bits * 64 + (b.toNat - 0x80) = c.toNat) :
    decodeFrom pos (some u) (b :: r) =
      (decodeFrom (pos + 1) none r).map fun x => (c :: x.1, x.2) := by
  simp only [decodeFrom, if_pos (And.intro hlow hhigh), if_pos howed, hbits, Char.ofNat_toNat]

namespace Opening

theorem ofByte_one (h : b.toNat < 0x80) : ofByte b = .whole (Char.ofNat b.toNat) := by
  unfold ofByte
  exact if_pos h

theorem ofByte_two (hlow : 0xC2 ≤ b.toNat) (hhigh : b.toNat < 0xE0) :
    ofByte b = .part ⟨[b], 1, 0x80, 0xBF, b.toNat - 0xC0⟩ := by
  unfold ofByte
  dsimp only
  rw [if_neg (by omega), if_neg (by omega), if_pos hhigh]

theorem ofByte_three (hlow : 0xE0 ≤ b.toNat) (hhigh : b.toNat < 0xF0) :
    ofByte b = .part ⟨[b], 2, if b.toNat = 0xE0 then 0xA0 else 0x80,
      if b.toNat = 0xED then 0x9F else 0xBF, b.toNat - 0xE0⟩ := by
  unfold ofByte
  dsimp only
  rw [if_neg (by omega), if_neg (by omega), if_neg (by omega), if_pos hhigh]

theorem ofByte_four (hlow : 0xF0 ≤ b.toNat) (hhigh : b.toNat < 0xF5) :
    ofByte b = .part ⟨[b], 3, if b.toNat = 0xF0 then 0x90 else 0x80,
      if b.toNat = 0xF4 then 0x8F else 0xBF, b.toNat - 0xF0⟩ := by
  unfold ofByte
  dsimp only
  rw [if_neg (by omega), if_neg (by omega), if_neg (by omega), if_neg (by omega), if_pos hhigh]

end Opening

/-! ## 2. One character -/

/-- A character is no surrogate and not past the last code point. -/
theorem toNat_valid (c : Char) : c.toNat < 0xD800 ∨ (0xDFFF < c.toNat ∧ c.toNat < 0x110000) :=
  c.valid

theorem toNat_byte {n : Nat} (h : n < 256) : (UInt8.ofNat n).toNat = n :=
  UInt8.toNat_ofNat_of_lt' h

/-- A byte that continues a character holds six bits. -/
theorem toNat_continuation (n : Nat) : (UInt8.ofNat (n % 64 + 128)).toNat = n % 64 + 128 :=
  toNat_byte (by omega)

theorem decodeFrom_oneByte (h : c.toNat ≤ 0x7F) :
    decodeFrom pos none (UInt8.ofNat c.toNat :: r) =
      (decodeFrom (pos + 1) none r).map fun x => (c :: x.1, x.2) := by
  have hfirst := toNat_byte (n := c.toNat) (by omega)
  refine decodeFrom_whole ?_
  rw [Opening.ofByte_one (by omega), hfirst, Char.ofNat_toNat]

theorem decodeFrom_twoBytes (hlow : 0x7F < c.toNat) (hhigh : c.toNat ≤ 0x7FF) :
    decodeFrom pos none
        (UInt8.ofNat (c.toNat / 64 % 32 + 192) :: UInt8.ofNat (c.toNat % 64 + 128) :: r) =
      (decodeFrom (pos + 2) none r).map fun x => (c :: x.1, x.2) := by
  have hfirst := toNat_byte (n := c.toNat / 64 % 32 + 192) (by omega)
  have hlast := toNat_continuation c.toNat
  rw [decodeFrom_part (Opening.ofByte_two (by omega) (by omega))]
  exact decodeFrom_last (by dsimp only; omega) (by dsimp only; omega) rfl (by dsimp only; omega)

/-- The bounds after the first byte keep out what takes only two bytes, and the surrogates. -/
theorem decodeFrom_threeBytes (hlow : 0x7FF < c.toNat) (hhigh : c.toNat ≤ 0xFFFF) :
    decodeFrom pos none
        (UInt8.ofNat (c.toNat / 4096 % 16 + 224) :: UInt8.ofNat (c.toNat / 64 % 64 + 128) ::
          UInt8.ofNat (c.toNat % 64 + 128) :: r) =
      (decodeFrom (pos + 3) none r).map fun x => (c :: x.1, x.2) := by
  have hvalid := toNat_valid c
  have hfirst := toNat_byte (n := c.toNat / 4096 % 16 + 224) (by omega)
  have hsecond := toNat_continuation (c.toNat / 64)
  have hlast := toNat_continuation c.toNat
  rw [decodeFrom_part (Opening.ofByte_three (by omega) (by omega)),
    decodeFrom_more (by dsimp only; split <;> omega) (by dsimp only; split <;> omega) (by simp)]
  exact decodeFrom_last (by dsimp only; omega) (by dsimp only; omega) rfl (by dsimp only; omega)

/-- The bounds after the first byte keep out what takes only three bytes, and what lies past the
last code point. -/
theorem decodeFrom_fourBytes (hlow : 0xFFFF < c.toNat) :
    decodeFrom pos none
        (UInt8.ofNat (c.toNat / 262144 % 8 + 240) :: UInt8.ofNat (c.toNat / 4096 % 64 + 128) ::
          UInt8.ofNat (c.toNat / 64 % 64 + 128) :: UInt8.ofNat (c.toNat % 64 + 128) :: r) =
      (decodeFrom (pos + 4) none r).map fun x => (c :: x.1, x.2) := by
  have hvalid := toNat_valid c
  have hfirst := toNat_byte (n := c.toNat / 262144 % 8 + 240) (by omega)
  have hsecond := toNat_continuation (c.toNat / 4096)
  have hthird := toNat_continuation (c.toNat / 64)
  have hlast := toNat_continuation c.toNat
  rw [decodeFrom_part (Opening.ofByte_four (by omega) (by omega)),
    decodeFrom_more (by dsimp only; split <;> omega) (by dsimp only; split <;> omega) (by simp),
    decodeFrom_more (by dsimp only; omega) (by dsimp only; omega) (by simp)]
  exact decodeFrom_last (by dsimp only; omega) (by dsimp only; omega) rfl (by dsimp only; omega)

/-- **The bytes of a character are decoded to the character.** -/
theorem decodeFrom_character (c : Char) (pos : Nat) (r : List UInt8) :
    decodeFrom pos none (String.utf8EncodeChar c ++ r) =
      (decodeFrom (pos + (String.utf8EncodeChar c).length) none r).map
        fun x => (c :: x.1, x.2) := by
  have hval : c.val.toNat = c.toNat := rfl
  unfold String.utf8EncodeChar
  dsimp only
  rw [hval]
  split
  · next hone => exact decodeFrom_oneByte hone
  · next hone =>
    split
    · next htwo => exact decodeFrom_twoBytes (Nat.lt_of_not_le hone) htwo
    · next htwo =>
      split
      · next hthree => exact decodeFrom_threeBytes (Nat.lt_of_not_le htwo) hthree
      · next hthree => exact decodeFrom_fourBytes (Nat.lt_of_not_le hthree)

/-! ## 3. A whole text -/

/-- The bytes of a text are decoded to the text, and none of them is left over. -/
theorem decodeFrom_encode : ∀ (cs : List Char) (pos : Nat),
    decodeFrom pos none (encode cs) = .ok (cs, [])
  | [], _ => rfl
  | c :: cs, pos => by
    rw [encode, List.flatMap_cons, decodeFrom_character]
    change (decodeFrom _ none (encode cs)).map _ = _
    rw [decodeFrom_encode cs]
    rfl

/-- **A text that was encoded is decoded.** -/
theorem decode_encode (cs : List Char) : decode (encode cs) = .ok cs := by
  simp only [decode, decodeFrom_encode]

end Utf8
end Text
end MinionComputer
