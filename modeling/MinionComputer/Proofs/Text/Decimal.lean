/-
# Numbers that were written are read back

A number is written with the ten digits of ASCII, zeros in front to fill its field.  Every reader
of digits knows these ten, and the zeros add nothing, so what was written stands for the number.

* `Decimal`: a row of the plain digits;
* `decimal_padded`, `digitsValue_padded`: what is written is such a row and stands for the number;
* `Decimal.readInteger`: how such a row is read;
* `Figures`, `figures_iff`: what stands in a field of given width, and that nothing else does;
* `isLineEnd_of_mem_padded`: what is written stays on one line.
-/
import Mathlib.Data.List.Basic
import Mathlib.Data.Nat.Digits.Defs
import MinionComputer.Proofs.Text.SignedNumeral

namespace MinionComputer
namespace Text

/-! ## 1. Plain digits -/

/-- The plain digits are the first in the table. -/
theorem digitValue?_of_plain {c : Char} (h : c.isDigit = true) :
    digitValue? c = some (c.toNat - '0'.toNat) := by
  obtain ⟨hlo, hhi⟩ := Char.isDigit_iff_toNat.mp h
  have hrun : (decide (0x30 ≤ c.toNat) && decide (c.toNat < 0x30 + 10)) = true := by
    rw [Bool.and_eq_true, decide_eq_true_eq, decide_eq_true_eq]
    exact ⟨hlo, Nat.lt_succ_of_le hhi⟩
  have hfirst : (digitZeros.find? fun z => z ≤ c.toNat && c.toNat < z + 10) = some 0x30 :=
    List.find?_cons_of_pos hrun
  rw [digitValue?, hfirst]
  rfl

theorem isDigit_of_plain {c : Char} (h : c.isDigit = true) : isDigit c = true := by
  rw [isDigit, digitValue?_of_plain h]
  rfl

/-- A row of plain digits. -/
structure Decimal (ds : List Char) : Prop where
  ne_nil : ds ≠ []
  plain : ∀ c ∈ ds, c.isDigit = true

namespace Decimal

variable {ds : List Char}

theorem isNumeral (h : Decimal ds) : Text.isNumeral ds = true :=
  isNumeral_iff.mpr ⟨h.ne_nil, fun c hc => isDigit_of_plain (h.plain c hc)⟩

theorem isSignedNumeral (h : Decimal ds) : Text.isSignedNumeral ds = true := by
  rw [Text.isSignedNumeral, splitSign_of_isNumeral h.isNumeral]
  exact h.isNumeral

theorem isBlank (h : Decimal ds) : ∀ c ∈ ds, Text.isBlank c = false := fun c hc =>
  isBlank_of_isDigit (isDigit_of_plain (h.plain c hc))

/-- There is nothing to trim. -/
theorem trim (h : Decimal ds) : Text.trim ds = ds := trimBy_of_forall h.isBlank

/-- No digit ends a line. -/
theorem isLineEnd (h : Decimal ds) : ∀ c ∈ ds, Text.isLineEnd c = false := by
  intro c hc
  have hrange : 48 ≤ c.toNat ∧ c.toNat ≤ 57 := Char.isDigit_iff_toNat.mp (h.plain c hc)
  rw [Bool.eq_false_iff]
  intro hend
  simp only [Text.isLineEnd, Bool.or_eq_true, Bool.and_eq_true, decide_eq_true_eq,
    beq_iff_eq] at hend
  omega

/-- A row of plain digits is read digit by digit, if it is not too long. -/
theorem readInteger (h : Decimal ds) (hlength : ds.length ≤ digitLimit) :
    Text.readInteger ds = .ok (digitsValue ds : Int) := by
  rw [readInteger_of_isSignedNumeral h.isSignedNumeral, splitSign_of_isNumeral h.isNumeral,
    readDigits, if_pos hlength]
  rfl

end Decimal

/-- The standard library reads plain digits the same way. -/
theorem digitsValue_of_plain {ds : List Char} (h : ∀ c ∈ ds, c.isDigit = true) :
    digitsValue ds = Nat.ofDigitChars 10 ds 0 := by
  rw [digitsValue, Nat.ofDigitChars_eq_foldl]
  refine List.foldl_ext _ _ 0 fun n c hc => ?_
  rw [digitValue?_of_plain (h c hc)]
  rfl

/-! ## 2. What is written -/

variable (width n : Nat)

/-- A number that is not negative is written without a sign. -/
theorem padded_natCast :
    padded width (n : Int) = List.replicate (width - (decimal n).length) '0' ++ decimal n := by
  have hsign : minusSign (n : Int) = [] := if_neg (by omega)
  simp [padded, paddedWith, hsign]

/-- **What is written is a row of plain digits.** -/
theorem decimal_padded : Decimal (padded width (n : Int)) where
  ne_nil := by
    rw [padded_natCast]
    exact List.append_ne_nil_of_right_ne_nil _ Nat.toDigits_ne_nil
  plain := by
    intro c hc
    rw [padded_natCast] at hc
    rcases List.mem_append.mp hc with hc | hc
    · rw [List.eq_of_mem_replicate hc]
      rfl
    · exact Nat.isDigit_of_mem_toDigits (by decide) (by decide) hc

/-- **What is written stands for the number.** -/
theorem digitsValue_padded : digitsValue (padded width (n : Int)) = n := by
  rw [digitsValue_of_plain (decimal_padded width n).plain, padded_natCast,
    Nat.ofDigitChars_append, Nat.ofDigitChars_replicate_zero, Nat.mul_zero]
  exact Nat.ofDigitChars_ten_toDigits

/-- Without a field to fill, the digits are all there is. -/
theorem padded_zero : padded 0 (n : Int) = decimal n := by
  rw [padded_natCast, Nat.zero_sub]
  rfl

theorem decimal_decimal : Decimal (decimal n) := padded_zero n ▸ decimal_padded 0 n

theorem digitsValue_decimal : digitsValue (decimal n) = n := by
  rw [← padded_zero, digitsValue_padded]

/-- A number that fits its field has no more digits than the field has places. -/
theorem length_decimal_le {width n : Nat} (hwidth : 0 < width) (h : n < 10 ^ width) :
    (decimal n).length ≤ width :=
  (Nat.length_toDigits_le_iff (by decide) hwidth).mpr h

/-- A number of three digits is short enough to be read. -/
theorem length_decimal_le_limit {n : Nat} (h : n < 1000) : (decimal n).length ≤ digitLimit :=
  (length_decimal_le (Nat.succ_pos 2) h).trans (by decide)

/-- A number that fits its field fills it. -/
theorem length_padded {width n : Nat} (hwidth : 0 < width) (h : n < 10 ^ width) :
    (padded width (n : Int)).length = width := by
  have hfits := length_decimal_le hwidth h
  rw [padded_natCast, List.length_append, List.length_replicate]
  omega

/-! ## 3. Numbers in fields -/

/-- The plain digits of a number in a field: at least as many as the field has places, and more only
if the number needs them. -/
structure Figures (width n : Nat) (ds : List Char) : Prop where
  decimal : Decimal ds
  value : digitsValue ds = n
  fills : width ≤ ds.length
  tight : max width 1 < ds.length → 10 ^ (ds.length - 1) ≤ n

/-- A number is written with its figures. -/
theorem figures_padded (width n : Nat) : Figures width n (padded width (n : Int)) := by
  have hlength : (padded width (n : Int)).length = max width (decimal n).length := by
    rw [padded_natCast, List.length_append, List.length_replicate]
    omega
  refine ⟨decimal_padded width n, digitsValue_padded width n, by omega, fun hmore => ?_⟩
  have hdigits : (padded width (n : Int)).length = (decimal n).length := by omega
  rw [hdigits] at hmore ⊢
  have hneeds : ¬ (decimal n).length ≤ (decimal n).length - 1 := by omega
  exact Nat.le_of_not_lt fun hlt =>
    hneeds ((Nat.length_toDigits_le_iff (by decide) (by omega)).mpr hlt)

/-- What plain digits are worth, the last of them first. -/
def worths (ds : List Char) : List Nat := (ds.map fun c => c.toNat - '0'.toNat).reverse

theorem worths_lt {ds : List Char} (h : ∀ c ∈ ds, c.isDigit = true) : ∀ n ∈ worths ds, n < 10 := by
  intro n hn
  obtain ⟨c, hc, rfl⟩ := List.mem_map.mp (List.mem_reverse.mp hn)
  exact Nat.sub_lt_left_of_lt_add (Char.isDigit_iff_toNat.mp (h c hc)).1
    (Nat.lt_succ_of_le (Char.isDigit_iff_toNat.mp (h c hc)).2)

theorem digitsValue_eq_ofDigits {ds : List Char} (h : ∀ c ∈ ds, c.isDigit = true) :
    digitsValue ds = Nat.ofDigits 10 (worths ds) := by
  rw [digitsValue_of_plain h, Nat.ofDigitChars_eq_foldl, worths, Nat.ofDigits_eq_foldr,
    List.foldr_reverse, List.foldl_map]
  exact List.foldl_ext _ _ 0 fun _ _ _ => Nat.add_comm _ _

theorem digitsValue_lt {ds : List Char} (h : ∀ c ∈ ds, c.isDigit = true) :
    digitsValue ds < 10 ^ ds.length := by
  have hlt := Nat.ofDigits_lt_base_pow_length (by decide) (worths_lt h)
  rwa [← digitsValue_eq_ofDigits h, worths, List.length_reverse, List.length_map] at hlt

/-- Digits that are as many and stand for the same number are the same. -/
theorem eq_of_digitsValue {ds es : List Char} (hds : ∀ c ∈ ds, c.isDigit = true)
    (hes : ∀ c ∈ es, c.isDigit = true) (hlength : ds.length = es.length)
    (hvalue : digitsValue ds = digitsValue es) : ds = es := by
  rw [digitsValue_eq_ofDigits hds, digitsValue_eq_ofDigits hes] at hvalue
  have hworths : worths ds = worths es := Nat.ofDigits_inj_of_len_eq (by decide)
    (by simpa [worths] using hlength) (worths_lt hds) (worths_lt hes) hvalue
  refine List.ext_getElem hlength fun i hi hi' => ?_
  have hworth : ds[i].toNat - '0'.toNat = es[i].toNat - '0'.toNat := by
    simpa using List.getElem_of_eq (List.reverse_injective hworths) (by simpa using hi)
  have hd := (Char.isDigit_iff_toNat.mp (hds ds[i] (List.getElem_mem hi))).1
  have he := (Char.isDigit_iff_toNat.mp (hes es[i] (List.getElem_mem hi'))).1
  exact Char.toNat_inj.mp (by omega)

/-- No row of figures of a number in a field is longer than another. -/
theorem Figures.length_le {width n : Nat} {ds es : List Char} (h : Figures width n ds)
    (h' : Figures width n es) : es.length ≤ ds.length := by
  by_contra hmore
  have hone := List.length_pos_iff.mpr h.decimal.ne_nil
  have hfills := h.fills
  have htight := h'.tight (by omega)
  have hlt : n < 10 ^ ds.length := h.value ▸ digitsValue_lt h.decimal.plain
  have hpow : 10 ^ ds.length ≤ 10 ^ (es.length - 1) := Nat.pow_le_pow_right (by decide) (by omega)
  omega

/-- **A number has one row of figures in a field**, the one that is written. -/
theorem figures_iff {width n : Nat} {ds : List Char} :
    Figures width n ds ↔ ds = padded width (n : Int) := by
  constructor
  · intro h
    have h' := figures_padded width n
    exact eq_of_digitsValue h.decimal.plain h'.decimal.plain
      (Nat.le_antisymm (h'.length_le h) (h.length_le h')) (h.value.trans h'.value.symm)
  · rintro rfl
    exact figures_padded width n

/-- A sign takes its places from the field. -/
theorem paddedWith_eq (sign : List Char) (width : Nat) (n : Int) :
    paddedWith sign width n = sign ++ padded (width - sign.length) (n.natAbs : Int) := by
  rw [padded_natCast, paddedWith, List.append_assoc, Nat.sub_sub]

/-- A number in a field: the minus sign of a negative number, and its figures. -/
def SignedFigures (width : Nat) (n : Int) (cs : List Char) : Prop :=
  ∃ ds, cs = minusSign n ++ ds ∧ Figures (width - (minusSign n).length) n.natAbs ds

theorem signedFigures_iff {width : Nat} {n : Int} {cs : List Char} :
    SignedFigures width n cs ↔ cs = padded width n := by
  have hwritten : padded width n = minusSign n ++ padded (width - (minusSign n).length) n.natAbs :=
    paddedWith_eq _ width n
  rw [hwritten]
  constructor
  · rintro ⟨ds, rfl, h⟩
    rw [figures_iff.mp h]
  · intro h
    exact ⟨_, h, figures_iff.mpr rfl⟩

/-- A number that is written with either sign: the sign, and the figures behind it. -/
theorem paddedSigned_succ (width : Nat) (n : Int) :
    paddedSigned (width + 1) n = (if n < 0 then '-' else '+') :: padded width (n.natAbs : Int) := by
  rw [paddedSigned, paddedWith_eq]
  split <;> rfl

/-! ## 4. Numbers on a line -/

theorem isLineEnd_of_all {cs : List Char} (h : cs.all (!isLineEnd ·) = true) :
    ∀ c ∈ cs, isLineEnd c = false := by
  simpa using h

/-- A number in its field has no line end if the sign has none. -/
theorem isLineEnd_of_mem_paddedWith {sign : List Char}
    (hsign : ∀ c ∈ sign, isLineEnd c = false) (width : Nat) (n : Int) :
    ∀ c ∈ paddedWith sign width n, isLineEnd c = false := by
  simp only [paddedWith, List.forall_mem_append]
  refine ⟨⟨hsign, ?_⟩, (decimal_decimal n.natAbs).isLineEnd⟩
  intro c hc
  rw [List.eq_of_mem_replicate hc]
  rfl

theorem isLineEnd_of_mem_padded (width : Nat) (n : Int) :
    ∀ c ∈ padded width n, isLineEnd c = false := by
  refine isLineEnd_of_mem_paddedWith ?_ width n
  unfold minusSign
  split <;> exact isLineEnd_of_all rfl

theorem isLineEnd_of_mem_paddedSigned (width : Nat) (n : Int) :
    ∀ c ∈ paddedSigned width n, isLineEnd c = false := by
  refine isLineEnd_of_mem_paddedWith ?_ width n
  split <;> exact isLineEnd_of_all rfl

end Text
end MinionComputer
