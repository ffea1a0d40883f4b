/-
# Reading a sign and a row of digits

`readInteger` reads more than a sign and a row of digits: it drops blanks at both ends and
single low lines between digits.  A word that is a sign, if any, and a row of digits holds
neither, so it is read digit by digit.

* `isBlank_of_isDigit`, `ne_of_isDigit`: no digit is a blank, a sign or a low line;
* `readInteger_of_isSignedNumeral`: the reading of such a word;
* `readInteger_trimBy`: blanks around a numeral may be taken off before it is read.
-/
import MinionComputer.Proofs.Text.Pieces
import MinionComputer.Proofs.Text.Trimming
import MinionComputer.Text.Numeral

namespace MinionComputer
namespace Text

/-! ## 1. Digits are neither blanks nor marks -/

/-- A digit lies in the run of ten behind one of the zeros. -/
theorem exists_zero_of_isDigit {c : Char} (h : isDigit c = true) :
    ∃ z ∈ digitZeros, z ≤ c.toNat ∧ c.toNat < z + 10 := by
  unfold isDigit digitValue? at h
  rw [Option.isSome_map, List.find?_isSome] at h
  obtain ⟨z, hz, hc⟩ := h
  simp only [Bool.and_eq_true, decide_eq_true_eq] at hc
  exact ⟨z, hz, hc⟩

/-- Each run of digits lies in a gap between the blanks. -/
theorem digitZeros_gap : ∀ z ∈ digitZeros,
    (0x20 < z ∧ z + 10 ≤ 0x85) ∨ (0xA0 < z ∧ z + 10 ≤ 0x1680) ∨
      (0x1680 < z ∧ z + 10 ≤ 0x2000) ∨ 0x3000 < z := by
  decide

theorem isBlank_of_isDigit {c : Char} (h : isDigit c = true) : isBlank c = false := by
  obtain ⟨z, hz, hlo, hhi⟩ := exists_zero_of_isDigit h
  have hgap := digitZeros_gap z hz
  rw [Bool.eq_false_iff]
  intro hb
  simp only [isBlank, Bool.or_eq_true, Bool.and_eq_true, decide_eq_true_eq, beq_iff_eq] at hb
  omega

theorem isMargin_of_isDigit {c : Char} (h : isDigit c = true) : isMargin c = false := by
  simp [isMargin, isBlank_of_isDigit h]

/-- A digit is none of the characters that are no digits themselves. -/
theorem ne_of_isDigit {c d : Char} (h : isDigit c = true) (hd : isDigit d = false) : c ≠ d := by
  rintro rfl
  rw [h] at hd
  exact Bool.noConfusion hd

/-! ## 2. Nothing is trimmed and nothing is cut -/

/-- A text without the character is one piece. -/
theorem splitAt_eq_singleton {c : Char} {cs : List Char} (h : ∀ x ∈ cs, x ≠ c) :
    splitAt c cs = [cs] :=
  pieces_eq_singleton fun x hx => beq_false_of_ne (h x hx)

/-! ## 3. The reading -/

theorem isNumeral_iff {cs : List Char} :
    isNumeral cs = true ↔ cs ≠ [] ∧ ∀ c ∈ cs, isDigit c = true := by
  simp [isNumeral, List.all_eq_true]

/-- A word that starts with a sign is no row of digits. -/
theorem isNumeral_cons_of_not_isDigit {c : Char} {cs : List Char} (h : isDigit c = false) :
    isNumeral (c :: cs) = false := by
  simp [isNumeral, h]

/-- A row of digits has no sign to split off. -/
theorem splitSign_of_isNumeral {cs : List Char} (h : isNumeral cs = true) :
    splitSign cs = (false, cs) := by
  unfold splitSign
  split
  · rw [isNumeral_cons_of_not_isDigit (by decide)] at h
    exact Bool.noConfusion h
  · rw [isNumeral_cons_of_not_isDigit (by decide)] at h
    exact Bool.noConfusion h
  · rfl

/-- A signed numeral is a sign, if any, in front of its digits. -/
theorem eq_sign_append_of_splitSign (cs : List Char) :
    cs = (splitSign cs).2 ∨ cs = '-' :: (splitSign cs).2 ∨ cs = '+' :: (splitSign cs).2 := by
  unfold splitSign
  split <;> simp

/-- The blanks around a signed numeral are none. -/
theorem trimBy_isMargin_of_isSignedNumeral {cs : List Char} (h : isSignedNumeral cs = true) :
    trimBy isMargin cs = cs := by
  obtain ⟨hne, hdigits⟩ := isNumeral_iff.mp h
  have hall : ∀ x ∈ cs, isMargin x = false := by
    intro x hx
    rcases eq_sign_append_of_splitSign cs with hcs | hcs | hcs
    · rw [hcs] at hx
      exact isMargin_of_isDigit (hdigits x hx)
    · rw [hcs] at hx
      rcases List.mem_cons.mp hx with rfl | hx
      · decide
      · exact isMargin_of_isDigit (hdigits x hx)
    · rw [hcs] at hx
      rcases List.mem_cons.mp hx with rfl | hx
      · decide
      · exact isMargin_of_isDigit (hdigits x hx)
  exact trimBy_of_forall hall

/-- **A sign and a row of digits is read digit by digit**, and only the number of its digits
can keep it from being read. -/
theorem readInteger_of_isSignedNumeral {cs : List Char} (h : isSignedNumeral cs = true) :
    readInteger cs = (readDigits (splitSign cs).2).map (withSign (splitSign cs).1) := by
  have hdigits := (isNumeral_iff.mp h).2
  have hone : splitAt '_' (splitSign cs).2 = [(splitSign cs).2] :=
    splitAt_eq_singleton fun x hx => ne_of_isDigit (hdigits x hx) (by decide)
  have hbody : isNumeral (splitSign cs).2 = true := h
  simp [readInteger, trimBy_isMargin_of_isSignedNumeral h, hone, hbody]

/-! ## 4. Blanks around a numeral -/

/-- **Whoever takes the blanks off a numeral first changes nothing in how it is read.** -/
theorem readInteger_trimBy {p : Char → Bool} {cs : List Char} (h : ∀ c ∈ cs, p c = isMargin c) :
    readInteger (trimBy p cs) = readInteger cs := by
  have htwice : trimBy isMargin (trimBy p cs) = trimBy isMargin cs := by
    rw [trimBy_congr h, trimBy_trimBy]
  simp only [readInteger, htwice]

end Text
end MinionComputer
