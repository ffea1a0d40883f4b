/-
# Instructions and the cells they stand for

An instruction is read off a cell and written back as a word and an address.  All cells below one
hundred halt, so what is written of them is lost; every other cell that has a meaning is made up
again from the word and the address.

* `Instruction.toCell_of_ofCell`: the cell of what was read;
* `Instruction.isExtended_of_ofCell`: which words the plain mode reads;
* `Instruction.form_eq`: what the word of an instruction takes;
* `Mnemonic.ofWord?_cons_of_isDigit`: no word starts with a digit.
-/
import MinionComputer.Instruction.Basic

namespace MinionComputer

/-! ## 1. Capitals and digits -/

namespace Text

/-- The plain capitals, as code points. -/
theorem isUpper_iff {c : Char} : c.isUpper = true ↔ 65 ≤ c.toNat ∧ c.toNat ≤ 90 := by
  have hrange : c.isUpper = decide ('A'.val ≤ c.val ∧ c.val ≤ 'Z'.val) := rfl
  rw [hrange, decide_eq_true_eq, UInt32.le_iff_toNat_le, UInt32.le_iff_toNat_le]
  exact Iff.rfl

/-- No capital is a blank. -/
theorem isBlank_of_isUpper {c : Char} (h : c.isUpper = true) : isBlank c = false := by
  have hrange := isUpper_iff.mp h
  rw [Bool.eq_false_iff]
  intro hblank
  simp only [isBlank, Bool.or_eq_true, Bool.and_eq_true, decide_eq_true_eq, beq_iff_eq] at hblank
  omega

/-- A digit is its own capital form. -/
theorem capital_of_isDigit {c : Char} (h : c.isDigit = true) : capital c = [c] := by
  have hdigit : c.toNat ≤ 57 := (Char.isDigit_iff_toNat.mp h).2
  have hsmall : ¬ 97 ≤ c.toNat := by omega
  have hothers : c.toNat ≠ 0x17F ∧ c.toNat ≠ 0x131 ∧ c.toNat ≠ 0xFB05 ∧ c.toNat ≠ 0xFB06 := by
    omega
  simp [capital, hsmall, hothers]

end Text

/-! ## 2. Words -/

namespace Mnemonic

/-- A word is written in plain capitals. -/
theorem isUpper_of_mem_letters (m : Mnemonic) : ∀ c ∈ m.letters, c.isUpper = true := by
  have hall : m.letters.all Char.isUpper = true := by cases m <;> rfl
  exact List.all_eq_true.mp hall

theorem letters_ne_nil (m : Mnemonic) : m.letters ≠ [] := by
  cases m <;> exact List.cons_ne_nil _ _

/-- What is read as a word is written in plain capitals, and so is a second name. -/
theorem isUpper_of_ofName? {w : List Char} {m : Mnemonic} (h : ofName? w = some m) :
    ∀ c ∈ w, c.isUpper = true := by
  rw [← List.all_eq_true]
  unfold ofName? at h
  split at h <;> first | rfl | cases h

theorem isUpper_of_ofAlias? {w : List Char} {m : Mnemonic} (h : ofAlias? w = some m) :
    ∀ c ∈ w, c.isUpper = true := by
  rw [← List.all_eq_true]
  unfold ofAlias? at h
  split at h <;> first | rfl | cases h

/-- The capital form of an instruction word is all capitals. -/
theorem isUpper_of_ofWord? {w : List Char} {m : Mnemonic} (h : ofWord? w = some m) :
    ∀ c ∈ Text.capitals w, c.isUpper = true := by
  rcases Option.or_eq_some_iff.mp h with h | ⟨-, h⟩
  · exact isUpper_of_ofName? h
  · exact isUpper_of_ofAlias? h

/-- **No word starts with a digit**, in any spelling. -/
theorem ofWord?_cons_of_isDigit {c : Char} (w : List Char) (h : c.isDigit = true) :
    ofWord? (c :: w) = none := by
  have hupper : c.isUpper ≠ true := by
    intro hc
    have hdigit : c.toNat ≤ 57 := (Char.isDigit_iff_toNat.mp h).2
    have hcapital : 65 ≤ c.toNat := (Text.isUpper_iff.mp hc).1
    omega
  have hcapitals : Text.capitals (c :: w) = c :: Text.capitals w := by
    rw [Text.capitals, List.flatMap_cons, Text.capital_of_isDigit h]
    rfl
  rw [Option.eq_none_iff_forall_ne_some]
  intro m hm
  exact hupper (isUpper_of_ofWord? hm c (hcapitals ▸ List.mem_cons_self))

/-- The last two digits of a cell are the address behind the word of its first. -/
theorem withAddress_ofNat {m : Mnemonic} (hform : m.form = .address) {c : Cell}
    (hbase : m.base.val = 100 * (c.val / 100)) : m.withAddress (Fin.ofNat 100 c.val) = c := by
  have haddress : (Fin.ofNat 100 c.val).val = c.val % 100 := rfl
  refine Fin.ext ?_
  rw [withAddress_val hform, haddress, hbase, Nat.div_add_mod]

end Mnemonic

/-! ## 3. Instructions -/

namespace Instruction

/-- **The cell of what was read is the cell it was read from**, unless that halts. -/
theorem toCell_of_ofCell {extended : Bool} {c : Cell} {i : Instruction}
    (h : ofCell extended c = some i) (hi : i ≠ .halt) : i.toCell = c := by
  unfold ofCell at h
  split at h
  case h_1 =>
    cases h
    split at hi
    · next hmark =>
      rw [if_pos hmark]
      exact hmark.2.symm
    · exact absurd rfl hi
  case h_9 =>
    repeat' split at h
    all_goals cases h
    all_goals symm
    · assumption
    · assumption
    · next hmark => exact hmark.2
    · next hmark => exact hmark.2
  case h_10 => cases h
  all_goals
    next hundreds =>
      cases h
      exact Mnemonic.withAddress_ofNat rfl (by rw [hundreds]; rfl)

/-- The plain mode reads none of the extended words. -/
theorem isExtended_of_ofCell {c : Cell} {i : Instruction} (h : ofCell false c = some i) :
    i.mnemonic.isExtended = false := by
  unfold ofCell at h
  simp only [Bool.false_eq_true, false_and, if_false] at h
  split at h
  case h_9 =>
    repeat' split at h
    all_goals cases h
    all_goals rfl
  all_goals cases h
  all_goals rfl

/-- The word of an instruction takes an address if the instruction names one, and else nothing. -/
theorem form_eq (i : Instruction) :
    i.mnemonic.form = if i.operand?.isSome then .address else .none := by
  cases i <;> rfl

end Instruction
end MinionComputer
