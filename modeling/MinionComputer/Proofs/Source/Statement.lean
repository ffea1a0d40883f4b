/-
# What a statement that was read looks like

The words of a line are checked while they are read.  What is left to know about a statement
afterwards is little: its label, if any, is a label by its letters, and it has an operand where
its instruction word needs one and none where the word takes none.

* `Statement.WellFormed`: these facts;
* `Statement.wellFormed_of_ofWords`, `Line.wellFormed_of_parse`: every statement that is read has
  them;
* `not_isSignedNumeral_of_isLabel`: a label is never mistaken for a number.
-/
import MinionComputer.Source.Statement
import MinionComputer.Proofs.Text.SignedNumeral

namespace MinionComputer
namespace Source

/-! ## 1. Labels and numbers -/

/-- The plain digits are one run of ten, and all others lie far behind the plain letters. -/
theorem digitZeros_plain : ∀ z ∈ Text.digitZeros, z = 0x30 ∨ 0x660 ≤ z := by
  decide

/-- No letter and no low line is a digit of any script. -/
theorem isDigit_of_isLabelStart {c : Char} (h : isLabelStart c = true) :
    Text.isDigit c = false := by
  rw [Bool.eq_false_iff]
  intro hd
  obtain ⟨z, hz, hlo, hhi⟩ := Text.exists_zero_of_isDigit hd
  have hrun : z = 0x30 ∨ 0x660 ≤ z := digitZeros_plain z hz
  have hplain : 0x41 ≤ c.toNat ∧ c.toNat ≤ 0x7A := by
    have hranges : isLabelStart c = (decide ('A'.val ≤ c.val ∧ c.val ≤ 'Z'.val) ||
        (decide ('a'.val ≤ c.val) && decide (c.val ≤ 'z'.val)) || c == '_') := rfl
    simp only [hranges, Bool.or_eq_true, Bool.and_eq_true, decide_eq_true_eq, beq_iff_eq,
      UInt32.le_iff_toNat_le] at h
    rcases h with (⟨h1, h2⟩ | ⟨h1, h2⟩) | rfl
    · exact ⟨h1, Nat.le_trans h2 (by decide)⟩
    · exact ⟨Nat.le_trans (by decide) h1, h2⟩
    · decide
  omega

/-- A sign starts no label. -/
theorem isLabelStart_of_isLabel {c : Char} {cs : List Char} (h : isLabel (c :: cs) = true) :
    isLabelStart c = true :=
  ((Bool.and_eq_true _ _).mp h).1

/-- **A label is never mistaken for a number.** -/
theorem not_isSignedNumeral_of_isLabel {w : List Char} (h : isLabel w = true) :
    Text.isSignedNumeral w = false := by
  cases w with
  | nil => exact Bool.noConfusion h
  | cons c cs =>
    have hc : isLabelStart c = true := isLabelStart_of_isLabel h
    have hsign : Text.splitSign (c :: cs) = (false, c :: cs) := by
      unfold Text.splitSign
      split
      · next he => rw [(List.cons.inj he).1] at hc; exact absurd hc (by decide)
      · next he => rw [(List.cons.inj he).1] at hc; exact absurd hc (by decide)
      · rfl
    rw [Text.isSignedNumeral, hsign]
    exact Text.isNumeral_cons_of_not_isDigit (isDigit_of_isLabelStart hc)

/-! ## 2. The parts of a statement -/

namespace Statement

/-- The operand is there if the instruction word needs one, and not if the word takes none. -/
def OperandFits (s : Statement) : Prop :=
  (s.mnemonic.form = .address → s.operand ≠ none) ∧ (s.mnemonic.form = .none → s.operand = none)

/-- What is known of every statement that was read. -/
structure WellFormed (s : Statement) : Prop where
  label : ∀ l, s.label = some l → isLabel l = true
  operand : s.OperandFits

theorem checkOperand_eq_ok_iff {s t : Statement} :
    checkOperand s = .ok t ↔ s = t ∧ s.OperandFits := by
  unfold checkOperand OperandFits
  cases hf : s.mnemonic.form <;> cases ho : s.operand <;> simp

/-- A statement that starts with its instruction word has no label. -/
theorem label_of_unlabelled {m : Mnemonic} {w : List Char} {rest : List (List Char)}
    {s : Statement} (h : unlabelled m w rest = .ok s) : s.label = none := by
  match rest with
  | [] =>
    cases h
    rfl
  | [x] =>
    simp only [unlabelled, readOperand] at h
    split at h
    · cases h
    · cases h
      rfl
  | x :: y :: r =>
    simp only [unlabelled] at h
    split at h <;> cases h

/-- A statement that starts with another word has that word as its label. -/
theorem label_of_labelled {l : List Char} {rest : List (List Char)} {s : Statement}
    (h : labelled l rest = .ok s) : s.label = some l ∧ isLabel l = true := by
  unfold labelled at h
  split at h
  · cases h
  · split at h
    · cases h
    · next hl =>
      have hlabel : isLabel l = true := by simpa using hl
      refine ⟨?_, hlabel⟩
      split at h
      · cases h
      · split at h
        · cases h
        · split at h
          · cases h
            rfl
          · simp only [readOperand] at h
            split at h
            · cases h
            · cases h
              rfl

/-- What passes the check of operands is the statement that was made up before it. -/
theorem eq_ok_of_bind_checkOperand {shape : Except Cause Statement} {s : Statement}
    (h : (shape.bind checkOperand).map some = .ok (some s)) : shape = .ok s ∧ s.OperandFits := by
  cases shape with
  | error c => cases h
  | ok t =>
    change (checkOperand t).map some = .ok (some s) at h
    cases hc : checkOperand t with
    | error c =>
      rw [hc] at h
      cases h
    | ok u =>
      rw [hc] at h
      cases h
      obtain ⟨rfl, hfits⟩ := checkOperand_eq_ok_iff.mp hc
      exact ⟨rfl, hfits⟩

/-- **Every statement that words make up is well formed.** -/
theorem wellFormed_of_ofWords {ws : List (List Char)} {s : Statement}
    (h : ofWords ws = .ok (some s)) : s.WellFormed := by
  cases ws with
  | nil => cases h
  | cons w rest =>
    simp only [ofWords] at h
    split at h
    · cases h
    · obtain ⟨hshape, hfits⟩ := eq_ok_of_bind_checkOperand h
      refine ⟨?_, hfits⟩
      intro l hl
      split at hshape
      · rw [label_of_unlabelled hshape] at hl
        cases hl
      · obtain ⟨hlabel, his⟩ := label_of_labelled hshape
        rw [hlabel] at hl
        cases hl
        exact his

end Statement

/-- **Every statement on a line that was read is well formed.** -/
theorem Line.wellFormed_of_parse {number : Int} {raw : List Char} {line : Line} {s : Statement}
    (h : Line.parse number raw = .ok line) (hs : line.statement = some s) : s.WellFormed := by
  unfold Line.parse at h
  split at h
  next code comment _ =>
    split at h
    · next statement hwords =>
      cases h
      change statement = some s at hs
      rw [hs] at hwords
      exact Statement.wellFormed_of_ofWords hwords
    · cases h

end Source
end MinionComputer
