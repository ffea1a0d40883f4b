/-
# What words and gaps are spelled with

Where a line is cut depends on its `#`, `;` and `/` alone.  Blanks are none of these, and no word
of a statement that is assembled holds one: an instruction word in any of its spellings, a label
and a number are all spelled with other characters.  So a line is still cut where it was when such a
part of it is replaced by another.

* `splitComment_append_of_plain`, `splitComment_append`: what stands in front of a comment;
* `PlainWord`: words without blanks and marks;
* `plainWord_of_ofWord?`, `plainWord_of_isLabel`, `plainWord_of_isSignedNumeral`: which words are.
-/
import MinionComputer.Proofs.Instruction
import MinionComputer.Proofs.Source.Statement

namespace MinionComputer
namespace Source

variable {c : Char} {l r x y y' w : List Char}

/-! ## 1. Cutting a line -/

/-- The character is part of no mark of a comment. -/
def IsPlain (c : Char) : Prop := c ≠ '#' ∧ c ≠ ';' ∧ c ≠ '/'

theorem afterMark?_cons_eq_none_iff :
    afterMark? (c :: x) = none ↔ c ≠ '#' ∧ c ≠ ';' ∧ (c = '/' → x.head? ≠ some '/') := by
  unfold afterMark?
  split
  · next h =>
    cases h
    simp
  · next h =>
    cases h
    simp
  · next h =>
    cases h
    simp
  · next h₁ h₂ h₃ =>
    refine iff_of_true rfl ⟨?_, ?_, ?_⟩
    · rintro rfl
      exact h₁ x rfl
    · rintro rfl
      exact h₂ x rfl
    · rintro rfl hx
      obtain ⟨rest, rfl⟩ := List.head?_eq_some_iff.mp hx
      exact h₃ rest rfl

/-- Plain characters in front of a text stay in front of its comment. -/
theorem splitComment_append_of_plain : ∀ {x : List Char} (r : List Char),
    (∀ c ∈ x, IsPlain c) →
      splitComment (x ++ r) = (x ++ (splitComment r).1, (splitComment r).2)
  | [], _, _ => rfl
  | c :: x, r, h => by
    obtain ⟨hc, hx⟩ := List.forall_mem_cons.mp h
    have hnone : afterMark? (c :: (x ++ r)) = none :=
      afterMark?_cons_eq_none_iff.mpr ⟨hc.1, hc.2.1, fun hslash => absurd hslash hc.2.2⟩
    simp only [List.cons_append, splitComment, hnone, splitComment_append_of_plain r hx]

/-- **What stands in front of the comment stays there when the rest of the line is replaced**,
unless a second slash comes to stand behind a first. -/
theorem splitComment_append : ∀ {l : List Char}, l <+: (splitComment (l ++ y)).1 →
    (y'.head? = some '/' → y.head? = some '/') →
      splitComment (l ++ y') = (l ++ (splitComment y').1, (splitComment y').2)
  | [], _, _ => rfl
  | c :: l, h, hy => by
    rw [List.cons_append, splitComment] at h
    split at h
    · next hsome => exact absurd (List.prefix_nil.mp h) (List.cons_ne_nil c l)
    · next hnone =>
      have hl : l <+: (splitComment (l ++ y)).1 := (List.cons_prefix_cons.mp h).2
      have hnone' : afterMark? (c :: (l ++ y')) = none := by
        rw [afterMark?_cons_eq_none_iff] at hnone ⊢
        refine ⟨hnone.1, hnone.2.1, fun hslash hhead => hnone.2.2 hslash ?_⟩
        cases l with
        | nil => exact hy hhead
        | cons d l => exact hhead
      simp only [List.cons_append, splitComment, hnone', splitComment_append hl hy]

/-- The code is what the line starts with. -/
theorem code_initial : ∀ raw : List Char, (splitComment raw).1 <+: raw
  | [] => List.prefix_rfl
  | c :: r => by
    unfold splitComment
    split
    · exact List.nil_prefix
    · exact List.cons_prefix_cons.mpr ⟨rfl, code_initial r⟩

/-- What is behind the code holds none. -/
theorem code_drop_code : ∀ raw : List Char,
    (splitComment (raw.drop (splitComment raw).1.length)).1 = []
  | [] => rfl
  | c :: r => by
    cases h : afterMark? (c :: r) with
    | some comment =>
      have hcode : (splitComment (c :: r)).1 = [] := by simp only [splitComment, h]
      rw [hcode]
      exact hcode
    | none =>
      have hcode : (splitComment (c :: r)).1 = c :: (splitComment r).1 := by
        simp only [splitComment, h]
      rw [hcode]
      exact code_drop_code r

/-! ## 2. Words -/

/-- The word holds no blank and no part of a mark. -/
structure PlainWord (w : List Char) : Prop where
  ne_nil : w ≠ []
  isBlank : ∀ c ∈ w, Text.isBlank c = false
  plain : ∀ c ∈ w, IsPlain c

/-- No mark is among the letters and digits. -/
theorem isPlain_of_toNat (h : c.toNat ≠ 35 ∧ c.toNat ≠ 59 ∧ c.toNat ≠ 47) : IsPlain c := by
  refine ⟨?_, ?_, ?_⟩
  · rintro rfl
    exact h.1 rfl
  · rintro rfl
    exact h.2.1 rfl
  · rintro rfl
    exact h.2.2 rfl

/-- No blank is part of a mark. -/
theorem isPlain_of_isBlank (h : Text.isBlank c = true) : IsPlain c := by
  simp only [Text.isBlank, Bool.or_eq_true, Bool.and_eq_true, decide_eq_true_eq, beq_iff_eq] at h
  exact isPlain_of_toNat (by omega)

/-- Digits, and what capital forms are looked up of, lie between the blanks and apart from the
marks. -/
theorem plainWord_of_toNat (hne : w ≠ [])
    (h : ∀ c ∈ w, (48 ≤ c.toNat ∧ c.toNat ≤ 57) ∨ (65 ≤ c.toNat ∧ c.toNat ≤ 122) ∨
      c.toNat = 0x17F ∨ c.toNat = 0x131 ∨ c.toNat = 0xFB05 ∨ c.toNat = 0xFB06) : PlainWord w where
  ne_nil := hne
  isBlank c hc := by
    have hrange := h c hc
    rw [Bool.eq_false_iff]
    intro hblank
    simp only [Text.isBlank, Bool.or_eq_true, Bool.and_eq_true, decide_eq_true_eq,
      beq_iff_eq] at hblank
    omega
  plain c hc := by
    have hrange := h c hc
    exact isPlain_of_toNat (by omega)

/-- A character whose capital form is all capitals is a plain letter, or one of the few others
that have such a form. -/
theorem toNat_of_capital (h : ∀ d ∈ Text.capital c, d.isUpper = true) :
    (65 ≤ c.toNat ∧ c.toNat ≤ 122) ∨
      c.toNat = 0x17F ∨ c.toNat = 0x131 ∨ c.toNat = 0xFB05 ∨ c.toNat = 0xFB06 := by
  unfold Text.capital at h
  split at h
  · next hc =>
    simp only [Bool.and_eq_true, decide_eq_true_eq] at hc
    omega
  · split at h
    · next hc => exact .inr (.inl (eq_of_beq hc))
    · split at h
      · next hc => exact .inr (.inr (.inl (eq_of_beq hc)))
      · split at h
        · next hc =>
          simp only [Bool.or_eq_true, beq_iff_eq] at hc
          omega
        · have hupper := Text.isUpper_iff.mp (h c (List.mem_singleton_self c))
          omega

/-- **An instruction word holds no blank and no mark**, however it is spelled. -/
theorem plainWord_of_ofWord? {m : Mnemonic} (h : Mnemonic.ofWord? w = some m) : PlainWord w := by
  refine plainWord_of_toNat ?_ fun c hc => ?_
  · rintro rfl
    cases h
  · refine .inr (toNat_of_capital fun d hd => Mnemonic.isUpper_of_ofWord? h d ?_)
    exact List.mem_flatMap.mpr ⟨c, hc, hd⟩

/-- The runs of digits lie apart from what capital forms are looked up of. -/
theorem digitZeros_capital : ∀ z ∈ Text.digitZeros,
    z = 0x30 ∨ (0x660 ≤ z ∧ (z + 10 ≤ 0xFB05 ∨ 0xFB06 < z)) := by
  decide

/-- **A number is no instruction word**, in digits of whichever script. -/
theorem ofWord?_of_isNumeral (h : Text.isNumeral w = true) : Mnemonic.ofWord? w = none := by
  obtain ⟨hne, hdigits⟩ := Text.isNumeral_iff.mp h
  obtain ⟨c, r, rfl⟩ := List.exists_cons_of_ne_nil hne
  rw [Option.eq_none_iff_forall_ne_some]
  intro m hm
  obtain ⟨z, hz, hlo, hhi⟩ := Text.exists_zero_of_isDigit (hdigits c List.mem_cons_self)
  have hgap := digitZeros_capital z hz
  have hcapital := toNat_of_capital fun d hd => Mnemonic.isUpper_of_ofWord? hm d
    (List.mem_flatMap.mpr ⟨c, List.mem_cons_self, hd⟩)
  omega

theorem toNat_of_isLabelStart (h : isLabelStart c = true) : 65 ≤ c.toNat ∧ c.toNat ≤ 122 := by
  have hranges : isLabelStart c = (decide ('A'.val ≤ c.val ∧ c.val ≤ 'Z'.val) ||
      (decide ('a'.val ≤ c.val) && decide (c.val ≤ 'z'.val)) || c == '_') := rfl
  simp only [hranges, Bool.or_eq_true, Bool.and_eq_true, decide_eq_true_eq, beq_iff_eq,
    UInt32.le_iff_toNat_le] at h
  rcases h with (⟨h1, h2⟩ | ⟨h1, h2⟩) | rfl
  · exact ⟨h1, Nat.le_trans h2 (by decide)⟩
  · exact ⟨Nat.le_trans (by decide) h1, h2⟩
  · decide

/-- **A label holds no blank and no mark.** -/
theorem plainWord_of_isLabel (h : isLabel w = true) : PlainWord w := by
  cases w with
  | nil => exact Bool.noConfusion h
  | cons c cs =>
    obtain ⟨hc, hcs⟩ := (Bool.and_eq_true _ _).mp h
    refine plainWord_of_toNat (List.cons_ne_nil c cs) fun d hd => ?_
    rcases List.mem_cons.mp hd with rfl | hd
    · exact .inr (.inl (toNat_of_isLabelStart hc))
    · have hpart : isLabelPart d = true := List.all_eq_true.mp hcs d hd
      rcases (Bool.or_eq_true _ _).mp hpart with hstart | hdigit
      · exact .inr (.inl (toNat_of_isLabelStart hstart))
      · exact .inl (Char.isDigit_iff_toNat.mp hdigit)

/-- **A number holds no blank and no mark.** -/
theorem plainWord_of_isSignedNumeral (h : Text.isSignedNumeral w = true) : PlainWord w := by
  obtain ⟨hne, hdigits⟩ := Text.isNumeral_iff.mp h
  have hdigit : ∀ c ∈ (Text.splitSign w).2, Text.isBlank c = false ∧ IsPlain c := by
    intro c hc
    have hd := hdigits c hc
    exact ⟨Text.isBlank_of_isDigit hd, Text.ne_of_isDigit hd (by decide),
      Text.ne_of_isDigit hd (by decide), Text.ne_of_isDigit hd (by decide)⟩
  have hall : ∀ c ∈ w, Text.isBlank c = false ∧ IsPlain c := by
    intro c hc
    rcases Text.eq_sign_append_of_splitSign w with hw | hw | hw
    · exact hdigit c (hw ▸ hc)
    · rw [hw] at hc
      rcases List.mem_cons.mp hc with rfl | hc
      · exact ⟨rfl, by decide, by decide, by decide⟩
      · exact hdigit c hc
    · rw [hw] at hc
      rcases List.mem_cons.mp hc with rfl | hc
      · exact ⟨rfl, by decide, by decide, by decide⟩
      · exact hdigit c hc
  refine ⟨?_, fun c hc => (hall c hc).1, fun c hc => (hall c hc).2⟩
  rintro rfl
  exact hne rfl

end Source
end MinionComputer
