/-
# Where a line is cut

There are three marks of a comment, one of them two characters wide, and a line may hold any of them
any number of times, one over another and one behind another.  The line is cut at the least place
where any of the three stands.  Hence no mark is left in the code, so that cutting it again changes
nothing, and whatever stands behind the first mark belongs to the comment.

* `exists_marked_drop_iff`: a mark stands at some place if and only if it occurs;
* `Cut.not_marked_drop`: none is left in the code;
* `CutAtFirst`, `cuts_at_first_mark`: where a line is cut, and that every line is.
-/
import Mathlib.Order.Bounds.Basic
import MinionComputer.Proofs.Source.Grammar

namespace MinionComputer
namespace Source

variable {raw code : List Char} {comment : Option (List Char)}

/-- A mark stands at some place of a text if and only if one of the marks occurs in it. -/
theorem exists_marked_drop_iff :
    (∃ i, Marked (raw.drop i)) ↔ ∃ mark ∈ commentMarks, mark <:+: raw := by
  constructor
  · rintro ⟨i, mark, hmark, hprefix⟩
    exact ⟨mark, hmark, hprefix.isInfix.trans (List.drop_suffix i raw).isInfix⟩
  · rintro ⟨mark, hmark, front, rest, rfl⟩
    refine ⟨front.length, mark, hmark, ?_⟩
    rw [List.append_assoc, List.drop_left]
    exact List.prefix_append mark rest

theorem forall_not_marked_drop_iff :
    (∀ i, ¬ Marked (raw.drop i)) ↔ ∀ mark ∈ commentMarks, ¬ mark <:+: raw := by
  rw [← not_exists, exists_marked_drop_iff]
  simp only [not_exists, not_and]

/-- **No mark is left in the code**, not even one that would begin in it and end behind it. -/
theorem Cut.not_marked_drop (h : Cut raw code comment) (i : Nat) : ¬ Marked (code.drop i) := by
  cases h with
  | plain h => exact h i
  | @comment _ mark rest hmark hraw h =>
    rintro ⟨mark', hmark', hprefix⟩
    rcases Nat.lt_or_ge i code.length with hi | hi
    · -- What starts in the code stands at the same place of the line.
      have hdrop : raw.drop i = code.drop i ++ (mark ++ rest) := by
        rw [hraw, List.drop_append_of_le_length (Nat.le_of_lt hi)]
      refine h i hi ⟨mark', hmark', ?_⟩
      rw [hdrop]
      exact hprefix.trans (List.prefix_append _ _)
    · rw [List.drop_eq_nil_of_le hi] at hprefix
      exact not_marked_nil ⟨mark', hmark', hprefix⟩

/-- **Cutting the code again changes nothing.** -/
theorem Cut.splitComment_code (h : Cut raw code comment) : splitComment code = (code, none) :=
  cut_iff.mp (.plain h.not_marked_drop)

/-- The code ends at the least place of the line where a mark stands. -/
theorem isLeast_of_comment {mark rest : List Char} (hmark : mark ∈ commentMarks)
    (hraw : raw = code ++ (mark ++ rest)) (h : ∀ i < code.length, ¬ Marked (raw.drop i)) :
    IsLeast {i | ∃ mark ∈ commentMarks, mark <+: raw.drop i} code.length := by
  refine ⟨⟨mark, hmark, ?_⟩, fun i hi => Nat.le_of_not_lt fun hlt => h i hlt hi⟩
  rw [hraw, List.drop_left]
  exact List.prefix_append mark rest

/-- A line is cut at the first of its marks into the code and the comment. -/
structure CutAtFirst (raw : List Char) (cut : List Char × Option (List Char)) : Prop where
  /-- It is all code if and only if none of the marks occurs in it. -/
  plain : cut = (raw, none) ↔ ∀ mark ∈ commentMarks, ¬ mark <:+: raw
  /-- Otherwise the code ends at the least place where one of them stands, and behind that mark
  comes the comment, given without the blanks at its ends. -/
  marked : cut ≠ (raw, none) →
    IsLeast {i | ∃ mark ∈ commentMarks, mark <+: raw.drop i} cut.1.length ∧
      ∃ mark ∈ commentMarks, ∃ rest,
        raw = cut.1 ++ (mark ++ rest) ∧ cut.2 = some (Text.trim rest)
  /-- No mark occurs in the code. -/
  unmarked : ∀ mark ∈ commentMarks, ¬ mark <:+: cut.1
  /-- Cutting the code again leaves it as it is. -/
  again : splitComment cut.1 = (cut.1, none)

theorem Cut.cutAtFirst (h : Cut raw code comment) : CutAtFirst raw (code, comment) where
  plain := by
    rw [← forall_not_marked_drop_iff]
    constructor
    · intro heq i
      obtain ⟨hcode, -⟩ := Prod.mk.inj heq
      exact hcode ▸ h.not_marked_drop i
    · intro hnone
      exact (cut_iff.mp h).symm.trans (cut_iff.mp (.plain hnone))
  marked := by
    intro hmarked
    cases h with
    | plain _ => exact absurd rfl hmarked
    | @comment _ mark rest hmark hraw hleast =>
      exact ⟨isLeast_of_comment hmark hraw hleast, mark, hmark, rest, hraw, rfl⟩
  unmarked := forall_not_marked_drop_iff.mp h.not_marked_drop
  again := h.splitComment_code

/-- **Every line is cut at the first of its marks.** -/
theorem cuts_at_first_mark (raw : List Char) : CutAtFirst raw (splitComment raw) :=
  (cut_splitComment raw).cutAtFirst

end Source
end MinionComputer
