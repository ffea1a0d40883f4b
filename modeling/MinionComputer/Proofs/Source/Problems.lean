/-
# Every problem is at a line that gives rise to it

A source text that is not assembled is refused for its problems, and each of them names a line that
cannot stand where it stands: the line cannot be read, its statement does not fit behind those
before it, or its operand has no value that its instruction word allows (`Offends`).  Faults that
are collected are of these three kinds, whichever their cause.  There is one more end, and it names
no line: an operand of more digits than are read.

* `FirstFault.offends`, `SecondFault.offends`: the faults of the two passes;
* `offendsAt_of_ofSource`: all problems of a text, with the line counted from one;
* `ofSource_tooLong_iff`: when a text ends without a problem at a line.
-/
import MinionComputer.Proofs.Source.Collection

namespace MinionComputer
namespace Source

variable {enabled : Bool} {symbols : Symbols} {program before : List Statement}
  {mid : List (Nat × List Char)} {x : Nat × List Char} {s : Statement} {c : Cause} {q : Problem}
  {source : List Char}

/-! ## 1. Lines that cannot stand where they stand -/

/-- Why a line cannot stand behind the lines `before` it, in a text of which `program` are all
statements. -/
inductive Offends (enabled : Bool) (program : List Statement) (before : List (Nat × List Char))
    (x : Nat × List Char) : Prop
  /-- It cannot be read. -/
  | unreadable {p : Problem} (h : Line.parse x.1 x.2 = .error p)
  /-- Its statement does not fit behind those before it. -/
  | misplaced {s : Statement} (hs : statementOn x = some s)
      (h : ¬ FitsAt enabled (statementsOn before).length (labels (statementsOn before)) s)
  /-- The operand of its statement has no value that the instruction word allows. -/
  | valueless {s : Statement} {w : List Char} (hs : statementOn x = some s)
      (ho : s.operand = some w) (h : ∀ v, Denotes program w v → ¬ InRange s.mnemonic v)

/-- What is wrong with a statement in its place keeps it from fitting there. -/
theorem PlaceFault.not_fitsAt (h : PlaceFault enabled before s c) :
    ¬ FitsAt enabled before.length (labels before) s := by
  intro hfits
  cases h with
  | duplicate hl ha =>
    rw [findIdx?_label_eq_none_iff.mpr (hfits.fresh _ hl)] at ha
    cases ha
  | extensionOff _ hoff hm =>
    rw [isExtended_eq_false_iff.mpr (hfits.permitted hoff)] at hm
    cases hm
  | misplacedMark _ _ hm hne => exact hne (List.length_eq_zero_iff.mp (hfits.mark hm))

/-- **A line that is faulty for the first pass cannot stand behind the lines before it.** -/
theorem FirstFault.offends (h : FirstFault enabled (statementsOn mid) x.2 c) :
    Offends enabled program mid x := by
  cases h with
  | unreadable hc => exact .unreadable (Line.parse_of_content_error hc x.1)
  | misplaced hs _ hplace => exact .misplaced (statementOn_of_content hs) hplace.not_fitsAt
  | tooLarge hs hfull =>
    exact .misplaced (statementOn_of_content hs) fun hfits => Nat.ne_of_lt hfits.room hfull

/-- **A statement that is faulty for the second pass has an operand without a value in range.** -/
theorem SecondFault.offends (h : SecondFault program s c) (hbinds : Binds symbols program)
    (hsize : program.length ≤ 100) (hshort : ShortNumerals program) (hs : s ∈ program)
    (hx : statementOn x = some s) : Offends enabled program mid x := by
  -- a statement that has no cell has an operand without a value in range, wherever it is placed
  have hcell := (cell_eq_cause_iff hbinds hsize hshort hs).mpr h
  have hnone : ¬ ∃ c, Placed.cell symbols ⟨s, 0, 0, []⟩ = .ok c := by
    rintro ⟨c', hc'⟩
    cases hcell.symm.trans hc'
  rw [exists_cell_iff hbinds hsize hshort hs] at hnone
  push Not at hnone
  obtain ⟨w, ho, hvalue⟩ := hnone
  exact .valueless hx ho hvalue

/-! ## 2. Both passes -/

/-- The problem names the line at some place of the text by its number, counted from one, and
this line cannot stand there. -/
def OffendsAt (enabled : Bool) (source : List Char) (q : Problem) : Prop :=
  ∃ i raw, (Text.lines source)[i]? = some raw ∧ q.IsOn (i + 1, raw) ∧
    Offends enabled (statements source) ((numberedLines source).take i) (i + 1, raw)

theorem offendsAt_of_firstPass (h : q ∈ (firstPass enabled source).problems) :
    OffendsAt enabled source q := by
  obtain ⟨i, raw, hline, hfault, hnumber, htext⟩ :=
    ((collects_firstPass enabled source).mem_iff q).mp h
  exact ⟨i, raw, hline, ⟨hnumber, htext⟩, FirstFault.offends (x := (i + 1, raw)) hfault⟩

/-- A problem of the second pass is on a line whose operand has no value in range, since the
first pass found nothing and no operand is too long. -/
theorem offendsAt_of_secondPass {qs : List Problem}
    (hfirst : (firstPass enabled source).problems = [])
    (hsecond : secondProblems (firstPass enabled source).symbols
      (firstPass enabled source).placed = .ok qs) (h : q ∈ qs) :
    OffendsAt enabled source q := by
  have hands := handsOver_firstPass hfirst
  have hshort : ShortNumerals (statements source) := by
    by_contra hlong
    rw [← hands.statements, ← secondProblems_error_iff, hsecond] at hlong
    obtain ⟨digits, hd⟩ := hlong
    cases hd
  obtain ⟨qs', hqs', hcollects⟩ := collects_secondPass hfirst hshort
  cases hsecond.symm.trans hqs'
  obtain ⟨i, raw, hline, ⟨s, hs, hfault⟩, hnumber, htext⟩ := (hcollects.mem_iff q).mp h
  have hx : statementOn (i + 1, raw) = some s := statementOn_of_content hs
  have hmem : s ∈ statements source :=
    List.mem_filterMap.mpr ⟨(i + 1, raw), Text.mem_numbered.mpr ⟨i, hline, rfl⟩, hx⟩
  exact ⟨i, raw, hline, ⟨hnumber, htext⟩,
    hfault.offends hands.binds hands.size hshort hmem hx⟩

/-- **Every problem of a text is at a line that cannot stand where it stands.** -/
theorem offendsAt_of_ofSource {pass : Pass} {others : List Problem} {first : Problem}
    (h : (Assembly.ofSource enabled source).result = .error (.problems pass first others))
    (hq : q ∈ first :: others) : OffendsAt enabled source q := by
  rw [ofSource_result_eq] at h
  cases hfirst : (firstPass enabled source).problems with
  | cons p ps =>
    rw [hfirst] at h
    cases h
    exact offendsAt_of_firstPass (hfirst ▸ hq)
  | nil =>
    rw [hfirst] at h
    change secondPass _ _ = _ at h
    unfold secondPass at h
    split at h
    · cases h
    · next qs hsecond =>
      cases qs with
      | nil => cases h
      | cons p ps =>
        cases h
        exact offendsAt_of_secondPass hfirst hsecond hq

/-- **A text ends without a problem at a line exactly when its first pass finds nothing wrong and
an operand has more digits than are read.** -/
theorem ofSource_tooLong_iff :
    (∃ digits, (Assembly.ofSource enabled source).result = .error (.tooLong digits)) ↔
      (firstPass enabled source).problems = [] ∧ ¬ ShortNumerals (statements source) := by
  rw [ofSource_result_eq]
  cases hfirst : (firstPass enabled source).problems with
  | cons p ps => simp [faultOf]
  | nil =>
    have hands := handsOver_firstPass hfirst
    have hiff := secondProblems_error_iff (firstPass enabled source).symbols
      (firstPass enabled source).placed
    rw [hands.statements] at hiff
    rw [← hiff, and_iff_right rfl]
    refine exists_congr fun digits => ?_
    change secondPass _ _ = _ ↔ _
    unfold secondPass
    cases secondProblems (firstPass enabled source).symbols (firstPass enabled source).placed with
    | error d => simp
    | ok qs => cases qs <;> simp [faultOf]

end Source
end MinionComputer
