/-
# A trace in print

Each line of a trace is printed on a line of its own: the address and the cell that the step
fetched, the instruction, and the registers after the step.  The numbers stand in fields of given
width, between words that are always the same, so it can be said of each which characters show it.

* `TraceLine.Prints`: the characters of a printed line;
* `TraceLine.prints_iff`: a line is printed so, and in no other way;
* `Machine.lines_traceText`, `Machine.prints_traceText`: the lines of the text of a trace.
-/
import Mathlib.Data.List.Forall2
import MinionComputer.Machine.Basic
import MinionComputer.Proofs.Text.Decimal
import MinionComputer.Proofs.Text.Pieces

namespace MinionComputer

/-! ## 1. What stands on a line -/

/-- The characters that show the registers: the program counter in two places, the accumulator in
three behind its sign, the flag as one letter, and the number of steps. -/
def Registers.Prints (r : Registers) (shown : List Char) : Prop :=
  ∃ pc acc steps : List Char,
    shown = "PC=".toList ++ pc ++ " ACC=".toList ++ (if r.acc < 0 then '-' else '+') :: acc ++
      " [".toList ++ (if r.negative then 'N' else '.') :: "] steps=".toList ++ steps ∧
    Text.SignedFigures 2 r.pc pc ∧ Text.Figures 3 r.acc.natAbs acc ∧
    Text.SignedFigures 0 r.steps steps

/-- The characters of a printed line: the address in two places, the cell in three, the text of the
instruction with blanks behind it, and the registers. -/
def TraceLine.Prints (l : TraceLine) (line : List Char) : Prop :=
  ∃ address cell shown : List Char,
    line = address ++ ": ".toList ++ cell ++ "  ".toList ++
      Text.leftAligned 7 l.instruction.text ++ ' ' :: shown ∧
    Text.Figures 2 l.address.val address ∧ Text.Figures 3 l.cell.val cell ∧
    l.registers.Prints shown

theorem Registers.prints_iff {r : Registers} {shown : List Char} :
    r.Prints shown ↔ shown = r.display := by
  have hdisplay : r.display = "PC=".toList ++ Text.padded 2 r.pc ++ " ACC=".toList ++
      (if r.acc < 0 then '-' else '+') :: Text.padded 3 (r.acc.natAbs : Int) ++ " [".toList ++
      (if r.negative then 'N' else '.') :: "] steps=".toList ++ Text.padded 0 r.steps := by
    rw [← Text.paddedSigned_succ]
    rfl
  rw [hdisplay]
  constructor
  · rintro ⟨pc, acc, steps, rfl, hpc, hacc, hsteps⟩
    rw [Text.signedFigures_iff.mp hpc, Text.figures_iff.mp hacc, Text.signedFigures_iff.mp hsteps]
  · rintro rfl
    exact ⟨_, _, _, rfl, Text.signedFigures_iff.mpr rfl, Text.figures_iff.mpr rfl,
      Text.signedFigures_iff.mpr rfl⟩

/-- **A line is printed so, and in no other way.** -/
theorem TraceLine.prints_iff {l : TraceLine} {line : List Char} :
    l.Prints line ↔ line = l.text := by
  have htext : l.text = Address.digits l.address ++ ": ".toList ++ Cell.digits l.cell ++
      "  ".toList ++ Text.leftAligned 7 l.instruction.text ++ ' ' :: l.registers.display := by
    simp only [TraceLine.text, List.append_assoc]
    rfl
  rw [htext]
  constructor
  · rintro ⟨address, cell, shown, rfl, haddress, hcell, hshown⟩
    rw [Text.figures_iff.mp haddress, Text.figures_iff.mp hcell, Registers.prints_iff.mp hshown]
    rfl
  · rintro rfl
    exact ⟨_, _, _, rfl, Text.figures_iff.mpr rfl, Text.figures_iff.mpr rfl,
      Registers.prints_iff.mpr rfl⟩

/-! ## 2. The text of a trace -/

theorem Instruction.isLineEnd_of_mem_text (i : Instruction) :
    ∀ c ∈ i.text, Text.isLineEnd c = false := by
  have hletters : ∀ w : Mnemonic, ∀ c ∈ w.letters, Text.isLineEnd c = false := by
    intro w
    refine Text.isLineEnd_of_all ?_
    cases w <;> rfl
  unfold Instruction.text
  split
  · simp only [List.forall_mem_append, List.forall_mem_cons]
    exact ⟨hletters _, rfl, Text.isLineEnd_of_mem_padded 2 _⟩
  · exact hletters _

theorem Registers.isLineEnd_of_mem_display (r : Registers) :
    ∀ c ∈ r.display, Text.isLineEnd c = false := by
  have hpc := Text.isLineEnd_of_mem_padded 2 r.pc
  have hacc := Text.isLineEnd_of_mem_paddedSigned 4 r.acc
  have hsteps := Text.isLineEnd_of_mem_padded 0 r.steps
  have hflag : Text.isLineEnd (if r.negative then 'N' else '.') = false := by
    split <;> rfl
  have hmark : ∀ c ∈ (if r.negative then 'N' else '.') :: "] steps=".toList,
      Text.isLineEnd c = false := List.forall_mem_cons.mpr ⟨hflag, Text.isLineEnd_of_all rfl⟩
  refine List.forall_mem_append.mpr ⟨?_, hsteps⟩
  refine List.forall_mem_append.mpr ⟨?_, hmark⟩
  refine List.forall_mem_append.mpr ⟨?_, Text.isLineEnd_of_all rfl⟩
  refine List.forall_mem_append.mpr ⟨?_, hacc⟩
  refine List.forall_mem_append.mpr ⟨?_, Text.isLineEnd_of_all rfl⟩
  exact List.forall_mem_append.mpr ⟨Text.isLineEnd_of_all rfl, hpc⟩

/-- No line of a trace has a line end in it. -/
theorem TraceLine.isLineEnd_of_mem_text (l : TraceLine) :
    ∀ c ∈ l.text, Text.isLineEnd c = false := by
  have haddress := Text.isLineEnd_of_mem_padded 2 (Address.toInt l.address)
  have hcell := Text.isLineEnd_of_mem_padded 3 (Cell.toInt l.cell)
  have hinstruction := l.instruction.isLineEnd_of_mem_text
  have hregisters := l.registers.isLineEnd_of_mem_display
  have hfill : ∀ c ∈ List.replicate (7 - l.instruction.text.length) ' ',
      Text.isLineEnd c = false := by
    intro c hc
    rw [List.eq_of_mem_replicate hc]
    rfl
  simp only [text, Text.leftAligned, List.forall_mem_append, List.forall_mem_cons]
  exact ⟨⟨⟨⟨haddress, rfl, rfl, hcell⟩, rfl, rfl, by simp⟩, hinstruction, hfill⟩, rfl, hregisters⟩

/-- **The lines of the text are the lines of the trace.** -/
theorem Machine.lines_traceText (m : Machine) :
    Text.lines m.traceText = m.trace.toList.map TraceLine.text := by
  refine Text.lines_joinWith_of_getLast? ?_ ?_
  · intro hlast
    obtain ⟨l, _, hl⟩ := List.mem_map.mp (List.mem_of_getLast? hlast)
    simp [TraceLine.text] at hl
  · intro cs hcs
    obtain ⟨l, _, rfl⟩ := List.mem_map.mp hcs
    exact l.isLineEnd_of_mem_text

/-- **Each line of the text shows a line of the trace.** -/
theorem Machine.prints_traceText (m : Machine) :
    List.Forall₂ TraceLine.Prints m.trace.toList (Text.lines m.traceText) := by
  rw [m.lines_traceText, List.forall₂_map_right_iff, List.forall₂_same]
  exact fun l _ => TraceLine.prints_iff.mpr rfl

end MinionComputer
