/-
# Writing statements and assembling them again

A statement without a label, whose operand is a number in plain digits, is written as its
instruction word and its operand with a blank between them.  What is written so holds no mark of a
comment and no line end, so one line is read as one statement, and a text of such lines is the
program it was written from.

* `Statement.text`, `programText`: how they are written;
* `Line.parse_text`: one line is read back;
* `statements_programText`: a whole text is;
* `ofSource_programText`: what it is assembled to.
-/
import Mathlib.Data.List.Forall2
import MinionComputer.Proofs.Instruction
import MinionComputer.Proofs.Source.Assembly
import MinionComputer.Proofs.Text.Decimal
import MinionComputer.Proofs.Text.Pieces

namespace MinionComputer
namespace Source

/-! ## 1. One statement -/

namespace Statement

/-- A statement without its label as it is written. -/
def text (s : Statement) : List Char :=
  match s.operand with
  | none => s.mnemonic.letters
  | some w => s.mnemonic.letters ++ ' ' :: w

/-- A statement that has no label, and plain digits as its operand if it has one. -/
structure Plain (s : Statement) : Prop where
  label : s.label = none
  fits : s.OperandFits
  decimal : ∀ w, s.operand = some w → Text.Decimal w

variable {s : Statement}

/-- What is written of a statement are capitals, digits and a blank. -/
theorem Plain.mem_text (h : s.Plain) {c : Char} (hc : c ∈ s.text) :
    c.isUpper = true ∨ c = ' ' ∨ c.isDigit = true := by
  unfold text at hc
  cases ho : s.operand with
  | none =>
    rw [ho] at hc
    exact .inl (s.mnemonic.isUpper_of_mem_letters c hc)
  | some w =>
    rw [ho] at hc
    rcases List.mem_append.mp hc with hc | hc
    · exact .inl (s.mnemonic.isUpper_of_mem_letters c hc)
    · rcases List.mem_cons.mp hc with hc | hc
      · exact .inr (.inl hc)
      · exact .inr (.inr ((h.decimal w ho).plain c hc))

theorem Plain.toNat_of_mem_text (h : s.Plain) {c : Char} (hc : c ∈ s.text) :
    c.toNat = 32 ∨ (48 ≤ c.toNat ∧ c.toNat ≤ 57) ∨ (65 ≤ c.toNat ∧ c.toNat ≤ 90) := by
  rcases h.mem_text hc with hc | rfl | hc
  · exact .inr (.inr (Text.isUpper_iff.mp hc))
  · exact .inl rfl
  · exact .inr (.inl (Char.isDigit_iff_toNat.mp hc))

/-- **The words of what is written are the instruction word and the operand.** -/
theorem Plain.words_text (h : s.Plain) :
    Text.words s.text = s.mnemonic.letters :: s.operand.toList := by
  have hletters : ∀ c ∈ s.mnemonic.letters, Text.isBlank c = false := fun c hc =>
    Text.isBlank_of_isUpper (s.mnemonic.isUpper_of_mem_letters c hc)
  unfold text
  cases ho : s.operand with
  | none => exact Text.words_eq_singleton hletters s.mnemonic.letters_ne_nil
  | some w =>
    have hw := h.decimal w ho
    have hblank : Text.isBlank ' ' = true := rfl
    have hone : Text.words w = [w] := Text.words_eq_singleton hw.isBlank hw.ne_nil
    simp only [Text.words_append_cons hletters s.mnemonic.letters_ne_nil hblank, hone,
      Option.toList_some]

/-- An operand in plain digits is not taken for an instruction word. -/
theorem isInstruction_of_decimal {w : List Char} (h : Text.Decimal w) :
    isInstruction w = false := by
  cases w with
  | nil => exact absurd rfl h.ne_nil
  | cons c r =>
    rw [isInstruction, Mnemonic.ofWord?_cons_of_isDigit r (h.plain c List.mem_cons_self)]
    rfl

/-- **The words of a statement make it up.** -/
theorem Plain.ofWords (h : s.Plain) :
    Statement.ofWords (s.mnemonic.letters :: s.operand.toList) = .ok (some s) := by
  have hshape : unlabelled s.mnemonic s.mnemonic.letters s.operand.toList = .ok s := by
    obtain ⟨label, m, operand⟩ := s
    cases h.label
    cases operand with
    | none => rfl
    | some w =>
      have hw := isInstruction_of_decimal (h.decimal w rfl)
      simp [unlabelled, readOperand, hw, Except.map]
  have hcheck : checkOperand s = .ok s := checkOperand_eq_ok_iff.mpr ⟨rfl, h.fits⟩
  have hlength : ¬ 2 < s.operand.toList.length := by
    cases s.operand <;> simp
  simp only [Statement.ofWords, if_neg hlength, Mnemonic.ofWord?_letters, hshape]
  simp [Except.bind, Except.map, hcheck]

end Statement

/-! ## 2. One line -/

/-- A text without a mark is all code. -/
theorem splitComment_of_unmarked : ∀ {cs : List Char},
    (∀ c ∈ cs, c ≠ '#' ∧ c ≠ ';' ∧ c ≠ '/') → splitComment cs = (cs, none)
  | [], _ => rfl
  | c :: r, h => by
    obtain ⟨⟨hhash, hsemicolon, hslash⟩, hr⟩ := List.forall_mem_cons.mp h
    have hmark : afterMark? (c :: r) = none := by
      unfold afterMark?
      split
      · next he => exact absurd (List.cons.inj he).1 hhash
      · next he => exact absurd (List.cons.inj he).1 hsemicolon
      · next he => exact absurd (List.cons.inj he).1 hslash
      · rfl
    simp only [splitComment, hmark, splitComment_of_unmarked hr]

variable {s : Statement}

/-- **A line that was written is read as the statement.** -/
theorem Line.parse_text (number : Int) (h : s.Plain) :
    Line.parse number s.text = .ok ⟨some s, none, number, s.text⟩ := by
  have hcode : splitComment s.text = (s.text, none) := by
    refine splitComment_of_unmarked fun c hc => ?_
    have hrange := h.toNat_of_mem_text hc
    refine ⟨?_, ?_, ?_⟩ <;> rintro rfl <;> revert hrange <;> decide
  simp only [Line.parse, hcode, h.words_text, h.ofWords]

theorem statementOn_text (number : Nat) (h : s.Plain) : statementOn (number, s.text) = some s :=
  statementOn_of_parse (x := (number, s.text)) (Line.parse_text number h)

/-- No statement is written over a line end. -/
theorem Statement.Plain.isLineEnd_of_mem_text (h : s.Plain) {c : Char} (hc : c ∈ s.text) :
    Text.isLineEnd c = false := by
  have hrange := h.toNat_of_mem_text hc
  rw [Bool.eq_false_iff]
  intro hend
  simp only [Text.isLineEnd, Bool.or_eq_true, Bool.and_eq_true, decide_eq_true_eq,
    beq_iff_eq] at hend
  omega

/-! ## 3. A whole text -/

/-- A program as it is written: a line for each statement, and a blank line for none. -/
def programText (program : List Statement) : List Char :=
  Text.joinWith '\n' (program.map Statement.text) ++ ['\n']

variable {program : List Statement}

/-- The lines of a program that was written, with their numbers. -/
theorem numberedLines_programText (h : ∀ s ∈ program, s.Plain) (hne : program ≠ []) :
    numberedLines (programText program) = Text.numbered (program.map Statement.text) := by
  rw [numberedLines, programText, Text.lines_joinWith (by simpa using hne)]
  intro l hl c hc
  obtain ⟨s, hs, rfl⟩ := List.mem_map.mp hl
  exact (h s hs).isLineEnd_of_mem_text hc

/-- The number of a line and the statement that was written on it. -/
theorem exists_of_mem_numbered_map {x : Nat × List Char}
    (hx : x ∈ Text.numbered (program.map Statement.text)) :
    ∃ s ∈ program, x.2 = s.text := by
  obtain ⟨y, hy, rfl⟩ := List.mem_map.mp hx
  obtain ⟨s, hs, htext⟩ := List.mem_map.mp (List.fst_mem_of_mem_zipIdx hy)
  exact ⟨s, hs, htext.symm⟩

/-- **Every line of a program that was written is read.** -/
theorem parse_of_mem_programText (h : ∀ s ∈ program, s.Plain) :
    ∀ x ∈ numberedLines (programText program), ∃ line, Line.parse x.1 x.2 = .ok line := by
  intro x hx
  by_cases hne : program = []
  · subst hne
    cases List.mem_singleton.mp hx
    exact ⟨_, rfl⟩
  · rw [numberedLines_programText h hne] at hx
    obtain ⟨s, hs, htext⟩ := exists_of_mem_numbered_map hx
    rw [htext]
    exact ⟨_, Line.parse_text x.1 (h s hs)⟩

/-- **The statements of a program that was written are the program.** -/
theorem statements_programText (h : ∀ s ∈ program, s.Plain) :
    statements (programText program) = program := by
  by_cases hne : program = []
  · subst hne
    rfl
  · have hread : ∀ x ∈ program.zipIdx,
        statementOn (x.2 + 1, x.1.text) = some x.1 := fun x hx =>
      statementOn_text (x.2 + 1) (h x.1 (List.fst_mem_of_mem_zipIdx hx))
    rw [statements, numberedLines_programText h hne, statementsOn, Text.numbered,
      List.zipIdx_map, List.map_map, List.filterMap_map]
    calc program.zipIdx.filterMap _
        = program.zipIdx.filterMap (some ∘ Prod.fst) := List.filterMap_congr hread
      _ = program.zipIdx.map Prod.fst := by rw [List.filterMap_eq_map]
      _ = program := List.zipIdx_map_fst 0 program

/-! ## 4. What it is assembled to -/

/-- The statement has the cell `c`, whatever the labels stand for. -/
def Statement.StandsFor (s : Statement) (c : Cell) : Prop :=
  ∀ (symbols : Symbols) (p : Placed), p.statement = s → p.cell symbols = .ok c

/-- Statements without labels fit a memory that is large enough, if the extended instructions are
where they are allowed. -/
theorem fits_of_unlabelled {enabled : Bool} (h : ∀ s ∈ program, s.label = none)
    (hsize : program.length ≤ 100)
    (hmark : ∀ (i : Nat) (s : Statement), program[i]? = some s → s.mnemonic = .ext → i = 0)
    (hpermitted : enabled = false → ∀ s ∈ program, s.mnemonic.isExtended = false) :
    Fits enabled 0 [] program := by
  have hlabels : labels program = [] :=
    List.filterMap_eq_nil_iff.mpr h
  refine ⟨by omega, ?_, ?_, ?_, ?_⟩
  · rw [hlabels]
    exact List.nodup_nil
  · simp
  · intro i s hs hm
    rw [hmark i s hs hm]
  · intro hoff s hs
    exact isExtended_eq_false_iff.mp (hpermitted hoff s hs)

/-- The cells of the second pass are those that the statements stand for. -/
theorem secondCells_of_standsFor {symbols : Symbols} {placed : List Placed} {cells : List Cell}
    (h : List.Forall₂ Statement.StandsFor (placed.map (·.statement)) cells) :
    (∀ p ∈ placed, ∃ c, p.cell symbols = .ok c) ∧ secondCells symbols placed = cells := by
  rw [List.forall₂_map_left_iff] at h
  induction h with
  | nil => simp [secondCells]
  | cons hp _ ih =>
    have hcell := hp symbols _ rfl
    refine ⟨List.forall_mem_cons.mpr ⟨⟨_, hcell⟩, ih.1⟩, ?_⟩
    rw [secondCells, List.map_cons, hcell]
    exact congrArg _ ih.2

/-- **A program that was written is assembled to the cells that its statements stand for.** -/
theorem ofSource_programText {enabled : Bool} {cells : List Cell} (h : ∀ s ∈ program, s.Plain)
    (hfits : Fits enabled 0 [] program)
    (hcells : List.Forall₂ Statement.StandsFor program cells) :
    (Assembly.ofSource enabled (programText program)).result = .ok (Memory.ofList cells) := by
  have hread := parse_of_mem_programText h
  have hstatements : statementsOn (numberedLines (programText program)) = program :=
    statements_programText h
  rw [← hstatements] at hfits
  have hnone : (firstPass enabled (programText program)).problems = [] :=
    (FirstPass.problems_ofLines_eq_nil_iff _ 0 [] (Nat.zero_le 100)).mpr ⟨hread, hfits⟩
  have hplaced := (FirstPass.places_ofLines _ 0 [] hread hfits).statements
  rw [hstatements] at hplaced
  rw [← hplaced] at hcells
  obtain ⟨hok, heq⟩ := secondCells_of_standsFor hcells
  exact ofSource_ok_iff.mpr ⟨hnone, secondPass_eq_ok_iff.mpr ⟨hok, congrArg _ heq.symm⟩⟩

end Source
end MinionComputer
