/-
# Disassembling loses nothing

A cell is shown as the statement it would be executed as when that statement stands for the same
cell, and as data otherwise.  The mark of extended mode is shown by its word only at address 0,
where the assembler allows it, and only in extended mode are the extended words shown at all.  So
what is shown is a program that assembles to the memory again.

* `Disassembly.statement`: the statement a cell is shown as;
* `Disassembly.Shows`, `shows_statement`: what is known of it;
* `sourceText_eq_programText`: a source text is such statements written one after another;
* `ofSource_sourceText`, `sourceText_assembles`: it is assembled to the memory.
-/
import MinionComputer.Disassembly
import MinionComputer.Proofs.Memory
import MinionComputer.Proofs.Source.Writing
import MinionComputer.Proofs.Text.Trimming

namespace MinionComputer

open Source (Statement Symbols Assembly)

/-! ## 1. Numbers as operands -/

/-- A number that fits its field is read back as an operand. -/
theorem Source.operandValue_padded (symbols : Symbols) {width n : Nat} (hwidth : 0 < width)
    (hlimit : width ≤ Text.digitLimit) (h : n < 10 ^ width) :
    Source.operandValue symbols (Text.padded width (n : Int)) = .ok (n : Int) := by
  have hdecimal := Text.decimal_padded width n
  have hlength : (Text.padded width (n : Int)).length ≤ Text.digitLimit := by
    rw [Text.length_padded hwidth h]
    exact hlimit
  rw [operandValue, if_pos hdecimal.isSignedNumeral, hdecimal.readInteger hlength,
    Text.digitsValue_padded]

theorem Cell.operandValue_digits (symbols : Symbols) (c : Cell) :
    Source.operandValue symbols (Cell.digits c) = .ok (Cell.toInt c) :=
  Source.operandValue_padded symbols (by decide) (by decide) c.isLt

theorem Address.operandValue_digits (symbols : Symbols) (a : Address) :
    Source.operandValue symbols (Address.digits a) = .ok (Address.toInt a) :=
  Source.operandValue_padded symbols (by decide) (by decide) a.isLt

/-! ## 2. One cell -/

/-- An instruction as a statement. -/
def Instruction.statement (i : Instruction) : Statement :=
  ⟨none, i.mnemonic, i.operand?.map Address.digits⟩

/-- A cell as data. -/
def Cell.statement (c : Cell) : Statement := ⟨none, .dat, some (Cell.digits c)⟩

theorem Cell.plain_statement (c : Cell) : c.statement.Plain where
  label := rfl
  fits := ⟨nofun, nofun⟩
  decimal := by
    rintro w ⟨⟩
    exact Text.decimal_padded 3 c.val

theorem Cell.standsFor_statement (c : Cell) : c.statement.StandsFor c := by
  rintro symbols p hp
  rw [Source.Placed.cell, hp]
  change (Source.operandValue symbols (Cell.digits c)).bind (Source.cellOf .dat) = .ok c
  rw [Cell.operandValue_digits]
  simp [Except.bind, Source.cellOf]

theorem Instruction.text_statement (i : Instruction) : i.statement.text = i.text := by
  unfold Statement.text statement text
  cases i.operand? <;> rfl

theorem Instruction.plain_statement (i : Instruction) : i.statement.Plain where
  label := rfl
  fits := by
    have hform := i.form_eq
    unfold Statement.OperandFits statement
    cases ho : i.operand? with
    | none =>
      rw [ho] at hform
      exact ⟨fun haddress => (nomatch hform.symm.trans haddress), fun _ => rfl⟩
    | some a =>
      rw [ho] at hform
      exact ⟨fun _ => nofun, fun hnone => nomatch hform.symm.trans hnone⟩
  decimal := by
    intro w hw
    obtain ⟨a, -, rfl⟩ := Option.map_eq_some_iff.mp hw
    exact Text.decimal_padded 2 a.val

theorem Instruction.mnemonic_ne_dat (i : Instruction) : i.mnemonic ≠ .dat := by
  cases i <;> exact nofun

theorem Instruction.standsFor_statement (i : Instruction) : i.statement.StandsFor i.toCell := by
  rintro symbols p hp
  rw [Source.Placed.cell, hp, toCell]
  simp only [statement]
  cases i.operand? with
  | none => rfl
  | some a =>
    simp [Address.operandValue_digits, Except.bind, Source.cellOf, i.mnemonic_ne_dat]

namespace Disassembly

/-- The statement that a cell is shown as at its place. -/
def statement (extended : Bool) (address : Nat) (c : Cell) : Statement :=
  if address ≠ 0 ∧ c = 10 then c.statement
  else match Instruction.ofCell extended c with
    | none => c.statement
    | some i => if i = .halt ∧ c ≠ 0 then c.statement else i.statement

/-- What is known of the statement that a cell is shown as: it is data, or an instruction that
stands for the cell, and the mark of extended mode only in its place. -/
inductive Shows (extended : Bool) (address : Nat) (c : Cell) : Statement → Prop
  | data : Shows extended address c c.statement
  | instruction {i : Instruction} (hi : Instruction.ofCell extended c = some i)
      (hcell : i.toCell = c) (hmark : i = .extend → address = 0) :
      Shows extended address c i.statement

variable {extended : Bool} {address : Nat} {c : Cell} {s : Statement}

theorem shows_statement (extended : Bool) (address : Nat) (c : Cell) :
    Shows extended address c (statement extended address c) := by
  unfold statement
  split
  · exact .data
  · next hmark =>
    split
    · exact .data
    · next i hi =>
      split
      · exact .data
      · next hhalt =>
        have hcell : i.toCell = c := by
          by_cases h : i = .halt
          · subst h
            by_contra hne
            exact hhalt ⟨rfl, fun h0 => hne h0.symm⟩
          · exact Instruction.toCell_of_ofCell hi h
        refine .instruction hi hcell ?_
        rintro rfl
        by_contra hne
        exact hmark ⟨hne, hcell.symm⟩

theorem text_statement (extended : Bool) (address : Nat) (c : Cell) :
    (statement extended address c).text = words extended address (Cell.toInt c) := by
  have hmark : Cell.toInt c = mark ↔ c = 10 := @Cell.toInt_inj c 10
  have hof : Instruction.ofInt extended (Cell.toInt c) = Instruction.ofCell extended c := by
    rw [Instruction.ofInt, Cell.ofInt?_toInt, Option.bind_some]
  have hdata : c.statement.text = dataText (Cell.toInt c) := rfl
  unfold statement words cellText
  simp only [hmark, Cell.toInt_eq_zero_iff, hof, ne_eq]
  split
  · exact hdata
  · cases Instruction.ofCell extended c with
    | none => exact hdata
    | some i =>
      simp only
      split
      · exact hdata
      · exact i.text_statement

theorem Shows.plain (h : Shows extended address c s) : s.Plain := by
  cases h with
  | data => exact c.plain_statement
  | instruction => exact Instruction.plain_statement _

/-- **What a cell is shown as stands for the cell.** -/
theorem Shows.standsFor (h : Shows extended address c s) : s.StandsFor c := by
  cases h with
  | data => exact c.standsFor_statement
  | instruction _ hcell _ => exact hcell ▸ Instruction.standsFor_statement _

theorem Shows.address_eq_zero (h : Shows extended address c s) (hs : s.mnemonic = .ext) :
    address = 0 := by
  cases h with
  | data => cases hs
  | @instruction i _ _ hmark =>
    refine hmark ?_
    cases i <;> first | rfl | cases hs

theorem Shows.isExtended (h : Shows false address c s) : s.mnemonic.isExtended = false := by
  cases h with
  | data => rfl
  | instruction hi => exact Instruction.isExtended_of_ofCell hi

/-! ## 3. A whole memory -/

/-- The statements that cells from address 0 on are shown as. -/
def program (extended : Bool) (cells : List Cell) : List Statement :=
  cells.zipIdx.map fun x => statement extended x.2 x.1

variable {cells : List Cell}

theorem exists_shows_of_mem_program (h : s ∈ program extended cells) :
    ∃ address c, Shows extended address c s := by
  obtain ⟨x, -, rfl⟩ := List.mem_map.mp h
  exact ⟨x.2, x.1, shows_statement extended x.2 x.1⟩

theorem plain_of_mem_program (h : s ∈ program extended cells) : s.Plain := by
  obtain ⟨_, _, hshows⟩ := exists_shows_of_mem_program h
  exact hshows.plain

theorem forall₂_standsFor_program (extended : Bool) (cells : List Cell) :
    List.Forall₂ Statement.StandsFor (program extended cells) cells := by
  have h : List.Forall₂ Statement.StandsFor (program extended cells)
      (cells.zipIdx.map Prod.fst) := by
    rw [program, List.forall₂_map_left_iff, List.forall₂_map_right_iff, List.forall₂_same]
    intro x _
    exact (shows_statement extended x.2 x.1).standsFor
  rwa [List.zipIdx_map_fst] at h

/-- The statements fit a memory if the extended instructions are on, or none is shown. -/
theorem fits_program {enabled : Bool} (hsize : cells.length ≤ 100)
    (henabled : enabled = true ∨ extended = false) :
    Source.Fits enabled 0 [] (program extended cells) := by
  refine Source.fits_of_unlabelled (fun s hs => (plain_of_mem_program hs).label) ?_ ?_ ?_
  · simpa [program] using hsize
  · intro i s hs hm
    rw [program, List.getElem?_map, List.getElem?_zipIdx, Option.map_map] at hs
    obtain ⟨c, -, rfl⟩ := Option.map_eq_some_iff.mp hs
    have hzero := (shows_statement extended (0 + i) c).address_eq_zero hm
    omega
  · rintro rfl s hs
    have hplain : extended = false := henabled.resolve_left Bool.false_ne_true
    subst hplain
    obtain ⟨_, _, h⟩ := exists_shows_of_mem_program hs
    exact h.isExtended

end Disassembly

namespace Memory

/-- The cells without the zeros at the end. -/
def kept (m : Memory) : List Cell := Text.dropEnd (· == 0) m.toList

theorem length_kept_le (m : Memory) : m.kept.length ≤ 100 := by
  obtain ⟨k, hk⟩ := Text.exists_eq_dropEnd_append_replicate (0 : Cell) m.toList
  have hlength := congrArg List.length hk
  rw [length_toList, List.length_append] at hlength
  rw [kept]
  omega

/-- The zeros that are left out are those a memory holds anyway. -/
theorem ofList_kept (m : Memory) : ofList m.kept = m := by
  obtain ⟨k, hk⟩ := Text.exists_eq_dropEnd_append_replicate (0 : Cell) m.toList
  calc ofList m.kept = ofList (m.kept ++ List.replicate k 0) := (ofList_append_zeros _ k).symm
    _ = ofList m.toList := congrArg ofList hk.symm
    _ = m := ofList_toList m

/-- **A source text is the statements of the cells, written one after another.** -/
theorem sourceText_eq_programText (m : Memory) (extended : Option Bool) :
    m.sourceText extended =
      Source.programText (Disassembly.program (extended.getD m.isExtended) m.kept) := by
  have hzero : (fun n : Int => n == 0) ∘ Cell.toInt = fun c : Cell => c == 0 := by
    funext c
    exact Bool.eq_iff_iff.mpr (by simpa using Cell.toInt_eq_zero_iff)
  have hkept : Text.dropEnd (· == 0) m.values = m.kept.map Cell.toInt := by
    rw [values, Text.dropEnd_map, hzero]
    rfl
  simp [sourceText, Disassembly.sourceText, Disassembly.rows, hkept, List.zipIdx_map,
    Source.programText, Disassembly.program, Disassembly.row, Function.comp_def,
    Disassembly.text_statement]

/-- **A source text is assembled to the memory it was made from** wherever its words are
allowed. -/
theorem ofSource_sourceText {enabled : Bool} (m : Memory) (extended : Option Bool)
    (henabled : enabled = true ∨ extended.getD m.isExtended = false) :
    (Assembly.ofSource enabled (m.sourceText extended)).result = .ok m := by
  rw [sourceText_eq_programText]
  have hplain : ∀ s ∈ Disassembly.program (extended.getD m.isExtended) m.kept, s.Plain :=
    fun s hs => Disassembly.plain_of_mem_program hs
  rw [Source.ofSource_programText hplain (Disassembly.fits_program m.length_kept_le henabled)
    (Disassembly.forall₂_standsFor_program _ _), ofList_kept]

/-- **Disassembling loses nothing.**  Whichever mode a memory is shown in, the source text is
assembled to the same memory; and where it is not shown in extended mode, it is so with the
extended instructions off as well. -/
theorem sourceText_assembles (m : Memory) (extended : Option Bool) :
    (Assembly.ofSource true (m.sourceText extended)).result = .ok m ∧
      (extended = some false ∨ (extended = none ∧ m.read 0 ≠ 10) →
        (Assembly.ofSource false (m.sourceText extended)).result = .ok m) := by
  constructor
  · exact ofSource_sourceText m extended (.inl rfl)
  · intro hmode
    refine ofSource_sourceText m extended (.inr ?_)
    rcases hmode with rfl | ⟨rfl, hfirst⟩
    · rfl
    · exact beq_false_of_ne hfirst

/-- Cells of every kind: instructions with an address and without, cells that halt, cells that
have no meaning, and those that have one in extended mode only. -/
def mixed : Memory := ofList [911, 10, 0, 7, 400, 599, 902, 912, 0, 1]

/-- They are shown in plain mode, and assembled without the extended instructions. -/
theorem mixed_assembles :
    mixed.sourceText none =
        "DAT 911\nDAT 010\nHLT\nDAT 007\nDAT 400\nLDA 99\nOUT\nDAT 912\nHLT\nDAT 001\n".toList ∧
      mixed.read 0 ≠ 10 ∧
      (Assembly.ofSource false (mixed.sourceText none)).result = .ok mixed :=
  ⟨by decide +kernel, by decide,
    (sourceText_assembles mixed none).2 (.inr ⟨rfl, by decide⟩)⟩

end Memory
end MinionComputer
