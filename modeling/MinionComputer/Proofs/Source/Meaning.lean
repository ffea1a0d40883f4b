/-
# What a source text means

A text is a list of statements, and a statement means a cell.  This is said here without passes,
symbol tables or the order in which labels are met: an operand is a number, or the label of a
statement anywhere in the text, and then it stands for the index of that statement.

* `statements`: the statements of a text, in order;
* `Denotes`: the values that a word in the place of an operand may have;
* `Assembles`: what a text must satisfy to be assembled;
* `Encodes`: the cell that a statement stands for;
* `labelTable`: the labels with the indices of their statements.
-/
import MinionComputer.Source.Assembly
import MinionComputer.Proofs.Source.Statement

namespace MinionComputer
namespace Source

/-! ## 1. Statements -/

/-- The statement on a numbered line; none if there is none or the line is wrong. -/
def statementOn (x : Nat × List Char) : Option Statement :=
  (Line.parse x.1 x.2).toOption.bind (·.statement)

/-- The statements on numbered lines, in order. -/
def statementsOn (ls : List (Nat × List Char)) : List Statement := ls.filterMap statementOn

/-- The lines of a text with their numbers. -/
def numberedLines (source : List Char) : List (Nat × List Char) :=
  Text.numbered (Text.lines source)

/-- The statements of a text, in order. -/
def statements (source : List Char) : List Statement := statementsOn (numberedLines source)

/-- The labels of statements, in order. -/
def labels (program : List Statement) : List (List Char) := program.filterMap (·.label)

/-- The labels of statements that have the indices `first`, `first + 1` and so on, each with the
index of its statement, in order. -/
def labelsFrom (first : Nat) (program : List Statement) : List (List Char × Nat) :=
  (program.zipIdx first).filterMap fun x => x.1.label.map fun l => (l, x.2)

/-- The labels of a program with the indices of their statements, in order. -/
def labelTable (program : List Statement) : List (List Char × Nat) := labelsFrom 0 program

/-! ## 2. Operands -/

/-- The value that a word in the place of an operand has: that of the number it is written as, or
the index of a statement that has it as its label. -/
inductive Denotes (program : List Statement) : List Char → Int → Prop
  | unsigned {ds : List Char} (h : Text.isNumeral ds = true) :
      Denotes program ds (Text.digitsValue ds)
  | plus {ds : List Char} (h : Text.isNumeral ds = true) :
      Denotes program ('+' :: ds) (Text.digitsValue ds)
  | minus {ds : List Char} (h : Text.isNumeral ds = true) :
      Denotes program ('-' :: ds) (-(Text.digitsValue ds : Int))
  | label {i : Nat} {s : Statement} {l : List Char} (hs : program[i]? = some s)
      (hl : s.label = some l) : Denotes program l i

/-- The value of the operand of a statement; zero if it has none. -/
def Statement.HasValue (program : List Statement) (s : Statement) (v : Int) : Prop :=
  match s.operand with
  | none => v = 0
  | some w => Denotes program w v

/-- The values that may follow an instruction word: any cell in a data statement, and any address
elsewhere. -/
def InRange (m : Mnemonic) (v : Int) : Prop := 0 ≤ v ∧ v ≤ if m = .dat then 999 else 99

/-- No operand has more digits than are read. -/
def ShortNumerals (program : List Statement) : Prop :=
  ∀ s ∈ program, ∀ w, s.operand = some w → Text.isSignedNumeral w = true →
    (Text.splitSign w).2.length ≤ Text.digitLimit

/-! ## 3. Texts and their cells -/

/-- What a text must satisfy to be assembled; `enabled` allows the extended instructions. -/
structure Assembles (enabled : Bool) (source : List Char) : Prop where
  /-- Every line can be read. -/
  read : ∀ x ∈ numberedLines source, ∃ line, Line.parse x.1 x.2 = .ok line
  /-- There are not too many statements. -/
  size : (statements source).length ≤ 100
  /-- No two statements have the same label. -/
  distinct : (labels (statements source)).Nodup
  /-- The mark of extended mode is the first statement or none. -/
  mark : ∀ (i : Nat) (s : Statement), (statements source)[i]? = some s → s.mnemonic = .ext → i = 0
  /-- Extended instructions stand only where they are allowed. -/
  permitted : enabled = false → ∀ s ∈ statements source,
    s.mnemonic ≠ .ext ∧ s.mnemonic ≠ .ina ∧ s.mnemonic ≠ .ota
  /-- Every operand has a value that its instruction word allows. -/
  operands : ∀ s ∈ statements source, ∀ w, s.operand = some w →
    ∃ v, Denotes (statements source) w v ∧ InRange s.mnemonic v

/-- The cell of a statement: the base of its instruction word and, added to it, the one value of
its operand.  It is also what `Mnemonic.encode` makes of the two. -/
def Encodes (program : List Statement) (s : Statement) (c : Cell) : Prop :=
  ∃ v, (∀ v', s.HasValue program v' ↔ v' = v) ∧
    Cell.toInt c = Cell.toInt s.mnemonic.base + v ∧
    s.mnemonic.encode (s.operand.map fun _ => v) = .ok c

/-! ## 4. One line more -/

theorem statementsOn_cons (x : Nat × List Char) (ls : List (Nat × List Char)) :
    statementsOn (x :: ls) = (statementOn x).toList ++ statementsOn ls := by
  unfold statementsOn
  rw [List.filterMap_cons]
  cases statementOn x <;> rfl

theorem labels_cons (s : Statement) (program : List Statement) :
    labels (s :: program) = s.label.toList ++ labels program := by
  unfold labels
  rw [List.filterMap_cons]
  cases s.label <;> rfl

theorem labelsFrom_cons (first : Nat) (s : Statement) (program : List Statement) :
    labelsFrom first (s :: program) =
      (s.label.toList.map fun l => (l, first)) ++ labelsFrom (first + 1) program := by
  unfold labelsFrom
  rw [List.zipIdx_cons, List.filterMap_cons]
  cases s.label <;> rfl

/-- The table holds each label beside the index of a statement that has it. -/
theorem mem_labelsFrom {first : Nat} {program : List Statement} {l : List Char} {n : Nat} :
    (l, n) ∈ labelsFrom first program ↔
      ∃ i s, program[i]? = some s ∧ s.label = some l ∧ n = first + i := by
  constructor
  · intro h
    obtain ⟨⟨s, k⟩, hx, hl⟩ := List.mem_filterMap.mp h
    obtain ⟨l', hl', heq⟩ := Option.map_eq_some_iff.mp hl
    cases heq
    obtain ⟨hle, hs⟩ := List.mem_zipIdx_iff_le_and_getElem?_sub.mp hx
    exact ⟨k - first, s, hs, hl', by omega⟩
  · rintro ⟨i, s, hs, hl, rfl⟩
    refine List.mem_filterMap.mpr ⟨(s, first + i), ?_, by simp [hl]⟩
    exact List.mem_zipIdx_iff_le_and_getElem?_sub.mpr ⟨by omega, by simpa using hs⟩

/-- Statements that were read are well formed. -/
theorem wellFormed_of_mem_statements {source : List Char} {s : Statement}
    (h : s ∈ statements source) : s.WellFormed := by
  obtain ⟨x, _, hx⟩ := List.mem_filterMap.mp h
  unfold statementOn at hx
  obtain ⟨line, hline, hs⟩ := Option.bind_eq_some_iff.mp hx
  cases hp : Line.parse x.1 x.2 with
  | error p =>
    rw [hp] at hline
    cases hline
  | ok line' =>
    rw [hp] at hline
    cases hline
    exact Line.wellFormed_of_parse hp hs

end Source
end MinionComputer
