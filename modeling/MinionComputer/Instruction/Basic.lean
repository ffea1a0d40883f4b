/-
# Instructions

What a cell means when it is executed.  The hundreds digit says what to do and the other two are
an address, except that every cell below one hundred halts and that the nine hundreds hold the
four input and output instructions.  In extended mode 010, 911 and 912 have a meaning of their
own.

* `Instruction.ofCell`: the meaning of a cell, if it has one;
* `Instruction.toCell`: a cell with that meaning, and `ofCell_toCell`, which reads it back;
* `Instruction.text`: the instruction in words;
* `cellText`: any number in words that assemble to it again, where it is a cell.
-/
import MinionComputer.Instruction.Mnemonic

namespace MinionComputer

/-- What the machine can be told to do. -/
inductive Instruction where
  | halt
  | add (a : Address)
  | subtract (a : Address)
  | store (a : Address)
  | load (a : Address)
  | branch (a : Address)
  | branchZero (a : Address)
  | branchPositive (a : Address)
  | readNumber
  | writeNumber
  /-- The mark of extended mode, which does nothing at address 0. -/
  | extend
  | readCharacter
  | writeCharacter
  deriving DecidableEq, Repr

namespace Instruction

/-! ## 1. Cells -/

/-- The meaning of a cell. -/
def ofCell (extended : Bool) (c : Cell) : Option Instruction :=
  let a : Address := Fin.ofNat 100 c.val
  match c.val / 100 with
  | 0 => some (if extended ∧ c = 10 then .extend else .halt)
  | 1 => some (.add a)
  | 2 => some (.subtract a)
  | 3 => some (.store a)
  | 5 => some (.load a)
  | 6 => some (.branch a)
  | 7 => some (.branchZero a)
  | 8 => some (.branchPositive a)
  | 9 =>
    if c = 901 then some .readNumber
    else if c = 902 then some .writeNumber
    else if extended ∧ c = 911 then some .readCharacter
    else if extended ∧ c = 912 then some .writeCharacter
    else none
  | _ => none

/-- The meaning of a number; one that is no cell has none. -/
def ofInt (extended : Bool) (n : Int) : Option Instruction :=
  (Cell.ofInt? n).bind (ofCell extended)

/-! ## 2. Words -/

/-- The word of an instruction. -/
def mnemonic : Instruction → Mnemonic
  | halt => .hlt
  | add _ => .add
  | subtract _ => .sub
  | store _ => .sto
  | load _ => .lda
  | branch _ => .br
  | branchZero _ => .brz
  | branchPositive _ => .brp
  | readNumber => .inp
  | writeNumber => .out
  | extend => .ext
  | readCharacter => .ina
  | writeCharacter => .ota

/-- The address that an instruction names. -/
def operand? : Instruction → Option Address
  | add a | subtract a | store a | load a | branch a | branchZero a | branchPositive a => some a
  | _ => none

/-- A cell with this meaning. -/
def toCell (i : Instruction) : Cell :=
  match i.operand? with
  | some a => i.mnemonic.withAddress a
  | none => i.mnemonic.base

/-- The instruction in words: the word alone, or the word and a two-digit address. -/
def text (i : Instruction) : List Char :=
  match i.operand? with
  | some a => i.mnemonic.letters ++ ' ' :: Address.digits a
  | none => i.mnemonic.letters

/-- A cell made from an instruction means that instruction in extended mode. -/
theorem ofCell_toCell (i : Instruction) : ofCell true i.toCell = some i := by
  cases i with
  | add a => revert a; decide
  | subtract a => revert a; decide
  | store a => revert a; decide
  | load a => revert a; decide
  | branch a => revert a; decide
  | branchZero a => revert a; decide
  | branchPositive a => revert a; decide
  | _ => rfl

end Instruction

/-- A number as a data statement. -/
def dataText (n : Int) : List Char := Mnemonic.dat.letters ++ ' ' :: Text.padded 3 n

/-- A number as the statement it would be executed as; as data where it has no meaning, and where
it halts without being zero, since the halting word is assembled to zero. -/
def cellText (extended : Bool) (n : Int) : List Char :=
  match Instruction.ofInt extended n with
  | none => dataText n
  | some i => if i = .halt ∧ n ≠ 0 then dataText n else i.text

end MinionComputer
