/-
# Disassembly

Cells shown as the instructions they would be executed as.  Cells that cannot be executed, and
cells that halt without being zero, are shown as data, so that what is shown assembles to the
same cells again.

* `Disassembly.rows`: one row for each cell;
* `Disassembly.listing`: the rows for reading;
* `Disassembly.sourceText`: the rows as a source text.
-/
import MinionComputer.Instruction.Basic
import MinionComputer.Memory.Basic
import MinionComputer.Text.Piece

namespace MinionComputer
namespace Disassembly

/-- A number at its place, in words, with a remark. -/
structure Row where
  address : Nat
  value : Int
  text : List Char
  remark : List Char
  deriving DecidableEq, Repr

/-- The number that marks extended mode at address 0. -/
def mark : Int := 10

/-- Whether a run of these numbers would be in extended mode. -/
def isExtended? (values : List Int) : Option Bool := values.head?.map (· == mark)

/-- The remark on a number. -/
def remark (extended : Bool) (address : Nat) (value : Int) : List Char :=
  if (Instruction.ofInt extended value).isNone then "not executable".toList
  else if address = 0 ∧ extended ∧ value = mark then "extended mode".toList
  else []

/-- A number in words.  Away from address 0 the mark of extended mode is data. -/
def words (extended : Bool) (address : Nat) (value : Int) : List Char :=
  if address ≠ 0 ∧ value = mark then dataText value else cellText extended value

/-- The row of a number at its place. -/
def row (extended : Bool) (address : Nat) (value : Int) : Row :=
  ⟨address, value, words extended address value, remark extended address value⟩

/-- The rows of numbers from address 0 on; `trim` leaves out the zeros at the end. -/
def rows (extended trim : Bool) (values : List Int) : List Row :=
  let kept := if trim then Text.dropEnd (· == 0) values else values
  kept.zipIdx.map fun x => row extended x.2 x.1

/-- A row for reading. -/
def Row.line (r : Row) : List Char :=
  Text.padded 2 (r.address : Int) ++ ':' :: ' ' :: Text.padded 3 r.value ++ [' ', ' '] ++ r.text ++
    if r.remark.isEmpty then [] else [' ', ' ', ';', ' '] ++ r.remark

/-- The rows for reading, zeros at the end left out. -/
def listing (extended : Bool) (values : List Int) : List Char :=
  Text.joinWith '\n' ((rows extended true values).map Row.line)

/-- A source text for the numbers. -/
def sourceText (extended : Bool) (values : List Int) : List Char :=
  Text.joinWith '\n' ((rows extended true values).map Row.text) ++ ['\n']

end Disassembly

namespace Memory

/-- All cells as numbers. -/
def values (m : Memory) : List Int := m.toList.map Cell.toInt

/-- Whether a run of the memory would be in extended mode. -/
def isExtended (m : Memory) : Bool := m.read 0 == 10

/-- The listing of a memory in the mode given, or else in the mode a run would have. -/
def listing (m : Memory) (extended : Option Bool := none) : List Char :=
  Disassembly.listing (extended.getD m.isExtended) m.values

/-- A source text that assembles to the memory. -/
def sourceText (m : Memory) (extended : Option Bool := none) : List Char :=
  Disassembly.sourceText (extended.getD m.isExtended) m.values

end Memory
end MinionComputer
