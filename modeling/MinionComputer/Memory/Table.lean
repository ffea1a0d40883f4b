/-
# Memory as a table, and what differs between two

* `Memory.table`: ten rows of ten cells, each with the address of its first cell, under a line of
  column numbers;
* `Memory.summary`: one line;
* `changes`: the places where two rows of numbers differ.
-/
import MinionComputer.Memory.Basic
import MinionComputer.Text.Piece

namespace MinionComputer

/-- The positions at which two lists differ, with what each holds there, up to the end of the
shorter one. -/
def changes {α : Type} [BEq α] (old new : List α) : List (Nat × α × α) :=
  ((old.zip new).zipIdx.filter fun x => x.1.1 != x.1.2).map fun x => (x.2, x.1)

namespace Memory

/-- The column numbers. -/
def tableHead : List Char :=
  List.replicate 4 ' ' ++
    Text.joinWith ' ' ((List.range 10).map fun n => ' ' :: ' ' :: Text.decimal n)

/-- The row of ten cells from the address `10 * row` on. -/
def tableRow (m : Memory) (row : Nat) : List Char :=
  Text.padded 2 (10 * row : Int) ++ [' ', ' '] ++
    Text.joinWith ' ' (((m.toList.drop (10 * row)).take 10).map Cell.digits)

/-- The memory in ten rows under the column numbers. -/
def table (m : Memory) : List Char :=
  Text.joinWith '\n' (tableHead :: (List.range 10).map m.tableRow)

/-- How many cells are in use. -/
def summary (m : Memory) : String :=
  "Memory(" ++ Text.natural m.used ++ " non-zero cells)"

end Memory
end MinionComputer
