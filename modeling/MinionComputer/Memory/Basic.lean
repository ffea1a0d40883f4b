/-
# Memory

A hundred cells that hold instructions and data alike.

* `Memory.read`, `Memory.write`: one cell, with the two laws of a store, `read_write_self` and
  `read_write_of_ne`;
* `Memory.ofList`: cells from address 0 on, and zeros after them;
* `Memory.toList`: all cells in order; a memory is determined by it (`toList_inj`).
-/
import MinionComputer.Cell

namespace MinionComputer

/-- A hundred cells. -/
structure Memory where
  cells : Vector Cell 100
  deriving DecidableEq

namespace Memory

/-- The memory that holds zero everywhere. -/
def blank : Memory := ⟨Vector.replicate 100 0⟩

/-- The cell at `a`. -/
def read (m : Memory) (a : Address) : Cell := m.cells[a]

/-- The memory with `c` at `a`. -/
def write (m : Memory) (a : Address) (c : Cell) : Memory := ⟨m.cells.set a.val c a.isLt⟩

/-- The cells of the list from address 0 on, zeros in what is left. -/
def ofList (l : List Cell) : Memory := ⟨Vector.ofFn fun a => l.getD a.val 0⟩

/-- All cells in the order of their addresses. -/
def toList (m : Memory) : List Cell := m.cells.toList

/-- The number of cells that are not zero. -/
def used (m : Memory) : Nat := (m.toList.filter (· != 0)).length

@[simp] theorem read_write_self (m : Memory) (a : Address) (c : Cell) :
    (m.write a c).read a = c := by
  simp [read, write]

@[simp] theorem read_write_of_ne (m : Memory) {a b : Address} (c : Cell) (h : a ≠ b) :
    (m.write a c).read b = m.read b := by
  have h' : a.val ≠ b.val := fun e => h (Fin.ext e)
  simp [read, write, h']

@[simp] theorem read_ofList (l : List Cell) (a : Address) :
    (ofList l).read a = l.getD a.val 0 := by
  simp [read, ofList]

@[simp] theorem length_toList (m : Memory) : m.toList.length = 100 := by
  simp [toList]

theorem toList_inj {m m' : Memory} : m.toList = m'.toList ↔ m = m' := by
  constructor
  · intro h
    cases m
    cases m'
    simpa [toList, Vector.toList_inj] using h
  · rintro rfl
    rfl

/-- Memories with the same cells are the same. -/
theorem ext_read {m m' : Memory} (h : ∀ a, m.read a = m'.read a) : m = m' := by
  cases m
  cases m'
  congr 1
  apply Vector.ext
  intro i hi
  exact h ⟨i, hi⟩

end Memory
end MinionComputer
