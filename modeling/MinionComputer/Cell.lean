/-
# Cells and addresses

A cell holds three decimal digits and an address is one of a hundred.  Both are bounded in their
types, so nothing that holds a cell or an address needs to check it again.

* `Cell.ofInt?`, `Address.ofInt?`: the numbers that fit;
* `Cell.clamp`: the nearest number that fits;
* `Cell.digits`: the three digits of a cell.
-/
import MinionComputer.Text.Numeral

namespace MinionComputer

/-- The content of one place in memory. -/
abbrev Cell := Fin 1000

/-- The place of a cell in memory. -/
abbrev Address := Fin 100

/-- Numerals stand for cells. -/
instance neZero_cells : @NeZero Nat Zero.ofOfNat0 1000 := Nat.instNeZeroSucc

/-- Numerals stand for addresses. -/
instance neZero_addresses : @NeZero Nat Zero.ofOfNat0 100 := Nat.instNeZeroSucc

/-- The number as a cell, if it is one. -/
def Cell.ofInt? (n : Int) : Option Cell :=
  if h : 0 ≤ n ∧ n < 1000 then some ⟨n.toNat, by omega⟩ else none

/-- The number as an address, if it is one. -/
def Address.ofInt? (n : Int) : Option Address :=
  if h : 0 ≤ n ∧ n < 100 then some ⟨n.toNat, by omega⟩ else none

/-- The cell nearest to the number. -/
def Cell.clamp (n : Int) : Cell :=
  ⟨(max 0 (min 999 n)).toNat, by omega⟩

/-- The cell as a number. -/
def Cell.toInt (c : Cell) : Int := (c.val : Int)

/-- The address as a number. -/
def Address.toInt (a : Address) : Int := (a.val : Int)

/-- The three digits of a cell. -/
def Cell.digits (c : Cell) : List Char := Text.padded 3 (Cell.toInt c)

/-- The two digits of an address. -/
def Address.digits (a : Address) : List Char := Text.padded 2 (Address.toInt a)

@[simp] theorem Cell.ofInt?_toInt (c : Cell) : Cell.ofInt? (Cell.toInt c) = some c := by
  have h : (0 : Int) ≤ (c.val : Int) ∧ (c.val : Int) < 1000 := by omega
  simp [Cell.ofInt?, Cell.toInt, h]

@[simp] theorem Address.ofInt?_toInt (a : Address) :
    Address.ofInt? (Address.toInt a) = some a := by
  have h : (0 : Int) ≤ (a.val : Int) ∧ (a.val : Int) < 100 := by omega
  simp [Address.ofInt?, Address.toInt, h]

theorem Cell.toInt_of_ofInt? {n : Int} {c : Cell} (h : Cell.ofInt? n = some c) :
    Cell.toInt c = n := by
  unfold Cell.ofInt? at h
  split at h
  · next hn =>
    cases h
    show ((n.toNat : Nat) : Int) = n
    omega
  · cases h

theorem Address.toInt_of_ofInt? {n : Int} {a : Address} (h : Address.ofInt? n = some a) :
    Address.toInt a = n := by
  unfold Address.ofInt? at h
  split at h
  · next hn =>
    cases h
    show ((n.toNat : Nat) : Int) = n
    omega
  · cases h

end MinionComputer
