/-
# Cells and addresses as numbers

* `Cell.ofInt?_eq_some_iff`, `Address.ofInt?_eq_some_iff`: reading a number as a cell or an
  address is the inverse of `toInt`;
* `Cell.exists_toInt_iff`, `Address.exists_toInt_iff`: the numbers that are cells and addresses;
* `Cell.toInt_inj`, `Address.toInt_inj`: no two of them are the same number.
-/
import MinionComputer.Cell

namespace MinionComputer

theorem Cell.ofInt?_eq_some_iff {n : Int} {c : Cell} :
    Cell.ofInt? n = some c ↔ Cell.toInt c = n := by
  constructor
  · exact Cell.toInt_of_ofInt?
  · rintro rfl
    exact Cell.ofInt?_toInt c

theorem Address.ofInt?_eq_some_iff {n : Int} {a : Address} :
    Address.ofInt? n = some a ↔ Address.toInt a = n := by
  constructor
  · exact Address.toInt_of_ofInt?
  · rintro rfl
    exact Address.ofInt?_toInt a

/-- A cell is a number of at most three digits. -/
theorem Cell.toInt_bounds (c : Cell) : 0 ≤ Cell.toInt c ∧ Cell.toInt c ≤ 999 := by
  unfold Cell.toInt
  omega

/-- An address is a number of at most two digits. -/
theorem Address.toInt_bounds (a : Address) : 0 ≤ Address.toInt a ∧ Address.toInt a ≤ 99 := by
  unfold Address.toInt
  omega

theorem Cell.exists_toInt_iff {n : Int} : (∃ c, Cell.toInt c = n) ↔ 0 ≤ n ∧ n ≤ 999 := by
  constructor
  · rintro ⟨c, rfl⟩
    exact Cell.toInt_bounds c
  · rintro ⟨hlo, hhi⟩
    exact ⟨⟨n.toNat, by omega⟩, Int.toNat_of_nonneg hlo⟩

theorem Address.exists_toInt_iff {n : Int} : (∃ a, Address.toInt a = n) ↔ 0 ≤ n ∧ n ≤ 99 := by
  constructor
  · rintro ⟨a, rfl⟩
    exact Address.toInt_bounds a
  · rintro ⟨hlo, hhi⟩
    exact ⟨⟨n.toNat, by omega⟩, Int.toNat_of_nonneg hlo⟩

theorem Cell.toInt_inj {c c' : Cell} : Cell.toInt c = Cell.toInt c' ↔ c = c' :=
  Int.natCast_inj.trans Fin.val_inj

theorem Cell.toInt_eq_zero_iff {c : Cell} : Cell.toInt c = 0 ↔ c = 0 :=
  @Cell.toInt_inj c 0

theorem Address.toInt_inj {a b : Address} : Address.toInt a = Address.toInt b ↔ a = b :=
  Int.natCast_inj.trans Fin.val_inj

/-- The nearest cell as a number. -/
theorem Cell.toInt_clamp (n : Int) : Cell.toInt (Cell.clamp n) = max 0 (min 999 n) :=
  Int.toNat_of_nonneg (Int.le_max_left 0 _)

end MinionComputer
