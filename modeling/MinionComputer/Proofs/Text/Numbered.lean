/-
# Numbered elements

`numbered` puts each element of a list beside its position, counted from one.

* `getElem?_numbered`: the element at a position, with its number;
* `numbered_eq_append_cons`: an element in the midst of the others, with its number.
-/
import MinionComputer.Text.Piece

namespace MinionComputer
namespace Text

variable {α : Type} {l : List α}

theorem getElem?_numbered (l : List α) (i : Nat) :
    (numbered l)[i]? = l[i]?.map fun x => (i + 1, x) := by
  simp [numbered, List.getElem?_zipIdx, Function.comp_def]

theorem getElem?_numbered_eq_some_iff {i : Nat} {x : Nat × α} :
    (numbered l)[i]? = some x ↔ l[i]? = some x.2 ∧ x.1 = i + 1 := by
  rw [getElem?_numbered, Option.map_eq_some_iff]
  constructor
  · rintro ⟨y, hy, rfl⟩
    exact ⟨hy, rfl⟩
  · rintro ⟨hy, hi⟩
    exact ⟨x.2, hy, Prod.ext hi.symm rfl⟩

theorem mem_numbered {x : Nat × α} : x ∈ numbered l ↔ ∃ i, l[i]? = some x.2 ∧ x.1 = i + 1 := by
  rw [List.mem_iff_getElem?]
  exact exists_congr fun i => getElem?_numbered_eq_some_iff

/-- The numbers increase. -/
theorem pairwise_numbered (l : List α) : (numbered l).Pairwise fun x y => x.1 < y.1 := by
  rw [List.pairwise_iff_getElem]
  intro i j hi hj hlt
  obtain ⟨-, hnumber⟩ := getElem?_numbered_eq_some_iff.mp (List.getElem?_eq_getElem hi)
  obtain ⟨-, hnumber'⟩ := getElem?_numbered_eq_some_iff.mp (List.getElem?_eq_getElem hj)
  omega

theorem map_snd_numbered (l : List α) : (numbered l).map (·.2) = l := by
  refine List.ext_getElem? fun i => ?_
  rw [List.getElem?_map, getElem?_numbered, Option.map_map]
  exact Option.map_id'

theorem getElem?_take_numbered_eq_some_iff {i j : Nat} {x : Nat × α} :
    ((numbered l).take i)[j]? = some x ↔ j < i ∧ l[j]? = some x.2 ∧ x.1 = j + 1 := by
  rw [List.getElem?_take]
  split
  · next hj => rw [getElem?_numbered_eq_some_iff, and_iff_right hj]
  · next hj => simp [hj]

/-- **As many elements stand before a numbered one as its number says, less one.** -/
theorem numbered_eq_append_cons {before after : List (Nat × α)} {x : Nat × α}
    (h : numbered l = before ++ x :: after) :
    l[before.length]? = some x.2 ∧ x.1 = before.length + 1 ∧
      before = (numbered l).take before.length := by
  have hx : (numbered l)[before.length]? = some x := by
    rw [h, List.getElem?_append_right (Nat.le_refl _), Nat.sub_self]
    rfl
  obtain ⟨hy, hnumber⟩ := getElem?_numbered_eq_some_iff.mp hx
  exact ⟨hy, hnumber, by rw [h, List.take_left]⟩

/-- The numbered elements before one, that one, and those behind it. -/
theorem numbered_eq_take_append {i : Nat} {y : α} (h : l[i]? = some y) :
    numbered l = (numbered l).take i ++ (i + 1, y) :: (numbered l).drop (i + 1) := by
  obtain ⟨hi, hy⟩ := List.getElem?_eq_some_iff.mp
    (getElem?_numbered_eq_some_iff (x := (i + 1, y)).mpr ⟨h, rfl⟩)
  rw [← hy, List.getElem_cons_drop, List.take_append_drop]

end Text
end MinionComputer
