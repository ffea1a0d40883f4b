/-
# What is left when the ends are dropped

`dropEnd` takes off the longest row at the end of a list whose elements all satisfy the test, and
`trimBy` does so at both ends.

* `dropEnd_eq_self`: a list whose last element stays;
* `dropEnd_append_of_all`: more of what is dropped makes no difference;
* `exists_eq_dropEnd_append_replicate`: what was dropped can be put back;
* `not_of_mem_getLast?_dropEnd`: nothing is left to drop;
* `dropEnd_map`: changing the elements before or after is the same;
* `trimBy_trimBy`, `trimBy_congr`, `trimBy_map`: the same of trimming at both ends.
-/
import Mathlib.Data.List.DropRight
import MinionComputer.Text.Blank

namespace MinionComputer
namespace Text

variable {α β : Type} {p : α → Bool} {l r : List α}

/-! ## 1. The end -/

theorem dropEnd_eq_rdropWhile (p : α → Bool) (l : List α) : dropEnd p l = l.rdropWhile p := rfl

/-- Nothing is dropped if the last element stays. -/
theorem dropEnd_eq_self (h : ∀ x ∈ l.getLast?, p x = false) : dropEnd p l = l := by
  rw [dropEnd_eq_rdropWhile, List.rdropWhile_eq_self_iff]
  intro hne
  rw [h _ (List.getLast?_eq_getLast_of_ne_nil hne)]
  exact Bool.false_ne_true

theorem dropEnd_append_of_all (h : ∀ x ∈ r, p x = true) : dropEnd p (l ++ r) = dropEnd p l := by
  have hr : ∀ x ∈ r.reverse, p x = true := fun x hx => h x (List.mem_reverse.mp hx)
  rw [dropEnd, List.reverse_append, List.dropWhile_append_of_pos hr]
  rfl

/-- The elements that were dropped were all the same. -/
theorem exists_eq_dropEnd_append_replicate [BEq α] [LawfulBEq α] (x : α) (l : List α) :
    ∃ k, l = dropEnd (· == x) l ++ List.replicate k x := by
  have hall : ∀ y ∈ l.rtakeWhile (· == x), y = x := by
    intro y hy
    have hyx : (y == x) = true := List.mem_rtakeWhile_imp (p := (· == x)) hy
    exact eq_of_beq hyx
  refine ⟨(l.rtakeWhile (· == x)).length, ?_⟩
  rw [← List.eq_replicate_of_mem hall, dropEnd_eq_rdropWhile, List.rdropWhile_append_rtakeWhile]

theorem not_of_mem_getLast?_dropEnd : ∀ x ∈ (dropEnd p l).getLast?, p x = false := by
  intro x hx
  rw [dropEnd, List.getLast?_reverse] at hx
  have hhead := List.head?_dropWhile_not p l.reverse
  rw [Option.mem_def.mp hx] at hhead
  simpa using hhead

theorem dropEnd_map (p : β → Bool) (f : α → β) (l : List α) :
    dropEnd p (l.map f) = (dropEnd (p ∘ f) l).map f := by
  rw [dropEnd, dropEnd, ← List.map_reverse, List.dropWhile_map, List.map_reverse]

/-! ## 2. Both ends -/

/-- Trimming changes nothing in a text whose first and last elements stay. -/
theorem trimBy_eq_self
    (hhead : ∀ x ∈ l.head?, p x = false) (hlast : ∀ x ∈ l.getLast?, p x = false) :
    trimBy p l = l := by
  have hfront : l.dropWhile p = l := by
    cases l with
    | nil => rfl
    | cons x r =>
      rw [List.dropWhile_cons, hhead x (by simp)]
      rfl
  rw [trimBy, hfront, dropEnd_eq_self hlast]

/-- Trimming changes nothing in a text of which all stays. -/
theorem trimBy_of_forall (h : ∀ x ∈ l, p x = false) : trimBy p l = l :=
  trimBy_eq_self (fun x hx => h x (List.mem_of_mem_head? hx))
    (fun x hx => h x (List.mem_of_mem_getLast? hx))

theorem mem_of_mem_trimBy {x : α} (h : x ∈ trimBy p l) : x ∈ l :=
  (List.dropWhile_suffix p).subset ((List.rdropWhile_prefix p _).subset h)

/-- Nothing is left to trim. -/
theorem trimBy_trimBy (p : α → Bool) (l : List α) : trimBy p (trimBy p l) = trimBy p l := by
  refine trimBy_eq_self ?_ not_of_mem_getLast?_dropEnd
  intro x hx
  have hfirst : x ∈ (l.dropWhile p).head? := by
    obtain ⟨rest, hrest⟩ := List.rdropWhile_prefix p (l.dropWhile p)
    have hx' : x ∈ ((l.dropWhile p).rdropWhile p).head? := hx
    rw [← hrest, List.head?_append, Option.mem_def.mp hx']
    rfl
  have hhead := List.head?_dropWhile_not p l
  rw [Option.mem_def.mp hfirst] at hhead
  simpa using hhead

theorem dropWhile_congr {q : α → Bool} (h : ∀ x ∈ l, p x = q x) :
    l.dropWhile p = l.dropWhile q := by
  induction l with
  | nil => rfl
  | cons x l ih =>
    rw [List.forall_mem_cons] at h
    rw [List.dropWhile_cons, List.dropWhile_cons, h.1, ih h.2]

theorem dropEnd_congr {q : α → Bool} (h : ∀ x ∈ l, p x = q x) : dropEnd p l = dropEnd q l := by
  have hreverse : ∀ x ∈ l.reverse, p x = q x := by
    intro x hx
    exact h x (List.mem_reverse.mp hx)
  rw [dropEnd, dropEnd, dropWhile_congr hreverse]

/-- Only what the test says of the elements matters. -/
theorem trimBy_congr {q : α → Bool} (h : ∀ x ∈ l, p x = q x) : trimBy p l = trimBy q l := by
  have hrest : ∀ x ∈ l.dropWhile q, p x = q x := by
    intro x hx
    exact h x ((List.dropWhile_suffix q).subset hx)
  rw [trimBy, trimBy, dropWhile_congr h, dropEnd_congr hrest]

theorem trimBy_map (p : β → Bool) (f : α → β) (l : List α) :
    trimBy p (l.map f) = (trimBy (p ∘ f) l).map f := by
  rw [trimBy, trimBy, List.dropWhile_map, dropEnd_map]

end Text
end MinionComputer
