/-
# Results that may be faults

A result goes through a function, into a computation that may fail in its turn, or along a list,
whose first element that fails decides the fault.

* `map_eq_ok_iff`, `map_eq_error_iff`, `bind_eq_ok_iff`, `bind_eq_error_iff`: one step;
* `exists_mapM_iff`, `mapM_eq_error_iff`: a list.
-/
import Mathlib.Data.List.Basic

namespace MinionComputer
namespace Outcome

universe u v

variable {ε : Type u} {α β : Type v} {r : Except ε α} {e : ε}

/-! ## 1. One step -/

theorem map_eq_ok_iff {f : α → β} {b : β} : r.map f = .ok b ↔ ∃ a, r = .ok a ∧ f a = b := by
  cases r <;> simp [Except.map]

theorem map_eq_error_iff {f : α → β} : r.map f = .error e ↔ r = .error e := by
  cases r <;> simp [Except.map]

theorem bind_eq_ok_iff {f : α → Except ε β} {b : β} :
    r.bind f = .ok b ↔ ∃ a, r = .ok a ∧ f a = .ok b := by
  cases r <;> simp [Except.bind]

theorem bind_eq_error_iff {f : α → Except ε β} :
    r.bind f = .error e ↔ r = .error e ∨ ∃ a, r = .ok a ∧ f a = .error e := by
  cases r <;> simp [Except.bind]

theorem mapError_eq_ok_iff {ε' : Type u} {f : ε → ε'} {a : α} :
    r.mapError f = .ok a ↔ r = .ok a := by
  cases r <;> simp [Except.mapError]

theorem mapError_eq_error_iff {ε' : Type u} {f : ε → ε'} {e' : ε'} :
    r.mapError f = .error e' ↔ ∃ e, r = .error e ∧ f e = e' := by
  cases r <;> simp [Except.mapError]

/-! ## 2. A list -/

variable {f : α → Except ε β}

theorem mapM_cons_eq (x : α) (l : List α) :
    (x :: l).mapM f = (f x).bind fun y => (l.mapM f).map (y :: ·) := by
  rw [List.mapM_cons]
  rfl

/-- All elements of a list succeed exactly when each does. -/
theorem exists_mapM_iff : ∀ l : List α,
    (∃ ys, l.mapM f = .ok ys) ↔ ∀ x ∈ l, ∃ y, f x = .ok y
  | [] => by simp [pure, Except.pure]
  | x :: l => by
    rw [List.forall_mem_cons, ← exists_mapM_iff l]
    simp only [mapM_cons_eq, bind_eq_ok_iff, map_eq_ok_iff]
    constructor
    · rintro ⟨_, y, hy, ys, hys, rfl⟩
      exact ⟨⟨y, hy⟩, ys, hys⟩
    · rintro ⟨⟨y, hy⟩, ys, hys⟩
      exact ⟨y :: ys, y, hy, ys, hys, rfl⟩

/-- What comes of a list comes of its elements. -/
theorem exists_of_mem_mapM : ∀ {l : List α} {ys : List β}, l.mapM f = .ok ys → ∀ y ∈ ys,
    ∃ x ∈ l, f x = .ok y
  | [], ys, h, y, hy => by
    cases h
    cases hy
  | x :: l, ys, h, y, hy => by
    rw [mapM_cons_eq] at h
    obtain ⟨b, hb, hrest⟩ := bind_eq_ok_iff.mp h
    obtain ⟨bs, hbs, rfl⟩ := map_eq_ok_iff.mp hrest
    rcases List.mem_cons.mp hy with rfl | hy
    · exact ⟨x, List.mem_cons_self, hb⟩
    · obtain ⟨z, hz, hfz⟩ := exists_of_mem_mapM hbs y hy
      exact ⟨z, List.mem_cons_of_mem x hz, hfz⟩

/-- What was made of elements each of which comes back comes back. -/
theorem mapM_map_eq_ok {γ : Type v} {f : α → Except ε γ} {g : γ → α} : ∀ {l : List γ},
    (∀ y ∈ l, f (g y) = .ok y) → (l.map g).mapM f = .ok l
  | [], _ => rfl
  | y :: l, h => by
    rw [List.forall_mem_cons] at h
    rw [List.map_cons, mapM_cons_eq, h.1, mapM_map_eq_ok h.2]
    rfl

/-- **A list fails as its first element that fails.** -/
theorem mapM_eq_error_iff : ∀ l : List α,
    l.mapM f = .error e ↔
      ∃ before x after, l = before ++ x :: after ∧ (∀ y ∈ before, ∃ b, f y = .ok b) ∧
        f x = .error e
  | [] => by simp [pure, Except.pure]
  | x :: l => by
    rw [mapM_cons_eq, bind_eq_error_iff]
    constructor
    · rintro (hx | ⟨y, hy, hl⟩)
      · exact ⟨[], x, l, rfl, by simp, hx⟩
      · obtain ⟨before, z, after, rfl, hbefore, hz⟩ :=
          (mapM_eq_error_iff l).mp (map_eq_error_iff.mp hl)
        exact ⟨x :: before, z, after, rfl, List.forall_mem_cons.mpr ⟨⟨y, hy⟩, hbefore⟩, hz⟩
    · rintro ⟨before, z, after, hl, hbefore, hz⟩
      cases before with
      | nil =>
        cases hl
        exact .inl hz
      | cons y before =>
        cases hl
        obtain ⟨⟨b, hb⟩, hrest⟩ := List.forall_mem_cons.mp hbefore
        refine .inr ⟨b, hb, map_eq_error_iff.mpr ?_⟩
        exact (mapM_eq_error_iff _).mpr ⟨before, z, after, rfl, hrest, hz⟩

end Outcome
end MinionComputer
