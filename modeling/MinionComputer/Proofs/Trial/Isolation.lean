/-
# Test cases do not touch each other

Every case is run on the memory that was given, and what comes of it is what comes of it alone.  So
cases can be left out, put in another order or repeated, and their entries are left out, put in that
order and repeated.  The same holds when each case works on a copy of the memory that stands beside
it on a shelf: it leaves all memories there as they were.

* `Case.alone`: the entry of a case that is run alone;
* `Isolated`: the cases do not touch each other;
* `isolated_of_ofText`: the cases of a file do not touch each other.
-/
import MinionComputer.Proofs.Trial.Pass
import MinionComputer.Proofs.Trial.Trouble

namespace MinionComputer
namespace Trial

variable {c : Case} {cases : List Case} {m : Memory}

/-! ## 1. Entries -/

/-- The entry of a case that is run alone, if it can be carried out. -/
def Case.alone (m : Memory) (c : Case) : Entry :=
  match c.entry m with
  | .ok e => e
  | .error _ => ⟨c, none, 0⟩

/-- A case that expects codes of eight bits has an entry. -/
theorem entry_eq_alone (hc : Bytes c.characterOutputs) : c.entry m = .ok (c.alone m) := by
  unfold Case.alone
  cases hentry : c.entry m with
  | ok e => rfl
  | error t =>
    unfold Case.entry at hentry
    split at hentry
    · cases hentry
    · cases hentry
    · next t' hnot hrun =>
      obtain ⟨f, rfl⟩ := exists_failure_of_run hc hrun
      exact absurd rfl (hnot f)

/-- The entry of a case tells whether it passes. -/
theorem failure_alone_eq_none_iff (hc : Bytes c.characterOutputs) :
    (c.alone m).failure = none ↔ ∃ n, (c.run m).2 = .ok n := by
  have hentry : c.entry m = .ok (c.alone m) := entry_eq_alone hc
  unfold Case.entry at hentry
  split at hentry
  · next n hrun =>
    rw [← Except.ok.inj hentry, hrun]
    exact iff_of_true rfl ⟨n, rfl⟩
  · next f hrun =>
    rw [← Except.ok.inj hentry, hrun]
    simp
  · cases hentry

/-- The first case has its entry and its notes, and the others are run as they are without it. -/
theorem runAll_cons_of_entry {e : Entry} (h : c.entry m = .ok e) (cases : List Case) :
    runAll m (c :: cases) =
      ((runAll m [c]).1 ++ (runAll m cases).1, (runAll m cases).2.map (e :: ·)) := by
  unfold Case.entry at h
  cases hrun : (c.run m).2 with
  | ok n =>
    rw [hrun] at h
    obtain rfl := Except.ok.inj h
    simp [runAll, hrun]
  | error t =>
    rw [hrun] at h
    cases t with
    | failure f =>
      obtain rfl := Except.ok.inj h
      simp [runAll, hrun]
    | code f => cases h
    | address n => cases h

/-- **The cases one after another come to what each of them comes to alone**, and so do the notes
on them. -/
theorem runAll_eq_alone (m : Memory) : ∀ cases : List Case,
    (∀ c ∈ cases, Bytes c.characterOutputs) →
      runAll m cases = (cases.flatMap fun c => (runAll m [c]).1, .ok (cases.map (Case.alone m)))
  | [], _ => rfl
  | c :: cases, hbytes => by
    rw [List.forall_mem_cons] at hbytes
    have ih := runAll_eq_alone m cases hbytes.2
    rw [runAll_cons_of_entry (entry_eq_alone hbytes.1), ih]
    rfl

/-! ## 2. Isolation -/

/-- The cases do not touch each other, on the memory `m`. -/
structure Isolated (m : Memory) (cases : List Case) : Prop where
  /-- Each of them has an entry. -/
  entry : ∀ c ∈ cases, c.entry m = .ok (c.alone m) ∧ (runAll m [c]).2 = .ok [c.alone m]
  /-- Any of them, in any order and as often as one likes, have the entries that they have alone,
  and the notes. -/
  run : ∀ chosen ⊆ cases, runAll m chosen =
    (chosen.flatMap fun c => (runAll m [c]).1, .ok (chosen.map (Case.alone m)))
  /-- Wherever the memory stands, it and all other memories are the same afterwards. -/
  kept : ∀ chosen ⊆ cases, ∀ (h : Shelf) (i : Nat), h[i]? = some m →
    (Shelf.runAll i chosen h).1 = runAll m chosen ∧ h <+: (Shelf.runAll i chosen h).2

/-- **The cases of a file do not touch each other.** -/
theorem isolated_of_ofText {text : List Char} (htext : Case.ofText text = .ok cases) (m : Memory) :
    Isolated m cases where
  entry := by
    intro c hc
    have hbytes := bytes_of_ofText htext c hc
    refine ⟨entry_eq_alone hbytes, ?_⟩
    rw [runAll_eq_alone m [c] (by simpa using hbytes)]
    rfl
  run := fun chosen hchosen =>
    runAll_eq_alone m chosen fun c hc => bytes_of_ofText htext c (hchosen hc)
  kept := fun chosen _ h i hi => Shelf.runAll_eq m chosen h hi

end Trial
end MinionComputer
