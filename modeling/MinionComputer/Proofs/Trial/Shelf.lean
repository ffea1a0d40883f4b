/-
# Test cases on a shelf of memories

A machine writes to the memory it works on, in its place, and a case may rewrite all of it and stop
in the middle of a step.  That no other case can tell is because each works on a copy: on a shelf of
memories every case adds one, writes only there, and leaves the ones that were there before.

* `Shelf.run`, `Shelf.runAll`: cases with their memories on a shelf;
* `Shelf.drive_eq`: the steps of a case, by induction on those that are left;
* `Shelf.run_eq`, `Shelf.runAll_eq`: what comes of cases, and which memories they leave alone.
-/
import MinionComputer.Proofs.Machine.Slicing
import MinionComputer.Trial.Check

namespace MinionComputer
namespace Trial

/-! ## 1. Cases on a shelf -/

/-- Memories by number.  Whoever works on one of them works on it in its place. -/
abbrev Shelf := List Memory

/-- What a case tells of the steps that were taken for it. -/
def Case.tells (c : Case) (x : Array Note × Except Trouble Int) : List Note × Except Trouble Int :=
  match x.2 with
  | .ok n =>
    (x.1.toList ++ [⟨.debug, channel, "Test " ++ c.displayName ++ " passed in " ++
      Text.integer n ++ " steps"⟩], .ok n)
  | .error t => (x.1.toList, .error (t.named c.name))

namespace Shelf

/-- The memory in a place. -/
def read (h : Shelf) (i : Nat) : Memory := h.getD i .blank

/-- Takes the steps that are left, each on the memory in place `i`, and leaves there what the step
makes of it. -/
def drive (i : Nat) : (left : Nat) → Array Note → Machine → Check → Shelf →
    (Array Note × Except Trouble Int) × Shelf
  | 0, notes, m, k, h => (Trial.drive 0 notes m k, h)
  | left + 1, notes, m, k, h =>
    let m := { m with memory := h.read i }
    let t := m.step Check.device k
    let h := h.set i t.machine.memory
    match t.result with
    | .ok ⟨.continued, _, _⟩ => drive i left (notes ++ t.notes.toArray) t.machine t.device h
    | _ => (Trial.drive 1 notes m k, h)

/-- Runs a case on a copy of the memory in place `i`, behind all others. -/
def run (i : Nat) (c : Case) (h : Shelf) : (List Note × Except Trouble Int) × Shelf :=
  let copied := h ++ [h.read i]
  let machine := Machine.start (Shelf.read copied h.length)
  let (x, h') := drive h.length c.maxSteps.toNat #[machine.startNote] machine (Check.ofCase c) copied
  (c.tells x, h')

/-- Runs the cases one after another, each on a copy of the memory in place `i`. -/
def runAll (i : Nat) : List Case → Shelf → (List Note × Except Trouble (List Entry)) × Shelf
  | [], h => (([], .ok []), h)
  | c :: cs, h =>
    let ((notes, result), h) := run i c h
    match result with
    | .ok n =>
      let ((notes', rest), h) := runAll i cs h
      ((notes ++ notes', rest.map (⟨c, none, n⟩ :: ·)), h)
    | .error (.failure f) =>
      let ((notes', rest), h) := runAll i cs h
      ((notes ++ ⟨.info, channel, f.message⟩ :: notes', rest.map (⟨c, some f, f.steps⟩ :: ·)), h)
    | .error t => ((notes, .error t), h)

/-! ## 2. What they touch -/

variable {h : Shelf} {i : Nat} {m : Memory}

theorem read_of_getElem? (hi : h[i]? = some m) : h.read i = m := by
  simp [read, List.getD_eq_getElem?_getD, hi]

theorem read_set (hi : i < h.length) (m : Memory) : Shelf.read (h.set i m) i = m := by
  simp [read, List.getD_eq_getElem?_getD, hi]

/-- A step that does not go on is the last, however many are left. -/
theorem drive_of_stopped {machine : Machine} {k : Check} (left : Nat) (notes : Array Note)
    (hstop : ¬ Machine.Continues Check.device machine k) :
    Trial.drive (left + 1) notes machine k = Trial.drive 1 notes machine k := by
  simp only [Trial.drive]
  split
  · rfl
  · rfl
  · rfl
  · next r hr =>
    obtain ⟨o, a, cell⟩ := r
    cases o with
    | continued => exact absurd ⟨a, cell, hr⟩ hstop
    | _ => rfl

/-- **Steps on a shelf** come to what they come to on a memory of their own, and touch nothing but
the memory in their place. -/
theorem drive_eq : ∀ (left : Nat) (notes : Array Note) (machine : Machine) (k : Check) (h : Shelf),
    i < h.length → h.read i = machine.memory →
      (drive i left notes machine k h).1 = Trial.drive left notes machine k ∧
        ∃ m, (drive i left notes machine k h).2 = h.set i m
  | 0, _, machine, _, h, hi, hread => by
    refine ⟨rfl, machine.memory, ?_⟩
    simp [drive, ← hread, read, List.getD_eq_getElem?_getD, hi]
  | left + 1, notes, machine, k, h, hi, hread => by
    have hmachine : { machine with memory := h.read i } = machine := by rw [hread]
    rw [drive]
    simp only [hmachine]
    split
    · next a cell hr =>
      have ih := drive_eq left (notes ++ (machine.step Check.device k).notes.toArray)
        (machine.step Check.device k).machine (machine.step Check.device k).device
        (h.set i (machine.step Check.device k).machine.memory) (by simpa using hi) (read_set hi _)
      obtain ⟨m, hm⟩ := ih.2
      refine ⟨?_, m, ?_⟩
      · rw [ih.1, Trial.drive]
        simp only [hr]
      · rw [hm, List.set_set]
    · next hr =>
      refine ⟨?_, _, rfl⟩
      refine (drive_of_stopped left notes ?_).symm
      rintro ⟨a, cell, hgo⟩
      exact hr a cell hgo

/-- **A case on a shelf** comes to what it comes to on the memory, and leaves one memory more. -/
theorem run_eq (hi : h[i]? = some m) (c : Case) :
    (run i c h).1 = c.run m ∧ ∃ m', (run i c h).2 = h ++ [m'] := by
  have hread : Shelf.read (h ++ [h.read i]) h.length = m :=
    read_of_getElem? (by rw [List.getElem?_concat_length, read_of_getElem? hi])
  obtain ⟨hresult, m', hshelf⟩ := drive_eq c.maxSteps.toNat #[(Machine.start m).startNote]
    (Machine.start m) (Check.ofCase c) (h ++ [h.read i]) (i := h.length) (by simp) hread
  unfold run
  simp only [hread, hresult, hshelf]
  exact ⟨rfl, m', by simp⟩

/-- **The cases on a shelf** come to what they come to on the memory, and all memories that were on
the shelf are as they were. -/
theorem runAll_eq (m : Memory) : ∀ (cases : List Case) (h : Shelf), h[i]? = some m →
    (runAll i cases h).1 = Trial.runAll m cases ∧ h <+: (runAll i cases h).2
  | [], h, _ => ⟨rfl, List.prefix_refl h⟩
  | c :: cases, h, hi => by
    obtain ⟨hrun, m', hshelf⟩ := run_eq hi c
    have hi' : (h ++ [m'])[i]? = some m := by
      rw [List.getElem?_append_left (List.getElem?_eq_some_iff.mp hi).1]
      exact hi
    obtain ⟨hrest, hprefix⟩ := runAll_eq m cases (h ++ [m']) hi'
    have hkept : h <+: (runAll i cases (h ++ [m'])).2 := (List.prefix_append h [m']).trans hprefix
    simp only [runAll, Trial.runAll, hrun, hshelf, hrest]
    cases (c.run m).2 with
    | ok n => exact ⟨rfl, hkept⟩
    | error t =>
      cases t with
      | failure f => exact ⟨rfl, hkept⟩
      | code f => exact ⟨rfl, List.prefix_append h [m']⟩
      | address n => exact ⟨rfl, List.prefix_append h [m']⟩

/-- Without a copy it is not so: the program `300` overwrites itself. -/
example : (drive 0 1 #[] (Machine.start (.ofList [300])) (Check.ofCase {}) [.ofList [300]]).2 =
    [.ofList [0]] := by
  decide +kernel

end Shelf

end Trial
end MinionComputer
