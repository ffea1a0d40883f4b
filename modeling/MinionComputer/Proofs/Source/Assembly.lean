/-
# Assembling gives every statement the cell it stands for

The two passes together do what `Meaning.lean` says without them: a text is assembled exactly
when it satisfies `Assembles`, each statement then lies at its own index as the cell that it
`Encodes`, what is left of the memory is zero, and the symbols are the labels with the indices of
their statements.  Operands of more digits than are read are left out: such an operand stops the
second pass although it has a value.

* `ofSource_ok_iff`: the passes one after the other;
* `ofSource_assembles_iff`: all of it.
-/
import MinionComputer.Proofs.Source.FirstPass
import MinionComputer.Proofs.Source.SecondPass

namespace MinionComputer
namespace Source

/-! ## 1. Two passes -/

/-- The first pass over a text. -/
def firstPass (enabled : Bool) (source : List Char) : FirstPass :=
  FirstPass.ofLines enabled 0 [] (numberedLines source)

/-- The second pass runs if the first finds nothing wrong. -/
theorem ofSource_result_eq {enabled : Bool} {source : List Char} :
    (Assembly.ofSource enabled source).result =
      match faultOf .first (firstPass enabled source).problems with
      | some f => .error f
      | none => secondPass (firstPass enabled source).symbols (firstPass enabled source).placed :=
  rfl

/-- **Both passes succeed exactly when neither finds anything wrong.** -/
theorem ofSource_ok_iff {enabled : Bool} {source : List Char} {m : Memory} :
    (Assembly.ofSource enabled source).result = .ok m ↔
      (firstPass enabled source).problems = [] ∧
        secondPass (firstPass enabled source).symbols (firstPass enabled source).placed =
          .ok m := by
  rw [ofSource_result_eq]
  cases (firstPass enabled source).problems with
  | nil => simp [faultOf]
  | cons p ps => simp [faultOf]

/-- **A text satisfies `Assembles` exactly when the first pass finds nothing wrong and every
operand has a value in range.** -/
theorem assembles_iff {enabled : Bool} {source : List Char} :
    Assembles enabled source ↔
      (firstPass enabled source).problems = [] ∧
        ∀ s ∈ statements source, ∀ w, s.operand = some w →
          ∃ v, Denotes (statements source) w v ∧ InRange s.mnemonic v := by
  have hfirst : (firstPass enabled source).problems = [] ↔
      (∀ x ∈ numberedLines source, ∃ line, Line.parse x.1 x.2 = .ok line) ∧
        Fits enabled 0 [] (statements source) :=
    FirstPass.problems_ofLines_eq_nil_iff _ 0 [] (Nat.zero_le 100)
  rw [hfirst]
  constructor
  · intro h
    refine ⟨⟨h.read, ?_⟩, h.operands⟩
    refine ⟨?_, h.distinct, fun _ _ => List.not_mem_nil, ?_, h.permitted⟩
    · rw [Nat.zero_add]
      exact h.size
    · intro i s hs hm
      rw [Nat.zero_add]
      exact h.mark i s hs hm
  · rintro ⟨⟨hread, hfits⟩, hoperands⟩
    refine ⟨hread, ?_, hfits.distinct, ?_, hfits.permitted, hoperands⟩
    · rw [← Nat.zero_add (statements source).length]
      exact hfits.size
    · intro i s hs hm
      rw [← Nat.zero_add i]
      exact hfits.mark i s hs hm

/-- What a first pass that finds nothing wrong hands over to the second. -/
structure HandsOver (program : List Statement) (first : FirstPass) : Prop where
  binds : Binds first.symbols program
  size : program.length ≤ 100
  statements : first.placed.map (·.statement) = program

theorem handsOver_firstPass {enabled : Bool} {source : List Char}
    (h : (firstPass enabled source).problems = []) :
    HandsOver (statements source) (firstPass enabled source) := by
  obtain ⟨hread, hfits⟩ :=
    (FirstPass.problems_ofLines_eq_nil_iff _ 0 [] (Nat.zero_le 100)).mp h
  have hplaces := FirstPass.places_ofLines _ 0 [] hread hfits
  refine ⟨⟨hplaces.symbols, hfits.distinct, ?_⟩, ?_, hplaces.statements⟩
  · exact fun s hs => wellFormed_of_mem_statements hs
  · rw [← Nat.zero_add (statements source).length]
    exact hfits.size

/-! ## 2. Texts and memories -/

/-- **A text is assembled exactly when it satisfies `Assembles`.**  Then each statement lies at
its own index as the cell it stands for, the memory is zero behind the last one, and the symbols
are the labels with the indices of their statements, in the order of their definition. -/
theorem ofSource_assembles_iff (enabled : Bool) {source : List Char}
    (hshort : ShortNumerals (statements source)) :
    ((∃ m, (Assembly.ofSource enabled source).result = .ok m) ↔ Assembles enabled source) ∧
      ∀ m, (Assembly.ofSource enabled source).result = .ok m →
        (∀ (i : Nat) (s : Statement), (statements source)[i]? = some s →
          ∃ a : Address, a.val = i ∧ Encodes (statements source) s (m.read a)) ∧
        (∀ a : Address, (statements source).length ≤ a.val → m.read a = 0) ∧
        ((Assembly.ofSource enabled source).symbols.map fun x => (x.1, x.2.val)) =
          labelTable (statements source) := by
  constructor
  · rw [assembles_iff]
    constructor
    · rintro ⟨m, hm⟩
      obtain ⟨hnone, hsecond⟩ := ofSource_ok_iff.mp hm
      have h := handsOver_firstPass hnone
      obtain ⟨hcells, -⟩ := secondPass_eq_ok_iff.mp hsecond
      refine ⟨hnone, fun s hs => ?_⟩
      rw [← h.statements] at hs
      obtain ⟨p, hp, rfl⟩ := List.mem_map.mp hs
      exact (exists_cell_iff h.binds h.size hshort (h.statements ▸ hs)).mp (hcells p hp)
    · rintro ⟨hnone, hoperands⟩
      have h := handsOver_firstPass hnone
      refine ⟨_, ofSource_ok_iff.mpr ⟨hnone, secondPass_eq_ok_iff.mpr ⟨fun p hp => ?_, rfl⟩⟩⟩
      have hs : p.statement ∈ statements source := by
        rw [← h.statements]
        exact List.mem_map.mpr ⟨p, hp, rfl⟩
      exact (exists_cell_iff h.binds h.size hshort hs).mpr (hoperands _ hs)
  · intro m hm
    obtain ⟨hnone, hsecond⟩ := ofSource_ok_iff.mp hm
    have h := handsOver_firstPass hnone
    obtain ⟨hcells, rfl⟩ := secondPass_eq_ok_iff.mp hsecond
    refine ⟨?_, ?_, h.binds.table⟩
    · intro i s hs
      have hi : i < 100 := by
        have := (List.getElem?_eq_some_iff.mp hs).1
        have := h.size
        omega
      have hmem : s ∈ statements source := List.mem_of_getElem? hs
      rw [← h.statements, List.getElem?_map, Option.map_eq_some_iff] at hs
      obtain ⟨p, hp, rfl⟩ := hs
      obtain ⟨c, hc⟩ := hcells p (List.mem_of_getElem? hp)
      refine ⟨⟨i, hi⟩, rfl, ?_⟩
      rw [Memory.read_ofList, getD_secondCells hp hc]
      exact encodes_of_cell h.binds h.size hshort hmem hc
    · intro a ha
      have hlength : (secondCells (firstPass enabled source).symbols
          (firstPass enabled source).placed).length = (statements source).length := by
        rw [secondCells, List.length_map, ← h.statements, List.length_map]
      rw [Memory.read_ofList, List.getD_eq_getElem?_getD,
        List.getElem?_eq_none (hlength ▸ ha)]
      rfl

/-- A text with labels used before and after they are defined, words in small letters, all marks
of comments and two kinds of line ends. -/
def countdown : List Char :=
  (" lda count # start\nloop out\n SUB one ; less\r\n brp loop\n" ++
    "// end\n HLT\none dat 1\ncount dat +3").toList

theorem statements_countdown : statements countdown =
    [⟨none, .lda, some "count".toList⟩, ⟨some "loop".toList, .out, none⟩,
      ⟨none, .sub, some "one".toList⟩, ⟨none, .brp, some "loop".toList⟩, ⟨none, .hlt, none⟩,
      ⟨some "one".toList, .dat, some "1".toList⟩,
      ⟨some "count".toList, .dat, some "+3".toList⟩] := by
  rfl

theorem shortNumerals_countdown : ShortNumerals (statements countdown) := by
  rw [statements_countdown]
  simp only [ShortNumerals, List.forall_mem_cons, Option.some.injEq, forall_eq']
  decide

/-- The text is assembled, and so it satisfies `Assembles`. -/
theorem countdown_assembles : ShortNumerals (statements countdown) ∧
    (∃ m, (Assembly.ofSource false countdown).result = .ok m ∧
      m.toList.take 8 = [506, 902, 205, 801, 0, 1, 3, 0]) ∧ Assembles false countdown :=
  ⟨shortNumerals_countdown, ⟨_, rfl, rfl⟩,
    (ofSource_assembles_iff false shortNumerals_countdown).1.mp ⟨_, rfl⟩⟩

end Source
end MinionComputer
