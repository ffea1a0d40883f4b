/-
# What the second pass makes of the statements

The second pass looks up an operand in the symbols that the first pass bound.  When these are the
labels of the program, each once, what it finds is what the operand denotes (`Denotes`), whether
the label stands before or after the statement that uses it.  A statement then has a cell exactly
when its operand has a value in range, and `Mnemonic.encode` has nothing left to refuse.

* `operandValue_eq_ok_iff`: looking up an operand;
* `exists_cell_iff`, `encodes_of_cell`: the cell of one statement;
* `secondPass_eq_ok_iff`: the whole pass;
* `secondProblems_error_iff`: what cuts it short.
-/
import MinionComputer.Proofs.Cell
import MinionComputer.Proofs.Source.Meaning

namespace MinionComputer

namespace Source

/-! ## 1. Looking up an operand -/

/-- The symbols are the labels of the program, each bound to the index of its statement, and each
of them is a label by its letters. -/
structure Binds (symbols : Symbols) (program : List Statement) : Prop where
  table : (symbols.map fun x => (x.1, x.2.val)) = labelTable program
  distinct : (labels program).Nodup
  wellFormed : ∀ s ∈ program, s.WellFormed

theorem map_fst_labelsFrom : ∀ (program : List Statement) (first : Nat),
    (labelsFrom first program).map (·.1) = labels program
  | [], _ => rfl
  | s :: program, first => by
    rw [labelsFrom_cons, labels_cons, List.map_append, map_fst_labelsFrom program (first + 1)]
    cases s.label <;> rfl

/-- Symbols that are the labels with their indices are named by the labels. -/
theorem map_fst_of_table {symbols : Symbols} {program : List Statement}
    (h : (symbols.map fun x => (x.1, x.2.val)) = labelTable program) :
    symbols.map (·.1) = labels program := by
  have hmap := congrArg (List.map Prod.fst) h
  rw [List.map_map] at hmap
  exact hmap.trans (map_fst_labelsFrom program 0)

/-- Where no name is bound twice, the first binding of a name is the only one. -/
theorem address?_eq_some_iff {symbols : Symbols} {l : List Char} {a : Address}
    (h : (symbols.map (·.1)).Nodup) : symbols.address? l = some a ↔ (l, a) ∈ symbols := by
  unfold Symbols.address?
  constructor
  · intro hl
    obtain ⟨x, hx, rfl⟩ := Option.map_eq_some_iff.mp hl
    have hname : x.1 = l := by simpa using List.find?_some hx
    rw [← hname]
    exact List.mem_of_find?_eq_some hx
  · intro hl
    induction symbols with
    | nil => cases hl
    | cons x rest ih =>
      obtain ⟨hx, hrest⟩ := List.nodup_cons.mp h
      rcases List.mem_cons.mp hl with rfl | hl
      · simp
      · have hne : (x.1 == l) = false := by
          rw [beq_eq_false_iff_ne]
          rintro rfl
          exact hx (List.mem_map.mpr ⟨_, hl, rfl⟩)
        rw [List.find?_cons, hne]
        exact ih hrest hl

/-- **Looking up a label finds the index of its statement**, wherever that stands. -/
theorem address?_iff_of_binds {symbols : Symbols} {program : List Statement}
    (h : Binds symbols program) {l : List Char} {a : Address} :
    symbols.address? l = some a ↔ ∃ s, program[a.val]? = some s ∧ s.label = some l := by
  have hnames := map_fst_of_table h.table
  rw [address?_eq_some_iff (hnames ▸ h.distinct)]
  have hmem : (l, a) ∈ symbols ↔ (l, a.val) ∈ labelTable program := by
    rw [← h.table, List.mem_map]
    constructor
    · intro hl
      exact ⟨(l, a), hl, rfl⟩
    · rintro ⟨x, hx, heq⟩
      obtain ⟨hl, ha⟩ := Prod.mk.inj heq
      have : x = (l, a) := Prod.ext hl (Fin.ext ha)
      exact this ▸ hx
  rw [hmem, labelTable, mem_labelsFrom]
  constructor
  · rintro ⟨i, s, hs, hl, hi⟩
    rw [Nat.zero_add] at hi
    exact ⟨s, hi ▸ hs, hl⟩
  · rintro ⟨s, hs, hl⟩
    exact ⟨a.val, s, hs, hl, (Nat.zero_add _).symm⟩

/-- A sign and a row of digits denotes the number it is written as, and nothing else. -/
theorem denotes_iff_of_isSignedNumeral {program : List Statement} {w : List Char} {v : Int}
    (hw : Text.isSignedNumeral w = true) (hwell : ∀ s ∈ program, s.WellFormed) :
    Denotes program w v ↔
      v = Text.withSign (Text.splitSign w).1 (Text.digitsValue (Text.splitSign w).2) := by
  constructor
  · intro h
    cases h with
    | unsigned hd =>
      rw [Text.splitSign_of_isNumeral hd]
      rfl
    | plus _ => rfl
    | minus _ => rfl
    | label hs hl =>
      have hlabel := (hwell _ (List.mem_of_getElem? hs)).label _ hl
      rw [not_isSignedNumeral_of_isLabel hlabel] at hw
      exact Bool.noConfusion hw
  · rintro rfl
    have hd : Text.isNumeral (Text.splitSign w).2 = true := hw
    unfold Text.splitSign at hd ⊢
    split at hd
    · exact .minus hd
    · exact .plus hd
    · exact .unsigned hd

/-- Any other word denotes nothing but the indices of the statements it labels. -/
theorem denotes_iff_of_not_isSignedNumeral {program : List Statement} {w : List Char} {v : Int}
    (hw : Text.isSignedNumeral w = false) :
    Denotes program w v ↔
      ∃ (i : Nat) (s : Statement), program[i]? = some s ∧ s.label = some w ∧ v = i := by
  constructor
  · intro h
    cases h with
    | unsigned hd =>
      rw [Text.isSignedNumeral, Text.splitSign_of_isNumeral hd, hd] at hw
      exact Bool.noConfusion hw
    | plus hd => exact Bool.noConfusion (hd.symm.trans hw)
    | minus hd => exact Bool.noConfusion (hd.symm.trans hw)
    | label hs hl => exact ⟨_, _, hs, hl, rfl⟩
  · rintro ⟨i, s, hs, hl, rfl⟩
    exact .label hs hl

/-- **Looking up an operand finds what it denotes.** -/
theorem operandValue_eq_ok_iff {symbols : Symbols} {program : List Statement}
    (h : Binds symbols program) (hsize : program.length ≤ 100) {w : List Char} {v : Int}
    (hshort : Text.isSignedNumeral w = true → (Text.splitSign w).2.length ≤ Text.digitLimit) :
    operandValue symbols w = .ok v ↔ Denotes program w v := by
  unfold operandValue
  cases hw : Text.isSignedNumeral w with
  | true =>
    have hread : Text.readInteger w =
        .ok (Text.withSign (Text.splitSign w).1 (Text.digitsValue (Text.splitSign w).2)) := by
      rw [Text.readInteger_of_isSignedNumeral hw, Text.readDigits, if_pos (hshort hw)]
      rfl
    rw [denotes_iff_of_isSignedNumeral hw h.wellFormed, if_pos rfl, hread]
    simp [eq_comm]
  | false =>
    rw [denotes_iff_of_not_isSignedNumeral hw, if_neg Bool.false_ne_true]
    constructor
    · intro hv
      split at hv
      · cases hv
      · split at hv
        · next a ha =>
          cases hv
          obtain ⟨s, hs, hl⟩ := (address?_iff_of_binds h).mp ha
          exact ⟨a.val, s, hs, hl, rfl⟩
        · cases hv
    · rintro ⟨i, s, hs, hl, rfl⟩
      have hi : i < 100 := by
        have := (List.getElem?_eq_some_iff.mp hs).1
        omega
      have ha : symbols.address? w = some ⟨i, hi⟩ := (address?_iff_of_binds h).mpr ⟨s, hs, hl⟩
      have hlabel : isLabel w = true := (h.wellFormed s (List.mem_of_getElem? hs)).label w hl
      rw [hlabel, ha]
      rfl

/-! ## 2. The cell of a statement -/

/-- Only the data word takes data. -/
theorem form_eq_address {m : Mnemonic} (hform : m.form ≠ .none) (hdat : m ≠ .dat) :
    m.form = .address := by
  cases m <;> first | rfl | exact absurd rfl hform | exact absurd rfl hdat

/-- **A value makes a cell exactly when it is in range.** -/
theorem exists_cellOf_iff {m : Mnemonic} {v : Int} :
    (∃ c, cellOf m v = .ok c) ↔ InRange m v := by
  unfold cellOf InRange
  by_cases hm : m = .dat
  · rw [if_pos hm, if_pos hm, ← Cell.exists_toInt_iff]
    refine exists_congr fun c => ?_
    rw [← Cell.ofInt?_eq_some_iff]
    cases Cell.ofInt? v <;> simp
  · rw [if_neg hm, if_neg hm, ← Address.exists_toInt_iff]
    constructor
    · rintro ⟨c, hc⟩
      split at hc
      · next a ha => exact ⟨a, Address.ofInt?_eq_some_iff.mp ha⟩
      · cases hc
    · rintro ⟨a, rfl⟩
      rw [Address.ofInt?_toInt]
      exact ⟨m.withAddress a, rfl⟩

/-- ...and the cell is the sum of the base and the value. -/
theorem toInt_of_cellOf {m : Mnemonic} (hform : m.form ≠ .none) {v : Int} {c : Cell}
    (h : cellOf m v = .ok c) : Cell.toInt c = Cell.toInt m.base + v := by
  unfold cellOf at h
  by_cases hm : m = .dat
  · subst hm
    have hbase : Cell.toInt Mnemonic.dat.base = 0 := rfl
    rw [if_pos rfl] at h
    split at h
    · next c' hc =>
      cases h
      rw [hbase, Int.zero_add]
      exact Cell.ofInt?_eq_some_iff.mp hc
    · cases h
  · rw [if_neg hm] at h
    split at h
    · next a ha =>
      cases h
      have hval := Mnemonic.withAddress_val (form_eq_address hform hm) a
      have hv : Address.toInt a = v := Address.ofInt?_eq_some_iff.mp ha
      unfold Address.toInt at hv
      unfold Cell.toInt
      omega
    · cases h

/-- What the second pass makes of a value is what encoding makes of it. -/
theorem encode_of_cellOf {m : Mnemonic} (hform : m.form ≠ .none) {v : Int} {c : Cell}
    (h : cellOf m v = .ok c) : m.encode (some v) = .ok c := by
  unfold cellOf at h
  by_cases hm : m = .dat
  · subst hm
    rw [if_pos rfl] at h
    split at h
    · next c' hc =>
      cases h
      simp [Mnemonic.encode, Mnemonic.form, hc]
    · cases h
  · rw [if_neg hm] at h
    split at h
    · next a ha =>
      cases h
      simp [Mnemonic.encode, form_eq_address hform hm, ha]
    · cases h

/-- An instruction word that may stand alone stands for its base. -/
theorem encode_none {m : Mnemonic} (hform : m.form ≠ .address) : m.encode none = .ok m.base := by
  cases m <;> first | rfl | exact absurd rfl hform

variable {symbols : Symbols} {program : List Statement}

/-- The cell of a statement with an operand is made from what the operand denotes. -/
theorem cell_eq_ok_iff_of_operand (h : Binds symbols program) (hsize : program.length ≤ 100)
    (hshort : ShortNumerals program) {p : Placed} (hp : p.statement ∈ program) {w : List Char}
    (ho : p.statement.operand = some w) {c : Cell} :
    p.cell symbols = .ok c ↔
      ∃ v, Denotes program w v ∧ cellOf p.statement.mnemonic v = .ok c := by
  have hcell : p.cell symbols = (operandValue symbols w).bind (cellOf p.statement.mnemonic) := by
    rw [Placed.cell, ho]
  have hvalue : ∀ v, operandValue symbols w = .ok v ↔ Denotes program w v := fun v =>
    operandValue_eq_ok_iff h hsize (hshort _ hp w ho)
  rw [hcell]
  constructor
  · intro hc
    cases hv : operandValue symbols w with
    | error f =>
      rw [hv] at hc
      cases hc
    | ok v =>
      rw [hv] at hc
      exact ⟨v, (hvalue v).mp hv, hc⟩
  · rintro ⟨v, hv, hc⟩
    rw [(hvalue v).mpr hv]
    exact hc

/-- **A statement has a cell exactly when its operand, if it has one, denotes a value in
range.** -/
theorem exists_cell_iff (h : Binds symbols program) (hsize : program.length ≤ 100)
    (hshort : ShortNumerals program) {p : Placed} (hp : p.statement ∈ program) :
    (∃ c, p.cell symbols = .ok c) ↔
      ∀ w, p.statement.operand = some w →
        ∃ v, Denotes program w v ∧ InRange p.statement.mnemonic v := by
  cases ho : p.statement.operand with
  | none => simp [Placed.cell, ho]
  | some w =>
    constructor
    · rintro ⟨c, hc⟩ _ hw
      cases hw
      obtain ⟨v, hv, hcell⟩ := (cell_eq_ok_iff_of_operand h hsize hshort hp ho).mp hc
      exact ⟨v, hv, exists_cellOf_iff.mp ⟨c, hcell⟩⟩
    · intro hw
      obtain ⟨v, hv, hrange⟩ := hw w rfl
      obtain ⟨c, hc⟩ := exists_cellOf_iff.mpr hrange
      exact ⟨c, (cell_eq_ok_iff_of_operand h hsize hshort hp ho).mpr ⟨v, hv, hc⟩⟩

/-- **The cell of a statement is the one that the statement stands for.** -/
theorem encodes_of_cell (h : Binds symbols program) (hsize : program.length ≤ 100)
    (hshort : ShortNumerals program) {p : Placed} (hp : p.statement ∈ program) {c : Cell}
    (hc : p.cell symbols = .ok c) : Encodes program p.statement c := by
  have hfits := (h.wellFormed _ hp).operand
  cases ho : p.statement.operand with
  | none =>
    have hbase : c = p.statement.mnemonic.base := by
      rw [Placed.cell, ho] at hc
      cases hc
      rfl
    refine ⟨0, ?_, ?_, ?_⟩
    · simp [Statement.HasValue, ho]
    · rw [hbase, Int.add_zero]
    · rw [ho, hbase]
      exact encode_none fun hform => hfits.1 hform ho
  | some w =>
    have hform : p.statement.mnemonic.form ≠ .none := by
      intro hn
      rw [hfits.2 hn] at ho
      cases ho
    obtain ⟨v, hv, hcell⟩ := (cell_eq_ok_iff_of_operand h hsize hshort hp ho).mp hc
    have hvalue : ∀ v', operandValue symbols w = .ok v' ↔ Denotes program w v' := fun v' =>
      operandValue_eq_ok_iff h hsize (hshort _ hp w ho)
    refine ⟨v, ?_, toInt_of_cellOf hform hcell, ?_⟩
    · intro v'
      -- looking up is a function, so an operand denotes no second value
      simp only [Statement.HasValue, ho]
      rw [← hvalue v', (hvalue v).mpr hv, Except.ok.injEq, eq_comm]
    · rw [ho]
      exact encode_of_cellOf hform hcell

/-! ## 3. The whole pass -/

/-- The second pass finds nothing wrong exactly when every statement has a cell. -/
theorem secondProblems_eq_nil_iff : ∀ placed : List Placed,
    secondProblems symbols placed = .ok [] ↔ ∀ p ∈ placed, ∃ c, p.cell symbols = .ok c
  | [] => by simp [secondProblems]
  | p :: placed => by
    rw [List.forall_mem_cons, ← secondProblems_eq_nil_iff placed, secondProblems]
    cases p.cell symbols with
    | ok c => simp
    | error f =>
      cases f with
      | tooLong digits => simp
      | cause k => cases secondProblems symbols placed <;> simp [Except.map]

/-- **The second pass succeeds exactly when every statement has a cell**, and these are the cells
from address 0 on. -/
theorem secondPass_eq_ok_iff {placed : List Placed} {m : Memory} :
    secondPass symbols placed = .ok m ↔
      (∀ p ∈ placed, ∃ c, p.cell symbols = .ok c) ∧
        m = Memory.ofList (secondCells symbols placed) := by
  rw [← secondProblems_eq_nil_iff, secondPass]
  cases secondProblems symbols placed with
  | error digits => simp
  | ok problems =>
    cases problems with
    | nil => simp [faultOf, eq_comm]
    | cons q qs => simp [faultOf]

/-- The cell at the address of a statement is its cell. -/
theorem getD_secondCells {placed : List Placed} {i : Nat} {p : Placed} {c : Cell}
    (hp : placed[i]? = some p) (hc : p.cell symbols = .ok c) :
    (secondCells symbols placed).getD i 0 = c := by
  rw [List.getD_eq_getElem?_getD, secondCells, List.getElem?_map, hp, Option.map_some, hc]
  rfl

/-! ## 4. Operands of too many digits -/

/-- An operand is refused for its length exactly when it is a row of too many digits. -/
theorem operandValue_tooLong_iff {w : List Char} :
    (∃ digits, operandValue symbols w = .error (.tooLong digits)) ↔
      Text.isSignedNumeral w = true ∧ Text.digitLimit < (Text.splitSign w).2.length := by
  unfold operandValue
  cases hw : Text.isSignedNumeral w with
  | true =>
    rw [if_pos rfl, Text.readInteger_of_isSignedNumeral hw, Text.readDigits]
    by_cases hlen : (Text.splitSign w).2.length ≤ Text.digitLimit
    · rw [if_pos hlen]
      refine iff_of_false ?_ fun h => absurd hlen (Nat.not_le_of_lt h.2)
      rintro ⟨digits, hd⟩
      cases hd
    · rw [if_neg hlen]
      exact iff_of_true ⟨_, rfl⟩ ⟨rfl, Nat.lt_of_not_le hlen⟩
  | false =>
    rw [if_neg Bool.false_ne_true]
    refine iff_of_false ?_ fun h => Bool.noConfusion h.1
    rintro ⟨digits, hd⟩
    split at hd
    · cases hd
    · split at hd <;> cases hd

/-- A value may be out of range, but it is never too long. -/
theorem cellOf_ne_tooLong {m : Mnemonic} {v : Int} {digits : Nat} :
    cellOf m v ≠ .error (.tooLong digits) := by
  intro h
  unfold cellOf at h
  split at h
  · split at h <;> cases h
  · split at h <;> cases h

theorem cell_tooLong_iff {p : Placed} :
    (∃ digits, p.cell symbols = .error (.tooLong digits)) ↔
      ∃ w, p.statement.operand = some w ∧ Text.isSignedNumeral w = true ∧
        Text.digitLimit < (Text.splitSign w).2.length := by
  unfold Placed.cell
  cases ho : p.statement.operand with
  | none => simp
  | some w =>
    have hvalue : (∃ digits, (operandValue symbols w).bind (cellOf p.statement.mnemonic) =
        .error (.tooLong digits)) ↔
          ∃ digits, operandValue symbols w = .error (.tooLong digits) := by
      refine exists_congr fun digits => ?_
      cases operandValue symbols w with
      | error f => simp only [Except.bind, Except.error.injEq]
      | ok v => exact iff_of_false cellOf_ne_tooLong fun h => by cases h
    rw [hvalue, operandValue_tooLong_iff]
    simp

/-- **The second pass is cut short exactly by an operand of too many digits.** -/
theorem secondProblems_error_iff (symbols : Symbols) : ∀ placed : List Placed,
    (∃ digits, secondProblems symbols placed = .error digits) ↔
      ¬ ShortNumerals (placed.map (·.statement))
  | [] => by simp [secondProblems, ShortNumerals]
  | p :: placed => by
    have hshort : ShortNumerals ((p :: placed).map (·.statement)) ↔
        ¬ (∃ digits, p.cell symbols = .error (.tooLong digits)) ∧
          ShortNumerals (placed.map (·.statement)) := by
      rw [cell_tooLong_iff, List.map_cons, ShortNumerals, List.forall_mem_cons]
      refine and_congr_left fun _ => ?_
      simp only [not_exists, not_and, Nat.not_lt]
    rw [hshort, secondProblems]
    cases hcell : p.cell symbols with
    | ok c =>
      rw [secondProblems_error_iff symbols placed]
      simp
    | error f =>
      cases f with
      | tooLong digits =>
        refine iff_of_true ⟨digits, rfl⟩ fun h => h.1 ⟨digits, rfl⟩
      | cause c =>
        have hrest := secondProblems_error_iff symbols placed
        cases hp : secondProblems symbols placed with
        | error digits =>
          rw [hp] at hrest
          exact iff_of_true ⟨digits, rfl⟩ fun h => hrest.mp ⟨digits, rfl⟩ h.2
        | ok qs =>
          rw [hp] at hrest
          have hnone : ShortNumerals (placed.map (·.statement)) := by
            by_contra h
            obtain ⟨digits, hd⟩ := hrest.mpr h
            cases hd
          refine iff_of_false ?_ fun h => h ⟨?_, hnone⟩
          · rintro ⟨digits, hd⟩
            cases hd
          · rintro ⟨digits, hd⟩
            cases hd

end Source
end MinionComputer
