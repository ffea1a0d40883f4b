/-
# What the first pass finds out

The first pass carries two things from line to line: how many statements it has met and the
labels it has bound.  It finds nothing wrong exactly when every line can be read and the
statements that are left fit behind those two (`Fits`), and then it has bound every label to the
index of its statement and given the statements the addresses in order.

* `bind_of_taken`, `bind_of_fresh`: what becomes of one statement;
* `FirstPass.problems_ofLines_eq_nil_iff`: when nothing is wrong;
* `FirstPass.places_ofLines`: what comes out then.
-/
import MinionComputer.Proofs.Source.Meaning

namespace MinionComputer
namespace Source

variable {enabled : Bool} {next : Nat} {symbols : Symbols} {program : List Statement}

/-! ## 1. One statement in its place -/

/-- The labels that are bound. -/
def Symbols.names (symbols : Symbols) : List (List Char) := symbols.map (·.1)

/-- What the first pass asks of one statement at index `next`, where `taken` are the labels
before it. -/
structure FitsAt (enabled : Bool) (next : Nat) (taken : List (List Char)) (s : Statement) :
    Prop where
  room : next < 100
  fresh : ∀ l, s.label = some l → l ∉ taken
  permitted : enabled = false → s.mnemonic ≠ .ext ∧ s.mnemonic ≠ .ina ∧ s.mnemonic ≠ .ota
  mark : s.mnemonic = .ext → next = 0

theorem address?_eq_none_iff {l : List Char} :
    symbols.address? l = none ↔ l ∉ symbols.names := by
  unfold Symbols.address? Symbols.names
  rw [Option.map_eq_none_iff, List.find?_eq_none]
  constructor
  · intro h hl
    obtain ⟨x, hx, rfl⟩ := List.mem_map.mp hl
    exact h x hx (by simp)
  · intro h x hx heq
    exact h (List.mem_map.mpr ⟨x, hx, by simpa using heq⟩)

theorem isExtended_eq_false_iff {m : Mnemonic} :
    m.isExtended = false ↔ m ≠ .ext ∧ m ≠ .ina ∧ m ≠ .ota := by
  cases m <;> decide

/-- The label of a statement is bound already, or it is not. -/
theorem taken_or_fresh (symbols : Symbols) (s : Statement) :
    (∃ l first, s.label = some l ∧ symbols.address? l = some first) ∨
      ∀ l, s.label = some l → l ∉ symbols.names := by
  cases hs : s.label with
  | none => exact .inr fun l hl => by cases hl
  | some l =>
    cases ha : symbols.address? l with
    | some first => exact .inl ⟨l, first, rfl, ha⟩
    | none =>
      refine .inr fun l' hl' => ?_
      cases hl'
      exact address?_eq_none_iff.mp ha

/-- A label that is bound already is not bound again. -/
theorem bind_of_taken (enabled : Bool) {p : Placed} {l : List Char} {first : Address}
    (hl : p.statement.label = some l) (ha : symbols.address? l = some first) :
    p.bind enabled symbols = (symbols, some (p.problem (.duplicateLabel l first))) := by
  rw [Placed.bind, hl, Option.bind_some, ha]
  rfl

/-- Any other is bound to the address of its statement, whatever else is wrong with that. -/
theorem bind_of_fresh (enabled : Bool) {p : Placed}
    (h : ∀ l, p.statement.label = some l → l ∉ symbols.names) :
    p.bind enabled symbols = (symbols ++ p.statement.label.toList.map fun l => (l, p.address),
      if p.statement.mnemonic.isExtended ∧ !enabled then
        some (p.problem (.extensionOff p.statement.mnemonic))
      else if p.statement.mnemonic = .ext ∧ p.address ≠ 0 then some (p.problem .misplacedMark)
      else none) := by
  have hnone : (p.statement.label.bind fun l => (symbols.address? l).map fun a => (l, a)) =
      none := by
    rw [Option.bind_eq_none_iff]
    intro l hl
    rw [address?_eq_none_iff.mpr (h l hl), Option.map_none]
  rw [Placed.bind, hnone]

/-- A statement is in order in its place exactly when it fits there. -/
theorem problem_of_bind_eq_none_iff {p : Placed} :
    (p.bind enabled symbols).2 = none ↔
      FitsAt enabled p.address.val symbols.names p.statement := by
  have haddr : p.address ≠ 0 ↔ p.address.val ≠ 0 := not_congr Fin.ext_iff
  rcases taken_or_fresh symbols p.statement with ⟨l, first, hl, ha⟩ | hfresh
  · rw [bind_of_taken enabled hl ha]
    refine iff_of_false (by simp) fun h => ?_
    rw [address?_eq_none_iff.mpr (h.fresh l hl)] at ha
    cases ha
  · rw [bind_of_fresh enabled hfresh]
    constructor
    · intro h
      simp only at h
      split at h
      · cases h
      · next hext =>
        split at h
        · cases h
        · next hmark =>
          refine ⟨p.address.isLt, hfresh, ?_, ?_⟩
          · rintro rfl
            rw [← isExtended_eq_false_iff]
            simpa using hext
          · intro hm
            exact Decidable.byContradiction fun hne => hmark ⟨hm, haddr.mpr hne⟩
    · intro h
      have hext : ¬ (p.statement.mnemonic.isExtended = true ∧ (!enabled) = true) := by
        rintro ⟨he, hoff⟩
        have := isExtended_eq_false_iff.mpr (h.permitted (by simpa using hoff))
        rw [this] at he
        exact Bool.noConfusion he
      have hmark : ¬ (p.statement.mnemonic = .ext ∧ p.address ≠ 0) := by
        rintro ⟨hm, hne⟩
        exact haddr.mp hne (h.mark hm)
      simp only [if_neg hext, if_neg hmark]

/-- A label that is bound is the next one that is taken. -/
theorem names_of_bind (enabled : Bool) {p : Placed}
    (h : ∀ l, p.statement.label = some l → l ∉ symbols.names) :
    (p.bind enabled symbols).1.names = symbols.names ++ p.statement.label.toList := by
  rw [bind_of_fresh enabled h, Symbols.names, List.map_append]
  cases p.statement.label <;> rfl

/-! ## 2. The statements that are left -/

/-- The statements that are left fit at the indices from `next` on, behind the labels `taken`. -/
structure Fits (enabled : Bool) (next : Nat) (taken : List (List Char))
    (program : List Statement) : Prop where
  size : next + program.length ≤ 100
  distinct : (labels program).Nodup
  fresh : ∀ l ∈ labels program, l ∉ taken
  mark : ∀ (i : Nat) (s : Statement), program[i]? = some s → s.mnemonic = .ext → next + i = 0
  permitted : enabled = false → ∀ s ∈ program,
    s.mnemonic ≠ .ext ∧ s.mnemonic ≠ .ina ∧ s.mnemonic ≠ .ota

theorem fits_nil {taken : List (List Char)} (h : next ≤ 100) : Fits enabled next taken [] where
  size := h
  distinct := List.nodup_nil
  fresh := by simp [labels]
  mark := by simp
  permitted := by simp

/-- **The first of the statements fits, and the rest fit behind it.** -/
theorem fits_cons_iff {taken : List (List Char)} {s : Statement} :
    Fits enabled next taken (s :: program) ↔
      FitsAt enabled next taken s ∧
        Fits enabled (next + 1) (taken ++ s.label.toList) program := by
  constructor
  · intro h
    have hsize := h.size
    have hdistinct := h.distinct
    have hfresh := h.fresh
    rw [labels_cons] at hdistinct hfresh
    obtain ⟨_, hnodup, hdisjoint⟩ := List.nodup_append.mp hdistinct
    rw [List.length_cons] at hsize
    refine ⟨⟨by omega, ?_, ?_, ?_⟩, ⟨by omega, hnodup, ?_, ?_, ?_⟩⟩
    · intro l hl
      exact hfresh l (by simp [hl])
    · intro hoff
      exact h.permitted hoff s List.mem_cons_self
    · intro hm
      exact h.mark 0 s rfl hm
    · intro l hl hmem
      rcases List.mem_append.mp hmem with hmem | hmem
      · exact hfresh l (List.mem_append_right _ hl) hmem
      · exact hdisjoint l hmem l hl rfl
    · intro i t ht hm
      have := h.mark (i + 1) t ht hm
      omega
    · intro hoff t ht
      exact h.permitted hoff t (List.mem_cons_of_mem _ ht)
  · rintro ⟨hs, h⟩
    have hsize := h.size
    refine ⟨by rw [List.length_cons]; omega, ?_, ?_, ?_, ?_⟩
    · rw [labels_cons, List.nodup_append]
      refine ⟨by cases s.label <;> simp, h.distinct, ?_⟩
      rintro l hl _ hl' rfl
      exact h.fresh l hl' (List.mem_append_right _ hl)
    · intro l hl
      rw [labels_cons] at hl
      rcases List.mem_append.mp hl with hl | hl
      · exact hs.fresh l (by simpa using hl)
      · exact fun hmem => h.fresh l hl (List.mem_append_left _ hmem)
    · intro i t ht hm
      cases i with
      | zero =>
        cases ht
        exact hs.mark hm
      | succ i =>
        have := h.mark i t ht hm
        omega
    · intro hoff t ht
      rcases List.mem_cons.mp ht with rfl | ht
      · exact hs.permitted hoff
      · exact h.permitted hoff t ht

/-! ## 3. One line more -/

theorem statementOn_of_parse {x : Nat × List Char} {line : Line}
    (h : Line.parse x.1 x.2 = .ok line) : statementOn x = line.statement := by
  unfold statementOn
  rw [h]
  rfl

namespace FirstPass

/-- A line that cannot be read is reported. -/
theorem problems_cons_of_error {x : Nat × List Char} {ls : List (Nat × List Char)} {p : Problem}
    (h : Line.parse x.1 x.2 = .error p) :
    (ofLines enabled next symbols (x :: ls)).problems ≠ [] := by
  simp only [ofLines, h]
  exact List.cons_ne_nil _ _

/-- A line without a statement is passed over. -/
theorem ofLines_cons_of_blank {x : Nat × List Char} {ls : List (Nat × List Char)} {line : Line}
    (h : Line.parse x.1 x.2 = .ok line) (hs : line.statement = none) :
    ofLines enabled next symbols (x :: ls) = ofLines enabled next symbols ls := by
  simp only [ofLines, h, hs]

/-- A statement gets the next address while there is one. -/
theorem ofLines_cons_of_statement (enabled : Bool) (symbols : Symbols)
    (ls : List (Nat × List Char)) {x : Nat × List Char} {line : Line} {s : Statement}
    (h : Line.parse x.1 x.2 = .ok line) (hs : line.statement = some s) (hnext : next < 100) :
    ∃ p : Placed, p.statement = s ∧ p.address.val = next ∧
      ofLines enabled next symbols (x :: ls) =
        let after := ofLines enabled (next + 1) (p.bind enabled symbols).1 ls
        ⟨after.symbols, p :: after.placed,
          (p.bind enabled symbols).2.toList ++ after.problems⟩ := by
  refine ⟨⟨s, ⟨next, hnext⟩, x.1, x.2⟩, rfl, rfl, ?_⟩
  simp only [ofLines, h, hs, dif_pos hnext]

/-- The statement behind the hundredth is reported. -/
theorem problems_cons_of_full {x : Nat × List Char} {ls : List (Nat × List Char)} {line : Line}
    {s : Statement} (h : Line.parse x.1 x.2 = .ok line) (hs : line.statement = some s) :
    (ofLines enabled 100 symbols (x :: ls)).problems ≠ [] := by
  simp [ofLines, h, hs]

/-! ## 4. The whole pass -/

/-- **The first pass finds nothing wrong exactly when every line can be read and the statements
fit.** -/
theorem problems_ofLines_eq_nil_iff : ∀ (ls : List (Nat × List Char)) (next : Nat)
    (symbols : Symbols), next ≤ 100 →
      ((ofLines enabled next symbols ls).problems = [] ↔
        (∀ x ∈ ls, ∃ line, Line.parse x.1 x.2 = .ok line) ∧
          Fits enabled next symbols.names (statementsOn ls))
  | [], next, symbols, hnext => by
    simp [ofLines, statementsOn, fits_nil hnext]
  | x :: ls, next, symbols, hnext => by
    rw [List.forall_mem_cons, statementsOn_cons]
    cases hp : Line.parse x.1 x.2 with
    | error p => simp [problems_cons_of_error hp]
    | ok line =>
      rw [statementOn_of_parse hp]
      cases hs : line.statement with
      | none =>
        rw [ofLines_cons_of_blank hp hs, problems_ofLines_eq_nil_iff ls next symbols hnext]
        simp
      | some s =>
        change _ ↔ _ ∧ Fits enabled next symbols.names (s :: statementsOn ls)
        rw [fits_cons_iff]
        rcases Nat.lt_or_eq_of_le hnext with hlt | rfl
        · obtain ⟨p, rfl, rfl, heq⟩ :=
            ofLines_cons_of_statement enabled symbols ls hp hs hlt
          rw [heq]
          simp only [List.append_eq_nil_iff, Option.toList_eq_nil_iff,
            problem_of_bind_eq_none_iff]
          rw [problems_ofLines_eq_nil_iff ls _ _ hlt]
          constructor
          · rintro ⟨hfits, hread, hrest⟩
            rw [names_of_bind enabled hfits.fresh] at hrest
            exact ⟨⟨⟨line, rfl⟩, hread⟩, hfits, hrest⟩
          · rintro ⟨⟨-, hread⟩, hfits, hrest⟩
            rw [← names_of_bind enabled hfits.fresh] at hrest
            exact ⟨hfits, hread, hrest⟩
        · refine iff_of_false (problems_cons_of_full hp hs) ?_
          rintro ⟨-, hfits, -⟩
          exact absurd hfits.room (Nat.lt_irrefl 100)

/-- What comes out of a first pass that found nothing wrong, with `symbols` bound before it and
the addresses from `next` on left. -/
structure Places (next : Nat) (symbols : Symbols) (program : List Statement)
    (first : FirstPass) : Prop where
  symbols : (first.symbols.map fun x => (x.1, x.2.val)) =
    (symbols.map fun x => (x.1, x.2.val)) ++ labelsFrom next program
  statements : first.placed.map (·.statement) = program
  addresses : (first.placed.map fun p => p.address.val) = List.range' next program.length

/-- **What a first pass that finds nothing wrong makes of the lines.** -/
theorem places_ofLines : ∀ (ls : List (Nat × List Char)) (next : Nat) (symbols : Symbols),
    (∀ x ∈ ls, ∃ line, Line.parse x.1 x.2 = .ok line) →
      Fits enabled next symbols.names (statementsOn ls) →
        Places next symbols (statementsOn ls) (ofLines enabled next symbols ls)
  | [], next, symbols, _, _ => by
    constructor <;> simp [ofLines, statementsOn, labelsFrom]
  | x :: ls, next, symbols, hread, hfits => by
    rw [List.forall_mem_cons] at hread
    obtain ⟨⟨line, hp⟩, hread⟩ := hread
    rw [statementsOn_cons, statementOn_of_parse hp] at hfits ⊢
    cases hs : line.statement with
    | none =>
      rw [hs] at hfits
      rw [ofLines_cons_of_blank hp hs]
      exact places_ofLines ls next symbols hread hfits
    | some s =>
      rw [hs] at hfits
      change Fits enabled next symbols.names (s :: statementsOn ls) at hfits
      change Places next symbols (s :: statementsOn ls) _
      obtain ⟨hfitsAt, hrest⟩ := fits_cons_iff.mp hfits
      obtain ⟨p, rfl, rfl, heq⟩ :=
        ofLines_cons_of_statement enabled symbols ls hp hs hfitsAt.room
      rw [← names_of_bind enabled hfitsAt.fresh] at hrest
      have ih := places_ofLines ls _ _ hread hrest
      rw [heq]
      refine ⟨?_, ?_, ?_⟩
      · rw [ih.symbols, bind_of_fresh enabled hfitsAt.fresh, labelsFrom_cons]
        simp
      · rw [List.map_cons, ih.statements]
      · rw [List.map_cons, ih.addresses, List.length_cons, List.range'_succ]

end FirstPass

end Source
end MinionComputer
