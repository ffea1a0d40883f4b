/-
# The outline of a text

A text is assembled from its statements alone.  Its outline is these statements in their order and,
between them, a gap for each line that cannot be read; line numbers, comments, blanks and empty
lines are no part of it.  Two texts of one outline are assembled to the same memory with the same
symbols, or neither is assembled, so what does not show in the outline does not matter.

* `Line.content`, `outline`: what a line and a text come to without their numbers and comments;
* `outline_append_cons`: the outline of a text that is cut at a line end;
* `Loads`: a program and the memory it is assembled to;
* `loads_of_ok`, `ok_of_loads`: which texts are assembled to a memory;
* `ofSource_congr`: texts of one outline.
-/
import Mathlib.Data.List.ReduceOption
import MinionComputer.Proofs.Source.Assembly
import MinionComputer.Proofs.Source.Grammar
import MinionComputer.Proofs.Text.Numbered
import MinionComputer.Proofs.Text.Pieces

namespace MinionComputer
namespace Source

variable {enabled : Bool} {source source' raw : List Char} {s : Statement}

/-! ## 1. Lines -/

namespace Line

/-- What the words in front of the comment make up. -/
def content (raw : List Char) : Except Cause (Option Statement) :=
  Statement.ofWords (Text.words (splitComment raw).1)

/-- The outline of a line: its statement, nothing if it has none, and a gap if it is wrong. -/
def outline (raw : List Char) : List (Option Statement) :=
  match content raw with
  | .ok none => []
  | .ok (some s) => [some s]
  | .error _ => [none]

@[simp] theorem outline_nil : outline [] = [] := rfl

theorem content_eq_ok_iff {o : Option Statement} :
    content raw = .ok o ↔ Reads (Text.words (splitComment raw).1) o :=
  Statement.ofWords_eq_ok_iff

theorem parse_of_content {o : Option Statement} (h : content raw = .ok o) (number : Int) :
    parse number raw = .ok ⟨o, (splitComment raw).2, number, raw⟩ := by
  unfold content at h
  simp only [parse, h]

theorem parse_of_content_error {c : Cause} (h : content raw = .error c) (number : Int) :
    parse number raw = .error ⟨c, number, Text.trim raw⟩ := by
  unfold content at h
  simp only [parse, h]

/-- A line is read exactly when its content is. -/
theorem exists_parse_iff {number : Int} :
    (∃ line, parse number raw = .ok line) ↔ ∃ o, content raw = .ok o := by
  unfold content
  cases hwords : Statement.ofWords (Text.words (splitComment raw).1) <;> simp [parse, hwords]

/-- A line with a statement holds the words that spell it. -/
theorem exists_spells (h : content raw = .ok (some s)) :
    ∃ w, s.Spells w (Text.words (splitComment raw).1) := by
  have hreads := content_eq_ok_iff.mp h
  generalize Text.words (splitComment raw).1 = ws at hreads
  cases hreads with
  | statement hspells => exact ⟨_, hspells⟩

/-- The outline of a line that is read is its statement, if it has one. -/
theorem outline_of_content {o : Option Statement} (h : content raw = .ok o) :
    outline raw = o.toList.map some := by
  unfold outline
  rw [h]
  cases o <;> rfl

/-- There is no gap in the outline of a line that is read. -/
theorem exists_content_iff : (∃ o, content raw = .ok o) ↔ none ∉ outline raw := by
  unfold outline
  split <;> simp_all

/-- Lines have one outline if their words can be read in the same ways. -/
theorem outline_congr {raw' : List Char}
    (h : ∀ o, Reads (Text.words (splitComment raw).1) o ↔
      Reads (Text.words (splitComment raw').1) o) :
    outline raw = outline raw' := by
  have hcontent : ∀ o, content raw = .ok o ↔ content raw' = .ok o := by
    intro o
    rw [content_eq_ok_iff, content_eq_ok_iff, h]
  unfold outline
  cases hr : content raw with
  | ok o => rw [(hcontent o).mp hr]
  | error c =>
    cases hr' : content raw' with
    | ok o =>
      rw [(hcontent o).mpr hr'] at hr
      cases hr
    | error c' => rfl

end Line

theorem statementOn_of_content {x : Nat × List Char} {o : Option Statement}
    (h : Line.content x.2 = .ok o) : statementOn x = o :=
  statementOn_of_parse (Line.parse_of_content h x.1)

theorem statementOn_of_content_error {x : Nat × List Char} {c : Cause}
    (h : Line.content x.2 = .error c) : statementOn x = none := by
  unfold statementOn
  rw [Line.parse_of_content_error h]
  rfl

theorem statementOn_eq_some_iff {x : Nat × List Char} :
    statementOn x = some s ↔ Line.content x.2 = .ok (some s) := by
  cases h : Line.content x.2 with
  | ok o => simp [statementOn_of_content h]
  | error c => simp [statementOn_of_content_error h]

theorem toList_statementOn (x : Nat × List Char) :
    (statementOn x).toList = (Line.outline x.2).reduceOption := by
  unfold Line.outline
  cases h : Line.content x.2 with
  | ok o =>
    rw [statementOn_of_content h]
    cases o <;> rfl
  | error c =>
    rw [statementOn_of_content_error h]
    rfl

/-! ## 2. Texts -/

/-- The outline of a text: its statements in their order, and a gap for each wrong line. -/
def outline (source : List Char) : List (Option Statement) :=
  (Text.lines source).flatMap Line.outline

/-- Empty lines have no outline, so a text may be cut at every line end by itself. -/
theorem outline_eq_flatMap_pieces (source : List Char) :
    outline source = (Text.pieces Text.isLineEnd source).flatMap Line.outline :=
  Text.flatMap_lines Line.outline_nil source

/-- **On both sides of a line end the outline is that of each side alone.** -/
theorem outline_append_cons {c : Char} (hc : Text.isLineEnd c = true) (l r : List Char) :
    outline (l ++ c :: r) = outline l ++ outline r := by
  simp only [outline_eq_flatMap_pieces, Text.pieces_append hc, List.flatMap_append]

/-- The outline of a text without line ends is that of its one line. -/
theorem outline_line (h : ∀ c ∈ raw, Text.isLineEnd c = false) :
    outline raw = Line.outline raw := by
  rw [outline_eq_flatMap_pieces, Text.pieces_eq_singleton h, List.flatMap_singleton]

@[simp] theorem outline_nil : outline [] = [] := rfl

theorem reduceOption_flatMap {α β : Type} (f : α → List (Option β)) (l : List α) :
    (l.flatMap f).reduceOption = l.flatMap fun x => (f x).reduceOption := by
  induction l with
  | nil => rfl
  | cons x l ih => rw [List.flatMap_cons, List.reduceOption_append, ih, List.flatMap_cons]

/-- **The statements of a text are those of its outline.** -/
theorem statements_eq_reduceOption (source : List Char) :
    statements source = (outline source).reduceOption := by
  have hlines : (numberedLines source).map (·.2) = Text.lines source :=
    Text.map_snd_numbered _
  rw [outline, ← hlines, List.flatMap_map, reduceOption_flatMap, statements, statementsOn]
  induction numberedLines source with
  | nil => rfl
  | cons x ls ih =>
    rw [List.flatMap_cons, ← ih, ← toList_statementOn, List.filterMap_cons]
    cases statementOn x <;> rfl

theorem mem_statements_iff : s ∈ statements source ↔ some s ∈ outline source := by
  rw [statements_eq_reduceOption, List.reduceOption_mem_iff]

/-- **Every line of a text is read exactly when there is no gap in its outline.** -/
theorem read_iff : (∀ x ∈ numberedLines source, ∃ line, Line.parse x.1 x.2 = .ok line) ↔
    none ∉ outline source := by
  have hlines : (numberedLines source).map (·.2) = Text.lines source :=
    Text.map_snd_numbered _
  simp only [outline, ← hlines, List.mem_flatMap, List.mem_map, Line.exists_parse_iff,
    Line.exists_content_iff]
  grind

/-! ## 3. A program and its memory -/

/-- The cell of a statement, wherever it stands. -/
def Statement.cell (symbols : Symbols) (s : Statement) : Except ValueFault Cell :=
  match s.operand with
  | none => .ok s.mnemonic.base
  | some w => (operandValue symbols w).bind (cellOf s.mnemonic)

/-- An operand that has a value is a number, or a label that is bound. -/
theorem operandValue_cases {symbols : Symbols} {w : List Char} {v : Int}
    (h : operandValue symbols w = .ok v) :
    Text.isSignedNumeral w = true ∨
      isLabel w = true ∧ ∃ a, symbols.address? w = some a ∧ v = Address.toInt a := by
  unfold operandValue at h
  split at h
  · next hnumeral => exact .inl hnumeral
  · split at h
    · cases h
    · next hlabel =>
      refine .inr ⟨by simpa using hlabel, ?_⟩
      split at h
      · next a ha =>
        cases h
        exact ⟨a, ha, rfl⟩
      · cases h

/-- A label has the value it is bound to. -/
theorem operandValue_of_isLabel {symbols : Symbols} {w : List Char} {a : Address}
    (h : isLabel w = true) (ha : symbols.address? w = some a) :
    operandValue symbols w = .ok (Address.toInt a) := by
  unfold operandValue
  rw [if_neg (by simp [not_isSignedNumeral_of_isLabel h]), if_neg (by simp [h]), ha]

/-- What a number stands for has nothing to do with the symbols. -/
theorem operandValue_of_isSignedNumeral {w : List Char} (h : Text.isSignedNumeral w = true)
    (symbols symbols' : Symbols) : operandValue symbols w = operandValue symbols' w := by
  unfold operandValue
  rw [if_pos h, if_pos h]

/-- A statement with a cell has a value as its operand, if it has one. -/
theorem exists_operandValue {symbols : Symbols} {c : Cell} {w : List Char}
    (hcell : s.cell symbols = .ok c) (ho : s.operand = some w) :
    ∃ v, operandValue symbols w = .ok v ∧ cellOf s.mnemonic v = .ok c := by
  unfold Statement.cell at hcell
  rw [ho] at hcell
  exact Outcome.bind_eq_ok_iff.mp hcell

/-- The program is assembled to the memory, with the symbols. -/
structure Loads (enabled : Bool) (program : List Statement) (symbols : Symbols) (m : Memory) :
    Prop where
  fits : Fits enabled 0 [] program
  table : (symbols.map fun x => (x.1, x.2.val)) = labelTable program
  /-- Each statement lies at its own index as its cell. -/
  cells : ∀ (i : Nat) (s : Statement), program[i]? = some s →
    ∃ a : Address, a.val = i ∧ s.cell symbols = .ok (m.read a)
  /-- The memory is zero behind the last one. -/
  rest : ∀ a : Address, program.length ≤ a.val → m.read a = 0

/-- The labels with the indices of their statements determine the symbols. -/
theorem symbols_unique {symbols symbols' : Symbols}
    (h : (symbols.map fun x => (x.1, x.2.val)) = symbols'.map fun x => (x.1, x.2.val)) :
    symbols = symbols' := by
  have hinjective : Function.Injective fun x : List Char × Address => (x.1, x.2.val) := by
    intro x y hxy
    obtain ⟨hname, haddress⟩ := Prod.mk.inj hxy
    exact Prod.ext hname (Fin.ext haddress)
  exact List.map_injective_iff.mpr hinjective h

/-- A first pass over statements that fit finds nothing wrong. -/
theorem firstPass_of_fits (hread : none ∉ outline source)
    (hfits : Fits enabled 0 [] (statements source)) : (firstPass enabled source).problems = [] :=
  (FirstPass.problems_ofLines_eq_nil_iff _ 0 [] (Nat.zero_le 100)).mpr
    ⟨read_iff.mpr hread, hfits⟩

/-- ...and binds the labels to the indices of their statements. -/
theorem binds_of_fits (hread : none ∉ outline source)
    (hfits : Fits enabled 0 [] (statements source)) :
    Binds (Assembly.ofSource enabled source).symbols (statements source) :=
  (handsOver_firstPass (firstPass_of_fits hread hfits)).binds

/-- The second pass puts each statement at its own index. -/
theorem cells_of_handsOver {first : FirstPass} {program : List Statement}
    (h : HandsOver program first) {m : Memory}
    (hsecond : secondPass first.symbols first.placed = .ok m) :
    (∀ (i : Nat) (s : Statement), program[i]? = some s →
      ∃ a : Address, a.val = i ∧ s.cell first.symbols = .ok (m.read a)) ∧
      ∀ a : Address, program.length ≤ a.val → m.read a = 0 := by
  obtain ⟨hcells, rfl⟩ := secondPass_eq_ok_iff.mp hsecond
  constructor
  · intro i s hs
    have hi : i < 100 := Nat.lt_of_lt_of_le (List.getElem?_eq_some_iff.mp hs).1 h.size
    rw [← h.statements, List.getElem?_map, Option.map_eq_some_iff] at hs
    obtain ⟨p, hp, rfl⟩ := hs
    obtain ⟨c, hc⟩ := hcells p (List.mem_of_getElem? hp)
    refine ⟨⟨i, hi⟩, rfl, ?_⟩
    rw [Memory.read_ofList, getD_secondCells hp hc]
    exact hc
  · intro a ha
    have hlength : (secondCells first.symbols first.placed).length = program.length := by
      rw [secondCells, List.length_map, ← h.statements, List.length_map]
    rw [Memory.read_ofList, List.getD_eq_getElem?_getD, List.getElem?_eq_none (hlength ▸ ha)]
    rfl

/-- **A text that is assembled loads its program.** -/
theorem loads_of_ok {m : Memory} (h : (Assembly.ofSource enabled source).result = .ok m) :
    none ∉ outline source ∧
      Loads enabled (statements source) (Assembly.ofSource enabled source).symbols m := by
  obtain ⟨hnone, hsecond⟩ := ofSource_ok_iff.mp h
  obtain ⟨hread, hfits⟩ :=
    (FirstPass.problems_ofLines_eq_nil_iff _ 0 [] (Nat.zero_le 100)).mp hnone
  have hands := handsOver_firstPass hnone
  obtain ⟨hcells, hrest⟩ := cells_of_handsOver hands hsecond
  exact ⟨read_iff.mp hread, hfits, hands.binds.table, hcells, hrest⟩

/-- A text whose statements fit is assembled if each of them has a cell. -/
theorem exists_ok_of_cells (hread : none ∉ outline source)
    (hfits : Fits enabled 0 [] (statements source))
    (hcells : ∀ s ∈ statements source, ∃ c,
      s.cell (Assembly.ofSource enabled source).symbols = .ok c) :
    ∃ m, (Assembly.ofSource enabled source).result = .ok m := by
  have hnone := firstPass_of_fits hread hfits
  have hands := handsOver_firstPass hnone
  refine ⟨_, ofSource_ok_iff.mpr ⟨hnone, secondPass_eq_ok_iff.mpr ⟨fun p hp => ?_, rfl⟩⟩⟩
  refine hcells p.statement ?_
  rw [← hands.statements]
  exact List.mem_map.mpr ⟨p, hp, rfl⟩

/-- Once the symbols are known, a program is assembled to one memory. -/
theorem Loads.memory_unique {program : List Statement} {symbols : Symbols} {m m' : Memory}
    (h : Loads enabled program symbols m) (h' : Loads enabled program symbols m') : m = m' := by
  refine Memory.ext_read fun a => ?_
  by_cases ha : a.val < program.length
  · have hs := List.getElem?_eq_getElem ha
    obtain ⟨b, hb, hcell⟩ := h.cells _ _ hs
    obtain ⟨b', hb', hcell'⟩ := h'.cells _ _ hs
    obtain rfl : b = a := Fin.ext hb
    obtain rfl : b' = b := Fin.ext hb'
    exact Except.ok.inj (hcell.symm.trans hcell')
  · rw [h.rest a (Nat.le_of_not_lt ha), h'.rest a (Nat.le_of_not_lt ha)]

/-- **A text is assembled to whatever its program loads.** -/
theorem ok_of_loads {symbols : Symbols} {m : Memory} (hread : none ∉ outline source)
    (h : Loads enabled (statements source) symbols m) :
    (Assembly.ofSource enabled source).result = .ok m ∧
      (Assembly.ofSource enabled source).symbols = symbols := by
  have hands := handsOver_firstPass (firstPass_of_fits hread h.fits)
  have hsymbols : (Assembly.ofSource enabled source).symbols = symbols :=
    symbols_unique (hands.binds.table.trans h.table.symm)
  subst hsymbols
  refine ⟨?_, rfl⟩
  obtain ⟨m', hm'⟩ := exists_ok_of_cells hread h.fits fun s hs => by
    obtain ⟨i, hi⟩ := List.getElem?_of_mem hs
    obtain ⟨a, -, hcell⟩ := h.cells i s hi
    exact ⟨_, hcell⟩
  rw [hm', h.memory_unique (loads_of_ok hm').2]

/-! ## 4. Texts of one outline -/

/-- **What does not show in the outline does not matter.**  Two texts of one outline are assembled
to the same memories, with the same symbols. -/
theorem ofSource_congr (h : outline source = outline source') {m : Memory}
    (hm : (Assembly.ofSource enabled source).result = .ok m) :
    (Assembly.ofSource enabled source').result = .ok m ∧
      (Assembly.ofSource enabled source').symbols = (Assembly.ofSource enabled source).symbols := by
  have hprogram : statements source = statements source' := by
    rw [statements_eq_reduceOption, h, statements_eq_reduceOption]
  obtain ⟨hread, hloads⟩ := loads_of_ok hm
  exact ok_of_loads (h ▸ hread) (hprogram ▸ hloads)

end Source
end MinionComputer
