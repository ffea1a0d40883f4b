/-
# Labels follow their statements

The lines of a text can be put in another order, and data words of zero put between them, as long as
there is room.  Every statement takes its cell with it to its new address.  A cell that was made
without a label stays what it was, and one that was made from a label now points to where the
labelled statement went.  It does not matter whether a label stood before or behind the statement
that uses it, and it need not stand there still.  The mark of extended mode is left out, since it
may not be moved.

* `Rearranges`: the lines of one text, among data words of zero, in another;
* `Moves`: the same of their statements;
* `Relocates`: what becomes of the cell of a statement;
* `ofSource_of_rearranges`: the rearranged text is assembled, and to what.
-/
import MinionComputer.Proofs.Source.Outline

namespace MinionComputer
namespace Source

variable {enabled : Bool} {source source' line : List Char} {σ : Nat → Nat}
  {program program' : List Statement} {symbols symbols' : Symbols} {m m' : Memory}
  {s t : Statement}

/-! ## 1. Lines and where they go -/

/-- The lines of a text that hold more than blanks and a comment. -/
def codeLines (source : List Char) : List (List Char) :=
  (Text.lines source).filter fun line => !(Text.words (splitComment line).1).isEmpty

/-- The statement `DAT 0`. -/
def zeroData : Statement := { mnemonic := .dat, operand := some ['0'] }

/-- The line says `DAT 0` and has no label. -/
def IsZeroData (line : List Char) : Prop := Line.content line = .ok (some zeroData)

/-- The line at index `i` goes to index `σ i`, different lines go to different places, and all other
lines that are there then say `DAT 0`. -/
structure Rearranges (σ : Nat → Nat) (ls ls' : List (List Char)) : Prop where
  moved : ∀ (i : Nat) (line : List Char), ls[i]? = some line → ls'[σ i]? = some line
  apart : ∀ i < ls.length, ∀ j < ls.length, σ i = σ j → i = j
  others : ∀ (k : Nat) (line : List Char), ls'[k]? = some line → (∀ i < ls.length, σ i ≠ k) →
    IsZeroData line

/-- The same of statements. -/
structure Moves (σ : Nat → Nat) (program program' : List Statement) : Prop where
  moved : ∀ (i : Nat) (s : Statement), program[i]? = some s → program'[σ i]? = some s
  apart : ∀ i < program.length, ∀ j < program.length, σ i = σ j → i = j
  others : ∀ (k : Nat) (s : Statement), program'[k]? = some s →
    (∀ i < program.length, σ i ≠ k) → s = zeroData

/-- What becomes of the cell of a statement of the program: without an operand, or with a number,
it stays; with a label, it was the base of the instruction word and the index of the labelled
statement, and becomes the base and the new index. -/
inductive Relocates (σ : Nat → Nat) (program : List Statement) (s : Statement) :
    Cell → Cell → Prop
  | bare (h : s.operand = none) (c : Cell) : Relocates σ program s c c
  | number {w : List Char} (ho : s.operand = some w) (hw : Text.isSignedNumeral w = true)
      (c : Cell) : Relocates σ program s c c
  | label {w : List Char} {j : Nat} {t : Statement} {c c' : Cell} (ho : s.operand = some w)
      (ht : program[j]? = some t) (hl : t.label = some w)
      (hc : Cell.toInt c = Cell.toInt s.mnemonic.base + j)
      (hc' : Cell.toInt c' = Cell.toInt s.mnemonic.base + σ j) : Relocates σ program s c c'

/-! ## 2. Lines and their statements -/

theorem mem_codeLines_iff : line ∈ codeLines source ↔
    line ∈ Text.lines source ∧ Text.words (splitComment line).1 ≠ [] := by
  simp [codeLines]

/-- A line without code has no outline. -/
theorem Line.outline_of_words_eq_nil (h : Text.words (splitComment line).1 = []) :
    Line.outline line = [] := by
  unfold Line.outline Line.content
  rw [h]
  rfl

theorem outline_eq_flatMap_codeLines (source : List Char) :
    outline source = (codeLines source).flatMap Line.outline := by
  unfold outline codeLines
  induction Text.lines source with
  | nil => rfl
  | cons line ls ih =>
    rw [List.flatMap_cons, ih, List.filter_cons]
    split
    · rw [List.flatMap_cons]
    · next h =>
      rw [Line.outline_of_words_eq_nil (by simpa using h), List.nil_append]

/-- A line with code that is read holds a statement. -/
theorem exists_content_eq_some (hne : Text.words (splitComment line).1 ≠ [])
    (hread : none ∉ Line.outline line) : ∃ s, Line.content line = .ok (some s) := by
  obtain ⟨o, ho⟩ := Line.exists_content_iff.mpr hread
  cases o with
  | some s => exact ⟨s, ho⟩
  | none =>
    have hreads := Line.content_eq_ok_iff.mp ho
    generalize Text.words (splitComment line).1 = ws at hne hreads
    cases hreads
    exact absurd rfl hne

/-- **The lines with code hold the statements of the text, one each and in order.** -/
theorem content_codeLines (hread : none ∉ outline source) :
    (codeLines source).map Line.content = (statements source).map fun s => .ok (some s) := by
  have hcode : ∀ line ∈ codeLines source, Text.words (splitComment line).1 ≠ [] := fun line h =>
    (mem_codeLines_iff.mp h).2
  rw [statements_eq_reduceOption]
  rw [outline_eq_flatMap_codeLines] at hread ⊢
  generalize codeLines source = ls at hread hcode ⊢
  induction ls with
  | nil => rfl
  | cons line ls ih =>
    rw [List.flatMap_cons, List.mem_append, not_or] at hread
    rw [List.forall_mem_cons] at hcode
    obtain ⟨s, hs⟩ := exists_content_eq_some hcode.1 hread.1
    rw [List.map_cons, List.flatMap_cons, hs, Line.outline_of_content hs, ih hread.2 hcode.2]
    rfl

theorem getElem?_statements_iff (hread : none ∉ outline source) {i : Nat} :
    (statements source)[i]? = some s ↔
      ∃ line, (codeLines source)[i]? = some line ∧ Line.content line = .ok (some s) := by
  have hmap := congrArg (fun l => l[i]?) (content_codeLines hread)
  simp only [List.getElem?_map] at hmap
  constructor
  · intro hs
    rw [hs] at hmap
    exact Option.map_eq_some_iff.mp hmap
  · rintro ⟨line, hline, hs⟩
    rw [hline, Option.map_some, hs] at hmap
    obtain ⟨s', hs', heq⟩ := Option.map_eq_some_iff.mp hmap.symm
    cases heq
    exact hs'

theorem length_codeLines (hread : none ∉ outline source) :
    (codeLines source).length = (statements source).length := by
  have hmap := congrArg List.length (content_codeLines hread)
  rwa [List.length_map, List.length_map] at hmap

/-- A text is read if every line with code of it holds a statement. -/
theorem read_of_codeLines (h : ∀ line ∈ codeLines source, ∃ s, Line.content line = .ok (some s)) :
    none ∉ outline source := by
  rw [outline_eq_flatMap_codeLines, List.mem_flatMap]
  rintro ⟨line, hline, hnone⟩
  obtain ⟨s, hs⟩ := h line hline
  exact Line.exists_content_iff.mp ⟨_, hs⟩ hnone

/-- **A rearranged text is read, and its statements have moved with their lines.** -/
theorem moves_of_rearranges (hread : none ∉ outline source)
    (h : Rearranges σ (codeLines source) (codeLines source')) :
    none ∉ outline source' ∧ Moves σ (statements source) (statements source') := by
  have hread' : none ∉ outline source' := by
    refine read_of_codeLines fun line hline => ?_
    obtain ⟨k, hk⟩ := List.getElem?_of_mem hline
    by_cases hnew : ∀ i < (codeLines source).length, σ i ≠ k
    · exact ⟨_, h.others k line hk hnew⟩
    · push Not at hnew
      obtain ⟨i, hi, rfl⟩ := hnew
      have hold := List.getElem?_eq_getElem hi
      obtain rfl : (codeLines source)[i] = line :=
        Option.some.inj ((h.moved i _ hold).symm.trans hk)
      rw [length_codeLines hread] at hi
      obtain ⟨line, hline, hs⟩ :=
        (getElem?_statements_iff hread).mp (List.getElem?_eq_getElem hi)
      rw [hold] at hline
      cases hline
      exact ⟨_, hs⟩
  refine ⟨hread', ⟨fun i s hs => ?_, ?_, fun k s hs hnew => ?_⟩⟩
  · obtain ⟨line, hline, hs⟩ := (getElem?_statements_iff hread).mp hs
    exact (getElem?_statements_iff hread').mpr ⟨line, h.moved i line hline, hs⟩
  · rw [← length_codeLines hread]
    exact h.apart
  · obtain ⟨line, hline, hs⟩ := (getElem?_statements_iff hread').mp hs
    rw [← length_codeLines hread] at hnew
    have hzero : Line.content line = .ok (some zeroData) := h.others k line hline hnew
    rw [hs] at hzero
    cases hzero
    rfl

/-! ## 3. Programs that moved -/

/-- No two statements have the same label exactly when a label tells the index of its statement. -/
theorem nodup_labels_iff : (labels program).Nodup ↔ ∀ (i j : Nat) (s t : Statement) (l : List Char),
    program[i]? = some s → program[j]? = some t → s.label = some l → t.label = some l → i = j := by
  unfold labels
  rw [List.Nodup, List.pairwise_filterMap, List.pairwise_iff_getElem]
  constructor
  · intro h i j s t l hs ht hl hl'
    obtain ⟨hi, rfl⟩ := List.getElem?_eq_some_iff.mp hs
    obtain ⟨hj, rfl⟩ := List.getElem?_eq_some_iff.mp ht
    rcases Nat.lt_trichotomy i j with hlt | heq | hgt
    · exact absurd rfl (h i j hi hj hlt l hl l hl')
    · exact heq
    · exact absurd rfl (h j i hj hi hgt l hl' l hl)
  · rintro h i j hi hj hlt l hl l' hl' rfl
    exact absurd (h i j _ _ l (List.getElem?_eq_getElem hi) (List.getElem?_eq_getElem hj) hl hl')
      (Nat.ne_of_lt hlt)

namespace Moves

/-- A statement that is there then was there before, or is a data word of zero. -/
theorem cases (h : Moves σ program program') {k : Nat} (hs : program'[k]? = some s) :
    (∃ i, program[i]? = some s ∧ σ i = k) ∨ s = zeroData := by
  by_cases hnew : ∀ i < program.length, σ i ≠ k
  · exact .inr (h.others k s hs hnew)
  · push Not at hnew
    obtain ⟨i, hi, rfl⟩ := hnew
    have hold := List.getElem?_eq_getElem hi
    have hmoved := h.moved i _ hold
    rw [hs] at hmoved
    cases hmoved
    exact .inl ⟨i, hold, rfl⟩

theorem mem_or_eq (h : Moves σ program program') (hs : s ∈ program') :
    s ∈ program ∨ s = zeroData := by
  obtain ⟨k, hk⟩ := List.getElem?_of_mem hs
  rcases h.cases hk with ⟨i, hi, -⟩ | hzero
  · exact .inl (List.mem_of_getElem? hi)
  · exact .inr hzero

/-- A label is still at one statement only. -/
theorem distinct (h : Moves σ program program') (hdistinct : (labels program).Nodup) :
    (labels program').Nodup := by
  rw [nodup_labels_iff] at hdistinct ⊢
  intro k k' s t l hs ht hl hl'
  rcases h.cases hs with ⟨i, hi, rfl⟩ | rfl
  · rcases h.cases ht with ⟨j, hj, rfl⟩ | rfl
    · rw [hdistinct i j s t l hi hj hl hl']
    · cases hl'
  · cases hl

/-- **The statements fit wherever they go**, if there is room and none is the mark of extended
mode. -/
theorem fits (h : Moves σ program program') (hfits : Fits enabled 0 [] program)
    (hmark : ∀ s ∈ program, s.mnemonic ≠ .ext) (hsize : program'.length ≤ 100) :
    Fits enabled 0 [] program' := by
  refine ⟨by omega, h.distinct hfits.distinct, by simp, fun k s hs hm => ?_, fun hoff s hs => ?_⟩
  · rcases h.mem_or_eq (List.mem_of_getElem? hs) with hold | rfl
    · exact absurd hm (hmark s hold)
    · cases hm
  · rcases h.mem_or_eq hs with hold | rfl
    · exact hfits.permitted hoff s hold
    · decide

/-- **A label is bound to the new address of its statement.** -/
theorem address? (h : Moves σ program program') (hbinds : Binds symbols program)
    (hbinds' : Binds symbols' program') (hsize : program'.length ≤ 100) {l : List Char}
    {a : Address} (ha : symbols.address? l = some a) :
    ∃ a' : Address, a'.val = σ a.val ∧ symbols'.address? l = some a' := by
  obtain ⟨t, ht, hl⟩ := (address?_iff_of_binds hbinds).mp ha
  have ht' := h.moved a.val t ht
  have hlt : σ a.val < 100 := Nat.lt_of_lt_of_le (List.getElem?_eq_some_iff.mp ht').1 hsize
  exact ⟨⟨σ a.val, hlt⟩, rfl, (address?_iff_of_binds hbinds').mpr ⟨t, ht', hl⟩⟩

/-- An address may follow every instruction word. -/
theorem exists_cellOf_address (k : Mnemonic) (a : Address) :
    ∃ c, cellOf k (Address.toInt a) = .ok c := by
  refine exists_cellOf_iff.mpr ⟨?_, ?_⟩
  · unfold Address.toInt
    omega
  · unfold Address.toInt
    split <;> omega

/-- **Every statement that moved has a cell, and it is the relocated one.** -/
theorem exists_cell (h : Moves σ program program') (hbinds : Binds symbols program)
    (hbinds' : Binds symbols' program') (hsize : program'.length ≤ 100) (hs : s ∈ program)
    {c : Cell} (hcell : s.cell symbols = .ok c) :
    ∃ c', s.cell symbols' = .ok c' ∧ Relocates σ program s c c' := by
  cases ho : s.operand with
  | none =>
    refine ⟨c, ?_, .bare ho c⟩
    unfold Statement.cell at hcell ⊢
    rw [ho] at hcell ⊢
    exact hcell
  | some w =>
    have hform : s.mnemonic.form ≠ .none := by
      intro hnone
      rw [(hbinds.wellFormed s hs).operand.2 hnone] at ho
      cases ho
    have hcell' : s.cell symbols' = (operandValue symbols' w).bind (cellOf s.mnemonic) := by
      unfold Statement.cell
      rw [ho]
    obtain ⟨v, hv, hc⟩ := exists_operandValue hcell ho
    rcases operandValue_cases hv with hnumeral | ⟨hlabel, a, ha, rfl⟩
    · refine ⟨c, ?_, .number ho hnumeral c⟩
      rw [hcell', operandValue_of_isSignedNumeral hnumeral symbols' symbols]
      exact Outcome.bind_eq_ok_iff.mpr ⟨v, hv, hc⟩
    · obtain ⟨a', ha', hnew⟩ := h.address? hbinds hbinds' hsize ha
      obtain ⟨t, ht, hl⟩ := (address?_iff_of_binds hbinds).mp ha
      obtain ⟨c', hc'⟩ := exists_cellOf_address s.mnemonic a'
      refine ⟨c', ?_, .label ho ht hl (toInt_of_cellOf hform hc) ?_⟩
      · rw [hcell']
        exact Outcome.bind_eq_ok_iff.mpr ⟨_, operandValue_of_isLabel hlabel hnew, hc'⟩
      · rw [toInt_of_cellOf hform hc', Address.toInt, ha']

end Moves

/-! ## 4. Rearranged texts -/

theorem cell_zeroData (symbols : Symbols) : zeroData.cell symbols = .ok 0 := rfl

/-- **Labels follow their statements.**  When the lines of a text that is assembled are rearranged,
with lines that say `DAT 0` put between them and no more than a hundred statements in all, the text
is assembled again.  Each statement is at its new address with its cell relocated, each label is
bound to the new address of its statement, and everywhere else the memory is zero. -/
theorem ofSource_of_rearranges (hm : (Assembly.ofSource enabled source).result = .ok m)
    (hmark : ∀ s ∈ statements source, s.mnemonic ≠ .ext)
    (h : Rearranges σ (codeLines source) (codeLines source'))
    (hsize : (codeLines source').length ≤ 100) :
    ∃ m', (Assembly.ofSource enabled source').result = .ok m' ∧
      (∀ (i : Nat) (s : Statement), (statements source)[i]? = some s →
        (statements source')[σ i]? = some s ∧ ∃ a a' : Address, a.val = i ∧ a'.val = σ i ∧
          Relocates σ (statements source) s (m.read a) (m'.read a')) ∧
      (∀ (l : List Char) (a : Address),
        (Assembly.ofSource enabled source).symbols.address? l = some a →
          ∃ a' : Address, a'.val = σ a.val ∧
            (Assembly.ofSource enabled source').symbols.address? l = some a') ∧
      ∀ a' : Address, (∀ i < (statements source).length, σ i ≠ a'.val) → m'.read a' = 0 := by
  obtain ⟨hread, hloads⟩ := loads_of_ok hm
  obtain ⟨hread', hmoves⟩ := moves_of_rearranges hread h
  rw [length_codeLines hread'] at hsize
  have hfits := hmoves.fits hloads.fits hmark hsize
  have hbinds := binds_of_fits hread hloads.fits
  have hbinds' := binds_of_fits hread' hfits
  obtain ⟨m', hm'⟩ := exists_ok_of_cells hread' hfits fun s hs => by
    rcases hmoves.mem_or_eq hs with hold | rfl
    · obtain ⟨i, hi⟩ := List.getElem?_of_mem hold
      obtain ⟨a, -, hcell⟩ := hloads.cells i s hi
      obtain ⟨c', hcell', -⟩ := hmoves.exists_cell hbinds hbinds' hsize hold hcell
      exact ⟨c', hcell'⟩
    · exact ⟨0, cell_zeroData _⟩
  obtain ⟨-, hloads'⟩ := loads_of_ok hm'
  refine ⟨m', hm', fun i s hs => ?_, fun l a ha => ?_, fun a' hnew => ?_⟩
  · have hmoved := hmoves.moved i s hs
    obtain ⟨a, ha, hcell⟩ := hloads.cells i s hs
    obtain ⟨a', ha', hcell'⟩ := hloads'.cells (σ i) s hmoved
    obtain ⟨c', hc', hrelocates⟩ :=
      hmoves.exists_cell hbinds hbinds' hsize (List.mem_of_getElem? hs) hcell
    rw [hcell'] at hc'
    cases hc'
    exact ⟨hmoved, a, a', ha, ha', hrelocates⟩
  · exact hmoves.address? hbinds hbinds' hsize ha
  · by_cases hlt : a'.val < (statements source').length
    · have hs := List.getElem?_eq_getElem hlt
      have hzero := hmoves.others a'.val _ hs hnew
      obtain ⟨b, hb, hcell⟩ := hloads'.cells a'.val _ hs
      obtain rfl : b = a' := Fin.ext hb
      rw [hzero, cell_zeroData] at hcell
      exact (Except.ok.inj hcell).symm
    · exact hloads'.rest a' (Nat.le_of_not_lt hlt)

/-- A jump back becomes one forward, a use of data before its definition one behind it, and there is
a data word more between them. -/
theorem loop_rearranged :
    (∃ m, (Assembly.ofSource true "loop lda x\n br loop # back\nx dat 5".toList).result = .ok m) ∧
      Rearranges (fun i => [3, 0, 1].getD i 0)
        (codeLines "loop lda x\n br loop # back\nx dat 5".toList)
        (codeLines " br loop # back\nx dat 5\n\nDAT 0\nloop lda x".toList) ∧
      ∃ m', (Assembly.ofSource true
        " br loop # back\nx dat 5\n\nDAT 0\nloop lda x".toList).result = .ok m' := by
  have hm : (Assembly.ofSource true "loop lda x\n br loop # back\nx dat 5".toList).result =
      .ok _ := rfl
  have hstatements : statements "loop lda x\n br loop # back\nx dat 5".toList =
      [⟨some "loop".toList, .lda, some ['x']⟩, ⟨none, .br, some "loop".toList⟩,
        ⟨some ['x'], .dat, some ['5']⟩] := rfl
  have hlines : codeLines "loop lda x\n br loop # back\nx dat 5".toList =
      ["loop lda x".toList, " br loop # back".toList, "x dat 5".toList] := rfl
  have hlines' : codeLines " br loop # back\nx dat 5\n\nDAT 0\nloop lda x".toList =
      [" br loop # back".toList, "x dat 5".toList, "DAT 0".toList, "loop lda x".toList] := rfl
  have hrearranges : Rearranges (fun i => [3, 0, 1].getD i 0)
      (codeLines "loop lda x\n br loop # back\nx dat 5".toList)
      (codeLines " br loop # back\nx dat 5\n\nDAT 0\nloop lda x".toList) := by
    rw [hlines, hlines']
    refine ⟨fun i line hline => ?_, by decide, fun k line hline hnew => ?_⟩
    · rcases i with _ | _ | _ | i <;> cases hline <;> rfl
    · rcases k with _ | _ | _ | _ | k
      · exact absurd rfl (hnew 1 (by decide))
      · exact absurd rfl (hnew 2 (by decide))
      · cases hline
        rfl
      · exact absurd rfl (hnew 0 (by decide))
      · cases hline
  obtain ⟨m', hm', -⟩ := ofSource_of_rearranges hm (by rw [hstatements]; decide) hrearranges
    (by rw [hlines']; decide)
  exact ⟨⟨_, hm⟩, hrearranges, m', hm'⟩

end Source
end MinionComputer
