/-
# Label names do not matter

The labels of a text can be given other names, in front of their statements and in every operand.
As long as different labels get different names, and none gets the name of an instruction, each line
is read as the same statement with the new names in it, and each operand stands for the same index
as before.  So the text is assembled to the same memory, and the new names are bound to the old
addresses.

* `Renaming`: new names for the labels of a text;
* `renameLabels`: the text with these names;
* `statements_renameLabels`: its statements;
* `ofSource_renameLabels`: what it is assembled to.
-/
import Mathlib.Data.List.Nodup
import MinionComputer.Proofs.Source.Outline
import MinionComputer.Proofs.Source.Spelling

namespace MinionComputer
namespace Source

variable {enabled : Bool} {source raw w : List Char} {r g : List Char → List Char}
  {program : List Statement} {symbols : Symbols} {m : Memory} {s : Statement}

/-! ## 1. New names -/

/-- New names for labels: different labels get different names, all of them are labels by their
letters, and none is an instruction word. -/
structure Renaming (r : List Char → List Char) (old : List (List Char)) : Prop where
  injective : ∀ l ∈ old, ∀ l' ∈ old, r l = r l' → l = l'
  isLabel : ∀ l ∈ old, isLabel (r l) = true
  ofWord? : ∀ l ∈ old, Mnemonic.ofWord? (r l) = none

/-- A word, or its new name if it is one of the labels. -/
def renameWord (r : List Char → List Char) (old : List (List Char)) (w : List Char) : List Char :=
  if w ∈ old then r w else w

/-- The statement with other words as its label and its operand. -/
def Statement.rename (g : List Char → List Char) (s : Statement) : Statement :=
  { s with label := s.label.map g, operand := s.operand.map g }

/-- The line with the words in front of its comment replaced. -/
def renameLine (g : List Char → List Char) (raw : List Char) : List Char :=
  Text.mapPieces Text.isBlank g (splitComment raw).1 ++ raw.drop (splitComment raw).1.length

/-- The text with every word that is one of its labels replaced by the new name, except in
comments. -/
def renameLabels (r : List Char → List Char) (source : List Char) : List Char :=
  Text.mapPieces Text.isLineEnd (renameLine (renameWord r (labels (statements source)))) source

/-! ## 2. Words that are replaced -/

/-- What is known of the replacement of words in a program: labels become labels, different ones
different ones, and all else stays as it is. -/
structure Renames (g : List Char → List Char) (program : List Statement) : Prop where
  isLabel : ∀ l ∈ labels program, isLabel l = true ∧ isLabel (g l) = true
  ofWord? : ∀ l ∈ labels program, Mnemonic.ofWord? l = none ∧ Mnemonic.ofWord? (g l) = none
  injective : ∀ l ∈ labels program, ∀ l' ∈ labels program, g l = g l' → l = l'
  other : ∀ w, w ∉ labels program → g w = w

/-- A label of a text is a label by its letters, and no instruction word. -/
theorem of_mem_labels {l : List Char} (h : l ∈ labels (statements source)) :
    isLabel l = true ∧ Mnemonic.ofWord? l = none := by
  obtain ⟨s, hs, hl⟩ := List.mem_filterMap.mp h
  obtain ⟨x, -, hx⟩ := List.mem_filterMap.mp hs
  obtain ⟨w, hspells⟩ := Line.exists_spells (statementOn_eq_some_iff.mp hx)
  exact hspells.label l hl

theorem renames_of_renaming (h : Renaming r (labels (statements source))) :
    Renames (renameWord r (labels (statements source))) (statements source) := by
  have hlabel : ∀ l ∈ labels (statements source),
      renameWord r (labels (statements source)) l = r l := fun l hl => if_pos hl
  refine ⟨fun l hl => ?_, fun l hl => ?_, fun l hl l' hl' heq => ?_, fun w hw => if_neg hw⟩
  · exact ⟨(of_mem_labels hl).1, hlabel l hl ▸ h.isLabel l hl⟩
  · exact ⟨(of_mem_labels hl).2, hlabel l hl ▸ h.ofWord? l hl⟩
  · rw [hlabel l hl, hlabel l' hl'] at heq
    exact h.injective l hl l' hl' heq

/-- The words of a line that is read are plain, if its operand is. -/
theorem plain_of_content {o : Option Statement} (hcontent : Line.content raw = .ok o)
    (hoperand : ∀ s, o = some s → ∀ w, s.operand = some w → PlainWord w) :
    ∀ w ∈ Text.words (splitComment raw).1, PlainWord w := by
  have hreads := Line.content_eq_ok_iff.mp hcontent
  generalize Text.words (splitComment raw).1 = ws at hreads
  cases hreads with
  | blank => simp
  | @statement _ v s hspells =>
    rw [hspells.words]
    intro w hw
    rcases List.mem_append.mp hw with hw | hw
    · exact plainWord_of_isLabel (hspells.label w (Option.mem_toList.mp hw)).1
    · rcases List.mem_cons.mp hw with rfl | hw
      · exact plainWord_of_ofWord? hspells.mnemonic
      · exact hoperand s rfl w (Option.mem_toList.mp hw)

namespace Renames

/-- An instruction word is no label, and stays. -/
theorem of_ofWord? (h : Renames g program) {k : Mnemonic} (hw : Mnemonic.ofWord? w = some k) :
    g w = w := by
  refine h.other w fun hmem => ?_
  rw [(h.ofWord? w hmem).1] at hw
  cases hw

/-- A number is no label, and stays. -/
theorem of_isSignedNumeral (h : Renames g program) (hw : Text.isSignedNumeral w = true) :
    g w = w := by
  refine h.other w fun hmem => ?_
  rw [not_isSignedNumeral_of_isLabel (h.isLabel w hmem).1] at hw
  cases hw

theorem nil (h : Renames g program) : g [] = [] := by
  refine h.other [] fun hmem => ?_
  cases (h.isLabel [] hmem).1

/-- What replaces a plain word is one. -/
theorem plainWord (h : Renames g program) (hw : PlainWord w) : PlainWord (g w) := by
  by_cases hmem : w ∈ labels program
  · exact plainWord_of_isLabel (h.isLabel w hmem).2
  · rw [h.other w hmem]
    exact hw

theorem ofWord?_eq_none (h : Renames g program) (hw : Mnemonic.ofWord? w = none) :
    Mnemonic.ofWord? (g w) = none := by
  by_cases hmem : w ∈ labels program
  · exact (h.ofWord? w hmem).2
  · rw [h.other w hmem]
    exact hw

/-- **The words of a statement that are replaced are those of the statement with the new names.** -/
theorem spells (h : Renames g program) (hs : s ∈ program) {ws : List (List Char)}
    (hspells : s.Spells w ws) : (s.rename g).Spells w (ws.map g) := by
  refine ⟨?_, fun l' hl' => ?_, hspells.mnemonic, fun o' ho' => ?_, ?_⟩
  · rw [hspells.words, List.map_append, List.map_cons, h.of_ofWord? hspells.mnemonic]
    cases hl : s.label <;> cases ho : s.operand <;> simp [Statement.rename, hl, ho]
  · obtain ⟨l, hl, rfl⟩ := Option.map_eq_some_iff.mp hl'
    have hmem : l ∈ labels program := List.mem_filterMap.mpr ⟨s, hs, hl⟩
    exact ⟨(h.isLabel l hmem).2, (h.ofWord? l hmem).2⟩
  · obtain ⟨o, ho, rfl⟩ := Option.map_eq_some_iff.mp ho'
    exact h.ofWord?_eq_none (hspells.operand o ho)
  · obtain ⟨haddress, hnone⟩ := hspells.fits
    refine ⟨fun hform => ?_, fun hform => ?_⟩
    · simpa [Statement.rename] using haddress hform
    · simpa [Statement.rename] using hnone hform

/-! ## 3. Lines and texts with the new names -/

/-- The new code of a line is made of new words and of blanks that were there. -/
theorem mem_mapPieces_code (h : Renames g program)
    (hplain : ∀ w ∈ Text.words (splitComment raw).1, PlainWord w) {c : Char}
    (hc : c ∈ Text.mapPieces Text.isBlank g (splitComment raw).1) :
    (c ∈ raw ∧ Text.isBlank c = true) ∨ ∃ w, PlainWord w ∧ c ∈ w := by
  rcases Text.mem_mapPieces hc with ⟨hmem, hblank⟩ | ⟨v, hv, hc⟩
  · exact .inl ⟨(code_initial raw).subset hmem, hblank⟩
  · rcases Text.eq_nil_or_mem_words hv with rfl | hv
    · rw [h.nil] at hc
      cases hc
    · exact .inr ⟨g v, h.plainWord (hplain v hv), hc⟩

/-- The words in front of the comment are replaced where they stand. -/
theorem words_renameLine (h : Renames g program)
    (hplain : ∀ w ∈ Text.words (splitComment raw).1, PlainWord w) :
    Text.words (splitComment (renameLine g raw)).1 =
      (Text.words (splitComment raw).1).map g := by
  have hnew : ∀ c ∈ Text.mapPieces Text.isBlank g (splitComment raw).1, IsPlain c := by
    intro c hc
    rcases h.mem_mapPieces_code hplain hc with ⟨-, hblank⟩ | ⟨w, hw, hc⟩
    · exact isPlain_of_isBlank hblank
    · exact hw.plain c hc
  have hcode : (splitComment (renameLine g raw)).1 =
      Text.mapPieces Text.isBlank g (splitComment raw).1 := by
    rw [renameLine, splitComment_append_of_plain _ hnew, code_drop_code, List.append_nil]
  rw [hcode]
  refine Text.words_mapPieces h.nil fun w hw => ?_
  have hw' := h.plainWord (hplain w hw)
  exact ⟨hw'.ne_nil, hw'.isBlank⟩

/-- **A line with the new names is read as the statement with the new names.** -/
theorem content_renameLine (h : Renames g program) {o : Option Statement}
    (hcontent : Line.content raw = .ok o) (hmem : ∀ s, o = some s → s ∈ program)
    (hoperand : ∀ s, o = some s → ∀ w, s.operand = some w → PlainWord w) :
    Line.content (renameLine g raw) = .ok (o.map (Statement.rename g)) := by
  have hplain := plain_of_content hcontent hoperand
  rw [Line.content_eq_ok_iff, h.words_renameLine hplain]
  have hreads := Line.content_eq_ok_iff.mp hcontent
  generalize Text.words (splitComment raw).1 = ws at hreads
  cases hreads with
  | blank => exact .blank
  | @statement _ v s hspells => exact .statement (h.spells (hmem s rfl) hspells)

/-- A line with the new names is still one line. -/
theorem isLineEnd_of_mem_renameLine (h : Renames g program)
    (hplain : ∀ w ∈ Text.words (splitComment raw).1, PlainWord w)
    (hin : ∀ c ∈ raw, Text.isLineEnd c = false) :
    ∀ c ∈ renameLine g raw, Text.isLineEnd c = false := by
  intro c hc
  rcases List.mem_append.mp hc with hc | hc
  · rcases h.mem_mapPieces_code hplain hc with ⟨hmem, -⟩ | ⟨w, hw, hmem⟩
    · exact hin c hmem
    · rw [Bool.eq_false_iff]
      intro hend
      have hblank := Text.isBlank_of_isLineEnd hend
      rw [hw.isBlank c hmem] at hblank
      cases hblank
  · exact hin c (List.mem_of_mem_drop hc)

end Renames

/-- **The outline of a text with the new names is that of the text, with the new names.** -/
theorem outline_renameLabels (hr : Renaming r (labels (statements source)))
    (hread : none ∉ outline source)
    (hoperand : ∀ s ∈ statements source, ∀ w, s.operand = some w → PlainWord w) :
    outline (renameLabels r source) = (outline source).map
      (Option.map (Statement.rename (renameWord r (labels (statements source))))) := by
  have h := renames_of_renaming hr
  have hpieces := outline_eq_flatMap_pieces source
  -- what is known of each line: it is read, and its statement is one of the text
  have hlines : ∀ v ∈ Text.pieces Text.isLineEnd source, ∃ o, Line.content v = .ok o ∧
      ∀ s, o = some s → s ∈ statements source := by
    intro v hv
    have hnone : none ∉ Line.outline v := fun hmem =>
      hread (hpieces ▸ List.mem_flatMap.mpr ⟨v, hv, hmem⟩)
    obtain ⟨o, ho⟩ := Line.exists_content_iff.mpr hnone
    refine ⟨o, ho, ?_⟩
    rintro s rfl
    rw [mem_statements_iff, hpieces, List.mem_flatMap]
    refine ⟨v, hv, ?_⟩
    rw [Line.outline_of_content ho]
    exact List.mem_singleton_self _
  have hkept : ∀ v ∈ Text.pieces Text.isLineEnd source,
      ∀ c ∈ renameLine (renameWord r (labels (statements source))) v,
        Text.isLineEnd c = false := by
    intro v hv
    obtain ⟨o, ho, hmem⟩ := hlines v hv
    have hplain := plain_of_content ho fun s hs => hoperand s (hmem s hs)
    exact h.isLineEnd_of_mem_renameLine hplain (Text.not_cut_of_mem_pieces hv)
  rw [renameLabels, outline_eq_flatMap_pieces, Text.pieces_mapPieces hkept, hpieces,
    List.flatMap_map, List.map_flatMap]
  refine List.flatMap_congr fun v hv => ?_
  obtain ⟨o, ho, hmem⟩ := hlines v hv
  have hnew := h.content_renameLine ho hmem fun s hs => hoperand s (hmem s hs)
  rw [Line.outline_of_content hnew, Line.outline_of_content ho]
  cases o <;> rfl

theorem statements_renameLabels (hr : Renaming r (labels (statements source)))
    (hread : none ∉ outline source)
    (hoperand : ∀ s ∈ statements source, ∀ w, s.operand = some w → PlainWord w) :
    statements (renameLabels r source) = (statements source).map
      (Statement.rename (renameWord r (labels (statements source)))) := by
  rw [statements_eq_reduceOption, outline_renameLabels hr hread hoperand, List.reduceOption_map,
    statements_eq_reduceOption]

/-! ## 4. Programs with the new names -/

theorem labels_map_rename (g : List Char → List Char) (program : List Statement) :
    labels (program.map (Statement.rename g)) = (labels program).map g := by
  unfold labels
  rw [List.filterMap_map, List.map_filterMap]
  rfl

theorem labelTable_map_rename (g : List Char → List Char) (program : List Statement) :
    labelTable (program.map (Statement.rename g)) =
      (labelTable program).map fun x => (g x.1, x.2) := by
  unfold labelTable labelsFrom
  rw [List.zipIdx_map, List.filterMap_map, List.map_filterMap]
  refine List.filterMap_congr fun x _ => ?_
  simp [Statement.rename, Function.comp_def]

theorem Renames.nodup (h : Renames g program) (hdistinct : (labels program).Nodup) :
    (labels (program.map (Statement.rename g))).Nodup := by
  rw [labels_map_rename]
  exact List.Nodup.map_on h.injective hdistinct

/-- The new name of a label is bound to the address of the old one. -/
theorem Loads.address?_rename (h : Loads enabled program symbols m) (hg : Renames g program)
    {l : List Char} {a : Address} (ha : symbols.address? l = some a) :
    l ∈ labels program ∧
      Symbols.address? (symbols.map fun x => (g x.1, x.2)) (g l) = some a := by
  have hnames := map_fst_of_table h.table
  have hdistinct := h.fits.distinct
  rw [address?_eq_some_iff (hnames ▸ hdistinct)] at ha
  have hnew : ((symbols.map fun x => (g x.1, x.2)).map (·.1)).Nodup := by
    have hmap : (symbols.map fun x => (g x.1, x.2)).map (·.1) = (symbols.map (·.1)).map g := by
      rw [List.map_map, List.map_map]
      rfl
    rw [hmap, hnames, ← labels_map_rename]
    exact hg.nodup hdistinct
  rw [address?_eq_some_iff hnew, ← hnames]
  exact ⟨List.mem_map.mpr ⟨(l, a), ha, rfl⟩, List.mem_map.mpr ⟨(l, a), ha, rfl⟩⟩

/-- **A statement with the new names has the cell that it had.** -/
theorem Loads.cell_rename (h : Loads enabled program symbols m) (hg : Renames g program)
    {c : Cell} (hcell : s.cell symbols = .ok c) :
    (s.rename g).cell (symbols.map fun x => (g x.1, x.2)) = .ok c := by
  cases ho : s.operand with
  | none =>
    unfold Statement.cell at hcell ⊢
    rw [ho] at hcell
    simpa [Statement.rename, ho] using hcell
  | some w =>
    obtain ⟨v, hv, hc⟩ := exists_operandValue hcell ho
    have hvalue : operandValue (symbols.map fun x => (g x.1, x.2)) (g w) = .ok v := by
      rcases operandValue_cases hv with hnumeral | ⟨hlabel, a, ha, rfl⟩
      · rw [hg.of_isSignedNumeral hnumeral, ← hv]
        exact operandValue_of_isSignedNumeral hnumeral _ _
      · obtain ⟨hmem, hnew⟩ := h.address?_rename hg ha
        exact operandValue_of_isLabel (hg.isLabel w hmem).2 hnew
    unfold Statement.cell
    simp only [Statement.rename, ho, Option.map_some]
    exact Outcome.bind_eq_ok_iff.mpr ⟨v, hvalue, hc⟩

/-- **A program with the new names is assembled to the memory that it was assembled to.** -/
theorem Loads.rename (h : Loads enabled program symbols m) (hg : Renames g program) :
    Loads enabled (program.map (Statement.rename g)) (symbols.map fun x => (g x.1, x.2)) m := by
  refine ⟨⟨?_, hg.nodup h.fits.distinct, by simp, ?_, ?_⟩, ?_, ?_, ?_⟩
  · rw [List.length_map]
    exact h.fits.size
  · intro i t ht hm
    rw [List.getElem?_map, Option.map_eq_some_iff] at ht
    obtain ⟨s, hs, rfl⟩ := ht
    exact h.fits.mark i s hs hm
  · intro hoff t ht
    obtain ⟨s, hs, rfl⟩ := List.mem_map.mp ht
    exact h.fits.permitted hoff s hs
  · rw [labelTable_map_rename, ← h.table, List.map_map, List.map_map]
    rfl
  · intro i t ht
    rw [List.getElem?_map, Option.map_eq_some_iff] at ht
    obtain ⟨s, hs, rfl⟩ := ht
    obtain ⟨a, ha, hcell⟩ := h.cells i s hs
    exact ⟨a, ha, h.cell_rename hg hcell⟩
  · intro a ha
    rw [List.length_map] at ha
    exact h.rest a ha

/-! ## 5. Assembling with the new names -/

/-- The operand of a statement with a cell is plain. -/
theorem plainWord_of_operand {c : Cell} (hcell : s.cell symbols = .ok c)
    (ho : s.operand = some w) : PlainWord w := by
  obtain ⟨v, hv, -⟩ := exists_operandValue hcell ho
  rcases operandValue_cases hv with hnumeral | ⟨hlabel, -⟩
  · exact plainWord_of_isSignedNumeral hnumeral
  · exact plainWord_of_isLabel hlabel

/-- **Label names do not matter.**  When the labels of a text that is assembled are renamed, each
of its statements has the new names in the places of the old ones, it is assembled to the same
memory, and the new names are bound to the old addresses. -/
theorem ofSource_renameLabels (hm : (Assembly.ofSource enabled source).result = .ok m)
    (hr : Renaming r (labels (statements source))) :
    statements (renameLabels r source) = (statements source).map
        (Statement.rename (renameWord r (labels (statements source)))) ∧
      (Assembly.ofSource enabled (renameLabels r source)).result = .ok m ∧
      (Assembly.ofSource enabled (renameLabels r source)).symbols =
        (Assembly.ofSource enabled source).symbols.map fun x => (r x.1, x.2) := by
  have hg := renames_of_renaming hr
  obtain ⟨hread, hloads⟩ := loads_of_ok hm
  have hoperand : ∀ s ∈ statements source, ∀ w, s.operand = some w → PlainWord w := by
    intro s hs w ho
    obtain ⟨i, hi⟩ := List.getElem?_of_mem hs
    obtain ⟨a, -, hcell⟩ := hloads.cells i s hi
    exact plainWord_of_operand hcell ho
  have hstatements := statements_renameLabels hr hread hoperand
  have hread' : none ∉ outline (renameLabels r source) := by
    rw [outline_renameLabels hr hread hoperand]
    simpa using hread
  have hnames : ((Assembly.ofSource enabled source).symbols.map fun x =>
      (renameWord r (labels (statements source)) x.1, x.2)) =
        (Assembly.ofSource enabled source).symbols.map fun x => (r x.1, x.2) := by
    refine List.map_congr_left fun x hx => ?_
    have hmem : x.1 ∈ labels (statements source) :=
      map_fst_of_table hloads.table ▸ List.mem_map.mpr ⟨x, hx, rfl⟩
    rw [renameWord, if_pos hmem]
  obtain ⟨hresult, hsymbols⟩ := ok_of_loads hread' (hstatements ▸ hloads.rename hg)
  exact ⟨hstatements, hresult, hsymbols.trans hnames⟩

/-- Two labels change their names, one of which is used before it is defined; in the comment they
stay. -/
theorem swapped_renameLabels :
    (∃ m, (Assembly.ofSource false "a lda b;a\n br a\nb dat 7".toList).result = .ok m ∧
      (Assembly.ofSource false "b lda a;a\n br b\na dat 7".toList).result = .ok m) ∧
      Renaming (fun l => if l = ['a'] then ['b'] else ['a'])
        (labels (statements "a lda b;a\n br a\nb dat 7".toList)) ∧
      renameLabels (fun l => if l = ['a'] then ['b'] else ['a'])
        "a lda b;a\n br a\nb dat 7".toList = "b lda a;a\n br b\na dat 7".toList := by
  have hlabels : labels (statements "a lda b;a\n br a\nb dat 7".toList) = [['a'], ['b']] := rfl
  have hrenaming : Renaming (fun l => if l = ['a'] then ['b'] else ['a'])
      (labels (statements "a lda b;a\n br a\nb dat 7".toList)) := by
    rw [hlabels]
    exact ⟨by decide, by decide, by decide⟩
  have htext : renameLabels (fun l => if l = ['a'] then ['b'] else ['a'])
      "a lda b;a\n br a\nb dat 7".toList = "b lda a;a\n br b\na dat 7".toList := by
    decide +kernel
  have hm : (Assembly.ofSource false "a lda b;a\n br a\nb dat 7".toList).result = .ok _ := rfl
  have hnew := (ofSource_renameLabels hm hrenaming).2.1
  rw [htext] at hnew
  exact ⟨⟨_, hm, hnew⟩, hrenaming, htext⟩

end Source
end MinionComputer
