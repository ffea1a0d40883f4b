/-
# Layout and spelling do not matter

A text can be edited in many ways that change no statement: comments and empty lines come and go,
gaps become wider or narrower, lines are indented or ended in another way, and instruction words are
spelled in capitals or by their second names.  All of these shift line numbers and move the places
where a line is cut, but none shows in the outline of the text.  So after any number of them, done
or undone, the text is assembled to the memory that it was assembled to before, or still to none.

* `LineEdit`, `Edit`: the edits inside a line, and those of a whole text;
* `LineEdit.outline_eq`, `Edit.outline_eq`: none of them shows in the outline;
* `ofSource_of_edits`: any number of them, in any order and either direction.
-/
import Mathlib.Logic.Relation
import MinionComputer.Proofs.Source.Outline
import MinionComputer.Proofs.Source.Spelling

namespace MinionComputer
namespace Source

variable {enabled : Bool} {source source' l r x y line gap mark text : List Char}

/-! ## 1. Edits -/

/-- Blanks, and at least one. -/
structure IsGap (gap : List Char) : Prop where
  ne_nil : gap ≠ []
  isBlank : ∀ c ∈ gap, Text.isBlank c = true

/-- No line ends in the text. -/
def InLine (cs : List Char) : Prop := ∀ c ∈ cs, Text.isLineEnd c = false

instance (cs : List Char) : Decidable (InLine cs) :=
  List.decidableBAll (fun c => Text.isLineEnd c = false) cs

/-- The line holds nothing but blanks and a comment. -/
def IsIdle (line : List Char) : Prop := ∀ c ∈ (splitComment line).1, Text.isBlank c = true

/-- One end of a line: any character that ends lines, or a carriage return with its line feed. -/
inductive LineBreak : List Char → Prop
  | single {c : Char} (h : Text.isLineEnd c = true) : LineBreak [c]
  | pair : LineBreak ['\r', '\n']

/-- What may be done inside a line. -/
inductive LineEdit : List Char → List Char → Prop
  /-- A gap in front of the comment becomes another. -/
  | respaced {l gap gap' r : List Char}
      (hcode : l ++ gap <+: (splitComment (l ++ (gap ++ r))).1) (hgap : IsGap gap)
      (hgap' : IsGap gap') : LineEdit (l ++ (gap ++ r)) (l ++ (gap' ++ r))
  /-- An instruction word in front of the comment, where `after` is the code behind it, gets
  another spelling. -/
  | respelled {l w w' r after : List Char} {m : Mnemonic}
      (hcode : (splitComment (l ++ (w ++ r))).1 = l ++ (w ++ after))
      (hl : Text.Opens Text.isBlank l) (hafter : Text.Closes Text.isBlank after)
      (hw : Mnemonic.ofWord? w = some m) (hw' : Mnemonic.ofWord? w' = some m) :
      LineEdit (l ++ (w ++ r)) (l ++ (w' ++ r))

/-- What may be done to a text. -/
inductive Edit : List Char → List Char → Prop
  /-- One of its lines is edited, and stays one line. -/
  | line {before line line' after : List Char} (hbefore : Text.Opens Text.isLineEnd before)
      (hafter : Text.Closes Text.isLineEnd after) (hline : InLine line) (hline' : InLine line')
      (h : LineEdit line line') : Edit (before ++ (line ++ after)) (before ++ (line' ++ after))
  /-- Blanks are put in front of a line. -/
  | indented {before gap after : List Char} (hbefore : Text.Opens Text.isLineEnd before)
      (hgap : ∀ c ∈ gap, Text.isBlank c = true) : Edit (before ++ after) (before ++ (gap ++ after))
  /-- A gap and a comment are put behind a line. -/
  | commented {before gap mark text after : List Char} (hgap : IsGap gap)
      (hmark : mark ∈ commentMarks) (htext : InLine text)
      (hafter : Text.Closes Text.isLineEnd after) :
      Edit (before ++ after) (before ++ (gap ++ (mark ++ text)) ++ after)
  /-- A blank or comment line is put in front of a line. -/
  | lineInserted {before line lineBreak after : List Char}
      (hbefore : Text.Opens Text.isLineEnd before) (hline : InLine line) (hidle : IsIdle line)
      (hbreak : LineBreak lineBreak) :
      Edit (before ++ after) (before ++ (line ++ (lineBreak ++ after)))
  /-- A blank or comment line is put behind the last line. -/
  | lineAppended {before lineBreak line : List Char} (hline : InLine line) (hidle : IsIdle line)
      (hbreak : LineBreak lineBreak) : Edit before (before ++ (lineBreak ++ line))
  /-- A line is ended in another way. -/
  | lineEnded {before lineBreak lineBreak' after : List Char} (hbreak : LineBreak lineBreak)
      (hbreak' : LineBreak lineBreak') :
      Edit (before ++ (lineBreak ++ after)) (before ++ (lineBreak' ++ after))

/-! ## 2. The outline of an edited line -/

/-- A gap is no part of a mark. -/
theorem IsGap.isPlain (h : IsGap gap) : ∀ c ∈ gap, IsPlain c :=
  fun c hc => isPlain_of_isBlank (h.isBlank c hc)

theorem head?_ne_of_isPlain (hx : ∀ c ∈ x, IsPlain c) (hne : x ≠ []) (r : List Char) :
    (x ++ r).head? ≠ some '/' := by
  obtain ⟨c, rest, rfl⟩ := List.exists_cons_of_ne_nil hne
  intro hslash
  cases hslash
  exact (hx '/' List.mem_cons_self).2.2 rfl

/-- **Whatever stands between two parts of the code, the line is cut where it was**, as long as it
is something and holds no mark. -/
theorem code_between (hl : l <+: (splitComment (l ++ y)).1) (hx : ∀ c ∈ x, IsPlain c)
    (hne : x ≠ []) (r : List Char) :
    (splitComment (l ++ (x ++ r))).1 = l ++ (x ++ (splitComment r).1) := by
  have hhead := head?_ne_of_isPlain hx hne r
  rw [splitComment_append hl fun hslash => absurd hslash hhead, splitComment_append_of_plain r hx]

/-- A comment ends the code. -/
theorem code_mark (hmark : mark ∈ commentMarks) (text : List Char) :
    (splitComment (mark ++ text)).1 = [] := by
  simp only [commentMarks, List.mem_cons, List.not_mem_nil, or_false] at hmark
  rcases hmark with rfl | rfl | rfl <;> rfl

/-- What is put behind a line, and starts with no slash, is code there or part of its comment. -/
theorem code_append {r : List Char} (hr : r.head? ≠ some '/') (l : List Char) :
    (splitComment (l ++ r)).1 = (splitComment l).1 ∨
      (splitComment (l ++ r)).1 = (splitComment l).1 ++ (splitComment r).1 := by
  have hcut := cut_splitComment l
  generalize splitComment l = x at hcut
  obtain ⟨code, comment⟩ := x
  cases hcut with
  | plain h =>
    have hcode : splitComment (code ++ []) = (code, none) := by
      rw [List.append_nil]
      exact cut_iff.mp (.plain h)
    have hprefix : code <+: (splitComment (code ++ [])).1 := hcode ▸ List.prefix_rfl
    refine .inr ?_
    rw [splitComment_append hprefix fun hslash => absurd hslash hr]
  | @comment _ mark rest hmark hraw h =>
    have hcode : splitComment (code ++ (mark ++ rest)) = (code, some (Text.trim rest)) :=
      cut_iff.mp (.comment hmark rfl (hraw ▸ h))
    have hprefix : code <+: (splitComment (code ++ (mark ++ rest))).1 := hcode ▸ List.prefix_rfl
    obtain ⟨d, mark', rfl⟩ : ∃ d mark', mark = d :: mark' :=
      List.exists_cons_of_ne_nil fun hnil => by simp [hnil, commentMarks] at hmark
    refine .inl ?_
    have hsplit : splitComment (code ++ (d :: mark' ++ (rest ++ r))) =
        (code ++ (splitComment (d :: mark' ++ (rest ++ r))).1, _) :=
      splitComment_append hprefix id
    rw [hraw, List.append_assoc, List.append_assoc, hsplit, code_mark hmark, List.append_nil]

namespace Line

theorem outline_of_words_eq {raw raw' : List Char}
    (h : Text.words (splitComment raw).1 = Text.words (splitComment raw').1) :
    outline raw = outline raw' := by
  unfold outline content
  rw [h]

/-- A blank or comment line has no outline. -/
theorem outline_idle (h : IsIdle line) : outline line = [] := by
  unfold outline content
  rw [Text.words_blanks h]
  rfl

theorem outline_blank_cons {c : Char} (hc : Text.isBlank c = true) (line : List Char) :
    outline (c :: line) = outline line := by
  have hplain : ∀ d ∈ [c], IsPlain d := List.forall_mem_singleton.mpr (isPlain_of_isBlank hc)
  have hblank : ∀ d ∈ [c], Text.isBlank d = true := List.forall_mem_singleton.mpr hc
  have hcode := splitComment_append_of_plain line hplain
  refine outline_of_words_eq ?_
  rw [← List.singleton_append, hcode, Text.words_blanks_append _ hblank]

/-- Blanks and a comment behind a line do not show. -/
theorem outline_append_idle (hr : r.head? ≠ some '/') (hidle : IsIdle r) (l : List Char) :
    outline (l ++ r) = outline l := by
  refine outline_of_words_eq ?_
  rcases code_append hr l with hcode | hcode
  · rw [hcode]
  · by_cases hnil : (splitComment r).1 = []
    · rw [hcode, hnil, List.append_nil]
    · have hwords := Text.words_respaced hnil hidle (splitComment l).1 []
      rw [List.append_nil] at hwords
      rw [hcode, hwords]
      exact List.append_nil _

end Line

/-- Only the instruction word of a statement can be read as one. -/
theorem Statement.Spells.eq_of_ofWord? {s : Statement} {v w : List Char} {m : Mnemonic}
    {before after : List (List Char)} (h : s.Spells v (before ++ w :: after))
    (hw : Mnemonic.ofWord? w = some m) :
    before = s.label.toList ∧ w = v ∧ after = s.operand.toList := by
  obtain ⟨label, m', operand⟩ := s
  -- the operand is none, so behind the instruction word there is no other
  have hbehind : ∀ before : List (List Char), before ++ w :: after = v :: operand.toList →
      before = [] ∧ w = v ∧ after = operand.toList := by
    intro before heq
    cases before with
    | nil =>
      obtain ⟨rfl, rfl⟩ := List.cons.inj heq
      exact ⟨rfl, rfl, rfl⟩
    | cons x before =>
      obtain ⟨-, hrest⟩ := List.cons.inj heq
      have hmem : w ∈ operand.toList := hrest ▸ List.mem_append_right before List.mem_cons_self
      have hnone := h.operand w (Option.mem_toList.mp hmem)
      rw [hw] at hnone
      cases hnone
  cases label with
  | none => exact hbehind before h.words
  | some l =>
    cases before with
    | nil =>
      obtain ⟨rfl, -⟩ := List.cons.inj h.words
      have hnone := (h.label w rfl).2
      rw [hw] at hnone
      cases hnone
    | cons x before =>
      obtain ⟨rfl, hrest⟩ := List.cons.inj h.words
      obtain ⟨rfl, hv, hafter⟩ := hbehind before hrest
      exact ⟨rfl, hv, hafter⟩

/-- **Instruction words are read alike in all their spellings.** -/
theorem Reads.respelled {w w' : List Char} {m : Mnemonic} {before after : List (List Char)}
    {o : Option Statement} (hw : Mnemonic.ofWord? w = some m) (hw' : Mnemonic.ofWord? w' = some m)
    (h : Reads (before ++ w :: after) o) : Reads (before ++ w' :: after) o := by
  generalize hws : before ++ w :: after = ws at h
  cases h with
  | blank => simp at hws
  | @statement _ v s hspells =>
    obtain ⟨rfl, rfl, rfl⟩ := (hws ▸ hspells).eq_of_ofWord? hw
    have hmnemonic : Mnemonic.ofWord? w' = some s.mnemonic := by
      rw [hw', ← hw, hspells.mnemonic]
    exact .statement ⟨rfl, hspells.label, hmnemonic, hspells.operand, hspells.fits⟩

/-- The words around one that stands by itself. -/
theorem words_around {w after : List Char} (hl : Text.Opens Text.isBlank l)
    (hafter : Text.Closes Text.isBlank after) (hw : PlainWord w) :
    Text.words (l ++ (w ++ after)) = Text.words l ++ w :: Text.words after := by
  rw [Text.append_of_opens rfl (fun _ => Text.words_append) hl,
    Text.append_of_closes rfl (fun _ => Text.words_append) hafter,
    Text.words_eq_singleton hw.isBlank hw.ne_nil]
  rfl

/-- **No edit of a line shows in its outline.** -/
theorem LineEdit.outline_eq {line line' : List Char} (h : LineEdit line line') :
    Line.outline line = Line.outline line' := by
  cases h with
  | @respaced l gap gap' r hcode hgap hgap' =>
    have hl := (List.prefix_append l gap).trans hcode
    refine Line.outline_of_words_eq ?_
    rw [code_between hl hgap.isPlain hgap.ne_nil, code_between hl hgap'.isPlain hgap'.ne_nil,
      Text.words_respaced hgap.ne_nil hgap.isBlank, Text.words_respaced hgap'.ne_nil hgap'.isBlank]
  | @respelled l w w' r after m hcode hl hafter hw hw' =>
    have hplain := plainWord_of_ofWord? hw
    have hplain' := plainWord_of_ofWord? hw'
    have hprefix : l <+: (splitComment (l ++ (w ++ r))).1 := hcode ▸ List.prefix_append l _
    have hafter' : (splitComment r).1 = after := by
      rw [code_between hprefix hplain.plain hplain.ne_nil] at hcode
      exact List.append_cancel_left (List.append_cancel_left hcode)
    have hcode' := code_between hprefix hplain'.plain hplain'.ne_nil r
    refine Line.outline_congr fun o => ?_
    rw [hcode, hcode', hafter', words_around hl hafter hplain, words_around hl hafter hplain']
    exact ⟨Reads.respelled hw hw', Reads.respelled hw' hw⟩

/-! ## 3. The outline of an edited text -/

theorem outline_append_of_opens (hl : Text.Opens Text.isLineEnd l) (r : List Char) :
    outline (l ++ r) = outline l ++ outline r :=
  Text.append_of_opens outline_nil (fun _ => outline_append_cons) hl

theorem outline_append_of_closes (hr : Text.Closes Text.isLineEnd r) (l : List Char) :
    outline (l ++ r) = outline l ++ outline r :=
  Text.append_of_closes outline_nil (fun _ => outline_append_cons) hr

/-- Every end of a line is as good as another. -/
theorem outline_lineBreak {lineBreak : List Char} (h : LineBreak lineBreak) (l r : List Char) :
    outline (l ++ (lineBreak ++ r)) = outline l ++ outline r := by
  cases h with
  | single hc => exact outline_append_cons hc l r
  | pair =>
    have hfeed : outline ('\n' :: r) = outline [] ++ outline r := outline_append_cons rfl [] r
    change outline (l ++ '\r' :: ('\n' :: r)) = _
    rw [outline_append_cons rfl, hfeed, outline_nil, List.nil_append]

/-- Blanks in front of a text do not show, be they line ends or not. -/
theorem outline_blanks_append : ∀ {gap : List Char}, (∀ c ∈ gap, Text.isBlank c = true) →
    ∀ r : List Char, outline (gap ++ r) = outline r
  | [], _, _ => rfl
  | c :: gap, h, r => by
    obtain ⟨hc, hgap⟩ := List.forall_mem_cons.mp h
    rw [← outline_blanks_append hgap r, List.cons_append]
    generalize gap ++ r = r
    rw [outline_eq_flatMap_pieces, outline_eq_flatMap_pieces, Text.pieces]
    split
    · rw [List.flatMap_cons, Line.outline_nil, List.nil_append]
    · cases hr : Text.pieces Text.isLineEnd r with
      | nil => exact absurd hr (Text.pieces_ne_nil _ r)
      | cons w ws => simp only [List.flatMap_cons, Line.outline_blank_cons hc]

/-- A text is what stands in front of its last line, and that line. -/
theorem exists_lastLine : ∀ cs : List Char, ∃ before line, cs = before ++ line ∧
    Text.Opens Text.isLineEnd before ∧ InLine line
  | [] => ⟨[], [], rfl, by simp [Text.Opens], by simp [InLine]⟩
  | c :: cs => by
    obtain ⟨before, line, rfl, hbefore, hline⟩ := exists_lastLine cs
    cases before with
    | cons d before =>
      refine ⟨c :: d :: before, line, rfl, ?_, hline⟩
      rw [Text.Opens, List.getLast?_cons_cons]
      exact hbefore
    | nil =>
      cases hc : Text.isLineEnd c with
      | true => exact ⟨[c], line, rfl, by simpa [Text.Opens] using hc, hline⟩
      | false => exact ⟨[], c :: line, rfl, hbefore, List.forall_mem_cons.mpr ⟨hc, hline⟩⟩

/-- Blanks and a comment behind the last line do not show. -/
theorem outline_append_idle {r : List Char} (hr : r.head? ≠ some '/') (hin : InLine r)
    (hidle : IsIdle r) (l : List Char) : outline (l ++ r) = outline l := by
  obtain ⟨before, line, rfl, hbefore, hline⟩ := exists_lastLine l
  have hboth : InLine (line ++ r) := List.forall_mem_append.mpr ⟨hline, hin⟩
  rw [List.append_assoc, outline_append_of_opens hbefore, outline_append_of_opens hbefore,
    outline_line hboth, outline_line hline, Line.outline_append_idle hr hidle]

/-- A blank, and an empty or comment line behind it, do not show behind a text.  The blank ends the
line before it, or keeps the mark of the comment apart from a slash. -/
theorem outline_append_blank_idle {c : Char} {r : List Char} (hc : Text.isBlank c = true)
    (hin : InLine r) (hidle : IsIdle r) (l : List Char) : outline (l ++ c :: r) = outline l := by
  cases hend : Text.isLineEnd c with
  | true =>
    rw [outline_append_cons hend, outline_line hin, Line.outline_idle hidle, List.append_nil]
  | false =>
    have hplain : ∀ d ∈ [c], IsPlain d := List.forall_mem_singleton.mpr (isPlain_of_isBlank hc)
    have hhead := head?_ne_of_isPlain hplain (List.cons_ne_nil c []) r
    refine outline_append_idle hhead (List.forall_mem_cons.mpr ⟨hend, hin⟩) ?_ l
    rw [IsIdle, splitComment_append_of_plain r hplain]
    exact List.forall_mem_cons.mpr ⟨hc, hidle⟩

/-- Blanks behind a text do not show, be they line ends or not. -/
theorem outline_append_blanks : ∀ {gap : List Char}, (∀ c ∈ gap, Text.isBlank c = true) →
    ∀ l : List Char, outline (l ++ gap) = outline l
  | [], _, l => by rw [List.append_nil]
  | c :: gap, h, l => by
    obtain ⟨hc, hgap⟩ := List.forall_mem_cons.mp h
    have hlast : outline (l ++ [c]) = outline l :=
      outline_append_blank_idle hc (by simp [InLine]) (by simp [IsIdle, splitComment]) l
    rw [List.append_cons, outline_append_blanks hgap, hlast]

/-- A gap and a comment behind the last line do not show, even if lines end in the gap. -/
theorem outline_append_comment (hgap : IsGap gap) (hmark : mark ∈ commentMarks)
    (htext : InLine text) (l : List Char) : outline (l ++ (gap ++ (mark ++ text))) = outline l := by
  have hmark' : InLine mark := by
    simp only [commentMarks, List.mem_cons, List.not_mem_nil, or_false] at hmark
    rcases hmark with rfl | rfl | rfl <;> decide
  have hin : InLine (mark ++ text) := List.forall_mem_append.mpr ⟨hmark', htext⟩
  have hidle : IsIdle (mark ++ text) := by
    rw [IsIdle, code_mark hmark]
    simp
  obtain ⟨blanks, c, rfl⟩ : ∃ blanks c, gap = blanks ++ [c] :=
    ⟨_, _, (List.dropLast_append_getLast hgap.ne_nil).symm⟩
  obtain ⟨hblanks, hc⟩ := List.forall_mem_append.mp hgap.isBlank
  rw [List.forall_mem_singleton] at hc
  rw [← outline_append_blanks hblanks l, List.append_assoc, ← List.append_assoc]
  exact outline_append_blank_idle hc hin hidle (l ++ blanks)

/-- **No edit of a text shows in its outline.** -/
theorem Edit.outline_eq (h : Edit source source') : outline source = outline source' := by
  cases h with
  | line hbefore hafter hline hline' h =>
    rw [outline_append_of_opens hbefore, outline_append_of_opens hbefore,
      outline_append_of_closes hafter, outline_append_of_closes hafter, outline_line hline,
      outline_line hline', h.outline_eq]
  | indented hbefore hgap =>
    rw [outline_append_of_opens hbefore, outline_append_of_opens hbefore,
      outline_blanks_append hgap]
  | commented hgap hmark htext hafter =>
    rw [outline_append_of_closes hafter, outline_append_of_closes hafter,
      outline_append_comment hgap hmark htext]
  | lineInserted hbefore hline hidle hbreak =>
    rw [outline_append_of_opens hbefore, outline_append_of_opens hbefore,
      outline_lineBreak hbreak, outline_line hline, Line.outline_idle hidle, List.nil_append]
  | lineAppended hline hidle hbreak =>
    rw [outline_lineBreak hbreak, outline_line hline, Line.outline_idle hidle, List.append_nil]
  | lineEnded hbreak hbreak' => rw [outline_lineBreak hbreak, outline_lineBreak hbreak']

/-! ## 4. Any number of edits -/

theorem outline_eq_of_edits (h : Relation.EqvGen Edit source source') :
    outline source = outline source' := by
  induction h with
  | rel _ _ h => exact h.outline_eq
  | refl _ => rfl
  | symm _ _ _ ih => exact ih.symm
  | trans _ _ _ _ _ ih ih' => exact ih.trans ih'

/-- **Layout and spelling do not matter.**  After any number of edits, done or undone, a text is
assembled to the same memory with the same symbols, or not assembled if it was not before. -/
theorem ofSource_of_edits (enabled : Bool) (h : Relation.EqvGen Edit source source') :
    (∀ m, (Assembly.ofSource enabled source).result = .ok m ↔
      (Assembly.ofSource enabled source').result = .ok m) ∧
      ∀ m, (Assembly.ofSource enabled source).result = .ok m →
        (Assembly.ofSource enabled source').symbols =
          (Assembly.ofSource enabled source).symbols := by
  have houtline := outline_eq_of_edits h
  refine ⟨fun m => ⟨fun hm => ?_, fun hm => ?_⟩, fun m hm => ?_⟩
  · exact (ofSource_congr houtline hm).1
  · exact (ofSource_congr houtline.symm hm).1
  · exact (ofSource_congr houtline hm).2

/-- An instruction word is spelled in capitals by its other name, its line is indented and gets a
comment of slashes, and is then ended in another way. -/
theorem storeTwice_of_edits :
    Relation.EqvGen Edit "x sta x\nbr x".toList "\t x STO x /// /\r\nbr x".toList ∧
      ∀ m, (Assembly.ofSource false "x sta x\nbr x".toList).result = .ok m ↔
        (Assembly.ofSource false "\t x STO x /// /\r\nbr x".toList).result = .ok m := by
  have hspelling : Edit "x sta x\nbr x".toList "x STO x\nbr x".toList :=
    @Edit.line [] "x sta x".toList "x STO x".toList "\nbr x".toList (by decide)
      (by decide) (by decide) (by decide)
      (@LineEdit.respelled "x ".toList "sta".toList "STO".toList " x".toList " x".toList .sto rfl
        (by decide) (by decide) rfl rfl)
  have hindent : Edit "x STO x\nbr x".toList "\t x STO x\nbr x".toList :=
    @Edit.indented [] "\t ".toList "x STO x\nbr x".toList (by decide) (List.all_eq_true.mp rfl)
  have hcomment : Edit "\t x STO x\nbr x".toList "\t x STO x /// /\nbr x".toList :=
    @Edit.commented "\t x STO x".toList " ".toList "//".toList "/ /".toList "\nbr x".toList
      ⟨by decide, List.all_eq_true.mp rfl⟩ (by decide) (by decide) (by decide)
  have hend : Edit "\t x STO x /// /\nbr x".toList "\t x STO x /// /\r\nbr x".toList :=
    @Edit.lineEnded "\t x STO x /// /".toList "\n".toList "\r\n".toList "br x".toList
      (.single rfl) .pair
  have hedits : Relation.EqvGen Edit "x sta x\nbr x".toList "\t x STO x /// /\r\nbr x".toList :=
    .trans _ _ _ (.rel _ _ hspelling) (.trans _ _ _ (.rel _ _ hindent)
      (.trans _ _ _ (.rel _ _ hcomment) (.rel _ _ hend)))
  exact ⟨hedits, (ofSource_of_edits false hedits).1⟩

end Source
end MinionComputer
