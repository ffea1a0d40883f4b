/-
# A file of test cases and its lines

A line that stands alone may hold any character but a line feed and a carriage return, and what it
gives and expects may be any codes of eight bits.  In a file it is otherwise: there a line also ends
at the other line ends of a text, six of which have codes of eight bits.  So a file is read line by
line when its lines hold none of these, and otherwise they are cut there before they are read.

* `ReadInOrder`: what lines come to, read one after another;
* `readInOrder_ofText`: a file and the lines that it is cut into;
* `ofText_joinWith`: a file that was put together from lines;
* `voidField_lost`: a line that is a case when it stands alone, and none in a file.
-/
import MinionComputer.Proofs.Text.Pieces
import MinionComputer.Proofs.Text.Trimming
import MinionComputer.Proofs.Trial.Reading

namespace MinionComputer
namespace Trial

/-! ## 1. Lines, one after another -/

/-- The line holds no case: it is blank, or `#` is the first character that is not. -/
def IsRemark (line : List Char) : Prop :=
  (∀ c ∈ line, Text.isBlank c = true) ∨
    ∃ before after, line = before ++ '#' :: after ∧ ∀ c ∈ before, Text.isBlank c = true

/-- What numbered lines come to, read one after another: their cases in order, or the fault of the
first that has one. -/
inductive ReadInOrder : List (Nat × List Char) → Except Fault (List Case) → Prop
  | done : ReadInOrder [] (.ok [])
  | remark {x : Nat × List Char} {rest : List (Nat × List Char)} {r : Except Fault (List Case)}
      (h : IsRemark x.2) (hrest : ReadInOrder rest r) : ReadInOrder (x :: rest) r
  | case {x : Nat × List Char} {rest : List (Nat × List Char)} {r : Except Fault (List Case)}
      {c : Case} (h : ¬ IsRemark x.2) (hc : Case.ofLine x.1 x.2 = .ok c)
      (hrest : ReadInOrder rest r) : ReadInOrder (x :: rest) (r.map (c :: ·))
  | fault {x : Nat × List Char} {rest : List (Nat × List Char)} {f : Fault}
      (h : ¬ IsRemark x.2) (hf : Case.ofLine x.1 x.2 = .error f) :
      ReadInOrder (x :: rest) (.error f)

variable {line raw text : List Char} {ls : List (List Char)} {c : Case}

theorem isSkipped_iff : isSkipped line = true ↔ IsRemark line := by
  have hsplit : line.takeWhile Text.isBlank ++ line.dropWhile Text.isBlank = line :=
    List.takeWhile_append_dropWhile
  have hblank : ∀ c ∈ line.takeWhile Text.isBlank, Text.isBlank c = true := fun c hc =>
    List.mem_takeWhile_imp hc
  unfold isSkipped
  split
  · next hnil =>
    refine iff_of_true rfl (.inl ?_)
    rwa [List.dropWhile_eq_nil_iff] at hnil
  · next c r hcons =>
    rw [beq_iff_eq]
    constructor
    · rintro rfl
      rw [hcons] at hsplit
      exact .inr ⟨_, r, hsplit.symm, hblank⟩
    · rintro (hall | ⟨before, after, rfl, hbefore⟩)
      · rw [List.dropWhile_eq_nil_iff.mpr hall] at hcons
        cases hcons
      · have hdrop : (before ++ '#' :: after).dropWhile Text.isBlank = '#' :: after := by
          rw [List.dropWhile_append_of_pos hbefore]
          rfl
        rw [hdrop] at hcons
        exact (List.cons.inj hcons).1.symm

/-- Reading the lines that are not skipped is reading all of them in order. -/
theorem readInOrder_mapM : ∀ xs : List (Nat × List Char),
    ReadInOrder xs ((xs.filter fun x => !isSkipped x.2).mapM fun x => Case.ofLine x.1 x.2)
  | [] => .done
  | x :: xs => by
    have ih := readInOrder_mapM xs
    cases hskip : isSkipped x.2 with
    | true =>
      rw [List.filter_cons_of_neg (by simp [hskip])]
      exact .remark (isSkipped_iff.mp hskip) ih
    | false =>
      have hnot : ¬ IsRemark x.2 := by
        rw [← isSkipped_iff, hskip]
        exact Bool.false_ne_true
      rw [List.filter_cons_of_pos (by simp [hskip]), Outcome.mapM_cons_eq]
      cases hx : Case.ofLine x.1 x.2 with
      | ok c => exact .case hnot hx ih
      | error f => exact .fault hnot hx

/-- **A file is read line by line.** -/
theorem readInOrder_ofText (text : List Char) :
    ReadInOrder (Text.numbered (Text.lines text)) (Case.ofText text) :=
  readInOrder_mapM _

/-- A blank line behind the others makes no difference. -/
theorem ReadInOrder.append_remark {xs : List (Nat × List Char)} {r : Except Fault (List Case)}
    (h : ReadInOrder xs r) {x : Nat × List Char} (hx : IsRemark x.2) :
    ReadInOrder (xs ++ [x]) r := by
  induction h with
  | done => exact .remark hx .done
  | remark h _ ih => exact .remark h ih
  | case h hc _ ih => exact .case h hc ih
  | fault h hf => exact .fault h hf

/-! ## 2. Lines that were joined -/

/-- The empty line that ends a text is blank, so it need not be dropped. -/
theorem readInOrder_pieces (h : '\r' ∉ text) :
    ReadInOrder (Text.numbered (Text.pieces Text.isLineEnd text)) (Case.ofText text) := by
  have hread := readInOrder_ofText text
  rw [Text.lines, Text.unifyLineEnds_of_not_mem h, Text.dropEmptyLast] at hread
  split at hread
  · next hlast =>
    obtain ⟨init, hinit⟩ := List.getLast?_eq_some_iff.mp hlast
    rw [hinit, List.dropLast_concat] at hread
    have hnumbered : Text.numbered (init ++ [[]]) =
        Text.numbered init ++ [(init.length + 1, ([] : List Char))] := by
      simp [Text.numbered, List.zipIdx_append]
    rw [hinit, hnumbered]
    exact hread.append_remark (.inl (by simp))
  · exact hread

theorem readInOrder_joinWith (h : ∀ l ∈ ls, '\r' ∉ l) :
    ReadInOrder (Text.numbered (ls.flatMap (Text.pieces Text.isLineEnd)))
      (Case.ofText (Text.joinWith '\n' ls)) := by
  by_cases hne : ls = []
  · subst hne
    exact .done
  · have hreturn : '\r' ∉ Text.joinWith '\n' ls := by
      intro hmem
      rcases Text.mem_joinWith hmem with heq | ⟨l, hl, hmem⟩
      · exact absurd heq (by decide)
      · exact h l hl hmem
    have hfeed : Text.isLineEnd '\n' = true := rfl
    rw [← Text.pieces_joinWith hfeed hne]
    exact readInOrder_pieces hreturn

/-! ## 3. Fields of characters -/

/-- A line of six sections that is no remark, and whose only line ends, if any, are in its two
fields of characters. -/
structure Fields.OpenRow (f : Fields) (raw : List Char) : Prop where
  sections : sections raw = [f.name, f.inputs, f.outputs, f.characterInputs, f.characterOutputs,
    f.steps]
  notRemark : ¬ IsRemark raw
  plain : ∀ x ∈ f.name ++ f.inputs ++ f.outputs ++ f.steps, Text.isLineEnd x = false

/-- Neither field of characters holds a line end. -/
def Fields.PlainCharacters (f : Fields) : Prop :=
  ∀ x ∈ f.characterInputs ++ f.characterOutputs, Text.isLineEnd x = false

instance (f : Fields) : Decidable f.PlainCharacters :=
  decidable_of_iff ((f.characterInputs ++ f.characterOutputs).all fun x => !Text.isLineEnd x)
    (by simp [Fields.PlainCharacters, or_imp, forall_and])

/-- The number of semicolons. -/
def semicolons (l : List Char) : Nat := l.countP (· == ';')

@[simp] theorem semicolons_append (l r : List Char) :
    semicolons (l ++ r) = semicolons l + semicolons r :=
  List.countP_append

theorem semicolons_cons (l : List Char) : semicolons (';' :: l) = semicolons l + 1 :=
  List.countP_cons_of_pos rfl

/-- A line with six sections has at least five semicolons. -/
theorem length_sections_le (raw : List Char) : (sections raw).length ≤ semicolons raw + 1 := by
  have hprefix : Text.dropEnd isReturn raw <+: raw := List.rdropWhile_prefix isReturn raw
  rw [sections, Text.splitAt, Text.length_pieces]
  exact Nat.succ_le_succ hprefix.sublist.countP_le

theorem isReturn_eq_false (h : '\n' ∉ raw ∧ '\r' ∉ raw) {x : Char} (hx : x ∈ raw) :
    isReturn x = false := by
  rw [Bool.eq_false_iff, isReturn, ne_eq, Bool.or_eq_true, beq_iff_eq, beq_iff_eq]
  rintro (rfl | rfl)
  · exact h.2 hx
  · exact h.1 hx

/-- Without returns at its end, a row is cut as it is. -/
theorem sections_eq_splitAt (hreturn : ∀ x ∈ raw, isReturn x = false) :
    sections raw = Text.splitAt ';' raw := by
  rw [sections, Text.dropEnd_eq_self fun x hx => hreturn x (List.mem_of_mem_getLast? hx)]

/-- What is in an open row is in one of its fields, or separates them. -/
theorem Fields.OpenRow.eq_append {f : Fields} (h : f.OpenRow raw)
    (hreturn : ∀ x ∈ raw, isReturn x = false) :
    raw = f.name ++ ';' :: (f.inputs ++ ';' :: (f.outputs ++ ';' ::
      (f.characterInputs ++ ';' :: (f.characterOutputs ++ ';' :: f.steps)))) := by
  have hjoined := Text.joinWith_splitAt ';' raw
  rw [← sections_eq_splitAt hreturn, h.sections] at hjoined
  exact hjoined.symm

/-- An open row holds no line end where its fields of characters hold none. -/
theorem Fields.OpenRow.isLineEnd_eq_false {f : Fields} (h : f.OpenRow raw)
    (hreturn : ∀ x ∈ raw, isReturn x = false) (hplain : f.PlainCharacters) :
    ∀ x ∈ raw, Text.isLineEnd x = false := by
  have hother := h.plain
  have hsemicolon : Text.isLineEnd ';' = false := rfl
  rw [h.eq_append hreturn]
  simp only [PlainCharacters, List.mem_append, List.mem_cons] at hplain hother ⊢
  rintro x (hx | rfl | hx | rfl | hx | rfl | hx | rfl | hx | rfl | hx)
  all_goals first
    | exact hsemicolon
    | exact hplain x (by simp [hx])
    | exact hother x (by simp [hx])

/-- Where a text is cut, each piece has no more semicolons than one of the two sides. -/
theorem semicolons_of_mem_pieces {l r p : List Char} {x : Char} {k : Nat}
    (hx : Text.isLineEnd x = true) (hl : semicolons l ≤ k) (hr : semicolons r ≤ k)
    (hp : p ∈ Text.pieces Text.isLineEnd (l ++ x :: r)) : semicolons p ≤ k := by
  rw [Text.pieces_append hx, List.mem_append] at hp
  rcases hp with hp | hp
  · exact (Text.sublist_of_mem_pieces hp).countP_le.trans hl
  · exact (Text.sublist_of_mem_pieces hp).countP_le.trans hr

/-- A row that is cut in a field of characters leaves no piece of six sections. -/
theorem Fields.OpenRow.semicolons_le {f : Fields} (h : f.OpenRow raw)
    (hreturn : ∀ x ∈ raw, isReturn x = false) (hcut : ¬ f.PlainCharacters) {p : List Char}
    (hp : p ∈ Text.pieces Text.isLineEnd raw) : semicolons p ≤ 4 := by
  have hraw := h.eq_append hreturn
  have hsections := h.sections
  rw [sections_eq_splitAt hreturn] at hsections
  have hcount : semicolons raw = 5 := by
    have hlength := Text.length_pieces (· == ';') raw
    have hsix : (Text.pieces (· == ';') raw).length = 6 := congrArg List.length hsections
    exact Nat.succ.inj (hlength.symm.trans hsix)
  obtain ⟨x, hmem, hx⟩ :
      ∃ x ∈ f.characterInputs ++ f.characterOutputs, Text.isLineEnd x = true := by
    simpa [PlainCharacters] using hcut
  rw [hraw] at hcount
  simp only [semicolons_append, semicolons_cons] at hcount
  rcases List.mem_append.mp hmem with hmem | hmem
  · obtain ⟨before, after, hfield⟩ := List.append_of_mem hmem
    have hsplit : raw = (f.name ++ ';' :: (f.inputs ++ ';' :: (f.outputs ++ ';' :: before))) ++
        x :: (after ++ ';' :: (f.characterOutputs ++ ';' :: f.steps)) := by
      simp [hraw, hfield]
    rw [hfield, semicolons_append] at hcount
    have hafter : semicolons after ≤ semicolons (x :: after) :=
      (List.sublist_cons_self x after).countP_le
    rw [hsplit] at hp
    refine semicolons_of_mem_pieces hx ?_ ?_ hp
    all_goals
      simp only [semicolons_append, semicolons_cons]
      omega
  · obtain ⟨before, after, hfield⟩ := List.append_of_mem hmem
    have hsplit : raw = (f.name ++ ';' :: (f.inputs ++ ';' :: (f.outputs ++ ';' ::
        (f.characterInputs ++ ';' :: before)))) ++ x :: (after ++ ';' :: f.steps) := by
      simp [hraw, hfield]
    rw [hfield, semicolons_append] at hcount
    have hafter : semicolons after ≤ semicolons (x :: after) :=
      (List.sublist_cons_self x after).countP_le
    rw [hsplit] at hp
    refine semicolons_of_mem_pieces hx ?_ ?_ hp
    all_goals
      simp only [semicolons_append, semicolons_cons]
      omega

/-- The fields of characters of a case are as long as what it gives and expects. -/
theorem length_codesOfField {side : Side} {n : Int} {field : List Char} {codes : List Int}
    (h : codesOfField side n field = .ok codes) : codes.length = field.length := by
  induction field generalizing codes with
  | nil =>
    cases h
    rfl
  | cons x field ih =>
    rw [codesOfField, Outcome.mapM_cons_eq] at h
    obtain ⟨k, -, hrest⟩ := Outcome.bind_eq_ok_iff.mp h
    obtain ⟨ks, hks, rfl⟩ := Outcome.map_eq_ok_iff.mp hrest
    rw [List.length_cons, List.length_cons, ih hks]

/-- The characters of a case are those of its fields. -/
theorem length_characters_of_ofLine {n : Int} {f : Fields} (hf : Fields.Of raw f)
    (h : Case.ofLine n raw = .ok c) :
    c.characterInputs.length = f.characterInputs.length ∧
      c.characterOutputs.length = f.characterOutputs.length := by
  have hfields : Case.ofFields n f = .ok c := by
    rw [Case.ofLine, fields_ofLine_eq_ok_iff.mpr hf] at h
    exact h
  simp only [ofFields_eq_bind, Outcome.bind_eq_ok_iff, Outcome.map_eq_ok_iff] at hfields
  obtain ⟨_, -, _, -, _, -, ins, hins, outs, houts, rfl⟩ := hfields
  exact ⟨length_codesOfField hins, length_codesOfField houts⟩

/-- A row that is cut in a field of characters does not come to its case. -/
theorem Fields.OpenRow.ne_singleton {f : Fields} (h : f.OpenRow raw)
    (hreturn : ∀ x ∈ raw, isReturn x = false) (hc : Case.ofLine 1 raw = .ok c)
    (hcut : ¬ f.PlainCharacters) : Case.ofText raw ≠ .ok [c] := by
  intro htext
  obtain ⟨y, hy, hline⟩ := Outcome.exists_of_mem_mapM htext c List.mem_cons_self
  have hpiece : y.2 ∈ Text.pieces Text.isLineEnd raw := by
    have hmem := (List.mem_filter.mp hy).1
    have hlines : y.2 ∈ Text.lines raw := by
      rw [← Text.map_snd_numbered (Text.lines raw)]
      exact List.mem_map_of_mem hmem
    have hcr : '\r' ∉ raw := fun hr => Bool.noConfusion (hreturn '\r' hr)
    rw [Text.lines, Text.unifyLineEnds_of_not_mem hcr, Text.dropEmptyLast] at hlines
    split at hlines
    · exact List.dropLast_subset _ hlines
    · exact hlines
  have hfew : semicolons y.2 ≤ 4 := h.semicolons_le hreturn hcut hpiece
  have hlong := length_characters_of_ofLine
    (.six h.sections : Fields.Of raw ⟨f.name, f.inputs, f.outputs, f.characterInputs,
      f.characterOutputs, f.steps⟩) hc
  obtain ⟨f', hf', -⟩ := Outcome.bind_eq_ok_iff.mp hline
  rw [fields_ofLine_eq_ok_iff] at hf'
  have hshort := length_characters_of_ofLine hf' hline
  cases hf' with
  | four _ =>
    -- the piece gives and expects no characters, but the row does
    have hins : f.characterInputs = [] := List.eq_nil_of_length_eq_zero (hlong.1 ▸ hshort.1)
    have houts : f.characterOutputs = [] := List.eq_nil_of_length_eq_zero (hlong.2 ▸ hshort.2)
    exact hcut (by simp [PlainCharacters, hins, houts])
  | six hsix =>
    have hlength := length_sections_le y.2
    rw [hsix] at hlength
    simp only [List.length_cons, List.length_nil] at hlength
    omega

/-! ## 4. Files -/

/-- One line that is a case comes to this case. -/
theorem ReadInOrder.eq_singleton {r : Except Fault (List Case)} (h : ReadInOrder [(1, raw)] r)
    (hnot : ¬ IsRemark raw) (hc : Case.ofLine 1 raw = .ok c) : r = .ok [c] := by
  cases h with
  | remark hremark _ => exact absurd hremark hnot
  | case _ hc' hrest =>
    obtain rfl := Except.ok.inj (hc'.symm.trans hc)
    cases hrest
    rfl
  | fault _ hf => cases hf.symm.trans hc

/-- **A file of test cases is read line by line**, where a line also ends at the line ends other
than a line feed.  So lines that hold none of these are read as they are, and a field of characters
comes back from a file exactly when it holds none. -/
theorem ofText_joinWith (ls : List (List Char)) (h : ∀ l ∈ ls, '\n' ∉ l ∧ '\r' ∉ l) :
    ReadInOrder (Text.numbered (ls.flatMap (Text.pieces Text.isLineEnd)))
        (Case.ofText (Text.joinWith '\n' ls)) ∧
      ((∀ l ∈ ls, ∀ x ∈ l, Text.isLineEnd x = false) →
        ReadInOrder (Text.numbered ls) (Case.ofText (Text.joinWith '\n' ls))) ∧
      ∀ raw ∈ ls, ∀ (f : Fields) (c : Case), f.OpenRow raw → Case.ofLine 1 raw = .ok c →
        (Case.ofText raw = .ok [c] ↔ f.PlainCharacters) := by
  have hread := readInOrder_joinWith fun l hl => (h l hl).2
  refine ⟨hread, fun hplain => ?_, fun raw hraw f c hopen hc => ⟨fun htext => ?_, fun hplain => ?_⟩⟩
  · rwa [Text.flatMap_pieces_of_plain hplain] at hread
  · by_contra hcut
    exact hopen.ne_singleton (fun x hx => isReturn_eq_false (h raw hraw) hx) hc hcut htext
  · have hends : ∀ x ∈ raw, Text.isLineEnd x = false := hopen.isLineEnd_eq_false
      (fun x hx => isReturn_eq_false (h raw hraw) hx) hplain
    have hone : ∀ l ∈ [raw], ∀ x ∈ l, Text.isLineEnd x = false := by simpa using hends
    have hfile : ReadInOrder (Text.numbered ([raw].flatMap (Text.pieces Text.isLineEnd)))
        (Case.ofText (Text.joinWith '\n' [raw])) :=
      readInOrder_joinWith (by simpa using (h raw hraw).2)
    rw [Text.flatMap_pieces_of_plain hone] at hfile
    exact hfile.eq_singleton hopen.notRemark hc

/-- A remark, and a row whose characters are no line ends. -/
theorem readInOrder_letterRow :
    (∀ l ∈ ["# letters".toList, "n;;;A;;10".toList], '\n' ∉ l ∧ '\r' ∉ l) ∧
      Case.ofText "n;;;A;;10".toList =
        .ok [{ name := some "n".toList, characterInputs := [65], maxSteps := 10 }] := by
  refine ⟨by decide, ?_⟩
  have hplain : ("n10".toList.all fun x => !Text.isLineEnd x) = true := by decide
  have hopen : Fields.OpenRow ⟨"n".toList, [], [], "A".toList, [], "10".toList⟩
      "n;;;A;;10".toList := by
    refine ⟨by decide, ?_, fun x hx => ?_⟩
    · rw [← isSkipped_iff]
      decide
    · have hnot := List.all_eq_true.mp hplain x hx
      rwa [Bool.not_eq_true'] at hnot
  exact ((ofText_joinWith ["# letters".toList, "n;;;A;;10".toList] (by decide)).2.2
    "n;;;A;;10".toList (by decide) _ _ hopen (by rfl)).mpr (by decide)

/-- **A line that is a case when it stands alone, and none in a file.**  Its field of characters is
a vertical tab, at which the file is cut. -/
theorem voidField_lost :
    Case.ofLine 1 "n;;;\x0b;;10".toList =
        .ok { name := some "n".toList, characterInputs := [11], maxSteps := 10 } ∧
      ¬ ReadInOrder (Text.numbered ["n;;;\x0b;;10".toList])
        (Case.ofText (Text.joinWith '\n' ["n;;;\x0b;;10".toList])) := by
  refine ⟨by rfl, fun h => ?_⟩
  have hread := h.eq_singleton (by rw [← isSkipped_iff]; decide) (by rfl)
  have hcut : Case.ofText (Text.joinWith '\n' ["n;;;\x0b;;10".toList]) =
      .error (.cause (.steps []) 1) := by rfl
  cases hcut.symm.trans hread

end Trial
end MinionComputer
