/-
# Lists of numbers, and source texts of data words

What a list of numbers says are its lines without comments and blanks, those that are empty left
out.  It is a memory exactly when each of these is a row of digits for a cell and they are no more
than a hundred, and then it is the memory of these cells.  With an instruction word for data in
front of each, the text is a source text, and the assembler reads the same memory from it: it cuts
the same lines at the same marks, and what is one row of digits is one word, which is an operand in
digits of whichever script.

* `NumberList.entries`: what a text says;
* `NumberList.cells_eq_ok_iff`: the cells that lines are read as;
* `NumberList.dataLine`, `NumberList.dataText`: a list of numbers as a source text;
* `NumberList.outline_dataLine`, `NumberList.loads_dataWords`: the program of this text, and what it
  loads;
* `NumberList.toMemory_entries`: which texts are memories, for both readers.
-/
import MinionComputer.Proofs.NumberList
import MinionComputer.Proofs.Source.Outline
import MinionComputer.Proofs.Source.Spelling

namespace MinionComputer

/-! ## 1. Blanks around a word -/

namespace Text

/-- Blanks behind a text add no word. -/
theorem words_append_blanks {gap : List Char} (l : List Char) (h : ∀ c ∈ gap, isBlank c = true) :
    words (l ++ gap) = words l := by
  cases gap with
  | nil => rw [List.append_nil]
  | cons c gap =>
    rw [List.forall_mem_cons] at h
    rw [words_append h.1, words_blanks h.2, List.append_nil]

/-- **Trimming a text leaves its words.** -/
theorem words_trim (cs : List Char) : words (trim cs) = words cs := by
  have hfront : cs.takeWhile isBlank ++ cs.dropWhile isBlank = cs := List.takeWhile_append_dropWhile
  have hback : trim cs ++ (cs.dropWhile isBlank).rtakeWhile isBlank = cs.dropWhile isBlank :=
    List.rdropWhile_append_rtakeWhile
  calc words (trim cs)
      = words (trim cs ++ (cs.dropWhile isBlank).rtakeWhile isBlank) :=
        (words_append_blanks _ fun c hc => List.mem_rtakeWhile_imp hc).symm
    _ = words (cs.takeWhile isBlank ++ cs.dropWhile isBlank) := by
        rw [hback, words_blanks_append _ fun c hc => List.mem_takeWhile_imp hc]
    _ = words cs := by rw [hfront]

end Text

namespace NumberList

variable {enabled : Bool} {count : Nat} {w raw text source : List Char} {cs : List Cell}
  {ls : List (List Char)}

/-! ## 2. What a text says -/

/-- What lines say, apart from those that say nothing. -/
def entriesOf (ls : List (List Char)) : List (List Char) :=
  (ls.map content).filter (!·.isEmpty)

/-- What the lines of a text say. -/
def entries (text : List Char) : List (List Char) := entriesOf (Text.lines text)

theorem entriesOf_cons_of_empty (h : content raw = []) : entriesOf (raw :: ls) = entriesOf ls := by
  simp [entriesOf, h]

theorem entriesOf_cons_of_filled (h : content raw ≠ []) :
    entriesOf (raw :: ls) = content raw :: entriesOf ls := by
  simp [entriesOf, h]

/-- A line says nothing that it does not hold. -/
theorem sublist_content (raw : List Char) : (content raw).Sublist raw :=
  have htrim : (content raw).Sublist (Source.splitComment raw).1 :=
    (List.rdropWhile_prefix _ _).sublist.trans (List.dropWhile_suffix _).sublist
  htrim.trans (Source.code_initial raw).sublist

/-- The row is a numeral of not too many digits. -/
def IsShortNumeral (w : List Char) : Prop :=
  Text.isNumeral w = true ∧ w.length ≤ Text.digitLimit

/-- **Lines are read as the numbers they say**, as long as there is room for them. -/
theorem cells_eq_ok_iff : ∀ {ls : List (Nat × List Char)} {count : Nat} {cs : List Cell},
    count ≤ 100 → (cells count ls = .ok cs ↔
      (∀ w ∈ entriesOf (ls.map (·.2)), IsShortNumeral w) ∧
        cs.map Fin.val = (entriesOf (ls.map (·.2))).map Text.digitsValue ∧
          count + cs.length ≤ 100)
  | [], count, cs, hcount => by
    have hnone : cells count [] = .ok [] := rfl
    rw [hnone, Except.ok.injEq]
    constructor
    · rintro rfl
      exact ⟨by simp [entriesOf], rfl, hcount⟩
    · rintro ⟨-, hvalues, -⟩
      exact (List.map_eq_nil_iff.mp hvalues).symm
  | x :: ls, count, cs, hcount => by
    rw [List.map_cons]
    by_cases hx : content x.2 = []
    · rw [cells_cons_of_empty hx, entriesOf_cons_of_empty hx]
      exact cells_eq_ok_iff hcount
    · rw [cells_cons_of_filled hx, entriesOf_cons_of_filled hx]
      simp only [Outcome.bind_eq_ok_iff, Outcome.mapError_eq_ok_iff, Outcome.map_eq_ok_iff,
        number_eq_ok_iff]
      constructor
      · rintro ⟨c, ⟨hstands, hvalue⟩, cs', hcs', rfl⟩
        have hroom : count + 1 ≤ 100 := by have := hstands.room; omega
        obtain ⟨hshort, hvalues, hsize⟩ := (cells_eq_ok_iff hroom).mp hcs'
        refine ⟨List.forall_mem_cons.mpr ⟨⟨hstands.numeral, hstands.short⟩, hshort⟩, ?_, ?_⟩
        · rw [List.map_cons, List.map_cons, hvalue, hvalues]
        · rw [List.length_cons]
          omega
      · rintro ⟨hshort, hvalues, hsize⟩
        obtain ⟨hfirst, hrest⟩ := List.forall_mem_cons.mp hshort
        cases cs with
        | nil => cases hvalues
        | cons c cs =>
          rw [List.map_cons, List.map_cons, List.cons.injEq] at hvalues
          rw [List.length_cons] at hsize
          have hrange : Text.digitsValue (content x.2) < 1000 := hvalues.1 ▸ c.isLt
          refine ⟨c, ⟨⟨hfirst.1, hfirst.2, hrange, by omega⟩, hvalues.1⟩, cs, ?_, rfl⟩
          exact (cells_eq_ok_iff (by omega)).mpr ⟨hrest, hvalues.2, by omega⟩

theorem ofText_eq_ok_iff :
    ofText text = .ok cs ↔ (∀ w ∈ entries text, IsShortNumeral w) ∧
      cs.map Fin.val = (entries text).map Text.digitsValue ∧ cs.length ≤ 100 := by
  have hcells : ofText text = .ok cs ↔ _ := cells_eq_ok_iff (Nat.zero_le 100)
  rwa [Text.map_snd_numbered, Nat.zero_add] at hcells

/-- No line of the text holds more digits than are read. -/
def ShortLines (text : List Char) : Prop :=
  ∀ raw ∈ Text.lines text, (raw.filter Text.isDigit).length ≤ Text.digitLimit

instance (text : List Char) : Decidable (ShortLines text) :=
  inferInstanceAs (Decidable (∀ raw ∈ Text.lines text, _ ≤ _))

theorem ShortLines.length_le (h : ShortLines text) (hraw : raw ∈ Text.lines text)
    (hdigits : ∀ c ∈ content raw, Text.isDigit c = true) :
    (content raw).length ≤ Text.digitLimit := by
  have hsublist := (sublist_content raw).filter Text.isDigit
  rw [List.filter_eq_self.mpr hdigits] at hsublist
  exact hsublist.length_le.trans (h raw hraw)

/-- Where no line is too long, a row of digits is read. -/
theorem ShortLines.isShortNumeral_iff (h : ShortLines text) (hw : w ∈ entries text) :
    IsShortNumeral w ↔ ∀ c ∈ w, Text.isDigit c = true := by
  obtain ⟨hmem, hne⟩ := List.mem_filter.mp hw
  obtain ⟨raw, hraw, rfl⟩ := List.mem_map.mp hmem
  constructor
  · exact fun hshort => (Text.isNumeral_iff.mp hshort.1).2
  · intro hdigits
    exact ⟨Text.isNumeral_iff.mpr ⟨by simpa using hne, hdigits⟩, h.length_le hraw hdigits⟩

/-- **Which texts are memories.** -/
theorem ShortLines.exists_toMemory_iff (h : ShortLines text) :
    (∃ m, toMemory text = .ok m) ↔
      (∀ w ∈ entries text, (∀ c ∈ w, Text.isDigit c = true) ∧ Text.digitsValue w ≤ 999) ∧
        (entries text).length ≤ 100 := by
  simp only [toMemory, Outcome.map_eq_ok_iff, ofText_eq_ok_iff]
  constructor
  · rintro ⟨m, cs, ⟨hshort, hvalues, hsize⟩, -⟩
    have hlength : cs.length = (entries text).length := by
      simpa using congrArg List.length hvalues
    refine ⟨fun w hw => ⟨(h.isShortNumeral_iff hw).mp (hshort w hw), ?_⟩, hlength ▸ hsize⟩
    have hvalue : Text.digitsValue w ∈ cs.map Fin.val := hvalues ▸ List.mem_map_of_mem hw
    obtain ⟨c, -, hc⟩ := List.mem_map.mp hvalue
    omega
  · rintro ⟨hentries, hsize⟩
    refine ⟨_, (entries text).map fun w => Cell.clamp (Text.digitsValue w), ⟨?_, ?_, ?_⟩, rfl⟩
    · exact fun w hw => (h.isShortNumeral_iff hw).mpr (hentries w hw).1
    · rw [List.map_map]
      refine List.map_congr_left fun w hw => ?_
      have hrange := (hentries w hw).2
      show (max 0 (min 999 (Text.digitsValue w : Int))).toNat = _
      omega
    · rwa [List.length_map]

/-- The memory holds the values in order, and zeros behind them. -/
theorem read_of_toMemory {m : Memory} (h : toMemory text = .ok m) (a : Address) :
    (m.read a).val = ((entries text).map Text.digitsValue).getD a.val 0 := by
  obtain ⟨cs, hcs, rfl⟩ := Outcome.map_eq_ok_iff.mp h
  rw [Memory.read_ofList, ← (ofText_eq_ok_iff.mp hcs).2.1, List.getD_eq_getElem?_getD,
    List.getD_eq_getElem?_getD, List.getElem?_map]
  cases cs[a.val]? <;> rfl

/-- A text that is no memory has a first line that is wrong, and it is named. -/
theorem ShortLines.offendsAt (h : ShortLines text) {f : Fault} (hf : toMemory text = .error f) :
    ∃ p, f = .problem p ∧ OffendsAt text p := by
  have hf' : ofText text = .error f := Outcome.map_eq_error_iff.mp hf
  cases f with
  | problem p => exact ⟨p, rfl, offendsAt_of_ofText hf'⟩
  | tooLong digits =>
    obtain ⟨i, raw, hraw, -, hnumeral, hlong⟩ := ofText_tooLong_iff.mp ⟨digits, hf'⟩
    have hle := h.length_le (List.mem_of_getElem? hraw) (Text.isNumeral_iff.mp hnumeral).2
    exact absurd hle (Nat.not_le_of_lt hlong)

/-! ## 3. The source text -/

/-- The statement that puts a number into memory. -/
def dataWord (w : List Char) : Source.Statement := { mnemonic := .dat, operand := some w }

/-- A line with the instruction word for data in front, if it says anything. -/
def dataLine (raw : List Char) : List Char :=
  if content raw = [] then raw else "DAT ".toList ++ raw

/-- A text with the instruction word for data in front of each line that says anything. -/
def dataText (text : List Char) : List Char := Text.mapPieces Text.isLineEnd dataLine text

/-- A number is the operand of a statement. -/
theorem spells_dataWord (h : Text.isNumeral w = true) :
    (dataWord w).Spells "DAT".toList ["DAT".toList, w] where
  words := rfl
  label := by
    rintro l ⟨⟩
  mnemonic := Mnemonic.ofWord?_letters .dat
  operand := by
    rintro o ⟨⟩
    exact Source.ofWord?_of_isNumeral h
  fits := by
    constructor
    · rintro ⟨⟩
    · rintro ⟨⟩

/-- The words of a line with a number. -/
theorem words_dataLine (h : Text.isNumeral (content raw) = true) :
    Text.words (Source.splitComment (dataLine raw)).1 = ["DAT".toList, content raw] := by
  obtain ⟨hne, hdigits⟩ := Text.isNumeral_iff.mp h
  have hplain : ∀ c ∈ "DAT ".toList, Source.IsPlain c := by
    simp [Source.IsPlain]
  have hblank : ∀ c ∈ content raw, Text.isBlank c = false := fun c hc =>
    Text.isBlank_of_isDigit (hdigits c hc)
  have hwords : Text.words (Source.splitComment raw).1 = [content raw] := by
    rw [← Text.words_trim]
    exact Text.words_eq_singleton hblank hne
  have hfront : Text.words ("DAT".toList ++ ' ' :: (Source.splitComment raw).1) =
      "DAT".toList :: Text.words (Source.splitComment raw).1 :=
    Text.words_append_cons
      (fun c hc => Text.isBlank_of_isUpper (Mnemonic.isUpper_of_mem_letters .dat c hc))
      (Mnemonic.letters_ne_nil .dat) rfl
  rw [dataLine, if_neg hne, Source.splitComment_append_of_plain raw hplain, ← hwords]
  exact hfront

/-- **A line is the data word of what it says.** -/
theorem outline_dataLine (h : ∀ w ∈ entriesOf [raw], Text.isNumeral w = true) :
    Source.Line.outline (dataLine raw) = (entriesOf [raw]).map fun w => some (dataWord w) := by
  by_cases hraw : content raw = []
  · have hwords : Text.words (Source.splitComment raw).1 = [] := by
      rw [← Text.words_trim]
      exact congrArg Text.words hraw
    have hcontent : Source.Line.content raw = .ok none := by
      rw [Source.Line.content, hwords]
      rfl
    rw [dataLine, if_pos hraw, entriesOf_cons_of_empty hraw]
    exact Source.Line.outline_of_content hcontent
  · rw [entriesOf_cons_of_filled hraw] at h ⊢
    have hnumeral : Text.isNumeral (content raw) = true := h _ List.mem_cons_self
    have hcontent : Source.Line.content (dataLine raw) = .ok (some (dataWord (content raw))) := by
      rw [Source.Line.content_eq_ok_iff, words_dataLine hnumeral]
      exact .statement (spells_dataWord hnumeral)
    exact Source.Line.outline_of_content hcontent

/-- **Lines are the data words of what they say.** -/
theorem outline_dataLines (h : ∀ w ∈ entriesOf ls, Text.isNumeral w = true) :
    (ls.map dataLine).flatMap Source.Line.outline =
      (entriesOf ls).map fun w => some (dataWord w) := by
  induction ls with
  | nil => rfl
  | cons raw ls ih =>
    have hcons : entriesOf (raw :: ls) = entriesOf [raw] ++ entriesOf ls := by
      rw [entriesOf, List.map_cons, ← List.singleton_append, List.filter_append]
      rfl
    rw [hcons, List.forall_mem_append] at h
    rw [hcons, List.map_cons, List.flatMap_cons, outline_dataLine h.1, ih h.2, List.map_append]

/-- No line end comes with the instruction word. -/
theorem isLineEnd_dataLine (h : ∀ c ∈ raw, Text.isLineEnd c = false) :
    ∀ c ∈ dataLine raw, Text.isLineEnd c = false := by
  unfold dataLine
  split
  · exact h
  · exact List.forall_mem_append.mpr ⟨by simp [Text.isLineEnd], h⟩

/-- The source texts of a list of numbers: the text itself with the instruction word in front of
its lines, or any text of these lines. -/
def IsDataText (text source : List Char) : Prop :=
  source = dataText text ∨ Text.lines source = (Text.lines text).map dataLine

/-- **The outline of the source text.** -/
theorem IsDataText.outline_eq (h : IsDataText text source)
    (hnumerals : ∀ w ∈ entries text, Text.isNumeral w = true) :
    Source.outline source = (entries text).map fun w => some (dataWord w) := by
  have hlines : ((Text.lines text).map dataLine).flatMap Source.Line.outline =
      (entries text).map fun w => some (dataWord w) := outline_dataLines hnumerals
  rcases h with rfl | h
  · have hpieces : Text.pieces Text.isLineEnd (dataText text) =
        (Text.pieces Text.isLineEnd text).map dataLine :=
      Text.pieces_mapPieces fun v hv => isLineEnd_dataLine (Text.not_cut_of_mem_pieces hv)
    have hnil : Source.Line.outline (dataLine []) = [] := rfl
    rw [← hlines, Source.outline_eq_flatMap_pieces, hpieces, List.flatMap_map, List.flatMap_map]
    exact (Text.flatMap_lines (f := fun l => Source.Line.outline (dataLine l)) hnil text).symm
  · rw [← hlines, ← h]
    rfl

/-! ## 4. What it loads -/

/-- A data word has the number as its cell, whatever the labels are. -/
theorem cell_dataWord {c : Cell} (h : IsShortNumeral w) (hc : c.val = Text.digitsValue w)
    (symbols : Source.Symbols) : (dataWord w).cell symbols = .ok c := by
  have hsplit := Text.splitSign_of_isNumeral h.1
  have hsigned : Text.isSignedNumeral w = true := by
    rw [Text.isSignedNumeral, hsplit]
    exact h.1
  have hread : Text.readInteger w = .ok (Cell.toInt c) := by
    rw [Text.readInteger_of_isSignedNumeral hsigned, hsplit, Text.readDigits, if_pos h.2, ← hc]
    rfl
  have hvalue : Source.operandValue symbols w = .ok (Cell.toInt c) := by
    rw [Source.operandValue, if_pos hsigned, hread]
  have hcell : Source.cellOf .dat (Cell.toInt c) = .ok c := by
    rw [Source.cellOf, if_pos rfl, Cell.ofInt?_toInt]
  exact Outcome.bind_eq_ok_iff.mpr ⟨_, hvalue, hcell⟩

/-- **The data words of numbers load the cells of the numbers**, and bind no labels. -/
theorem loads_dataWords {ws : List (List Char)} (hshort : ∀ w ∈ ws, IsShortNumeral w)
    (hvalues : cs.map Fin.val = ws.map Text.digitsValue) (hsize : cs.length ≤ 100) :
    Source.Loads enabled (ws.map dataWord) [] (Memory.ofList cs) := by
  have hlength : ws.length = cs.length := by simpa using (congrArg List.length hvalues).symm
  have hdata : ∀ s ∈ ws.map dataWord, s.label = none ∧ s.mnemonic = .dat := by
    intro s hs
    obtain ⟨w, -, rfl⟩ := List.mem_map.mp hs
    exact ⟨rfl, rfl⟩
  refine ⟨Source.fits_of_unlabelled (fun s hs => (hdata s hs).1) ?_ ?_ ?_, ?_, ?_, ?_⟩
  · rwa [List.length_map, hlength]
  · intro i s hs hm
    rw [(hdata s (List.mem_of_getElem? hs)).2] at hm
    cases hm
  · intro _ s hs
    rw [(hdata s hs).2]
    rfl
  · symm
    rw [List.map_nil, Source.labelTable, Source.labelsFrom, List.filterMap_eq_nil_iff]
    intro x hx
    rw [(hdata x.1 (List.fst_mem_of_mem_zipIdx hx)).1]
    rfl
  · intro i s hs
    rw [List.getElem?_map, Option.map_eq_some_iff] at hs
    obtain ⟨w, hw, rfl⟩ := hs
    have hi : i < cs.length := hlength ▸ (List.getElem?_eq_some_iff.mp hw).1
    have hvalue : cs[i].val = Text.digitsValue w := by
      have hget := congrArg (·[i]?) hvalues
      simpa [List.getElem?_eq_getElem hi, hw] using hget
    refine ⟨⟨i, by omega⟩, rfl, ?_⟩
    rw [Memory.read_ofList, List.getD_eq_getElem?_getD, List.getElem?_eq_getElem hi]
    exact cell_dataWord (hshort w (List.mem_of_getElem? hw)) hvalue []
  · intro a ha
    rw [List.length_map, hlength] at ha
    rw [Memory.read_ofList, List.getD_eq_getElem?_getD, List.getElem?_eq_none ha]
    rfl

/-- **The assembler reads the memory that the list of numbers stands for.** -/
theorem IsDataText.result_eq {m : Memory} (h : IsDataText text source)
    (hm : toMemory text = .ok m) : (Source.Assembly.ofSource enabled source).result = .ok m := by
  obtain ⟨cs, hcs, rfl⟩ := Outcome.map_eq_ok_iff.mp hm
  obtain ⟨hshort, hvalues, hsize⟩ := ofText_eq_ok_iff.mp hcs
  have houtline := h.outline_eq fun w hw => (hshort w hw).1
  have hprogram : Source.statements source = (entries text).map dataWord := by
    rw [Source.statements_eq_reduceOption, houtline, List.reduceOption, List.filterMap_map]
    exact congrFun List.filterMap_eq_map _
  have hread : none ∉ Source.outline source := by
    rw [houtline]
    simp
  have hloads : Source.Loads enabled (Source.statements source) [] (Memory.ofList cs) :=
    hprogram ▸ loads_dataWords hshort hvalues hsize
  exact (Source.ok_of_loads hread hloads).1

/-! ## 5. Both readers -/

/-- **Which texts are lists of numbers, and what they are for both readers.**  Where no line holds
more digits than are read, a text is a memory exactly when all that it says are rows of digits with
values up to 999 and they are no more than a hundred.  The memory then holds these values and zeros
behind them, and it is what the assembler makes of the text with the instruction word for data in
front of each of them.  Otherwise the first line that is wrong is named. -/
theorem toMemory_entries (h : ShortLines text) :
    ((∃ m, toMemory text = .ok m) ↔
      (∀ w ∈ entries text, (∀ c ∈ w, Text.isDigit c = true) ∧ Text.digitsValue w ≤ 999) ∧
        (entries text).length ≤ 100) ∧
    (∀ m, toMemory text = .ok m →
      (∀ a : Address, (m.read a).val = ((entries text).map Text.digitsValue).getD a.val 0) ∧
        ∀ enabled source, IsDataText text source →
          (Source.Assembly.ofSource enabled source).result = .ok m) ∧
    ∀ f, toMemory text = .error f → ∃ p, f = .problem p ∧ OffendsAt text p :=
  ⟨h.exists_toMemory_iff, fun _ hm => ⟨read_of_toMemory hm, fun _ _ hsource => hsource.result_eq hm⟩,
    fun _ hf => h.offendsAt hf⟩

/-- Numbers with comments, blanks and an empty line, the second in digits of another script, and
three kinds of line ends. -/
def tally : List Char := "# tally\n  007 // seven\r\n\u0664\u0662\n\x0b ; none\n999".toList

theorem tally_read :
    ShortLines tally ∧ toMemory tally = .ok (.ofList [7, 42, 999]) ∧
      (Source.Assembly.ofSource false (dataText tally)).result = .ok (.ofList [7, 42, 999]) := by
  have hshort : ShortLines tally := by decide
  have hm : toMemory tally = .ok (.ofList [7, 42, 999]) := by rfl
  exact ⟨hshort, hm, ((toMemory_entries hshort).2.1 _ hm).2 false _ (.inl rfl)⟩

end NumberList
end MinionComputer
