/-
# A case that is written is read back

A case is written on a line as its fields with semicolons between: the name or nothing, the numbers
with commas between, the characters as they are, and the most steps in decimal.  What is written of
a field holds no semicolon and the line ends in a digit, so the reader cuts the line where it was
joined (`Fields.of_row`, `Fields.of_shortRow`), and of each field it makes what was written there.

* `Case.fields`, `Fields.row`, `Fields.shortRow`: the fields of a case, and lines of six and four;
* `Case.Writable`: the cases that can be written;
* `numbersOfField_numbersText`, `codesOfField_charactersText`: fields that are read back;
* `Case.ofLine_row`: lines that are read back.
-/
import MinionComputer.Proofs.Text.Decimal
import MinionComputer.Proofs.Text.Pieces
import MinionComputer.Proofs.Text.Trimming
import MinionComputer.Proofs.Trial.Reading

namespace MinionComputer
namespace Trial

variable {side : Side} {line : Int} {f : Fields} {c : Case} {ns : List Int}

/-! ## 1. Writing -/

/-- Numbers with commas between. -/
def numbersText (ns : List Int) : List Char :=
  Text.joinWith ',' (ns.map fun n => Text.decimal n.toNat)

/-- The characters of codes. -/
def charactersText (codes : List Int) : List Char := codes.map fun n => Char.ofNat n.toNat

/-- The fields of a case. -/
def Case.fields (c : Case) : Fields where
  name := c.name.getD []
  inputs := numbersText c.inputs
  outputs := numbersText c.outputs
  characterInputs := charactersText c.characterInputs
  characterOutputs := charactersText c.characterOutputs
  steps := Text.decimal c.maxSteps.toNat

/-- The six fields on a line. -/
def Fields.row (f : Fields) : List Char :=
  Text.joinWith ';'
    [f.name, f.inputs, f.outputs, f.characterInputs, f.characterOutputs, f.steps]

/-- The fields on a line without those of characters. -/
def Fields.shortRow (f : Fields) : List Char :=
  Text.joinWith ';' [f.name, f.inputs, f.outputs, f.steps]

/-- A case that can be written: its name, if any, has no semicolon in it and no blanks around it,
its numbers and characters are such that can be read, the semicolon apart, and the most steps are
no more than can be read. -/
structure Case.Writable (c : Case) : Prop where
  name : ∀ w ∈ c.name, w ≠ [] ∧ ';' ∉ w ∧ Text.trim w = w
  numbers : ∀ n ∈ c.inputs ++ c.outputs, 0 ≤ n ∧ n ≤ 999
  characters : ∀ n ∈ c.characterInputs ++ c.characterOutputs, 0 ≤ n ∧ n ≤ 255 ∧ n ≠ 59
  steps : 0 ≤ c.maxSteps ∧ (Text.decimal c.maxSteps.toNat).length ≤ Text.digitLimit

/-! ## 2. Lines -/

/-- Sections that hold no semicolon, the last of which does not end in a return, come apart where
they were joined. -/
theorem sections_joinWith {ls : List (List Char)} (hplain : ∀ l ∈ ls, ';' ∉ l) {w : List Char}
    (hw : w ∈ ls.getLast?) (hne : w ≠ []) (hend : ∀ x ∈ w, isReturn x = false) :
    sections (Text.joinWith ';' ls) = ls := by
  have hlast : ∀ x ∈ (Text.joinWith ';' ls).getLast?, isReturn x = false := by
    intro x hx
    obtain ⟨front, hfront⟩ := Text.suffix_joinWith ';' hw
    rw [← hfront, List.getLast?_append_of_ne_nil _ hne] at hx
    exact hend x (List.mem_of_mem_getLast? hx)
  have hls : ls ≠ [] := by
    rintro rfl
    cases hw
  rw [sections, Text.dropEnd_eq_self hlast, Text.splitAt_joinWith hls hplain]

/-- A digit is no return. -/
theorem isReturn_of_decimal {ds : List Char} (h : Text.Decimal ds) :
    ∀ x ∈ ds, isReturn x = false := by
  intro x hx
  have hdigit := h.plain x hx
  rw [Bool.eq_false_iff, isReturn, ne_eq, Bool.or_eq_true, beq_iff_eq, beq_iff_eq]
  rintro (rfl | rfl)
  · exact Bool.noConfusion hdigit
  · exact Bool.noConfusion hdigit

/-- No field holds a semicolon, and the last is a row of digits. -/
structure Fields.Plain (f : Fields) : Prop where
  name : ';' ∉ f.name
  numbers : ∀ side, ';' ∉ f.numbers side
  characters : ∀ side, ';' ∉ f.characters side
  steps : Text.Decimal f.steps

theorem Fields.Plain.semicolon_not_mem_steps (h : f.Plain) : ';' ∉ f.steps := fun hmem =>
  Bool.noConfusion (h.steps.plain ';' hmem)

/-- **A line of six fields has these fields.** -/
theorem Fields.Plain.of_row (h : f.Plain) : Fields.Of f.row f := by
  refine .six (sections_joinWith ?_ rfl h.steps.ne_nil (isReturn_of_decimal h.steps))
  simp only [List.forall_mem_cons]
  exact ⟨h.name, h.numbers .input, h.numbers .output, h.characters .input, h.characters .output,
    h.semicolon_not_mem_steps, by simp⟩

/-- **A line of four fields has these fields**, and empty ones of characters. -/
theorem Fields.Plain.of_shortRow (h : f.Plain) :
    Fields.Of f.shortRow { f with characterInputs := [], characterOutputs := [] } := by
  refine .four (sections_joinWith ?_ rfl h.steps.ne_nil (isReturn_of_decimal h.steps))
  simp only [List.forall_mem_cons]
  exact ⟨h.name, h.numbers .input, h.numbers .output, h.semicolon_not_mem_steps, by simp⟩

/-! ## 3. Fields -/

/-- The items of a field are the numbers that it was written of. -/
theorem items_numbersText (ns : List Int) :
    items (numbersText ns) = ns.map fun n => Text.decimal n.toNat := by
  by_cases hne : ns = []
  · subst hne
    rfl
  have hdecimal : ∀ w ∈ ns.map fun n => Text.decimal n.toNat, Text.Decimal w := by
    intro w hw
    obtain ⟨n, -, rfl⟩ := List.mem_map.mp hw
    exact Text.decimal_decimal n.toNat
  have hcomma : ∀ w ∈ ns.map fun n => Text.decimal n.toNat, ',' ∉ w := fun w hw hmem =>
    Bool.noConfusion ((hdecimal w hw).plain ',' hmem)
  have htrim : (ns.map fun n => Text.decimal n.toNat).map Text.trim =
      ns.map fun n => Text.decimal n.toNat :=
    (List.map_congr_left fun w hw => (hdecimal w hw).trim).trans (List.map_id _)
  rw [items, numbersText, Text.splitAt_joinWith (by simpa using hne) hcomma, htrim,
    List.filter_eq_self]
  intro w hw
  simpa using (hdecimal w hw).ne_nil

/-- A number up to 999 written in decimal stands for itself. -/
theorem itemStands_decimal {n : Nat} (h : n ≤ 999) : ItemStands (Text.decimal n) where
  numeral := (Text.decimal_decimal n).isNumeral
  short := Text.length_decimal_le_limit (Nat.lt_succ_of_le h)
  range := by rwa [Text.digitsValue_decimal]

/-- **A field of numbers is read back.** -/
theorem numbersOfField_numbersText (h : ∀ n ∈ ns, 0 ≤ n ∧ n ≤ 999) :
    numbersOfField side line (numbersText ns) = .ok ns := by
  have hfield : numbersOfField side line (numbersText ns) =
      (items (numbersText ns)).mapM (numberOfItem side line) := rfl
  rw [hfield, items_numbersText]
  refine Outcome.mapM_map_eq_ok fun n hn => ?_
  obtain ⟨hlo, hhi⟩ := h n hn
  have hstands : ItemStands (Text.decimal n.toNat) := itemStands_decimal (by omega)
  rw [numberOfItem_of_short hstands.numeral hstands.short, if_pos hstands.range,
    Text.digitsValue_decimal, Int.toNat_of_nonneg hlo]

theorem toNat_character {n : Int} (h : 0 ≤ n ∧ n ≤ 255) : (Char.ofNat n.toNat).toNat = n.toNat := by
  have hvalid : n.toNat.isValidChar := .inl (by omega)
  rw [Char.ofNat, dif_pos hvalid]
  rfl

/-- **A field of characters is read back.** -/
theorem codesOfField_charactersText (h : ∀ n ∈ ns, 0 ≤ n ∧ n ≤ 255) :
    codesOfField side line (charactersText ns) = .ok ns := by
  refine Outcome.mapM_map_eq_ok fun n hn => ?_
  have hcode := toNat_character (h n hn)
  have hn := h n hn
  rw [codeOfCharacter, hcode, if_pos (by omega), Int.toNat_of_nonneg hn.1]

theorem stepsOfField_decimal {n : Int} (hn : 0 ≤ n)
    (h : (Text.decimal n.toNat).length ≤ Text.digitLimit) :
    stepsOfField line (Text.decimal n.toNat) = .ok n := by
  have hdecimal := Text.decimal_decimal n.toNat
  refine stepsOfField_eq_ok_iff.mpr ⟨?_, hn⟩
  rw [hdecimal.trim, hdecimal.readInteger h, Text.digitsValue_decimal, Int.toNat_of_nonneg hn]

/-- A name without blanks around it is read back, and so is none. -/
theorem nameOfField_getD {name : Option (List Char)}
    (h : ∀ w ∈ name, w ≠ [] ∧ Text.trim w = w) : nameOfField (name.getD []) = name := by
  cases name with
  | none => rfl
  | some w =>
    obtain ⟨hne, htrim⟩ := h w rfl
    simp [nameOfField, htrim, hne]

/-! ## 4. Cases -/

theorem semicolon_not_mem_numbersText (ns : List Int) : ';' ∉ numbersText ns := by
  intro hmem
  rcases Text.mem_joinWith hmem with heq | ⟨w, hw, hc⟩
  · exact absurd heq (by decide)
  · obtain ⟨n, -, rfl⟩ := List.mem_map.mp hw
    exact Bool.noConfusion ((Text.decimal_decimal n.toNat).plain ';' hc)

theorem semicolon_not_mem_charactersText (h : ∀ n ∈ ns, 0 ≤ n ∧ n ≤ 255 ∧ n ≠ 59) :
    ';' ∉ charactersText ns := by
  intro hmem
  obtain ⟨n, hn, hc⟩ := List.mem_map.mp hmem
  obtain ⟨hlo, hhi, hne⟩ := h n hn
  have hcode := toNat_character ⟨hlo, hhi⟩
  rw [hc] at hcode
  have hsemicolon : ';'.toNat = 59 := rfl
  omega

/-- What is written of a case can be told apart. -/
theorem Case.Writable.plain (h : c.Writable) : c.fields.Plain where
  name := by
    cases hname : c.name with
    | none => simp [fields, hname]
    | some w => simpa [fields, hname] using (h.name w hname).2.1
  numbers := by
    rintro (_ | _)
    · exact semicolon_not_mem_numbersText c.inputs
    · exact semicolon_not_mem_numbersText c.outputs
  characters := by
    have hcharacters := List.forall_mem_append.mp h.characters
    rintro (_ | _)
    · exact semicolon_not_mem_charactersText hcharacters.1
    · exact semicolon_not_mem_charactersText hcharacters.2
  steps := Text.decimal_decimal c.maxSteps.toNat

/-- **The fields of a case come to the case.** -/
theorem Case.Writable.ofFields_fields (h : c.Writable) : Case.ofFields line c.fields = .ok c := by
  obtain ⟨hin, hout⟩ := List.forall_mem_append.mp h.numbers
  obtain ⟨hins, houts⟩ := List.forall_mem_append.mp h.characters
  have hname : nameOfField c.fields.name = c.name :=
    nameOfField_getD fun w hw => ⟨(h.name w hw).1, (h.name w hw).2.2⟩
  have hsteps : stepsOfField line c.fields.steps = .ok c.maxSteps :=
    stepsOfField_decimal h.steps.1 h.steps.2
  have hinputs : numbersOfField .input line c.fields.inputs = .ok c.inputs :=
    numbersOfField_numbersText hin
  have houtputs : numbersOfField .output line c.fields.outputs = .ok c.outputs :=
    numbersOfField_numbersText hout
  have hcins : codesOfField .input line c.fields.characterInputs = .ok c.characterInputs :=
    codesOfField_charactersText fun n hn => ⟨(hins n hn).1, (hins n hn).2.1⟩
  have hcouts : codesOfField .output line c.fields.characterOutputs = .ok c.characterOutputs :=
    codesOfField_charactersText fun n hn => ⟨(houts n hn).1, (houts n hn).2.1⟩
  rw [ofFields_eq_bind, hsteps, hinputs, houtputs, hcins, hcouts, hname]
  rfl

/-- A line comes to what its fields come to. -/
theorem ofLine_eq_of_of {raw : List Char} (h : Fields.Of raw f) :
    Case.ofLine line raw = Case.ofFields line f := by
  rw [Case.ofLine, fields_ofLine_eq_ok_iff.mpr h]
  rfl

/-- **A case that is written on a line is read back from it**: from the line of six fields, whatever
its characters are, and from the line of four if it has none. -/
theorem Case.ofLine_row (h : c.Writable) (line : Int) :
    Case.ofLine line c.fields.row = .ok c ∧
      (c.characterInputs = [] → c.characterOutputs = [] →
        Case.ofLine line c.fields.shortRow = .ok c) := by
  refine ⟨?_, fun hins houts => ?_⟩
  · rw [ofLine_eq_of_of h.plain.of_row]
    exact h.ofFields_fields
  · have hshort : { c.fields with characterInputs := [], characterOutputs := [] } = c.fields := by
      simp [fields, hins, houts, charactersText]
    rw [ofLine_eq_of_of h.plain.of_shortRow, hshort]
    exact h.ofFields_fields

/-- A case whose characters are a comma, a number sign, blanks, returns, and the first and the last
of eight bits, and whose name has a comma and a line feed in it. -/
def crowded : Case where
  name := some "echo, twice\n#".toList
  inputs := [0, 7, 999]
  outputs := [42]
  characterInputs := [44, 35, 32, 13, 10]
  characterOutputs := [0, 9, 58, 60, 255, 13, 10]
  maxSteps := 100

/-- The same without characters. -/
def sparse : Case := { crowded with characterInputs := [], characterOutputs := [] }

theorem crowded_read :
    crowded.Writable ∧ Case.ofLine 3 crowded.fields.row = .ok crowded ∧
      sparse.Writable ∧ Case.ofLine 3 sparse.fields.shortRow = .ok sparse := by
  have hname : ∀ w ∈ crowded.name, w ≠ [] ∧ ';' ∉ w ∧ Text.trim w = w := by
    rintro w ⟨⟩
    exact ⟨by decide, by decide, by decide⟩
  have hcrowded : crowded.Writable := ⟨hname, by decide, by decide, by decide⟩
  have hsparse : sparse.Writable := ⟨hname, by decide, by decide, by decide⟩
  exact ⟨hcrowded, (Case.ofLine_row hcrowded 3).1, hsparse, (Case.ofLine_row hsparse 3).2 rfl rfl⟩

end Trial
end MinionComputer
