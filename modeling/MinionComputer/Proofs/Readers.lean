/-
# The readers of texts, and where each of them stops

Three readers take any text there is: that of source texts, that of lists of numbers and that of
test cases.  Each of them either gives what the text stands for, or names lines that offend, counted
from one (the three `OffendsAt`).  All three have one more end, a row of more digits than are read:
it comes without a line and without a cause, and only where nothing before it is wrong.

* `Readers.stops_located`: where each reader stops, and when it names no line;
* `Readers.long_rows_unlocated`: texts for which it names none.
-/
import MinionComputer.Proofs.NumberList
import MinionComputer.Proofs.Trial.Reading

namespace MinionComputer
namespace Readers

/-! ## 1. All texts -/

/-- **What each reader says of a text is said of a line that offends**, and a reader says nothing
of a line exactly when a row of more digits than are read stops it: in the source text that the
first pass found in order, in the first line of numbers that is not in order, or in the first case
that is not in order. -/
theorem stops_located (enabled : Bool) (text : List Char) :
    ((∀ pass first others,
        (Source.Assembly.ofSource enabled text).result = .error (.problems pass first others) →
          ∀ q ∈ first :: others, Source.OffendsAt enabled text q) ∧
      ((∃ digits,
          (Source.Assembly.ofSource enabled text).result = .error (.tooLong digits)) ↔
        (∀ x ∈ Source.numberedLines text, ∃ line, Source.Line.parse x.1 x.2 = .ok line) ∧
          Source.Fits enabled 0 [] (Source.statements text) ∧
            ¬ Source.ShortNumerals (Source.statements text))) ∧
    ((∀ p, NumberList.toMemory text = .error (.problem p) → NumberList.OffendsAt text p) ∧
      ((∃ digits, NumberList.toMemory text = .error (.tooLong digits)) ↔
        NumberList.LongFirst text)) ∧
    ((∀ c n, Trial.Case.ofText text = .error (.cause c n) → Trial.OffendsAt text c n) ∧
      ((∃ digits, Trial.Case.ofText text = .error (.tooLong digits)) ↔
        Trial.LongFirst text)) := by
  refine ⟨⟨?_, ?_⟩, ⟨?_, ?_⟩, ?_, Trial.ofText_tooLong_iff⟩
  · intro pass first others h q hq
    exact Source.offendsAt_of_ofSource h hq
  · rw [Source.ofSource_tooLong_iff, ← and_assoc]
    exact and_congr_left fun _ =>
      Source.FirstPass.problems_ofLines_eq_nil_iff _ 0 [] (Nat.zero_le 100)
  · intro p h
    exact NumberList.offendsAt_of_ofText (Outcome.map_eq_error_iff.mp h)
  · rw [← NumberList.ofText_tooLong_iff]
    exact exists_congr fun digits => Outcome.map_eq_error_iff
  · intro c n h
    exact Trial.offendsAt_of_ofText h

/-! ## 2. Rows of too many digits -/

/-- A data word with an operand. -/
def dataStatement (ds : List Char) : Source.Statement := { mnemonic := .dat, operand := some ds }

/-- A test case with one number to give. -/
def inputCase (ds : List Char) : List Char := 'n' :: ';' :: ds ++ [';', ';', '1', '0']

section Rows

variable {ds : List Char}

theorem lines_ended {l : List Char} (h : ∀ c ∈ l, Text.isLineEnd c = false) :
    Text.lines (l ++ ['\n']) = [l] :=
  Text.lines_joinWith (List.cons_ne_nil l []) (by simpa using h)

theorem plain_dataStatement (h : Text.Decimal ds) : (dataStatement ds).Plain where
  label := rfl
  fits := by
    refine ⟨?_, ?_⟩ <;> intro hform <;> cases hform
  decimal := by
    rintro w hw
    cases hw
    exact h

/-- An operand of too many digits, in a source text that is otherwise in order. -/
theorem ofSource_of_long (h : Text.Decimal ds) (hlong : Text.digitLimit < ds.length) :
    ∃ digits, (Source.Assembly.ofSource true (Source.programText [dataStatement ds])).result =
      .error (.tooLong digits) := by
  have hplain : ∀ s ∈ [dataStatement ds], s.Plain := by
    intro s hs
    rw [List.mem_singleton.mp hs]
    exact plain_dataStatement h
  have hmark : ∀ (i : Nat) (s : Source.Statement),
      [dataStatement ds][i]? = some s → s.mnemonic = .ext → i = 0 := by
    intro i s hs hm
    rw [List.mem_singleton.mp (List.mem_of_getElem? hs)] at hm
    cases hm
  have hfits : Source.Fits true 0 [] [dataStatement ds] :=
    Source.fits_of_unlabelled (fun s hs => (hplain s hs).label) (by simp) hmark (by simp)
  have hstatements : Source.statementsOn (Source.numberedLines
      (Source.programText [dataStatement ds])) = [dataStatement ds] :=
    Source.statements_programText hplain
  refine Source.ofSource_tooLong_iff.mpr ⟨?_, fun hshort => ?_⟩
  · refine (Source.FirstPass.problems_ofLines_eq_nil_iff _ 0 [] (Nat.zero_le 100)).mpr ?_
    rw [← hstatements] at hfits
    exact ⟨Source.parse_of_mem_programText hplain, hfits⟩
  · rw [Source.statements_programText hplain] at hshort
    have hle := hshort (dataStatement ds) List.mem_cons_self ds rfl h.isSignedNumeral
    rw [Text.splitSign_of_isNumeral h.isNumeral] at hle
    exact absurd hle (Nat.not_le_of_lt hlong)

/-- A number of too many digits. -/
theorem toMemory_of_long (h : Text.Decimal ds) (hlong : Text.digitLimit < ds.length) :
    ∃ digits, NumberList.toMemory (ds ++ ['\n']) = .error (.tooLong digits) := by
  have hlines := lines_ended h.isLineEnd
  obtain ⟨digits, hd⟩ : ∃ digits, NumberList.ofText (ds ++ ['\n']) = .error (.tooLong digits) := by
    refine NumberList.ofText_tooLong_iff.mpr ⟨0, ds, by rw [hlines]; rfl, ?_, ?_⟩
    · intro j raw hj
      exact absurd hj (Nat.not_lt_zero j)
    · rw [NumberList.content_of_decimal h]
      exact ⟨h.isNumeral, hlong⟩
  exact ⟨digits, Outcome.map_eq_error_iff.mpr hd⟩

/-- No digit is one of the marks that sections and items end with. -/
theorem beq_false_of_decimal (h : Text.Decimal ds) {mark : Char} (hmark : mark.isDigit = false) :
    ∀ c ∈ ds, (c == mark) = false := by
  intro c hc
  rw [beq_eq_false_iff_ne]
  rintro rfl
  rw [h.plain c hc] at hmark
  cases hmark

theorem fields_inputCase (h : Text.Decimal ds) :
    Trial.Fields.Of (inputCase ds) ⟨['n'], ds, [], [], [], ['1', '0']⟩ := by
  have hend : Text.dropEnd Trial.isReturn (inputCase ds) = inputCase ds := by
    have hsplit : inputCase ds = ('n' :: ';' :: ds ++ [';', ';', '1']) ++ ['0'] := by
      simp [inputCase]
    rw [hsplit, Text.dropEnd_eq_rdropWhile]
    exact List.rdropWhile_concat_neg _ _ _ (by decide)
  have hname : ∀ c ∈ ['n'], (c == ';') = false := List.forall_mem_singleton.mpr rfl
  refine .four ?_
  rw [Trial.sections, hend]
  calc Text.splitAt ';' (inputCase ds)
      = Text.pieces (· == ';') (['n'] ++ ';' :: (ds ++ [';', ';', '1', '0'])) := rfl
    _ = ['n'] :: Text.pieces (· == ';') (ds ++ [';', ';', '1', '0']) :=
        Text.pieces_append_cons hname rfl
    _ = ['n'] :: ds :: Text.pieces (· == ';') [';', '1', '0'] := by
        rw [Text.pieces_append_cons (beq_false_of_decimal h rfl) rfl]
    _ = [['n'], ds, [], ['1', '0']] := rfl

theorem items_of_decimal (h : Text.Decimal ds) : Trial.items ds = [ds] := by
  have hsplit : Text.splitAt ',' ds = [ds] :=
    Text.pieces_eq_singleton (beq_false_of_decimal h rfl)
  simp [Trial.items, hsplit, h.trim, h.ne_nil]

theorem isLineEnd_inputCase (h : Text.Decimal ds) :
    ∀ c ∈ inputCase ds, Text.isLineEnd c = false := by
  have hrest : ∀ c ∈ [';', ';', '1', '0'], Text.isLineEnd c = false := fun c hc =>
    Bool.eq_false_iff.mpr (List.any_eq_false.mp rfl c hc)
  intro c hc
  rcases List.mem_append.mp hc with hc | hc
  · rcases List.mem_cons.mp hc with rfl | hc
    · rfl
    · rcases List.mem_cons.mp hc with rfl | hc
      · rfl
      · exact h.isLineEnd c hc
  · exact hrest c hc

/-- A number to give of too many digits, in a test case that is otherwise in order. -/
theorem ofText_of_long (h : Text.Decimal ds) (hlong : Text.digitLimit < ds.length) :
    ∃ digits, Trial.Case.ofText (inputCase ds ++ ['\n']) = .error (.tooLong digits) := by
  have hlines := lines_ended (isLineEnd_inputCase h)
  refine Trial.ofText_tooLong_iff.mpr ⟨0, inputCase ds, by rw [hlines]; rfl, rfl, ?_, ?_⟩
  · intro j raw hj
    exact absurd hj (Nat.not_lt_zero j)
  · refine ⟨_, fields_inputCase h, ⟨10, rfl, by decide⟩, [], ds, [], ?_, by simp, h.isNumeral,
      hlong⟩
    rw [items_of_decimal h]
    rfl

end Rows

/-- One digit more than are read. -/
def longRow : List Char := List.replicate (Text.digitLimit + 1) '1'

theorem decimal_longRow : Text.Decimal longRow where
  ne_nil := List.cons_ne_nil _ _
  plain := by
    intro c hc
    rw [List.eq_of_mem_replicate hc]
    rfl

/-- **No reader names a line of these texts**: a source text of one statement, a list of one number
and a list of one test case, each with a row of one digit too many. -/
theorem long_rows_unlocated :
    (∃ digits, (Source.Assembly.ofSource true (Source.programText [dataStatement longRow])).result =
        .error (.tooLong digits)) ∧
      (∃ digits, NumberList.toMemory (longRow ++ ['\n']) = .error (.tooLong digits)) ∧
      ∃ digits, Trial.Case.ofText (inputCase longRow ++ ['\n']) = .error (.tooLong digits) := by
  have hlong : Text.digitLimit < longRow.length := by
    rw [longRow, List.length_replicate]
    exact Nat.lt_succ_self _
  exact ⟨ofSource_of_long decimal_longRow hlong, toMemory_of_long decimal_longRow hlong,
    ofText_of_long decimal_longRow hlong⟩

end Readers
end MinionComputer
