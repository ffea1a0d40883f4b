/-
# What keeps a text from being a list of test cases

A line that holds a case has four or six sections: the last is a number that is not negative, the
items of the fields of numbers are numbers up to 999, and the characters have codes up to 255
(`IsCase`).  The first line that is not skipped and is not so ends the reading, and what is told is
wrong with it is wrong with it (`Blames`).

* `exists_ofLine_iff`, `blames_of_ofLine`, `ofLine_tooLong_iff`: one line;
* `ofText_eq_error_iff`: the first line that is no case;
* `offendsAt_of_ofText`, `ofText_tooLong_iff`: whole texts.
-/
import MinionComputer.Proofs.Outcome
import MinionComputer.Proofs.Text.Numbered
import MinionComputer.Trial.Case

namespace MinionComputer
namespace Trial

/-! ## 1. What a line must satisfy -/

/-- The sections of a line. -/
def sections (raw : List Char) : List (List Char) :=
  Text.splitAt ';' (Text.dropEnd isReturn raw)

/-- The fields that a line has. -/
inductive Fields.Of (raw : List Char) : Fields → Prop
  | four {name inputs outputs steps : List Char} (h : sections raw = [name, inputs, outputs, steps]) :
      Of raw ⟨name, inputs, outputs, [], [], steps⟩
  | six {name inputs outputs characterInputs characterOutputs steps : List Char}
      (h : sections raw = [name, inputs, outputs, characterInputs, characterOutputs, steps]) :
      Of raw ⟨name, inputs, outputs, characterInputs, characterOutputs, steps⟩

/-- The items of a field of numbers. -/
def items (field : List Char) : List (List Char) :=
  ((Text.splitAt ',' field).map Text.trim).filter (!·.isEmpty)

/-- The field of numbers of a side. -/
def Fields.numbers (f : Fields) : Side → List Char
  | .input => f.inputs
  | .output => f.outputs

/-- The field of characters of a side. -/
def Fields.characters (f : Fields) : Side → List Char
  | .input => f.characterInputs
  | .output => f.characterOutputs

/-- What an item must satisfy: it is a number up to 999 and has not too many digits. -/
structure ItemStands (w : List Char) : Prop where
  numeral : Text.isNumeral w = true
  short : w.length ≤ Text.digitLimit
  range : Text.digitsValue w ≤ 999

/-- The last field is a number that is not negative. -/
def Fields.StepsStand (f : Fields) : Prop :=
  ∃ n, Text.readInteger (Text.trim f.steps) = .ok n ∧ 0 ≤ n

/-- What the fields of a line must satisfy. -/
structure Fields.InOrder (f : Fields) : Prop where
  steps : f.StepsStand
  numbers : ∀ side, ∀ w ∈ items (f.numbers side), ItemStands w
  characters : ∀ side, ∀ x ∈ f.characters side, x.toNat ≤ 255

/-- The line holds a case. -/
def IsCase (raw : List Char) : Prop := ∃ f, Fields.Of raw f ∧ f.InOrder

/-- What may be wrong with a line. -/
inductive Blames (raw : List Char) : Cause → Prop
  | sections (hfour : (sections raw).length ≠ 4) (hsix : (sections raw).length ≠ 6) :
      Blames raw (.sections (Trial.sections raw).length)
  | steps {f : Fields} (hf : Fields.Of raw f) (h : ∀ n, Text.readInteger (Text.trim f.steps) ≠ .ok n) :
      Blames raw (.steps (Text.trim f.steps))
  | negativeSteps {f : Fields} (hf : Fields.Of raw f) {n : Int}
      (h : Text.readInteger (Text.trim f.steps) = .ok n) (hn : n < 0) :
      Blames raw (.negativeSteps n)
  | number {f : Fields} {side : Side} {w : List Char} (hf : Fields.Of raw f)
      (hw : w ∈ items (f.numbers side))
      (h : ¬ (Text.isNumeral w = true ∧ Text.digitsValue w ≤ 999)) : Blames raw (.number side w)
  | character {f : Fields} {side : Side} {x : Char} (hf : Fields.Of raw f)
      (hx : x ∈ f.characters side)
      (h : 255 < x.toNat) : Blames raw (.character side x)

/-- The first item of a line that does not stand is a row of more digits than are read, and the
last field, which is read before the items, is in order. -/
def LongItem (raw : List Char) : Prop :=
  ∃ f, Fields.Of raw f ∧ f.StepsStand ∧
    ∃ before w after, items f.inputs ++ items f.outputs = before ++ w :: after ∧
      (∀ v ∈ before, ItemStands v) ∧ Text.isNumeral w = true ∧ Text.digitLimit < w.length

variable {side : Side} {line : Int} {w field raw text : List Char} {f : Fields} {fault : Fault}

/-! ## 2. Fields -/

theorem fields_ofLine_eq_ok_iff : Fields.ofLine line raw = .ok f ↔ Fields.Of raw f := by
  unfold Fields.ofLine
  constructor
  · intro h
    split at h
    · next hs =>
      cases h
      exact .four hs
    · next hs =>
      cases h
      exact .six hs
    · cases h
  · intro h
    cases h with
    | four hs =>
      unfold sections at hs
      rw [hs]
    | six hs =>
      unfold sections at hs
      rw [hs]

/-- A line without fields is told how many sections it has. -/
theorem blames_of_fields_ofLine (h : Fields.ofLine line raw = .error fault) :
    ∃ c, fault = .cause c line ∧ Blames raw c := by
  have hnone : ∀ f, ¬ Fields.Of raw f := by
    intro f hf
    rw [fields_ofLine_eq_ok_iff.mpr hf] at h
    cases h
  refine ⟨.sections (sections raw).length, ?_, .sections ?_ ?_⟩
  · unfold Fields.ofLine at h
    split at h
    · cases h
    · cases h
    · cases h
      rfl
  · intro hlength
    obtain ⟨_, _, _, _, hs⟩ := List.length_eq_four.mp hlength
    exact hnone _ (.four hs)
  · intro hlength
    match hs : sections raw, hlength with
    | [_, _, _, _, _, _], _ => exact hnone _ (.six hs)

theorem stepsOfField_eq_ok_iff {n : Int} :
    stepsOfField line field = .ok n ↔ Text.readInteger (Text.trim field) = .ok n ∧ 0 ≤ n := by
  unfold stepsOfField
  dsimp only
  split
  · next k hk =>
    rw [hk]
    split
    · next hn =>
      simp only [Except.ok.injEq]
      exact ⟨fun h => ⟨h, h ▸ hn⟩, fun h => h.1⟩
    · next hn =>
      simp only [Except.ok.injEq, reduceCtorEq, false_iff]
      rintro ⟨rfl, hpos⟩
      exact hn hpos
  · next hk => simp [hk]

/-- A last field that is no number, or a negative one, is told so; too many digits are no
exception. -/
theorem stepsOfField_eq_error (h : stepsOfField line field = .error fault) :
    (∃ n, fault = .cause (.negativeSteps n) line ∧
        Text.readInteger (Text.trim field) = .ok n ∧ n < 0) ∨
      fault = .cause (.steps (Text.trim field)) line ∧
        ∀ n, Text.readInteger (Text.trim field) ≠ .ok n := by
  unfold stepsOfField at h
  dsimp only at h
  split at h
  · next n hn =>
    split at h
    · cases h
    · next hneg =>
      cases h
      exact .inl ⟨n, rfl, hn, by omega⟩
  · next hn =>
    cases h
    refine .inr ⟨rfl, fun n h => ?_⟩
    rw [hn] at h
    cases h

theorem numberOfItem_of_not_isNumeral (h : Text.isNumeral w = false) :
    numberOfItem side line w = .error (.cause (.number side w) line) := by
  rw [numberOfItem, Text.readNatural, h]
  rfl

theorem numberOfItem_of_long (h : Text.isNumeral w = true) (hlong : Text.digitLimit < w.length) :
    numberOfItem side line w = .error (.tooLong w.length) := by
  rw [numberOfItem, Text.readNatural, h, if_pos rfl, Text.readDigits,
    if_neg (Nat.not_le_of_lt hlong)]

theorem numberOfItem_of_short (h : Text.isNumeral w = true) (hshort : w.length ≤ Text.digitLimit) :
    numberOfItem side line w =
      if Text.digitsValue w ≤ 999 then .ok (Text.digitsValue w : Int)
      else .error (.cause (.number side w) line) := by
  rw [numberOfItem, Text.readNatural, h, if_pos rfl, Text.readDigits, if_pos hshort]

/-- **An item is read exactly when it stands**, and otherwise it is told to be no number up to
999, or it has too many digits. -/
theorem numberOfItem_cases (side : Side) (line : Int) (w : List Char) :
    (ItemStands w ∧ numberOfItem side line w = .ok (Text.digitsValue w : Int)) ∨
      (¬ (Text.isNumeral w = true ∧ Text.digitsValue w ≤ 999) ∧
        numberOfItem side line w = .error (.cause (.number side w) line)) ∨
      (Text.isNumeral w = true ∧ Text.digitLimit < w.length ∧
        numberOfItem side line w = .error (.tooLong w.length)) := by
  cases h : Text.isNumeral w with
  | false =>
    exact .inr (.inl ⟨fun h' => Bool.noConfusion h'.1, numberOfItem_of_not_isNumeral h⟩)
  | true =>
    by_cases hshort : w.length ≤ Text.digitLimit
    · rw [numberOfItem_of_short h hshort]
      by_cases hrange : Text.digitsValue w ≤ 999
      · exact .inl ⟨⟨h, hshort, hrange⟩, if_pos hrange⟩
      · exact .inr (.inl ⟨fun h' => hrange h'.2, if_neg hrange⟩)
    · have hlong := Nat.lt_of_not_le hshort
      exact .inr (.inr ⟨rfl, hlong, numberOfItem_of_long h hlong⟩)

theorem exists_numberOfItem_iff : (∃ n, numberOfItem side line w = .ok n) ↔ ItemStands w := by
  rcases numberOfItem_cases side line w with ⟨hstands, h⟩ | ⟨hnot, h⟩ | ⟨-, hlong, h⟩
  · exact iff_of_true ⟨_, h⟩ hstands
  · rw [h]
    exact iff_of_false (by simp) fun hs => hnot ⟨hs.numeral, hs.range⟩
  · rw [h]
    exact iff_of_false (by simp) fun hs => Nat.not_le_of_lt hlong hs.short

theorem exists_numbersOfField_iff :
    (∃ ns, numbersOfField side line field = .ok ns) ↔ ∀ w ∈ items field, ItemStands w := by
  unfold numbersOfField
  rw [Outcome.exists_mapM_iff]
  exact forall₂_congr fun w _ => exists_numberOfItem_iff

theorem numbersOfField_eq_error_iff :
    numbersOfField side line field = .error fault ↔
      ∃ before w after, items field = before ++ w :: after ∧ (∀ v ∈ before, ItemStands v) ∧
        numberOfItem side line w = .error fault := by
  unfold numbersOfField
  rw [Outcome.mapM_eq_error_iff]
  simp only [exists_numberOfItem_iff, items]

theorem exists_codesOfField_iff :
    (∃ ns, codesOfField side line field = .ok ns) ↔ ∀ x ∈ field, x.toNat ≤ 255 := by
  unfold codesOfField
  rw [Outcome.exists_mapM_iff]
  refine forall₂_congr fun x _ => ?_
  unfold codeOfCharacter
  split <;> simp_all

theorem codesOfField_eq_error (h : codesOfField side line field = .error fault) :
    ∃ x ∈ field, 255 < x.toNat ∧ fault = .cause (.character side x) line := by
  obtain ⟨before, x, after, hfield, -, hx⟩ := (Outcome.mapM_eq_error_iff field).mp h
  unfold codeOfCharacter at hx
  split at hx
  · cases hx
  · next hcode =>
    cases hx
    exact ⟨x, by simp [hfield], Nat.lt_of_not_le hcode, rfl⟩

/-! ## 3. Lines -/

/-- The fields are read one after another. -/
theorem ofFields_eq_bind :
    Case.ofFields line f =
      (stepsOfField line f.steps).bind fun maxSteps =>
      (numbersOfField .input line f.inputs).bind fun inputs =>
      (numbersOfField .output line f.outputs).bind fun outputs =>
      (codesOfField .input line f.characterInputs).bind fun characterInputs =>
      (codesOfField .output line f.characterOutputs).map fun characterOutputs =>
      ⟨nameOfField f.name, inputs, outputs, characterInputs, characterOutputs, maxSteps⟩ :=
  rfl

/-- The items of both sides stand when those of each do. -/
theorem forall_itemStands_iff :
    (∀ side, ∀ w ∈ items (f.numbers side), ItemStands w) ↔
      (∀ w ∈ items f.inputs, ItemStands w) ∧ ∀ w ∈ items f.outputs, ItemStands w := by
  constructor
  · exact fun h => ⟨h .input, h .output⟩
  · rintro ⟨hin, hout⟩ (_ | _)
    · exact hin
    · exact hout

theorem exists_ofFields_iff : (∃ c, Case.ofFields line f = .ok c) ↔ f.InOrder := by
  simp only [ofFields_eq_bind, Outcome.bind_eq_ok_iff, Outcome.map_eq_ok_iff]
  constructor
  · rintro ⟨_, n, hn, ins, hins, outs, houts, cins, hcins, couts, hcouts, rfl⟩
    refine ⟨⟨n, stepsOfField_eq_ok_iff.mp hn⟩, forall_itemStands_iff.mpr ⟨?_, ?_⟩, ?_⟩
    · exact exists_numbersOfField_iff.mp ⟨ins, hins⟩
    · exact exists_numbersOfField_iff.mp ⟨outs, houts⟩
    · rintro (_ | _)
      · exact exists_codesOfField_iff.mp ⟨cins, hcins⟩
      · exact exists_codesOfField_iff.mp ⟨couts, hcouts⟩
  · rintro ⟨⟨n, hn⟩, hnumbers, hcharacters⟩
    obtain ⟨hin, hout⟩ := forall_itemStands_iff.mp hnumbers
    obtain ⟨ins, hins⟩ := exists_numbersOfField_iff.mpr hin
    obtain ⟨outs, houts⟩ := exists_numbersOfField_iff.mpr hout
    obtain ⟨cins, hcins⟩ := exists_codesOfField_iff.mpr (hcharacters .input)
    obtain ⟨couts, hcouts⟩ := exists_codesOfField_iff.mpr (hcharacters .output)
    exact ⟨_, n, stepsOfField_eq_ok_iff.mpr hn, ins, hins, outs, houts, cins, hcins, couts,
      hcouts, rfl⟩

/-- How the fields of a line fail, in the order in which they are read. -/
theorem ofFields_eq_error (h : Case.ofFields line f = .error fault) :
    stepsOfField line f.steps = .error fault ∨
      (f.StepsStand ∧ ∃ before w after, items f.inputs ++ items f.outputs = before ++ w :: after ∧
        (∀ v ∈ before, ItemStands v) ∧
          ∃ side, w ∈ items (f.numbers side) ∧ numberOfItem side line w = .error fault) ∨
      ∃ side, codesOfField side line (f.characters side) = .error fault := by
  simp only [ofFields_eq_bind, Outcome.bind_eq_error_iff, Outcome.map_eq_error_iff] at h
  rcases h with h | ⟨n, hn, h⟩
  · exact .inl h
  have hsteps : f.StepsStand := ⟨n, stepsOfField_eq_ok_iff.mp hn⟩
  rcases h with h | ⟨ins, hins, h⟩
  · obtain ⟨before, w, after, hitems, hbefore, hw⟩ := numbersOfField_eq_error_iff.mp h
    refine .inr (.inl ⟨hsteps, before, w, after ++ items f.outputs, ?_, hbefore, .input, ?_, hw⟩)
    · rw [hitems, List.append_assoc, List.cons_append]
    · exact hitems ▸ List.mem_append_right _ List.mem_cons_self
  have hin := exists_numbersOfField_iff.mp ⟨ins, hins⟩
  rcases h with h | ⟨outs, -, h⟩
  · obtain ⟨before, w, after, hitems, hbefore, hw⟩ := numbersOfField_eq_error_iff.mp h
    refine .inr (.inl ⟨hsteps, items f.inputs ++ before, w, after, ?_, ?_, .output, ?_, hw⟩)
    · rw [hitems, List.append_assoc]
    · intro v hv
      rcases List.mem_append.mp hv with hv | hv
      · exact hin v hv
      · exact hbefore v hv
    · exact hitems ▸ List.mem_append_right _ List.mem_cons_self
  rcases h with h | ⟨_, -, h⟩
  · exact .inr (.inr ⟨.input, h⟩)
  · exact .inr (.inr ⟨.output, h⟩)

/-- **A line is read exactly when it holds a case.** -/
theorem exists_ofLine_iff : (∃ c, Case.ofLine line raw = .ok c) ↔ IsCase raw := by
  unfold Case.ofLine IsCase
  simp only [Outcome.bind_eq_ok_iff, fields_ofLine_eq_ok_iff]
  constructor
  · rintro ⟨c, f, hf, hc⟩
    exact ⟨f, hf, exists_ofFields_iff.mp ⟨c, hc⟩⟩
  · rintro ⟨f, hf, h⟩
    obtain ⟨c, hc⟩ := exists_ofFields_iff.mpr h
    exact ⟨c, f, hf, hc⟩

/-- **What is told is wrong with a line is wrong with it**, and it is told of that line. -/
theorem blames_of_ofLine {c : Cause} {n : Int} (h : Case.ofLine line raw = .error (.cause c n)) :
    n = line ∧ Blames raw c := by
  unfold Case.ofLine at h
  rcases Outcome.bind_eq_error_iff.mp h with h | ⟨f, hf, h⟩
  · obtain ⟨c', hc', hblames⟩ := blames_of_fields_ofLine h
    cases hc'
    exact ⟨rfl, hblames⟩
  · rw [fields_ofLine_eq_ok_iff] at hf
    rcases ofFields_eq_error h with h | ⟨-, _, w, _, _, _, side, hw, h⟩ | ⟨side, h⟩
    · rcases stepsOfField_eq_error h with ⟨k, hk, hread, hneg⟩ | ⟨hk, hread⟩
      · cases hk
        exact ⟨rfl, .negativeSteps hf hread hneg⟩
      · cases hk
        exact ⟨rfl, .steps hf hread⟩
    · rcases numberOfItem_cases side line w with ⟨-, hok⟩ | ⟨hnot, herror⟩ | ⟨-, -, herror⟩
      · rw [hok] at h
        cases h
      · rw [herror] at h
        cases h
        exact ⟨rfl, .number hf hw hnot⟩
      · rw [herror] at h
        cases h
    · obtain ⟨x, hx, hcode, hk⟩ := codesOfField_eq_error h
      cases hk
      exact ⟨rfl, .character hf hx hcode⟩

/-- **A line is refused without a cause exactly when its first item that does not stand is a row
of more digits than are read.** -/
theorem ofLine_tooLong_iff :
    (∃ digits, Case.ofLine line raw = .error (.tooLong digits)) ↔ LongItem raw := by
  unfold Case.ofLine
  constructor
  · rintro ⟨digits, h⟩
    rcases Outcome.bind_eq_error_iff.mp h with h | ⟨f, hf, h⟩
    · obtain ⟨c, hc, -⟩ := blames_of_fields_ofLine h
      cases hc
    · rw [fields_ofLine_eq_ok_iff] at hf
      rcases ofFields_eq_error h with h | ⟨hsteps, before, w, after, hsplit, hbefore, side, -, h⟩ |
          ⟨side, h⟩
      · rcases stepsOfField_eq_error h with ⟨k, hk, -⟩ | ⟨hk, -⟩ <;> cases hk
      · refine ⟨f, hf, hsteps, before, w, after, hsplit, hbefore, ?_⟩
        rcases numberOfItem_cases side line w with ⟨-, hok⟩ | ⟨-, herror⟩ | ⟨hnum, hlong, -⟩
        · rw [hok] at h
          cases h
        · rw [herror] at h
          cases h
        · exact ⟨hnum, hlong⟩
      · obtain ⟨x, -, -, hk⟩ := codesOfField_eq_error h
        cases hk
  · rintro ⟨f, hf, ⟨n, hn⟩, before, w, after, hsplit, hbefore, hnum, hlong⟩
    refine ⟨w.length, Outcome.bind_eq_error_iff.mpr (.inr ⟨f, fields_ofLine_eq_ok_iff.mpr hf, ?_⟩)⟩
    have hw : ∀ side, numberOfItem side line w = .error (.tooLong w.length) := fun side =>
      numberOfItem_of_long hnum hlong
    simp only [ofFields_eq_bind, Outcome.bind_eq_error_iff, Outcome.map_eq_error_iff]
    refine .inr ⟨n, stepsOfField_eq_ok_iff.mpr hn, ?_⟩
    -- the item stands in the first of the two fields, or in the second behind all of the first
    rcases List.append_eq_append_iff.mp hsplit with ⟨more, hmore, houts⟩ | ⟨more, hins, hmore⟩
    · have hin : ∀ v ∈ items f.inputs, ItemStands v := fun v hv =>
        hbefore v (hmore ▸ List.mem_append_left _ hv)
      obtain ⟨ins, hok⟩ := exists_numbersOfField_iff.mpr hin
      refine .inr ⟨ins, hok, .inl (numbersOfField_eq_error_iff.mpr ?_)⟩
      exact ⟨more, w, after, houts, fun v hv => hbefore v (hmore ▸ List.mem_append_right _ hv),
        hw .output⟩
    · cases more with
      | nil =>
        rw [List.append_nil] at hins
        obtain ⟨ins, hok⟩ := exists_numbersOfField_iff.mpr (hins ▸ hbefore)
        refine .inr ⟨ins, hok, .inl (numbersOfField_eq_error_iff.mpr ?_)⟩
        exact ⟨[], w, after, hmore.symm, by simp, hw .output⟩
      | cons v more =>
        cases hmore
        exact .inl (numbersOfField_eq_error_iff.mpr ⟨before, w, more, hins, hbefore, hw .input⟩)

/-! ## 4. Whole texts -/

/-- The lines of a text before the one at index `i` are skipped or hold cases. -/
def CasesBefore (text : List Char) (i : Nat) : Prop :=
  ∀ (j : Nat) (raw : List Char), j < i → (Text.lines text)[j]? = some raw →
    isSkipped raw = false → IsCase raw

/-- The cause is told of the first line that is neither skipped nor a case, by its number, counted
from one, and it is what is wrong with that line. -/
def OffendsAt (text : List Char) (c : Cause) (n : Int) : Prop :=
  ∃ (i : Nat) (raw : List Char), (Text.lines text)[i]? = some raw ∧ isSkipped raw = false ∧
    CasesBefore text i ∧ n = i + 1 ∧ Blames raw c

/-- The first line of a text that is neither skipped nor a case has an item of more digits than
are read. -/
def LongFirst (text : List Char) : Prop :=
  ∃ i raw, (Text.lines text)[i]? = some raw ∧ isSkipped raw = false ∧ CasesBefore text i ∧
    LongItem raw

/-- The lines that are not skipped, before one of them. -/
theorem exists_of_filter_eq {before after : List (Nat × List Char)} {x : Nat × List Char}
    (h : ((Text.numbered (Text.lines text)).filter fun x => !isSkipped x.2) =
      before ++ x :: after) :
    ∃ i, (Text.lines text)[i]? = some x.2 ∧ x.1 = i + 1 ∧ isSkipped x.2 = false ∧
      before = ((Text.numbered (Text.lines text)).take i).filter fun x => !isSkipped x.2 := by
  obtain ⟨l₁, l₂, hl, rfl, hl₂⟩ := List.filter_eq_append_iff.mp h
  obtain ⟨skipped, rest, rfl, hskipped, hx, -⟩ := List.filter_eq_cons_iff.mp hl₂
  rw [← List.append_assoc] at hl
  obtain ⟨hline, hnumber, hbefore⟩ := Text.numbered_eq_append_cons hl
  refine ⟨(l₁ ++ skipped).length, hline, hnumber, by simpa using hx, ?_⟩
  rw [← hbefore, List.filter_append, List.filter_eq_nil_iff.mpr hskipped, List.append_nil]

theorem casesBefore_iff {i : Nat} :
    (∀ y ∈ ((Text.numbered (Text.lines text)).take i).filter fun x => !isSkipped x.2,
      IsCase y.2) ↔ CasesBefore text i := by
  constructor
  · intro h j raw hj hraw hskip
    refine h (j + 1, raw) (List.mem_filter.mpr ⟨?_, by simp [hskip]⟩)
    exact List.mem_of_getElem?
      (Text.getElem?_take_numbered_eq_some_iff.mpr ⟨hj, hraw, rfl⟩)
  · intro h y hy
    obtain ⟨hmem, hskip⟩ := List.mem_filter.mp hy
    obtain ⟨j, hj⟩ := List.mem_iff_getElem?.mp hmem
    obtain ⟨hlt, hraw, -⟩ := Text.getElem?_take_numbered_eq_some_iff.mp hj
    exact h j y.2 hlt hraw (by simpa using hskip)

/-- **A text is refused at its first line that is neither skipped nor a case**, and as that line
is. -/
theorem ofText_eq_error_iff :
    Case.ofText text = .error fault ↔
      ∃ (i : Nat) (raw : List Char), (Text.lines text)[i]? = some raw ∧ isSkipped raw = false ∧
        CasesBefore text i ∧ Case.ofLine (i + 1) raw = .error fault := by
  unfold Case.ofText
  rw [Outcome.mapM_eq_error_iff]
  simp only [exists_ofLine_iff]
  constructor
  · rintro ⟨before, x, after, hfilter, hbefore, hx⟩
    obtain ⟨i, hline, hnumber, hskip, rfl⟩ := exists_of_filter_eq hfilter
    refine ⟨i, x.2, hline, hskip, casesBefore_iff.mp hbefore, ?_⟩
    rw [hnumber] at hx
    exact hx
  · rintro ⟨i, raw, hline, hskip, hbefore, hx⟩
    have hsplit := congrArg (List.filter fun x => !isSkipped x.2)
      (Text.numbered_eq_take_append hline)
    rw [List.filter_append, List.filter_cons_of_pos (by simpa using hskip)] at hsplit
    exact ⟨_, (i + 1, raw), _, hsplit, casesBefore_iff.mpr hbefore, hx⟩

/-- **A cause is told of the first line that is neither skipped nor a case.** -/
theorem offendsAt_of_ofText {c : Cause} {n : Int} (h : Case.ofText text = .error (.cause c n)) :
    OffendsAt text c n := by
  obtain ⟨i, raw, hline, hskip, hbefore, hraw⟩ := ofText_eq_error_iff.mp h
  obtain ⟨rfl, hblames⟩ := blames_of_ofLine hraw
  exact ⟨i, raw, hline, hskip, hbefore, rfl, hblames⟩

/-- **A text ends without a cause exactly when its first line that is neither skipped nor a case
has an item of more digits than are read.** -/
theorem ofText_tooLong_iff :
    (∃ digits, Case.ofText text = .error (.tooLong digits)) ↔ LongFirst text := by
  constructor
  · rintro ⟨digits, h⟩
    obtain ⟨i, raw, hline, hskip, hbefore, hraw⟩ := ofText_eq_error_iff.mp h
    exact ⟨i, raw, hline, hskip, hbefore, ofLine_tooLong_iff.mp ⟨digits, hraw⟩⟩
  · rintro ⟨i, raw, hline, hskip, hbefore, hlong⟩
    obtain ⟨digits, hraw⟩ := ofLine_tooLong_iff.mpr hlong
    exact ⟨digits, ofText_eq_error_iff.mpr ⟨i, raw, hline, hskip, hbefore, hraw⟩⟩

end Trial
end MinionComputer
