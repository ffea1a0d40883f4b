/-
# What keeps a text from being a list of numbers

A line that says anything must be a row of digits, not too many of them, for a number below 1000,
and there must be room for it behind the numbers before (`Stands`).  The first line that is not so
ends the reading, and what is told is wrong with it is wrong with it (`Blames`).

* `number_eq_ok_iff`, `blames_of_number`: one number;
* `exists_cells_iff`, `cells_eq_error_iff`: the numbers on lines, up to the first that is wrong;
* `offendsAt_of_ofText`, `ofText_tooLong_iff`: whole texts;
* `ofText_decimals`: numbers that were written one a line are read back.
-/
import MinionComputer.NumberList
import MinionComputer.Proofs.Outcome
import MinionComputer.Proofs.Source.Problems
import MinionComputer.Proofs.Source.Writing

namespace MinionComputer
namespace NumberList

variable {count : Nat} {w text : List Char} {ls : List (Nat × List Char)} {x : Nat × List Char}

/-! ## 1. One number -/

/-- What the content of a line must satisfy behind `count` numbers. -/
structure Stands (count : Nat) (w : List Char) : Prop where
  numeral : Text.isNumeral w = true
  short : w.length ≤ Text.digitLimit
  range : Text.digitsValue w < 1000
  room : count ≠ 100

/-- What may be wrong with the content of a line behind `count` numbers. -/
inductive Blames (count : Nat) (w : List Char) : Source.Cause → Prop
  | notANumber (h : Text.isNumeral w = false) : Blames count w (.notANumber w)
  | numberRange (h : Text.isNumeral w = true) (hrange : 1000 ≤ Text.digitsValue w) :
      Blames count w (.numberRange (Text.digitsValue w))
  | tooManyNumbers (h : Text.isNumeral w = true) (hroom : count = 100) :
      Blames count w .tooManyNumbers

theorem number_of_not_isNumeral (h : Text.isNumeral w = false) :
    number count w = .error (.cause (.notANumber w)) := by
  rw [number, Text.readNatural, h]
  rfl

theorem number_of_long (h : Text.isNumeral w = true) (hlong : Text.digitLimit < w.length) :
    number count w = .error (.tooLong w.length) := by
  rw [number, Text.readNatural, h, if_pos rfl, Text.readDigits, if_neg (Nat.not_le_of_lt hlong)]

theorem number_of_short (h : Text.isNumeral w = true) (hshort : w.length ≤ Text.digitLimit) :
    number count w =
      if hv : Text.digitsValue w < 1000 then
        if count = 100 then .error (.cause .tooManyNumbers) else .ok ⟨Text.digitsValue w, hv⟩
      else .error (.cause (.numberRange (Text.digitsValue w))) := by
  rw [number, Text.readNatural, h, if_pos rfl, Text.readDigits, if_pos hshort]

/-- **Content is read exactly when it stands where it is.** -/
theorem number_eq_ok_iff {c : Cell} :
    number count w = .ok c ↔ Stands count w ∧ c.val = Text.digitsValue w := by
  cases h : Text.isNumeral w with
  | false =>
    rw [number_of_not_isNumeral h]
    refine iff_of_false (by simp) ?_
    rintro ⟨hs, -⟩
    exact Bool.noConfusion (h.symm.trans hs.numeral)
  | true =>
    by_cases hshort : w.length ≤ Text.digitLimit
    · rw [number_of_short h hshort]
      constructor
      · intro hc
        split at hc
        · next hv =>
          split at hc
          · cases hc
          · next hroom =>
            cases hc
            exact ⟨⟨h, hshort, hv, hroom⟩, rfl⟩
        · cases hc
      · rintro ⟨hs, hval⟩
        rw [dif_pos hs.range, if_neg hs.room]
        exact congrArg _ (Fin.ext hval.symm)
    · rw [number_of_long h (Nat.lt_of_not_le hshort)]
      refine iff_of_false (by simp) ?_
      rintro ⟨hs, -⟩
      exact hshort hs.short

/-- **What is told is wrong with the content of a line is wrong with it.** -/
theorem blames_of_number {c : Source.Cause} (h : number count w = .error (.cause c)) :
    Blames count w c := by
  cases hn : Text.isNumeral w with
  | false =>
    rw [number_of_not_isNumeral hn] at h
    cases h
    exact .notANumber hn
  | true =>
    by_cases hshort : w.length ≤ Text.digitLimit
    · rw [number_of_short hn hshort] at h
      split at h
      · split at h
        · next hroom =>
          cases h
          exact .tooManyNumbers hn hroom
        · cases h
      · next hv =>
        cases h
        exact .numberRange hn (Nat.le_of_not_lt hv)
    · rw [number_of_long hn (Nat.lt_of_not_le hshort)] at h
      cases h

/-- Content is refused for its length exactly when it is a row of too many digits. -/
theorem number_tooLong_iff :
    (∃ digits, number count w = .error (.tooLong digits)) ↔
      Text.isNumeral w = true ∧ Text.digitLimit < w.length := by
  constructor
  · rintro ⟨digits, h⟩
    cases hn : Text.isNumeral w with
    | false =>
      rw [number_of_not_isNumeral hn] at h
      cases h
    | true =>
      refine ⟨rfl, Nat.lt_of_not_le fun hshort => ?_⟩
      rw [number_of_short hn hshort] at h
      split at h
      · split at h <;> cases h
      · cases h
  · rintro ⟨hn, hlong⟩
    exact ⟨_, number_of_long hn hlong⟩

/-! ## 2. The numbers on lines -/

/-- How many of the lines say anything. -/
def filled (ls : List (List Char)) : Nat := (ls.filter fun l => !(content l).isEmpty).length

theorem filled_cons (l : List Char) (ls : List (List Char)) :
    filled (l :: ls) = (if content l = [] then 0 else 1) + filled ls := by
  unfold filled
  rw [List.filter_cons]
  cases content l with
  | nil => exact (Nat.zero_add _).symm
  | cons c r => exact Nat.add_comm _ 1

/-- A line that says nothing is in order behind any numbers, and any other is if its content
stands there. -/
def InOrder (count : Nat) (raw : List Char) : Prop :=
  content raw ≠ [] → Stands count (content raw)

/-- The fault of a value, at the line it is on. -/
def faultOn (x : Nat × List Char) : Source.ValueFault → Fault
  | .cause c => .problem ⟨c, x.1, Text.trim x.2⟩
  | .tooLong digits => .tooLong digits

theorem cells_cons_of_empty (h : content x.2 = []) : cells count (x :: ls) = cells count ls := by
  rw [cells, h]
  rfl

theorem cells_cons_of_filled (h : content x.2 ≠ []) :
    cells count (x :: ls) = ((number count (content x.2)).mapError (faultOn x)).bind fun c =>
      (cells (count + 1) ls).map (c :: ·) := by
  have hempty : (content x.2).isEmpty = false := by simpa using h
  rw [cells, hempty]
  cases number count (content x.2) with
  | ok c => rfl
  | error f => cases f <;> rfl

/-- **Lines are read exactly when each of them is in order behind the numbers before it.** -/
theorem exists_cells_iff : ∀ (ls : List (Nat × List Char)) (count : Nat),
    (∃ cs, cells count ls = .ok cs) ↔
      ∀ (i : Nat) (x : Nat × List Char), ls[i]? = some x →
        InOrder (count + filled ((ls.take i).map (·.2))) x.2
  | [], count => by simp [cells]
  | x :: ls, count => by
    have hfirst : (∃ cs, cells count (x :: ls) = .ok cs) ↔ InOrder count x.2 ∧
        ∃ cs, cells (count + if content x.2 = [] then 0 else 1) ls = .ok cs := by
      by_cases hx : content x.2 = []
      · rw [cells_cons_of_empty hx, if_pos hx]
        exact ⟨fun h => ⟨fun hne => absurd hx hne, h⟩, fun h => h.2⟩
      · rw [cells_cons_of_filled hx, if_neg hx]
        simp only [Outcome.bind_eq_ok_iff, Outcome.mapError_eq_ok_iff, Outcome.map_eq_ok_iff,
          number_eq_ok_iff]
        constructor
        · rintro ⟨_, c, ⟨hstands, -⟩, cs, hcs, -⟩
          exact ⟨fun _ => hstands, cs, hcs⟩
        · rintro ⟨horder, cs, hcs⟩
          exact ⟨_, ⟨_, (horder hx).range⟩, ⟨horder hx, rfl⟩, cs, hcs, rfl⟩
    rw [hfirst, exists_cells_iff ls]
    constructor
    · rintro ⟨hx, h⟩ i y hy
      cases i with
      | zero =>
        cases hy
        exact hx
      | succ i =>
        rw [List.take_succ_cons, List.map_cons, filled_cons, ← Nat.add_assoc]
        exact h i y hy
    · intro h
      refine ⟨h 0 x rfl, fun i y hy => ?_⟩
      have := h (i + 1) y hy
      rwa [List.take_succ_cons, List.map_cons, filled_cons, ← Nat.add_assoc] at this

/-- **The reading fails at the first line that is not read.** -/
theorem cells_eq_error_iff : ∀ (ls : List (Nat × List Char)) (count : Nat) (f : Fault),
    cells count ls = .error f ↔
      ∃ mid x after, ls = mid ++ x :: after ∧ (∃ cs, cells count mid = .ok cs) ∧
        content x.2 ≠ [] ∧
          ∃ v, number (count + filled (mid.map (·.2))) (content x.2) = .error v ∧ faultOn x v = f
  | [], count, f => by simp [cells]
  | x :: ls, count, f => by
    constructor
    · intro h
      -- a line that is not empty takes one of the hundred places, and the count moves on with it
      by_cases hx : content x.2 = []
      · rw [cells_cons_of_empty hx] at h
        obtain ⟨mid, y, after, rfl, hok, hne, v, hv, rfl⟩ := (cells_eq_error_iff ls count f).mp h
        refine ⟨x :: mid, y, after, rfl, by rwa [cells_cons_of_empty hx], hne, v, ?_, rfl⟩
        rwa [List.map_cons, filled_cons, if_pos hx, Nat.zero_add]
      · rw [cells_cons_of_filled hx, Outcome.bind_eq_error_iff,
          Outcome.mapError_eq_error_iff] at h
        rcases h with ⟨v, hv, rfl⟩ | ⟨c, hc, h⟩
        · exact ⟨[], x, ls, rfl, ⟨[], rfl⟩, hx, v, hv, rfl⟩
        · obtain ⟨mid, y, after, rfl, ⟨cs, hcs⟩, hne, v, hv, rfl⟩ :=
            (cells_eq_error_iff ls (count + 1) f).mp (Outcome.map_eq_error_iff.mp h)
          refine ⟨x :: mid, y, after, rfl, ⟨c :: cs, ?_⟩, hne, v, ?_, rfl⟩
          · rw [cells_cons_of_filled hx, hc, hcs]
            rfl
          · rwa [List.map_cons, filled_cons, if_neg hx, ← Nat.add_assoc]
    · rintro ⟨mid, y, after, hls, hok, hne, v, hv, rfl⟩
      cases mid with
      | nil =>
        cases hls
        rw [cells_cons_of_filled hne]
        refine Outcome.bind_eq_error_iff.mpr (.inl ?_)
        exact Outcome.mapError_eq_error_iff.mpr ⟨v, hv, rfl⟩
      | cons x' mid =>
        cases hls
        rw [List.map_cons, filled_cons] at hv
        by_cases hx : content x.2 = []
        · rw [cells_cons_of_empty hx] at hok ⊢
          rw [if_pos hx, Nat.zero_add] at hv
          exact (cells_eq_error_iff _ count _).mpr ⟨mid, y, after, rfl, hok, hne, v, hv, rfl⟩
        · obtain ⟨cs, hcs⟩ := hok
          rw [cells_cons_of_filled hx, Outcome.bind_eq_ok_iff] at hcs
          obtain ⟨c, hc, hmid⟩ := hcs
          obtain ⟨cs', hcs', -⟩ := Outcome.map_eq_ok_iff.mp hmid
          rw [if_neg hx, ← Nat.add_assoc] at hv
          rw [cells_cons_of_filled hx]
          refine Outcome.bind_eq_error_iff.mpr (.inr ⟨c, hc, ?_⟩)
          refine Outcome.map_eq_error_iff.mpr ((cells_eq_error_iff _ (count + 1) _).mpr ?_)
          exact ⟨mid, y, after, rfl, ⟨cs', hcs'⟩, hne, v, hv, rfl⟩

/-! ## 3. Whole texts -/

/-- The lines of a text before the one at index `i` are in order. -/
def InOrderBefore (text : List Char) (i : Nat) : Prop :=
  ∀ (j : Nat) (raw : List Char), j < i → (Text.lines text)[j]? = some raw →
    InOrder (filled ((Text.lines text).take j)) raw

/-- The problem names the first line of a text that is not in order by its number, counted from
one, and says what is wrong with it. -/
def OffendsAt (text : List Char) (p : Source.Problem) : Prop :=
  ∃ i raw, (Text.lines text)[i]? = some raw ∧ InOrderBefore text i ∧ p.IsOn (i + 1, raw) ∧
    content raw ≠ [] ∧ Blames (filled ((Text.lines text).take i)) (content raw) p.cause

/-- The first line of a text that is not in order is a row of more digits than are read. -/
def LongFirst (text : List Char) : Prop :=
  ∃ i raw, (Text.lines text)[i]? = some raw ∧ InOrderBefore text i ∧
    Text.isNumeral (content raw) = true ∧ Text.digitLimit < (content raw).length

theorem exists_cells_take_iff {i : Nat} :
    (∃ cs, cells 0 ((Text.numbered (Text.lines text)).take i) = .ok cs) ↔
      InOrderBefore text i := by
  have htake : ∀ j, j < i →
      (((Text.numbered (Text.lines text)).take i).take j).map (·.2) =
        (Text.lines text).take j := by
    intro j hj
    rw [List.take_take, Nat.min_eq_left (Nat.le_of_lt hj), List.map_take, Text.map_snd_numbered]
  rw [exists_cells_iff]
  constructor
  · intro h j raw hj hraw
    have := h j (j + 1, raw) (Text.getElem?_take_numbered_eq_some_iff.mpr ⟨hj, hraw, rfl⟩)
    rwa [htake j hj, Nat.zero_add] at this
  · intro h j x hx
    obtain ⟨hj, hraw, -⟩ := Text.getElem?_take_numbered_eq_some_iff.mp hx
    rw [htake j hj, Nat.zero_add]
    exact h j x.2 hj hraw

/-- **A text is refused at its first line that is not in order**, and for what is wrong with that
line. -/
theorem ofText_eq_error_iff {f : Fault} :
    ofText text = .error f ↔
      ∃ i raw, (Text.lines text)[i]? = some raw ∧ InOrderBefore text i ∧ content raw ≠ [] ∧
        ∃ v, number (filled ((Text.lines text).take i)) (content raw) = .error v ∧
          faultOn (i + 1, raw) v = f := by
  rw [ofText, cells_eq_error_iff]
  constructor
  · rintro ⟨mid, x, after, hlines, hok, hne, v, hv, rfl⟩
    obtain ⟨hline, hnumber, hmid⟩ := Text.numbered_eq_append_cons hlines
    have hpair : x = (mid.length + 1, x.2) := Prod.ext hnumber rfl
    have htexts : mid.map (·.2) = (Text.lines text).take mid.length := by
      rw [hmid, List.map_take, Text.map_snd_numbered, ← hmid]
    rw [htexts, Nat.zero_add] at hv
    rw [hmid] at hok
    exact ⟨mid.length, x.2, hline, exists_cells_take_iff.mp hok, hne, v, hv, by rw [← hpair]⟩
  · rintro ⟨i, raw, hline, hbefore, hne, v, hv, rfl⟩
    refine ⟨_, (i + 1, raw), _, Text.numbered_eq_take_append hline,
      exists_cells_take_iff.mpr hbefore, hne, v, ?_, rfl⟩
    rwa [List.map_take, Text.map_snd_numbered, Nat.zero_add]

/-- **A problem with a text is at its first line that is not in order.** -/
theorem offendsAt_of_ofText {p : Source.Problem} (h : ofText text = .error (.problem p)) :
    OffendsAt text p := by
  obtain ⟨i, raw, hline, hbefore, hne, v, hv, hf⟩ := ofText_eq_error_iff.mp h
  cases v with
  | cause c =>
    cases hf
    exact ⟨i, raw, hline, hbefore, ⟨rfl, rfl⟩, hne, blames_of_number hv⟩
  | tooLong digits => cases hf

/-- **A text ends without a problem at a line exactly when its first line that is not in order is
a row of more digits than are read.** -/
theorem ofText_tooLong_iff :
    (∃ digits, ofText text = .error (.tooLong digits)) ↔ LongFirst text := by
  constructor
  · rintro ⟨digits, h⟩
    obtain ⟨i, raw, hline, hbefore, hne, v, hv, hf⟩ := ofText_eq_error_iff.mp h
    cases v with
    | cause c => cases hf
    | tooLong d => exact ⟨i, raw, hline, hbefore, number_tooLong_iff.mp ⟨d, hv⟩⟩
  · rintro ⟨i, raw, hline, hbefore, hlong⟩
    obtain ⟨digits, hn⟩ := number_tooLong_iff.mpr hlong
    refine ⟨digits, ofText_eq_error_iff.mpr ⟨i, raw, hline, hbefore, ?_, _, hn, rfl⟩⟩
    exact (Text.isNumeral_iff.mp hlong.1).1

/-! ## 4. Numbers that were written -/

/-- A row of plain digits is all that its line has to say. -/
theorem content_of_decimal (h : Text.Decimal w) : content w = w := by
  have hcode : Source.splitComment w = (w, none) := by
    refine Source.splitComment_of_unmarked fun c hc => ?_
    have hdigit := h.plain c hc
    refine ⟨?_, ?_, ?_⟩ <;> rintro rfl <;> exact absurd hdigit (by decide)
  rw [content, hcode]
  exact h.trim

/-- A cell written in decimal stands where there is room for it. -/
theorem stands_decimal {count : Nat} (hroom : count ≠ 100) (c : Cell) :
    Stands count (Text.decimal c.val) where
  numeral := (Text.decimal_decimal c.val).isNumeral
  short := Text.length_decimal_le_limit c.isLt
  range := by
    rw [Text.digitsValue_decimal]
    exact c.isLt
  room := hroom

/-- Cells written in decimal, a line for each, are read one after another. -/
theorem cells_decimals : ∀ (cs : List Cell) (ls : List (Nat × List Char)) (count : Nat),
    (ls.map (·.2)) = (cs.map fun c => Text.decimal c.val) → count + cs.length ≤ 100 →
      cells count ls = .ok cs
  | [], [], _, _, _ => rfl
  | [], _ :: _, _, h, _ => by cases h
  | _ :: _, [], _, h, _ => by cases h
  | c :: cs, x :: ls, count, h, hsize => by
    rw [List.length_cons] at hsize
    rw [List.map_cons, List.map_cons] at h
    obtain ⟨hx, hls⟩ := List.cons.inj h
    have hcontent : content x.2 = Text.decimal c.val := by
      rw [hx, content_of_decimal (Text.decimal_decimal c.val)]
    have hne : content x.2 ≠ [] := by
      rw [hcontent]
      exact (Text.decimal_decimal c.val).ne_nil
    have hnumber : number count (content x.2) = .ok c := by
      rw [hcontent, number_eq_ok_iff, Text.digitsValue_decimal]
      exact ⟨stands_decimal (by omega) c, rfl⟩
    rw [cells_cons_of_filled hne, hnumber]
    change (cells (count + 1) ls).map (c :: ·) = _
    rw [cells_decimals cs ls (count + 1) hls (by omega)]
    rfl

/-- **Cells that were written in decimal, a line for each, are read back.** -/
theorem ofText_decimals {cs : List Cell} (hne : cs ≠ []) (hsize : cs.length ≤ 100) :
    ofText (Text.joinWith '\n' (cs.map fun c => Text.decimal c.val) ++ ['\n']) = .ok cs := by
  have hlines : Text.lines (Text.joinWith '\n' (cs.map fun c => Text.decimal c.val) ++ ['\n']) =
      cs.map fun c => Text.decimal c.val := by
    refine Text.lines_joinWith (by simpa using hne) fun l hl x hx => ?_
    obtain ⟨c, -, rfl⟩ := List.mem_map.mp hl
    exact (Text.decimal_decimal c.val).isLineEnd x hx
  refine cells_decimals cs _ 0 ?_ (by omega)
  rw [Text.map_snd_numbered, hlines]

end NumberList
end MinionComputer
