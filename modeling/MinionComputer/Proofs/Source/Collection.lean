/-
# Every problem is collected, once and in order

Assembling does not stop at the first problem.  The first pass goes on behind a line that cannot be
read and behind a statement that cannot stand where it stands, and tells one problem for each of
them; of the statements past the hundredth it tells the first only.  If it found nothing, the second
pass does the same for every operand without a value in range.  What is faulty is said here line by
line, without a pass (`FirstFault`, `SecondFault`): a line that cannot be read takes no address, a
statement that is faulty takes one all the same, and of two faults of a statement only the first
counts.

* `Collects`: the problems are those of the faulty lines, one each, by increasing line numbers;
* `FirstPass.mem_problems_ofLines_iff`, `mem_secondProblems_iff`: what each pass collects;
* `Raises`: how what was collected is raised;
* `problems_collected`: both passes.
-/
import MinionComputer.Proofs.Source.Outline

namespace MinionComputer
namespace Source

variable {enabled : Bool} {next : Nat} {symbols : Symbols} {source raw : List Char}
  {before program : List Statement} {s : Statement} {c : Cause} {p q : Problem}
  {ls : List (Nat × List Char)}

/-! ## 1. Faults -/

/-- What is wrong with a statement in its place, behind the statements `before`: its label is taken,
where the first statement that has it is told; if not, it is extended while that is off; if not that
either, it is the mark of extended mode and not the first statement. -/
inductive PlaceFault (enabled : Bool) (before : List Statement) (s : Statement) : Cause → Prop
  | duplicate {l : List Char} {a : Address} (hl : s.label = some l)
      (ha : (before.findIdx? fun t => t.label == some l) = some a.val) :
      PlaceFault enabled before s (.duplicateLabel l a)
  | extensionOff (hfresh : ∀ l, s.label = some l → l ∉ labels before) (hoff : enabled = false)
      (hm : s.mnemonic.isExtended = true) : PlaceFault enabled before s (.extensionOff s.mnemonic)
  | misplacedMark (hfresh : ∀ l, s.label = some l → l ∉ labels before) (hon : enabled = true)
      (hm : s.mnemonic = .ext) (hne : before ≠ []) : PlaceFault enabled before s .misplacedMark

/-- What the first pass finds wrong with a line behind the statements `before`. -/
inductive FirstFault (enabled : Bool) (before : List Statement) (raw : List Char) : Cause → Prop
  /-- It cannot be read. -/
  | unreadable {c : Cause} (h : Line.content raw = .error c) : FirstFault enabled before raw c
  /-- Its statement is one of the first hundred, and cannot stand there. -/
  | misplaced {s : Statement} {c : Cause} (hs : Line.content raw = .ok (some s))
      (hroom : before.length < 100) (h : PlaceFault enabled before s c) :
      FirstFault enabled before raw c
  /-- Its statement is the one behind the hundredth. -/
  | tooLarge {s : Statement} (hs : Line.content raw = .ok (some s)) (hfull : before.length = 100) :
      FirstFault enabled before raw .programTooLarge

/-- A value that is out of range. -/
def rangeCause (k : Mnemonic) (v : Int) : Cause :=
  if k = .dat then .dataRange v else .addressRange v

/-- What the second pass finds wrong with a statement of the program: its operand is neither a
number nor a label, or is a label of no statement, or has a value that is out of range. -/
inductive SecondFault (program : List Statement) (s : Statement) : Cause → Prop
  | malformed {w : List Char} (ho : s.operand = some w) (hnumber : Text.isSignedNumeral w = false)
      (hlabel : isLabel w = false) : SecondFault program s (.invalidOperand w)
  | undefined {w : List Char} (ho : s.operand = some w) (hlabel : isLabel w = true)
      (hnone : w ∉ labels program) : SecondFault program s (.undefinedLabel w)
  | outOfRange {w : List Char} {v : Int} (ho : s.operand = some w) (hv : Denotes program w v)
      (hrange : ¬ InRange s.mnemonic v) : SecondFault program s (rangeCause s.mnemonic v)

/-- A problem names the number of a line and holds the line without the blanks at its ends. -/
structure Problem.IsOn (q : Problem) (x : Nat × List Char) : Prop where
  line : q.line = x.1
  text : q.text = Text.trim x.2

/-- The statements on the lines before the line at index `i`. -/
def statementsBefore (source : List Char) (i : Nat) : List Statement :=
  statementsOn ((numberedLines source).take i)

/-- The problems are those of the faulty lines of a text: their line numbers increase, so there is
one for each of these lines at most, and each tells the number of its line, counted from one, and
the line without the blanks at its ends. -/
structure Collects (source : List Char) (faulty : Nat → List Char → Cause → Prop)
    (ps : List Problem) : Prop where
  increasing : ps.Pairwise fun p q => p.line < q.line
  mem_iff : ∀ q : Problem, q ∈ ps ↔ ∃ i raw, (Text.lines source)[i]? = some raw ∧
    faulty i raw q.cause ∧ q.line = (i + 1 : Nat) ∧ q.text = Text.trim raw

/-- What a pass collected is raised: a single problem itself, with its cause, its line and the text
of that and nothing listed; several as one error without a cause at no line, which lists them. -/
structure Raises (result : Except AssemblyFault Memory) (pass : Pass) (ps : List Problem) :
    Prop where
  single : ∀ p, ps = [p] → ∃ f, result = .error f ∧
    f.raised? = some ⟨some p.cause, p.message, p.line, p.text, []⟩
  several : 2 ≤ ps.length → ∃ f, result = .error f ∧ f.raised? = some
    ⟨none, pass.name ++ " errors:\n" ++ String.intercalate "\n" (ps.map Problem.message), 0, [],
      ps⟩
  /-- A problem is told with the number of its line, if it is on one. -/
  told : ∀ p ∈ ps, p.line ≠ 0 →
    p.message = "Line " ++ Text.integer p.line ++ ": " ++ p.cause.message

/-! ## 2. A statement in its place -/

/-- What the first pass carries behind the statements `before`: how many there are and, as long as
there are addresses for them, the index of the first that has a label. -/
structure Tracks (next : Nat) (symbols : Symbols) (before : List Statement) : Prop where
  count : next = before.length
  first : next ≤ 100 → ∀ l, (symbols.address? l).map (·.val) =
    before.findIdx? fun t => t.label == some l

theorem findIdx?_label_eq_none_iff {l : List Char} :
    (before.findIdx? fun t => t.label == some l) = none ↔ l ∉ labels before := by
  rw [List.findIdx?_eq_none_iff, labels, List.mem_filterMap]
  simp

/-- A statement whose label is taken has no other fault. -/
theorem placeFault_iff_of_taken {l : List Char} {a : Address} (hl : s.label = some l)
    (ha : (before.findIdx? fun t => t.label == some l) = some a.val) :
    PlaceFault enabled before s c ↔ c = .duplicateLabel l a := by
  have htaken : ¬ ∀ l, s.label = some l → l ∉ labels before := by
    intro hfresh
    rw [findIdx?_label_eq_none_iff.mpr (hfresh l hl)] at ha
    cases ha
  constructor
  · intro h
    cases h with
    | @duplicate l' a' hl' ha' =>
      cases hl.symm.trans hl'
      rw [Fin.ext (Option.some.inj (ha.symm.trans ha'))]
    | extensionOff hfresh _ _ => exact absurd hfresh htaken
    | misplacedMark hfresh _ _ _ => exact absurd hfresh htaken
  · rintro rfl
    exact .duplicate hl ha

/-- Any other is at fault for its instruction word, if at all. -/
theorem placeFault_iff_of_fresh (hfresh : ∀ l, s.label = some l → l ∉ labels before) :
    PlaceFault enabled before s c ↔
      (enabled = false ∧ s.mnemonic.isExtended = true ∧ c = .extensionOff s.mnemonic) ∨
        (enabled = true ∧ s.mnemonic = .ext ∧ before ≠ [] ∧ c = .misplacedMark) := by
  constructor
  · intro h
    cases h with
    | duplicate hl ha =>
      rw [findIdx?_label_eq_none_iff.mpr (hfresh _ hl)] at ha
      cases ha
    | extensionOff _ hoff hm => exact .inl ⟨hoff, hm, rfl⟩
    | misplacedMark _ hon hm hne => exact .inr ⟨hon, hm, hne, rfl⟩
  · rintro (⟨hoff, hm, rfl⟩ | ⟨hon, hm, hne, rfl⟩)
    · exact .extensionOff hfresh hoff hm
    · exact .misplacedMark hfresh hon hm hne

theorem address?_append (xs ys : Symbols) (l : List Char) :
    Symbols.address? (xs ++ ys) l = (xs.address? l).or (ys.address? l) := by
  unfold Symbols.address?
  rw [List.find?_append, Option.map_or]

theorem tracks_nil : Tracks 0 [] [] := ⟨rfl, fun _ _ => rfl⟩

namespace Tracks

variable {x : Placed}

/-- The labels that are bound are those before. -/
theorem mem_names_iff (h : Tracks next symbols before) (hnext : next ≤ 100) {l : List Char} :
    l ∈ symbols.names ↔ l ∈ labels before := by
  rw [← not_iff_not, ← address?_eq_none_iff, ← findIdx?_label_eq_none_iff, ← h.first hnext,
    Option.map_eq_none_iff]

/-- **The first pass tells what is wrong with a statement in its place.** -/
theorem bind_iff (h : Tracks x.address.val symbols before) :
    (x.bind enabled symbols).2 = some q ↔
      ∃ c, q = x.problem c ∧ PlaceFault enabled before x.statement c := by
  have hnext : x.address.val ≤ 100 := Nat.le_of_lt x.address.isLt
  have hnil : before = [] ↔ x.address = 0 := by
    rw [← List.length_eq_zero_iff, ← h.count, Fin.ext_iff]
    rfl
  rcases taken_or_fresh symbols x.statement with ⟨l, a, hl, ha⟩ | hfresh
  · have hidx : (before.findIdx? fun t => t.label == some l) = some a.val := by
      rw [← h.first hnext l, ha, Option.map_some]
    simp only [bind_of_taken enabled hl ha, placeFault_iff_of_taken hl hidx, exists_eq_right]
    exact Option.some_inj.trans eq_comm
  · have hfresh' : ∀ l, x.statement.label = some l → l ∉ labels before := fun l hl hmem =>
      hfresh l hl ((h.mem_names_iff hnext).mpr hmem)
    rw [bind_of_fresh enabled hfresh]
    simp only [placeFault_iff_of_fresh hfresh', ne_eq, hnil]
    cases enabled with
    | false =>
      -- while extended mode is off, its mark is refused with the other extended instructions
      have hext : x.statement.mnemonic = .ext → x.statement.mnemonic.isExtended = true := by
        intro hm
        rw [hm]
        rfl
      by_cases hm : x.statement.mnemonic.isExtended = true
      · simpa [hm] using eq_comm
      · simp [hm, mt hext hm]
    | true =>
      by_cases hm : x.statement.mnemonic = .ext ∧ ¬ x.address = 0
      · simpa [hm.1, hm.2] using eq_comm
      · simp [hm]

/-- A statement that gets an address is counted, and its label is bound unless it was. -/
theorem placed (enabled : Bool) (h : Tracks x.address.val symbols before) :
    Tracks (x.address.val + 1) (x.bind enabled symbols).1 (before ++ [x.statement]) := by
  have hnext : x.address.val ≤ 100 := Nat.le_of_lt x.address.isLt
  refine ⟨by rw [List.length_append, ← h.count]; rfl, fun _ l => ?_⟩
  have hfirst := h.first hnext l
  rw [List.findIdx?_append]
  rcases taken_or_fresh symbols x.statement with ⟨taken, first, htaken, ha⟩ | hfresh
  · rw [bind_of_taken enabled htaken ha, hfirst]
    cases hidx : before.findIdx? fun t => t.label == some l with
    | some i => rfl
    | none =>
      have hne : taken ≠ l := by
        rintro rfl
        rw [hidx, ha] at hfirst
        cases hfirst
      simp [htaken, hne, List.findIdx?_cons]
  · rw [bind_of_fresh enabled hfresh, address?_append, Option.map_or, hfirst]
    congr 1
    cases hl : x.statement.label with
    | none => simp [Symbols.address?, hl, List.findIdx?_cons]
    | some l' =>
      by_cases heq : l' = l
      · simp [Symbols.address?, hl, heq, h.count, List.findIdx?_cons]
      · simp [Symbols.address?, hl, heq, List.findIdx?_cons]

/-- A statement behind the hundredth is counted. -/
theorem beyond (h : Tracks next symbols before) (hnext : 100 ≤ next) (s : Statement) :
    Tracks (next + 1) symbols (before ++ [s]) :=
  ⟨by rw [List.length_append, ← h.count]; rfl, fun hle => absurd hle (by omega)⟩

end Tracks

/-! ## 3. The first pass -/

/-- A line that cannot be read has no other fault. -/
theorem firstFault_iff_of_error {c' : Cause} (h : Line.content raw = .error c) :
    FirstFault enabled before raw c' ↔ c' = c := by
  constructor
  · intro hfault
    cases hfault with
    | unreadable hc => exact Except.error.inj (hc.symm.trans h)
    | misplaced hs _ _ => cases h.symm.trans hs
    | tooLarge hs _ => cases h.symm.trans hs
  · rintro rfl
    exact .unreadable h

/-- A line without a statement has no fault. -/
theorem not_firstFault_of_blank (h : Line.content raw = .ok none) :
    ¬ FirstFault enabled before raw c := by
  intro hfault
  cases hfault with
  | unreadable hc => cases h.symm.trans hc
  | misplaced hs _ _ => cases h.symm.trans hs
  | tooLarge hs _ => cases h.symm.trans hs

/-- A statement cannot stand where it stands, or there is no room for it. -/
theorem firstFault_iff_of_statement (h : Line.content raw = .ok (some s)) :
    FirstFault enabled before raw c ↔ (before.length < 100 ∧ PlaceFault enabled before s c) ∨
      (before.length = 100 ∧ c = .programTooLarge) := by
  constructor
  · intro hfault
    cases hfault with
    | unreadable hc => cases h.symm.trans hc
    | misplaced hs hroom hplace =>
      cases h.symm.trans hs
      exact .inl ⟨hroom, hplace⟩
    | tooLarge hs hfull => exact .inr ⟨hfull, rfl⟩
  · rintro (⟨hroom, hplace⟩ | ⟨hfull, rfl⟩)
    · exact .misplaced h hroom hplace
    · exact .tooLarge h hfull

theorem isOn_iff {x : Nat × List Char} : q.IsOn x ↔ q = ⟨q.cause, x.1, Text.trim x.2⟩ := by
  obtain ⟨c, line, text⟩ := q
  constructor
  · rintro ⟨rfl, rfl⟩
    rfl
  · intro hq
    injection hq with _ hline htext
    exact ⟨hline, htext⟩

namespace FirstPass

/-- The first pass over `x` and `ls` adds the problem `head`, if it is one, to those that it finds
further down; `head` is what is wrong with `x`, and the pass goes on with what it knows then. -/
structure Adds (enabled : Bool) (next : Nat) (symbols : Symbols) (before : List Statement)
    (x : Nat × List Char) (ls : List (Nat × List Char)) (head : Option Problem) (next' : Nat)
    (symbols' : Symbols) : Prop where
  problems : (ofLines enabled next symbols (x :: ls)).problems =
    head.toList ++ (ofLines enabled next' symbols' ls).problems
  tracks : Tracks next' symbols' (before ++ (statementOn x).toList)
  head_iff : ∀ q : Problem, head = some q ↔ FirstFault enabled before x.2 q.cause ∧ q.IsOn x

variable {x : Nat × List Char}

theorem adds_of_error (enabled : Bool) (h : Tracks next symbols before)
    (ls : List (Nat × List Char)) (hcontent : Line.content x.2 = .error c) :
    Adds enabled next symbols before x ls (some ⟨c, x.1, Text.trim x.2⟩) next symbols := by
  refine ⟨?_, ?_, fun q => ?_⟩
  · simp only [ofLines, Line.parse_of_content_error hcontent]
    rfl
  · rw [statementOn_of_content_error hcontent, Option.toList_none, List.append_nil]
    exact h
  · rw [firstFault_iff_of_error hcontent, isOn_iff]
    constructor
    · rintro ⟨⟩
      exact ⟨rfl, rfl⟩
    · rintro ⟨hcause, hq⟩
      rw [hq, hcause]

theorem adds_of_blank (enabled : Bool) (h : Tracks next symbols before)
    (ls : List (Nat × List Char)) (hcontent : Line.content x.2 = .ok none) :
    Adds enabled next symbols before x ls none next symbols := by
  refine ⟨?_, ?_, fun q => ?_⟩
  · rw [ofLines_cons_of_blank (Line.parse_of_content hcontent x.1) rfl]
    rfl
  · rw [statementOn_of_content hcontent, Option.toList_none, List.append_nil]
    exact h
  · exact iff_of_false (fun hq => by cases hq) fun hq => not_firstFault_of_blank hcontent hq.1

/-- A statement that gets an address adds what is wrong with it in its place. -/
theorem adds_of_room (enabled : Bool) (h : Tracks next symbols before)
    (ls : List (Nat × List Char)) (hcontent : Line.content x.2 = .ok (some s))
    (hroom : next < 100) : ∃ p : Placed, Adds enabled next symbols before x ls
      (p.bind enabled symbols).2 (next + 1) (p.bind enabled symbols).1 := by
  refine ⟨⟨s, ⟨next, hroom⟩, x.1, x.2⟩, ?_, ?_, fun q => ?_⟩
  · simp only [ofLines, Line.parse_of_content hcontent, dif_pos hroom]
  · rw [statementOn_of_content hcontent]
    exact Tracks.placed (x := ⟨s, ⟨next, hroom⟩, x.1, x.2⟩) enabled h
  · rw [Tracks.bind_iff (x := ⟨s, ⟨next, hroom⟩, x.1, x.2⟩) h,
      firstFault_iff_of_statement hcontent, ← h.count]
    constructor
    · rintro ⟨c, rfl, hc⟩
      exact ⟨.inl ⟨hroom, hc⟩, rfl, rfl⟩
    · rintro ⟨⟨-, hc⟩ | ⟨hfull, -⟩, hon⟩
      · exact ⟨q.cause, isOn_iff.mp hon, hc⟩
      · omega

/-- Of the statements that get no address, the first adds that there are too many. -/
theorem adds_of_full (enabled : Bool) (h : Tracks next symbols before)
    (ls : List (Nat × List Char)) (hcontent : Line.content x.2 = .ok (some s))
    (hfull : ¬ next < 100) : Adds enabled next symbols before x ls
      (if next = 100 then some ⟨.programTooLarge, x.1, Text.trim x.2⟩ else none) (next + 1)
      symbols := by
  refine ⟨?_, ?_, fun q => ?_⟩
  · simp only [ofLines, Line.parse_of_content hcontent, dif_neg hfull]
    split <;> rfl
  · rw [statementOn_of_content hcontent]
    exact h.beyond (Nat.le_of_not_lt hfull) s
  · rw [firstFault_iff_of_statement hcontent, ← h.count, isOn_iff]
    constructor
    · intro hq
      split at hq
      · next hnext =>
        cases hq
        exact ⟨.inr ⟨hnext, rfl⟩, rfl⟩
      · cases hq
    · rintro ⟨⟨hroom, -⟩ | ⟨hnext, hcause⟩, hq⟩
      · exact absurd hroom hfull
      · rw [if_pos hnext, hq, hcause]

/-- **One line of the first pass** adds a problem exactly if it is faulty. -/
theorem exists_adds (enabled : Bool) (h : Tracks next symbols before) (x : Nat × List Char)
    (ls : List (Nat × List Char)) : ∃ head next' symbols',
      Adds enabled next symbols before x ls head next' symbols' := by
  cases hcontent : Line.content x.2 with
  | error c => exact ⟨_, _, _, adds_of_error enabled h ls hcontent⟩
  | ok o =>
    cases o with
    | none => exact ⟨_, _, _, adds_of_blank enabled h ls hcontent⟩
    | some s =>
      by_cases hroom : next < 100
      · obtain ⟨p, hp⟩ := adds_of_room enabled h ls hcontent hroom
        exact ⟨_, _, _, hp⟩
      · exact ⟨_, _, _, adds_of_full enabled h ls hcontent hroom⟩

/-- **The problems of the first pass are those of the faulty lines.** -/
theorem mem_problems_ofLines_iff : ∀ (ls : List (Nat × List Char)) (next : Nat)
    (symbols : Symbols) (before : List Statement), Tracks next symbols before →
      (q ∈ (ofLines enabled next symbols ls).problems ↔ ∃ mid x after, ls = mid ++ x :: after ∧
        FirstFault enabled (before ++ statementsOn mid) x.2 q.cause ∧ q.IsOn x)
  | [], _, _, _, _ => by simp [ofLines]
  | x :: ls, next, symbols, before, h => by
    obtain ⟨head, next', symbols', hadds⟩ := exists_adds enabled h x ls
    rw [hadds.problems, List.mem_append, Option.mem_toList, hadds.head_iff,
      mem_problems_ofLines_iff ls next' symbols' _ hadds.tracks]
    constructor
    · rintro (⟨hfault, hon⟩ | ⟨mid, y, after, rfl, hfault, hon⟩)
      · refine ⟨[], x, ls, rfl, ?_, hon⟩
        change FirstFault enabled (before ++ []) x.2 q.cause
        rwa [List.append_nil]
      · refine ⟨x :: mid, y, after, rfl, ?_, hon⟩
        rwa [statementsOn_cons, ← List.append_assoc]
    · rintro ⟨mid, y, after, heq, hfault, hon⟩
      cases mid with
      | nil =>
        cases heq
        change FirstFault enabled (before ++ []) x.2 q.cause at hfault
        rw [List.append_nil] at hfault
        exact .inl ⟨hfault, hon⟩
      | cons z mid =>
        cases heq
        rw [statementsOn_cons, ← List.append_assoc] at hfault
        exact .inr ⟨mid, y, after, rfl, hfault, hon⟩

/-- **The problems of the first pass are in the order of the lines.** -/
theorem pairwise_problems_ofLines : ∀ (ls : List (Nat × List Char)) (next : Nat)
    (symbols : Symbols) (before : List Statement), Tracks next symbols before →
      (ls.Pairwise fun x y => x.1 < y.1) →
        (ofLines enabled next symbols ls).problems.Pairwise fun p q => p.line < q.line
  | [], _, _, _, _, _ => List.Pairwise.nil
  | x :: ls, next, symbols, before, h, hls => by
    obtain ⟨hx, hls⟩ := List.pairwise_cons.mp hls
    obtain ⟨head, next', symbols', hadds⟩ := exists_adds enabled h x ls
    have ih := pairwise_problems_ofLines ls next' symbols' _ hadds.tracks hls
    rw [hadds.problems]
    cases hhead : head with
    | none => exact ih
    | some p =>
      refine List.pairwise_cons.mpr ⟨fun q hq => ?_, ih⟩
      have hp := ((hadds.head_iff p).mp hhead).2.line
      obtain ⟨mid, y, after, rfl, -, hon⟩ :=
        (mem_problems_ofLines_iff ls next' symbols' _ hadds.tracks).mp hq
      have hlt : x.1 < y.1 := hx y (List.mem_append_right mid List.mem_cons_self)
      rw [hp, hon.line]
      exact_mod_cast hlt

end FirstPass

/-- The lines of a text before one, that one, and those behind it. -/
theorem exists_split_iff {P : List Statement → List Char → Prop} :
    (∃ mid x after, numberedLines source = mid ++ x :: after ∧ P (statementsOn mid) x.2 ∧
      q.IsOn x) ↔ ∃ i raw, (Text.lines source)[i]? = some raw ∧ P (statementsBefore source i) raw ∧
        q.line = (i + 1 : Nat) ∧ q.text = Text.trim raw := by
  constructor
  · rintro ⟨mid, x, after, hlines, hP, hon⟩
    obtain ⟨hline, hnumber, hmid⟩ := Text.numbered_eq_append_cons hlines
    refine ⟨mid.length, x.2, hline, ?_, ?_, hon.text⟩
    · have hbefore : statementsBefore source mid.length = statementsOn mid :=
        congrArg statementsOn hmid.symm
      rw [hbefore]
      exact hP
    · rw [hon.line, hnumber]
  · rintro ⟨i, raw, hline, hP, hnumber, htext⟩
    exact ⟨_, (i + 1, raw), _, Text.numbered_eq_take_append hline, hP, hnumber, htext⟩

/-- **The first pass collects the problem of every faulty line.** -/
theorem collects_firstPass (enabled : Bool) (source : List Char) :
    Collects source (fun i raw c => FirstFault enabled (statementsBefore source i) raw c)
      (firstPass enabled source).problems where
  increasing := FirstPass.pairwise_problems_ofLines (numberedLines source) 0 [] [] tracks_nil
    (Text.pairwise_numbered _)
  mem_iff q := by
    rw [firstPass, FirstPass.mem_problems_ofLines_iff (numberedLines source) 0 [] [] tracks_nil]
    exact exists_split_iff (P := fun before raw => FirstFault enabled before raw q.cause)

/-! ## 4. The second pass -/

/-- A value that makes no cell is out of range. -/
theorem cellOf_eq_cause_iff {k : Mnemonic} {v : Int} :
    cellOf k v = .error (.cause c) ↔ ¬ InRange k v ∧ c = rangeCause k v := by
  rw [← exists_cellOf_iff]
  unfold cellOf rangeCause
  split
  · split
    · simp
    · simp [eq_comm]
  · split
    · simp
    · simp [eq_comm]

/-- What is wrong with an operand that has no value. -/
theorem operandValue_eq_cause_iff (h : Binds symbols program) {w : List Char} :
    operandValue symbols w = .error (.cause c) ↔ Text.isSignedNumeral w = false ∧
      ((isLabel w = false ∧ c = .invalidOperand w) ∨
        (isLabel w = true ∧ w ∉ labels program ∧ c = .undefinedLabel w)) := by
  have hnames : symbols.names = labels program := map_fst_of_table h.table
  unfold operandValue
  cases hw : Text.isSignedNumeral w with
  | true =>
    rw [if_pos rfl, Text.readInteger_of_isSignedNumeral hw, Text.readDigits]
    refine iff_of_false ?_ fun hc => Bool.noConfusion hc.1
    by_cases hlen : (Text.splitSign w).2.length ≤ Text.digitLimit
    · rw [if_pos hlen]
      exact fun hc => by cases hc
    · rw [if_neg hlen]
      exact fun hc => by cases hc
  | false =>
    rw [if_neg Bool.false_ne_true, and_iff_right rfl]
    cases hl : isLabel w with
    | false => simp [eq_comm]
    | true =>
      rw [← hnames, ← address?_eq_none_iff]
      cases symbols.address? w <;> simp [eq_comm]

/-- **The cell of a statement fails for what the second pass finds wrong with it.** -/
theorem cell_eq_cause_iff (h : Binds symbols program) (hsize : program.length ≤ 100)
    (hshort : ShortNumerals program) (hs : s ∈ program) :
    s.cell symbols = .error (.cause c) ↔ SecondFault program s c := by
  unfold Statement.cell
  cases ho : s.operand with
  | none =>
    refine iff_of_false (fun hc => by cases hc) fun hc => ?_
    cases hc with
    | malformed hw _ _ => cases ho.symm.trans hw
    | undefined hw _ _ => cases ho.symm.trans hw
    | outOfRange hw _ _ => cases ho.symm.trans hw
  | some w =>
    have hvalue : ∀ v, operandValue symbols w = .ok v ↔ Denotes program w v := fun v =>
      operandValue_eq_ok_iff h hsize (hshort s hs w ho)
    simp only [Outcome.bind_eq_error_iff, operandValue_eq_cause_iff h, hvalue, cellOf_eq_cause_iff]
    constructor
    · rintro (⟨hnumber, ⟨hlabel, rfl⟩ | ⟨hlabel, hnone, rfl⟩⟩ | ⟨v, hv, hrange, rfl⟩)
      · exact .malformed ho hnumber hlabel
      · exact .undefined ho hlabel hnone
      · exact .outOfRange ho hv hrange
    · intro hc
      cases hc with
      | malformed hw hnumber hlabel =>
        cases ho.symm.trans hw
        exact .inl ⟨hnumber, .inl ⟨hlabel, rfl⟩⟩
      | undefined hw hlabel hnone =>
        cases ho.symm.trans hw
        exact .inl ⟨not_isSignedNumeral_of_isLabel hlabel, .inr ⟨hlabel, hnone, rfl⟩⟩
      | outOfRange hw hv hrange =>
        cases ho.symm.trans hw
        exact .inr ⟨_, hv, hrange, rfl⟩

/-- What is wrong with a placed statement, if anything. -/
def Placed.problem? (symbols : Symbols) (p : Placed) : Option Problem :=
  match p.cell symbols with
  | .error (.cause c) => some (p.problem c)
  | _ => none

theorem problem?_eq_some_iff {x : Placed} :
    x.problem? symbols = some q ↔ ∃ c, x.cell symbols = .error (.cause c) ∧ q = x.problem c := by
  unfold Placed.problem?
  cases x.cell symbols with
  | ok c => simp
  | error f => cases f <;> simp [eq_comm]

/-- **The second pass collects what is wrong with each placed statement**, if no operand ends it. -/
theorem secondProblems_eq_filterMap : ∀ {placed : List Placed},
    ShortNumerals (placed.map (·.statement)) →
      secondProblems symbols placed = .ok (placed.filterMap (Placed.problem? symbols))
  | [], _ => rfl
  | x :: placed, h => by
    rw [List.map_cons, ShortNumerals, List.forall_mem_cons] at h
    have ih : secondProblems symbols placed = _ := secondProblems_eq_filterMap h.2
    have hcell : ∀ digits, x.cell symbols ≠ .error (.tooLong digits) := by
      intro digits hd
      obtain ⟨w, ho, hw, hlong⟩ := cell_tooLong_iff.mp ⟨digits, hd⟩
      exact absurd (h.1 w ho hw) (Nat.not_le_of_lt hlong)
    rw [secondProblems, List.filterMap_cons, Placed.problem?, ih]
    cases hx : x.cell symbols with
    | ok c => rfl
    | error f =>
      cases f with
      | cause c => rfl
      | tooLong digits => exact absurd hx (hcell digits)

/-- **The placed statements are those of the lines, in order.** -/
theorem FirstPass.placed_ofLines (enabled : Bool) : ∀ (ls : List (Nat × List Char)) (next : Nat)
    (symbols : Symbols), next + (statementsOn ls).length ≤ 100 →
      ((FirstPass.ofLines enabled next symbols ls).placed.map fun x =>
        (x.line, x.raw, x.statement)) =
          ls.filterMap fun y => (statementOn y).map fun s => ((y.1 : Int), y.2, s)
  | [], _, _, _ => rfl
  | y :: ls, next, symbols, h => by
    rw [statementsOn_cons] at h
    rw [List.filterMap_cons]
    cases hcontent : Line.content y.2 with
    | error c =>
      rw [statementOn_of_content_error hcontent] at h ⊢
      simp only [ofLines, Line.parse_of_content_error hcontent]
      exact placed_ofLines enabled ls next symbols h
    | ok o =>
      have hparse := Line.parse_of_content hcontent y.1
      rw [statementOn_of_content hcontent] at h ⊢
      cases o with
      | none =>
        rw [ofLines_cons_of_blank hparse rfl]
        exact placed_ofLines enabled ls next symbols h
      | some s =>
        rw [Option.toList_some, List.length_append, List.length_singleton] at h
        have hroom : next < 100 := by omega
        simp only [ofLines, hparse, dif_pos hroom, List.map_cons]
        rw [placed_ofLines enabled ls (next + 1) _ (by omega)]
        rfl

/-- What is placed are the statements of the text, each with its line. -/
theorem mem_placed_iff (hsize : (statements source).length ≤ 100) {n : Int} :
    (n, raw, s) ∈ ((firstPass enabled source).placed.map fun x =>
      (x.line, x.raw, x.statement)) ↔
        ∃ i : Nat, n = (i + 1 : Nat) ∧ (Text.lines source)[i]? = some raw ∧
          Line.content raw = .ok (some s) := by
  have hplaced := FirstPass.placed_ofLines enabled (numberedLines source) 0 []
    ((Nat.zero_add _).symm ▸ hsize)
  rw [firstPass, hplaced, List.mem_filterMap]
  constructor
  · rintro ⟨y, hy, heq⟩
    obtain ⟨t, ht, heq⟩ := Option.map_eq_some_iff.mp heq
    cases heq
    obtain ⟨i, hline, hnumber⟩ := Text.mem_numbered.mp hy
    exact ⟨i, by rw [hnumber], hline, statementOn_eq_some_iff.mp ht⟩
  · rintro ⟨i, rfl, hline, hs⟩
    refine ⟨(i + 1, raw), Text.mem_numbered.mpr ⟨i, hline, rfl⟩, ?_⟩
    rw [statementOn_eq_some_iff.mpr hs, Option.map_some]

/-- The placed statements are in the order of their lines. -/
theorem pairwise_placed (hsize : (statements source).length ≤ 100) :
    (firstPass enabled source).placed.Pairwise fun x y => x.line < y.line := by
  have hplaced := FirstPass.placed_ofLines enabled (numberedLines source) 0 []
    ((Nat.zero_add _).symm ▸ hsize)
  have hlines : ((firstPass enabled source).placed.map fun x =>
      (x.line, x.raw, x.statement)).Pairwise fun x y => x.1 < y.1 := by
    rw [firstPass, hplaced]
    refine (Text.pairwise_numbered _).filterMap _ fun x y hlt u hu v hv => ?_
    obtain ⟨_, -, rfl⟩ := Option.map_eq_some_iff.mp hu
    obtain ⟨_, -, rfl⟩ := Option.map_eq_some_iff.mp hv
    exact Int.ofNat_lt.mpr hlt
  rwa [List.pairwise_map] at hlines

/-- **The second pass collects the problem of every faulty line.** -/
theorem collects_secondPass (hnone : (firstPass enabled source).problems = [])
    (hshort : ShortNumerals (statements source)) : ∃ qs,
      secondProblems (firstPass enabled source).symbols (firstPass enabled source).placed =
        .ok qs ∧
      Collects source (fun _ raw c => ∃ s, Line.content raw = .ok (some s) ∧
        SecondFault (statements source) s c) qs := by
  have hands := handsOver_firstPass hnone
  have hmem : ∀ x ∈ (firstPass enabled source).placed, x.statement ∈ statements source :=
    fun x hx => hands.statements ▸ List.mem_map.mpr ⟨x, hx, rfl⟩
  have hfault : ∀ x ∈ (firstPass enabled source).placed, ∀ c,
      x.cell (firstPass enabled source).symbols = .error (.cause c) ↔
        SecondFault (statements source) x.statement c := fun x hx c =>
    cell_eq_cause_iff hands.binds hands.size hshort (hmem x hx)
  refine ⟨_, secondProblems_eq_filterMap (hands.statements.symm ▸ hshort), ?_, fun q => ?_⟩
  · refine (pairwise_placed hands.size).filterMap _ fun x y hlt p hp q hq => ?_
    obtain ⟨_, -, rfl⟩ := problem?_eq_some_iff.mp hp
    obtain ⟨_, -, rfl⟩ := problem?_eq_some_iff.mp hq
    exact hlt
  · rw [List.mem_filterMap]
    constructor
    · rintro ⟨x, hx, hq⟩
      obtain ⟨c, hc, rfl⟩ := problem?_eq_some_iff.mp hq
      obtain ⟨i, hnumber, hline, hs⟩ :=
        (mem_placed_iff hands.size).mp (List.mem_map.mpr ⟨x, hx, rfl⟩)
      exact ⟨i, x.raw, hline, ⟨x.statement, hs, (hfault x hx c).mp hc⟩, hnumber, rfl⟩
    · rintro ⟨i, raw, hline, ⟨s, hs, hc⟩, hnumber, htext⟩
      obtain ⟨x, hx, heq⟩ := List.mem_map.mp
        ((mem_placed_iff hands.size).mpr ⟨i, hnumber, hline, hs⟩)
      simp only [Prod.mk.injEq] at heq
      obtain ⟨hnumber', hraw, hstatement⟩ := heq
      rw [← hstatement] at hc
      refine ⟨x, hx, problem?_eq_some_iff.mpr ⟨q.cause, (hfault x hx q.cause).mpr hc, ?_⟩⟩
      rw [Placed.problem, hnumber', hraw, ← htext]

/-! ## 5. What is raised -/

/-- What a pass collected is raised, if there is anything. -/
theorem raises_of_faultOf {pass : Pass} {ps : List Problem}
    {result : Except AssemblyFault Memory} (h : ∀ f, faultOf pass ps = some f → result = .error f) :
    Raises result pass ps := by
  refine ⟨?_, fun hlength => ?_, fun p _ hline => if_neg hline⟩
  · rintro p rfl
    exact ⟨_, h _ rfl, rfl⟩
  · obtain ⟨p, q, r, rfl⟩ : ∃ p q r, ps = p :: q :: r := by
      match ps, hlength with
      | p :: q :: r, _ => exact ⟨p, q, r, rfl⟩
    exact ⟨_, h _ rfl, rfl⟩

/-- **Every problem is collected, once and in order.**  The first pass collects the problem of each
line that is faulty for it, and raises what it collected, if anything.  If not, and only then, the
second pass runs and collects the problem of each line that is faulty for it; the text is assembled
if there is none, and otherwise these are raised. -/
theorem problems_collected (enabled : Bool) (hshort : ShortNumerals (statements source)) :
    Collects source (fun i raw c => FirstFault enabled (statementsBefore source i) raw c)
        (firstPass enabled source).problems ∧
      ((firstPass enabled source).problems ≠ [] →
        Raises (Assembly.ofSource enabled source).result .first
          (firstPass enabled source).problems) ∧
      ((firstPass enabled source).problems = [] →
        (Assembly.ofSource enabled source).result =
          secondPass (firstPass enabled source).symbols (firstPass enabled source).placed ∧
        ∃ qs, secondProblems (firstPass enabled source).symbols
            (firstPass enabled source).placed = .ok qs ∧
          Collects source (fun _ raw c => ∃ s, Line.content raw = .ok (some s) ∧
            SecondFault (statements source) s c) qs ∧
          Raises (Assembly.ofSource enabled source).result .second qs ∧
          (qs = [] → ∃ m, (Assembly.ofSource enabled source).result = .ok m)) := by
  have hresult : (Assembly.ofSource enabled source).result = _ := ofSource_result_eq
  refine ⟨collects_firstPass enabled source, fun _ => raises_of_faultOf fun f hf => ?_,
    fun hnone => ?_⟩
  · rw [hresult, hf]
  · have hsecond : (Assembly.ofSource enabled source).result =
        secondPass (firstPass enabled source).symbols (firstPass enabled source).placed := by
      rw [hresult, hnone]
      rfl
    obtain ⟨qs, hqs, hcollects⟩ := collects_secondPass hnone hshort
    refine ⟨hsecond, qs, hqs, hcollects, raises_of_faultOf fun f hf => ?_, ?_⟩
    · rw [hsecond, secondPass, hqs]
      simp only [hf]
    · rintro rfl
      rw [hsecond, secondPass, hqs]
      exact ⟨_, rfl⟩

/-- A text with a line that cannot be read, a label that is there twice, a mark of extended mode
that is not first, and an operand out of range behind them. -/
def fourFaults : List Char := "1 hlt\nx lda y # y\nx out\n\n ext\nbr 100".toList

theorem statements_fourFaults : statements fourFaults =
    [⟨some ['x'], .lda, some ['y']⟩, ⟨some ['x'], .out, none⟩, ⟨none, .ext, none⟩,
      ⟨none, .br, some "100".toList⟩] := by
  rfl

theorem shortNumerals_fourFaults : ShortNumerals (statements fourFaults) := by
  rw [statements_fourFaults]
  simp only [ShortNumerals, List.forall_mem_cons, Option.some.injEq, forall_eq']
  decide

/-- The first three are collected and raised together, and the second pass does not run. -/
theorem fourFaults_collected : ShortNumerals (statements fourFaults) ∧
    (firstPass true fourFaults).problems.map (fun q => (q.line, q.cause)) =
      [(1, .numberAsLabel ['1']), (3, .duplicateLabel ['x'] 0), (5, .misplacedMark)] ∧
    Raises (Assembly.ofSource true fourFaults).result .first
      (firstPass true fourFaults).problems := by
  have hproblems : (firstPass true fourFaults).problems.map (fun q => (q.line, q.cause)) =
      [(1, .numberAsLabel ['1']), (3, .duplicateLabel ['x'] 0), (5, .misplacedMark)] := rfl
  have hne : (firstPass true fourFaults).problems ≠ [] := by
    intro hnil
    rw [hnil] at hproblems
    cases hproblems
  exact ⟨shortNumerals_fourFaults, hproblems,
    (problems_collected true shortNumerals_fourFaults).2.1 hne⟩

end Source
end MinionComputer
