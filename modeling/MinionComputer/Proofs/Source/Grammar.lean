/-
# The lines that can be read

A line is cut before its first mark of a comment, and what is in front of the mark falls into words.
These make up a statement exactly when they are an instruction word, with a label before it or not
and with an operand behind it or not, as the instruction word wants it.  Neither a label nor an
operand is an instruction word, so there is never a second way to read the same words.

* `Cut`, `cut_iff`: the code of a line and its comment;
* `Reads`, `ofWords_eq_ok_iff`: the words of a statement;
* `Misread`, `misread_of_ofWords`: what is wrong with all others;
* `Line.parse_grammar`: whole lines.
-/
import MinionComputer.Proofs.Outcome
import MinionComputer.Proofs.Source.Statement

namespace MinionComputer
namespace Source

/-! ## 1. Comments -/

/-- The marks of a comment. -/
def commentMarks : List (List Char) := [['/', '/'], ['#'], [';']]

/-- The text starts with a mark. -/
def Marked (cs : List Char) : Prop := ∃ mark ∈ commentMarks, mark <+: cs

/-- The code of a line and its comment, without the blanks at the ends of the latter.  The line is
cut at the first place where a mark stands, also if marks overlap. -/
inductive Cut (raw : List Char) : List Char → Option (List Char) → Prop
  | plain (h : ∀ i, ¬ Marked (raw.drop i)) : Cut raw raw none
  | comment {code mark rest : List Char} (hmark : mark ∈ commentMarks)
      (hraw : raw = code ++ (mark ++ rest)) (h : ∀ i < code.length, ¬ Marked (raw.drop i)) :
      Cut raw code (some (Text.trim rest))

variable {c : Char} {cs raw code rest : List Char} {comment : Option (List Char)}

theorem afterMark?_eq_some_iff :
    afterMark? cs = some rest ↔ ∃ mark ∈ commentMarks, cs = mark ++ rest := by
  simp only [commentMarks, List.mem_cons, List.not_mem_nil, or_false, exists_eq_or_imp,
    exists_eq_left, List.cons_append, List.nil_append]
  constructor
  · intro h
    unfold afterMark? at h
    split at h
    · cases h
      exact .inr (.inl rfl)
    · cases h
      exact .inr (.inr rfl)
    · cases h
      exact .inl rfl
    · cases h
  · rintro (rfl | rfl | rfl) <;> rfl

theorem afterMark?_eq_none_iff : afterMark? cs = none ↔ ¬ Marked cs := by
  rw [← not_iff_not, not_not, ← ne_eq, Option.ne_none_iff_exists']
  simp only [afterMark?_eq_some_iff]
  constructor
  · rintro ⟨rest, mark, hmark, rfl⟩
    exact ⟨mark, hmark, List.prefix_append mark rest⟩
  · rintro ⟨mark, hmark, rest, rfl⟩
    exact ⟨rest, mark, hmark, rfl⟩

/-- Nothing is a mark of no characters. -/
theorem not_marked_nil : ¬ Marked [] := afterMark?_eq_none_iff.mp rfl

/-- No mark stands before a place, in a text with one character more in front. -/
theorem forall_not_marked_cons {n : Nat} (hc : ¬ Marked (c :: cs))
    (h : ∀ i < n, ¬ Marked (cs.drop i)) : ∀ i < n + 1, ¬ Marked ((c :: cs).drop i)
  | 0, _ => hc
  | i + 1, hi => h i (Nat.lt_of_succ_lt_succ hi)

/-- What `splitComment` gives is the code and the comment. -/
theorem cut_splitComment : ∀ raw : List Char, Cut raw (splitComment raw).1 (splitComment raw).2
  | [] => .plain fun i => by
    rw [List.drop_nil]
    exact not_marked_nil
  | c :: r => by
    unfold splitComment
    split
    · next rest h =>
      obtain ⟨mark, hmark, hraw⟩ := afterMark?_eq_some_iff.mp h
      exact .comment hmark hraw (by simp)
    · next h =>
      have hc : ¬ Marked (c :: r) := afterMark?_eq_none_iff.mp h
      have ih := cut_splitComment r
      generalize splitComment r = x at ih ⊢
      obtain ⟨code, comment⟩ := x
      cases ih with
      | plain h =>
        refine .plain fun i => ?_
        exact forall_not_marked_cons hc (fun i _ => h i) i (Nat.lt_succ_self i)
      | comment hmark hraw h =>
        refine .comment hmark ?_ (forall_not_marked_cons hc h)
        rw [hraw, List.cons_append]

/-- **There is one way to cut a line.** -/
theorem cut_iff : Cut raw code comment ↔ splitComment raw = (code, comment) := by
  constructor
  · intro h
    induction raw generalizing code with
    | nil =>
      cases h with
      | plain _ => rfl
      | comment hmark hraw _ =>
        obtain ⟨-, hnil⟩ := List.append_eq_nil_iff.mp hraw.symm
        exact absurd ⟨_, hmark, hnil ▸ List.prefix_append _ _⟩ not_marked_nil
    | cons c r ih =>
      cases h with
      | plain h =>
        have hfirst : ¬ Marked (c :: r) := h 0
        have hrest : Cut r r none := .plain fun i => h (i + 1)
        simp only [splitComment, afterMark?_eq_none_iff.mpr hfirst, ih hrest]
      | @comment code mark rest hmark hraw h =>
        cases code with
        | nil => simp only [splitComment, afterMark?_eq_some_iff.mpr ⟨mark, hmark, hraw⟩]
        | cons c' code =>
          obtain ⟨rfl, hr⟩ := List.cons.inj hraw
          have hrest : Cut r code (some (Text.trim rest)) :=
            .comment hmark hr fun i hi => h (i + 1) (Nat.succ_lt_succ hi)
          have hfirst : ¬ Marked (c :: r) := h 0 (Nat.succ_pos _)
          simp only [splitComment, afterMark?_eq_none_iff.mpr hfirst, ih hrest]
  · intro h
    have hcut := cut_splitComment raw
    rw [h] at hcut
    exact hcut

/-- Of two slashes and a third one, the first two are the mark. -/
example : splitComment "BR a///b".toList = ("BR a".toList, some "/b".toList) := by
  decide

/-! ## 2. Words -/

/-- The words are the statement: a label or none, the instruction word `w`, an operand or none. -/
structure Statement.Spells (s : Statement) (w : List Char) (ws : List (List Char)) : Prop where
  words : ws = s.label.toList ++ w :: s.operand.toList
  label : ∀ l, s.label = some l → isLabel l = true ∧ Mnemonic.ofWord? l = none
  mnemonic : Mnemonic.ofWord? w = some s.mnemonic
  operand : ∀ o, s.operand = some o → Mnemonic.ofWord? o = none
  fits : s.OperandFits

/-- How words can be read: as nothing, or as a statement. -/
inductive Reads : List (List Char) → Option Statement → Prop
  | blank : Reads [] none
  | statement {ws : List (List Char)} {w : List Char} {s : Statement} (h : s.Spells w ws) :
      Reads ws (some s)

/-- What is wrong with words that cannot be read. -/
inductive Misread (ws : List (List Char)) : Cause → Prop
  | tooManyWords (h : 3 < ws.length) : Misread ws (.tooManyWords ws.length)
  /-- Two instruction words side by side. -/
  | severalInstructions (before after : List (List Char)) {a b : List Char}
      (h : ws = before ++ a :: b :: after) (ha : isInstruction a = true)
      (hb : isInstruction b = true) : Misread ws (.severalInstructions a b)
  /-- A word behind the operand. -/
  | unexpectedWord {w x y : List Char} (h : ws = [w, x, y]) (hw : isInstruction w = true) :
      Misread ws (.unexpectedWord y)
  | numberAsLabel {w : List Char} {rest : List (List Char)} (h : ws = w :: rest)
      (hw : Text.isSignedNumeral w = true) : Misread ws (.numberAsLabel w)
  | invalidLabel {w : List Char} {rest : List (List Char)} (h : ws = w :: rest)
      (hw : isInstruction w = false) (hl : isLabel w = false) : Misread ws (.invalidLabel w)
  /-- There is no instruction word among the first two, and the last of these is told. -/
  | unknownInstruction {w : List Char} (h : (ws.take 2).getLast? = some w)
      (hnone : ∀ v ∈ ws.take 2, isInstruction v = false) : Misread ws (.unknownInstruction w)
  | operandMissing (before : List (List Char)) {w : List Char} {m : Mnemonic}
      (h : ws = before ++ [w]) (hw : Mnemonic.ofWord? w = some m) (hm : m.form = .address) :
      Misread ws (.operandMissing m)
  | operandUnwanted (before : List (List Char)) {w o : List Char} {m : Mnemonic}
      (h : ws = before ++ [w, o]) (hw : Mnemonic.ofWord? w = some m) (hm : m.form = .none) :
      Misread ws (.operandUnwanted m o)

/-- Whether a cause is about the form of a line, and not about values, labels or limits. -/
def Cause.isSyntax : Cause → Bool
  | .duplicateLabel .. | .undefinedLabel _ | .addressRange _ | .dataRange _ | .programTooLarge
  | .extensionOff _ | .notANumber _ | .numberRange _ | .tooManyNumbers => false
  | _ => true

variable {ws : List (List Char)} {w l : List Char} {m : Mnemonic} {s : Statement} {cause : Cause}

theorem Misread.isSyntax (h : Misread ws cause) : cause.isSyntax = true := by
  cases h <;> rfl

theorem isInstruction_eq_false_iff : isInstruction w = false ↔ Mnemonic.ofWord? w = none := by
  simp [isInstruction]

/-! ## 3. Reading words -/

namespace Statement

variable {rest : List (List Char)} {operand : Option (List Char)}

theorem readOperand_eq_ok_iff {x o : List Char} :
    readOperand w x = .ok o ↔ x = o ∧ Mnemonic.ofWord? x = none := by
  unfold readOperand
  rw [← isInstruction_eq_false_iff]
  split
  · next h => simp [h]
  · next h => simp [h]

/-- Behind an instruction word there is nothing, or an operand that is no instruction word. -/
theorem exists_of_unlabelled (h : unlabelled m w rest = .ok s) : ∃ operand : Option (List Char),
    rest = operand.toList ∧ (∀ o, operand = some o → Mnemonic.ofWord? o = none) ∧
      s = ⟨none, m, operand⟩ := by
  match rest with
  | [] =>
    cases h
    exact ⟨none, rfl, by simp, rfl⟩
  | [x] =>
    obtain ⟨o, ho, rfl⟩ := Outcome.map_eq_ok_iff.mp h
    obtain ⟨rfl, hx⟩ := readOperand_eq_ok_iff.mp ho
    exact ⟨some x, rfl, by simpa using hx, rfl⟩
  | x :: y :: r =>
    simp only [unlabelled] at h
    split at h <;> cases h

theorem unlabelled_toList (h : ∀ o, operand = some o → Mnemonic.ofWord? o = none) :
    unlabelled m w operand.toList = .ok ⟨none, m, operand⟩ := by
  cases operand with
  | none => rfl
  | some o => exact Outcome.map_eq_ok_iff.mpr ⟨o, readOperand_eq_ok_iff.mpr ⟨rfl, h o rfl⟩, rfl⟩

/-- Behind a label there is an instruction word, and behind that what may stand there. -/
theorem exists_of_labelled (hlength : rest.length ≤ 2) (h : labelled l rest = .ok s) :
    isLabel l = true ∧ ∃ (w : List Char) (m : Mnemonic) (operand : Option (List Char)),
      rest = w :: operand.toList ∧ Mnemonic.ofWord? w = some m ∧
        (∀ o, operand = some o → Mnemonic.ofWord? o = none) ∧ s = ⟨some l, m, operand⟩ := by
  refine ⟨(label_of_labelled h).2, ?_⟩
  unfold labelled at h
  split at h
  · cases h
  · split at h
    · cases h
    · match rest with
      | [] => cases h
      | [w] =>
        simp only at h
        split at h
        · cases h
        · next m hm =>
          cases h
          exact ⟨w, m, none, rfl, hm, by simp, rfl⟩
      | [w, x] =>
        simp only at h
        split at h
        · cases h
        · next m hm =>
          obtain ⟨o, ho, rfl⟩ := Outcome.map_eq_ok_iff.mp h
          obtain ⟨rfl, hx⟩ := readOperand_eq_ok_iff.mp ho
          exact ⟨w, m, some x, rfl, hm, by simpa using hx, rfl⟩
      | _ :: _ :: _ :: _ =>
        simp only [List.length_cons] at hlength
        omega

theorem labelled_cons_toList (hl : isLabel l = true) (hw : Mnemonic.ofWord? w = some m)
    (h : ∀ o, operand = some o → Mnemonic.ofWord? o = none) :
    labelled l (w :: operand.toList) = .ok ⟨some l, m, operand⟩ := by
  have hnumeral : Text.isSignedNumeral l = false := not_isSignedNumeral_of_isLabel hl
  cases operand with
  | none => simp [labelled, hnumeral, hl, hw]
  | some o =>
    have ho : readOperand w o = .ok o := readOperand_eq_ok_iff.mpr ⟨rfl, h o rfl⟩
    simp [labelled, hnumeral, hl, hw, ho, Except.map]

/-- Words are the statement that they are read as. -/
theorem reads_of_ofWords {o : Option Statement} (h : ofWords ws = .ok o) : Reads ws o := by
  match ws with
  | [] =>
    cases h
    exact .blank
  | w :: rest =>
    simp only [ofWords] at h
    split at h
    · cases h
    · next hlength =>
      have hrest : rest.length ≤ 2 := Nat.le_of_not_lt hlength
      obtain ⟨s, hs, rfl⟩ := Outcome.map_eq_ok_iff.mp h
      obtain ⟨hshape, hfits⟩ := eq_ok_of_bind_checkOperand (Outcome.map_eq_ok_iff.mpr ⟨s, hs, rfl⟩)
      split at hshape
      · next m hm =>
        obtain ⟨operand, rfl, hoperand, rfl⟩ := exists_of_unlabelled hshape
        exact .statement ⟨rfl, by simp, hm, hoperand, hfits⟩
      · next hw =>
        obtain ⟨hl, w', m, operand, rfl, hm, hoperand, rfl⟩ := exists_of_labelled hrest hshape
        exact .statement ⟨rfl, by simp [hl, hw], hm, hoperand, hfits⟩

/-- A statement is read from the words that spell it. -/
theorem ofWords_of_reads {o : Option Statement} (h : Reads ws o) : ofWords ws = .ok o := by
  cases h with
  | blank => rfl
  | @statement _ w s h =>
    obtain ⟨rfl, hlabel, hmnemonic, hoperand, hfits⟩ := h
    have hcheck : checkOperand s = .ok s := checkOperand_eq_ok_iff.mpr ⟨rfl, hfits⟩
    obtain ⟨label, m, operand⟩ := s
    cases label with
    | none =>
      have hlength : ¬ 2 < operand.toList.length := by cases operand <;> simp
      simp only [Option.toList_none, List.nil_append, ofWords, if_neg hlength, hmnemonic,
        unlabelled_toList hoperand]
      exact Outcome.map_eq_ok_iff.mpr ⟨_, hcheck, rfl⟩
    | some l =>
      obtain ⟨hl, hnone⟩ := hlabel l rfl
      have hlength : ¬ 2 < (w :: operand.toList).length := by cases operand <;> simp
      simp only [Option.toList_some, List.cons_append, List.nil_append, ofWords, if_neg hlength,
        hnone, labelled_cons_toList hl hmnemonic hoperand]
      exact Outcome.map_eq_ok_iff.mpr ⟨_, hcheck, rfl⟩

/-- **Words are read exactly as the grammar has them.** -/
theorem ofWords_eq_ok_iff {o : Option Statement} : ofWords ws = .ok o ↔ Reads ws o :=
  ⟨reads_of_ofWords, ofWords_of_reads⟩

/-! ## 4. Words that cannot be read -/

theorem readOperand_eq_error_iff {x : List Char} : readOperand w x = .error cause ↔
    isInstruction x = true ∧ cause = .severalInstructions w x := by
  unfold readOperand
  split
  · next h => simp [h, eq_comm]
  · next h => simp [h]

/-- What is wrong behind an instruction word. -/
theorem misread_of_unlabelled (hlength : rest.length ≤ 2) (hw : Mnemonic.ofWord? w = some m)
    (h : unlabelled m w rest = .error cause) : Misread (w :: rest) cause := by
  have hw' : isInstruction w = true := by simp [isInstruction, hw]
  match rest with
  | [] => cases h
  | [x] =>
    obtain ⟨hx, rfl⟩ := readOperand_eq_error_iff.mp (Outcome.map_eq_error_iff.mp h)
    exact .severalInstructions [] [] rfl hw' hx
  | [x, y] =>
    simp only [unlabelled] at h
    split at h
    · next hx =>
      cases h
      exact .severalInstructions [] [y] rfl hw' hx
    · cases h
      exact .unexpectedWord rfl hw'
  | _ :: _ :: _ :: _ =>
    simp only [List.length_cons] at hlength
    omega

/-- What is wrong with a label and what is behind it. -/
theorem misread_of_labelled (hlength : rest.length ≤ 2) (hl : Mnemonic.ofWord? l = none)
    (h : labelled l rest = .error cause) : Misread (l :: rest) cause := by
  have hl' : isInstruction l = false := isInstruction_eq_false_iff.mpr hl
  unfold labelled at h
  split at h
  · next hnumeral =>
    cases h
    exact .numberAsLabel rfl hnumeral
  · split at h
    · next hlabel =>
      cases h
      exact .invalidLabel rfl hl' (by simpa using hlabel)
    · match rest with
      | [] =>
        cases h
        exact .unknownInstruction rfl (by simpa using hl')
      | w :: operands =>
        simp only at h
        split at h
        · next hw =>
          cases h
          exact .unknownInstruction rfl
            (by simp [hl', isInstruction_eq_false_iff.mpr hw])
        · next m hm =>
          have hw : isInstruction w = true := by simp [isInstruction, hm]
          split at h
          · cases h
          · next x after =>
            obtain ⟨hx, rfl⟩ := readOperand_eq_error_iff.mp (Outcome.map_eq_error_iff.mp h)
            exact .severalInstructions [l] after rfl hw hx

/-- An operand is missing or unwanted. -/
theorem misread_of_checkOperand (hspells : ws = s.label.toList ++ w :: s.operand.toList)
    (hw : Mnemonic.ofWord? w = some s.mnemonic) (h : checkOperand s = .error cause) :
    Misread ws cause := by
  subst hspells
  unfold checkOperand at h
  split at h
  · next hform hoperand =>
    cases h
    refine .operandMissing s.label.toList ?_ hw hform
    rw [hoperand]
    rfl
  · next o hform hoperand =>
    cases h
    refine .operandUnwanted s.label.toList ?_ hw hform
    rw [hoperand]
    rfl
  · cases h

/-- **What is told of words that cannot be read is wrong with them.** -/
theorem misread_of_ofWords (h : ofWords ws = .error cause) : Misread ws cause := by
  match ws with
  | [] => cases h
  | w :: rest =>
    simp only [ofWords] at h
    split at h
    · next hlength =>
      cases h
      exact .tooManyWords (Nat.succ_lt_succ hlength)
    · next hlength =>
      have hrest : rest.length ≤ 2 := Nat.le_of_not_lt hlength
      rw [Outcome.map_eq_error_iff, Outcome.bind_eq_error_iff] at h
      split at h
      · next m hm =>
        rcases h with h | ⟨s, hs, h⟩
        · exact misread_of_unlabelled hrest hm h
        · obtain ⟨operand, rfl, -, rfl⟩ := exists_of_unlabelled hs
          exact misread_of_checkOperand rfl hm h
      · next hw =>
        rcases h with h | ⟨s, hs, h⟩
        · exact misread_of_labelled hrest hw h
        · obtain ⟨-, w', m, operand, rfl, hm, -, rfl⟩ := exists_of_labelled hrest hs
          exact misread_of_checkOperand rfl hm h

end Statement

/-! ## 5. Lines -/

/-- The line is what `raw` is read as: it has the code and the comment of `raw`, and the words of
the code are its statement. -/
structure Line.IsReading (line : Line) (number : Int) (raw : List Char) : Prop where
  statement : ∃ code, Cut raw code line.comment ∧ Reads (Text.words code) line.statement
  number : line.number = number
  raw : line.raw = raw

namespace Line

variable {number : Int} {line : Line}

theorem parse_eq_ok_iff : parse number raw = .ok line ↔ line.IsReading number raw := by
  have hcut : Cut raw (splitComment raw).1 (splitComment raw).2 := cut_splitComment raw
  unfold parse
  constructor
  · intro h
    dsimp only at h
    split at h
    · next statement hwords =>
      cases h
      exact ⟨⟨_, hcut, Statement.ofWords_eq_ok_iff.mp hwords⟩, rfl, rfl⟩
    · cases h
  · rintro ⟨⟨code, hcode, hreads⟩, hnumber, hraw⟩
    rw [cut_iff.mp hcode]
    simp only [Statement.ofWords_eq_ok_iff.mpr hreads, ← hnumber, ← hraw]

/-- **The lines that can be read are those of the grammar.**  There is one way to read a line at
most, and it is how the line is read; every other line is refused, by its number and without the
blanks at its ends, for something that is wrong with its words. -/
theorem parse_grammar (number : Int) (raw : List Char) :
    (∀ line, parse number raw = .ok line ↔ line.IsReading number raw) ∧
      (∀ line line' : Line, line.IsReading number raw → line'.IsReading number raw →
        line = line') ∧
      ((∀ line : Line, ¬ line.IsReading number raw) → ∃ code comment cause,
        Cut raw code comment ∧ Misread (Text.words code) cause ∧ cause.isSyntax = true ∧
          parse number raw = .error ⟨cause, number, Text.trim raw⟩) := by
  refine ⟨fun line => parse_eq_ok_iff, fun line line' h h' => ?_, fun hnone => ?_⟩
  · rw [← parse_eq_ok_iff] at h h'
    exact Except.ok.inj (h.symm.trans h')
  · refine ⟨(splitComment raw).1, (splitComment raw).2, ?_⟩
    cases hwords : Statement.ofWords (Text.words (splitComment raw).1) with
    | ok statement =>
      have hparse : parse number raw = .ok ⟨statement, (splitComment raw).2, number, raw⟩ := by
        simp only [parse, hwords]
      exact absurd (parse_eq_ok_iff.mp hparse) (hnone _)
    | error cause =>
      have hmisread := Statement.misread_of_ofWords hwords
      refine ⟨cause, cut_splitComment raw, hmisread, hmisread.isSyntax, ?_⟩
      simp only [parse, hwords]

/-- A label may look like part of an instruction word, and the word may have any spelling. -/
example : (parse 7 "brz sta 12 ; keep".toList).toOption = none ∧
    (parse 7 "Br2 sta 12 ; keep".toList).toOption.bind (·.statement) =
      some ⟨some "Br2".toList, .sto, some "12".toList⟩ := by
  decide +kernel

end Line
end Source
end MinionComputer
