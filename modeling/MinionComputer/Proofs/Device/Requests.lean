/-
# What a console takes off its input

A console is asked for numbers and for characters in any order, and all of it comes off one text.
Each request takes lines from where the one before it stopped: a character is the first of a line,
of which the rest is lost, and a number is on the first line that holds one, where every line before
it is reported.  What this says of a request is a relation on texts (`Serves`), and there is never a
second way to serve it.

* `Text.FirstLine`: the first line of a text, and what comes behind it;
* `Console.HoldsNumber`, `Console.Rejects`, `Console.HoldsCharacter`: what one line says;
* `Console.Serves`, `Console.Session`: one request, and one after another;
* `Console.exists_serves`: every request is served;
* `Console.session_askAll`: any number of them.
-/
import MinionComputer.Proofs.Device.Console
import MinionComputer.Proofs.Text.Pieces
import MinionComputer.Proofs.Text.Trimming

namespace MinionComputer

/-! ## 1. Lines of a text -/

namespace Text

/-- The first line of a text and the text behind it.  Only a line feed ends a line, and the last
line of a text may have none, if it is not empty. -/
inductive FirstLine : (text line rest : List Char) → Prop
  | ended {line rest : List Char} (h : '\n' ∉ line) : FirstLine (line ++ '\n' :: rest) line rest
  | unended {line : List Char} (h : '\n' ∉ line) (hne : line ≠ []) : FirstLine line line []

variable {text line line' rest rest' : List Char}

/-- Only the empty text has no line. -/
theorem exists_firstLine (h : text ≠ []) : ∃ line rest, FirstLine text line rest := by
  by_cases hmem : '\n' ∈ text
  · obtain ⟨line, rest, rfl, hline⟩ := List.eq_append_cons_of_mem hmem
    exact ⟨line, rest, .ended hline⟩
  · exact ⟨text, [], .unended hmem h⟩

theorem FirstLine.ne_nil (h : FirstLine text line rest) : text ≠ [] := by
  cases h with
  | ended _ => simp
  | unended _ hne => exact hne

theorem dropEmptyLast_cons {ls : List (List Char)} (hne : ls ≠ []) (l : List Char) :
    dropEmptyLast (l :: ls) = l :: dropEmptyLast ls := by
  obtain ⟨l', ls, rfl⟩ := List.exists_cons_of_ne_nil hne
  unfold dropEmptyLast
  rw [List.getLast?_cons_cons]
  split
  · rfl
  · rfl

/-- **The lines of a text are the first one and those of the text behind it.** -/
theorem FirstLine.lines_eq (h : FirstLine text line rest) :
    (Feed.ofText text).lines = line :: (Feed.ofText rest).lines := by
  have hplain : ∀ {l : List Char}, '\n' ∉ l → ∀ c ∈ l, (c == '\n') = false := by
    intro l hl c hc
    rw [beq_eq_false_iff_ne]
    exact ne_of_mem_of_not_mem hc hl
  cases h with
  | @ended line rest hline =>
    have hsplit : splitAt '\n' (line ++ '\n' :: rest) = line :: splitAt '\n' rest :=
      pieces_append_cons (hplain hline) (beq_self_eq_true '\n')
    rw [Feed.ofText, hsplit]
    exact dropEmptyLast_cons (pieces_ne_nil _ _) _
  | unended hline hne =>
    have hsplit : splitAt '\n' text = [text] := pieces_eq_singleton (hplain hline)
    have hlast : ¬ [text].getLast? = some [] := by simpa using hne
    rw [Feed.ofText, hsplit, dropEmptyLast, if_neg hlast]
    rfl

theorem FirstLine.text_eq (h : FirstLine text line rest) :
    text = line ++ '\n' :: rest ∨ (text = line ∧ rest = []) := by
  cases h with
  | ended _ => exact .inl rfl
  | unended _ _ => exact .inr ⟨rfl, rfl⟩

/-- A text has one first line. -/
theorem FirstLine.unique (h : FirstLine text line rest) (h' : FirstLine text line' rest') :
    line' = line ∧ rest' = rest := by
  obtain ⟨rfl, -⟩ := List.cons.inj (h.lines_eq.symm.trans h'.lines_eq)
  refine ⟨rfl, ?_⟩
  rcases h.text_eq with htext | ⟨htext, rfl⟩
  · rcases h'.text_eq with htext' | ⟨htext', -⟩
    · have hrest := List.append_cancel_left (htext'.symm.trans htext)
      exact (List.cons.inj hrest).2
    · simp [htext'] at htext
  · rcases h'.text_eq with htext' | ⟨-, hrest⟩
    · simp [htext] at htext'
    · exact hrest

end Text

/-! ## 2. What a line says -/

namespace Console

open Text

variable {text line line' kept rest rest' : List Char} {n : Int} {note : Note} {notes : List Note}

/-- The line holds the number `n`, from 0 to 999, with or without blanks at its ends. -/
structure HoldsNumber (line : List Char) (n : Int) : Prop where
  numeral : readInteger (trim line) = .ok n
  range : 0 ≤ n ∧ n ≤ 999

/-- The line holds no such number, and this is the note on it. -/
inductive Rejects (line : List Char) : Note → Prop
  | malformed {f : NumeralFault} (h : readInteger (trim line) = .error f) :
      Rejects line ⟨.warning, channel, "Not a number: " ++ quoted (trim line)⟩
  | range {n : Int} (h : readInteger (trim line) = .ok n) (hn : ¬ (0 ≤ n ∧ n ≤ 999)) :
      Rejects line ⟨.warning, channel, "Input out of range 0-999: " ++ integer n⟩

/-- What is left of the line without the carriage returns and line feeds at its end. -/
structure Keeps (line kept : List Char) : Prop where
  split : ∃ tail, line = kept ++ tail ∧ ∀ c ∈ tail, c = '\r' ∨ c = '\n'
  last : ∀ c ∈ kept.getLast?, ¬ (c = '\r' ∨ c = '\n')

/-- The line stands for the character of this code, with a note on what comes behind the character.
A line of which nothing is left stands for a line feed. -/
inductive HoldsCharacter (line : List Char) : Int → List Note → Prop
  | lineFeed (h : Keeps line []) : HoldsCharacter line 10 []
  | only {c : Char} (h : Keeps line [c]) : HoldsCharacter line c.toNat []
  | first {c d : Char} {more : List Char} (h : Keeps line (c :: d :: more)) :
      HoldsCharacter line c.toNat
        [⟨.debug, channel, "Discarding extra character input " ++ quoted (d :: more)⟩]

theorem isReturn_iff {c : Char} : isReturn c = true ↔ c = '\r' ∨ c = '\n' := by
  simp [isReturn]

theorem keeps_iff : Keeps line kept ↔ dropEnd isReturn line = kept := by
  constructor
  · rintro ⟨⟨tail, rfl, htail⟩, hlast⟩
    rw [dropEnd_append_of_all fun c hc => isReturn_iff.mpr (htail c hc)]
    exact dropEnd_eq_self fun c hc => Bool.eq_false_iff.mpr (mt isReturn_iff.mp (hlast c hc))
  · rintro rfl
    refine ⟨⟨line.rtakeWhile isReturn, ?_, fun c hc => ?_⟩, fun c hc => ?_⟩
    · rw [dropEnd_eq_rdropWhile, List.rdropWhile_append_rtakeWhile]
    · exact isReturn_iff.mp (List.mem_rtakeWhile_imp hc)
    · have hkept := not_of_mem_getLast?_dropEnd c hc
      exact fun hreturn => Bool.eq_false_iff.mp hkept (isReturn_iff.mpr hreturn)

/-- A line is read as the character that it stands for. -/
theorem holdsCharacter_iff : HoldsCharacter line n notes ↔ characterOfLine line = (n, notes) := by
  unfold characterOfLine
  constructor
  · rintro (h | h | h) <;> rw [keeps_iff.mp h]
  · split
    · next hkept =>
      rintro ⟨⟩
      exact .lineFeed (keeps_iff.mpr hkept)
    · next hkept =>
      rintro ⟨⟩
      exact .only (keeps_iff.mpr hkept)
    · next hkept =>
      rintro ⟨⟩
      exact .first (keeps_iff.mpr hkept)

/-- A line is read as the number that it holds. -/
theorem holdsNumber_iff : HoldsNumber line n ↔ numberOfLine line = .ok n := by
  unfold numberOfLine
  constructor
  · rintro ⟨hnumeral, hrange⟩
    simp only [hnumeral, if_pos hrange]
  · intro h
    dsimp only at h
    split at h
    · cases h
    · next hnumeral =>
      split at h
      · next hrange =>
        cases h
        exact ⟨hnumeral, hrange⟩
      · cases h

/-- A line without a number is reported. -/
theorem rejects_iff : Rejects line note ↔ numberOfLine line = .error note := by
  unfold numberOfLine
  constructor
  · rintro (h | ⟨h, hn⟩)
    · simp only [h]
    · simp only [h, if_neg hn]
  · intro h
    dsimp only at h
    split at h
    · next hnumeral =>
      cases h
      exact .malformed hnumeral
    · next hnumeral =>
      split at h
      · cases h
      · next hrange =>
        cases h
        exact .range hnumeral hrange

/-! ## 3. Requests -/

/-- What a console is asked for. -/
inductive Request where
  | number
  | character
  deriving DecidableEq, Repr

namespace Request

/-- Asks for it. -/
def ask (r : Request) (c : Console) : Answer Console ConsoleFault (Option Int) :=
  match r with
  | number => device.requestNumber c
  | character => device.requestCharacter c

/-- The prompt for it. -/
def prompt : Request → List Char
  | number => "Input: ".toList
  | character => "Input char: ".toList

end Request

/-- What came of a request: the lines it took, the notes on them, and the answer. -/
structure Service where
  request : Request
  used : List (List Char)
  notes : List Note
  answer : Option Int
  deriving DecidableEq, Repr

namespace Service

/-- How often a line was wanted: for each line there was, and once more if there was none. -/
def attempts (s : Service) : Nat := s.used.length + if s.answer.isNone then 1 else 0

/-- A prompt for each time. -/
def prompts (s : Service) : List Char := (List.replicate s.attempts s.request.prompt).flatten

/-- Another line is another prompt. -/
theorem prompts_cons (r : Request) (line : List Char) (used : List (List Char)) (notes : List Note)
    (notes' : List Note) (answer : Option Int) :
    (⟨r, line :: used, notes, answer⟩ : Service).prompts =
      r.prompt ++ (⟨r, used, notes', answer⟩ : Service).prompts := by
  have hattempts : (⟨r, line :: used, notes, answer⟩ : Service).attempts =
      (⟨r, used, notes', answer⟩ : Service).attempts + 1 := by
    simp only [attempts, List.length_cons]
    omega
  rw [prompts, hattempts, List.replicate_succ, List.flatten_cons]
  rfl

end Service

/-- A request is served from a text, and `rest` is left of it.  A character takes one line, whatever
is on it.  A number takes lines up to the first that holds one, each with a note before that.  If
the text ends first there is no answer. -/
inductive Serves : Service → (text rest : List Char) → Prop
  | character {text line rest : List Char} {code : Int} {notes : List Note}
      (hline : FirstLine text line rest) (h : HoldsCharacter line code notes) :
      Serves ⟨.character, [line], notes, some code⟩ text rest
  | number {text line rest : List Char} {n : Int} (hline : FirstLine text line rest)
      (h : HoldsNumber line n) : Serves ⟨.number, [line], [], some n⟩ text rest
  | reject {text line between rest : List Char} {note : Note} {used : List (List Char)}
      {notes : List Note} {answer : Option Int} (hline : FirstLine text line between)
      (h : Rejects line note) (hrest : Serves ⟨.number, used, notes, answer⟩ between rest) :
      Serves ⟨.number, line :: used, note :: notes, answer⟩ text rest
  | ended (r : Request) : Serves ⟨r, [], [], none⟩ [] []

variable {s s' : Service} {ss ss' : List Service}

/-- **Each line is taken once**: those that a request takes, and those that are left behind it. -/
theorem Serves.lines_eq (h : Serves s text rest) :
    (Feed.ofText text).lines = s.used ++ (Feed.ofText rest).lines := by
  induction h with
  | character hline _ => exact hline.lines_eq
  | number hline _ => exact hline.lines_eq
  | reject hline _ _ ih => rw [hline.lines_eq, ih, List.cons_append]
  | ended r => rfl

/-- **There is one way to serve a request.** -/
theorem Serves.unique (h : Serves s text rest) (h' : Serves s' text rest')
    (hr : s'.request = s.request) : s' = s ∧ rest' = rest := by
  induction h generalizing s' rest' with
  | character hline h =>
    cases h' with
    | character hline' h' =>
      obtain ⟨rfl, rfl⟩ := hline.unique hline'
      obtain ⟨rfl, rfl⟩ := Prod.mk.inj
        ((holdsCharacter_iff.mp h').symm.trans (holdsCharacter_iff.mp h))
      exact ⟨rfl, rfl⟩
    | ended _ => exact absurd rfl hline.ne_nil
    | _ => cases hr
  | number hline h =>
    cases h' with
    | number hline' h' =>
      obtain ⟨rfl, rfl⟩ := hline.unique hline'
      cases (holdsNumber_iff.mp h').symm.trans (holdsNumber_iff.mp h)
      exact ⟨rfl, rfl⟩
    | reject hline' h' _ =>
      obtain ⟨rfl, rfl⟩ := hline.unique hline'
      cases (rejects_iff.mp h').symm.trans (holdsNumber_iff.mp h)
    | ended _ => exact absurd rfl hline.ne_nil
    | _ => cases hr
  | reject hline h _ ih =>
    cases h' with
    | number hline' h' =>
      obtain ⟨rfl, rfl⟩ := hline.unique hline'
      cases (holdsNumber_iff.mp h').symm.trans (rejects_iff.mp h)
    | reject hline' h' hrest' =>
      obtain ⟨rfl, rfl⟩ := hline.unique hline'
      cases (rejects_iff.mp h').symm.trans (rejects_iff.mp h)
      obtain ⟨heq, rfl⟩ := ih hrest' rfl
      cases heq
      exact ⟨rfl, rfl⟩
    | ended _ => exact absurd rfl hline.ne_nil
    | _ => cases hr
  | ended r =>
    cases h' with
    | ended r' =>
      cases hr
      exact ⟨rfl, rfl⟩
    | character hline' _ | number hline' _ | reject hline' _ _ => exact absurd rfl hline'.ne_nil

/-! ## 4. Answers -/

/-- The console after writing prompts, if it does that. -/
def shows (c : Console) (prompts : List Char) : Console :=
  { c with out := if c.prompting then c.out ++ prompts.toArray else c.out }

variable {c : Console}

theorem prompt_eq_shows (c : Console) (text : String) : c.prompt text = c.shows text.toList := by
  unfold prompt shows write
  split
  · rfl
  · rfl

theorem shows_nil (c : Console) : c.shows [] = c := by
  simp [shows]

theorem shows_shows (c : Console) (x y : List Char) : (c.shows x).shows y = c.shows (x ++ y) := by
  unfold shows
  cases c.prompting <;> simp

/-- The input of the console is all there. -/
structure Settled (c : Console) : Prop where
  fault : c.feed.fault = none
  growing : c.feed.growing = false

theorem Settled.shows (h : c.Settled) (prompts : List Char) : (c.shows prompts).Settled :=
  ⟨h.fault, h.growing⟩

/-- The console with a text left to read. -/
def withText (c : Console) (text : List Char) : Console := { c with feed := .ofText text }

/-- Where the lines of such a console end, there is no answer. -/
theorem Settled.atEnd_eq (h : c.Settled) : c.atEnd = .quiet c (.ok none) := by
  simp [atEnd, h.fault, h.growing]

theorem Settled.withLines_eq (h : c.Settled) (text : List Char) :
    c.withLines (Feed.ofText text).lines = c.withText text := by
  obtain ⟨⟨lines, fault, growing⟩, prompting, out⟩ := c
  obtain ⟨rfl, rfl⟩ := h
  rfl

/-- **A request for a number is served.**  The console may have any lines in its own feed; those of
the text are the ones that are looked at. -/
theorem exists_serves_number (lines : List (List Char)) : ∀ {c : Console} {text : List Char},
    c.Settled → (Feed.ofText text).lines = lines → ∃ s rest, s.request = .number ∧
      Serves s text rest ∧
      numberFrom c lines = ⟨(c.shows s.prompts).withText rest, s.notes, .ok s.answer⟩ := by
  induction lines with
  | nil =>
    intro c text hc hlines
    have htext : text = [] := by
      by_contra hne
      obtain ⟨line, rest, hline⟩ := exists_firstLine hne
      rw [hline.lines_eq] at hlines
      cases hlines
    subst htext
    refine ⟨⟨.number, [], [], none⟩, [], rfl, .ended _, ?_⟩
    have hprompts : (⟨.number, [], [], none⟩ : Service).prompts = "Input: ".toList := rfl
    have hempty : ((c.shows "Input: ".toList).withLines []).Settled := ⟨hc.fault, hc.growing⟩
    rw [numberFrom, prompt_eq_shows, hprompts, ← (hc.shows _).withLines_eq]
    exact hempty.atEnd_eq
  | cons line lines ih =>
    intro c text hc hlines
    have hne : text ≠ [] := by
      rintro rfl
      cases hlines
    obtain ⟨line', between, hline⟩ := exists_firstLine hne
    obtain ⟨rfl, hbetween⟩ := List.cons.inj (hline.lines_eq.symm.trans hlines)
    have hshown := hc.shows "Input: ".toList
    rw [numberFrom, prompt_eq_shows]
    cases hnumber : numberOfLine line' with
    | ok n =>
      refine ⟨⟨.number, [line'], [], some n⟩, between, rfl,
        .number hline (holdsNumber_iff.mpr hnumber), ?_⟩
      have hprompts : (⟨.number, [line'], [], some n⟩ : Service).prompts = "Input: ".toList := rfl
      rw [hprompts, ← hshown.withLines_eq, hbetween]
      rfl
    | error note =>
      obtain ⟨⟨r, used, notes, answer⟩, rest, hr, hserves, heq⟩ := ih hshown hbetween
      obtain rfl : r = .number := hr
      refine ⟨⟨.number, line' :: used, note :: notes, answer⟩, rest, rfl,
        .reject hline (rejects_iff.mpr hnumber) hserves, ?_⟩
      have hprompts := Service.prompts_cons .number line' used (note :: notes) notes answer
      simp only [heq, hprompts, shows_shows]
      rfl

/-- **Every request is served**, and the console has written a prompt each time it wanted a line. -/
theorem exists_serves (r : Request) (htext : c.feed = .ofText text) :
    ∃ s rest, s.request = r ∧ Serves s text rest ∧
      r.ask c = ⟨(c.shows s.prompts).withText rest, s.notes, .ok s.answer⟩ := by
  have hc : c.Settled := ⟨congrArg Feed.fault htext, congrArg Feed.growing htext⟩
  cases r with
  | number =>
    have hlines : c.feed.lines = (Feed.ofText text).lines := congrArg Feed.lines htext
    obtain ⟨s, rest, hr, hserves, heq⟩ := exists_serves_number _ hc rfl
    refine ⟨s, rest, hr, hserves, ?_⟩
    rw [← hlines] at heq
    exact heq
  | character =>
    have hshown := hc.shows "Input char: ".toList
    rw [Request.ask]
    change ∃ s rest, _ ∧ _ ∧ requestCharacter c = _
    rw [requestCharacter, prompt_eq_shows]
    by_cases hne : text = []
    · subst hne
      have hnone : (c.shows "Input char: ".toList).feed.lines = [] := congrArg Feed.lines htext
      refine ⟨⟨.character, [], [], none⟩, [], rfl, .ended _, ?_⟩
      have hprompts : (⟨.character, [], [], none⟩ : Service).prompts = "Input char: ".toList := rfl
      rw [hprompts, hnone]
      simp only [hshown.atEnd_eq, withText, ← htext]
      rfl
    · obtain ⟨line, rest, hline⟩ := exists_firstLine hne
      have hlines : (c.shows "Input char: ".toList).feed.lines =
          line :: (Feed.ofText rest).lines := (congrArg Feed.lines htext).trans hline.lines_eq
      refine ⟨⟨.character, [line], (characterOfLine line).2, some (characterOfLine line).1⟩, rest,
        rfl, .character hline (holdsCharacter_iff.mpr rfl), ?_⟩
      have hprompts : (⟨.character, [line], (characterOfLine line).2,
        some (characterOfLine line).1⟩ : Service).prompts = "Input char: ".toList := rfl
      rw [hprompts, hlines, ← hshown.withLines_eq]
      rfl

/-! ## 5. One request after another -/

/-- The requests are served one after another, each from what the one before it left. -/
inductive Session : List Service → (text rest : List Char) → Prop
  | done (text : List Char) : Session [] text text
  | more {s : Service} {ss : List Service} {text between rest : List Char}
      (h : Serves s text between) (hrest : Session ss between rest) : Session (s :: ss) text rest

/-- Asks for one thing after another: the notes on each and the answer, and the console that is
left. -/
def askAll : List Request → Console → List (List Note × Except ConsoleFault (Option Int)) × Console
  | [], c => ([], c)
  | r :: rs, c =>
    let a := r.ask c
    ((a.notes, a.value) :: (askAll rs a.state).1, (askAll rs a.state).2)

/-- **No line is taken twice, and none is passed over.** -/
theorem Session.lines_eq (h : Session ss text rest) :
    (Feed.ofText text).lines = ss.flatMap Service.used ++ (Feed.ofText rest).lines := by
  induction h with
  | done text => rfl
  | more h _ ih => rw [h.lines_eq, ih, List.flatMap_cons, List.append_assoc]

/-- **There is one way to serve all of them.** -/
theorem Session.unique (h : Session ss text rest) : ∀ {ss' : List Service} {rest' : List Char},
    Session ss' text rest' → ss'.map Service.request = ss.map Service.request →
      ss' = ss ∧ rest' = rest := by
  induction h with
  | done text =>
    intro ss' rest' h' hrequests
    cases h' with
    | done _ => exact ⟨rfl, rfl⟩
    | more _ _ => cases hrequests
  | more h _ ih =>
    intro ss' rest' h' hrequests
    cases h' with
    | done _ => cases hrequests
    | more hs' hrest' =>
      rw [List.map_cons, List.map_cons] at hrequests
      obtain ⟨hr, hrs⟩ := List.cons.inj hrequests
      obtain ⟨rfl, rfl⟩ := h.unique hs' hr
      obtain ⟨rfl, rfl⟩ := ih hrest' hrs
      exact ⟨rfl, rfl⟩

theorem exists_session (requests : List Request) : ∀ {c : Console} {text : List Char},
    c.feed = .ofText text → ∃ ss rest, ss.map Service.request = requests ∧ Session ss text rest ∧
      askAll requests c = (ss.map fun s => (s.notes, .ok s.answer),
        (c.shows (ss.flatMap Service.prompts)).withText rest) := by
  induction requests with
  | nil =>
    intro c text htext
    refine ⟨[], text, rfl, .done text, ?_⟩
    rw [askAll, List.flatMap_nil, shows_nil, withText, ← htext]
    rfl
  | cons r rs ih =>
    intro c text htext
    obtain ⟨s, between, hr, hserves, hask⟩ := exists_serves r htext
    obtain ⟨ss, rest, hrs, hsession, hrest⟩ := ih (c := (c.shows s.prompts).withText between) rfl
    refine ⟨s :: ss, rest, by rw [List.map_cons, hr, hrs], .more hserves hsession, ?_⟩
    have hshown :
        (((c.shows s.prompts).withText between).shows (ss.flatMap Service.prompts)).withText rest =
          ((c.shows s.prompts).shows (ss.flatMap Service.prompts)).withText rest := rfl
    rw [askAll, hask]
    simp only [hrest, hshown, shows_shows]
    rfl

/-- **Every line of the input is taken once, in order, and by one request.**  A console on any text
answers any requests, and there is one way to serve them: each answer, and the notes on the lines
before it, are those of the request served from what the one before it left.  With prompts there is
one of the right kind for each line that was wanted, and nothing else is written. -/
theorem session_askAll (text : List Char) (prompting : Bool) (requests : List Request) :
    ∃ ss rest, ss.map Service.request = requests ∧ Session ss text rest ∧
      (∀ ss' rest', ss'.map Service.request = requests → Session ss' text rest' →
        ss' = ss ∧ rest' = rest) ∧
      (Feed.ofText text).lines = ss.flatMap Service.used ++ (Feed.ofText rest).lines ∧
      askAll requests { feed := .ofText text, prompting := prompting } =
        (ss.map fun s => (s.notes, .ok s.answer),
          { feed := .ofText rest, prompting := prompting,
            out := if prompting then (ss.flatMap Service.prompts).toArray else #[] }) := by
  obtain ⟨ss, rest, hrequests, hsession, hask⟩ :=
    exists_session requests (c := { feed := .ofText text, prompting := prompting }) rfl
  refine ⟨ss, rest, hrequests, hsession, fun ss' rest' hrequests' hsession' => ?_,
    hsession.lines_eq, ?_⟩
  · exact hsession.unique hsession' (hrequests'.trans hrequests.symm)
  · rw [hask]
    simp [shows, withText]

/-- Two lines without a number are passed over, a line that is empty but for its carriage return is
a line feed, and the last line is taken although nothing ends it. -/
example : (askAll [.number, .character, .character, .number]
    { feed := .ofText "x\n1000\n42\n\r\nHi".toList }).1.map (·.2.toOption) =
      [some (some 42), some (some 10), some (some 72), some none] := by
  rfl

end Console
end MinionComputer
