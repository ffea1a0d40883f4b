/-
# Three devices, one run

A program for numbers cannot tell whether what is typed comes from a console, arrives on a serial
line, or stands in a scripted device as the numbers on its lines; and the three are handed the same
numbers, which the console and the line write as lines.

* `Console.numberOn?_of_typeable`, `SerialLine.numberOn?_asciiBytes`: a line says the same as
  characters and as bytes;
* `Console.follows_scripted`, `SerialLine.follows_scripted`: the devices against a scripted one;
* `Typescript.runs_agree`: a run with each of the three.
-/
import MinionComputer.Proofs.Device.Console
import MinionComputer.Proofs.Device.Scripted
import MinionComputer.Proofs.Device.SerialLine
import MinionComputer.Proofs.Machine.Following
import MinionComputer.Proofs.Text.Typescript

namespace MinionComputer

open Text

/-! ## 1. What a line says -/

/-- **A console reads the number on a line that was typed.** -/
theorem Console.numberOn?_of_typeable {l : List Char} (h : ∀ c ∈ l, isTypeable c = true) :
    numberOn? l = lineNumber? l := by
  have htrim : readInteger (trim l) = readInteger l :=
    readInteger_trimBy fun c hc => isBlank_eq_isMargin (h c hc)
  simp only [numberOn?, numberOfLine, lineNumber?, htrim]
  cases readInteger l with
  | error f => rfl
  | ok n =>
    by_cases hn : 0 ≤ n ∧ n ≤ 999
    · simp [hn, Except.toOption]
    · simp [hn, Except.toOption]

/-- The blanks among the bytes are the bytes of the blanks. -/
theorem SerialLine.isBlankByte_of_typeable {c : Char} (h : isTypeable c = true) :
    isBlankByte c.toNat.toUInt8 = isMargin c := by
  rw [Bool.eq_iff_iff, isMargin_iff_of_isTypeable h, isBlankByte, toNat_byte_of_isTypeable h]
  rw [isTypeable_iff] at h
  simp only [Bool.or_eq_true, Bool.and_eq_true, decide_eq_true_eq, beq_iff_eq]
  omega

/-- **A serial line reads the number on a line that was typed**, from its bytes. -/
theorem SerialLine.numberOn?_asciiBytes {l : List Char} (h : ∀ c ∈ l, isTypeable c = true) :
    numberOn? (asciiBytes l) = lineNumber? l := by
  have htrim : trimBy isBlankByte (asciiBytes l) = asciiBytes (trimBy isMargin l) := by
    have hblank : ∀ c ∈ l, (isBlankByte ∘ fun c => c.toNat.toUInt8) c = isMargin c :=
      fun c hc => isBlankByte_of_typeable (h c hc)
    rw [asciiBytes, trimBy_map, trimBy_congr hblank]
    rfl
  have hread : readInteger l = readInteger (trimBy isMargin l) :=
    (readInteger_trimBy fun c _ => rfl).symm
  have hbody : ∀ c ∈ trimBy isMargin l, isTypeable c = true :=
    fun c hc => h c (mem_of_mem_trimBy hc)
  simp only [numberOn?, numberOfLine, lineNumber?, htrim, hread]
  generalize trimBy isMargin l = body at hbody
  have hplain : (asciiBytes body).all (fun b => decide (b.toNat < 128)) = true := by
    simp only [asciiBytes, List.all_map, List.all_eq_true, Function.comp_apply, decide_eq_true_eq]
    intro c hc
    have hc' := isTypeable_iff.mp (hbody c hc)
    rw [toNat_byte_of_isTypeable (hbody c hc)]
    omega
  rw [hplain, map_asciiBytes hbody]
  cases body with
  | nil => rfl
  | cons c body =>
    have hne : (asciiBytes (c :: body)).isEmpty = false := rfl
    rw [hne]
    cases readInteger (c :: body) with
    | error f => rfl
    | ok n =>
      by_cases hn : 0 ≤ n ∧ n ≤ 999
      · simp [hn, Except.toOption]
      · simp [hn, Except.toOption]

/-! ## 2. What is written -/

/-- What a scripted device has written, on lines. -/
theorem Scripted.numberLines_emitNumber (q : Scripted) (n : Int) :
    numberLines (device.emitNumber n q).state.outputs = numberLines q.outputs ++ numberLine n := by
  rw [← numberLines_append_singleton, ← outputs_push q.numbers q.characters q.events (.number n)]
  rfl

/-- A console writes a number on a line of its own. -/
theorem Console.out_emitNumber (c : Console) (n : Int) :
    (device.emitNumber n c).state.out.toList = c.out.toList ++ numberLine n := by
  simp [device, emitNumber, Answer.quiet, write, integer, numberLine]

/-- A serial line sends the bytes of the line that a number is on. -/
theorem SerialLine.numberBytes_eq (n : Int) : numberBytes n = asciiBytes (numberLine n) := by
  rw [numberLine, asciiBytes_append]
  rfl

/-! ## 3. Against a scripted device -/

/-- A scripted device without empty entries takes the first number and leaves the others. -/
theorem Scripted.requestNumber_of_map {q : Scripted} {ns : List Int}
    (h : q.numbers = ns.map some) : (device.requestNumber q).value = .ok ns.head? ∧
      (device.requestNumber q).state.numbers = ns.tail.map some ∧
      (device.requestNumber q).state.outputs = q.outputs := by
  obtain ⟨numbers, characters, events⟩ := q
  obtain rfl : numbers = ns.map some := h
  cases ns with
  | nil => exact ⟨rfl, rfl, rfl⟩
  | cons n ns => exact ⟨rfl, rfl, rfl⟩

/-- The scripted device has the numbers that the console has, and has written what it has. -/
structure Console.Mirrors (c : Console) (q : Scripted) : Prop where
  ready : c.Ready
  numbers : q.numbers = c.numbers.map some
  out : c.out.toList = numberLines q.outputs

/-- **A console does what a scripted device with its numbers does.** -/
theorem Console.follows_scripted :
    device.Follows Scripted.device Mirrors fun _ _ => False where
  requestNumber := by
    intro c q h
    obtain ⟨rest, hstate, hvalue, htail⟩ := requestNumber_ready h.ready
    obtain ⟨hvalue', hnumbers, houtputs⟩ := Scripted.requestNumber_of_map h.numbers
    refine .inl ⟨c.numbers.head?, hvalue, hvalue', ?_⟩
    rw [hstate]
    refine ⟨h.ready.withLines rest, ?_, ?_⟩
    · rw [hnumbers, htail]
    · rw [houtputs]
      exact h.out
  emitNumber := by
    intro n c q h
    refine ⟨rfl, rfl, h.ready.write _, h.numbers, ?_⟩
    rw [out_emitNumber, h.out, Scripted.numberLines_emitNumber]

/-- The scripted device has the numbers that the line has still to give, and has written what the
line has sent. -/
structure SerialLine.Mirrors (s : SerialLine) (q : Scripted) : Prop where
  attached : s.attached = true
  wiring : s.port.wiring = .line
  numbers : q.numbers = (numbersIn s.pending).map some
  sent : s.port.sent.toList = asciiBytes (numberLines q.outputs)

/-- **A serial line does what a scripted device with its numbers does.** -/
theorem SerialLine.follows_scripted :
    device.Follows Scripted.device Mirrors fun _ _ => False where
  requestNumber := by
    intro s q h
    obtain ⟨x, hvalue, hgives⟩ := gives_requestNumber h.attached
    obtain ⟨hvalue', hnumbers, houtputs⟩ := Scripted.requestNumber_of_map h.numbers
    rw [← hgives.first] at hvalue'
    refine .inl ⟨x, hvalue, hvalue', ?_⟩
    refine ⟨hgives.attached.trans h.attached, hgives.wiring.trans h.wiring, ?_, ?_⟩
    · rw [hnumbers, hgives.tail_eq]
    · rw [houtputs, ← h.sent]
      exact congrArg Array.toList hgives.sent
  emitNumber := by
    intro n s q h
    obtain ⟨flushes, hemit⟩ := emitNumber_line h.attached h.wiring n
    rw [hemit]
    refine ⟨rfl, rfl, h.attached, h.wiring, h.numbers, ?_⟩
    simp only [Answer.quiet, Array.toList_append, h.sent, numberBytes_eq,
      Scripted.numberLines_emitNumber, asciiBytes_append]

/-! ## 4. Runs -/

namespace Typescript

variable (t : Typescript)

theorem mirrors_console :
    ({ feed := .ofText t.text, prompting := false } : Console).Mirrors
      { numbers := t.numbers.map some } := by
  refine ⟨⟨rfl, rfl, rfl⟩, ?_, rfl⟩
  have hlines : (Feed.ofText t.text).lines = t.lines := by
    rw [Feed.ofText, splitAt_text, dropEmptyLast_append]
  have hnumbers : t.lines.filterMap Console.numberOn? = t.numbers :=
    List.filterMap_congr fun l hl => Console.numberOn?_of_typeable (t.typeable l hl)
  rw [Console.numbers, hlines, hnumbers]

/-- The bytes are those of the lines, joined. -/
theorem bytes_eq_joinLines : t.bytes = SerialLine.joinLines (t.lines.map asciiBytes) := by
  rw [bytes, text, asciiBytes, List.map_flatMap, SerialLine.joinLines, List.flatMap_map]
  exact List.flatMap_congr fun l _ => asciiBytes_append l ['\n']

/-- No line feed is among the bytes of a line. -/
theorem lineFeed_not_mem_asciiBytes : ∀ l ∈ t.lines.map asciiBytes, 10 ∉ l := by
  intro l hl
  obtain ⟨line, hline, rfl⟩ := List.mem_map.mp hl
  exact Text.lineFeed_not_mem_asciiBytes (t.typeable line hline)

theorem mirrors_serialLine :
    ({ port := { waiting := t.bytes } } : SerialLine).Mirrors
      { numbers := t.numbers.map some } := by
  refine ⟨rfl, rfl, ?_, rfl⟩
  have hnumbers : (t.lines.map asciiBytes).filterMap SerialLine.numberOn? = t.numbers := by
    rw [List.filterMap_map]
    exact List.filterMap_congr fun l hl => SerialLine.numberOn?_asciiBytes (t.typeable l hl)
  have hpending : SerialLine.pending { port := { waiting := t.bytes } } =
      SerialLine.joinLines (t.lines.map asciiBytes) ++ [] := by
    rw [List.append_nil, ← bytes_eq_joinLines]
    rfl
  rw [hpending, SerialLine.numbersIn_joinLines_append t.lineFeed_not_mem_asciiBytes, hnumbers]
  exact congrArg (List.map some) (List.append_nil _).symm

/-- **A program for numbers runs in the same way on a console, on a serial line and on a scripted
device.**  On every memory that is not for extended mode, with every budget and on everything that
can be typed, the run with a console that reads the text, the run with a serial line on which its
bytes wait and the run with a scripted device that has the numbers on its lines end with one result
and one machine, and the console and the line write the numbers that the scripted device is handed,
each on a line of its own. -/
theorem runs_agree (memory : Memory) (hmode : memory.read 0 ≠ 10) (budget : Int) :
    let m := Machine.start memory
    let scripted := m.run Scripted.device budget { numbers := t.numbers.map some }
    let console := m.run Console.device budget { feed := .ofText t.text, prompting := false }
    let serial := m.run SerialLine.device budget { port := { waiting := t.bytes } }
    ∃ r, scripted.result = .ok r ∧ console.result = .ok r ∧ serial.result = .ok r ∧
      console.machine = scripted.machine ∧ serial.machine = scripted.machine ∧
      console.device.out.toList = numberLines scripted.device.outputs ∧
      serial.device.port.sent.toList = asciiBytes (numberLines scripted.device.outputs) := by
  intro m scripted console serial
  have hplain : m.Plain := .start hmode
  obtain ⟨r, hconsole, hscripted, hmachine, hmirrors⟩ :=
    hplain.run_same Console.follows_scripted t.mirrors_console budget
  obtain ⟨r', hserial, hscripted', hmachine', hmirrors'⟩ :=
    hplain.run_same SerialLine.follows_scripted t.mirrors_serialLine budget
  obtain rfl : r = r' := Except.ok.inj (hscripted.symm.trans hscripted')
  exact ⟨r, hscripted, hconsole, hserial, hmachine, hmachine', hmirrors.out, hmirrors'.sent⟩

/-- A tab and a sign around a number, a line that is none, an empty line and a number that is too
large. -/
def countingScript : Typescript where
  lines := ["\t+7 ".toList, "seven".toList, [], "1000".toList, "007".toList]
  typeable := by simp [isTypeable]

/-- The program `901 902 600` writes what it reads until nothing is left. -/
theorem runs_agree_counting :
    (Memory.ofList [901, 902, 600]).read 0 ≠ 10 ∧
    let m := Machine.start (.ofList [901, 902, 600])
    let scripted := m.run Scripted.device 9 { numbers := countingScript.numbers.map some }
    let console := m.run Console.device 9
      { feed := .ofText countingScript.text, prompting := false }
    let serial := m.run SerialLine.device 9 { port := { waiting := countingScript.bytes } }
    scripted.device.outputs = [7, 7] ∧
    ∃ r, scripted.result = .ok r ∧ console.result = .ok r ∧ serial.result = .ok r ∧
      console.machine = scripted.machine ∧ serial.machine = scripted.machine ∧
      console.device.out.toList = numberLines scripted.device.outputs ∧
      serial.device.port.sent.toList = asciiBytes (numberLines scripted.device.outputs) :=
  ⟨by decide, rfl, runs_agree countingScript (.ofList [901, 902, 600]) (by decide) 9⟩

end Typescript
end MinionComputer
