/-
# The numbers on a console

A console gives the numbers on the lines of its input.  The lines without a number make no
difference: a request takes the first number and leaves the others.

* `Console.Ready`: a console whose input is all there, and which writes nothing when it is asked;
* `Console.numbers`: the numbers on its lines;
* `Console.requestNumber_ready`: what a request for a number takes and what it leaves.
-/
import MinionComputer.Device.Console

namespace MinionComputer
namespace Console

/-- A console without prompts whose input ends where its lines end. -/
structure Ready (c : Console) : Prop where
  prompting : c.prompting = false
  fault : c.feed.fault = none
  growing : c.feed.growing = false

variable {c : Console}

/-- The console with other lines left to read. -/
def withLines (c : Console) (lines : List (List Char)) : Console :=
  { c with feed := { c.feed with lines := lines } }

theorem Ready.withLines (h : c.Ready) (lines : List (List Char)) : (c.withLines lines).Ready :=
  ⟨h.prompting, h.fault, h.growing⟩

theorem Ready.write (h : c.Ready) (text : String) : (c.write text).Ready :=
  ⟨h.prompting, h.fault, h.growing⟩

theorem Ready.prompt_eq (h : c.Ready) (text : String) : c.prompt text = c := by
  simp [prompt, h.prompting]

/-- What a line says as a number, if it says one. -/
def numberOn? (line : List Char) : Option Int := (numberOfLine line).toOption

/-- The numbers on the lines that are left. -/
def numbers (c : Console) : List Int := c.feed.lines.filterMap numberOn?

/-- Lines are used up to the first that holds a number, or to the last. -/
theorem numberFrom_ready (h : c.Ready) (lines : List (List Char)) : ∃ rest,
    (numberFrom c lines).state = c.withLines rest ∧
      (numberFrom c lines).value = .ok (lines.filterMap numberOn?).head? ∧
      rest.filterMap numberOn? = (lines.filterMap numberOn?).tail := by
  induction lines with
  | nil =>
    refine ⟨[], ?_, ?_, rfl⟩
    · simp [numberFrom, h.prompt_eq, atEnd, h.fault, Answer.quiet, withLines]
    · simp [numberFrom, h.prompt_eq, atEnd, h.fault, h.growing, Answer.quiet]
  | cons line lines ih =>
    simp only [numberFrom, h.prompt_eq]
    cases hline : numberOfLine line with
    | ok n =>
      have hn : numberOn? line = some n := congrArg Except.toOption hline
      rw [List.filterMap_cons_some hn]
      exact ⟨lines, rfl, rfl, rfl⟩
    | error note =>
      have hn : numberOn? line = none := congrArg Except.toOption hline
      rw [List.filterMap_cons_none hn]
      exact ih

/-- **A request for a number takes the first number there is and leaves the others.** -/
theorem requestNumber_ready (h : c.Ready) : ∃ rest,
    (device.requestNumber c).state = c.withLines rest ∧
      (device.requestNumber c).value = .ok c.numbers.head? ∧
      (c.withLines rest).numbers = c.numbers.tail :=
  numberFrom_ready h c.feed.lines

end Console
end MinionComputer
