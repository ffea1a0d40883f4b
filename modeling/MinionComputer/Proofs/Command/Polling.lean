/-
# Waiting for a serial line

A run that waits whenever its serial line has no number yet comes to what a run comes to for which
all bytes are there from the beginning.  While it waits nothing happens to the machine; the bytes
that arrive make the line hold what the other line held all the time; and the steps that are left
are those that the other run has left at the same place.

* `SerialLine.Due`: a line that lacks the bytes which are still to arrive;
* `SerialLine.follows_due`: it gives the same numbers, or is late;
* `SerialLine.polled_of_due`: a run that waits against one that need not;
* `SerialLine.polled_eq_run`: however the bytes are cut into arrivals.
-/
import MinionComputer.Command.Execution
import MinionComputer.Proofs.Device.SerialLine
import MinionComputer.Proofs.Machine.Following

namespace MinionComputer
namespace SerialLine

variable {m : Machine} {s q : SerialLine} {arrivals : List (List UInt8)}

/-! ## 1. Bytes that are still to arrive -/

/-- The lines hold the same numbers once `arrivals` have come to the first, and they have sent the
same. -/
structure Due (arrivals : List (List UInt8)) (s q : SerialLine) : Prop where
  attached : s.attached = true
  attached' : q.attached = true
  wiring : s.port.wiring = .line
  wiring' : q.port.wiring = .line
  numbers : numbersIn (s.pending ++ arrivals.flatten) = numbersIn q.pending
  sent : s.port.sent = q.port.sent

/-- An arrival is not to arrive any more. -/
theorem Due.feed {bs : List UInt8} (h : Due (bs :: arrivals) s q) : Due arrivals (s.feed bs) q := by
  refine ⟨h.attached, h.attached', h.wiring, h.wiring', ?_, h.sent⟩
  rw [pending_feed, List.append_assoc, ← List.flatten_cons]
  exact h.numbers

/-- A request that gives the same number to both lines makes no difference. -/
theorem Due.gives {s' q' : SerialLine} {x : Option Int} (h : Due arrivals s q) (hs : s.Gives s' x)
    (hq : q.Gives q' x) : Due arrivals s' q' := by
  refine ⟨hs.attached.trans h.attached, hq.attached.trans h.attached', hs.wiring.trans h.wiring,
    hq.wiring.trans h.wiring', ?_, hs.sent.trans (h.sent.trans hq.sent.symm)⟩
  have hnumbers := hq.others []
  rw [List.append_nil, List.append_nil, ← h.numbers, hs.others] at hnumbers
  exact List.append_cancel_left hnumbers

/-- A request that gives no number to the first line takes nothing from its numbers. -/
theorem Due.gives_none {s' : SerialLine} (h : Due arrivals s q) (hs : s.Gives s' none) :
    Due arrivals s' q :=
  ⟨hs.attached.trans h.attached, h.attached', hs.wiring.trans h.wiring, h.wiring',
    (hs.others arrivals.flatten).symm.trans h.numbers, hs.sent.trans h.sent⟩

/-- **A line that lacks some bytes gives the numbers of one that has them all**, unless it has none
yet, and then something is still to arrive. -/
theorem follows_due (arrivals : List (List UInt8)) :
    device.Follows device (Due arrivals) fun s q => Due arrivals s q ∧ arrivals ≠ [] where
  requestNumber := by
    intro s q h
    obtain ⟨x, hvalue, hgives⟩ := gives_requestNumber h.attached
    obtain ⟨x', hvalue', hgives'⟩ := gives_requestNumber h.attached'
    have hfirst : x' = x ∨ x = none ∧ arrivals ≠ [] := by
      rw [hgives'.first, ← h.numbers]
      cases arrivals with
      | nil =>
        rw [List.flatten_nil, List.append_nil]
        exact .inl hgives.first.symm
      | cons a rest =>
        rw [hgives.others]
        cases x with
        | none => exact .inr ⟨rfl, List.cons_ne_nil a rest⟩
        | some n => exact .inl rfl
    rcases hfirst with rfl | ⟨rfl, hne⟩
    · exact .inl ⟨x', hvalue, hvalue', h.gives hgives hgives'⟩
    · exact .inr ⟨hvalue, h.gives_none hgives, hne⟩
  emitNumber := by
    intro n s q h
    obtain ⟨flushes, hemit⟩ := emitNumber_line h.attached h.wiring n
    obtain ⟨flushes', hemit'⟩ := emitNumber_line h.attached' h.wiring' n
    rw [hemit, hemit']
    refine ⟨rfl, rfl, h.attached, h.attached', h.wiring, h.wiring', h.numbers, ?_⟩
    exact congrArg (· ++ (numberBytes n).toArray) h.sent

/-! ## 2. Runs that wait -/

/-- A run that waits on a serial line, to which more bytes come each time. -/
def polled (maxSteps : Int) (arrivals : List (List UInt8)) (m : Machine) (s : SerialLine) :
    Drive SerialLine PortFault :=
  drive device (fun bs l => l.feed bs) maxSteps true arrivals m s

/-- A run that does not wait is only a run. -/
theorem polled_of_done {maxSteps : Int} {r : StepResult}
    (h : (m.run device (maxSteps - m.registers.steps) s).result = .ok r)
    (hr : r.outcome ≠ .awaitingInput) :
    polled maxSteps arrivals m s = .ofTurn (m.run device (maxSteps - m.registers.steps) s) := by
  have hdone : isWaiting (m.run device (maxSteps - m.registers.steps) s).result = false := by
    rw [h]
    exact beq_false_of_ne hr
  unfold polled drive
  simp [hdone]

/-- A run that waits is taken up again after the next arrival. -/
theorem polled_of_waiting {maxSteps : Int} {a : Address} {c : Cell} {bs : List UInt8}
    {t : Turn SerialLine PortFault} (ht : m.run device (maxSteps - m.registers.steps) s = t)
    (h : t.result = .ok ⟨.awaitingInput, a, c⟩) : polled maxSteps (bs :: arrivals) m s =
      { polled maxSteps arrivals t.machine (t.device.feed bs) with
        notes := t.notes ++ (polled maxSteps arrivals t.machine (t.device.feed bs)).notes,
        naps := (polled maxSteps arrivals t.machine (t.device.feed bs)).naps + 1 } := by
  have hwaiting : isWaiting t.result = true := by
    rw [h]
    rfl
  rw [polled, drive]
  simp [ht, hwaiting, polled]

/-- A run that waited has come to the end of another run: it gives the same result, leaves the same
machine and has sent the same, and it has waited at most so often. -/
structure Reaches (d : Drive SerialLine PortFault) (t : Turn SerialLine PortFault) (r : StepResult)
    (naps : Nat) : Prop where
  result : d.result = .ok r
  machine : d.machine = t.machine
  sent : d.device.port.sent = t.device.port.sent
  naps : d.naps ≤ naps

/-- **A run that waits for the bytes that its line lacks comes to the end of the run that has
them.** -/
theorem polled_of_due (maxSteps budget : Int) (arrivals : List (List UInt8)) (first : Bool)
    (notes : Array Note) {m : Machine} {s q : SerialLine} (h : m.Plain) (hdue : Due arrivals s q) :
    let t := Machine.runFrom device budget (maxSteps - m.registers.steps).toNat first notes m q
    ∃ r, t.result = .ok r ∧
      (r.outcome ≠ .awaitingInput →
        Reaches (polled maxSteps arrivals m s) t r arrivals.length) := by
  intro t
  -- by recursion on the arrivals: either the run needs none of them, or it waits for the first
  have hruns : Machine.RunsFollow (Due arrivals) _ device budget _ m
      (m.run device (maxSteps - m.registers.steps) s) t :=
    Machine.runsFollow_runFrom (follows_due arrivals) _ budget _ true first #[] notes h hdue
  rcases hruns with ⟨r, hmachine, hs, hq, hdevice⟩ |
    ⟨a, c, left', first', notes', q', hs, ⟨hdue', hne⟩, hleft, ht⟩
  · refine ⟨r, hq, ?_⟩
    intro hr
    rw [polled_of_done hs hr]
    exact ⟨congrArg (Except.mapError DriveFault.step) hs, hmachine.symm, hdevice.sent,
      Nat.zero_le _⟩
  · obtain ⟨bs, rest, hcons⟩ := List.exists_cons_of_ne_nil hne
    have hplain := h.run device (maxSteps - m.registers.steps) s
    have ih := polled_of_due maxSteps budget rest first' notes' hplain (hcons ▸ hdue').feed
    -- the other run has as many steps left as the run after the wait may take
    have hbounds := Machine.steps_run_bounds h.sound device (maxSteps - m.registers.steps) s
    have hsteps : (maxSteps - (m.run device (maxSteps - m.registers.steps) s).machine.registers.steps
        ).toNat = left' := by
      omega
    rw [hsteps, ← ht] at ih
    obtain ⟨r, hr, hreaches⟩ := ih
    refine ⟨r, hr, ?_⟩
    intro hne
    obtain ⟨hresult, hmachine, hsent, hnaps⟩ := hreaches hne
    subst hcons
    rw [polled_of_waiting rfl hs]
    exact ⟨hresult, hmachine, hsent, Nat.succ_le_succ hnaps⟩
termination_by arrivals.length
decreasing_by simp [hcons]

/-- **It makes no difference to a run how its bytes arrive.**  On every memory that is not for
extended mode and within every budget, a run for which all bytes wait in the port from the beginning
gives a result.  If that is not that it waits for input, then however the bytes are cut into those
that wait from the beginning and arrivals, a run that waits for the arrivals one after another gives
the same result, leaves the same machine and sends the same bytes, and it waits at most once for
each arrival. -/
theorem polled_eq_run (memory : Memory) (hmode : memory.read 0 ≠ 10) (maxSteps : Int)
    (bs : List UInt8) (arrivals : List (List UInt8)) :
    let m := Machine.start memory
    let t := m.run device maxSteps { port := { waiting := bs ++ arrivals.flatten } }
    let d := polled maxSteps arrivals m { port := { waiting := bs } }
    ∃ r, t.result = .ok r ∧ (r.outcome ≠ .awaitingInput → Reaches d t r arrivals.length) := by
  have hplain : (Machine.start memory).Plain := .start hmode
  have hdue : Due arrivals { port := { waiting := bs } }
      { port := { waiting := bs ++ arrivals.flatten } } :=
    ⟨rfl, rfl, rfl, rfl, rfl, rfl⟩
  have hall := polled_of_due maxSteps maxSteps arrivals true #[] hplain hdue
  have hbudget : maxSteps - (Machine.start memory).registers.steps = maxSteps := Int.sub_zero _
  rw [hbudget] at hall
  exact hall

/-- The program `901 902 000` writes the number it reads.  A line without a number comes first, and
the number after it arrives in three parts, the first of them empty. -/
theorem polled_eq_run_echo :
    let m := Machine.start (.ofList [901, 902, 0])
    let t := m.run device 5 { port := { waiting := [120, 10, 52] ++ [[], [50], [10]].flatten } }
    let d := polled 5 [[], [50], [10]] m { port := { waiting := [120, 10, 52] } }
    (Memory.ofList [901, 902, 0]).read 0 ≠ 10 ∧ t.device.port.sent = #[52, 50, 10] ∧
      Reaches d t ⟨.halted, 2, 0⟩ 3 := by
  have hall := polled_eq_run (.ofList [901, 902, 0]) (by decide) 5 [120, 10, 52] [[], [50], [10]]
  obtain ⟨r, hr, hreaches⟩ := hall
  have hhalted : (.ok ⟨.halted, 2, 0⟩ : Except (StepFault PortFault) StepResult) = .ok r := hr
  obtain rfl := Except.ok.inj hhalted
  exact ⟨by decide, rfl, hreaches (by decide)⟩

end SerialLine
end MinionComputer
