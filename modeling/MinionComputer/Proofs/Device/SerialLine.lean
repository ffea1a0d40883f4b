/-
# The numbers on a serial line

A serial line gives the numbers on the complete lines among the bytes that it has not used.  Which
of these bytes still wait in the port does not matter, and neither do the lines without a number: a
request takes the first number, and what it leaves has the other numbers, then and also when more
bytes arrive.

* `SerialLine.splitLines_joinLines_append`: lines come apart where they were joined;
* `SerialLine.numbersIn`: the numbers on complete lines;
* `SerialLine.gives_requestNumber`: what a request for a number takes and what it leaves;
* `SerialLine.emitNumber_of_taken`: what becomes of a number that the port takes;
* `SerialLine.emitNumber_line`: what writing a number to someone else sends.
-/
import MinionComputer.Device.SerialLine

namespace MinionComputer
namespace SerialLine

variable {s : SerialLine} {bs l : List UInt8} {ls : List (List UInt8)}

/-! ## 1. Lines -/

/-- A complete line in front of bytes is the first of their lines. -/
theorem splitLines_append_cons : ∀ {l : List UInt8}, 10 ∉ l → ∀ bs : List UInt8,
    splitLines (l ++ 10 :: bs) = (l :: (splitLines bs).1, (splitLines bs).2)
  | [], _, bs => by simp [splitLines]
  | b :: l, h, bs => by
    have hb : b ≠ 10 := fun hb => h (hb ▸ List.mem_cons_self)
    have hl : 10 ∉ l := fun hl => h (List.mem_cons_of_mem b hl)
    rw [List.cons_append, splitLines, splitLines_append_cons hl bs]
    simp only [if_neg hb]

theorem joinLines_cons_append (l : List UInt8) (ls : List (List UInt8)) (bs : List UInt8) :
    joinLines (l :: ls) ++ bs = l ++ 10 :: (joinLines ls ++ bs) := by
  simp [joinLines]

/-- **Lines come apart where they were joined**, whatever comes behind them. -/
theorem splitLines_joinLines_append (h : ∀ l ∈ ls, 10 ∉ l) (bs : List UInt8) :
    splitLines (joinLines ls ++ bs) = (ls ++ (splitLines bs).1, (splitLines bs).2) := by
  induction ls with
  | nil => rfl
  | cons l ls ih =>
    rw [List.forall_mem_cons] at h
    rw [joinLines_cons_append, splitLines_append_cons h.1, ih h.2, List.cons_append]

/-- What the lines and the rest of bytes are: nothing is lost, and no line feed is in a line. -/
structure Lines (bs : List UInt8) (ls : List (List UInt8)) (rest : List UInt8) : Prop where
  join : joinLines ls ++ rest = bs
  lines : ∀ l ∈ ls, 10 ∉ l
  rest : 10 ∉ rest

theorem lines_splitLines : ∀ bs : List UInt8, Lines bs (splitLines bs).1 (splitLines bs).2
  | [] => ⟨rfl, by simp [splitLines], by simp [splitLines]⟩
  | b :: bs => by
    have ih := lines_splitLines bs
    rw [splitLines]
    generalize splitLines bs = x at ih
    obtain ⟨ls, rest⟩ := x
    by_cases hb : b = 10
    · subst hb
      simp only [if_true]
      exact ⟨by simpa [joinLines] using ih.join, by simpa using ih.lines, ih.rest⟩
    · simp only [if_neg hb]
      cases ls with
      | nil =>
        refine ⟨by simpa [joinLines] using ih.join, by simp, ?_⟩
        simpa [Ne.symm hb] using ih.rest
      | cons l ls =>
        refine ⟨by simpa [joinLines] using ih.join, ?_, ih.rest⟩
        have hlines := ih.lines
        rw [List.forall_mem_cons] at hlines ⊢
        exact ⟨by simpa [Ne.symm hb] using hlines.1, hlines.2⟩

/-! ## 2. Numbers -/

/-- What a line says as a number, if it says one. -/
def numberOn? (line : List UInt8) : Option Int := (numberOfLine line).toOption

/-- The numbers on the complete lines among the bytes. -/
def numbersIn (bs : List UInt8) : List Int := (splitLines bs).1.filterMap numberOn?

theorem numbersIn_joinLines_append (h : ∀ l ∈ ls, 10 ∉ l) (bs : List UInt8) :
    numbersIn (joinLines ls ++ bs) = ls.filterMap numberOn? ++ numbersIn bs := by
  rw [numbersIn, splitLines_joinLines_append h, List.filterMap_append]
  rfl

/-- Taking a number from lines takes the first there is and leaves the others. -/
theorem ofLines_spec (ls : List (List UInt8)) :
    (Taking.ofLines ls).number = (ls.filterMap numberOn?).head? ∧
      (Taking.ofLines ls).rest <:+ ls ∧
      ls.filterMap numberOn? =
        (Taking.ofLines ls).number.toList ++ (Taking.ofLines ls).rest.filterMap numberOn? := by
  induction ls with
  | nil => exact ⟨rfl, List.suffix_rfl, rfl⟩
  | cons l ls ih =>
    cases hl : numberOfLine l with
    | ok n =>
      have hn : numberOn? l = some n := congrArg Except.toOption hl
      rw [List.filterMap_cons_some hn]
      simp only [Taking.ofLines, hl]
      exact ⟨rfl, List.suffix_cons l ls, rfl⟩
    | error note =>
      have hn : numberOn? l = none := congrArg Except.toOption hl
      rw [List.filterMap_cons_none hn]
      simp only [Taking.ofLines, hl]
      exact ⟨ih.1, ih.2.1.trans (List.suffix_cons l ls), ih.2.2⟩

/-! ## 3. Requests -/

/-- The bytes that were not used, whether or not they were taken from the port. -/
def pending (s : SerialLine) : List UInt8 := s.received ++ s.port.waiting

theorem pending_feed (s : SerialLine) (bs : List UInt8) :
    (s.feed bs).pending = s.pending ++ bs := by
  simp [pending, feed]

/-- A request for a number that gives `x` takes it from the front of the numbers and leaves `s'`,
which has the others, also when more bytes arrive.  Nothing is sent, and the port stays. -/
structure Gives (s s' : SerialLine) (x : Option Int) : Prop where
  first : x = (numbersIn s.pending).head?
  others : ∀ more, numbersIn (s.pending ++ more) = x.toList ++ numbersIn (s'.pending ++ more)
  attached : s'.attached = s.attached
  wiring : s'.port.wiring = s.port.wiring
  sent : s'.port.sent = s.port.sent

/-- Without more bytes, the others are those behind the first. -/
theorem Gives.tail_eq {s' : SerialLine} {x : Option Int} (h : s.Gives s' x) :
    (numbersIn s.pending).tail = numbersIn s'.pending := by
  have hnow := h.others []
  have hfirst := h.first
  rw [List.append_nil, List.append_nil] at hnow
  generalize numbersIn s.pending = ns at hnow hfirst
  subst hfirst
  cases ns with
  | nil => exact hnow
  | cons n ns => exact List.tail_eq_of_cons_eq hnow

/-- What a request for a number makes of the bytes that were not used. -/
theorem requestNumber_eq (h : s.attached = true) :
    let t := Taking.ofLines (splitLines s.pending).1
    device.requestNumber s =
      ⟨{ s.poll with received := joinLines t.rest ++ (splitLines s.pending).2 }, t.notes,
        .ok t.number⟩ := by
  have hreceived : s.poll.received = s.pending := rfl
  simp only [device, requestNumber, h, hreceived]
  rfl

/-- **A request for a number takes the first number there is and leaves the others.** -/
theorem gives_requestNumber (h : s.attached = true) :
    ∃ x, (device.requestNumber s).value = .ok x ∧ s.Gives (device.requestNumber s).state x := by
  have hlines := lines_splitLines s.pending
  obtain ⟨hnumber, hrest, hall⟩ := ofLines_spec (splitLines s.pending).1
  have hleft : ∀ l ∈ (Taking.ofLines (splitLines s.pending).1).rest, 10 ∉ l := by
    intro l hl
    exact hlines.lines l (hrest.subset hl)
  rw [requestNumber_eq h]
  refine ⟨_, rfl, hnumber, ?_, rfl, rfl, rfl⟩
  intro more
  -- the lines are the same whatever arrives, so the new bytes only make the rest longer
  have hbefore : numbersIn (s.pending ++ more) =
      (splitLines s.pending).1.filterMap numberOn? ++
        numbersIn ((splitLines s.pending).2 ++ more) := by
    rw [← numbersIn_joinLines_append hlines.lines, ← List.append_assoc, hlines.join]
  rw [hbefore, hall, List.append_assoc, ← numbersIn_joinLines_append hleft]
  simp [pending, poll]

/-! ## 4. Writing -/

/-- What becomes of the line of a number that is written to the port. -/
def transferOf (s : SerialLine) (n : Int) : Transfer :=
  s.port.wiring.transfer s.port.waiting (numberBytes n)

/-- The port says whether it took the line of a number. -/
theorem value_emitNumber (h : s.attached = true) (n : Int) :
    (device.emitNumber n s).value = (s.transferOf n).result := by
  simp only [device, emitNumber, send, h, Port.write, transferOf]
  cases (s.port.wiring.transfer s.port.waiting (numberBytes n)).result <;> rfl

/-- **The line of a number that the port takes** comes back or goes out, and all else is as it
was. -/
theorem emitNumber_of_taken (h : s.attached = true) {n : Int}
    (htaken : (s.transferOf n).result = .ok ()) :
    device.emitNumber n s = .quiet { s with port := { s.port with
      waiting := s.port.waiting ++ (s.transferOf n).back,
      sent := s.port.sent ++ (s.transferOf n).out.toArray,
      flushes := s.port.flushes + 1 } } (.ok ()) := by
  unfold transferOf at htaken
  simp only [device, emitNumber, send, h, Port.write, htaken]
  rfl

/-- **Writing a number to someone else sends its line** and leaves all else as it is. -/
theorem emitNumber_line (h : s.attached = true) (hwiring : s.port.wiring = .line) (n : Int) :
    ∃ flushes, device.emitNumber n s = .quiet { s with port := { s.port with
      sent := s.port.sent ++ (numberBytes n).toArray, flushes := flushes } } (.ok ()) := by
  have htransfer : s.transferOf n = { out := numberBytes n } := by
    rw [transferOf, hwiring]
    rfl
  refine ⟨s.port.flushes + 1, ?_⟩
  rw [emitNumber_of_taken h (congrArg Transfer.result htransfer), htransfer, List.append_nil]

end SerialLine
end MinionComputer
