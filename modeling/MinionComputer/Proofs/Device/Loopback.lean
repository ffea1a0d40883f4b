/-
# What is written comes back

A number is written as a line of digits, and a request looks for a line with a number on it.  Over a
port that gives back what is written, the two meet: between what was written and what was returned
there wait, byte for byte, the lines of the numbers that were not returned yet (`queueBytes`).  A
write puts one line behind them and a request takes the first, so a line of this kind is a queue of
numbers.

Of the port no more is used than that it keeps the bytes that it takes in their order
(`Wiring.inOrder`).  Some may come back at once; the others go out and come in again.

* `Exchange`, `SerialLine.exchangeAll`: writing and asking, with what is written coming back;
* `SerialLine.search_queueBytes`: a request takes the first line, and no other is looked at;
* `SerialLine.Carries`, `SerialLine.Carries.exchange`: the queue, and what one exchange does to it;
* `SerialLine.Takes.writes_eq_ok`: lines that refuse no number;
* `SerialLine.returns_in_order`: what was returned, and what the next request returns.
-/
import MinionComputer.Device.LoopPort
import MinionComputer.Proofs.Cell
import MinionComputer.Proofs.Device.Agreement
import MinionComputer.Proofs.Device.Arrivals
import MinionComputer.Proofs.Text.Decimal

namespace MinionComputer

/-- What is done with a line: a number is written, or asked for. -/
inductive Exchange where
  | write (v : Cell)
  | request
  deriving DecidableEq, Repr

/-- The number that is written. -/
def Exchange.written? : Exchange → Option Cell
  | .write v => some v
  | .request => none

namespace SerialLine

open Text

variable {s : SerialLine} {q : List UInt8} {vs : List Cell}

/-! ## 1. The lines of numbers -/

/-- The lines of numbers, in bytes. -/
def queueBytes (vs : List Cell) : List UInt8 := vs.flatMap fun v => numberBytes (Cell.toInt v)

/-- The line of a number is the row of its digits. -/
theorem numberBytes_toInt (v : Cell) :
    numberBytes (Cell.toInt v) = asciiBytes (decimal v.val) ++ [10] := by
  have hsign : minusSign (Cell.toInt v) = [] := if_neg (by have := v.toInt_bounds; omega)
  rw [numberBytes, hsign, List.nil_append]
  rfl

/-- **The line of a number has its value.** -/
theorem valueOn?_decimal (v : Cell) : valueOn? (asciiBytes (decimal v.val)) = some (Cell.toInt v) := by
  have hdecimal := decimal_decimal v.val
  have hread : readInteger (decimal v.val) = .ok (Cell.toInt v) := by
    rw [hdecimal.readInteger (length_decimal_le_limit v.isLt), digitsValue_decimal]
    rfl
  have hnumber : numberOn? (asciiBytes (decimal v.val)) = lineNumber? (decimal v.val) :=
    numberOn?_asciiBytes hdecimal.isTypeable
  rw [← toOption_numberOfLine, ← numberOn?, hnumber, lineNumber?, hread]
  exact if_pos v.toInt_bounds

/-- **A request takes the first line**, and no other is looked at. -/
theorem search_queueBytes (v : Cell) (vs : List Cell) :
    Search (queueBytes (v :: vs)) 1 (some (Cell.toInt v)) (queueBytes vs) := by
  have hcons : queueBytes (v :: vs) = asciiBytes (decimal v.val) ++ 10 :: queueBytes vs := by
    rw [queueBytes, List.flatMap_cons, numberBytes_toInt, List.append_assoc]
    rfl
  rw [hcons]
  exact .finds (lineFeed_not_mem_asciiBytes (decimal_decimal v.val).isTypeable)
    (valueOn?_decimal v)

/-- Taking a number from the lines takes the first of the numbers. -/
theorem takeNumber_queueBytes (vs : List Cell) :
    ByteQueue.takeNumber [] (queueBytes vs) = (vs.head?.map Cell.toInt, queueBytes vs.tail) := by
  cases vs with
  | nil => rfl
  | cons v vs => exact ByteQueue.takeNumber_eq_of_search (search_queueBytes v vs)

/-! ## 2. Exchanges -/

/-- What went out on the line since `s` comes back.  A port whose line ends in itself sends nothing,
since it has already put in front of itself what it was given. -/
def echo (s s' : SerialLine) : SerialLine := s'.feed (s'.port.sent.toList.drop s.port.sent.size)

/-- The line after exchanges, how the writes went and what the requests were replied. -/
structure Traffic where
  line : SerialLine
  writes : List (Except PortFault Unit)
  replies : List Reply

/-- One exchange. -/
def exchange (s : SerialLine) : Exchange → Traffic
  | .write v =>
    let a := device.emitNumber (Cell.toInt v) s
    ⟨echo s a.state, [a.value], []⟩
  | .request =>
    let a := device.requestNumber s
    ⟨a.state, [], [⟨a.notes, a.value⟩]⟩

/-- One exchange after another. -/
def exchangeAll (s : SerialLine) : List Exchange → Traffic
  | [] => ⟨s, [], []⟩
  | e :: es =>
    let x := s.exchange e
    let y := exchangeAll x.line es
    ⟨y.line, x.writes ++ y.writes, x.replies ++ y.replies⟩

/-- The numbers that are written, in order. -/
def written (es : List Exchange) : List Int := es.filterMap fun e => e.written?.map Cell.toInt

theorem written_append (es es' : List Exchange) : written (es ++ es') = written es ++ written es' :=
  List.filterMap_append

/-! ## 3. Writing -/

/-- **A number that is written stands behind what waits**, on whichever way it comes back. -/
theorem Holds.write (h : s.Holds q) {n : Int} (hok : (device.emitNumber n s).value = .ok ()) :
    (echo s (device.emitNumber n s).state).Holds (q ++ numberBytes n) := by
  have hwaiting : q = s.received ++ s.port.waiting := h.pending.symm
  have htaken : (s.transferOf n).result = .ok () := (value_emitNumber h.attached n).symm.trans hok
  have horder : (s.transferOf n).back ++ (s.transferOf n).out = numberBytes n :=
    s.port.wiring.inOrder htaken
  rw [emitNumber_of_taken h.attached htaken]
  refine ⟨h.attached, ?_⟩
  -- what comes back at once waits already when the bytes that went out come in
  simp [hwaiting, echo, feed, Answer.quiet, SerialLine.pending, ← horder]

/-! ## 4. The queue -/

/-- Between the numbers that were written and those that were returned wait the numbers `vs`. -/
structure Carries (s : SerialLine) (wrote : List Int) (rs : List Reply) (vs : List Cell) :
    Prop where
  holds : s.Holds (queueBytes vs)
  answered : ∀ r ∈ rs, ∃ x, r.value = .ok x
  order : returned rs ++ vs.map Cell.toInt = wrote

/-- A request returns the first number that waits, if one does, and takes it off the line. -/
theorem Holds.requestNumber (h : s.Holds (queueBytes vs)) :
    (device.requestNumber s).value = .ok (vs.head?.map Cell.toInt) ∧
      (device.requestNumber s).state.Holds (queueBytes vs.tail) := by
  obtain ⟨hstate, hvalue⟩ := h.undergo .number
  simp only [SerialLine.undergo, ByteQueue.take, takeNumber_queueBytes, List.map_cons,
    List.map_nil, List.cons.injEq, and_true] at hstate hvalue
  exact ⟨hvalue, hstate⟩

/-- **One exchange.**  What is written goes to the end and what is returned is the first. -/
theorem Carries.exchange {wrote : List Int} {rs : List Reply} (h : s.Carries wrote rs vs)
    (e : Exchange) (htaken : ∀ r ∈ (s.exchange e).writes, r = .ok ()) :
    ∃ vs', (s.exchange e).line.Carries (wrote ++ written [e]) (rs ++ (s.exchange e).replies) vs' := by
  cases e with
  | write v =>
    refine ⟨vs ++ [v], ?_, ?_, ?_⟩
    · have hwritten := h.holds.write (htaken _ List.mem_cons_self)
      rwa [queueBytes, List.flatMap_append, List.flatMap_singleton]
    · rw [SerialLine.exchange, List.append_nil]
      exact h.answered
    · rw [SerialLine.exchange, List.append_nil, List.map_append, ← List.append_assoc, h.order]
      rfl
  | request =>
    obtain ⟨hvalue, hstate⟩ := h.holds.requestNumber
    refine ⟨vs.tail, hstate, ?_, ?_⟩
    · intro r hr
      rcases List.mem_append.mp hr with hr | hr
      · exact h.answered r hr
      · obtain rfl := List.mem_singleton.mp hr
        exact ⟨_, hvalue⟩
    · have hfirst : returned (rs ++ (s.exchange .request).replies) =
          returned rs ++ (vs.head?.map Cell.toInt).toList :=
        returned_append_singleton hvalue rs
      have hsplit : (vs.head?.map Cell.toInt).toList ++ vs.tail.map Cell.toInt =
          vs.map Cell.toInt := by
        cases vs <;> rfl
      have hnothing : written [.request] = [] := rfl
      rw [hfirst, List.append_assoc, hsplit, h.order, hnothing, List.append_nil]

/-- **Any number of exchanges.** -/
theorem Carries.exchangeAll (es : List Exchange) : ∀ {s : SerialLine} {wrote : List Int}
    {rs : List Reply} {vs : List Cell}, s.Carries wrote rs vs →
      (∀ r ∈ (s.exchangeAll es).writes, r = .ok ()) →
      ∃ vs', (s.exchangeAll es).line.Carries (wrote ++ written es)
        (rs ++ (s.exchangeAll es).replies) vs' := by
  induction es with
  | nil =>
    intro s wrote rs vs h _
    refine ⟨vs, ?_⟩
    simpa [SerialLine.exchangeAll, written] using h
  | cons e es ih =>
    intro s wrote rs vs h htaken
    simp only [SerialLine.exchangeAll, List.forall_mem_append] at htaken
    obtain ⟨vs', hstep⟩ := h.exchange e htaken.1
    have hwritten : written (e :: es) = written [e] ++ written es := written_append [e] es
    rw [hwritten, SerialLine.exchangeAll, ← List.append_assoc, ← List.append_assoc]
    exact ih hstep htaken.2

/-! ## 5. What is taken -/

theorem length_numberBytes_le (v : Cell) : (numberBytes (Cell.toInt v)).length ≤ 4 := by
  rw [numberBytes_toInt, List.length_append, asciiBytes, List.length_map]
  exact Nat.succ_le_succ (length_decimal_le (Nat.succ_pos 2) v.isLt)

/-- The line will take `k` numbers more: its port takes everything, or its line ends in itself, it
has room, and it takes four bytes in a second. -/
structure Takes (s : SerialLine) (k : Nat) : Prop where
  attached : s.attached = true
  wiring : (∀ waiting bs, (s.port.wiring.transfer waiting bs).result = .ok ()) ∨
    ∃ baud, s.port.wiring = .loop baud ∧ 40 ≤ baud ∧
      s.port.waiting.length + 4 * k ≤ Wiring.loopCapacity

/-- Writing a number to oneself puts its line behind what waits in the port. -/
theorem transferOf_loop {baud : Nat} (hwiring : s.port.wiring = .loop baud) {n : Int}
    (hspeed : 10 * (numberBytes n).length ≤ baud)
    (hroom : (numberBytes n).length ≤ Wiring.loopCapacity - s.port.waiting.length) :
    s.transferOf n = { back := numberBytes n } := by
  have hslow : ¬ Wiring.isSlow baud (numberBytes n).length = true := by
    rw [Wiring.isSlow, decide_eq_true_eq]
    exact Nat.not_lt.mpr hspeed
  have hloop : s.transferOf n = Wiring.loopTransfer baud s.port.waiting (numberBytes n) := by
    rw [transferOf, hwiring]
    rfl
  simp only [hloop, Wiring.loopTransfer, if_neg hslow, if_pos hroom]

theorem Takes.write {k : Nat} (h : s.Takes (k + 1)) (v : Cell) :
    (device.emitNumber (Cell.toInt v) s).value = .ok () ∧
      (echo s (device.emitNumber (Cell.toInt v) s).state).Takes k := by
  rcases h.wiring with hall | ⟨baud, hwiring, hspeed, hroom⟩
  · rw [emitNumber_of_taken h.attached (hall _ _)]
    exact ⟨rfl, h.attached, .inl hall⟩
  · have hlength := length_numberBytes_le v
    have htransfer := transferOf_loop (n := Cell.toInt v) hwiring (by omega) (by omega)
    rw [emitNumber_of_taken h.attached (congrArg Transfer.result htransfer), htransfer]
    refine ⟨rfl, h.attached, .inr ⟨baud, hwiring, hspeed, ?_⟩⟩
    simp only [echo, feed, Answer.quiet, List.length_append, List.length_drop, Array.length_toList,
      Array.append_empty, Nat.sub_self]
    omega

theorem Takes.request {k : Nat} (h : s.Takes k) : (device.requestNumber s).state.Takes k := by
  rw [requestNumber_eq h.attached]
  refine ⟨h.attached, h.wiring.imp_right ?_⟩
  rintro ⟨baud, hwiring, hspeed, hroom⟩
  exact ⟨baud, hwiring, hspeed, (Nat.add_le_add_right (Nat.zero_le _) _).trans hroom⟩

/-- **A line that has room for all numbers refuses none.** -/
theorem Takes.writes_eq_ok (es : List Exchange) : ∀ {s : SerialLine}, s.Takes (written es).length →
    ∀ r ∈ (s.exchangeAll es).writes, r = .ok () := by
  induction es with
  | nil =>
    intro s _ r hr
    cases hr
  | cons e es ih =>
    intro s h
    simp only [SerialLine.exchangeAll, List.forall_mem_append]
    cases e with
    | write v =>
      obtain ⟨hok, hnext⟩ := Takes.write h v
      refine ⟨fun r hr => ?_, ih hnext⟩
      rw [List.mem_singleton.mp hr]
      exact hok
    | request => exact ⟨by simp [SerialLine.exchange], ih (Takes.request h)⟩

/-! ## 6. In order -/

/-- **What is written comes back in order.**  Take a line on which nothing waits, and write and ask
in any order.  As long as no number is refused, every request is replied to without a fault, what
was returned is the front of what was written, a further request returns the number that comes
next in it, and it returns none exactly when everything was returned. -/
theorem returns_in_order (h : s.attached = true) (hempty : s.pending = []) (es : List Exchange)
    (htaken : ∀ r ∈ (s.exchangeAll es).writes, r = .ok ()) :
    let x := s.exchangeAll es
    let next := (device.requestNumber x.line).value
    (∀ r ∈ x.replies, ∃ n, r.value = .ok n) ∧
      returned x.replies <+: written es ∧
      next = .ok (written es)[(returned x.replies).length]? ∧
      (next = .ok none ↔ returned x.replies = written es) := by
  intro x next
  have hstart : s.Carries [] [] [] := ⟨⟨h, hempty⟩, by simp, rfl⟩
  obtain ⟨vs, hholds, hanswered, horder⟩ := hstart.exchangeAll es htaken
  rw [List.nil_append] at hanswered
  rw [List.nil_append, List.nil_append] at horder
  have hnext : next = .ok (vs.map Cell.toInt).head? := by
    rw [List.head?_map]
    exact hholds.requestNumber.1
  refine ⟨hanswered, ⟨_, horder⟩, ?_, ?_⟩
  · rw [hnext, ← horder, List.getElem?_append_right (Nat.le_refl _), Nat.sub_self,
      List.head?_eq_getElem?]
  · rw [hnext, ← horder, Except.ok.injEq, List.head?_eq_none_iff, List.self_eq_append_right]

/-- Numbers of one, two and three digits, asked for in between, on a port whose line ends in itself.
-/
def roundTrips : List Exchange :=
  [.request, .write 7, .write 999, .request, .write 0, .request, .write 42, .write 100, .request]

/-- Three of them were returned, and the fourth comes next. -/
theorem roundTrips_returned :
    let s : SerialLine := { port := { wiring := .loop 9600 } }
    let x := s.exchangeAll roundTrips
    let next := (device.requestNumber x.line).value
    (s.attached = true ∧ s.pending = [] ∧ ∀ r ∈ x.writes, r = .ok ()) ∧
      returned x.replies = [7, 999, 0] ∧ next = .ok (some 42) ∧
      (∀ r ∈ x.replies, ∃ n, r.value = .ok n) ∧
      returned x.replies <+: written roundTrips ∧
      next = .ok (written roundTrips)[(returned x.replies).length]? ∧
      (next = .ok none ↔ returned x.replies = written roundTrips) := by
  intro s x next
  have htakes : s.Takes (written roundTrips).length := ⟨rfl, .inr ⟨9600, rfl, by decide, by decide⟩⟩
  have htaken := htakes.writes_eq_ok
  exact ⟨⟨rfl, rfl, htaken⟩, by decide, by decide, returns_in_order rfl rfl roundTrips htaken⟩

end SerialLine
end MinionComputer
