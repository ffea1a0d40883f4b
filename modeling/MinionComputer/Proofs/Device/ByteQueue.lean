/-
# A serial line is one queue of bytes

Bytes wait in the port until something is asked for, and what a request leaves waits in the buffer.
Nobody sees where: to whoever asks, a serial line is the single row of bytes that arrived and were
not used.  A request for a character takes all of it for its first byte.  A request for a number
looks at one complete line after another, and `Search` is this loop, with the number of lines it
takes; it stops at the latest when there is no complete line left.

* `SerialLine.valueOn?`: the value that a line stands for;
* `SerialLine.completeLines`, `SerialLine.unfinished`: the lines that bytes were cut into;
* `SerialLine.Search`, `SerialLine.search_requestNumber`: the loop of a request for a number;
* `ByteQueue.takeNumber`, `ByteQueue.takeAll`: the row of bytes alone, read byte by byte;
* `SerialLine.replies_eq_takeAll`: to whoever asks, it is all there is.
-/
import Mathlib.Data.List.ReduceOption
import MinionComputer.Proofs.Device.SerialLine

namespace MinionComputer
namespace SerialLine

variable {s s' : SerialLine} {q q' l rest : List UInt8} {ls : List (List UInt8)} {x : Option Int}
  {k : Nat}

/-! ## 1. Lines and their values -/

/-- The value of a line: without the blanks in front and behind it is a numeral in ASCII, of a
number from 0 to 999. -/
def valueOn? (line : List UInt8) : Option Int :=
  let text := Text.trimBy isBlankByte line
  if text.all (·.toNat < 128) then
    (Text.readInteger (text.map fun b => Char.ofNat b.toNat)).toOption.filter
      fun n => 0 ≤ n ∧ n ≤ 999
  else none

/-- A request for a number accepts a line for its value, and no other line. -/
theorem toOption_numberOfLine (line : List UInt8) :
    (numberOfLine line).toOption = valueOn? line := by
  unfold numberOfLine valueOn?
  simp only
  generalize Text.trimBy isBlankByte line = text
  by_cases hempty : text = []
  · subst hempty
    rfl
  · rw [if_neg (by simpa using hempty)]
    cases text.all (·.toNat < 128) with
    | false => rfl
    | true =>
      simp only [if_true]
      cases Text.readInteger (text.map fun b => Char.ofNat b.toNat) with
      | error f => rfl
      | ok n =>
        by_cases hn : 0 ≤ n ∧ n ≤ 999
        · simp [hn, Except.toOption, Option.filter]
        · simp [hn, Except.toOption, Option.filter]

/-- The complete lines among the bytes. -/
def completeLines (bs : List UInt8) : List (List UInt8) := (bs.splitOn 10).dropLast

/-- The bytes behind the last complete line. -/
def unfinished (bs : List UInt8) : List UInt8 := (bs.splitOn 10).getLast?.getD []

/-- The values of the complete lines. -/
def valuesIn (bs : List UInt8) : List Int := (completeLines bs).filterMap valueOn?

theorem splitOn_append_cons (hl : 10 ∉ l) (bs : List UInt8) :
    (l ++ 10 :: bs).splitOn 10 = l :: bs.splitOn 10 := by
  refine List.splitOnP_append_cons_of_forall_mem (fun b hb => ?_) 10 (by simp) bs
  rw [beq_eq_false_iff_ne]
  rintro rfl
  exact hl hb

theorem splitOn_of_not_mem (h : 10 ∉ q) : q.splitOn 10 = [q] := by
  refine List.splitOnP_eq_singleton fun b hb => ?_
  rw [beq_eq_false_iff_ne]
  rintro rfl
  exact h hb

/-- What bytes were put together from is what they are cut into. -/
theorem Lines.splitOn_eq (h : Lines q ls rest) : q.splitOn 10 = ls ++ [rest] := by
  obtain ⟨rfl, hls, hrest⟩ := h
  induction ls with
  | nil => exact splitOn_of_not_mem hrest
  | cons l ls ih =>
    rw [List.forall_mem_cons] at hls
    rw [joinLines_cons_append, splitOn_append_cons hls.1, ih hls.2, List.cons_append]

theorem completeLines_eq (bs : List UInt8) : completeLines bs = (splitLines bs).1 := by
  rw [completeLines, (lines_splitLines bs).splitOn_eq, List.dropLast_concat]

theorem unfinished_eq (bs : List UInt8) : unfinished bs = (splitLines bs).2 := by
  rw [unfinished, (lines_splitLines bs).splitOn_eq, List.getLast?_concat, Option.getD_some]

/-- A complete line in front does not change what is behind the last one. -/
theorem unfinished_append_cons (hl : 10 ∉ l) (bs : List UInt8) :
    unfinished (l ++ 10 :: bs) = unfinished bs := by
  rw [unfinished_eq, unfinished_eq, splitLines_append_cons hl]

/-- The values are the numbers that the requests give. -/
theorem valuesIn_eq (bs : List UInt8) : valuesIn bs = numbersIn bs := by
  have hvalue : numberOn? = valueOn? := funext toOption_numberOfLine
  rw [valuesIn, completeLines_eq, numbersIn, hvalue]

/-! ## 2. The loop of a request for a number -/

/-- Looking for a number in the bytes `q` takes `k` lines, gives `x` and leaves `q'`. -/
inductive Search : (q : List UInt8) → (k : Nat) → (x : Option Int) → (q' : List UInt8) → Prop
  /-- There is no complete line. -/
  | waits {q : List UInt8} (h : 10 ∉ q) : Search q 0 none q
  /-- The first line has a value. -/
  | finds {l q : List UInt8} {n : Int} (hl : 10 ∉ l) (h : valueOn? l = some n) :
      Search (l ++ 10 :: q) 1 (some n) q
  /-- The first line has none, and the next is looked at. -/
  | skips {l q q' : List UInt8} {k : Nat} {x : Option Int} (hl : 10 ∉ l) (h : valueOn? l = none)
      (next : Search q k x q') : Search (l ++ 10 :: q) (k + 1) x q'

theorem search_joinLines (hls : ∀ l ∈ ls, 10 ∉ l) (hrest : 10 ∉ rest) :
    ∃ k, k ≤ ls.length ∧ Search (joinLines ls ++ rest) k (Taking.ofLines ls).number
      (joinLines (Taking.ofLines ls).rest ++ rest) := by
  induction ls with
  | nil => exact ⟨0, Nat.le_refl 0, .waits hrest⟩
  | cons l ls ih =>
    rw [List.forall_mem_cons] at hls
    have hvalue := toOption_numberOfLine l
    rw [joinLines_cons_append, Taking.ofLines, List.length_cons]
    cases hl : numberOfLine l with
    | ok n =>
      rw [hl] at hvalue
      exact ⟨1, by omega, .finds hls.1 hvalue.symm⟩
    | error note =>
      rw [hl] at hvalue
      obtain ⟨k, hk, hsearch⟩ := ih hls.2
      exact ⟨k + 1, Nat.succ_le_succ hk, .skips hls.1 hvalue.symm hsearch⟩

/-- **A request for a number ends**: it looks at complete lines, each of them once. -/
theorem search_requestNumber (h : s.attached = true) :
    ∃ k x, k ≤ (completeLines s.pending).length ∧ (device.requestNumber s).value = .ok x ∧
      Search s.pending k x (device.requestNumber s).state.pending := by
  have hlines := lines_splitLines s.pending
  obtain ⟨k, hk, hsearch⟩ := search_joinLines hlines.lines hlines.rest
  rw [hlines.join] at hsearch
  have hpending : (device.requestNumber s).state.pending =
      joinLines (Taking.ofLines (splitLines s.pending).1).rest ++ (splitLines s.pending).2 := by
    rw [requestNumber_eq h]
    simp [pending, poll]
  rw [← hpending] at hsearch
  refine ⟨k, _, ?_, ?_, hsearch⟩
  · rw [completeLines_eq]
    exact hk
  · rw [requestNumber_eq h]

/-- Looking for a number leaves the line alone that is not complete. -/
theorem Search.unfinished_eq (h : Search q k x q') : unfinished q' = unfinished q := by
  induction h with
  | waits _ => rfl
  | finds hl _ => exact (unfinished_append_cons hl _).symm
  | skips hl _ _ ih => exact ih.trans (unfinished_append_cons hl _).symm

end SerialLine

/-! ## 3. The queue -/

/-- What happens to a serial line: bytes arrive, or it is asked for a number or a character. -/
inductive Event where
  | arrive (bs : List UInt8)
  | number
  | character
  deriving DecidableEq, Repr

namespace ByteQueue

/-- Takes complete lines up to one with a value, where `line` is read of the first; gives the value
and what is left. -/
def takeNumber (line : List UInt8) : List UInt8 → Option Int × List UInt8
  | [] => (none, line)
  | b :: q =>
    if b = 10 then
      match SerialLine.valueOn? line with
      | some n => (some n, q)
      | none => takeNumber [] q
    else takeNumber (line ++ [b]) q

/-- What is left of the queue, and the answer if something was asked for. -/
def take (q : List UInt8) : Event → List UInt8 × List (Option Int)
  | .arrive bs => (q ++ bs, [])
  | .number => ((takeNumber [] q).2, [(takeNumber [] q).1])
  | .character => ([], [q.head?.map fun b => (b.toNat : Int)])

/-- One event after another. -/
def takeAll (q : List UInt8) : List Event → List UInt8 × List (Option Int)
  | [] => (q, [])
  | e :: es =>
    let x := takeAll (take q e).1 es
    (x.1, (take q e).2 ++ x.2)

theorem takeNumber_append_cons {l : List UInt8} (hl : 10 ∉ l) (q : List UInt8) :
    ∀ line : List UInt8, takeNumber line (l ++ 10 :: q) =
      match SerialLine.valueOn? (line ++ l) with
      | some n => (some n, q)
      | none => takeNumber [] q := by
  induction l with
  | nil =>
    intro line
    rw [List.nil_append, takeNumber, if_pos rfl, List.append_nil]
  | cons b l ih =>
    intro line
    rw [List.mem_cons, not_or] at hl
    rw [List.cons_append, takeNumber, if_neg (Ne.symm hl.1), ih hl.2, List.append_assoc]
    rfl

theorem takeNumber_of_not_mem {q : List UInt8} (hq : 10 ∉ q) : ∀ line : List UInt8,
    takeNumber line q = (none, line ++ q) := by
  induction q with
  | nil =>
    intro line
    rw [takeNumber, List.append_nil]
  | cons b q ih =>
    intro line
    rw [List.mem_cons, not_or] at hq
    rw [takeNumber, if_neg (Ne.symm hq.1), ih hq.2, List.append_assoc]
    rfl

/-- Reading byte by byte takes the lines that the loop takes. -/
theorem takeNumber_eq_of_search {q q' : List UInt8} {k : Nat} {x : Option Int}
    (h : SerialLine.Search q k x q') : takeNumber [] q = (x, q') := by
  induction h with
  | waits hq => exact takeNumber_of_not_mem hq []
  | finds hl hvalue => rw [takeNumber_append_cons hl, List.nil_append, hvalue]
  | skips hl hvalue _ ih => rw [takeNumber_append_cons hl, List.nil_append, hvalue, ih]

end ByteQueue

/-! ## 4. The line and the queue -/

namespace SerialLine

variable {s s' : SerialLine} {q : List UInt8}

/-- What came of asking: the notes and the answer. -/
structure Reply where
  notes : List Note
  value : Except PortFault (Option Int)

/-- The line after an event, and the reply if something was asked for. -/
def undergo (s : SerialLine) : Event → SerialLine × List Reply
  | .arrive bs => (s.feed bs, [])
  | .number =>
    let a := device.requestNumber s
    (a.state, [⟨a.notes, a.value⟩])
  | .character =>
    let a := device.requestCharacter s
    (a.state, [⟨a.notes, a.value⟩])

/-- One event after another. -/
def undergoAll (s : SerialLine) : List Event → SerialLine × List Reply
  | [] => (s, [])
  | e :: es =>
    let x := undergoAll (s.undergo e).1 es
    (x.1, (s.undergo e).2 ++ x.2)

/-- The line is in use, and `q` are the bytes that arrived and were not used. -/
structure Holds (s : SerialLine) (q : List UInt8) : Prop where
  attached : s.attached = true
  pending : s.pending = q

/-- A request for a character takes all there is for its first byte. -/
theorem requestCharacter_eq (h : s.Holds q) :
    (device.requestCharacter s).value = .ok (q.head?.map fun b => (b.toNat : Int)) ∧
      (device.requestCharacter s).state.Holds [] ∧
      (device.requestCharacter s).notes = if q.length ≤ 1 then [] else
        [⟨.debug, channel, "Discarding " ++ Text.natural (q.length - 1) ++
          " extra input byte(s)"⟩] := by
  obtain ⟨hattached, hpending⟩ := h
  have hreceived : s.poll.received = q := hpending
  simp only [device, requestCharacter, hattached, Bool.not_true, Bool.false_eq_true, if_false,
    hreceived]
  cases q with
  | nil =>
    refine ⟨rfl, ⟨hattached, ?_⟩, rfl⟩
    show s.poll.received ++ [] = []
    rw [hreceived, List.append_nil]
  | cons b r =>
    refine ⟨rfl, ⟨hattached, rfl⟩, ?_⟩
    cases r <;> rfl

/-- **One event.**  The line stays what the queue is, and answers what the queue answers. -/
theorem Holds.undergo (h : s.Holds q) (e : Event) :
    (s.undergo e).1.Holds (ByteQueue.take q e).1 ∧
      (s.undergo e).2.map (·.value) = (ByteQueue.take q e).2.map .ok := by
  induction e with
  | arrive bs => exact ⟨⟨h.attached, (pending_feed s bs).trans (by rw [h.pending]; rfl)⟩, rfl⟩
  | number =>
    obtain ⟨k, x, -, hvalue, hsearch⟩ := search_requestNumber h.attached
    rw [h.pending] at hsearch
    have htake := ByteQueue.takeNumber_eq_of_search hsearch
    have hattached : (device.requestNumber s).state.attached = true := by
      rw [requestNumber_eq h.attached]
      exact h.attached
    simp only [SerialLine.undergo, ByteQueue.take, htake, List.map_cons, List.map_nil, hvalue]
    exact ⟨⟨hattached, rfl⟩, trivial⟩
  | character =>
    obtain ⟨hvalue, hstate, -⟩ := requestCharacter_eq h
    simp only [SerialLine.undergo, ByteQueue.take, List.map_cons, List.map_nil, hvalue]
    exact ⟨hstate, trivial⟩

/-- Lines that hold the same bytes reply the same, notes and all. -/
theorem Holds.replies_eq (h : s.Holds q) (h' : s'.Holds q) (e : Event) :
    (s.undergo e).2 = (s'.undergo e).2 := by
  induction e with
  | arrive bs => rfl
  | number =>
    simp only [SerialLine.undergo, requestNumber_eq h.attached, requestNumber_eq h'.attached,
      h.pending, h'.pending]
  | character =>
    obtain ⟨hvalue, -, hnotes⟩ := requestCharacter_eq h
    obtain ⟨hvalue', -, hnotes'⟩ := requestCharacter_eq h'
    simp only [SerialLine.undergo, hvalue, hnotes, hvalue', hnotes']

/-- The line stays what the queue is, through all events. -/
theorem Holds.undergoAll (es : List Event) : ∀ {s : SerialLine} {q : List UInt8}, s.Holds q →
    (s.undergoAll es).1.Holds (ByteQueue.takeAll q es).1 ∧
      (s.undergoAll es).2.map (·.value) = (ByteQueue.takeAll q es).2.map .ok := by
  induction es with
  | nil =>
    intro s q h
    exact ⟨h, rfl⟩
  | cons e es ih =>
    intro s q h
    obtain ⟨hstate, hvalue⟩ := h.undergo e
    obtain ⟨hstate', hvalues⟩ := ih hstate
    refine ⟨hstate', ?_⟩
    rw [SerialLine.undergoAll, ByteQueue.takeAll, List.map_append, List.map_append, hvalue, hvalues]

theorem Holds.allReplies_eq (es : List Event) : ∀ {s s' : SerialLine} {q : List UInt8}, s.Holds q →
    s'.Holds q → (s.undergoAll es).2 = (s'.undergoAll es).2 := by
  induction es with
  | nil =>
    intro s s' q _ _
    rfl
  | cons e es ih =>
    intro s s' q h h'
    rw [SerialLine.undergoAll, SerialLine.undergoAll, h.replies_eq h' e,
      ih (h.undergo e).1 (h'.undergo e).1]

/-- **A serial line is one queue of bytes.**  Through all arrivals and requests it answers what the
queue answers and holds what the queue holds, and another line that holds the same bytes, wherever
they are, makes the same replies. -/
theorem replies_eq_takeAll (h : s.attached = true) (es : List Event) :
    (s.undergoAll es).2.map (·.value) = (ByteQueue.takeAll s.pending es).2.map .ok ∧
      (s.undergoAll es).1.pending = (ByteQueue.takeAll s.pending es).1 ∧
      ∀ s' : SerialLine, s'.attached = true → s'.pending = s.pending →
        (s'.undergoAll es).2 = (s.undergoAll es).2 := by
  have hholds : s.Holds s.pending := ⟨h, rfl⟩
  obtain ⟨hstate, hvalues⟩ := hholds.undergoAll es
  refine ⟨hvalues, hstate.pending, fun s' h' hpending => ?_⟩
  exact Holds.allReplies_eq es ⟨h', hpending⟩ hholds

/-- A number that arrives in two parts with a letter behind it. -/
def chatter : List Event :=
  [.arrive [52], .number, .arrive [50, 10, 120], .number, .character, .number]

/-- It is waited for and given, and the letter is given as a character. -/
theorem chatter_replies :
    ({} : SerialLine).attached = true ∧
      (({} : SerialLine).undergoAll chatter).2.map (·.value) =
        [.ok none, .ok (some 42), .ok (some 120), .ok none] :=
  ⟨rfl, (replies_eq_takeAll rfl chatter).1.trans rfl⟩

end SerialLine
end MinionComputer
