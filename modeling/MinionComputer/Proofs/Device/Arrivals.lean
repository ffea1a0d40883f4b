/-
# Numbers that arrive in pieces

Bytes arrive on a serial line in pieces that are cut anywhere, and numbers are asked for in between.
How they are cut makes no difference.  Behind the values that were given are always the values of
the bytes that were not used, also when more bytes arrive (`Course.values`); with each piece and
each request this stays so, and all else follows from it.

* `SerialLine.arrivals`, `SerialLine.returned`: the bytes that arrived, the values that were given;
* `SerialLine.Course`, `SerialLine.Course.undergo`: what each piece and each request keeps;
* `SerialLine.Serves`: what a line does with the bytes that arrived;
* `SerialLine.serves_undergoAll`: it does, however they arrived.
-/
import MinionComputer.Proofs.Device.ByteQueue

namespace MinionComputer

/-- The bytes that arrive with an event. -/
def Event.bytes : Event → List UInt8
  | .arrive bs => bs
  | _ => []

namespace SerialLine

variable {s : SerialLine} {q q' : List UInt8} {x : Option Int} {k : Nat} {arrived : List UInt8}
  {rs : List Reply}

/-- The bytes that arrive, in order. -/
def arrivals (es : List Event) : List UInt8 := es.flatMap Event.bytes

/-- The values that were given, in order. -/
def returned (rs : List Reply) : List Int := rs.filterMap fun r => r.value.toOption.join

/-- One reply more gives what it gives. -/
theorem returned_append_singleton {r : Reply} (h : r.value = .ok x) (rs : List Reply) :
    returned (rs ++ [r]) = returned rs ++ x.toList := by
  rw [returned, List.filterMap_append, List.filterMap_cons, h]
  cases x <;> rfl

/-! ## 1. What is left -/

/-- Looking for a number leaves the end of the bytes. -/
theorem Search.suffix (h : Search q k x q') : q' <:+ q := by
  induction h with
  | waits _ => exact List.suffix_rfl
  | finds _ _ => exact (List.suffix_cons _ _).trans (List.suffix_append _ _)
  | skips _ _ _ ih => exact ih.trans ((List.suffix_cons _ _).trans (List.suffix_append _ _))

/-- The bytes behind the last complete line are all that more bytes are put behind. -/
theorem unfinished_append (bs more : List UInt8) :
    unfinished (bs ++ more) = unfinished (unfinished bs ++ more) := by
  have hlines := lines_splitLines bs
  have hjoin : bs ++ more =
      joinLines (splitLines bs).1 ++ ((splitLines bs).2 ++ more) := by
    rw [← List.append_assoc, hlines.join]
  rw [unfinished_eq, hjoin, splitLines_joinLines_append hlines.lines, unfinished_eq, unfinished_eq]

theorem unfinished_suffix (bs : List UInt8) : unfinished bs <:+ bs := by
  rw [unfinished_eq]
  exact ⟨_, (lines_splitLines bs).join⟩

/-! ## 2. One event after another -/

/-- In the course of things `arrived` are the bytes that arrived and `rs` the replies: the values
behind those that were given are those of the bytes that were not used, whatever is to come. -/
structure Course (arrived : List UInt8) (rs : List Reply) (s : SerialLine) : Prop where
  attached : s.attached = true
  answered : ∀ r ∈ rs, ∃ x, r.value = .ok x
  values : ∀ more, valuesIn (arrived ++ more) = returned rs ++ valuesIn (s.pending ++ more)
  unfinished : unfinished s.pending = unfinished arrived
  suffix : s.pending <:+ arrived

/-- **One event more**, a piece that arrives or a request for a number. -/
theorem Course.undergo (h : Course arrived rs s) {e : Event} (he : e ≠ .character) :
    Course (arrived ++ e.bytes) (rs ++ (s.undergo e).2) (s.undergo e).1 := by
  induction e with
  | arrive bs =>
    have hpending : (s.feed bs).pending = s.pending ++ bs := pending_feed s bs
    simp only [SerialLine.undergo, Event.bytes, List.append_nil]
    refine ⟨h.attached, h.answered, fun more => ?_, ?_, ?_⟩
    · rw [hpending, List.append_assoc, List.append_assoc]
      exact h.values (bs ++ more)
    · rw [hpending, unfinished_append, h.unfinished, ← unfinished_append]
    · rw [hpending]
      exact List.suffix_append_self_iff.mpr h.suffix
  | number =>
    obtain ⟨x, hvalue, hgives⟩ := gives_requestNumber h.attached
    obtain ⟨k, _, -, -, hsearch⟩ := search_requestNumber h.attached
    have hreturned : returned (rs ++ (s.undergo .number).2) = returned rs ++ x.toList :=
      returned_append_singleton hvalue rs
    simp only [Event.bytes, List.append_nil]
    refine ⟨hgives.attached.trans h.attached, ?_, fun more => ?_, ?_, ?_⟩
    · refine List.forall_mem_append.mpr ⟨h.answered, fun r hr => ⟨x, ?_⟩⟩
      rw [List.mem_singleton.mp hr]
      exact hvalue
    · -- What is given now is what the values behind began with.
      rw [hreturned, h.values, valuesIn_eq, hgives.others, List.append_assoc, ← valuesIn_eq]
      rfl
    · exact hsearch.unfinished_eq.trans h.unfinished
    · exact hsearch.suffix.trans h.suffix
  | character => exact absurd rfl he

theorem Course.undergoAll {es : List Event} (hes : ∀ e ∈ es, e ≠ .character) :
    ∀ {arrived : List UInt8} {rs : List Reply} {s : SerialLine}, Course arrived rs s →
      Course (arrived ++ arrivals es) (rs ++ (s.undergoAll es).2) (s.undergoAll es).1 := by
  induction es with
  | nil =>
    intro arrived rs s h
    simpa [arrivals, SerialLine.undergoAll] using h
  | cons e es ih =>
    intro arrived rs s h
    rw [List.forall_mem_cons] at hes
    rw [arrivals, List.flatMap_cons, ← List.append_assoc, SerialLine.undergoAll,
      ← List.append_assoc]
    exact ih hes.2 (h.undergo hes.1)

/-! ## 3. What a line does -/

/-- What a line does with the bytes that arrived, where `rs` are its replies to the requests for
numbers so far. -/
structure Serves (arrived : List UInt8) (rs : List Reply) (s : SerialLine) : Prop where
  /-- No request failed. -/
  answered : ∀ r ∈ rs, ∃ x, r.value = .ok x
  /-- The values that were given are the first on the complete lines, whatever is to come. -/
  inOrder : ∀ more, returned rs <+: valuesIn (arrived ++ more)
  /-- The next request gives the next value, and nothing only if there is none. -/
  next : (device.requestNumber s).value = .ok (valuesIn arrived)[(returned rs).length]?
  /-- It ends, and looks at no more than the complete lines that are left. -/
  ends : ∃ k, k ≤ (completeLines s.pending).length ∧
    Search s.pending k (valuesIn arrived)[(returned rs).length]?
      (device.requestNumber s).state.pending
  /-- The line that is not complete is not lost. -/
  kept : unfinished arrived <:+ s.pending
  /-- No byte is there twice. -/
  suffix : s.pending <:+ arrived

theorem Course.serves (h : Course arrived rs s) : Serves arrived rs s := by
  obtain ⟨x, hvalue, hgives⟩ := gives_requestNumber h.attached
  obtain ⟨k, y, hk, hvalue', hsearch⟩ := search_requestNumber h.attached
  cases hvalue.symm.trans hvalue'
  have hnow := h.values []
  rw [List.append_nil, List.append_nil] at hnow
  have hx : (valuesIn arrived)[(returned rs).length]? = x := by
    rw [hnow, List.getElem?_append_right (Nat.le_refl _), Nat.sub_self, ← List.head?_eq_getElem?,
      valuesIn_eq, ← hgives.first]
  refine ⟨h.answered, fun more => ⟨_, (h.values more).symm⟩, ?_, ⟨k, hk, ?_⟩, ?_, h.suffix⟩
  · rw [hx]
    exact hvalue
  · rw [hx]
    exact hsearch
  · rw [← h.unfinished]
    exact unfinished_suffix s.pending

/-- **How bytes are cut into pieces makes no difference to the numbers.**  After any arrivals and
requests for numbers, the values that were given are the first values of the bytes that arrived, the
next request gives the next of them, and an incomplete line waits for its end. -/
theorem serves_undergoAll (h : s.attached = true) {es : List Event}
    (hes : ∀ e ∈ es, e ≠ .character) :
    Serves (s.pending ++ arrivals es) (s.undergoAll es).2 (s.undergoAll es).1 := by
  have hstart : Course s.pending [] s := ⟨h, by simp, fun _ => rfl, rfl, List.suffix_rfl⟩
  exact (Course.undergoAll hes hstart).serves

/-- A line without a number, and three with one of which the second is too large; the first of these
and the last arrive in two parts. -/
def parcels : List Event :=
  [.arrive [97, 10, 52], .number, .arrive [50, 10, 49, 48, 48, 48, 10], .number, .arrive [55],
    .number, .arrive [10]]

/-- So far the first number was given, and the last is there to be given. -/
theorem parcels_served :
    (({} : SerialLine).attached = true ∧ ∀ e ∈ parcels, e ≠ .character) ∧
      valuesIn (arrivals parcels) = [42, 7] ∧
      returned (({} : SerialLine).undergoAll parcels).2 = [42] ∧
      Serves (arrivals parcels) (({} : SerialLine).undergoAll parcels).2
        (({} : SerialLine).undergoAll parcels).1 := by
  have hparcels : ∀ e ∈ parcels, e ≠ .character := by decide
  exact ⟨⟨rfl, hparcels⟩, rfl, rfl, serves_undergoAll (s := {}) rfl hparcels⟩

end SerialLine
end MinionComputer
