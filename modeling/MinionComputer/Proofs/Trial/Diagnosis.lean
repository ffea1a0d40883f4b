/-
# What a case that fails is told to have done

A case that does not pass tells how it failed and after how many instructions.  Both can be read off
the calls of `step` on a plain machine with the same input.  The first of them that does not go on,
or that writes something else than what is expected next, is where the case ends: before it the
check and the plain machine do the same, and what has to be told is seen from this call alone.

* `Case.Deviates`: a call at which a case ends;
* `Case.Verdict`: what has to be told of it;
* `Abreast.of_call`, `Abreast.verdict`: what the check makes of one call;
* `exists_abreast`: the calls before the end, one after another;
* `run_diagnosed`: cases.
-/
import MinionComputer.Proofs.Trial.Pass
import MinionComputer.Proofs.Trial.Trouble

namespace MinionComputer
namespace Trial

/-! ## 1. Calls of a plain machine -/

/-- A plain machine and its device after `n` calls of `step`, with the input of the case. -/
def Case.after (c : Case) (m : Memory) : Nat → Machine × Scripted
  | 0 => (Machine.start m, Scripted.ofInputs c.inputs c.characterInputs #[])
  | n + 1 =>
    let x := c.after m n
    let t := x.1.step Scripted.device x.2
    (t.machine, t.device)

/-- The call of `step` that comes after `n` others. -/
def Case.call (c : Case) (m : Memory) (n : Nat) : Turn Scripted Empty :=
  (c.after m n).1.step Scripted.device (c.after m n).2

/-- What was written first between two times. -/
def written? (q q' : Scripted) : Option Emission := q'.events[q.events.size]?

/-- What the case expects next of the kind of `e`, after what was written to `q`. -/
def Case.next? (c : Case) (q : Scripted) : Emission → Option Emission
  | .number _ => c.outputs[q.outputs.length]?.map .number
  | .character _ => c.characterOutputs[q.characterOutputs.length]?.map .character

/-- A call does not go on, or it writes something else than what is expected next; `q` is the device
before it. -/
def Case.Deviates (c : Case) (q : Scripted) (t : Turn Scripted Empty) : Prop :=
  (∀ a cell, t.result ≠ .ok ⟨.continued, a, cell⟩) ∨
    ∃ e, written? q t.device = some e ∧ c.next? q e ≠ some e

instance (c : Case) (q : Scripted) (t : Turn Scripted Empty) : Decidable (c.Deviates q t) :=
  decidable_of_iff ((∀ r ∈ t.result.toOption, r.outcome ≠ .continued) ∨
      ∃ e ∈ written? q t.device, c.next? q e ≠ some e) <| by
    refine or_congr ?_ Iff.rfl
    obtain ⟨_, _, _, _ | ⟨outcome, a, cell⟩⟩ := t <;> simp [Except.toOption]

/-- The call that comes after `n` others deviates. -/
def Case.DeviatesAt (c : Case) (m : Memory) (n : Nat) : Prop :=
  c.Deviates (c.after m n).2 (c.call m n)

instance (c : Case) (m : Memory) (n : Nat) : Decidable (c.DeviatesAt m n) :=
  inferInstanceAs (Decidable (c.Deviates _ _))

/-! ## 2. Verdicts -/

/-- Something was written when nothing of its kind was expected any more. -/
def Kind.tooMany : Emission → Kind
  | .number _ => .tooManyOutputs
  | .character _ => .tooManyCharOutputs

/-- Something was written when something else of its kind was expected. -/
def Kind.different : Emission → Kind
  | .number _ => .differentOutput
  | .character _ => .differentCharOutput

/-- How much is left of each row when a program halts, in the order in which the rows are looked
at. -/
def Case.rows (c : Case) (q : Scripted) : List (Kind × Nat) :=
  [(.expectedMoreInputs, q.numbers.length),
    (.expectedMoreOutputs, c.outputs.length - q.outputs.length),
    (.expectedMoreCharInputs, q.characters.length),
    (.expectedMoreCharOutputs, c.characterOutputs.length - q.characterOutputs.length)]

/-- The first row that is not used up. -/
def Case.leftover (c : Case) (q : Scripted) : Option (Kind × Nat) :=
  (c.rows q).find? fun row => row.2 != 0

/-- What has to be told of a call at which a case ends: how the case failed, or nothing.  The call
was made on `m` with the device `q`. -/
inductive Case.Verdict (c : Case) (m : Machine) (q : Scripted) (t : Turn Scripted Empty) :
    Option Kind → Prop
  | tooMany {a : Address} {cell : Cell} {e : Emission}
      (hgo : t.result = .ok ⟨.continued, a, cell⟩) (hwritten : written? q t.device = some e)
      (hnone : c.next? q e = none) : c.Verdict m q t (some (.tooMany e))
  | different {a : Address} {cell : Cell} {e x : Emission}
      (hgo : t.result = .ok ⟨.continued, a, cell⟩) (hwritten : written? q t.device = some e)
      (hnext : c.next? q e = some x) (hne : x ≠ e) : c.Verdict m q t (some (.different e))
  /-- There is no number for the instruction that asks for one. -/
  | noNumber {a : Address} {cell : Cell} (hwait : t.result = .ok ⟨.awaitingInput, a, cell⟩)
      (hf : m.Fetches a ⟨a, cell, .readNumber⟩) : c.Verdict m q t (some .ranOutOfInputs)
  | noCharacter {a : Address} {cell : Cell} (hwait : t.result = .ok ⟨.awaitingInput, a, cell⟩)
      (hf : m.Fetches a ⟨a, cell, .readCharacter⟩) : c.Verdict m q t (some .ranOutOfCharInputs)
  | invalid {a : Address} {cell : Cell} (hend : t.result = .ok ⟨.invalidInstruction, a, cell⟩) :
      c.Verdict m q t (some .computerError)
  | reachedEnd {a : Address} {cell : Cell} (hend : t.result = .ok ⟨.reachedEnd, a, cell⟩) :
      c.Verdict m q t (some .computerError)
  | halted {a : Address} {cell : Cell} (hend : t.result = .ok ⟨.halted, a, cell⟩) :
      c.Verdict m q t ((c.leftover t.device).map Prod.fst)

/-- A result tells a verdict after `n` instructions, with the name of the case. -/
def Tells (r : Except Trouble Int) (name : Option (List Char)) (n : Int) : Option Kind → Prop
  | none => r = .ok n
  | some kind => ∃ detail, r = .error (.failure ⟨kind, n, detail, name⟩)

variable {c : Case} {k : Check} {q q' : Scripted} {m : Machine} {e : Emission} {n : Nat}

theorem ofCell_of_fetches {a : Address} {cell : Cell} {i : Instruction}
    (hf : m.Fetches a ⟨a, cell, i⟩) : Instruction.ofCell m.extended cell = some i := by
  have hcell : cell = m.memory.read a := hf.cell
  rw [hcell]
  exact hf.meaning

/-- **There is one verdict on a call at most.** -/
theorem Case.Verdict.unique {t : Turn Scripted Empty} {v v' : Option Kind}
    (h : c.Verdict m q t v) (h' : c.Verdict m q t v') : v = v' := by
  cases h with
  | tooMany hr hwritten hnone =>
    cases h' with
    | tooMany _ hwritten' _ =>
      cases hwritten.symm.trans hwritten'
      rfl
    | different _ hwritten' hnext _ =>
      cases hwritten.symm.trans hwritten'
      cases hnone.symm.trans hnext
    | noNumber hr' _ | noCharacter hr' _ | invalid hr' | reachedEnd hr' | halted hr' =>
      cases hr.symm.trans hr'
  | different hr hwritten hnext _ =>
    cases h' with
    | tooMany _ hwritten' hnone =>
      cases hwritten.symm.trans hwritten'
      cases hnone.symm.trans hnext
    | different _ hwritten' _ _ =>
      cases hwritten.symm.trans hwritten'
      rfl
    | noNumber hr' _ | noCharacter hr' _ | invalid hr' | reachedEnd hr' | halted hr' =>
      cases hr.symm.trans hr'
  | noNumber hr hf =>
    cases h' with
    | noNumber _ _ => rfl
    | noCharacter hr' hf' =>
      cases hr.symm.trans hr'
      cases (ofCell_of_fetches hf).symm.trans (ofCell_of_fetches hf')
    | tooMany hr' _ _ | different hr' _ _ _ | invalid hr' | reachedEnd hr' | halted hr' =>
      cases hr.symm.trans hr'
  | noCharacter hr hf =>
    cases h' with
    | noCharacter _ _ => rfl
    | noNumber hr' hf' =>
      cases hr.symm.trans hr'
      cases (ofCell_of_fetches hf).symm.trans (ofCell_of_fetches hf')
    | tooMany hr' _ _ | different hr' _ _ _ | invalid hr' | reachedEnd hr' | halted hr' =>
      cases hr.symm.trans hr'
  | invalid hr | reachedEnd hr | halted hr =>
    cases h' with
    | invalid hr' | reachedEnd hr' | halted hr' =>
      cases hr.symm.trans hr'
      try rfl
    | tooMany hr' _ _ | different hr' _ _ _ | noNumber hr' _ | noCharacter hr' _ =>
      cases hr.symm.trans hr'

/-! ## 3. What is written -/

/-- Whatever it is asked, a scripted device keeps what was written to it. -/
theorem keeps_events (q : Scripted) :
    Scripted.device.Keeps fun s => q.events.toList <+: s.events.toList := by
  have hemit : ∀ e s, q.events.toList <+: s.events.toList →
      q.events.toList <+: (Scripted.emit e s).state.events.toList := by
    intro e s h
    refine h.trans ?_
    simp [Scripted.emit, Answer.quiet]
  refine ⟨?_, ?_, fun n => hemit (.number n), fun code => hemit (.character code)⟩
  · rintro ⟨_ | _, characters, events⟩ h <;> exact h
  · rintro ⟨numbers, _ | _, events⟩ h <;> exact h

/-- What was written first stands behind what was written before. -/
theorem exists_of_written (hkeeps : q.events.toList <+: q'.events.toList)
    (h : written? q q' = some e) : ∃ rest, q'.events.toList = q.events.toList ++ e :: rest := by
  obtain ⟨rest, hrest⟩ := hkeeps
  rw [written?, ← Array.getElem?_toList, ← hrest, ← Array.length_toList,
    List.getElem?_append_right (Nat.le_refl _), Nat.sub_self] at h
  cases rest with
  | nil => cases h
  | cons x rest =>
    cases h
    exact ⟨rest, hrest.symm⟩

/-- What the check expects next is what the case expects next. -/
theorem Expects.head?_expected (h : Expects c k q) :
    k.expected.head? = c.outputs[q.outputs.length]? := by
  rw [← h.outputs, List.getElem?_append_right (Nat.le_refl _), Nat.sub_self, List.head?_eq_getElem?]

theorem Expects.head?_expectedCharacters (h : Expects c k q) :
    k.expectedCharacters.head? = c.characterOutputs[q.characterOutputs.length]? := by
  rw [← h.characterOutputs, List.getElem?_append_right (Nat.le_refl _), Nat.sub_self,
    List.head?_eq_getElem?]

/-- While the check has not failed, what was written is what was expected. -/
theorem Expects.next?_eq {k' : Check} (h : Expects c k' q')
    (hkeeps : q.events.toList <+: q'.events.toList) (hwritten : written? q q' = some e) :
    c.next? q e = some e := by
  obtain ⟨rest, hrest⟩ := exists_of_written hkeeps hwritten
  cases e with
  | number v =>
    have houtputs := h.outputs
    unfold Scripted.outputs at houtputs
    rw [hrest, List.filterMap_append, List.filterMap_cons] at houtputs
    simp [Case.next?, Scripted.outputs, ← houtputs]
  | character v =>
    have houtputs := h.characterOutputs
    unfold Scripted.characterOutputs at houtputs
    rw [hrest, List.filterMap_append, List.filterMap_cons] at houtputs
    simp [Case.next?, Scripted.characterOutputs, ← houtputs]

/-- The fault of the check when `e` comes out. -/
def Check.fault (k : Check) : Emission → CheckFault
  | .number v => Check.numberFault v k.expected.head?
  | .character v => Check.characterFault v k.expectedCharacters.head?

/-- The check answers with a fault only to something that is not the next in its row. -/
theorem compared_eq_error {expected : List Int} {rest : List Int → Check}
    {fault : Option Int → CheckFault} {v : Int} {f : CheckFault}
    (h : (compared k expected rest fault v).value = .error f) :
    expected.head? ≠ some v ∧ f = fault expected.head? := by
  cases expected with
  | nil =>
    cases h
    exact ⟨by simp, rfl⟩
  | cons x r =>
    simp only [compared, Answer.quiet] at h
    split at h
    · cases h
    · next hne =>
      cases h
      exact ⟨by simpa [eq_comm] using hne, rfl⟩

/-- **An instruction at which the check fails writes something else than what is expected next.** -/
theorem unexpected_of_perform (h : Expects c k q) {i : Instruction} {f : CheckFault}
    (hf : (m.perform Check.device k i).value = .error f) :
    ∃ e, written? q (m.perform Scripted.device q i).state = some e ∧ c.next? q e ≠ some e ∧
      f = k.fault e := by
  cases i with
  | readNumber =>
    cases hk : k.numbers <;> simp [Machine.perform, Check.device, hk, Answer.quiet] at hf
  | readCharacter =>
    cases hk : k.characters <;>
      simp [Machine.perform, Check.device, hk, Answer.quiet, Answer.map, Except.map] at hf
  | writeNumber =>
    have hanswer := Outcome.map_eq_error_iff.mp hf
    rw [emitNumber_eq_compared] at hanswer
    obtain ⟨hne, rfl⟩ := compared_eq_error hanswer
    refine ⟨.number (Cell.toInt m.registers.cell), ?_, ?_, rfl⟩
    · simp [written?, Machine.perform, Scripted.device, Scripted.emit, Answer.map, Answer.quiet]
    · simpa [Case.next?, ← h.head?_expected] using hne
  | writeCharacter =>
    have hanswer := Outcome.map_eq_error_iff.mp hf
    rw [emitCharacter_eq_compared] at hanswer
    obtain ⟨hne, rfl⟩ := compared_eq_error hanswer
    refine ⟨.character (Accumulator.lowByte (Cell.toInt m.registers.cell)), ?_, ?_, rfl⟩
    · simp [written?, Machine.perform, Scripted.device, Scripted.emit, Answer.map, Answer.quiet]
    · simpa [Case.next?, ← h.head?_expectedCharacters] using hne
  | _ => cases hf

/-- An instruction that waits asks for a number or for a character. -/
theorem reads_of_waits {σ ε : Type} {dev : Device σ ε} {s : σ} {i : Instruction}
    (h : (m.perform dev s i).value = .ok none) : i = .readNumber ∨ i = .readCharacter := by
  cases i with
  | readNumber => exact .inl rfl
  | readCharacter => exact .inr rfl
  | writeNumber =>
    obtain ⟨_, -, hnone⟩ := Outcome.map_eq_ok_iff.mp h
    cases hnone
  | writeCharacter =>
    obtain ⟨_, -, hnone⟩ := Outcome.map_eq_ok_iff.mp h
    cases hnone
  | _ => cases h

/-! ## 4. What the check makes of one call -/

/-- The machine, with either device, before a call that comes after `n` others that went on and
wrote what was expected. -/
structure Abreast (c : Case) (n : Nat) (m : Machine) (q : Scripted) (k : Check) : Prop where
  expects : Expects c k q
  sound : m.Sound
  running : m.final = none
  steps : m.registers.steps = n
  bytes : Bytes k.expectedCharacters

theorem AlignedTurns.cases_result {t : Turn Check CheckFault} {t' : Turn Scripted Empty}
    (h : AlignedTurns c t t') :
    (∃ r, t.result = .ok r ∧ t'.result = .ok r ∧ t.machine = t'.machine ∧
        Expects c t.device t'.device) ∨
      (∃ n, t'.result = .error (.address n)) ∨
      ∃ f a cell, t.result = .error (.device f) ∧ t'.result = .ok ⟨.continued, a, cell⟩ := by
  cases h with
  | same h m notes notes' r => exact .inl ⟨r, rfl, rfl, rfl, h⟩
  | lost k q m m' notes notes' n => exact .inr (.inl ⟨n, rfl⟩)
  | spoiled h k e m m' notes notes' a cell => exact .inr (.inr ⟨e, a, cell, rfl, rfl⟩)

/-- The results of a step of a machine that is not over and whose device never fails. -/
inductive Ends (m : Machine) : StepResult → Prop
  | continued (a : Address) (cell : Cell) : Ends m ⟨.continued, a, cell⟩
  | halted (a : Address) (cell : Cell) : Ends m ⟨.halted, a, cell⟩
  | invalid (a : Address) (cell : Cell) : Ends m ⟨.invalidInstruction, a, cell⟩
  | reachedEnd (a : Address) (cell : Cell) : Ends m ⟨.reachedEnd, a, cell⟩
  | noNumber {a : Address} {cell : Cell} (hf : m.Fetches a ⟨a, cell, .readNumber⟩) :
      Ends m ⟨.awaitingInput, a, cell⟩
  | noCharacter {a : Address} {cell : Cell} (hf : m.Fetches a ⟨a, cell, .readCharacter⟩) :
      Ends m ⟨.awaitingInput, a, cell⟩

theorem exists_ends {σ : Type} (hm : m.Sound) (hfinal : m.final = none) (dev : Device σ Empty)
    (s : σ) : ∃ r, (m.step dev s).result = .ok r ∧ Ends m r := by
  obtain ⟨r, hr, -⟩ | ⟨-, a, -, hcase⟩ := hm.step_cases dev s
  · rw [hfinal] at hr
    cases hr
  · generalize m.step dev s = t at hcase
    cases hcase with
    | invalid _ => exact ⟨_, rfl, .invalid _ _⟩
    | halt _ _ => exact ⟨_, rfl, .halted _ _⟩
    | reachEnd _ _ _ => exact ⟨_, rfl, .reachedEnd _ _⟩
    | @fail _ e _ _ _ _ => exact e.elim
    | @wait f hf _ _ hp =>
      obtain ⟨address, cell, i⟩ := f
      cases hf.address
      refine ⟨_, rfl, ?_⟩
      rcases reads_of_waits hp with rfl | rfl
      · exact .noNumber hf
      · exact .noCharacter hf
    | go _ _ _ _ => exact ⟨_, rfl, .continued _ _⟩

/-- **A step at which the check fails writes something else than what is expected next.** -/
theorem unexpected_of_step (h : Expects c k q) (hm : m.Sound) {f : CheckFault}
    (hf : (m.step Check.device k).result = .error (.device f)) :
    ∃ e, written? q (m.step Scripted.device q).device = some e ∧ c.next? q e ≠ some e ∧
      f = k.fault e := by
  obtain ⟨r, -, hrepeat⟩ | ⟨hfinal, a, hpc, hcase⟩ := hm.step_cases Check.device k
  · rw [hrepeat] at hf
    cases hf
  · generalize m.step Check.device k = t at hcase hf
    cases hcase with
    | @fail f' e hf' hh hn hp =>
      cases hf
      -- the plain machine executes the same instruction
      have hdevice : (m.step Scripted.device q).device =
          (m.perform Scripted.device q f'.instruction).state := by
        rw [Machine.step_eq_execute Scripted.device q hfinal hpc hf', Machine.execute,
          if_neg (Bool.eq_false_iff.mp hh), if_neg (Nat.not_le_of_lt hn)]
        dsimp only
        split <;> rfl
      rw [hdevice]
      exact unexpected_of_perform h hp
    | _ => cases hf

/-- The kind of a fault tells whether something else was expected. -/
theorem kind_of_fault (h : Expects c k q) {kind : Kind} {detail : String}
    (hf : k.fault e = .unexpected kind detail) :
    (c.next? q e = none ∧ kind = .tooMany e) ∨ ∃ x, c.next? q e = some x ∧ kind = .different e := by
  have hcode : ∀ (code : Int) (f : CheckFault), Check.showCode code = .error f →
      f ≠ .unexpected kind detail := by
    rintro code f hshow rfl
    unfold Check.showCode at hshow
    split at hshow <;> cases hshow
  cases e with
  | number v =>
    simp only [Check.fault, h.head?_expected] at hf
    cases hx : c.outputs[q.outputs.length]? with
    | none =>
      rw [hx] at hf
      cases hf
      exact .inl ⟨by simp [Case.next?, hx], rfl⟩
    | some x =>
      rw [hx] at hf
      cases hf
      exact .inr ⟨.number x, by simp [Case.next?, hx], rfl⟩
  | character v =>
    simp only [Check.fault, h.head?_expectedCharacters] at hf
    cases hx : c.characterOutputs[q.characterOutputs.length]? with
    | none =>
      rw [hx] at hf
      simp only [Check.characterFault] at hf
      split at hf
      · cases hf
        exact .inl ⟨by simp [Case.next?, hx], rfl⟩
      · next f hshow => exact absurd hf (hcode _ _ hshow)
    | some x =>
      rw [hx] at hf
      simp only [Check.characterFault] at hf
      split at hf
      · cases hf
        exact .inr ⟨.character x, by simp [Case.next?, hx], rfl⟩
      · next f _ hshow => exact absurd hf (hcode _ _ hshow)
      · next f _ hshow => exact absurd hf (hcode _ _ hshow)

/-- **A call that does not deviate leaves the two side by side**, and the run goes on from there. -/
theorem Abreast.of_call (h : Abreast c n m q k)
    (hnot : ¬ c.Deviates q (m.step Scripted.device q)) :
    ∃ k', Abreast c (n + 1) (m.step Scripted.device q).machine
        (m.step Scripted.device q).device k' ∧
      ∀ left notes, ∃ notes', (drive (left + 1) notes m k).2 =
        (drive left notes' (m.step Scripted.device q).machine k').2 := by
  obtain ⟨hgo, hwrites⟩ := not_or.mp hnot
  have hcontinues : Machine.Continues Scripted.device m q := by
    simpa [Machine.Continues] using hgo
  obtain ⟨f, m', hexecutes⟩ := h.sound.exists_executes hcontinues
  have hrunning : (m.step Scripted.device q).machine.final = none := by
    rw [hexecutes.step_eq, Machine.final_advance,
      (Machine.effect_of_perform hexecutes.performs).final, h.running]
  have hsteps := Machine.steps_of_continues h.sound hcontinues
  rw [h.steps] at hsteps
  have hbytes := Machine.keeps_step Check.failsOnly.keeps m h.bytes
  obtain ⟨a, cell, hresult⟩ := hcontinues
  rcases (alignedTurns_step h.expects m).cases_result with
    ⟨r, hcheck, hplain, hmachine, hexpects⟩ | ⟨_, hlost⟩ | ⟨f, _, _, hfault, -⟩
  · obtain rfl := Except.ok.inj (hplain.symm.trans hresult)
    refine ⟨(m.step Check.device k).device,
      ⟨hexpects, h.sound.step _ _, hrunning, by simpa using hsteps, hbytes⟩, fun left notes => ?_⟩
    refine ⟨notes ++ (m.step Check.device k).notes.toArray, ?_⟩
    simp only [drive, hcheck, hmachine]
  · cases hlost.symm.trans hresult
  · obtain ⟨e, hwritten, hne, -⟩ := unexpected_of_step h.expects h.sound hfault
    exact absurd ⟨e, hwritten, hne⟩ hwrites

/-- What is left of the rows of the check is what the plain device has left and not written. -/
theorem Expects.leftover_eq (h : Expects c k q) : k.leftover = c.leftover q := by
  have hrows : c.rows q = [(.expectedMoreInputs, k.numbers.length),
      (.expectedMoreOutputs, k.expected.length), (.expectedMoreCharInputs, k.characters.length),
      (.expectedMoreCharOutputs, k.expectedCharacters.length)] := by
    simp [Case.rows, h.numbers, h.characters, ← h.outputs, ← h.characterOutputs]
  unfold Case.leftover Check.leftover
  rw [hrows]
  cases k.numbers <;> cases k.expected <;> cases k.characters <;> cases k.expectedCharacters <;> rfl

theorem tells_settle (h : Expects c k q) (hsteps : m.registers.steps = n) :
    Tells (settle m k) none n ((c.leftover q).map Prod.fst) := by
  unfold settle
  rw [h.leftover_eq, hsteps]
  cases c.leftover q with
  | none => rfl
  | some row => exact ⟨_, rfl⟩

/-- Where the check fails, its fault is the verdict. -/
theorem Abreast.verdict_of_fault (h : Abreast c n m q k) {f : CheckFault} {a : Address}
    {cell : Cell} (hf : (m.step Check.device k).result = .error (.device f))
    (hgo : (m.step Scripted.device q).result = .ok ⟨.continued, a, cell⟩) :
    ∃ v, c.Verdict m q (m.step Scripted.device q) v ∧
      ∀ left notes, Tells (drive (left + 1) notes m k).2 none n v := by
  obtain ⟨e, hwritten, hne, hfault⟩ := unexpected_of_step h.expects h.sound hf
  obtain ⟨f', hf', kind, detail, rfl⟩ := h.sound.fault_of_step Check.failsOnly h.bytes hf
  obtain rfl := StepFault.device.inj hf'
  have hstop : ¬ Machine.Continues Check.device m k := by
    rintro ⟨_, _, hr⟩
    cases hr.symm.trans hf
  have hsteps : (m.step Check.device k).machine.registers.steps = n := by
    rw [(Machine.registers_of_not_continues h.sound hstop).1, h.steps]
  have htells : ∀ left notes, Tells (drive (left + 1) notes m k).2 none n (some kind) := by
    intro left notes
    simp only [drive, hf, hsteps]
    exact ⟨detail, rfl⟩
  rcases kind_of_fault h.expects hfault.symm with ⟨hnone, rfl⟩ | ⟨x, hx, rfl⟩
  · exact ⟨_, .tooMany hgo hwritten hnone, htells⟩
  · refine ⟨_, .different hgo hwritten hx ?_, htells⟩
    rintro rfl
    exact hne hx

/-- **A call that deviates ends the case with its verdict.** -/
theorem Abreast.verdict (h : Abreast c n m q k) (hdev : c.Deviates q (m.step Scripted.device q)) :
    ∃ v, c.Verdict m q (m.step Scripted.device q) v ∧
      ∀ left notes, Tells (drive (left + 1) notes m k).2 none n v := by
  obtain ⟨r, hr, hends⟩ := exists_ends h.sound h.running Scripted.device q
  rcases (alignedTurns_step h.expects m).cases_result with
    ⟨r', hcheck, hplain, hmachine, hexpects⟩ | ⟨_, hlost⟩ | ⟨f, a, cell, hfault, hgo⟩
  · obtain rfl := Except.ok.inj (hplain.symm.trans hr)
    have hregisters (hne : r'.outcome ≠ .continued) :
        (m.step Scripted.device q).machine.registers.steps = n := by
      rw [(Machine.registers_of_not_continues h.sound ?_).1, h.steps]
      rintro ⟨a, cell, hgo⟩
      exact hne (congrArg StepResult.outcome (Except.ok.inj (hplain.symm.trans hgo)))
    have hextended : (m.step Scripted.device q).machine.extended = m.extended :=
      (Machine.sameSetting_step _ m q).extended
    cases hends with
    | continued a cell =>
      -- what was written is what was expected
      rcases hdev with hstop | ⟨e, hwritten, hne⟩
      · exact absurd hplain (hstop a cell)
      · have hkeeps := Machine.keeps_step (keeps_events q) m List.prefix_rfl
        exact absurd (hexpects.next?_eq hkeeps hwritten) hne
    | halted a cell =>
      refine ⟨_, .halted hplain, fun left notes => ?_⟩
      simp only [drive, hcheck, hmachine]
      exact tells_settle hexpects (hregisters (by simp))
    | invalid a cell =>
      refine ⟨_, .invalid hplain, fun left notes => ?_⟩
      simp only [drive, hcheck, hmachine, hregisters (by simp)]
      exact ⟨_, rfl⟩
    | reachedEnd a cell =>
      refine ⟨_, .reachedEnd hplain, fun left notes => ?_⟩
      simp only [drive, hcheck, hmachine, hregisters (by simp)]
      exact ⟨_, rfl⟩
    | @noNumber a cell hf =>
      have hmeaning := ofCell_of_fetches hf
      refine ⟨_, .noNumber hplain hf, fun left notes => ?_⟩
      simp only [drive, hcheck, hmachine, hregisters (by simp), hextended, starvation, hmeaning]
      exact ⟨_, rfl⟩
    | @noCharacter a cell hf =>
      have hmeaning := ofCell_of_fetches hf
      refine ⟨_, .noCharacter hplain hf, fun left notes => ?_⟩
      simp only [drive, hcheck, hmachine, hregisters (by simp), hextended, starvation, hmeaning]
      exact ⟨_, rfl⟩
  · cases hlost.symm.trans hr
  · exact h.verdict_of_fault hfault hgo

/-! ## 5. Cases -/

theorem abreast_start (m : Memory) (hbytes : Bytes c.characterOutputs) :
    Abreast c 0 (c.after m 0).1 (c.after m 0).2 (Check.ofCase c) where
  expects := expects_ofCase c
  sound := Machine.sound_of_fresh rfl rfl
  running := rfl
  steps := rfl
  bytes := hbytes

/-- **Calls that do not deviate**, one after another: the run has come as far as the plain
machine. -/
theorem exists_abreast (m : Memory) (hbytes : Bytes c.characterOutputs) (notes : Array Note) :
    ∀ n : Nat, (∀ i < n, ¬ c.DeviatesAt m i) →
      ∃ k, Abreast c n (c.after m n).1 (c.after m n).2 k ∧ ∀ left, ∃ notes',
        (drive (n + left) notes (Machine.start m) (Check.ofCase c)).2 =
          (drive left notes' (c.after m n).1 k).2
  | 0, _ => ⟨_, abreast_start m hbytes, fun left => ⟨notes, by rw [Nat.zero_add]; rfl⟩⟩
  | n + 1, hnot => by
    obtain ⟨k, hk, hdrive⟩ := exists_abreast m hbytes notes n fun i hi =>
      hnot i (Nat.lt_succ_of_lt hi)
    obtain ⟨k', hk', hstep⟩ := hk.of_call (hnot n (Nat.lt_succ_self n))
    refine ⟨k', hk', fun left => ?_⟩
    obtain ⟨notes₁, heq₁⟩ := hdrive (left + 1)
    obtain ⟨notes₂, heq₂⟩ := hstep left notes₁
    refine ⟨notes₂, ?_⟩
    rw [Nat.add_assoc, Nat.add_comm 1 left, heq₁, heq₂]
    rfl

/-- The result of a case is that of its run, with the name of the case. -/
theorem run_eq_mapError (c : Case) (m : Memory) : (c.run m).2 =
    (drive c.maxSteps.toNat #[(Machine.start m).startNote] (Machine.start m)
      (Check.ofCase c)).2.mapError (Trouble.named c.name) := by
  simp only [Case.run]
  cases (drive c.maxSteps.toNat #[(Machine.start m).startNote] (Machine.start m)
    (Check.ofCase c)).2 <;> rfl

theorem Tells.named {r : Except Trouble Int} {v : Option Kind} {n : Int} (h : Tells r none n v)
    (name : Option (List Char)) : Tells (r.mapError (Trouble.named name)) name n v := by
  cases v with
  | none =>
    obtain rfl := h
    rfl
  | some kind =>
    obtain ⟨detail, rfl⟩ := h
    exact ⟨detail, rfl⟩

/-- A case that was read from a file has a budget that is not negative. -/
theorem maxSteps_of_ofText {text : List Char} {cases : List Case}
    (h : Case.ofText text = .ok cases) : ∀ c ∈ cases, 0 ≤ c.maxSteps := by
  intro c hc
  obtain ⟨x, -, hx⟩ := Outcome.exists_of_mem_mapM h c hc
  obtain ⟨f, -, hf⟩ := Outcome.bind_eq_ok_iff.mp hx
  simp only [ofFields_eq_bind, Outcome.bind_eq_ok_iff, Outcome.map_eq_ok_iff] at hf
  obtain ⟨n, hn, _, -, _, -, _, -, _, -, rfl⟩ := hf
  exact (stepsOfField_eq_ok_iff.mp hn).2

/-- **What a case that was read from a file tells.**  If no call within its budget deviates, it ran
out of steps, and all of the budget is used up.  Otherwise the first call that does tells the
verdict, after the instructions that were executed before it. -/
theorem run_diagnosed (m : Memory) {text : List Char} {cases : List Case}
    (h : Case.ofText text = .ok cases) {c : Case} (hc : c ∈ cases) :
    ((∀ n : Nat, n < c.maxSteps → ¬ c.DeviatesAt m n) →
        (c.run m).2 = .error (.failure ⟨.ranOutOfSteps, c.maxSteps, "", c.name⟩)) ∧
      ∀ n : Nat, n < c.maxSteps → (∀ i < n, ¬ c.DeviatesAt m i) → c.DeviatesAt m n →
        ∃ v, c.Verdict (c.after m n).1 (c.after m n).2 (c.call m n) v ∧
          Tells (c.run m).2 c.name n v := by
  have hbytes := bytes_of_ofText h c hc
  have hbudget := maxSteps_of_ofText h c hc
  rw [run_eq_mapError]
  refine ⟨fun hnone => ?_, fun n hn hbefore hdev => ?_⟩
  · obtain ⟨k, hk, hdrive⟩ := exists_abreast m hbytes #[(Machine.start m).startNote]
      c.maxSteps.toNat fun i hi => hnone i (by omega)
    obtain ⟨notes, heq⟩ := hdrive 0
    have hsteps : (c.after m c.maxSteps.toNat).1.registers.steps = c.maxSteps := by
      rw [hk.steps, Int.toNat_of_nonneg hbudget]
    rw [Nat.add_zero] at heq
    rw [heq, drive, hsteps]
    rfl
  · obtain ⟨k, hk, hdrive⟩ := exists_abreast m hbytes #[(Machine.start m).startNote] n hbefore
    obtain ⟨v, hv, htells⟩ := hk.verdict hdev
    obtain ⟨left, hleft⟩ : ∃ left, c.maxSteps.toNat = n + (left + 1) :=
      ⟨c.maxSteps.toNat - n - 1, by omega⟩
    obtain ⟨notes, heq⟩ := hdrive (left + 1)
    refine ⟨v, hv, Tells.named ?_ c.name⟩
    rw [hleft, heq]
    exact htells left notes

/-- A program that writes the number it has read does so in its second call, where eight is expected
and not seven. -/
theorem run_diagnosed_echo :
    Case.ofText "echo;7;8;10".toList = .ok [⟨some "echo".toList, [7], [8], [], [], 10⟩] ∧
      Tells (Case.run ⟨some "echo".toList, [7], [8], [], [], 10⟩ (Memory.ofList [901, 902, 0])).2
        (some "echo".toList) 1 (some .differentOutput) := by
  have hread : Case.ofText "echo;7;8;10".toList =
      .ok [⟨some "echo".toList, [7], [8], [], [], 10⟩] := by rfl
  refine ⟨hread, ?_⟩
  obtain ⟨v, hv, htells⟩ := (run_diagnosed (Memory.ofList [901, 902, 0]) hread
    List.mem_cons_self).2 1 (by decide) (by decide +kernel) (by decide +kernel)
  obtain rfl := hv.unique (@Case.Verdict.different _ _ _ _ 1 902 (.number 7) (.number 8)
    (by decide +kernel) (by decide +kernel) (by decide +kernel) (by decide))
  exact htells

end Trial
end MinionComputer
