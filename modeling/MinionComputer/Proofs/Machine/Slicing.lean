/-
# A run in slices

A run can be cut into runs with budgets and single steps, with breakpoints set and removed and with
input that comes late.  However it is cut, as many steps of a machine that has all the input from
the beginning and no breakpoints lead to the same registers, memory and mode, and to the same device
with the same input left in it.  So running out of budget, stopping at a breakpoint and waiting for
input lose, repeat and reorder nothing.

* `Machine.SameRun`: machines that differ in their breakpoints, their traces and their ends;
* `Machine.SameRun.executes`: with more input at the ends of its queues a machine does what it did;
* `Machine.Tracks`: a machine in slices, and one that has run on like it;
* `Slice.performAll_eq_steps`: what a script of slices comes to.
-/
import MinionComputer.Proofs.Machine.Run
import MinionComputer.Device.Scripted

namespace MinionComputer

/-! ## 1. Slices -/

/-- The scripted device with these numbers and characters queued and these events. -/
def Scripted.ofInputs (numbers characters : List Int) (events : Array Emission) : Scripted :=
  ⟨numbers.map some, characters.map some, events⟩

/-- Something that may be done in the course of a run. -/
inductive Slice where
  | run (budget : Int)
  | step
  | pushNumber (n : Int)
  | pushCharacters (codes : List Int)
  | addBreakpoint (a : Int)
  | removeBreakpoint (a : Int)
  | clearBreakpoints
  deriving DecidableEq, Repr

namespace Slice

/-- Does it. -/
def perform (x : Slice) (m : Machine) (s : Scripted) : Machine × Scripted :=
  match x with
  | run budget =>
    let t := m.run Scripted.device budget s
    (t.machine, t.device)
  | step =>
    let t := m.step Scripted.device s
    (t.machine, t.device)
  | pushNumber n => (m, s.pushNumber (some n))
  | pushCharacters codes => (m, s.pushCharacters (codes.map some))
  | addBreakpoint a => (m.addBreakpoint a, s)
  | removeBreakpoint a => (m.removeBreakpoint a, s)
  | clearBreakpoints => (m.clearBreakpoints, s)

/-- Does one thing after another. -/
def performAll : List Slice → Machine → Scripted → Machine × Scripted
  | [], m, s => (m, s)
  | x :: script, m, s => performAll script (x.perform m s).1 (x.perform m s).2

/-- The numbers that it queues. -/
def numbers : Slice → List Int
  | pushNumber n => [n]
  | _ => []

/-- The characters that it queues. -/
def characters : Slice → List Int
  | pushCharacters codes => codes
  | _ => []

end Slice

namespace Machine

variable {σ ε : Type} {dev : Device σ ε} {m m' m₁ : Machine} {s s' : σ} {f : Fetched}
  {numbers characters : List Int} {events : Array Emission}

/-! ## 2. Machines that run alike -/

/-- The machines differ in their breakpoints, their traces and their ends. -/
structure SameRun (m m' : Machine) : Prop where
  registers : m'.registers = m.registers
  memory : m'.memory = m.memory
  extended : m'.extended = m.extended

theorem SameRun.fetches (h : SameRun m m') {a : Address} (hf : m.Fetches a f) :
    m'.Fetches a f where
  address := hf.address
  cell := by
    rw [h.memory]
    exact hf.cell
  meaning := by
    rw [h.memory, h.extended]
    exact hf.meaning

theorem SameRun.next (h : SameRun m m') (f : Fetched) : m'.next f = m.next f := by
  unfold Machine.next
  rw [h.registers]

theorem SameRun.setAcc (h : SameRun m m') (acc : Int) (negative : Bool) :
    SameRun (m.setAcc acc negative) (m'.setAcc acc negative) where
  registers := by
    unfold Machine.setAcc
    rw [h.registers]
  memory := h.memory
  extended := h.extended

theorem SameRun.advance (h : SameRun m m') (f : Fetched) (n : Nat) :
    SameRun (m.advance f n) (m'.advance f n) where
  registers := by rw [registers_advance, registers_advance, h.registers]
  memory := by rw [memory_advance, memory_advance, h.memory]
  extended := by rw [extended_advance, extended_advance, h.extended]

/-- **What ends one of them ends the other**, whatever its device has. -/
theorem SameRun.result_of_final (h : SameRun m m') (hm : m.Sound) (hfinal : m.final = none)
    (hfinal' : m'.final = none) {r : StepResult} (hr : (m.step dev s).machine.final = some r)
    (s' : σ) : (m'.step dev s').result = .ok r := by
  obtain ⟨a, hpc⟩ := hm.exists_address
  have hpc' : m'.registers.pc = Address.toInt a := by
    rw [h.registers]
    exact hpc
  have hcase := stepCase_step dev s hfinal hpc
  generalize m.step dev s = t at hcase hr
  cases hcase with
  | invalid hi =>
    cases hr
    rw [← h.memory] at hi ⊢
    rw [← h.extended] at hi
    rw [step_eq_finish dev s' hfinal' hpc' hi]
    rfl
  | halt hf hh =>
    cases hr
    rw [step_eq_execute dev s' hfinal' hpc' (h.fetches hf), execute, if_pos hh]
    rfl
  | reachEnd hf hh hn =>
    cases hr
    have hhalts := Bool.eq_false_iff.mp hh
    rw [step_eq_execute dev s' hfinal' hpc' (h.fetches hf), execute, if_neg hhalts, h.next,
      if_pos hn]
    rfl
  | fail _ _ _ _ => exact absurd (hfinal.symm.trans hr) (by simp)
  | wait _ _ _ _ => exact absurd (hfinal.symm.trans hr) (by simp)
  | @go f m₁ _ _ _ hp =>
    rw [final_advance] at hr
    rw [(effect_of_perform hp).final] at hr
    exact absurd (hfinal.symm.trans hr) (by simp)

/-! ## 3. More input -/

/-- What an instruction does does not depend on input behind the input that it takes. -/
theorem SameRun.performs (h : SameRun m m') {i : Instruction}
    (hp : (m.perform Scripted.device (.ofInputs numbers characters events) i).value =
      .ok (some m₁)) (ns cs : List Int) :
    ∃ numbers' characters' events' m₁', SameRun m₁ m₁' ∧
      (m.perform Scripted.device (.ofInputs numbers characters events) i).state =
        .ofInputs numbers' characters' events' ∧
      (m'.perform Scripted.device (.ofInputs (numbers ++ ns) (characters ++ cs) events) i).state =
        .ofInputs (numbers' ++ ns) (characters' ++ cs) events' ∧
      (m'.perform Scripted.device (.ofInputs (numbers ++ ns) (characters ++ cs) events) i).value =
        .ok (some m₁') := by
  cases i with
  | add a =>
    cases hp
    refine ⟨numbers, characters, events, _, ?_, rfl, rfl, rfl⟩
    rw [h.registers, h.memory]
    exact h.setAcc _ _
  | subtract a =>
    cases hp
    refine ⟨numbers, characters, events, _, ?_, rfl, rfl, rfl⟩
    rw [h.registers, h.memory]
    exact h.setAcc _ _
  | store a =>
    cases hp
    refine ⟨numbers, characters, events,
      { m' with memory := m'.memory.write a m'.registers.cell }, ⟨h.registers, ?_, h.extended⟩,
      rfl, rfl, rfl⟩
    dsimp only
    rw [h.registers, h.memory]
  | load a =>
    cases hp
    refine ⟨numbers, characters, events, _, ?_, rfl, rfl, rfl⟩
    rw [h.memory]
    exact h.setAcc _ _
  | branch a | branchZero a | branchPositive a | halt | extend =>
    cases hp
    exact ⟨numbers, characters, events, m', h, rfl, rfl, rfl⟩
  | readNumber =>
    cases numbers with
    | nil => cases hp
    | cons n numbers =>
      cases hp
      exact ⟨numbers, characters, events, _, h.setAcc _ _, rfl, rfl, rfl⟩
  | readCharacter =>
    cases characters with
    | nil => cases hp
    | cons c characters =>
      cases hp
      exact ⟨numbers, characters, events, _, h.setAcc _ _, rfl, rfl, rfl⟩
  | writeNumber =>
    cases hp
    refine ⟨numbers, characters, _, m', h, rfl, ?_, rfl⟩
    rw [perform, h.registers]
    rfl
  | writeCharacter =>
    cases hp
    refine ⟨numbers, characters, _, m', h, rfl, ?_, rfl⟩
    rw [perform, h.registers]
    rfl

/-- An instruction that waits for input takes none. -/
theorem state_of_waits {i : Instruction}
    (hp : (m.perform Scripted.device (.ofInputs numbers characters events) i).value = .ok none) :
    (m.perform Scripted.device (.ofInputs numbers characters events) i).state =
      .ofInputs numbers characters events := by
  cases i with
  | readNumber =>
    cases numbers with
    | nil => rfl
    | cons n numbers => cases hp
  | readCharacter =>
    cases characters with
    | nil => rfl
    | cons c characters => cases hp
  | _ => cases hp

/-- A step that does not go on leaves the device as it is. -/
theorem device_of_not_continues (h : m.Sound)
    (hstop : ¬ Continues Scripted.device m (.ofInputs numbers characters events)) :
    (m.step Scripted.device (.ofInputs numbers characters events)).device =
      .ofInputs numbers characters events := by
  unfold Continues at hstop
  obtain ⟨r, _, hrepeat⟩ | ⟨_, a, _, hcase⟩ :=
    h.step_cases Scripted.device (.ofInputs numbers characters events)
  · rw [hrepeat]
  · generalize m.step Scripted.device (.ofInputs numbers characters events) = t at hcase hstop ⊢
    cases hcase with
    | invalid _ | halt _ _ | reachEnd _ _ _ => rfl
    | @fail _ e _ _ _ _ => exact e.elim
    | wait _ _ _ hp => exact state_of_waits hp
    | go _ _ _ _ => exact absurd ⟨_, _, rfl⟩ hstop

/-- **With more input at the ends of its queues a machine executes what it executed.** -/
theorem SameRun.executes (h : SameRun m m') (hfinal' : m'.final = none)
    (he : Executes Scripted.device m (.ofInputs numbers characters events) f m₁)
    (ns cs : List Int) :
    ∃ numbers' characters' events' m₁', SameRun m₁ m₁' ∧
      (m.perform Scripted.device (.ofInputs numbers characters events) f.instruction).state =
        .ofInputs numbers' characters' events' ∧
      (m'.perform Scripted.device (.ofInputs (numbers ++ ns) (characters ++ cs) events)
        f.instruction).state = .ofInputs (numbers' ++ ns) (characters' ++ cs) events' ∧
      Executes Scripted.device m' (.ofInputs (numbers ++ ns) (characters ++ cs) events) f m₁' := by
  obtain ⟨numbers', characters', events', m₁', hsame, hstate, hstate', hvalue⟩ :=
    h.performs he.performs ns cs
  refine ⟨numbers', characters', events', m₁', hsame, hstate, hstate', hfinal', ?_,
    h.fetches he.fetches, he.halts, ?_, hvalue⟩
  · rw [h.registers]
    exact he.pc
  · rw [h.next]
    exact he.next

/-! ## 4. Keeping track -/

/-- The machine `m'` has run on from `start` with `full`, all the input there will be, for `k` steps
and is where `m` is with `q`, to which the input `ns` and `cs` is still to come.  If `m` is over,
the next step of `m'` says how. -/
structure RunsLike (start : Machine) (full : Scripted) (ns cs : List Int) (m : Machine)
    (q : Scripted) (k : Nat) (m' : Machine) (numbers characters : List Int)
    (events : Array Emission) : Prop where
  device : q = .ofInputs numbers characters events
  same : SameRun m m'
  final : m'.final = none
  goesOn : GoesOn Scripted.device k start full m'
    (.ofInputs (numbers ++ ns) (characters ++ cs) events)
  next : ∀ r, m.final = some r →
    (m'.step Scripted.device (.ofInputs (numbers ++ ns) (characters ++ cs) events)).result = .ok r

/-- The machine in slices is sound, and there is one that has run on like it. -/
structure Tracks (start : Machine) (full : Scripted) (ns cs : List Int) (m : Machine)
    (q : Scripted) : Prop where
  sound : m.Sound
  runsLike : ∃ k m' numbers characters events,
    RunsLike start full ns cs m q k m' numbers characters events

variable {start : Machine} {full : Scripted} {ns cs : List Int} {q : Scripted}

/-- A step that goes on is a step of both. -/
theorem Tracks.continues (h : Tracks start full ns cs m q)
    (hc : Continues Scripted.device m q) :
    Tracks start full ns cs (m.step Scripted.device q).machine
      (m.step Scripted.device q).device := by
  obtain ⟨hsound, k, m', numbers, characters, events, rfl, hsame, hfinal', hgo, _⟩ := h
  obtain ⟨f, m₁, he⟩ := hsound.exists_executes hc
  obtain ⟨numbers', characters', events', m₁', hsame₁, hstate, hstate', he'⟩ :=
    hsame.executes hfinal' he ns cs
  have hgo' := hgo.tail he'.continues
  have hfinal₁ := (effect_of_perform he.performs).final.trans he.final
  have hfinal₁' := (effect_of_perform he'.performs).final.trans hfinal'
  refine ⟨hsound.step _ _, k + 1, m₁'.advance f (m'.next f), numbers', characters', events',
    ?_, ?_, ?_, ?_, ?_⟩
  · rw [he.step_eq]
    exact hstate
  · rw [he.step_eq, hsame.next]
    exact hsame₁.advance f (m.next f)
  · rw [final_advance]
    exact hfinal₁'
  · rw [he'.step_eq, hstate'] at hgo'
    exact hgo'
  · rw [he.step_eq]
    dsimp only
    rw [final_advance, hfinal₁]
    rintro r ⟨⟩

/-- A step that does not go on is none of the other. -/
theorem Tracks.stays (h : Tracks start full ns cs m q)
    (hstop : ¬ Continues Scripted.device m q) :
    Tracks start full ns cs (m.step Scripted.device q).machine
      (m.step Scripted.device q).device := by
  cases hfinal : m.final with
  | some r =>
    rw [step_of_final Scripted.device q hfinal]
    exact h
  | none =>
    obtain ⟨hsound, k, m', numbers, characters, events, rfl, hsame, hfinal', hgo, _⟩ := h
    obtain ⟨hregisters, hmemory, hextended⟩ := registers_of_not_continues hsound hstop
    have hsame' : SameRun
        (m.step Scripted.device (.ofInputs numbers characters events)).machine m' :=
      ⟨hsame.registers.trans hregisters.symm, hsame.memory.trans hmemory.symm,
        hsame.extended.trans hextended.symm⟩
    exact ⟨hsound.step _ _, k, m', numbers, characters, events,
      device_of_not_continues hsound hstop, hsame', hfinal', hgo,
      fun r hr => hsame.result_of_final hsound hfinal hfinal' hr _⟩

/-- A step keeps track. -/
theorem Tracks.step (h : Tracks start full ns cs m q) :
    Tracks start full ns cs (m.step Scripted.device q).machine
      (m.step Scripted.device q).device := by
  by_cases hc : Continues Scripted.device m q
  · exact h.continues hc
  · exact h.stays hc

/-- So does a run. -/
theorem Tracks.run (h : Tracks start full ns cs m q) (budget : Int) :
    Tracks start full ns cs (m.run Scripted.device budget q).machine
      (m.run Scripted.device budget q).device :=
  run_invariant (P := Tracks start full ns cs) (fun _ _ h => h.step) budget h

/-- Changing breakpoints keeps track. -/
theorem Tracks.of_breakpoints (h : Tracks start full ns cs m q) (breakpoints : List Int) :
    Tracks start full ns cs { m with breakpoints := breakpoints } q := by
  obtain ⟨hsound, k, m', numbers, characters, events, hq, hsame, hfinal', hgo, hnext⟩ := h
  exact ⟨hsound.of_eq rfl rfl, k, m', numbers, characters, events, hq,
    ⟨hsame.registers, hsame.memory, hsame.extended⟩, hfinal', hgo, hnext⟩

/-- **Whatever is done in the course of a run keeps track**; input that it queues is no longer to
come. -/
theorem Tracks.perform (x : Slice)
    (h : Tracks start full (x.numbers ++ ns) (x.characters ++ cs) m q) :
    Tracks start full ns cs (x.perform m q).1 (x.perform m q).2 := by
  cases x with
  | run budget => exact h.run budget
  | step => exact h.step
  | pushNumber n =>
    obtain ⟨hsound, k, m', numbers, characters, events, rfl, hsame, hfinal', hgo, hnext⟩ := h
    have hnumbers : numbers ++ ((Slice.pushNumber n).numbers ++ ns) = numbers ++ [n] ++ ns :=
      (List.append_assoc numbers [n] ns).symm
    rw [hnumbers] at hgo hnext
    refine ⟨hsound, k, m', numbers ++ [n], characters, events, ?_, hsame, hfinal', hgo, hnext⟩
    simp [Slice.perform, Scripted.pushNumber, Scripted.ofInputs]
  | pushCharacters codes =>
    obtain ⟨hsound, k, m', numbers, characters, events, rfl, hsame, hfinal', hgo, hnext⟩ := h
    have hcharacters : characters ++ ((Slice.pushCharacters codes).characters ++ cs) =
        characters ++ codes ++ cs := (List.append_assoc characters codes cs).symm
    rw [hcharacters] at hgo hnext
    refine ⟨hsound, k, m', numbers, characters ++ codes, events, ?_, hsame, hfinal', hgo, hnext⟩
    simp [Slice.perform, Scripted.pushCharacters, Scripted.ofInputs]
  | addBreakpoint a => exact h.of_breakpoints _
  | removeBreakpoint a => exact h.of_breakpoints _
  | clearBreakpoints => exact h.of_breakpoints _

/-- So does a script. -/
theorem Tracks.performAll : ∀ (script : List Slice) {m : Machine} {q : Scripted},
    Tracks start full (script.flatMap Slice.numbers) (script.flatMap Slice.characters) m q →
      Tracks start full [] [] (Slice.performAll script m q).1 (Slice.performAll script m q).2
  | [], _, _, h => h
  | x :: script, _, _, h => by
    rw [List.flatMap_cons, List.flatMap_cons] at h
    exact performAll script (h.perform x)

end Machine

/-! ## 5. Scripts -/

/-- At the end of a script there is a machine that has run on like the one in slices, with all the
input of the script from the beginning. -/
theorem Slice.tracks_performAll (memory : Memory) (numbers characters : List Int)
    (events : Array Emission) (script : List Slice) :
    Machine.Tracks (.start memory)
      (.ofInputs (numbers ++ script.flatMap Slice.numbers)
        (characters ++ script.flatMap Slice.characters) events) [] []
      (performAll script (.start memory) (.ofInputs numbers characters events)).1
      (performAll script (.start memory) (.ofInputs numbers characters events)).2 := by
  have hstart : Machine.Tracks (.start memory)
      (.ofInputs (numbers ++ script.flatMap Slice.numbers)
        (characters ++ script.flatMap Slice.characters) events)
      (script.flatMap Slice.numbers) (script.flatMap Slice.characters) (.start memory)
      (.ofInputs numbers characters events) :=
    ⟨Machine.sound_of_fresh rfl rfl, 0, .start memory, numbers, characters, events, rfl,
      ⟨rfl, rfl, rfl⟩, rfl, .refl _ _, by rintro r ⟨⟩⟩
  exact hstart.performAll

/-- **A run in slices is a run without them.**  After a script of slices that counted `k`
instructions, `k` steps of a new machine on the same memory go on, if it has all the input of the
script from the beginning.  They lead to the same registers, memory and mode, to the same events
and the same input left, and if the run in slices is over, the next step says how it ended.  No run
of the script executes more instructions than its budget. -/
theorem Slice.performAll_eq_steps (memory : Memory) (numbers characters : List Int)
    (events : Array Emission) (script : List Slice) :
    let x := performAll script (.start memory) (.ofInputs numbers characters events)
    let full := Scripted.ofInputs (numbers ++ script.flatMap Slice.numbers)
      (characters ++ script.flatMap Slice.characters) events
    (∃ (k : Nat) (m : Machine) (notes : List Note) (results : List (StepResult × Machine)),
      x.1.registers.steps = k ∧
      (Machine.start memory).steps Scripted.device k full = (m, x.2, notes, results, none) ∧
      results.length = k ∧ (∀ r ∈ results, r.1.outcome = .continued) ∧
      m.registers = x.1.registers ∧ m.memory = x.1.memory ∧ m.extended = x.1.extended ∧
      ∀ r, x.1.final = some r → (m.step Scripted.device x.2).result = .ok r) ∧
    ∀ before budget after, script = before ++ run budget :: after →
      let y := performAll before (.start memory) (.ofInputs numbers characters events)
      let z := (run budget).perform y.1 y.2
      y.1.registers.steps ≤ z.1.registers.steps ∧
        z.1.registers.steps ≤ y.1.registers.steps + max budget 0 := by
  constructor
  · obtain ⟨_, k, m, numbers', characters', events', heq, hsame, _, hgo, hnext⟩ :=
      tracks_performAll memory numbers characters events script
    rw [List.append_nil, List.append_nil, ← heq] at hgo hnext
    obtain ⟨notes, results, hsteps, hlength, hcontinued⟩ := Machine.results_of_goesOn hgo
    have hcount := Machine.steps_of_goesOn (Machine.sound_of_fresh rfl rfl) hgo
    refine ⟨k, m, notes, results, ?_, hsteps, hlength, hcontinued, hsame.registers, hsame.memory,
      hsame.extended, hnext⟩
    rw [← hsame.registers, hcount]
    exact Int.zero_add _
  · intro before budget after _
    have hbefore := tracks_performAll memory numbers characters events before
    exact Machine.steps_run_bounds hbefore.sound _ budget _

-- A number that comes after the run has waited for it, with a breakpoint behind it, is written.
example : (Slice.performAll [.run 5, .addBreakpoint 1, .pushNumber 7, .run 5, .step, .run 5]
    (.start (.ofList [901, 902, 0])) (.ofInputs [] [] #[])).2.events = #[.number 7] := by
  rfl

end MinionComputer
