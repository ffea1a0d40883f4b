/-
# What a step can do

Everything that is proved about steps starts from two facts.  An instruction changes the memory
or the accumulator and its flag and leaves the rest of the machine alone (`Effect`), and a step of
a machine that is not over is one of six things (`StepCase`): it ends the run at a cell without
meaning, at a halt or at the end of the memory, its device fails or has no input yet, or it
executes the instruction.

* `Machine.effect_of_perform`: the effects of instructions;
* `Machine.stepCase_step`: the cases of a step.
-/
import MinionComputer.Machine.Run
import MinionComputer.Proofs.Cell

namespace MinionComputer
namespace Machine

variable {σ ε : Type} {dev : Device σ ε} {m m' : Machine} {s : σ}

/-! ## 1. What an instruction changes -/

/-- Folding a number into the range keeps its sign. -/
theorem neg_of_wrap_neg {n : Int} (h : Accumulator.wrap n < 0) : n < 0 := by
  unfold Accumulator.wrap at h
  split at h
  · omega
  · split at h <;> omega

/-- What an instruction makes of a machine: nothing new, another memory, or another accumulator
of at most three digits, which has its flag if it is negative. -/
inductive Effect (m : Machine) : Machine → Prop
  | none : Effect m m
  | stored (memory : Memory) : Effect m { m with memory := memory }
  | loaded {acc : Int} {negative : Bool} (hacc : -999 ≤ acc ∧ acc ≤ 999)
      (hflag : acc < 0 → negative = true) : Effect m (m.setAcc acc negative)

/-- **An instruction that is executed has one of these effects.** -/
theorem effect_of_perform {i : Instruction} (h : (m.perform dev s i).value = .ok (some m')) :
    Effect m m' := by
  cases i with
  | add a =>
    cases h
    refine .loaded (Accumulator.wrap_bounds _) fun hneg => ?_
    have := neg_of_wrap_neg hneg
    simp [Accumulator.add, this]
  | subtract a =>
    cases h
    refine .loaded (Accumulator.wrap_bounds _) fun hneg => ?_
    have := neg_of_wrap_neg hneg
    simp [Accumulator.subtract, this]
  | store a =>
    cases h
    exact .stored _
  | load a =>
    cases h
    have := Cell.toInt_bounds (m.memory.read a)
    exact .loaded (by omega) (by omega)
  | branch a | branchZero a | branchPositive a | halt | extend =>
    cases h
    exact .none
  | readNumber =>
    simp only [perform] at h
    split at h
    · next n hn =>
      cases h
      have := Cell.toInt_bounds (Cell.clamp n)
      exact .loaded (by omega) (by omega)
    · cases h
    · cases h
  | readCharacter =>
    simp only [perform, Answer.map] at h
    cases hv : (dev.requestCharacter s).value with
    | error e =>
      rw [hv] at h
      cases h
    | ok c =>
      rw [hv] at h
      cases c with
      | none => cases h
      | some n =>
        cases h
        have : 0 ≤ Accumulator.lowByte n ∧ Accumulator.lowByte n < 256 := by
          unfold Accumulator.lowByte
          omega
        exact .loaded (by omega) (by omega)
  | writeNumber =>
    simp only [perform, Answer.map] at h
    cases hv : (dev.emitNumber (Cell.toInt m.registers.cell) s).value with
    | error e =>
      rw [hv] at h
      cases h
    | ok u =>
      rw [hv] at h
      cases h
      exact .none
  | writeCharacter =>
    simp only [perform, Answer.map] at h
    cases hv : (dev.emitCharacter (Accumulator.lowByte (Cell.toInt m.registers.cell)) s).value with
    | error e =>
      rw [hv] at h
      cases h
    | ok u =>
      rw [hv] at h
      cases h
      exact .none

/-- No effect ends a run. -/
theorem Effect.final (h : Effect m m') : m'.final = m.final := by
  cases h <;> rfl

/-- No effect counts as an instruction. -/
theorem Effect.steps (h : Effect m m') : m'.registers.steps = m.registers.steps := by
  cases h <;> rfl

@[simp] theorem registers_traced (a : Address) (c : Cell) (i : Instruction) :
    (m.traced a c i).registers = m.registers := by
  unfold traced
  split <;> rfl

@[simp] theorem memory_traced (a : Address) (c : Cell) (i : Instruction) :
    (m.traced a c i).memory = m.memory := by
  unfold traced
  split <;> rfl

@[simp] theorem extended_traced (a : Address) (c : Cell) (i : Instruction) :
    (m.traced a c i).extended = m.extended := by
  unfold traced
  split <;> rfl

@[simp] theorem final_traced (a : Address) (c : Cell) (i : Instruction) :
    (m.traced a c i).final = m.final := by
  unfold traced
  split <;> rfl

@[simp] theorem registers_advance (f : Fetched) (n : Nat) :
    (m.advance f n).registers =
      ⟨m.registers.acc, n, m.registers.negative, m.registers.steps + 1⟩ := by
  simp [advance]

@[simp] theorem memory_advance (f : Fetched) (n : Nat) : (m.advance f n).memory = m.memory := by
  simp [advance]

@[simp] theorem extended_advance (f : Fetched) (n : Nat) :
    (m.advance f n).extended = m.extended := by
  simp [advance]

@[simp] theorem final_advance (f : Fetched) (n : Nat) : (m.advance f n).final = m.final := by
  simp [advance]

/-- What no instruction changes: the mode, the breakpoints, and whether there is a trace. -/
structure SameSetting (m m' : Machine) : Prop where
  extended : m'.extended = m.extended
  breakpoints : m'.breakpoints = m.breakpoints
  tracing : m'.tracing = m.tracing

theorem SameSetting.trans {m₁ : Machine} (h : SameSetting m m') (h' : SameSetting m' m₁) :
    SameSetting m m₁ where
  extended := h'.extended.trans h.extended
  breakpoints := h'.breakpoints.trans h.breakpoints
  tracing := h'.tracing.trans h.tracing

theorem Effect.sameSetting (h : Effect m m') : SameSetting m m' := by
  cases h <;> exact ⟨rfl, rfl, rfl⟩

theorem sameSetting_traced (a : Address) (c : Cell) (i : Instruction) :
    SameSetting m (m.traced a c i) := by
  unfold traced
  split <;> exact ⟨rfl, rfl, rfl⟩

theorem sameSetting_advance (f : Fetched) (n : Nat) : SameSetting m (m.advance f n) := by
  have hgone : SameSetting m
      { m with registers := { m.registers with pc := n, steps := m.registers.steps + 1 } } :=
    ⟨rfl, rfl, rfl⟩
  exact hgone.trans (sameSetting_traced f.address f.cell f.instruction)

theorem SameSetting.finish (h : SameSetting m m') (s : σ) (notes : List Note) (r : StepResult) :
    SameSetting m (m'.finish s notes r : Turn σ ε).machine :=
  ⟨h.extended, h.breakpoints, h.tracing⟩

/-- **No step changes the setting.** -/
theorem sameSetting_step (dev : Device σ ε) (m : Machine) (s : σ) :
    SameSetting m (m.step dev s).machine := by
  have hrefl : SameSetting m m := ⟨rfl, rfl, rfl⟩
  unfold step
  split
  · exact hrefl
  · split
    · exact hrefl
    · exact hrefl.finish _ _ _
    · next f _ =>
      unfold execute
      split
      · exact (sameSetting_traced _ _ _).finish _ _ _
      · split
        · exact hrefl.finish _ _ _
        · dsimp only
          split
          · exact hrefl
          · exact hrefl
          · next m' hp =>
            exact (effect_of_perform hp).sameSetting.trans (sameSetting_advance f _)

/-- A step moves no breakpoint. -/
theorem breakpoints_step (dev : Device σ ε) (m : Machine) (s : σ) :
    (m.step dev s).machine.breakpoints = m.breakpoints :=
  (sameSetting_step dev m s).breakpoints

/-! ## 2. The cases of a step -/

/-- What is fetched at `a` in the mode of the machine. -/
structure Fetches (m : Machine) (a : Address) (f : Fetched) : Prop where
  address : f.address = a
  cell : f.cell = m.memory.read a
  meaning : Instruction.ofCell m.extended (m.memory.read a) = some f.instruction

/-- A step executes what it fetches. -/
theorem step_eq_execute (dev : Device σ ε) (s : σ) {a : Address} {f : Fetched}
    (hfinal : m.final = none) (hpc : m.registers.pc = Address.toInt a) (hf : m.Fetches a f) :
    m.step dev s = m.execute dev s f := by
  obtain ⟨rfl, hcell, hi⟩ := hf
  have haddress : Address.ofInt? m.registers.pc = some f.address := by
    rw [hpc]
    exact Address.ofInt?_toInt f.address
  rw [← hcell] at hi
  simp only [step, hfinal, fetch, haddress, ← hcell, hi]

/-- A step ends the run at a cell without meaning. -/
theorem step_eq_finish (dev : Device σ ε) (s : σ) {a : Address} (hfinal : m.final = none)
    (hpc : m.registers.pc = Address.toInt a)
    (hi : Instruction.ofCell m.extended (m.memory.read a) = none) :
    m.step dev s = m.finish s
      [⟨.warning, channel, (FetchFault.illegal a (m.memory.read a)).message⟩]
      ⟨.invalidInstruction, a, m.memory.read a⟩ := by
  have haddress : Address.ofInt? m.registers.pc = some a := by
    rw [hpc]
    exact Address.ofInt?_toInt a
  simp only [step, hfinal, fetch, haddress, hi]

/-- An instruction that does not halt is no halt. -/
theorem ne_halt_of_halts {f : Fetched} (h : f.halts = false) : f.instruction ≠ .halt := by
  intro heq
  simp [Fetched.halts, heq] at h

/-- What a step of a machine that is at `a` and not over can do. -/
inductive StepCase (dev : Device σ ε) (m : Machine) (s : σ) (a : Address) : Turn σ ε → Prop
  /-- The cell has no meaning. -/
  | invalid (hi : Instruction.ofCell m.extended (m.memory.read a) = none) :
      StepCase dev m s a (m.finish s
        [⟨.warning, channel, (FetchFault.illegal a (m.memory.read a)).message⟩]
        ⟨.invalidInstruction, a, m.memory.read a⟩)
  /-- The instruction halts. -/
  | halt {f : Fetched} (hf : m.Fetches a f) (hh : f.halts = true) :
      StepCase dev m s a ((m.traced f.address f.cell f.instruction).finish s [m.haltNote f]
        ⟨.halted, f.address, f.cell⟩)
  /-- There is no instruction after it. -/
  | reachEnd {f : Fetched} (hf : m.Fetches a f) (hh : f.halts = false) (hn : 100 ≤ m.next f) :
      StepCase dev m s a (m.finish s [endNote f] ⟨.reachedEnd, f.address, f.cell⟩)
  /-- Its device fails. -/
  | fail {f : Fetched} {e : ε} (hf : m.Fetches a f) (hh : f.halts = false) (hn : m.next f < 100)
      (hp : (m.perform dev s f.instruction).value = .error e) :
      StepCase dev m s a ⟨m, (m.perform dev s f.instruction).state,
        (m.perform dev s f.instruction).notes, .error (.device e)⟩
  /-- Its input is not there yet. -/
  | wait {f : Fetched} (hf : m.Fetches a f) (hh : f.halts = false) (hn : m.next f < 100)
      (hp : (m.perform dev s f.instruction).value = .ok none) :
      StepCase dev m s a ⟨m, (m.perform dev s f.instruction).state,
        (m.perform dev s f.instruction).notes, .ok ⟨.awaitingInput, f.address, f.cell⟩⟩
  /-- It is executed. -/
  | go {f : Fetched} {m' : Machine} (hf : m.Fetches a f) (hh : f.halts = false)
      (hn : m.next f < 100) (hp : (m.perform dev s f.instruction).value = .ok (some m')) :
      StepCase dev m s a ⟨m'.advance f (m.next f), (m.perform dev s f.instruction).state,
        (m.perform dev s f.instruction).notes, .ok ⟨.continued, f.address, f.cell⟩⟩

/-- **Every step of a machine that is not over is one of the cases.** -/
theorem stepCase_step (dev : Device σ ε) (s : σ) {a : Address} (hfinal : m.final = none)
    (hpc : m.registers.pc = Address.toInt a) : StepCase dev m s a (m.step dev s) := by
  cases hi : Instruction.ofCell m.extended (m.memory.read a) with
  | none =>
    rw [step_eq_finish dev s hfinal hpc hi]
    exact .invalid hi
  | some i =>
    have hf : m.Fetches a ⟨a, m.memory.read a, i⟩ := ⟨rfl, rfl, hi⟩
    rw [step_eq_execute dev s hfinal hpc hf, execute]
    split
    · next hh => exact .halt hf hh
    · next hh =>
      have hgoes : (⟨a, m.memory.read a, i⟩ : Fetched).halts = false := by simpa using hh
      split
      · next hn => exact .reachEnd hf hgoes hn
      · next hn =>
        have hnext : m.next ⟨a, m.memory.read a, i⟩ < 100 := Nat.lt_of_not_le hn
        dsimp only
        split
        · next e hp => exact .fail hf hgoes hnext hp
        · next hp => exact .wait hf hgoes hnext hp
        · next m' hp => exact .go hf hgoes hnext hp

end Machine
end MinionComputer
