/-
# A step with all its checks

The step of a machine needs few checks, since addresses and cells are bounded in their types.  Here
is a step that trusts nothing.  It goes through the accesses that check their arguments, looks the
executing part of an instruction up by its word, and tells an observer of every write before the
cell changes; the observer may write itself and may fail.  What can leave this step is more than
can leave the other (`Escape`), but from a sound machine all that does leave it are failures of the
device and of the observer, and with an observer that keeps still it is the same step.

* `Machine.checkedStep`: the step;
* `Machine.checkedCase_checkedStep`: what it can do;
* `Machine.Sound.escape_of_checkedStep`: what can leave it;
* `Machine.checkedStep_silent`: it is the step without checks.
-/
import MinionComputer.Proofs.Machine.Recorded

namespace MinionComputer

/-! ## 1. Writes that are observed -/

/-- What can leave a step: the fault of an access, a cell without meaning, a word that nothing
executes, a branch without a target, and the faults of the device and of the observer. -/
inductive Escape (ε ω : Type) where
  | memory (f : MemoryFault)
  | illegal (a : Address) (c : Cell)
  | noExecutor (w : Mnemonic)
  | noTarget
  | device (e : ε)
  | observer (e : ω)

/-- An observer is told the address, the cell before the write and the cell to be written.  It
leaves a memory behind, and it may fail. -/
abbrev Observer (ω : Type) : Type := Address → Cell → Cell → Memory → Memory × Except ω Unit

/-- The observer that keeps still. -/
def Observer.silent {ω : Type} : Observer ω := fun _ _ _ m => (m, .ok ())

variable {σ ε ω : Type}

/-- A write with its checks, of which an observer is told before the cell changes. -/
def Memory.writeObserved (observer : Observer ω) (m : Memory) (address value : Argument) :
    Memory × Except (Escape ε ω) Unit :=
  match address.toAddress, value.toCell with
  | .error f, _ => (m, .error (.memory f))
  | .ok _, .error f => (m, .error (.memory f))
  | .ok a, .ok c =>
    let x := observer a (m.read a) c m
    match x.2 with
    | .error e => (x.1, .error (.observer e))
    | .ok () => (x.1.write a c, .ok ())

/-! ## 2. Executors -/

/-- What the executor of an instruction did: the machine and the device after it, its notes, and
whether the instruction is complete; one that waits for input is not. -/
structure Handled (σ ε ω : Type) where
  machine : Machine
  device : σ
  notes : List Note
  value : Except (Escape ε ω) Bool

/-- An executor executes an instruction with an operand. -/
abbrev Executor (σ ε ω : Type) : Type := Argument → Machine → σ → Handled σ ε ω

namespace Executor

/-- Sets the accumulator and the flag from the accumulator and a cell. -/
def compute (f : Int → Int → Int × Bool) : Executor σ ε ω := fun x m s =>
  match m.memory.readAt x with
  | .error e => ⟨m, s, [], .error (.memory e)⟩
  | .ok c =>
    let r := f m.registers.acc (Cell.toInt c)
    ⟨m.setAcc r.1 r.2, s, [], .ok true⟩

/-- The last three digits of the accumulator without the sign. -/
def content (m : Machine) : Int := (m.registers.acc.natAbs : Int) % 1000

/-- Stores the accumulator. -/
def store (observer : Observer ω) : Executor σ ε ω := fun x m s =>
  let w := m.memory.writeObserved observer x (.whole (content m))
  ⟨{ m with memory := w.1 }, s, [], w.2.map fun _ => true⟩

/-- Nothing. -/
def idle : Executor σ ε ω := fun _ m s => ⟨m, s, [], .ok true⟩

/-- Puts what is asked for into the accumulator. -/
def request (ask : σ → Answer σ ε (Option Int)) (f : Int → Int) (notes : Int → List Note) :
    Executor σ ε ω := fun _ m s =>
  let a := ask s
  match a.value with
  | .error e => ⟨m, a.state, a.notes, .error (.device e)⟩
  | .ok none => ⟨m, a.state, a.notes, .ok false⟩
  | .ok (some n) => ⟨m.setAcc (f n) false, a.state, a.notes ++ notes n, .ok true⟩

/-- Writes what is in the accumulator. -/
def emit (tell : Int → σ → Answer σ ε Unit) (f : Int → Int) : Executor σ ε ω := fun _ m s =>
  let a := tell (f (content m)) s
  ⟨m, a.state, a.notes, (a.value.map fun _ => true).mapError .device⟩

/-- The executors by word. -/
def ofWord? (dev : Device σ ε) (observer : Observer ω) : Mnemonic → Option (Executor σ ε ω)
  | .add => some (compute Accumulator.add)
  | .sub => some (compute Accumulator.subtract)
  | .sto => some (store observer)
  | .lda => some (compute fun _ c => (c, false))
  | .br | .brz | .brp | .ext => some idle
  | .inp => some (request dev.requestNumber (fun n => max 0 (min 999 n)) Machine.clampNotes)
  | .out => some (emit dev.emitNumber id)
  | .ina => some (request dev.requestCharacter Accumulator.lowByte fun _ => [])
  | .ota => some (emit dev.emitCharacter Accumulator.lowByte)
  | .hlt | .dat => none

end Executor

/-- The operand of an instruction as an argument. -/
def Instruction.argument (i : Instruction) : Argument :=
  match i.operand? with
  | some a => .whole (Address.toInt a)
  | none => .absent

/-! ## 3. The step -/

/-- What a step with checks did. -/
structure CheckedTurn (σ ε ω : Type) where
  machine : Machine
  device : σ
  notes : List Note
  result : Except (Escape ε ω) StepResult

namespace Machine

/-- The instruction at the program counter. -/
def checkedFetch (m : Machine) : Except (Escape ε ω) Fetched :=
  match (Argument.whole m.registers.pc).toAddress with
  | .error f => .error (.memory f)
  | .ok a =>
    match Instruction.ofCell m.extended (m.memory.read a) with
    | none => .error (.illegal a (m.memory.read a))
    | some i => .ok ⟨a, m.memory.read a, i⟩

/-- The address after an instruction, if it has the target that it needs. -/
def checkedNext (m : Machine) (i : Instruction) : Option Int :=
  let target := i.operand?.map Address.toInt
  if i.mnemonic = .br then target
  else if i.mnemonic = .brz ∧ m.registers.acc = 0 then target
  else if i.mnemonic = .brp ∧ m.registers.negative = false then target
  else some (m.registers.pc + 1)

/-- The machine after an instruction that was executed. -/
def advanceTo (m : Machine) (f : Fetched) (n : Int) : Machine :=
  let r := m.registers
  let m' := { m with registers := { r with pc := n, steps := r.steps + 1 } }
  m'.traced f.address f.cell f.instruction

/-- The end of a run. -/
def checkedFinish (m : Machine) (s : σ) (notes : List Note) (r : StepResult) :
    CheckedTurn σ ε ω :=
  ⟨{ m with final := some r }, s, notes, .ok r⟩

/-- Executes what was fetched. -/
def checkedExecute (dev : Device σ ε) (observer : Observer ω) (m : Machine) (s : σ)
    (f : Fetched) : CheckedTurn σ ε ω :=
  if f.instruction.mnemonic = .hlt ∨ f.instruction.mnemonic = .ext ∧ m.registers.pc ≠ 0 then
    (m.traced f.address f.cell f.instruction).checkedFinish s [m.haltNote f]
      ⟨.halted, f.address, f.cell⟩
  else match m.checkedNext f.instruction with
    | none => ⟨m, s, [], .error .noTarget⟩
    | some n =>
      if 100 ≤ n then m.checkedFinish s [endNote f] ⟨.reachedEnd, f.address, f.cell⟩
      else match Executor.ofWord? dev observer f.instruction.mnemonic with
        | none => ⟨m, s, [], .error (.noExecutor f.instruction.mnemonic)⟩
        | some executor =>
          let x := executor f.instruction.argument m s
          match x.value with
          | .error e => ⟨x.machine, x.device, x.notes, .error e⟩
          | .ok false => ⟨x.machine, x.device, x.notes, .ok ⟨.awaitingInput, f.address, f.cell⟩⟩
          | .ok true =>
            ⟨x.machine.advanceTo f n, x.device, x.notes, .ok ⟨.continued, f.address, f.cell⟩⟩

/-- One step.  A run that is over stays over; a cell without meaning ends it. -/
def checkedStep (dev : Device σ ε) (observer : Observer ω) (m : Machine) (s : σ) :
    CheckedTurn σ ε ω :=
  match m.final with
  | some r => ⟨m, s, [], .ok r⟩
  | none =>
    match (m.checkedFetch : Except (Escape ε ω) Fetched) with
    | .error (.illegal a c) =>
      m.checkedFinish s [⟨.warning, channel, (FetchFault.illegal a c).message⟩]
        ⟨.invalidInstruction, a, c⟩
    | .error e => ⟨m, s, [], .error e⟩
    | .ok f => m.checkedExecute dev observer s f

end Machine

/-- What can leave a step, among all that can leave one with checks. -/
def StepFault.escape : StepFault ε → Escape ε ω
  | .address n => .memory (.address (.whole n))
  | .device e => .device e

/-- A step as one with checks. -/
def Turn.checked (t : Turn σ ε) : CheckedTurn σ ε ω :=
  ⟨t.machine, t.device, t.notes, t.result.mapError StepFault.escape⟩

/-! ## 4. The checks of executors -/

variable {dev : Device σ ε} {observer : Observer ω} {m m' : Machine} {s : σ}

/-- What came of an instruction, as the executor of it tells. -/
def Answer.handled (m : Machine) (a : Answer σ ε (Option Machine)) : Handled σ ε ω where
  machine := match a.value with
    | .ok (some m') => m'
    | _ => m
  device := a.state
  notes := a.notes
  value := (a.value.map Option.isSome).mapError .device

namespace Machine

/-- An address passes the check of addresses. -/
theorem toAddress_toInt (a : Address) : (Argument.whole (Address.toInt a)).toAddress = .ok a := by
  simp [Argument.toAddress, Argument.address?]

/-- The content of the accumulator passes the check of values. -/
theorem toCell_content (m : Machine) :
    (Argument.whole (Executor.content m)).toCell = .ok m.registers.cell := by
  have hcontent : Executor.content m = Cell.toInt m.registers.cell := rfl
  simp [Argument.toCell, Argument.cell?, hcontent]

/-- Every instruction but a halt has an executor, and all executors but that of a store do what the
instruction does. -/
theorem exists_executor (dev : Device σ ε) (observer : Observer ω) {i : Instruction}
    (hhalt : i ≠ .halt) (hstore : ∀ a, i ≠ .store a) :
    ∃ executor, Executor.ofWord? dev observer i.mnemonic = some executor ∧
      ∀ m s, executor i.argument m s = (m.perform dev s i).handled m := by
  have hread (m : Machine) (a : Address) :
      m.memory.readAt (.whole (Address.toInt a)) = .ok (m.memory.read a) := by
    rw [Memory.readAt, toAddress_toInt]
    rfl
  cases i with
  | halt => exact absurd rfl hhalt
  | store a => exact absurd rfl (hstore a)
  | add a =>
    refine ⟨_, rfl, fun m s => ?_⟩
    simp only [Instruction.argument, Instruction.operand?, Executor.compute, hread]
    rfl
  | subtract a =>
    refine ⟨_, rfl, fun m s => ?_⟩
    simp only [Instruction.argument, Instruction.operand?, Executor.compute, hread]
    rfl
  | load a =>
    refine ⟨_, rfl, fun m s => ?_⟩
    simp only [Instruction.argument, Instruction.operand?, Executor.compute, hread]
    rfl
  | branch a | branchZero a | branchPositive a | extend => exact ⟨_, rfl, fun m s => rfl⟩
  | readNumber =>
    refine ⟨_, rfl, fun m s => ?_⟩
    simp only [Executor.request, perform, ← Cell.toInt_clamp]
    cases (dev.requestNumber s).value with
    | error e => rfl
    | ok x => cases x <;> rfl
  | readCharacter =>
    refine ⟨_, rfl, fun m s => ?_⟩
    simp only [Executor.request, perform, Answer.map, Answer.handled]
    cases (dev.requestCharacter s).value with
    | error e => rfl
    | ok x =>
      cases x with
      | none => rfl
      | some n =>
        simp only [List.append_nil]
        rfl
  | writeNumber =>
    refine ⟨_, rfl, fun m s => ?_⟩
    have hcontent : Executor.content m = Cell.toInt m.registers.cell := rfl
    simp only [Executor.emit, perform, Answer.map, Answer.handled, hcontent, id]
    cases (dev.emitNumber (Cell.toInt m.registers.cell) s).value <;> rfl
  | writeCharacter =>
    refine ⟨_, rfl, fun m s => ?_⟩
    have hcontent : Executor.content m = Cell.toInt m.registers.cell := rfl
    simp only [Executor.emit, perform, Answer.map, Answer.handled, hcontent]
    cases (dev.emitCharacter (Accumulator.lowByte (Cell.toInt m.registers.cell)) s).value <;> rfl

/-- The executor of a store writes a cell to an address, if the observer lets it. -/
theorem store_executor (observer : Observer ω) (m : Machine) (s : σ) (b : Address) :
    (Executor.store observer (Instruction.store b).argument m s : Handled σ ε ω) =
      match observer b (m.memory.read b) m.registers.cell m.memory with
      | (memory, .error e) => ⟨{ m with memory := memory }, s, [], .error (.observer e)⟩
      | (memory, .ok ()) =>
        ⟨{ m with memory := memory.write b m.registers.cell }, s, [], .ok true⟩ := by
  simp only [Instruction.argument, Instruction.operand?, Executor.store, Memory.writeObserved,
    toAddress_toInt, toCell_content]
  obtain ⟨memory, result⟩ := observer b (m.memory.read b) m.registers.cell m.memory
  cases result <;> rfl

/-! ## 5. The checks of a step -/

/-- The step with checks goes on where the step goes on. -/
theorem Fetches.checkedNext_eq {a : Address} {f : Fetched} (hf : m.Fetches a f)
    (hpc : m.registers.pc = Address.toInt a) :
    m.checkedNext f.instruction = some ((m.next f : Nat) : Int) := by
  have hafter : ((f.address.val + 1 : Nat) : Int) = m.registers.pc + 1 := by
    rw [hf.address, hpc]
    rfl
  unfold checkedNext next
  cases f.instruction with
  | branch b => rfl
  | branchZero b =>
    by_cases hacc : m.registers.acc = 0
    · simp [hacc, Instruction.mnemonic, Instruction.operand?, Address.toInt]
    · simp [hacc, Instruction.mnemonic, hafter]
  | branchPositive b =>
    cases hflag : m.registers.negative with
    | true => simp [Instruction.mnemonic, hafter]
    | false => simp [Instruction.mnemonic, Instruction.operand?, Address.toInt]
  | _ =>
    rw [hafter]
    rfl

/-- The step with checks halts where the step halts. -/
theorem Fetches.checkedHalts_iff {a : Address} {f : Fetched} (hf : m.Fetches a f)
    (hpc : m.registers.pc = Address.toInt a) :
    f.instruction.mnemonic = .hlt ∨ f.instruction.mnemonic = .ext ∧ m.registers.pc ≠ 0 ↔
      f.halts = true := by
  have hzero : m.registers.pc ≠ 0 ↔ f.address ≠ 0 := by
    rw [hf.address, hpc]
    exact not_congr (@Address.toInt_inj a 0)
  unfold Fetched.halts
  rw [hzero, Bool.or_eq_true, Bool.and_eq_true, bne_iff_ne, beq_iff_eq, beq_iff_eq]
  cases f.instruction <;> simp [Instruction.mnemonic]

/-- What a step with checks can do: what the step does, a store after its observer, or nothing but
what the observer does that refuses a store. -/
inductive CheckedCase (dev : Device σ ε) (observer : Observer ω) (m : Machine) (s : σ) :
    CheckedTurn σ ε ω → Prop
  | plain {t : CheckedTurn σ ε ω} (h : t = (m.step dev s).checked) :
      CheckedCase dev observer m s t
  | stored {b : Address} {f : Fetched} {memory : Memory} (hfinal : m.final = none)
      (hn : m.next f < 100)
      (hobserver : observer b (m.memory.read b) m.registers.cell m.memory = (memory, .ok ()))
      (hstep : m.step dev s =
        ⟨({ m with memory := m.memory.write b m.registers.cell }).advance f (m.next f), s, [],
          .ok ⟨.continued, f.address, f.cell⟩⟩) :
      CheckedCase dev observer m s
        ⟨({ m with memory := memory.write b m.registers.cell }).advance f (m.next f), s, [],
          .ok ⟨.continued, f.address, f.cell⟩⟩
  | refused {b : Address} {memory : Memory} {e : ω}
      (hobserver : observer b (m.memory.read b) m.registers.cell m.memory = (memory, .error e)) :
      CheckedCase dev observer m s
        ⟨{ m with memory := memory }, s, [], .error (.observer e)⟩

/-- A step with checks that executes an instruction. -/
theorem checkedCase_execute (dev : Device σ ε) (observer : Observer ω) (s : σ) {a : Address}
    {f : Fetched} (hf : m.Fetches a f) (hpc : m.registers.pc = Address.toInt a)
    (hfinal : m.final = none) :
    CheckedCase dev observer m s (m.checkedExecute dev observer s f) := by
  have hstep := step_eq_execute dev s hfinal hpc hf
  unfold checkedExecute
  rw [hf.checkedNext_eq hpc]
  split
  · next hh =>
    refine .plain ?_
    rw [hstep, execute, if_pos ((hf.checkedHalts_iff hpc).mp hh)]
    rfl
  · next hh =>
    have hgoes : ¬ f.halts = true := fun h => hh ((hf.checkedHalts_iff hpc).mpr h)
    rw [execute, if_neg hgoes] at hstep
    dsimp only
    split
    · next hn =>
      refine .plain ?_
      rw [hstep, if_pos (by omega)]
      rfl
    · next hn =>
      rw [if_neg (by omega)] at hstep
      by_cases hstore : ∃ b, f.instruction = .store b
      · obtain ⟨b, hb⟩ := hstore
        rw [hb] at hstep ⊢
        simp only [Instruction.mnemonic, Executor.ofWord?, store_executor]
        rcases hobserver : observer b (m.memory.read b) m.registers.cell m.memory with
          ⟨memory, e | u⟩
        · exact .refused hobserver
        · exact .stored hfinal (by omega) hobserver hstep
      · have hhalt := ne_halt_of_halts (Bool.eq_false_iff.mpr hgoes)
        obtain ⟨executor, hexecutor, hdoes⟩ := exists_executor dev observer hhalt
          fun b hb => hstore ⟨b, hb⟩
        refine .plain ?_
        simp only [hexecutor, hdoes, hstep]
        rcases m.perform dev s f.instruction with ⟨s', notes, e | m' | _⟩ <;> rfl

/-- **What a step with checks can do.** -/
theorem checkedCase_checkedStep (dev : Device σ ε) (observer : Observer ω) (m : Machine) (s : σ) :
    CheckedCase dev observer m s (m.checkedStep dev observer s) := by
  unfold checkedStep checkedFetch
  cases hfinal : m.final with
  | some r =>
    refine .plain ?_
    rw [step_of_final dev s hfinal]
    rfl
  | none =>
    simp only [Argument.toAddress, Argument.address?]
    cases haddress : Address.ofInt? m.registers.pc with
    | none =>
      refine .plain ?_
      simp only [step, fetch, hfinal, haddress]
      rfl
    | some a =>
      have hpc : m.registers.pc = Address.toInt a := (Address.toInt_of_ofInt? haddress).symm
      cases hi : Instruction.ofCell m.extended (m.memory.read a) with
      | none =>
        refine .plain ?_
        rw [step_eq_finish dev s hfinal hpc hi]
        simp only [hi]
        rfl
      | some i =>
        have hf : m.Fetches a ⟨a, m.memory.read a, i⟩ := ⟨rfl, rfl, hi⟩
        simp only [hi]
        exact checkedCase_execute dev observer s hf hpc hfinal

/-! ## 6. What follows -/

/-- **With an observer that keeps still, it is the step without checks.** -/
theorem checkedStep_silent (dev : Device σ ε) (m : Machine) (s : σ) :
    m.checkedStep dev (Observer.silent : Observer ω) s = (m.step dev s).checked := by
  have hcase := checkedCase_checkedStep dev (Observer.silent : Observer ω) m s
  generalize m.checkedStep dev (Observer.silent : Observer ω) s = t at hcase ⊢
  cases hcase with
  | plain h => exact h
  | stored _ _ hobserver hstep =>
    cases hobserver
    rw [hstep]
    rfl
  | refused hobserver => cases hobserver

/-- **A step with checks keeps a machine sound, whatever the observer does.** -/
theorem Sound.checkedStep (h : m.Sound) (dev : Device σ ε) (observer : Observer ω) (s : σ) :
    (m.checkedStep dev observer s).machine.Sound := by
  have hcase := checkedCase_checkedStep dev observer m s
  generalize m.checkedStep dev observer s = t at hcase ⊢
  cases hcase with
  | plain heq =>
    rw [heq]
    exact h.step dev s
  | @stored b f memory hfinal hn _ _ =>
    have hstored : ({ m with memory := memory.write b m.registers.cell } : Machine).Sound :=
      h.of_eq rfl rfl
    exact hstored.advance hfinal f hn
  | refused _ => exact h.of_eq rfl rfl

/-- **What a step with checks asks is proper.** -/
theorem proper_checkedStep (m : Machine) (dev : Device σ ε) (observer : Observer ω)
    {x : σ × List Call} (h : ∀ c ∈ x.2, c.Proper) :
    ∀ c ∈ (m.checkedStep dev.recorded observer x).device.2, c.Proper := by
  have hcase := checkedCase_checkedStep dev.recorded observer m x
  generalize m.checkedStep dev.recorded observer x = t at hcase ⊢
  cases hcase with
  | plain heq =>
    rw [heq]
    exact proper_step m dev h
  | stored _ _ _ _ => exact h
  | refused _ => exact h

/-- **Only failures of the device and of the observer leave a step with checks of a sound
machine.** -/
theorem Sound.escape_of_checkedStep (h : m.Sound) {x : Escape ε ω}
    (hresult : (m.checkedStep dev observer s).result = .error x) :
    (∃ e, x = .device e ∧ dev.Raises s e) ∨
      ∃ e a old new memory, x = .observer e ∧ (observer a old new memory).2 = .error e := by
  have hcase := checkedCase_checkedStep dev observer m s
  generalize m.checkedStep dev observer s = t at hcase hresult
  cases hcase with
  | plain heq =>
    rw [heq] at hresult
    cases hstep : (m.step dev s).result with
    | ok r =>
      simp only [Turn.checked, hstep] at hresult
      cases hresult
    | error f =>
      obtain ⟨e, rfl, hraises⟩ := h.raises_of_step hstep
      simp only [Turn.checked, hstep] at hresult
      cases hresult
      exact .inl ⟨e, rfl, hraises⟩
  | stored _ _ _ _ => cases hresult
  | @refused b memory e hobserver =>
    cases hresult
    exact .inr ⟨e, b, _, _, _, rfl, congrArg Prod.snd hobserver⟩

end Machine
end MinionComputer
