/-
# The machine does what its digits say

Every machine has a picture on digits, and a step of the machine is a step of its picture: the same
result, the same device after it, and the same calls to the device in the same order.  So is any
number of steps, from the beginning of a run on any memory and with any device.  A step never
finds the program counter out of range.

* `Machine.toNumeric`: the picture;
* `Digits`, `digits_ofCell`: the meaning of a cell by its digits;
* `Machine.Sound.step_matches`: one step;
* `Machine.start_steps_matches`: any number of steps from the beginning of a run.
-/
import MinionComputer.Proofs.Machine.Numeric
import MinionComputer.Proofs.Machine.Recorded

namespace MinionComputer

variable {σ ε τ : Type} {dev : Device σ ε} {m m' : Machine} {s : σ} {record : List Call}

/-! ## 1. The picture of a machine -/

/-- The cells as numbers. -/
def Memory.numbers (m : Memory) (n : Int) : Int :=
  match Address.ofInt? n with
  | some a => Cell.toInt (m.read a)
  | none => 0

/-- A result in numbers. -/
def StepResult.toNumeric (r : StepResult) : NumericResult :=
  ⟨r.outcome, Address.toInt r.address, Cell.toInt r.cell⟩

/-- The machine on digits. -/
def Machine.toNumeric (m : Machine) : Numeric where
  acc := m.registers.acc
  pc := m.registers.pc
  negative := m.registers.negative
  executed := m.registers.steps
  cells := m.memory.numbers
  extended := m.extended
  final := m.final.map StepResult.toNumeric

@[simp] theorem Memory.numbers_toInt (m : Memory) (a : Address) :
    m.numbers (Address.toInt a) = Cell.toInt (m.read a) := by
  simp [numbers]

/-- The picture of a write. -/
theorem Memory.numbers_write (m : Memory) (a : Address) (c : Cell) :
    (m.write a c).numbers = fun n => if n = Address.toInt a then Cell.toInt c else m.numbers n := by
  funext n
  split
  · next h =>
    rw [h, numbers_toInt, read_write_self]
  · next h =>
    unfold numbers
    cases hb : Address.ofInt? n with
    | none => rfl
    | some b =>
      have hne : a ≠ b := by
        rintro rfl
        exact h (Address.toInt_of_ofInt? hb).symm
      simp only [read_write_of_ne m c hne]

/-- The picture of a new machine is a new one. -/
theorem Machine.toNumeric_start (memory : Memory) :
    (Machine.start memory).toNumeric = Numeric.start memory.numbers := by
  have hzero : memory.numbers 0 = Cell.toInt (memory.read 0) := memory.numbers_toInt 0
  have hmode : latches memory = decide (memory.numbers 0 = 10) := by
    rw [hzero, latches, Bool.eq_iff_iff, beq_iff_eq, decide_eq_true_iff]
    exact (@Cell.toInt_inj _ 10).symm
  rw [Numeric.start, ← hmode]
  rfl

/-! ## 2. The digits of a meaning -/

/-- What is known of the digits of a cell that has this meaning, or none. -/
inductive Digits (extended : Bool) (c : Int) : Option Instruction → Prop
  | halt (h : c / 100 = 0) (hmark : ¬ (extended = true ∧ c = 10)) : Digits extended c (some .halt)
  | extend (hmode : extended = true) (hc : c = 10) : Digits extended c (some .extend)
  | add {a : Address} (h : c / 100 = 1) (ha : c % 100 = Address.toInt a) :
      Digits extended c (some (.add a))
  | subtract {a : Address} (h : c / 100 = 2) (ha : c % 100 = Address.toInt a) :
      Digits extended c (some (.subtract a))
  | store {a : Address} (h : c / 100 = 3) (ha : c % 100 = Address.toInt a) :
      Digits extended c (some (.store a))
  | load {a : Address} (h : c / 100 = 5) (ha : c % 100 = Address.toInt a) :
      Digits extended c (some (.load a))
  | branch {a : Address} (h : c / 100 = 6) (ha : c % 100 = Address.toInt a) :
      Digits extended c (some (.branch a))
  | branchZero {a : Address} (h : c / 100 = 7) (ha : c % 100 = Address.toInt a) :
      Digits extended c (some (.branchZero a))
  | branchPositive {a : Address} (h : c / 100 = 8) (ha : c % 100 = Address.toInt a) :
      Digits extended c (some (.branchPositive a))
  | readNumber (hc : c = 901) : Digits extended c (some .readNumber)
  | writeNumber (hc : c = 902) : Digits extended c (some .writeNumber)
  | readCharacter (hmode : extended = true) (hc : c = 911) :
      Digits extended c (some .readCharacter)
  | writeCharacter (hmode : extended = true) (hc : c = 912) :
      Digits extended c (some .writeCharacter)
  | illegal (h : c / 100 = 4 ∨
      c / 100 = 9 ∧ c ≠ 901 ∧ c ≠ 902 ∧ ¬ (extended = true ∧ (c = 911 ∨ c = 912))) :
      Digits extended c none

/-- **The meaning of a cell is read off its digits.** -/
theorem digits_ofCell (extended : Bool) (c : Cell) :
    Digits extended (Cell.toInt c) (Instruction.ofCell extended c) := by
  have hbounds := Cell.toInt_bounds c
  have hoperand : Cell.toInt c % 100 = Address.toInt (Fin.ofNat 100 c.val) := rfl
  have hhundreds {k : Nat} (h : c.val / 100 = k) : Cell.toInt c / 100 = (k : Int) :=
    congrArg Int.ofNat h
  have hcode (k : Cell) : c = k ↔ Cell.toInt c = Cell.toInt k := Cell.toInt_inj.symm
  simp only [Instruction.ofCell, hcode]
  split
  · next h =>
    split
    · next hmark => exact .extend hmark.1 hmark.2
    · next hmark => exact .halt (hhundreds h) hmark
  · next h => exact .add (hhundreds h) hoperand
  · next h => exact .subtract (hhundreds h) hoperand
  · next h => exact .store (hhundreds h) hoperand
  · next h => exact .load (hhundreds h) hoperand
  · next h => exact .branch (hhundreds h) hoperand
  · next h => exact .branchZero (hhundreds h) hoperand
  · next h => exact .branchPositive (hhundreds h) hoperand
  · next h =>
    split
    · next hc => exact .readNumber hc
    · next hread =>
      split
      · next hc => exact .writeNumber hc
      · next hwrite =>
        split
        · next hc => exact .readCharacter hc.1 hc.2
        · next hreadCharacter =>
          split
          · next hc => exact .writeCharacter hc.1 hc.2
          · next hwriteCharacter =>
            refine .illegal (.inr ⟨hhundreds h, hread, hwrite, ?_⟩)
            rintro ⟨hmode, hc | hc⟩
            · exact hreadCharacter ⟨hmode, hc⟩
            · exact hwriteCharacter ⟨hmode, hc⟩
  · next h0 h1 h2 h3 h5 h6 h7 h8 h9 =>
    -- Four is the only hundreds digit that is left.
    have hfour : c.val / 100 = 4 := by
      simp only [imp_false] at h0 h1 h2 h3 h5 h6 h7 h8 h9
      omega
    exact .illegal (.inl (hhundreds hfour))

/-! ## 3. What an instruction does -/

/-- The last digits with the sign are what folding a number into the range gives. -/
theorem lastDigits_eq_wrap (n : Int) : Numeric.lastDigits n = Accumulator.wrap n := by
  have habs : ((n.natAbs % 1000 : Nat) : Int) = (n.natAbs : Int) % 1000 := rfl
  unfold Numeric.lastDigits Accumulator.wrap
  rw [habs]
  rcases Int.lt_trichotomy n 0 with hn | rfl | hn
  · rw [Int.sign_eq_neg_one_of_neg hn]
    split
    · omega
    · split <;> omega
  · rfl
  · rw [Int.sign_eq_one_of_pos hn]
    split
    · omega
    · split <;> omega

namespace Machine

/-- What leaves the accumulator of a sound machine is its content without the sign. -/
theorem Sound.magnitude (h : m.Sound) :
    m.toNumeric.magnitude = Cell.toInt m.registers.cell := by
  have hacc := h.acc
  show (m.registers.acc.natAbs : Int) = ((m.registers.acc.natAbs % 1000 : Nat) : Int)
  omega

/-- The cell in the picture. -/
theorem cell_toNumeric {a : Address} (hpc : m.registers.pc = Address.toInt a) :
    m.toNumeric.cell = Cell.toInt (m.memory.read a) := by
  show m.memory.numbers m.registers.pc = _
  rw [hpc, Memory.numbers_toInt]

/-- Branches only choose the next address. -/
theorem perform_of_branch {d : Numeric} (h : 6 ≤ d.hundreds ∧ d.hundreds ≤ 8) (dev : Device σ ε)
    (s : σ) : d.perform dev s = ([], s, .ok (some d)) := by
  have hcell : 600 ≤ d.cell ∧ d.cell ≤ 899 := by
    unfold Numeric.hundreds at h
    omega
  have hne (k : Int) (hk : k < 6) : d.hundreds ≠ k := by omega
  have hcode (k : Int) (hk : 899 < k) : d.cell ≠ k := by omega
  unfold Numeric.perform
  rw [if_neg (hne 1 (by decide)), if_neg (hne 2 (by decide)), if_neg (hne 3 (by decide)),
    if_neg (hne 5 (by decide)), if_neg (hcode 901 (by decide)), if_neg (hcode 902 (by decide)),
    if_neg (hcode 911 (by decide)), if_neg (hcode 912 (by decide))]

/-- The picture of what came of an instruction, when its calls are put behind a record. -/
structure AnswerMatches (record : List Call) (a : Answer (σ × List Call) ε (Option Machine))
    (d : List Call × σ × Except ε (Option Numeric)) : Prop where
  state : a.state = (d.2.1, record ++ d.1)
  value : a.value.map (fun x => x.map toNumeric) = d.2.2

/-- An instruction that does not use the device. -/
theorem answerMatches_quiet {d : Numeric} (h : m'.toNumeric = d) :
    AnswerMatches record (.quiet (s, record) (.ok (some m')) : Answer (σ × List Call) ε _)
      ([], s, .ok (some d)) where
  state := by
    rw [List.append_nil]
    rfl
  value := h ▸ rfl

/-- An instruction that asks the device something. -/
theorem answerMatches_noted {α : Type} (a : Answer σ ε α) (c : Call) {f : α → Option Machine}
    {g : α → Option Numeric} (h : ∀ x, (f x).map toNumeric = g x) :
    AnswerMatches record ((a.noted record c).map f) ([c], a.state, a.value.map g) where
  state := rfl
  value := by
    show (a.value.map f).map _ = a.value.map g
    cases a.value with
    | error e => rfl
    | ok x => exact congrArg Except.ok (h x)

/-- **An instruction does to a machine what its digits say.** -/
theorem Sound.perform_matches (h : m.Sound) (dev : Device σ ε) (s : σ) (record : List Call)
    {i : Instruction} (hdigits : Digits m.extended m.toNumeric.cell (some i)) (hhalt : i ≠ .halt) :
    AnswerMatches record (m.perform dev.recorded (s, record) i) (m.toNumeric.perform dev s) := by
  have hread (a : Address) : m.toNumeric.cells (Address.toInt a) = Cell.toInt (m.memory.read a) :=
    m.memory.numbers_toInt a
  have hmagnitude := h.magnitude
  have hquiet (hc : 6 ≤ m.toNumeric.cell / 100 ∧ m.toNumeric.cell / 100 ≤ 8) :
      AnswerMatches record (.quiet (s, record) (.ok (some m))) (m.toNumeric.perform dev s) := by
    rw [perform_of_branch hc]
    exact answerMatches_quiet rfl
  unfold Numeric.perform Numeric.hundreds Numeric.operand
  cases hdigits with
  | halt hc hmark => exact absurd rfl hhalt
  | extend hmode hc =>
    simp only [hc]
    exact answerMatches_quiet rfl
  | add hc ha =>
    simp only [hc, ha, hread, if_pos, lastDigits_eq_wrap, Bool.decide_or]
    exact answerMatches_quiet rfl
  | subtract hc ha =>
    simp only [hc, ha, hread, Int.reduceEq, if_false, if_true, lastDigits_eq_wrap]
    exact answerMatches_quiet rfl
  | store hc ha =>
    simp only [hc, ha, hmagnitude, Int.reduceEq, if_false, if_true]
    refine answerMatches_quiet ?_
    simp only [toNumeric, Memory.numbers_write, Numeric.setCell]
  | load hc ha =>
    simp only [hc, ha, hread, Int.reduceEq, if_false, if_true]
    exact answerMatches_quiet rfl
  | branch hc ha => exact hquiet (by omega)
  | branchZero hc ha => exact hquiet (by omega)
  | branchPositive hc ha => exact hquiet (by omega)
  | readNumber hc =>
    simp only [hc, Int.reduceEq, Int.reduceDiv, if_false, if_true, ← Cell.toInt_clamp, perform,
      Device.recorded, Answer.noted]
    cases (dev.requestNumber s).value with
    | error e => exact ⟨rfl, rfl⟩
    | ok x => cases x <;> exact ⟨rfl, rfl⟩
  | writeNumber hc =>
    simp only [hc, hmagnitude, Int.reduceEq, Int.reduceDiv, if_false, if_true]
    exact answerMatches_noted _ _ fun _ => rfl
  | readCharacter hmode hc =>
    simp only [hc, Int.reduceEq, Int.reduceDiv, if_false, if_true]
    refine answerMatches_noted _ _ fun x => ?_
    cases x <;> rfl
  | writeCharacter hmode hc =>
    simp only [hc, hmagnitude, Int.reduceEq, Int.reduceDiv, if_false, if_true]
    exact answerMatches_noted _ _ fun _ => rfl

/-! ## 4. One step -/

/-- The digits of the cell that was fetched. -/
theorem Fetches.digits {a : Address} {f : Fetched} (hf : m.Fetches a f)
    (hpc : m.registers.pc = Address.toInt a) :
    Digits m.extended m.toNumeric.cell (some f.instruction) := by
  rw [cell_toNumeric hpc, ← hf.meaning]
  exact digits_ofCell _ _

/-- A cell with a meaning is not illegal. -/
theorem not_illegal_of_digits {d : Numeric} {i : Instruction}
    (h : Digits d.extended d.cell (some i)) : ¬ d.Illegal := by
  unfold Numeric.Illegal Numeric.hundreds
  rintro (hfour | ⟨hnine, hread, hwrite, hextended⟩)
  · cases h <;> omega
  · cases h with
    | readCharacter hmode hc => exact hextended ⟨hmode, .inl hc⟩
    | writeCharacter hmode hc => exact hextended ⟨hmode, .inr hc⟩
    | _ => omega

/-- A cell without a meaning is illegal. -/
theorem illegal_of_ofCell {a : Address} (hpc : m.registers.pc = Address.toInt a)
    (hi : Instruction.ofCell m.extended (m.memory.read a) = none) : m.toNumeric.Illegal := by
  have hdigits := digits_ofCell m.extended (m.memory.read a)
  rw [hi, ← cell_toNumeric hpc] at hdigits
  cases hdigits with
  | illegal h => exact h

/-- The picture halts where the machine does. -/
theorem Fetches.halts_iff {a : Address} {f : Fetched} (hf : m.Fetches a f)
    (hpc : m.registers.pc = Address.toInt a) : f.halts = true ↔ m.toNumeric.Halts := by
  have hdigits := hf.digits hpc
  have hzero : f.address = 0 ↔ m.toNumeric.pc = 0 := by
    show f.address = 0 ↔ m.registers.pc = 0
    rw [hf.address, hpc]
    exact (@Address.toInt_inj a 0).symm
  unfold Fetched.halts Numeric.Halts Numeric.hundreds
  rw [Bool.or_eq_true, Bool.and_eq_true, bne_iff_ne, beq_iff_eq, beq_iff_eq, Ne, hzero]
  generalize f.instruction = i at hdigits
  cases hdigits with
  | halt hc hmark => exact iff_of_true (.inl rfl) ⟨hc, fun h => hmark ⟨h.1, h.2.1⟩⟩
  | extend hmode hc =>
    constructor
    · rintro (h | ⟨_, haway⟩)
      · cases h
      · exact ⟨by omega, fun h => haway h.2.2⟩
    · rintro ⟨_, h⟩
      exact .inr ⟨rfl, fun hstart => h ⟨hmode, hc, hstart⟩⟩
  | _ => exact iff_of_false (by simp) fun h => absurd h.1 (by omega)

theorem Fetches.not_halts {a : Address} {f : Fetched} (hf : m.Fetches a f)
    (hpc : m.registers.pc = Address.toInt a) (hh : f.halts = false) : ¬ m.toNumeric.Halts := by
  rw [← hf.halts_iff hpc, hh]
  exact Bool.false_ne_true

/-- The picture goes on where the machine does. -/
theorem Fetches.next_eq {a : Address} {f : Fetched} (hf : m.Fetches a f)
    (hpc : m.registers.pc = Address.toInt a) : ((m.next f : Nat) : Int) = m.toNumeric.next := by
  have hdigits := hf.digits hpc
  have hafter : ((f.address.val + 1 : Nat) : Int) = m.toNumeric.pc + 1 := by
    show _ = m.registers.pc + 1
    rw [hf.address, hpc]
    rfl
  unfold next Numeric.next Numeric.hundreds Numeric.operand
  generalize f.instruction = i at hdigits
  cases hdigits with
  | branch hc ha =>
    rw [if_pos (.inl hc), ha]
    rfl
  | branchZero hc ha =>
    by_cases hacc : m.registers.acc = 0
    · rw [if_pos (.inr (.inl ⟨hc, hacc⟩)), ha]
      simp only [hacc, if_true]
      rfl
    · rw [if_neg]
      · simp only [hacc, if_false]
        exact hafter
      · rintro (h | h | h)
        · omega
        · exact hacc h.2
        · omega
  | branchPositive hc ha =>
    cases hflag : m.registers.negative with
    | true =>
      rw [if_neg]
      · exact hafter
      · rintro (h | h | h)
        · omega
        · omega
        · exact Bool.noConfusion (hflag.symm.trans h.2)
    | false =>
      rw [if_pos (.inr (.inr ⟨hc, hflag⟩)), ha]
      rfl
  | _ =>
    rw [if_neg]
    · exact hafter
    · omega

/-- There is no address after the last one. -/
theorem next_le (m : Machine) (f : Fetched) : m.next f ≤ 100 := by
  have hafter : f.address.val + 1 ≤ 100 := f.address.isLt
  unfold next
  split
  · omega
  · split <;> omega
  · split <;> omega
  · exact hafter

/-- The picture executes the instruction that the machine executes. -/
theorem Fetches.toNumeric_step_eq {a : Address} {f : Fetched} (hf : m.Fetches a f)
    (hpc : m.registers.pc = Address.toInt a) (hfinal : m.final = none) (hh : f.halts = false)
    (hn : m.next f < 100) : m.toNumeric.step dev s = m.toNumeric.execute dev s := by
  have hpicture : m.toNumeric.final = none := congrArg (Option.map _) hfinal
  have hnext : m.toNumeric.next ≠ 100 := by
    rw [← hf.next_eq hpc]
    omega
  simp only [Numeric.step, hpicture]
  rw [if_neg (not_illegal_of_digits (hf.digits hpc)), if_neg (hf.not_halts hpc hh),
    if_neg hnext]

/-- A step of a machine and a step of a picture are the same; `device` is the device after it. -/
structure TurnMatches (device : τ) (t : Turn τ ε) (u : NumericTurn σ ε) : Prop where
  machine : t.machine.toNumeric = u.machine
  device : t.device = device
  result : t.result.map StepResult.toNumeric = u.result.mapError StepFault.device

/-- Traces are not in the picture. -/
theorem toNumeric_traced (m : Machine) (a : Address) (c : Cell) (i : Instruction) :
    (m.traced a c i).toNumeric = m.toNumeric := by
  unfold traced
  split <;> rfl

/-- Going on to the next address in the picture. -/
theorem toNumeric_advance (m : Machine) (f : Fetched) (n : Nat) :
    (m.advance f n).toNumeric = m.toNumeric.advance n := by
  unfold advance
  rw [toNumeric_traced]
  rfl

/-- The end of a run in the picture. -/
theorem turnMatches_finish {d : Numeric} {o : Outcome} {r : StepResult}
    (hm : m.toNumeric = d) (hr : r.toNumeric = d.here o) (notes : List Note) (s : σ)
    (record : List Call) :
    TurnMatches ((d.finish s o : NumericTurn σ ε).device,
        record ++ (d.finish s o : NumericTurn σ ε).calls)
      (m.finish (s, record) notes r) (d.finish s o : NumericTurn σ ε) where
  machine := by
    rw [Numeric.finish, ← hr, ← hm]
    rfl
  device := by
    rw [Numeric.finish, List.append_nil]
    rfl
  result := by
    rw [Numeric.finish, ← hr]
    rfl

/-- A result at the program counter in the picture. -/
theorem toNumeric_here {a : Address} (hpc : m.registers.pc = Address.toInt a) (o : Outcome) :
    (⟨o, a, m.memory.read a⟩ : StepResult).toNumeric = m.toNumeric.here o := by
  unfold Numeric.here
  rw [cell_toNumeric hpc]
  exact congrArg (NumericResult.mk o · _) hpc.symm

/-- What a machine does with an instruction is the step of its picture. -/
theorem Sound.execute_matches (h : m.Sound) (dev : Device σ ε) (s : σ) (record : List Call)
    {a : Address} {f : Fetched} (hfinal : m.final = none) (hpc : m.registers.pc = Address.toInt a)
    (hf : m.Fetches a f) :
    TurnMatches ((m.toNumeric.step dev s).device, record ++ (m.toNumeric.step dev s).calls)
      (m.execute dev.recorded (s, record) f) (m.toNumeric.step dev s) := by
  have hpicture : m.toNumeric.final = none := congrArg (Option.map _) hfinal
  have hlegal : ¬ m.toNumeric.Illegal := not_illegal_of_digits (hf.digits hpc)
  have hhere (o : Outcome) :
      (⟨o, f.address, f.cell⟩ : StepResult).toNumeric = m.toNumeric.here o := by
    rw [hf.address, hf.cell]
    exact toNumeric_here hpc o
  unfold execute
  split
  · next hh =>
    simp only [Numeric.step, hpicture]
    rw [if_neg hlegal, if_pos ((hf.halts_iff hpc).mp hh)]
    exact turnMatches_finish (toNumeric_traced _ _ _ _) (hhere _) _ _ _
  · next hh =>
    have hgoes : f.halts = false := Bool.eq_false_iff.mpr hh
    split
    · next hn =>
      have hnext : m.toNumeric.next = 100 := by
        have := m.next_le f
        rw [← hf.next_eq hpc]
        omega
      simp only [Numeric.step, hpicture]
      rw [if_neg hlegal, if_neg (hf.not_halts hpc hgoes), if_pos hnext]
      exact turnMatches_finish rfl (hhere _) _ _ _
    · next hn =>
      obtain ⟨hstate, hvalue⟩ := h.perform_matches dev s record (hf.digits hpc)
        (ne_halt_of_halts hgoes)
      rw [hf.toNumeric_step_eq hpc hfinal hgoes (Nat.lt_of_not_le hn), Numeric.execute]
      simp only [← hvalue]
      generalize m.perform dev.recorded (s, record) f.instruction = x at hstate ⊢
      obtain ⟨s', notes, e | _ | m'⟩ := x
      · exact ⟨rfl, hstate, rfl⟩
      · exact ⟨rfl, hstate, congrArg Except.ok (hhere _)⟩
      · refine ⟨?_, hstate, congrArg Except.ok (hhere _)⟩
        dsimp only [Except.map, Option.map_some]
        rw [toNumeric_advance, hf.next_eq hpc]

/-- **A step of a machine is the step of its picture.** -/
theorem Sound.step_matches (h : m.Sound) (dev : Device σ ε) (s : σ) (record : List Call) :
    TurnMatches ((m.toNumeric.step dev s).device, record ++ (m.toNumeric.step dev s).calls)
      (m.step dev.recorded (s, record)) (m.toNumeric.step dev s) := by
  have hpicture : m.toNumeric.final = m.final.map StepResult.toNumeric := rfl
  cases hfinal : m.final with
  | some r =>
    rw [step_of_final dev.recorded _ hfinal]
    simp only [Numeric.step, hpicture, hfinal, Option.map_some, List.append_nil]
    exact ⟨rfl, rfl, rfl⟩
  | none =>
    obtain ⟨a, hpc⟩ := h.exists_address
    cases hi : Instruction.ofCell m.extended (m.memory.read a) with
    | none =>
      rw [step_eq_finish dev.recorded _ hfinal hpc hi]
      simp only [Numeric.step, hpicture, hfinal, Option.map_none]
      rw [if_pos (illegal_of_ofCell hpc hi)]
      exact turnMatches_finish rfl (toNumeric_here hpc _) _ _ _
    | some i =>
      have hf : m.Fetches a ⟨a, m.memory.read a, i⟩ := ⟨rfl, rfl, hi⟩
      rw [step_eq_execute dev.recorded _ hfinal hpc hf]
      exact h.execute_matches dev s record hfinal hpc hf

/-! ## 5. Any number of steps -/

/-- Some steps of a machine and of a picture are the same; `device` is the device after them. -/
structure RunMatches (device : τ)
    (t : Machine × τ × List Note × List (StepResult × Machine) × Option (StepFault ε))
    (d : NumericRun σ ε) : Prop where
  machine : t.1.toNumeric = d.machine
  device : t.2.1 = device
  results : t.2.2.2.1.map (fun x => (x.1.toNumeric, x.2.toNumeric)) = d.results
  fault : t.2.2.2.2 = d.fault.map .device

/-- Steps of a machine are the steps of its picture, and its calls come behind the record. -/
theorem Sound.steps_matches (dev : Device σ ε) : ∀ (n : Nat) {m : Machine} (_ : m.Sound) (s : σ)
    (record : List Call), RunMatches
      ((m.toNumeric.steps dev n s).device, record ++ (m.toNumeric.steps dev n s).calls)
      (m.steps dev.recorded n (s, record)) (m.toNumeric.steps dev n s)
  | 0, m, _, s, record => by
    refine ⟨rfl, ?_, rfl, rfl⟩
    rw [Numeric.steps, List.append_nil]
    rfl
  | n + 1, m, h, s, record => by
    obtain ⟨hm, hdevice, hresult⟩ := h.step_matches dev s record
    have hsound := h.step dev.recorded (s, record)
    rw [Machine.steps, Numeric.steps]
    generalize m.step dev.recorded (s, record) = t at *
    generalize m.toNumeric.step dev s = u at *
    obtain ⟨m', s', notes, result⟩ := t
    obtain ⟨d', s'', calls, result'⟩ := u
    cases result with
    | error e =>
      cases result' with
      | error e' =>
        cases hresult
        exact ⟨hm, hdevice, rfl, rfl⟩
      | ok r' => cases hresult
    | ok r =>
      cases result' with
      | error e' => cases hresult
      | ok r' =>
        cases hresult
        dsimp only at hm hdevice
        subst hm hdevice
        have hrest := steps_matches dev n hsound s'' (record ++ calls)
        rw [List.append_assoc] at hrest
        exact ⟨hrest.machine, hrest.device, congrArg _ hrest.results, hrest.fault⟩

/-- **From the beginning of a run on any memory, with any device, any number of steps of the machine
are the steps of its picture.**  They bring the same results, machines, device and fault, and ask
the device the same things in the same order. -/
theorem start_steps_matches (dev : Device σ ε) (memory : Memory) (s : σ) (n : Nat) :
    RunMatches ((Numeric.start memory.numbers).steps dev n s).device
        ((Machine.start memory).steps dev n s) ((Numeric.start memory.numbers).steps dev n s) ∧
      RunMatches (((Numeric.start memory.numbers).steps dev n s).device,
          ((Numeric.start memory.numbers).steps dev n s).calls)
        ((Machine.start memory).steps dev.recorded n (s, []))
        ((Numeric.start memory.numbers).steps dev n s) := by
  have hsound : (Machine.start memory).Sound := sound_of_fresh rfl rfl
  have hrecorded := hsound.steps_matches dev n s []
  rw [toNumeric_start, List.nil_append] at hrecorded
  obtain ⟨calls, _, hcalls⟩ := steps_recorded dev n (Machine.start memory) s []
  refine ⟨?_, hrecorded⟩
  obtain ⟨hm, hdevice, hresults, hfault⟩ := hrecorded
  rw [hcalls] at hm hdevice hresults hfault
  exact ⟨hm, congrArg Prod.fst hdevice, hresults, hfault⟩

end Machine
end MinionComputer
