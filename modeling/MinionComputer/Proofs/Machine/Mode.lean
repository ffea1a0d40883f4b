/-
# The mode of a run

The mode is read off cell 0 when a run begins and belongs to the run from then on.  Neither the
program nor anyone outside can change it by writing to that cell, so a program that makes itself
instructions for characters in a plain run does not get to use them, and the mark of extended mode
is passed over only where it stood when the mode was read.

* `Machine.Begins`: the machine is at the beginning of a run;
* `Asks.isNumeric`: a plain step asks for and writes numbers only;
* `Machine.Gated`: what a machine may do in its mode;
* `Act.gated_performAll`: it does no more, whatever was done to it since the run began.
-/
import MinionComputer.Proofs.Machine.History
import MinionComputer.Proofs.Machine.Refinement
import MinionComputer.Device.Scripted

namespace MinionComputer
namespace Machine

variable {σ ε ω : Type} {dev : Device σ ε} {m : Machine} {s : σ} {a : Address} {c : Cell}

/-! ## 1. Plain steps -/

/-- What a fetch hands over means in the mode what it says. -/
theorem meaning_of_fetch {memory : Memory} {pc : Int} {extended : Bool} {f : Fetched}
    (h : fetch memory pc extended = .ok f) :
    Instruction.ofCell extended f.cell = some f.instruction := by
  unfold fetch at h
  split at h
  · cases h
  · split at h
    · cases h
    · next hi =>
      cases h
      exact hi

/-- **A plain step asks for numbers and writes numbers**, and no characters. -/
theorem Asks.isNumeric {calls : List Call} (h : m.Asks calls) (hmode : m.extended = false) :
    ∀ call ∈ calls, call.isNumeric = true := by
  intro call hcall
  cases h with
  | nothing => cases hcall
  | @fetched f hf =>
    have hdigits := digits_ofCell m.extended f.cell
    rw [meaning_of_fetch hf, hmode] at hdigits
    generalize f.instruction = i at hdigits hcall
    cases hdigits with
    | readCharacter hextended _ => cases hextended
    | writeCharacter hextended _ => cases hextended
    | readNumber _ | writeNumber _ =>
      cases List.mem_singleton.mp hcall
      rfl
    | _ => cases hcall

/-! ## 2. The cells of extended mode -/

/-- The run is not over and comes next to the cell `c` at `a`. -/
structure ComesTo (m : Machine) (a : Address) (c : Cell) : Prop where
  final : m.final = none
  pc : m.registers.pc = Address.toInt a
  cell : m.memory.read a = c

/-- At a cell without meaning the run ends. -/
theorem ComesTo.illegal (h : m.ComesTo a c) (hi : Instruction.ofCell m.extended c = none)
    (dev : Device σ ε) (s : σ) :
    (m.step dev s).result = .ok ⟨.invalidInstruction, a, c⟩ := by
  obtain ⟨hfinal, hpc, rfl⟩ := h
  rw [step_eq_finish dev s hfinal hpc hi]
  rfl

/-- What is executed next. -/
theorem ComesTo.step_eq (h : m.ComesTo a c) {i : Instruction}
    (hi : Instruction.ofCell m.extended c = some i) (dev : Device σ ε) (s : σ) :
    m.step dev s = m.execute dev s ⟨a, c, i⟩ := by
  obtain ⟨hfinal, hpc, rfl⟩ := h
  exact step_eq_execute dev s hfinal hpc ⟨rfl, rfl, hi⟩

/-- At a cell that halts the run ends. -/
theorem ComesTo.halts (h : m.ComesTo a c) {i : Instruction}
    (hi : Instruction.ofCell m.extended c = some i)
    (hh : (⟨a, c, i⟩ : Fetched).halts = true) (dev : Device σ ε) (s : σ) :
    (m.step dev s).result = .ok ⟨.halted, a, c⟩ := by
  rw [h.step_eq hi, execute, if_pos hh]
  rfl

/-- In extended mode the mark at address 0 is passed over: nothing else is done and nothing is
asked. -/
theorem ComesTo.passes (h : m.ComesTo 0 10) (hmode : m.extended = true) (dev : Device σ ε)
    (s : σ) : m.step dev s =
      ⟨m.advance ⟨0, 10, .extend⟩ 1, s, [], .ok ⟨.continued, 0, 10⟩⟩ := by
  have hi : Instruction.ofCell m.extended 10 = some .extend := by
    rw [hmode]
    rfl
  rw [h.step_eq hi]
  rfl

/-! ## 3. The gate -/

/-- The machine is at the beginning of a run: it is new, or it was reset, or it was loaded. -/
inductive Begins : Machine → Prop
  | start (memory : Memory) : Begins (.start memory)
  | reset (m : Machine) : Begins m.reset
  | load (m : Machine) (memory : Memory) : Begins (m.load memory)

/-- At the beginning of a run the mode is read off cell 0. -/
theorem Begins.extended_eq (h : m.Begins) : m.extended = (m.memory.read 0 == 10) := by
  cases h <;> rfl

theorem Begins.sound (h : m.Begins) : m.Sound := by
  cases h <;> exact sound_of_fresh rfl rfl

/-- What a machine may do in a run that began with the mark in cell 0, or without; `record` holds
the calls to the device since then. -/
structure Gated (marked : Bool) (m : Machine) (record : List Call) : Prop where
  mode : m.extended = marked
  /-- If the run is not over, it comes next to some cell. -/
  comesTo : m.final = none → ∃ a c, m.ComesTo a c
  /-- No character has been asked for or written in a plain run. -/
  numeric : marked = false → ∀ call ∈ record, call.isNumeric = true
  /-- The instructions for characters end a plain run. -/
  illegal : marked = false → ∀ a c, m.ComesTo a c → c = 911 ∨ c = 912 →
    ∀ {τ δ : Type} (dev : Device τ δ) (s : τ),
      (m.step dev s).result = .ok ⟨.invalidInstruction, a, c⟩
  /-- The mark halts a plain run wherever it stands, and an extended run away from address 0. -/
  halts : ∀ a, m.ComesTo a 10 → marked = false ∨ a ≠ 0 →
    ∀ {τ δ : Type} (dev : Device τ δ) (s : τ), (m.step dev s).result = .ok ⟨.halted, a, 10⟩
  /-- An extended run passes over the mark at address 0. -/
  passes : marked = true → m.ComesTo 0 10 →
    ∀ {τ δ : Type} (dev : Device τ δ) (s : τ),
      m.step dev s = ⟨m.advance ⟨0, 10, .extend⟩ 1, s, [], .ok ⟨.continued, 0, 10⟩⟩

/-- **A sound machine whose calls fit its mode is gated.** -/
theorem Sound.gated (h : m.Sound) {record : List Call}
    (hrecord : m.extended = false → ∀ call ∈ record, call.isNumeric = true) :
    m.Gated m.extended record where
  mode := rfl
  comesTo := by
    intro hfinal
    obtain ⟨a, hpc⟩ := h.exists_address
    exact ⟨a, m.memory.read a, hfinal, hpc, rfl⟩
  numeric := hrecord
  illegal := by
    intro hmode a c hcome hc τ δ dev s
    refine hcome.illegal ?_ dev s
    rw [hmode]
    rcases hc with rfl | rfl
    · rfl
    · rfl
  halts := by
    intro a hcome hplace τ δ dev s
    cases hmode : m.extended with
    | false =>
      have hi : Instruction.ofCell m.extended 10 = some .halt := by
        rw [hmode]
        rfl
      exact hcome.halts hi rfl dev s
    | true =>
      have hi : Instruction.ofCell m.extended 10 = some .extend := by
        rw [hmode]
        rfl
      have haway : a ≠ 0 := by
        rcases hplace with hplain | haway
        · cases hmode.symm.trans hplain
        · exact haway
      exact hcome.halts hi (by simp [Fetched.halts, haway]) dev s
  passes := by
    intro hmode hcome τ δ dev s
    exact hcome.passes hmode dev s

end Machine

/-! ## 4. Histories -/

namespace Act

open Machine

variable {σ ε ω : Type} {dev : Device σ ε} {m : Machine}

/-- In the course of a run the mode stays, and in a plain one only numbers are asked for and
written. -/
theorem kept_mode (dev : Device σ ε) (ω : Type) (mode : Bool) :
    Kept dev ω fun m x =>
      m.extended = mode ∧ (mode = false → ∀ call ∈ x.2, call.isNumeric = true) := by
  have hstep : ∀ (m : Machine) (x : σ × List Call), (m.extended = mode ∧
      (mode = false → ∀ call ∈ x.2, call.isNumeric = true)) →
        (m.step dev.recorded x).machine.extended = mode ∧
          (mode = false → ∀ call ∈ (m.step dev.recorded x).device.2, call.isNumeric = true) := by
    rintro m ⟨s, record⟩ ⟨hmode, hrecord⟩
    refine ⟨(sameSetting_step dev.recorded m (s, record)).extended.trans hmode, ?_⟩
    intro hplain call hcall
    obtain ⟨calls, hasks, heq⟩ := step_recorded m dev s record
    rw [heq] at hcall
    rcases List.mem_append.mp hcall with hold | hnew
    · exact hrecord hplain call hold
    · exact hasks.isNumeric (hmode.trans hplain) call hnew
  constructor
  · exact hstep
  · rintro m observer x ⟨hmode, hrecord⟩
    have hcase := checkedCase_checkedStep dev.recorded observer m x
    generalize m.checkedStep dev.recorded observer x = t at hcase ⊢
    cases hcase with
    | plain heq =>
      rw [heq]
      exact hstep m x ⟨hmode, hrecord⟩
    | stored _ _ _ _ =>
      rw [extended_advance]
      exact ⟨hmode, hrecord⟩
    | refused _ => exact ⟨hmode, hrecord⟩
  · rintro m m' s s' record hm ⟨hmode, hrecord⟩
    exact ⟨hm.extended.trans hmode, hrecord⟩

/-- **The mode is read when a run begins, and nothing gets around it.**  Whatever is done until the
next beginning, the machine is in the mode that cell 0 stood for, and it does no more than that
mode lets it. -/
theorem gated_performAll (dev : Device σ ε) (h : m.Begins) (s : σ) {acts : List (Act σ ω)}
    (hacts : ∀ a ∈ acts, a.begins = false) :
    (performAll dev acts m (s, [])).1.Gated (m.memory.read 0 == 10)
      (performAll dev acts m (s, [])).2.2 := by
  have hbegin : m.extended = (m.memory.read 0 == 10) ∧
      ((m.memory.read 0 == 10) = false → ∀ call ∈ ([] : List Call), call.isNumeric = true) := by
    refine ⟨h.extended_eq, ?_⟩
    intro _ call hcall
    cases hcall
  obtain ⟨hmode, hrecord⟩ := performAll_keeps (kept_mode dev ω _) (x := (s, [])) hacts hbegin
  have hsound := sound_performAll dev acts (s, []) h.sound
  rw [← hmode]
  exact hsound.gated fun hplain => hrecord (hmode ▸ hplain)

/-- A program that puts the mark into cell 0 and makes itself an instruction for characters at
address 4. -/
def selfMade : Memory := .ofList [506, 300, 507, 304, 0, 0, 10, 911]

/-- It has come to that instruction, with the mark in cell 0, and its run is still a plain one. -/
theorem gated_selfMade :
    let x := performAll Scripted.device [(.use (.run 4) : Act Scripted Empty)]
      (.start selfMade) ({}, [])
    x.1.memory.read 0 = 10 ∧ x.1.ComesTo 4 911 ∧ x.1.Gated false x.2.2 := by
  refine ⟨rfl, ⟨rfl, rfl, rfl⟩, ?_⟩
  exact gated_performAll Scripted.device (.start selfMade) {} (by simp [begins])

end Act
end MinionComputer
