/-
# The trace is a chronicle

A machine that keeps a trace from the beginning of its run writes a line for each instruction that
it executes and for the halt, if it comes to one.  No line is written by a step that waits or whose
device fails, that ends the run without a halt, or that gives the last result again.  The lines
stand in the order of the steps, each with what its step fetched and the registers right after it.

The invariant (`Chronicle`) is about the two kinds of steps that leave a line.  It tells besides
that the registers of the last line are those of the machine, so that the next line begins where
that one ends.

* `TraceLine.Shows`: a line shows a step;
* `Machine.Chronicled`: what the trace of a machine tells of the steps behind it;
* `Machine.Chronicle.step`: what one step adds;
* `Act.chronicled_performAll`: the trace of a history.
-/
import Mathlib.Data.List.Chain
import Mathlib.Data.List.Forall2
import MinionComputer.Proofs.Machine.Mode
import MinionComputer.Proofs.Machine.Print
import MinionComputer.Proofs.Machine.Taken

namespace MinionComputer

variable {σ ε ω : Type} {dev : Device σ ε}

/-! ## 1. What a trace tells -/

/-- The line shows the address and the cell that the step fetched, the instruction that it found
there, and the registers right after it. -/
structure TraceLine.Shows (l : TraceLine) (t : Taken) : Prop where
  fetched : fetch t.before.memory t.before.registers.pc t.before.extended =
    .ok ⟨l.address, l.cell, l.instruction⟩
  registers : l.registers = t.after

/-- The line begins where the other ends. -/
def TraceLine.LeadsTo (l l' : TraceLine) : Prop := l.registers.pc = Address.toInt l'.address

namespace Machine

/-- Whether the run is over because it came to a halt. -/
def hasHalted (m : Machine) : Bool := m.final.any (·.outcome == .halted)

/-- What the trace of a machine tells of the steps in `log`. -/
structure Chronicled (log : List Taken) (m : Machine) : Prop where
  /-- The machine counts the steps that executed an instruction. -/
  count : m.registers.steps = (log.filter Taken.executes).length
  /-- There are as many lines, and one more if and only if the run halted. -/
  size : (m.trace.size : Int) = m.registers.steps + if m.hasHalted then 1 else 0
  /-- The lines show these steps one after another, and each has its number. -/
  executed : ∀ (i : Nat) t, (log.filter Taken.executes)[i]? = some t →
    ∃ l, m.trace[i]? = some l ∧ l.Shows t ∧ l.registers.steps = (i : Int) + 1
  /-- If the run halted, one step halted it, and the last line shows that step, with the registers
  that the machine has ever since. -/
  halted : m.hasHalted = true → ∃ t l, log.filter Taken.halts = [t] ∧ m.final = some t.result ∧
    m.trace.back? = some l ∧ l.Shows t ∧ l.registers = m.registers
  /-- Each line begins where the one before it ends. -/
  follows : ∀ (i : Nat) l l', m.trace[i]? = some l → m.trace[i + 1]? = some l' → l.LeadsTo l'
  /-- The text of the trace has these lines. -/
  text : Text.lines m.traceText = m.trace.toList.map TraceLine.text
  /-- What a line of the trace shows stands on its line of the text, number by number. -/
  prints : List.Forall₂ TraceLine.Prints m.trace.toList (Text.lines m.traceText)

/-- A run is about to begin of which a trace will be kept. -/
structure Outset (m : Machine) : Prop where
  registers : m.registers = {}
  final : m.final = none
  tracing : m.tracing = true
  trace : m.trace = #[]

/-- A machine is at the outset whose trace is switched on at the beginning of a run. -/
theorem Begins.outset {m : Machine} (h : m.Begins) : (m.setTracing true).Outset := by
  cases h <;> exact ⟨rfl, rfl, rfl, rfl⟩

end Machine

/-! ## 2. Lines in their order -/

/-- Each line leads to the next, and the last has these registers. -/
structure Linked (lines : List TraceLine) (r : Registers) : Prop where
  chain : lines.IsChain TraceLine.LeadsTo
  last : ∀ l ∈ lines.getLast?, l.registers = r

/-- A line that begins at the registers may be put behind the others. -/
theorem Linked.push {lines : List TraceLine} {r : Registers} (h : Linked lines r) {l : TraceLine}
    (hpc : r.pc = Address.toInt l.address) : Linked (lines ++ [l]) l.registers where
  chain := by
    refine h.chain.append (List.isChain_singleton l) ?_
    intro k hk k' hk'
    cases hk'
    rw [TraceLine.LeadsTo, h.last k hk]
    exact hpc
  last := by
    intro k hk
    rw [List.getLast?_concat] at hk
    cases hk
    rfl

/-- The steps are counted from one. -/
def Counted (steps : List Taken) : Prop :=
  ∀ (i : Nat) t, steps[i]? = some t → t.after.steps = (i : Int) + 1

theorem Counted.push {steps : List Taken} (h : Counted steps) {t : Taken}
    (ht : t.after.steps = steps.length + 1) : Counted (steps ++ [t]) := by
  intro i u hu
  rw [List.getElem?_append] at hu
  split at hu
  · exact h i u hu
  · next hi =>
    rw [List.getElem?_singleton] at hu
    split at hu
    · next hlast =>
      cases hu
      have heq : i = steps.length := by omega
      rw [heq]
      exact ht
    · cases hu

/-! ## 3. The invariant -/

namespace Machine

variable {m m' : Machine} {s : σ} {executed halting log : List Taken}

/-- The steps that halted the run of a machine: none, or the one whose result is the last. -/
inductive HaltedBy (m : Machine) : List Taken → Prop
  | running (h : m.hasHalted = false) : HaltedBy m []
  | ended {t : Taken} (hfinal : m.final = some t.result) (ho : t.result.outcome = .halted)
      (hafter : t.after = m.registers) : HaltedBy m [t]

/-- In a run that is not over, no step has halted it. -/
theorem HaltedBy.eq_nil (h : m.HaltedBy halting) (hfinal : m.final = none) : halting = [] := by
  cases h with
  | running _ => rfl
  | ended hended _ _ => cases hfinal.symm.trans hended

/-- What holds of a machine, the steps behind it that executed an instruction, and those that halted
its run. -/
structure Chronicle (executed halting : List Taken) (m : Machine) : Prop where
  sound : m.Sound
  tracing : m.tracing = true
  count : m.registers.steps = executed.length
  counted : Counted executed
  haltedBy : m.HaltedBy halting
  shows : List.Forall₂ TraceLine.Shows m.trace.toList (executed ++ halting)
  linked : Linked m.trace.toList m.registers

theorem Outset.chronicle (h : m.Outset) : Chronicle [] [] m where
  sound := sound_of_fresh h.registers h.final
  tracing := h.tracing
  count := by
    rw [h.registers]
    rfl
  counted := by
    intro i t ht
    cases ht
  haltedBy := by
    refine .running ?_
    rw [hasHalted, h.final]
    rfl
  shows := by
    rw [h.trace]
    exact .nil
  linked := by
    rw [h.trace]
    exact ⟨List.isChain_nil, by simp⟩

/-- What a machine fetches where it stands. -/
theorem Fetches.fetch_eq {a : Address} {f : Fetched} (hf : m.Fetches a f)
    (hpc : m.registers.pc = Address.toInt a) :
    fetch m.memory m.registers.pc m.extended = .ok f := by
  obtain ⟨rfl, hcell, hi⟩ := hf
  rw [← hcell] at hi
  simp only [fetch, hpc, Address.ofInt?_toInt, ← hcell, hi]

namespace Chronicle

/-- Where nothing is written into the trace, nothing new is told. -/
theorem unwritten (h : Chronicle executed halting m) (hm : m.Unwritten m') :
    Chronicle executed halting m' where
  sound := h.sound.of_eq hm.registers hm.final
  tracing := hm.tracing h.tracing
  count := by
    rw [hm.registers]
    exact h.count
  counted := h.counted
  haltedBy := by
    cases h.haltedBy with
    | running hrunning =>
      refine .running ?_
      rw [hasHalted, hm.final]
      exact hrunning
    | ended hfinal ho hafter =>
      exact .ended (hm.final.trans hfinal) ho (hafter.trans hm.registers.symm)
  shows := by
    rw [hm.trace]
    exact h.shows
  linked := by
    rw [hm.trace, hm.registers]
    exact h.linked

/-! ## 4. One step -/

/-- A run that ends without a halt writes nothing. -/
theorem stop (h : Chronicle executed halting m) (hfinal : m.final = none) {r : StepResult}
    (ho : (r.outcome == .halted) = false) (hsound : ({ m with final := some r } : Machine).Sound) :
    Chronicle executed halting { m with final := some r } where
  sound := hsound
  tracing := h.tracing
  count := h.count
  counted := h.counted
  haltedBy := by
    rw [h.haltedBy.eq_nil hfinal]
    exact .running ho
  shows := h.shows
  linked := h.linked

/-- A halt writes the last line, and counts no instruction. -/
theorem halt (h : Chronicle executed halting m) (hfinal : m.final = none) {f : Fetched}
    (hpc : m.registers.pc = Address.toInt f.address) (hf : m.Fetches f.address f)
    (hsound : ({ m.traced f.address f.cell f.instruction with
      final := some ⟨.halted, f.address, f.cell⟩ } : Machine).Sound) :
    Chronicle executed (halting ++ [⟨m, ⟨.halted, f.address, f.cell⟩,
        (m.traced f.address f.cell f.instruction).registers⟩])
      { m.traced f.address f.cell f.instruction with
        final := some ⟨.halted, f.address, f.cell⟩ } where
  sound := hsound
  tracing := (sameSetting_traced f.address f.cell f.instruction).tracing.trans h.tracing
  count := by
    rw [registers_traced]
    exact h.count
  counted := h.counted
  haltedBy := by
    rw [h.haltedBy.eq_nil hfinal]
    exact .ended rfl rfl rfl
  shows := by
    rw [trace_traced h.tracing, Array.toList_push, registers_traced, ← List.append_assoc]
    exact List.rel_append h.shows (.cons ⟨hf.fetch_eq hpc, rfl⟩ .nil)
  linked := by
    rw [trace_traced h.tracing, Array.toList_push, registers_traced]
    exact h.linked.push hpc

/-- An instruction that is executed writes a line and is counted. -/
theorem executes (h : Chronicle executed halting m) {f : Fetched}
    (hexecutes : Executes dev m s f m') (hsound : (m'.advance f (m.next f)).Sound) :
    Chronicle (executed ++ [⟨m, ⟨.continued, f.address, f.cell⟩,
      (m'.advance f (m.next f)).registers⟩]) halting (m'.advance f (m.next f)) := by
  have heffect : Effect m m' := effect_of_perform hexecutes.performs
  have hcount : (m'.advance f (m.next f)).registers.steps = executed.length + 1 := by
    rw [registers_advance, heffect.steps, h.count]
  have htracing : m'.tracing = true := heffect.sameSetting.tracing.trans h.tracing
  have hfinal : (m'.advance f (m.next f)).final = none := by
    rw [final_advance, heffect.final, hexecutes.final]
  have htrace : (m'.advance f (m.next f)).trace.toList = m.trace.toList ++
      [⟨f.address, f.cell, f.instruction, (m'.advance f (m.next f)).registers⟩] := by
    rw [trace_advance, if_pos htracing, Array.toList_push, heffect.trace]
  -- The run is not over, so the new line stands behind lines of executed instructions only.
  have hhalting := h.haltedBy.eq_nil hexecutes.final
  subst hhalting
  have hshows := h.shows
  rw [List.append_nil] at hshows
  exact {
    sound := hsound
    tracing := (tracing_advance f _).trans htracing
    count := by
      rw [hcount, List.length_append]
      rfl
    counted := h.counted.push hcount
    haltedBy := by
      refine .running ?_
      rw [hasHalted, hfinal]
      rfl
    shows := by
      rw [htrace, List.append_nil]
      exact List.rel_append hshows (.cons ⟨hexecutes.fetches.fetch_eq hexecutes.pc, rfl⟩ .nil)
    linked := by
      rw [htrace]
      exact h.linked.push hexecutes.pc }

/-- Steps that neither execute an instruction nor halt the run may have been taken besides. -/
theorem silent (h : Chronicle executed halting m) {steps : List Taken}
    (hexecutes : steps.filter Taken.executes = []) (hhalts : steps.filter Taken.halts = []) :
    Chronicle (executed ++ steps.filter Taken.executes) (halting ++ steps.filter Taken.halts)
      m := by
  rw [hexecutes, hhalts, List.append_nil, List.append_nil]
  exact h

/-- **A step adds to the trace what it adds to the steps.** -/
theorem step (h : Chronicle executed halting m) (dev : Device σ ε) (s : σ) :
    Chronicle
      (executed ++ (m.taken (m.step dev s).result (m.step dev s).machine).filter Taken.executes)
      (halting ++ (m.taken (m.step dev s).result (m.step dev s).machine).filter Taken.halts)
      (m.step dev s).machine := by
  have hsound := h.sound.step dev s
  obtain ⟨r, hfinal, hrepeat⟩ | ⟨hfinal, a, hpc, hcase⟩ := h.sound.step_cases dev s
  · -- A result that is given again is terminal, so nothing was executed, and the run was over.
    have hgoes : (r.outcome == .continued) = false := by
      rw [beq_eq_false_iff_ne]
      intro hr
      have hterminal := h.sound.terminal r hfinal
      rw [hr] at hterminal
      cases hterminal
    rw [hrepeat]
    exact h.silent (by simp [taken, Taken.executes, hgoes]) (by simp [taken, Taken.halts, hfinal])
  · generalize m.step dev s = t at hcase hsound ⊢
    cases hcase with
    | invalid _ => exact (h.stop hfinal rfl hsound).silent rfl rfl
    | reachEnd _ _ _ => exact (h.stop hfinal rfl hsound).silent rfl rfl
    | fail _ _ _ _ => exact h.silent rfl rfl
    | wait _ _ _ _ => exact h.silent rfl rfl
    | @halt f hf _ =>
      cases hf.address
      have hkept := h.halt hfinal hpc hf hsound
      simpa [taken, finish, Taken.executes, Taken.halts, hfinal] using hkept
    | @go f m' hf hh hn hp =>
      cases hf.address
      have hexecutes : Executes dev m s f m' := ⟨hfinal, hpc, hf, hh, hn, hp⟩
      have hkept := h.executes hexecutes hsound
      simpa [taken, Taken.executes, Taken.halts] using hkept

end Chronicle

theorem keepsTaken_chronicle (dev : Device σ ε) :
    KeepsTaken dev fun log m =>
      Chronicle (log.filter Taken.executes) (log.filter Taken.halts) m where
  step := by
    intro log m s h
    rw [List.filter_append, List.filter_append]
    exact h.step dev s
  unwritten := by
    intro log m m' hm h
    exact h.unwritten hm

/-! ## 6. The trace of a history -/

namespace Chronicle

/-- Each step that left a line is shown by the line at its place. -/
theorem exists_line (h : Chronicle executed halting m) {i : Nat} {t : Taken}
    (ht : (executed ++ halting)[i]? = some t) : ∃ l, m.trace[i]? = some l ∧ l.Shows t := by
  obtain ⟨hi, rfl⟩ := List.getElem?_eq_some_iff.mp ht
  obtain ⟨hlength, hshows⟩ := List.forall₂_iff_get.mp h.shows
  rw [← hlength] at hi
  refine ⟨m.trace[i], Array.getElem?_eq_getElem hi, ?_⟩
  exact hshows i hi _

theorem size_eq (h : Chronicle executed halting m) :
    m.trace.size = executed.length + halting.length := by
  rw [← List.length_append, ← h.shows.length_eq, Array.length_toList]

/-- **What the trace tells of the steps.** -/
theorem chronicled (h : Chronicle (log.filter Taken.executes) (log.filter Taken.halts) m) :
    Chronicled log m where
  count := h.count
  size := by
    rw [h.size_eq, h.count]
    generalize log.filter Taken.halts = halting at h ⊢
    cases h.haltedBy with
    | running hrunning => simp [hrunning]
    | ended hfinal ho _ => simp [hasHalted, hfinal, ho]
  executed := by
    intro i t ht
    have hfront : i < (log.filter Taken.executes).length := (List.getElem?_eq_some_iff.mp ht).1
    have hplace : (log.filter Taken.executes ++ log.filter Taken.halts)[i]? = some t := by
      rw [List.getElem?_append_left hfront]
      exact ht
    obtain ⟨l, hl, hshows⟩ := h.exists_line hplace
    refine ⟨l, hl, hshows, ?_⟩
    rw [hshows.registers]
    exact h.counted i t ht
  halted := by
    intro hhalted
    generalize log.filter Taken.halts = halting at h ⊢
    cases h.haltedBy with
    | running hrunning => cases hrunning.symm.trans hhalted
    | @ended t hfinal _ hafter =>
      have hplace : (log.filter Taken.executes ++ [t])[(log.filter Taken.executes).length]? =
          some t := by simp
      obtain ⟨l, hl, hshows⟩ := h.exists_line hplace
      refine ⟨t, l, rfl, hfinal, ?_, hshows, hshows.registers.trans hafter⟩
      rw [Array.back?, h.size_eq]
      exact hl
  follows := by
    intro i l l' hl hl'
    obtain ⟨_, rfl⟩ := Array.getElem?_eq_some_iff.mp hl
    obtain ⟨hi', rfl⟩ := Array.getElem?_eq_some_iff.mp hl'
    exact List.isChain_iff_getElem.mp h.linked.chain i hi'
  text := m.lines_traceText
  prints := m.prints_traceText

end Chronicle
end Machine

namespace Act

open Machine

variable {m : Machine}

/-- **The trace of a machine is a chronicle of its run.**  Whatever was done to a machine that
kept a trace from the outset, and still keeps it, the trace has a line for each instruction that was
executed and one for the halt, in their order. -/
theorem chronicled_performAll (dev : Device σ ε) (h : m.Outset) (x : σ × List Call)
    {acts : List (Act σ ω)} (hacts : ∀ a ∈ acts, a.sparesTrace = true) :
    Chronicled (takenAll dev acts m x) (performAll dev acts m x).1 := by
  have hstart : Chronicle (([] : List Taken).filter Taken.executes)
      (([] : List Taken).filter Taken.halts) m := h.chronicle
  exact (takenAll_keeps (keepsTaken_chronicle dev.recorded) hacts hstart).chronicled

/-- A program that reads a number, writes it, and halts. -/
def echo : Memory := .ofList [901, 902, 0]

/-- Its run is started without input, taken up with input and for one step only, taken up again to
its end, and stepped twice behind the end. -/
def interrupted : List (Act Scripted Empty) :=
  [.use (.run 5), .use (.change (·.pushNumber (some 7))), .use (.run 1), .use (.run 5), .use .step,
    .use .step]

/-- Of the six steps that are taken three leave a line. -/
theorem chronicled_interrupted :
    let m := (start echo).setTracing true
    let y := (performAll Scripted.device interrupted m ({}, [])).1
    let log := takenAll Scripted.device interrupted m ({}, [])
    log.map (·.result.outcome) =
        [.awaitingInput, .continued, .continued, .halted, .halted, .halted] ∧
      y.trace.toList.map (·.registers.steps) = [1, 2, 2] ∧ y.Chronicled log := by
  refine ⟨rfl, rfl, ?_⟩
  exact chronicled_performAll Scripted.device (Begins.start echo).outset ({}, [])
    (by simp [interrupted, sparesTrace])

end Act
end MinionComputer
