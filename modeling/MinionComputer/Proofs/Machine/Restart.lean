/-
# A new run is a new machine

Whatever was done to a machine before, when a new run begins nothing is left of it but the memory,
the breakpoints and whether a trace is kept.  So nothing that is done from then on can tell the
machine from a new one on this memory.  The new one has its breakpoints set one after another, and in
which order that was is the only difference there is (`Agrees`); no step sees it, and a run asks no
more than whether an address is among them.

* `Machine.rearm`, `Machine.unseen_rearm`: other breakpoints, and what steps see of them;
* `Report`, `Act.reports`: what is told of each thing that is done;
* `Act.perform_agrees`, `Act.performAll_agrees`: machines that agree stay so, and tell the same;
* `Act.restarts_fresh`: after each of the two ways to begin a run.
-/
import MinionComputer.Device.Handler
import MinionComputer.Proofs.Machine.History
import MinionComputer.Proofs.Machine.Unseen

namespace MinionComputer

variable {σ ε ω : Type}

namespace Machine

variable {m m' : Machine} {bs : List Int}

/-! ## 1. Breakpoints -/

/-- The machine with other breakpoints. -/
def rearm (bs : List Int) (m : Machine) : Machine := { m with breakpoints := bs }

/-- No step sees the breakpoints. -/
theorem unseen_rearm (bs : List Int) : Unseen (rearm bs) where
  registers _ := rfl
  memory _ := rfl
  extended _ := rfl
  final _ := rfl
  withRegisters _ _ := rfl
  withMemory _ _ := rfl
  withFinal _ _ := rfl
  traced m a c i := by
    unfold traced rearm
    split <;> rfl

theorem atBreakpoint_rearm (h : ∀ a, a ∈ bs ↔ a ∈ m.breakpoints) :
    (m.rearm bs).atBreakpoint = m.atBreakpoint := by
  have hcontains : bs.contains m.registers.pc = m.breakpoints.contains m.registers.pc := by
    rw [Bool.eq_iff_iff, List.contains_iff_mem, List.contains_iff_mem]
    exact h m.registers.pc
  exact congrArg (m.final.isNone && ·) hcontains

theorem mem_addBreakpoint {a b : Int} :
    b ∈ (m.addBreakpoint a).breakpoints ↔ b = a ∨ b ∈ m.breakpoints := by
  unfold addBreakpoint
  split
  · next h =>
    refine ⟨.inr, ?_⟩
    rintro (rfl | hb)
    · exact h
    · exact hb
  · exact List.mem_cons

theorem mem_removeBreakpoint {a b : Int} :
    b ∈ (m.removeBreakpoint a).breakpoints ↔ b ∈ m.breakpoints ∧ b ≠ a := by
  simp [removeBreakpoint]

/-! ## 2. Machines that agree -/

/-- The machines differ in nothing but the order of their breakpoints. -/
structure Agrees (m m' : Machine) : Prop where
  registers : m'.registers = m.registers
  memory : m'.memory = m.memory
  extended : m'.extended = m.extended
  final : m'.final = m.final
  tracing : m'.tracing = m.tracing
  trace : m'.trace = m.trace
  breakpoints : ∀ a, a ∈ m'.breakpoints ↔ a ∈ m.breakpoints

theorem agrees_rearm (h : ∀ a, a ∈ bs ↔ a ∈ m.breakpoints) : m.Agrees (m.rearm bs) :=
  ⟨rfl, rfl, rfl, rfl, rfl, rfl, h⟩

theorem Agrees.eq_rearm (h : m.Agrees m') : m' = m.rearm m'.breakpoints := by
  obtain ⟨registers, memory, extended, final, breakpoints, tracing, trace⟩ := m'
  obtain ⟨rfl, rfl, rfl, rfl, rfl, rfl, -⟩ := h
  rfl

/-- A new machine on a memory, with its breakpoints set one after another, and keeping a trace or
not. -/
def fresh (memory : Memory) (bs : List Int) (tracing : Bool) : Machine :=
  (bs.foldl addBreakpoint (start memory)).setTracing tracing

/-- Setting breakpoints does nothing else. -/
theorem foldl_addBreakpoint (bs : List Int) : ∀ m : Machine,
    ∃ bs', bs.foldl addBreakpoint m = m.rearm bs' ∧ ∀ a, a ∈ bs' ↔ a ∈ bs ∨ a ∈ m.breakpoints := by
  induction bs with
  | nil =>
    intro m
    exact ⟨m.breakpoints, rfl, by simp⟩
  | cons b bs ih =>
    intro m
    obtain ⟨bs', heq, hmem⟩ := ih (m.addBreakpoint b)
    refine ⟨bs', heq, fun a => ?_⟩
    rw [hmem, mem_addBreakpoint, List.mem_cons]
    exact or_left_comm.trans or_assoc.symm

/-- A new machine has the breakpoints that were set. -/
theorem agrees_fresh {memory : Memory} {kept : List Int} {tracing : Bool}
    (h : ∀ a, a ∈ bs ↔ a ∈ kept) :
    ({ start memory with breakpoints := kept, tracing := tracing } : Machine).Agrees
      (fresh memory bs tracing) := by
  obtain ⟨bs', heq, hmem⟩ := foldl_addBreakpoint bs (start memory)
  have hnone : (start memory).breakpoints = [] := rfl
  rw [fresh, heq]
  refine ⟨rfl, rfl, rfl, rfl, rfl, rfl, fun a => ?_⟩
  have hset : a ∈ bs' ↔ a ∈ bs := by
    rw [hmem, hnone]
    simp
  exact hset.trans (h a)

variable (dev : Device σ ε) (observer : Observer ω) (s : σ)

/-- **Machines that agree take the same step**, and agree behind it. -/
theorem Agrees.step (h : m.Agrees m') :
    ∃ bs, m'.step dev s = (m.step dev s).changed (rearm bs) ∧
      (m.step dev s).machine.Agrees ((m.step dev s).machine.rearm bs) := by
  have hstep := (unseen_rearm m'.breakpoints).step dev m s
  rw [← h.eq_rearm] at hstep
  refine ⟨m'.breakpoints, hstep, agrees_rearm ?_⟩
  rw [breakpoints_step]
  exact h.breakpoints

/-- **Machines that agree take the same run**, and agree behind it. -/
theorem Agrees.run (h : m.Agrees m') (budget : Int) :
    ∃ bs, m'.run dev budget s = (m.run dev budget s).changed (rearm bs) ∧
      (m.run dev budget s).machine.Agrees ((m.run dev budget s).machine.rearm bs) := by
  have hrun := (unseen_rearm m'.breakpoints).run dev m s budget fun m₁ h₁ =>
    atBreakpoint_rearm (h₁.symm ▸ h.breakpoints)
  rw [← h.eq_rearm] at hrun
  have hkept : (m.run dev budget s).machine.breakpoints = m.breakpoints :=
    run_invariant (P := fun m₁ _ => m₁.breakpoints = m.breakpoints)
      (fun m₁ s₁ h₁ => (breakpoints_step dev m₁ s₁).trans h₁) budget rfl
  refine ⟨m'.breakpoints, hrun, agrees_rearm ?_⟩
  rw [hkept]
  exact h.breakpoints

/-- A step with checks moves no breakpoint: with those that it has set again, the machine is the
machine. -/
theorem breakpoints_checkedStep (m : Machine) :
    (m.checkedStep dev observer s).machine.breakpoints = m.breakpoints := by
  have hsame := (unseen_rearm m.breakpoints).checkedStep dev m s observer
  exact congrArg (fun t => t.machine.breakpoints) hsame

/-- **Machines that agree take the same step with checks**, and agree behind it. -/
theorem Agrees.checkedStep (h : m.Agrees m') :
    ∃ bs, m'.checkedStep dev observer s = (m.checkedStep dev observer s).changed (rearm bs) ∧
      (m.checkedStep dev observer s).machine.Agrees
        ((m.checkedStep dev observer s).machine.rearm bs) := by
  have hstep := (unseen_rearm m'.breakpoints).checkedStep dev m s observer
  rw [← h.eq_rearm] at hstep
  refine ⟨m'.breakpoints, hstep, agrees_rearm ?_⟩
  rw [breakpoints_checkedStep]
  exact h.breakpoints

end Machine

/-! ## 3. What is told -/

/-- What is told of something that was done. -/
inductive Report (ε ω : Type) where
  /-- Of a step or a run: the notes and the result. -/
  | turn (notes : List Note) (result : Except (StepFault ε) StepResult)
  /-- Of a step with checks: the notes and the result. -/
  | checkedTurn (notes : List Note) (result : Except (Escape ε ω) StepResult)
  /-- That a run begins. -/
  | begins (note : Note)
  /-- Whether a write was rejected. -/
  | write (result : Except MemoryFault Unit)
  /-- Nothing. -/
  | silence

namespace Act

open Machine

variable {m m' : Machine} {x : σ × List Call}

/-- What is told of it. -/
def report (dev : Device σ ε) (a : Act σ ω) (m : Machine) (x : σ × List Call) : Report ε ω :=
  match a with
  | use .step =>
    let t := m.step dev.recorded x
    .turn t.notes t.result
  | use (.checkedStep observer) =>
    let t := m.checkedStep dev.recorded observer x
    .checkedTurn t.notes t.result
  | use (.run budget) =>
    let t := m.run dev.recorded budget x
    .turn t.notes t.result
  | use .reset => .begins m.reset.startNote
  | use (.load memory) => .begins (m.load memory).startNote
  | use (.write address value) => .write ((m.memory.writeAt address value).map fun _ => ())
  | _ => .silence

/-- What is told of one thing after another. -/
def reports (dev : Device σ ε) : List (Act σ ω) → Machine → σ × List Call → List (Report ε ω)
  | [], _, _ => []
  | a :: acts, m, x =>
    a.report dev m x :: reports dev acts (a.perform dev m x).1 (a.perform dev m x).2

/-- **What is done to machines that agree**: the same is told of it, the device and the record of
its calls are left the same, and the machines still agree. -/
theorem perform_agrees (h : m.Agrees m') (dev : Device σ ε) (a : Act σ ω) (x : σ × List Call) :
    a.report dev m' x = a.report dev m x ∧ (a.perform dev m' x).2 = (a.perform dev m x).2 ∧
      (a.perform dev m x).1.Agrees (a.perform dev m' x).1 := by
  cases a with
  | rewrite f => exact ⟨rfl, rfl, { h with memory := congrArg f h.memory }⟩
  | setTracing on => exact ⟨rfl, rfl, { h with tracing := rfl }⟩
  | clearTrace => exact ⟨rfl, rfl, { h with trace := rfl }⟩
  | use u =>
    cases u with
    | step =>
      obtain ⟨bs, hstep, hagrees⟩ := h.step dev.recorded x
      simp only [report, perform, Use.perform, hstep]
      exact ⟨rfl, rfl, hagrees⟩
    | checkedStep observer =>
      obtain ⟨bs, hstep, hagrees⟩ := h.checkedStep dev.recorded observer x
      simp only [report, perform, Use.perform, hstep]
      exact ⟨rfl, rfl, hagrees⟩
    | run budget =>
      obtain ⟨bs, hrun, hagrees⟩ := h.run dev.recorded x budget
      simp only [report, perform, Use.perform, hrun]
      exact ⟨rfl, rfl, hagrees⟩
    | reset =>
      have hmode : m'.reset.extended = m.reset.extended := congrArg latches h.memory
      have hnote : m'.reset.startNote = m.reset.startNote := by
        rw [startNote, hmode]
        rfl
      exact ⟨congrArg Report.begins hnote, rfl,
        ⟨rfl, h.memory, hmode, rfl, h.tracing, rfl, h.breakpoints⟩⟩
    | load memory => exact ⟨rfl, rfl, ⟨rfl, rfl, rfl, rfl, h.tracing, rfl, h.breakpoints⟩⟩
    | write address value =>
      have hwrite : m'.memory.writeAt address value = m.memory.writeAt address value := by
        rw [h.memory]
      refine ⟨by simp only [report, hwrite], ?_⟩
      simp only [perform, Use.perform, hwrite]
      cases m.memory.writeAt address value with
      | ok memory => exact ⟨rfl, { h with memory := rfl }⟩
      | error f => exact ⟨rfl, h⟩
    | change f => exact ⟨rfl, rfl, h⟩
    | addBreakpoint b =>
      refine ⟨rfl, rfl, { h with breakpoints := fun a => ?_ }⟩
      exact mem_addBreakpoint.trans ((or_congr_right (h.breakpoints a)).trans mem_addBreakpoint.symm)
    | removeBreakpoint b =>
      refine ⟨rfl, rfl, { h with breakpoints := fun a => ?_ }⟩
      exact mem_removeBreakpoint.trans
        ((and_congr_left' (h.breakpoints a)).trans mem_removeBreakpoint.symm)
    | clearBreakpoints => exact ⟨rfl, rfl, { h with breakpoints := fun _ => .rfl }⟩

/-- Nothing that can be done from now on tells the machines apart: the same is told of all of it,
the device and the record of its calls are left the same, and the machines agree behind it. -/
def Alike (dev : Device σ ε) (ω : Type) (m m' : Machine) : Prop :=
  ∀ (x : σ × List Call) (acts : List (Act σ ω)),
    reports dev acts m' x = reports dev acts m x ∧
      (performAll dev acts m' x).2 = (performAll dev acts m x).2 ∧
      (performAll dev acts m x).1.Agrees (performAll dev acts m' x).1

/-- **Machines that agree cannot be told apart.** -/
theorem alike_of_agrees (dev : Device σ ε) (h : m.Agrees m') : Alike dev ω m m' := by
  intro x acts
  induction acts generalizing m m' x with
  | nil => exact ⟨rfl, rfl, h⟩
  | cons a acts ih =>
    obtain ⟨hreport, hdevice, hagrees⟩ := perform_agrees h dev a x
    obtain ⟨hreports, hrest⟩ := ih hagrees (a.perform dev m x).2
    simp only [reports, performAll, hreport, hdevice, hreports]
    exact ⟨trivial, hrest⟩

/-! ## 4. Beginnings -/

/-- **A run that begins anew is a run of a new machine.**  Whatever was done to a machine and its
device before, and however it ended: nothing that is done after a reset tells the machine from a new
one on the memory that it has then, with the same breakpoints and keeping a trace or not as it did,
and nothing that is done after loading a memory tells it from such a machine on that memory.
Neither beginning changes a cell. -/
theorem restarts_fresh (dev : Device σ ε) (before : List (Act σ ω)) (m : Machine)
    (x : σ × List Call) {bs : List Int}
    (hbs : ∀ a, a ∈ bs ↔ a ∈ (performAll dev before m x).1.breakpoints) :
    let now := (performAll dev before m x).1
    (now.reset.memory = now.memory ∧ Alike dev ω now.reset (fresh now.memory bs now.tracing)) ∧
      ∀ memory, (now.load memory).memory = memory ∧
        Alike dev ω (now.load memory) (fresh memory bs now.tracing) := by
  intro now
  exact ⟨⟨rfl, alike_of_agrees dev (agrees_fresh hbs)⟩,
    fun memory => ⟨rfl, alike_of_agrees dev (agrees_fresh hbs)⟩⟩

/-- A run in extended mode whose device fails, with breakpoints set and a trace kept; then the mark of
extended mode is overwritten. -/
def mishap : List (Act Handler Empty) :=
  [.setTracing true, .use (.addBreakpoint 3), .use (.addBreakpoint 1), .use (.run 5),
    .use (.run 5), .use (.write (.whole 0) (.whole 7))]

/-- A new run takes the other mode, as a new machine does with its breakpoints set in either
order. -/
theorem mishap_restarts :
    let m := (performAll Handler.device mishap (start (.ofList [10, 901, 902])) (.bare, [])).1
    (∀ a, a ∈ [1, 3] ↔ a ∈ m.breakpoints) ∧ m.extended = true ∧ m.trace.size = 1 ∧
      m.reset.extended = false ∧
      Alike Handler.device Empty m.reset (fresh m.memory [1, 3] m.tracing) := by
  intro m
  have hbreakpoints : m.breakpoints = [1, 3] := by rfl
  have hbs : ∀ a, a ∈ [1, 3] ↔ a ∈ m.breakpoints := by simp [hbreakpoints]
  exact ⟨hbs, by rfl, by rfl, by rfl,
    (restarts_fresh Handler.device mishap (start (.ofList [10, 901, 902])) (.bare, []) hbs).1.2⟩

end Act
end MinionComputer
