/-
# Breakpoints over several runs

A machine with breakpoints is run several times, each time with a budget and perhaps with more input
for its device.  Every run passes over a breakpoint at its first step, so that a run can be taken up
where it stopped.  That is right if the run before stopped for the breakpoint; but a run may also
have used up its budget with the very instruction that led there.  Nobody is told of the breakpoint
then.  This is the only way to miss one.

* `RunEvent`, `Machine.runLog`: the instructions that runs execute and the results they end with;
* `Missed`: a breakpoint that an instruction leads to and the next instruction leaves, untold;
* `Machine.Logged`: what the log of a machine looks like from its place on;
* `Machine.logged_runLog`: every log does;
* `Machine.missed_iff_spent`: which breakpoints are missed.
-/
import MinionComputer.Proofs.Machine.Halting

namespace MinionComputer

variable {σ ε : Type}

/-! ## 1. Logs -/

/-- Something that happens while a machine is run: the instruction at an address is executed and
leads to `next`, or it is executed and halts, or a run ends. -/
inductive RunEvent (ε : Type) where
  | executed (a : Address) (next : Int)
  | halted (a : Address)
  | ended (result : Except (StepFault ε) StepResult)

/-- The instruction at `p` is executed. -/
inductive RunEvent.At (p : Address) : RunEvent ε → Prop
  | executed (next : Int) : At p (.executed p next)
  | halted : At p (.halted p)

/-- A run that is asked for: what becomes of the device before it, and its budget. -/
structure Errand (σ : Type) where
  change : σ → σ := id
  budget : Int

namespace Machine

/-- The end of a run with that result, and before it the halt that brought it, unless the run was
over before it began. -/
def ending (m : Machine) (result : Except (StepFault ε) StepResult) : List (RunEvent ε) :=
  match m.final, result with
  | none, .ok ⟨.halted, a, _⟩ => [.halted a, .ended result]
  | _, _ => [.ended result]

/-- The instructions executed in a run that begins with `m`, until as many have been counted as
`count`, and its end. -/
def eventsUntil (dev : Device σ ε) (m : Machine) (s : σ) (count : Int)
    (result : Except (StepFault ε) StepResult) : List (RunEvent ε) :=
  let (_, _, _, results, _) := m.steps dev (count - m.registers.steps).toNat s
  results.map (fun x => .executed x.1.address x.2.registers.pc) ++ m.ending result

/-- All that happens in runs one after another. -/
def runLog (dev : Device σ ε) : List (Errand σ) → Machine → σ → List (RunEvent ε)
  | [], _, _ => []
  | x :: rest, m, s =>
    let t := m.run dev x.budget (x.change s)
    m.eventsUntil dev (x.change s) t.machine.registers.steps t.result ++
      runLog dev rest t.machine t.device

end Machine

/-- An instruction led to the breakpoint at `p`, the instruction there was executed afterwards, and
no run between them ended with that breakpoint. -/
def Missed (breakpoints : List Int) (log : List (RunEvent ε)) (p : Address) : Prop :=
  Address.toInt p ∈ breakpoints ∧ ∃ before a between e after,
    log = before ++ .executed a (Address.toInt p) :: (between ++ e :: after) ∧ RunEvent.At p e ∧
      ∀ c, .ended (.ok ⟨.breakpoint, p, c⟩) ∉ between

/-- An instruction led to the breakpoint at `p` and used up the budget of its run, and some
instruction was executed afterwards. -/
def SpentOnArrival (breakpoints : List Int) (log : List (RunEvent ε)) (p : Address) : Prop :=
  Address.toInt p ∈ breakpoints ∧ ∃ before a c after,
    log = before ++ .executed a (Address.toInt p) :: .ended (.ok ⟨.timeout, p, c⟩) :: after ∧
      ∃ e ∈ after, ∃ b, RunEvent.At b e

namespace Machine

variable {dev : Device σ ε} {m : Machine} {s : σ} {breakpoints : List Int}
  {log : List (RunEvent ε)} {moved : Bool} {pc : Int} {p : Address}

/-! ## 2. What a log looks like -/

/-- The log goes on from `pc`; `moved` tells that the run in progress has executed an instruction
and may be stopped.  No instruction is executed at a breakpoint that the run has moved to: it ends
there, with the breakpoint or because its budget is used up.  And a run that has not moved does not
end with a breakpoint. -/
inductive Logged (breakpoints : List Int) : Bool → Int → List (RunEvent ε) → Prop
  | nil (moved : Bool) (pc : Int) : Logged breakpoints moved pc []
  | executed {moved : Bool} {a : Address} {next : Int} {log : List (RunEvent ε)}
      (hfree : moved = true → Address.toInt a ∉ breakpoints)
      (rest : Logged breakpoints true next log) :
      Logged breakpoints moved (Address.toInt a) (.executed a next :: log)
  | halted {moved : Bool} {a : Address} {log : List (RunEvent ε)}
      (hfree : moved = true → Address.toInt a ∉ breakpoints)
      (rest : Logged breakpoints false (Address.toInt a) log) :
      Logged breakpoints moved (Address.toInt a) (.halted a :: log)
  | ended {moved : Bool} {pc : Int} {result : Except (StepFault ε) StepResult}
      {log : List (RunEvent ε)}
      (hmoved : ∀ p c, result = .ok ⟨.breakpoint, p, c⟩ → moved = true)
      (hstop : moved = true → pc ∈ breakpoints → ∃ p c, Address.toInt p = pc ∧
        (result = .ok ⟨.breakpoint, p, c⟩ ∨ result = .ok ⟨.timeout, p, c⟩))
      (rest : Logged breakpoints false pc log) :
      Logged breakpoints moved pc (.ended result :: log)

/-- The end of a log is a log from some place. -/
theorem Logged.of_append {after : List (RunEvent ε)} : ∀ {before : List (RunEvent ε)} {moved : Bool}
    {pc : Int}, Logged breakpoints moved pc (before ++ after) →
      ∃ moved' pc', Logged breakpoints moved' pc' after
  | [], moved, pc, h => ⟨moved, pc, h⟩
  | _ :: _, _, _, .executed _ rest => rest.of_append
  | _ :: _, _, _, .halted _ rest => rest.of_append
  | _ :: _, _, _, .ended _ _ rest => rest.of_append

theorem Logged.behind_executed {a : Address} {next : Int}
    (h : Logged breakpoints moved pc (.executed a next :: log)) : Logged breakpoints true next log := by
  cases h with
  | executed _ rest => exact rest

theorem Logged.behind_ended {result : Except (StepFault ε) StepResult}
    (h : Logged breakpoints moved pc (.ended result :: log)) : Logged breakpoints false pc log := by
  cases h with
  | ended _ _ rest => exact rest

/-- Behind an instruction that led to a breakpoint, its run ends before anything is executed. -/
theorem Logged.head_eq (h : Logged breakpoints true (Address.toInt p) log)
    (hp : Address.toInt p ∈ breakpoints) {e : RunEvent ε} (he : log.head? = some e) :
    ∃ c, e = .ended (.ok ⟨.breakpoint, p, c⟩) ∨ e = .ended (.ok ⟨.timeout, p, c⟩) := by
  generalize hpc : Address.toInt p = pc at h hp
  cases h with
  | nil => cases he
  | executed hfree _ | halted hfree _ => exact absurd hp (hfree rfl)
  | ended _ hstop _ =>
    cases he
    obtain ⟨p', c, hp', hresult⟩ := hstop rfl hp
    obtain rfl := Address.toInt_inj.mp (hp'.trans hpc.symm)
    exact ⟨c, hresult.imp (congrArg _) (congrArg _)⟩

/-- At the beginning of a run, the next instruction to be executed is the one at `pc`, and no run
ends with a breakpoint before it. -/
theorem Logged.exists_next (h : Logged breakpoints false pc log)
    (hlater : ∃ e ∈ log, ∃ b, RunEvent.At b e) :
    ∃ between e after a, log = between ++ e :: after ∧ RunEvent.At a e ∧ Address.toInt a = pc ∧
      ∀ p c, .ended (.ok ⟨.breakpoint, p, c⟩) ∉ between := by
  obtain ⟨e, hmem, b, hat⟩ := hlater
  induction log with
  | nil => cases hmem
  | cons first log ih =>
    cases h with
    | @executed _ a next => exact ⟨[], _, log, a, rfl, .executed next, rfl, by simp⟩
    | @halted _ a => exact ⟨[], _, log, a, rfl, .halted, rfl, by simp⟩
    | @ended _ _ result _ hmoved _ rest =>
      have hne : e ≠ .ended result := by
        rintro rfl
        cases hat
      have hlog : e ∈ log := (List.mem_cons.mp hmem).resolve_left hne
      obtain ⟨between, e', after, a, rfl, hat', ha, hnone⟩ := ih rest hlog
      refine ⟨.ended result :: between, e', after, a, rfl, hat', ha, ?_⟩
      intro p c hbreak
      rcases List.mem_cons.mp hbreak with heq | hbetween
      · cases heq
        exact absurd (hmoved p c rfl) Bool.false_ne_true
      · exact hnone p c hbetween

/-- **In a log, a breakpoint is missed exactly when a budget is used up on the way to it.** -/
theorem Logged.missed_iff (h : Logged breakpoints moved pc log) :
    Missed breakpoints log p ↔ SpentOnArrival breakpoints log p := by
  constructor
  · rintro ⟨hp, before, a, between, e, after, rfl, hat, hnone⟩
    obtain ⟨_, _, htail⟩ := h.of_append
    have rest := htail.behind_executed
    refine ⟨hp, before, a, ?_⟩
    cases between with
    | nil =>
      obtain ⟨c, rfl | rfl⟩ := rest.head_eq hp rfl
      · cases hat
      · cases hat
    | cons first between =>
      obtain ⟨c, rfl | rfl⟩ := rest.head_eq hp rfl
      · exact absurd List.mem_cons_self (hnone c)
      · exact ⟨c, between ++ e :: after, rfl, e, by simp, p, hat⟩
  · rintro ⟨hp, before, a, c, after, rfl, hlater⟩
    obtain ⟨_, _, htail⟩ := h.of_append
    have rest := htail.behind_executed.behind_ended
    obtain ⟨between, e, after, b, rfl, hat, hb, hnone⟩ := rest.exists_next hlater
    obtain rfl := Address.toInt_inj.mp hb
    refine ⟨hp, before, a, .ended (.ok ⟨.timeout, b, c⟩) :: between, e, after, rfl, hat, ?_⟩
    intro c' hbreak
    rcases List.mem_cons.mp hbreak with heq | hbetween
    · cases heq
    · exact hnone b c' hbetween

/-! ## 3. The log of a machine -/

/-- No step ends with a breakpoint. -/
theorem Sound.step_ne_breakpoint (h : m.Sound) (dev : Device σ ε) (s : σ) (c : Cell) :
    (m.step dev s).result ≠ .ok ⟨.breakpoint, p, c⟩ := by
  intro hresult
  obtain ⟨r, hfinal, hrepeat⟩ | ⟨_, a, _, hcase⟩ := h.step_cases dev s
  · rw [hrepeat] at hresult
    cases hresult
    exact absurd (h.terminal _ hfinal) Bool.false_ne_true
  · generalize m.step dev s = t at hcase hresult
    cases hcase <;> cases hresult

/-- A machine that has moved and stands at a breakpoint is stopped by it. -/
theorem not_mem_of_not_atBreakpoint (hfinal : m.final = none) (h : m.atBreakpoint = false) :
    m.registers.pc ∉ m.breakpoints := by
  simpa [atBreakpoint, hfinal] using h

/-- A run that ends where it stands has executed nothing that is counted. -/
theorem eventsUntil_self (dev : Device σ ε) (m : Machine) (s : σ)
    (result : Except (StepFault ε) StepResult) :
    m.eventsUntil dev s m.registers.steps result = m.ending result := by
  simp [eventsUntil, Machine.steps]

/-- A run that stops by itself did not halt. -/
theorem ending_here {a : Address} (hpc : m.registers.pc = Address.toInt a) {o : Outcome}
    (ho : o ≠ .halted) : m.ending (m.here o : Except (StepFault ε) StepResult) =
      [.ended (.ok ⟨o, a, m.memory.read a⟩)] := by
  rw [here_eq hpc]
  unfold ending
  split
  · next heq =>
    cases heq
    exact absurd rfl ho
  · rfl

/-- The machine is not over before a step that goes on, nor behind it. -/
theorem Sound.final_of_continues (h : m.Sound) (hgo : Continues dev m s) :
    m.final = none ∧ (m.step dev s).machine.final = none := by
  obtain ⟨f, m', he⟩ := h.exists_executes hgo
  rw [he.step_eq]
  exact ⟨he.final, (final_advance f _).trans ((effect_of_perform he.performs).final.trans he.final)⟩

/-- An instruction that is executed comes before what is executed after it. -/
theorem eventsUntil_of_continued (h : m.Sound) {a : Address} {c : Cell}
    (hresult : (m.step dev s).result = .ok ⟨.continued, a, c⟩) {count : Int}
    (hcount : (m.step dev s).machine.registers.steps ≤ count)
    (result : Except (StepFault ε) StepResult) : m.eventsUntil dev s count result =
      .executed a (m.step dev s).machine.registers.pc ::
        (m.step dev s).machine.eventsUntil dev (m.step dev s).device count result := by
  have hsteps := steps_of_continues h ⟨a, c, hresult⟩
  have hsucc : (count - m.registers.steps).toNat =
      (count - (m.step dev s).machine.registers.steps).toNat + 1 := by
    omega
  obtain ⟨hfinal, hfinal'⟩ := h.final_of_continues ⟨a, c, hresult⟩
  have hending : m.ending result = (m.step dev s).machine.ending result := by
    simp only [ending, hfinal, hfinal']
  unfold eventsUntil
  rw [hsucc, hending]
  simp [Machine.steps, hresult]

/-- A step that does not go on ends its run, with a halt or without one. -/
theorem Sound.logged_ending (h : m.Sound) (hstop : ¬ Continues dev m s)
    (hfree : moved = true → m.registers.pc ∉ breakpoints)
    (hlog : Logged breakpoints false m.registers.pc log) :
    Logged breakpoints moved m.registers.pc (m.ending (m.step dev s).result ++ log) := by
  have hended (moved : Bool) (hfree : moved = true → m.registers.pc ∉ breakpoints) :
      Logged breakpoints moved m.registers.pc (.ended (m.step dev s).result :: log) :=
    .ended (fun p c hr => absurd hr (h.step_ne_breakpoint dev s c))
      (fun hmoved hp => absurd hp (hfree hmoved)) hlog
  unfold ending
  split
  · next a c hfinal hresult =>
    -- the machine has just halted where it stands
    have hpc : Address.toInt a = m.registers.pc := by
      rcases h.outcome_of_step hresult with hgo | ⟨_, _, hwait⟩ | hover
      · exact absurd hgo hstop
      · cases hresult.symm.trans hwait
      · have haddress := (h.step dev s).final _ hover
        rw [(registers_of_not_continues h hstop).1] at haddress
        exact haddress
    rw [← hpc] at hfree hended ⊢
    exact .halted hfree (hended false (by simp))
  · exact hended moved hfree

/-- **The rest of a run is logged**, and before what is logged from its end on. -/
theorem logged_runFrom (dev : Device σ ε) (budget : Int) : ∀ (left : Nat) (first : Bool)
    (notes : Array Note) (m : Machine) (s : σ), m.Sound → (first = false → m.final = none) →
      let t := runFrom dev budget left first notes m s
      m.registers.steps ≤ t.machine.registers.steps ∧
        ∀ log, Logged m.breakpoints false t.machine.registers.pc log →
          Logged m.breakpoints (!first) m.registers.pc
            (m.eventsUntil dev s t.machine.registers.steps t.result ++ log)
  | 0, first, notes, m, s, h, _ => by
    refine ⟨Int.le_refl _, fun log hlog => ?_⟩
    obtain ⟨a, hpc⟩ := h.exists_address
    rw [runFrom]
    dsimp only
    rw [eventsUntil_self, ending_here hpc (by decide)]
    exact .ended (by simp) (fun _ _ => ⟨a, m.memory.read a, hpc.symm, .inr rfl⟩) hlog
  | left + 1, first, notes, m, s, h, hfirst => by
    obtain ⟨a, hpc⟩ := h.exists_address
    rw [runFrom]
    split
    · next hb =>
      rw [Bool.and_eq_true] at hb
      refine ⟨Int.le_refl _, fun log hlog => ?_⟩
      rw [eventsUntil_self, ending_here hpc (by decide)]
      exact .ended (fun _ _ _ => hb.1) (fun _ _ => ⟨a, m.memory.read a, hpc.symm, .inl rfl⟩) hlog
    · next hb =>
      -- a run that has moved goes on only where there is no breakpoint
      have hfree : (!first) = true → m.registers.pc ∉ m.breakpoints := by
        intro hmoved
        rw [Bool.not_eq_true, hmoved, Bool.true_and] at hb
        exact not_mem_of_not_atBreakpoint (hfirst (by simpa using hmoved)) hb
      dsimp only
      split
      · next a' c hresult =>
        obtain ⟨f, m', he⟩ := h.exists_executes ⟨a', c, hresult⟩
        have haddress : f.address = a' := by
          rw [he.step_eq] at hresult
          cases hresult
          rfl
        have hfinal := (h.final_of_continues ⟨a', c, hresult⟩).2
        obtain ⟨hcount, hrest⟩ := logged_runFrom dev budget left false
          (notes ++ (m.step dev s).notes.toArray) (m.step dev s).machine (m.step dev s).device
          (h.step dev s) (fun _ => hfinal)
        have hsteps := steps_of_continues h ⟨a', c, hresult⟩
        refine ⟨by omega, fun log hlog => ?_⟩
        rw [breakpoints_step] at hrest
        rw [eventsUntil_of_continued h hresult hcount, List.cons_append]
        have hpc' : m.registers.pc = Address.toInt a' := haddress ▸ he.pc
        rw [hpc'] at hfree ⊢
        exact .executed hfree (hrest log hlog)
      · next hresult =>
        have hstop : ¬ Continues dev m s := by
          rintro ⟨a, c, hc⟩
          exact hresult a c hc
        obtain ⟨hregisters, -, -⟩ := registers_of_not_continues h hstop
        dsimp only
        rw [hregisters]
        refine ⟨Int.le_refl _, fun log hlog => ?_⟩
        rw [eventsUntil_self]
        exact h.logged_ending hstop hfree hlog

/-- **Runs one after another are logged.** -/
theorem logged_runLog (dev : Device σ ε) : ∀ (errands : List (Errand σ)) (m : Machine) (s : σ),
    m.Sound → Logged m.breakpoints false m.registers.pc (runLog dev errands m s)
  | [], m, _, _ => .nil false m.registers.pc
  | x :: errands, m, s, h => by
    have hbreakpoints : (m.run dev x.budget (x.change s)).machine.breakpoints = m.breakpoints :=
      run_invariant (P := fun m' _ => m'.breakpoints = m.breakpoints)
        (fun m' s hm => (breakpoints_step dev m' s).trans hm) x.budget rfl
    have hrest := logged_runLog dev errands (m.run dev x.budget (x.change s)).machine
      (m.run dev x.budget (x.change s)).device (h.run dev x.budget _)
    rw [hbreakpoints] at hrest
    exact (logged_runFrom dev x.budget x.budget.toNat true #[] m (x.change s) h (by simp)).2 _ hrest

/-! ## 4. Missed breakpoints -/

/-- **Which breakpoints are missed.**  On every memory, with every device, whatever input comes
between the runs, and whatever the budgets are: an instruction leads to a breakpoint and the
instruction there is executed afterwards without a run that ended with the breakpoint between them,
exactly when the instruction that led there used up the budget of its run and an instruction is
executed afterwards. -/
theorem missed_iff_spent (dev : Device σ ε) (memory : Memory) (breakpoints : List Int) (s : σ)
    (errands : List (Errand σ)) (p : Address) :
    let log := runLog dev errands { start memory with breakpoints := breakpoints } s
    Missed breakpoints log p ↔ SpentOnArrival breakpoints log p := by
  have hsound : ({ start memory with breakpoints := breakpoints } : Machine).Sound :=
    sound_of_fresh rfl rfl
  exact (logged_runLog dev errands _ s hsound).missed_iff

/-- Two runs of one instruction each, on the program `500 500 000` with a breakpoint at address 1. -/
def shortErrands : List (RunEvent Empty) :=
  runLog Scripted.device [⟨id, 1⟩, ⟨id, 1⟩]
    { start (.ofList [500, 500, 0]) with breakpoints := [1] } {}

/-- **The second run executes the instruction at the breakpoint**, and nobody was told. -/
theorem breakpoint_missed : Missed [1] shortErrands 1 := by
  refine ⟨by decide, [], 0, [.ended (.ok ⟨.timeout, 1, 500⟩)], .executed 1 2,
    [.ended (.ok ⟨.timeout, 2, 0⟩)], rfl, .executed 2, ?_⟩
  simp

end Machine
end MinionComputer
