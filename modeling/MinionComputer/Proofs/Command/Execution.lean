/-
# What comes of an execution

An execution succeeds exactly when a machine that begins on the memory comes to a halt within the
budget, and every other end has its own way to fail.  None of this depends on whether a trace is
kept.  A port that was opened for the execution is given back whatever the end is.

What arrives on a line, and when, is not known beforehand.  So the results are stated for anything
that can stand around a program: a device that answers on behalf of a handler, and what becomes of
it when something arrives while the program waits.

* `Environment`: what stands around a program, and `Environment.execute`: an execution in it;
* `ExecutionEnd`: how an execution ends;
* `Environment.Contract`: what is promised of an execution;
* `Environment.execution_contract`: it is kept.
-/
import MinionComputer.Command.Task
import MinionComputer.Proofs.Command.Waiting
import MinionComputer.Proofs.Device.Scripted
import MinionComputer.Proofs.Machine.Print
import MinionComputer.Proofs.Machine.Tracing

namespace MinionComputer

variable {σ α : Type}

/-! ## 1. Lines in use -/

/-- The handler is a serial line whose port is in use. -/
def Handler.OnLine (h : Handler) : Prop := ∃ l : SerialLine, h = .serial l ∧ l.attached = true

namespace SerialLine

theorem attached_requestNumber (l : SerialLine) :
    (requestNumber l).state.attached = l.attached := by
  unfold requestNumber
  split <;> rfl

theorem attached_requestCharacter (l : SerialLine) :
    (requestCharacter l).state.attached = l.attached := by
  unfold requestCharacter
  split
  · rfl
  · dsimp only
    split <;> rfl

theorem attached_send (bs : List UInt8) (l : SerialLine) :
    (send bs l).state.attached = l.attached := by
  unfold send
  split <;> rfl

end SerialLine

namespace Handler

/-- A line in use stays in use, whatever it is asked. -/
theorem keeps_onLine : device.Keeps OnLine where
  requestNumber := by
    rintro _ ⟨l, rfl, hl⟩
    exact ⟨_, rfl, l.attached_requestNumber.trans hl⟩
  requestCharacter := by
    rintro _ ⟨l, rfl, hl⟩
    exact ⟨_, rfl, l.attached_requestCharacter.trans hl⟩
  emitNumber := by
    rintro n _ ⟨l, rfl, hl⟩
    exact ⟨_, rfl, (l.attached_send _).trans hl⟩
  emitCharacter := by
    rintro code _ ⟨l, rfl, hl⟩
    exact ⟨_, rfl, (l.attached_send _).trans hl⟩

theorem OnLine.receive {h : Handler} (hline : h.OnLine) (bs : List UInt8) :
    (receive bs h).OnLine := by
  obtain ⟨l, rfl, hl⟩ := hline
  exact ⟨l.feed bs, rfl, hl⟩

/-- A line in use that is given back is not in use, and its port is closed. -/
theorem OnLine.release {h : Handler} (hline : h.OnLine) : ∃ l : SerialLine,
    (release h).2 = .serial l ∧ l.attached = false ∧ l.port.isOpen = false := by
  obtain ⟨l, rfl, hl⟩ := hline
  exact ⟨l.disconnect.state, rfl, rfl, by simp [SerialLine.disconnect, hl]⟩

end Handler

/-! ## 2. Executions in an environment -/

/-- What stands around a program: a device, what becomes of it when something arrives, and the
handler on whose behalf it answers.  If that is a line in use, it stays so. -/
structure Environment (σ α : Type) where
  device : Device σ HandlerFault
  receive : α → σ → σ
  handler : σ → Handler
  keeps_onLine : device.Keeps fun x => (handler x).OnLine
  receive_onLine : ∀ a x, (handler x).OnLine → (handler (receive a x)).OnLine

/-- The handlers by themselves, to which bytes arrive. -/
def Handler.environment : Environment Handler (List UInt8) where
  device := Handler.device
  receive := MinionComputer.receive
  handler := id
  keeps_onLine := Handler.keeps_onLine
  receive_onLine := fun bs _ h => h.receive bs

/-- Executes a program, to which `arrivals` come one after another while it waits. -/
def Environment.execute (env : Environment σ α) (s : Settings) (memory : Memory) (x : σ)
    (opened : Bool) (arrivals : List α) : Execution :=
  let m := (Machine.start memory).setTracing s.tracing
  let d := drive env.device env.receive s.maxSteps opened arrivals m x
  let handler := env.handler d.device
  let (closing, handler') := if opened then release handler else ([], handler)
  let said := if s.tracing then d.machine.traceText ++ ['\n'] else []
  let (judging, result) := judge s.maxSteps d.machine.registers.steps d.result
  ⟨d.machine, handler', m.startNote :: d.notes ++ closing ++ judging, d.naps, said, result⟩

/-- The program executes its programs in the environment of the handlers, where nothing arrives
that has not been there from the beginning. -/
theorem Handler.execute_environment (s : Settings) (memory : Memory) (h : Handler) (opened : Bool) :
    environment.execute s memory h opened [] = execute s memory h opened := rfl

/-! ## 3. Ends -/

/-- How an execution ends with `left` steps left, where the machine stands at `m` with `x` and
`arrivals` are still to come. -/
inductive ExecutionEnd (dev : Device σ HandlerFault) (polling : Bool) (maxSteps : Int) (left : Nat)
    (arrivals : List α) (m : Machine) (x : σ) : Except ExecutionFault Unit → Prop
  /-- The next step halts. -/
  | halted {a : Address} {c : Cell} (hleft : 0 < left)
      (hr : (m.step dev x).result = .ok ⟨.halted, a, c⟩) :
      ExecutionEnd dev polling maxSteps left arrivals m x (.ok ())
  /-- The next step is wrong: its cell has no meaning, or there is no instruction after it. -/
  | wrong {r : StepResult} (hleft : 0 < left) (hr : (m.step dev x).result = .ok r)
      (hwrong : r.outcome.isError = true) :
      ExecutionEnd dev polling maxSteps left arrivals m x (.error (.refused r.message))
  /-- The budget is used up. -/
  | timeout {r : StepResult} (hleft : left = 0)
      (hr : (m.here .timeout : Except (StepFault HandlerFault) StepResult) = .ok r) :
      ExecutionEnd dev polling maxSteps left arrivals m x (.error (.refused
        ("No HLT within " ++ Text.integer maxSteps ++ " steps (" ++ r.message ++ ")")))
  /-- The next step finds no input, and the program is not one that waits. -/
  | unfed {r : StepResult} (hleft : 0 < left) (hpolling : polling = false)
      (hr : (m.step dev x).result = .ok r) (hwait : r.outcome = .awaitingInput) :
      ExecutionEnd dev polling maxSteps left arrivals m x (.error (.refused
        ("Input ended while the program was waiting for it (" ++ r.message ++ ")")))
  /-- The device fails in the next step. -/
  | raised {f : HandlerFault} (hleft : 0 < left) (hr : (m.step dev x).result = .error (.device f)) :
      ExecutionEnd dev polling maxSteps left arrivals m x (.error (.drive (.step (.device f))))
  /-- The program waits, and nothing more arrives. -/
  | starved (hleft : 0 < left) (hpolling : polling = true) (hwait : m.Awaits dev x)
      (hnone : arrivals = []) :
      ExecutionEnd dev polling maxSteps left arrivals m x (.error (.drive .starved))

variable {dev : Device σ HandlerFault} {receive : α → σ → σ} {polling : Bool} {maxSteps : Int}
  {left : Nat} {arrivals : List α} {m : Machine} {x : σ} {d : Drive σ HandlerFault}

/-- How a run that waits ends is how the execution ends whose run it is. -/
theorem DriveEnd.execution (h : DriveEnd dev polling left arrivals m x d) (hm : m.Sound)
    (steps : Int) :
    ExecutionEnd dev polling maxSteps left arrivals m x (judge maxSteps steps d.result).2 := by
  cases h with
  | timeout hleft _ _ hr =>
    obtain ⟨a, hpc⟩ := hm.exists_address
    have hhere : (m.here .timeout : Except (StepFault HandlerFault) StepResult) =
        .ok ⟨.timeout, a, m.memory.read a⟩ := Machine.here_eq hpc .timeout
    rw [hr, hhere]
    exact .timeout hleft hhere
  | starved hleft hpolling hwait hnone _ _ hr =>
    rw [hr]
    exact .starved hleft hpolling hwait hnone
  | stop hleft hgo hwait _ _ hr =>
    rw [hr]
    obtain ⟨r, hfinal, hrepeat⟩ | ⟨_, a, _, hcase⟩ := hm.step_cases dev x
    · -- the run was over before, with the result that ended it
      have hresult : (m.step dev x).result = .ok r := congrArg Turn.result hrepeat
      have hterminal := hm.terminal r hfinal
      rw [hresult]
      obtain ⟨o, a, c⟩ := r
      cases o with
      | halted => exact .halted hleft hresult
      | invalidInstruction | reachedEnd => exact .wrong hleft hresult rfl
      | _ => exact absurd hterminal Bool.false_ne_true
    · generalize ht : m.step dev x = t at hcase
      have hresult : (m.step dev x).result = t.result := congrArg Turn.result ht
      cases hcase with
      | invalid _ => exact .wrong hleft hresult rfl
      | halt _ _ => exact .halted hleft hresult
      | reachEnd _ _ _ => exact .wrong hleft hresult rfl
      | fail _ _ _ _ => exact .raised hleft hresult
      | @wait f _ _ _ _ =>
        have hpolling : polling = false :=
          Bool.eq_false_iff.mpr fun h => hwait ⟨h, _, _, hresult⟩
        exact .unfed hleft hpolling hresult rfl
      | go _ _ _ _ => exact absurd ⟨_, _, hresult⟩ hgo

/-- A run that has ended has executed the instructions that were counted. -/
theorem DriveEnd.steps (h : DriveEnd dev polling left arrivals m x d) (hm : m.Sound) :
    d.machine.registers.steps = m.registers.steps := by
  cases h with
  | timeout _ hd _ _ => rw [hd]
  | stop _ hgo _ hd _ _ =>
    rw [hd, (Machine.registers_of_not_continues hm hgo).1]
  | starved _ _ hwait _ hd _ _ =>
    rw [hd, (Machine.registers_of_not_continues hm hwait.not_continues).1]

/-- What a step keeps of a device holds where a run has ended if it holds where the run stood. -/
theorem DriveEnd.keeps {P : σ → Prop} (h : DriveEnd dev polling left arrivals m x d)
    (hdev : dev.Keeps P) (hx : P x) : P d.device := by
  cases h with
  | timeout _ _ hd _ => exact hd.symm ▸ hx
  | stop _ _ _ _ hd _ => exact hd.symm ▸ Machine.keeps_step hdev m hx
  | starved _ _ _ _ _ hd _ => exact hd.symm ▸ Machine.keeps_step hdev m hx

/-- What came of a run, with the trace of the machine taken away. -/
def Drive.untraced {ε : Type} (d : Drive σ ε) : Drive σ ε := { d with machine := d.machine.untraced }

/-- The run that waits of a machine without its trace is its run with the trace taken away. -/
theorem drive_untraced : ∀ (arrivals : List α) (m : Machine) (x : σ),
    drive dev receive maxSteps polling arrivals m.untraced x =
      (drive dev receive maxSteps polling arrivals m x).untraced := by
  intro arrivals m x
  have hrun : m.untraced.run dev (maxSteps - m.untraced.registers.steps) x =
      (m.run dev (maxSteps - m.registers.steps) x).untraced := Machine.run_untraced dev m x _
  generalize ht : m.run dev (maxSteps - m.registers.steps) x = t at hrun
  by_cases hwaiting : (polling && isWaiting t.result) = true
  · cases arrivals with
    | nil =>
      rw [drive_of_starved ht hwaiting, drive_of_starved hrun hwaiting]
      rfl
    | cons a rest =>
      rw [drive_of_waiting ht hwaiting, drive_of_waiting hrun hwaiting]
      have ih := drive_untraced rest t.machine (receive a t.device)
      simp only [Turn.untraced, ih, Drive.untraced]
  · have hdone := Bool.eq_false_iff.mpr hwaiting
    rw [drive_of_done ht hdone, drive_of_done hrun hdone]
    rfl
termination_by arrivals => arrivals.length

/-! ## 4. The contract -/

namespace Environment

/-- A new machine on the memory halts: steps that go on lead to one that halts, which is one of the
first `limit`.  If a line was `opened`, other steps may wait between them, and do not count. -/
def HaltsWithin (env : Environment σ α) (limit : Int) (memory : Memory) (x : σ) (opened : Bool)
    (arrivals : List α) : Prop :=
  ∃ (n : Nat) (later : List α) (m : Machine) (x' : σ) (a : Address) (c : Cell), (n : Int) < limit ∧
    Lasts env.device env.receive opened n arrivals (.start memory) x later m x' ∧
      (m.step env.device x').result = .ok ⟨.halted, a, c⟩

/-- What is promised of an execution on the memory, with at most as many steps as the settings
allow, in an environment that begins with `x` and to which `arrivals` come. -/
structure Contract (env : Environment σ α) (s : Settings) (memory : Memory) (x : σ) (opened : Bool)
    (arrivals : List α) (e : Execution) : Prop where
  /-- It succeeds exactly when the machine halts within the steps that it may take. -/
  halts : statusOf e.result = .ok 0 ↔ env.HaltsWithin s.maxSteps memory x opened arrivals
  /-- It gives no other status. -/
  status : ∀ code, statusOf e.result = .ok code → code = 0
  /-- It takes such steps, at most as many that go on as it may, and then ends in one of the ways. -/
  ends : ∃ n later m x',
    Lasts env.device env.receive opened n arrivals (.start memory) x later m x' ∧
      n ≤ s.maxSteps.toNat ∧ e.machine.registers.steps = n ∧
        ExecutionEnd env.device opened s.maxSteps (s.maxSteps.toNat - n) later m x' e.result
  /-- A line that was opened for it is given back. -/
  closed : opened = true → (env.handler x).OnLine →
    ∃ l : SerialLine, e.handler = .serial l ∧ l.attached = false ∧ l.port.isOpen = false
  /-- It tells nothing if it keeps no trace. -/
  silent : s.tracing = false → e.said = []
  /-- If it keeps one, it tells its lines, each of them once and in their order, and nothing else. -/
  said : s.tracing = true →
    e.said = Text.joinWith '\n' (Text.lines e.machine.traceText) ++ ['\n'] ∧
      List.Forall₂ TraceLine.Prints e.machine.trace.toList (Text.lines e.machine.traceText)

variable {env : Environment σ α} {s : Settings} {memory : Memory} {opened : Bool}

/-- An execution succeeds exactly when its run halts. -/
theorem statusOf_judge_iff {steps : Int} {r : Except (DriveFault HandlerFault) StepResult} :
    statusOf (judge maxSteps steps r).2 = .ok 0 ↔ ∃ a c, r = .ok ⟨.halted, a, c⟩ := by
  rcases r with ((_ | _) | _) | ⟨o, a, c⟩
  · simp [judge, statusOf]
  · simp [judge, statusOf]
  · simp [judge, statusOf]
  · cases o <;> simp [judge, verdict, statusOf]

theorem eq_zero_of_statusOf {r : Except ExecutionFault Unit} {code : Nat}
    (h : statusOf r = .ok code) : code = 0 := by
  rcases r with (_ | ((_ | _) | _)) | _ <;> cases h
  rfl

/-- A new machine halts within a budget exactly when its run with that budget ends with the halt. -/
theorem haltsWithin_iff {limit : Int} {x : σ} : env.HaltsWithin limit memory x opened arrivals ↔
    ∃ a c, (drive env.device env.receive limit opened arrivals (.start memory) x).result =
      .ok ⟨.halted, a, c⟩ := by
  have hsound : (Machine.start memory).Sound := Machine.sound_of_fresh rfl rfl
  have hbudget : limit - (Machine.start memory).registers.steps = limit := Int.sub_zero _
  simp only [drive_halts_iff hsound rfl, hbudget]
  constructor
  · rintro ⟨n, later, m, x', a, c, hn, hlasts, hstep⟩
    exact ⟨a, c, n, later, m, x', Int.lt_toNat.mpr hn, hlasts, hstep⟩
  · rintro ⟨a, c, n, later, m, x', hn, hlasts, hstep⟩
    exact ⟨n, later, m, x', a, c, Int.lt_toNat.mp hn, hlasts, hstep⟩

/-- A line in use stays so through any steps, and whatever arrives between them. -/
theorem onLine_of_lasts {n : Nat} {later : List α} {m' : Machine} {x x' : σ}
    (h : Lasts env.device env.receive polling n arrivals m x later m' x')
    (hline : (env.handler x).OnLine) : (env.handler x').OnLine :=
  h.invariant (P := fun _ x => (env.handler x).OnLine)
    (fun m _ h => Machine.keeps_step env.keeps_onLine m h)
    (fun a _ x h => env.receive_onLine a x h) hline

/-- **An execution keeps its contract.** -/
theorem contract_execute (env : Environment σ α) (s : Settings) (memory : Memory) (x : σ)
    (opened : Bool) (arrivals : List α) :
    env.Contract s memory x opened arrivals (env.execute s memory x opened arrivals) := by
  have hsound : (Machine.start memory).Sound := Machine.sound_of_fresh rfl rfl
  -- the run without a trace comes to the same, so everything is read off that
  generalize hd : drive env.device env.receive s.maxSteps opened arrivals
    ((Machine.start memory).setTracing s.tracing) x = d
  have hplain : drive env.device env.receive s.maxSteps opened arrivals (.start memory) x =
      d.untraced := by
    rw [← hd, ← drive_untraced, Machine.untraced_setTracing_start]
  have hresult : (env.execute s memory x opened arrivals).result =
      (judge s.maxSteps d.machine.registers.steps d.result).2 := by
    rw [← hd]
    rfl
  have hmachine : (env.execute s memory x opened arrivals).machine = d.machine := by
    rw [← hd]
    rfl
  have hsaid : (env.execute s memory x opened arrivals).said =
      if s.tracing then d.machine.traceText ++ ['\n'] else [] := by
    rw [← hd]
    rfl
  have hbudget : s.maxSteps - (Machine.start memory).registers.steps = s.maxSteps := Int.sub_zero _
  obtain ⟨n, later, m, x', hlasts, hsteps, hn, hend⟩ := driveEnd_drive env.device env.receive
    s.maxSteps opened arrivals (.start memory) x hsound rfl
  have hm : m.Sound := hsound.lasts hlasts
  rw [hbudget] at hn hend
  rw [hplain] at hend
  refine ⟨?_, fun code => eq_zero_of_statusOf, ?_, ?_, ?_, ?_⟩
  · rw [hresult, statusOf_judge_iff, haltsWithin_iff, hplain]
    rfl
  · refine ⟨n, later, m, x', hlasts, hn, ?_, ?_⟩
    · rw [hmachine]
      exact (hend.steps hm).trans (hsteps.trans (Int.zero_add _))
    · rw [hresult]
      exact hend.execution hm _
  · rintro rfl hline
    have hleft : (env.handler d.device).OnLine :=
      hend.keeps env.keeps_onLine (onLine_of_lasts hlasts hline)
    have hhandler : (env.execute s memory x true arrivals).handler =
        (release (env.handler d.device)).2 := by
      rw [← hd]
      rfl
    rw [hhandler]
    exact hleft.release
  · intro hsilent
    rw [hsaid, hsilent]
    rfl
  · intro htracing
    refine ⟨?_, Machine.prints_traceText _⟩
    rw [hsaid, htracing, hmachine, Machine.lines_traceText]
    rfl

end Environment

/-- The program's own executions keep the contract. -/
theorem Handler.contract_execute (s : Settings) (memory : Memory) (h : Handler) (opened : Bool) :
    environment.Contract s memory h opened [] (execute s memory h opened) := by
  rw [← execute_environment]
  exact environment.contract_execute s memory h opened []

namespace Environment

end Environment
end MinionComputer
