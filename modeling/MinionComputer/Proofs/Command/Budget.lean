/-
# The budget of a command line

A command line can say how many steps a program may take.  The program then executes at most so many
instructions, and the run ends well exactly when one of so many steps halts.  There is one exception:
zero is read as if nothing had been said, and stands for the usual budget.  So no command line asks
for a run without any step, although a run with a budget of zero executes nothing.

* `Console.runsDry`: a console whose input has ended has none any more;
* `execute_console_iff`: an execution on a console succeeds when one of the steps halts;
* `Program.run_within_budget`: the budget of a command line;
* `Program.zero_budget_runs`: a budget of zero is none.
-/
import MinionComputer.Proofs.Command.Execution
import MinionComputer.Proofs.Command.Status
import MinionComputer.Proofs.Machine.Halting

namespace MinionComputer

/-! ## 1. Consoles run dry -/

namespace Console

/-- The input of the console has ended. -/
structure Dry (c : Console) : Prop where
  lines : c.feed.lines = []
  fault : c.feed.fault = none
  growing : c.feed.growing = false

variable {c : Console}

theorem Dry.prompt (h : c.Dry) (text : String) : (c.prompt text).Dry := by
  have hfeed := feed_prompt c text
  exact ⟨hfeed ▸ h.lines, hfeed ▸ h.fault, hfeed ▸ h.growing⟩

theorem Dry.atEnd (h : c.Dry) : c.atEnd.value = .ok none ∧ c.atEnd.state.Dry := by
  rw [state_atEnd]
  exact ⟨by simp [Console.atEnd, h.fault, h.growing, Answer.quiet], h⟩

/-- Behind the last line nothing is found where the input has ended. -/
theorem dry_of_atEnd (hlines : c.feed.lines = []) (h : c.atEnd.value = .ok none) : c.Dry := by
  unfold Console.atEnd at h
  split at h
  · cases h
  · next hfault =>
    refine ⟨hlines, hfault, ?_⟩
    cases hgrowing : c.feed.growing with
    | false => rfl
    | true => simp [hgrowing, Answer.quiet] at h

theorem dry_of_numberFrom : ∀ (lines : List (List Char)) (c : Console),
    (numberFrom c lines).value = .ok none → (numberFrom c lines).state.Dry
  | [], c, h => by
    unfold numberFrom at h ⊢
    rw [state_atEnd]
    exact dry_of_atEnd rfl h
  | line :: rest, c, h => by
    unfold numberFrom at h ⊢
    dsimp only at h ⊢
    split at h
    · cases h
    · exact dry_of_numberFrom rest _ h

theorem dry_of_requestCharacter (h : (requestCharacter c).value = .ok none) :
    (requestCharacter c).state.Dry := by
  unfold requestCharacter at h ⊢
  dsimp only at h ⊢
  split at h
  · next hlines =>
    rw [state_atEnd]
    exact dry_of_atEnd hlines h
  · cases h

theorem Dry.requestNumber (h : c.Dry) :
    (requestNumber c).value = .ok none ∧ (requestNumber c).state.Dry := by
  unfold Console.requestNumber
  rw [h.lines, numberFrom]
  exact Dry.atEnd ⟨rfl, h.fault, h.growing⟩

theorem Dry.requestCharacter (h : c.Dry) :
    (requestCharacter c).value = .ok none ∧ (requestCharacter c).state.Dry := by
  have hprompt := h.prompt "Input char: "
  unfold Console.requestCharacter
  simp only [hprompt.lines]
  exact hprompt.atEnd

end Console

namespace Handler

/-- The handler is a console whose input has ended. -/
def IsDry (h : Handler) : Prop := ∃ c : Console, h = .console c ∧ c.Dry

/-- **A console whose input has ended has none any more.** -/
theorem runsDry_console (growing : Bool) : device.RunsDry (IsConsole growing) IsDry where
  keeps := (failsOnly_console growing).keeps
  number_dries := by
    rintro _ ⟨c, rfl, -⟩ h
    exact ⟨_, rfl, Console.dry_of_numberFrom c.feed.lines c (Outcome.mapError_eq_ok_iff.mp h)⟩
  character_dries := by
    rintro _ ⟨c, rfl, -⟩ h
    exact ⟨_, rfl, Console.dry_of_requestCharacter (Outcome.mapError_eq_ok_iff.mp h)⟩
  number := by
    rintro _ ⟨c, rfl, hc⟩
    obtain ⟨hvalue, hdry⟩ := hc.requestNumber
    exact ⟨Outcome.mapError_eq_ok_iff.mpr hvalue, _, rfl, hdry⟩
  character := by
    rintro _ ⟨c, rfl, hc⟩
    obtain ⟨hvalue, hdry⟩ := hc.requestCharacter
    exact ⟨Outcome.mapError_eq_ok_iff.mpr hvalue, _, rfl, hdry⟩

end Handler

/-! ## 2. Executions on a console -/

variable {s : Settings} {memory : Memory} {w : World}

/-- **An execution on a console** executes at most as many instructions as it may, and it succeeds
exactly when one of so many steps halts. -/
theorem execute_console_iff (s : Settings) (memory : Memory) (c : Console) :
    let e := execute s memory (.console c) false
    e.machine.registers.steps ≤ max s.maxSteps 0 ∧
      (statusOf e.result = .ok 0 ↔
        ∃ x ∈ Machine.results Handler.device s.maxSteps.toNat (.start memory) (.console c),
          x.outcome = .halted) := by
  have hcontract := Handler.contract_execute s memory (.console c) false
  have hsound : (Machine.start memory).Sound := Machine.sound_of_fresh rfl rfl
  have hwithin := hsound.halts_within_iff (Handler.runsDry_console c.feed.growing)
    s.maxSteps.toNat _ _ ⟨c, rfl, rfl⟩
  refine ⟨?_, hcontract.halts.trans ?_⟩
  · obtain ⟨n, _, _, _, -, hn, hsteps, -⟩ := hcontract.ends
    rw [hsteps]
    omega
  · rw [hwithin]
    constructor
    · rintro ⟨n, later, m, x, a, c', hn, hlasts, hhalts⟩
      exact ⟨n, m, x, a, c', by omega, hlasts.goesOn, hhalts⟩
    · rintro ⟨n, m, x, a, c', hn, hgo, hhalts⟩
      exact ⟨n, [], m, x, a, c', by omega, .after_goesOn hgo (.refl [] m x), hhalts⟩

/-! ## 3. Command lines -/

namespace Program

/-- A run ends well exactly when its deed is done. -/
theorem ending_finish_eq_zero_iff (j : Journal) (v : Verb) (d : Deed) :
    (finish j v d).ending = .status 0 ↔ d.result = .ok 0 := by
  unfold finish
  dsimp only
  split <;> simp_all

theorem out_finish (j : Journal) (v : Verb) (d : Deed) : (finish j v d).out = d.out := by
  unfold finish
  dsimp only
  split <;> rfl

variable {words : List (List Char)} {r : Request} {n : Int} {j : Journal} {files : Files}

/-- A run whose journal can be kept is what comes of its request. -/
theorem run_eq_finish (hr : Request.ofLine words = .ok (some r))
    (hj : Journal.setUpAll {} w.files (setups (.ofOptions r.options)) = .ok (j, files)) :
    run w words = finish j r.verb (r.carryOut { w with files := files } (.ofOptions r.options)) := by
  rw [run_eq hr]
  simp only [runRequest, hj]

/-- **The budget of a command line.**  For every image, every input and every number that is given
as the budget, if the image can be read and the journal be kept: the run is that of an execution
which executes at most as many instructions as the budget allows, and it ends well exactly when one
of so many steps of a new machine on the image and the input halts.  Zero stands for ten thousand. -/
theorem run_within_budget (hr : Request.ofLine words = .ok (some r)) (hverb : r.verb = .run)
    (hport : r.options.port.filter (!·.isEmpty) = none) (hn : r.options.maxSteps = some n)
    (hj : Journal.setUpAll {} w.files (setups (.ofOptions r.options)) = .ok (j, files))
    (hm : (loadImage files r.input).result = .ok memory) :
    let budget := if n = 0 then 10000 else n
    let console : Handler := .console { feed := w.feed, prompting := w.terminal }
    let e := execute (.ofOptions r.options) memory console false
    (run w words).out = outOf e.handler ∧ e.machine.registers.steps ≤ max budget 0 ∧
      ((run w words).ending = .status 0 ↔
        ∃ x ∈ Machine.results Handler.device budget.toNat (.start memory) console,
          x.outcome = .halted) := by
  intro budget console e
  have hbudget : (Settings.ofOptions r.options).maxSteps = budget := by
    by_cases hzero : n = 0 <;>
      simp [Settings.ofOptions, Settings.orUsual, Option.filter, hn, hzero, budget]
  have hconsole : (Settings.ofOptions r.options).port.filter (!·.isEmpty) = none := hport
  obtain ⟨notes, hdeed⟩ : ∃ notes, r.carryOut { w with files := files } (.ofOptions r.options) =
      { Deed.ofExecution files e with notes := notes } := by
    refine ⟨(loadImage files r.input).notes ++ e.notes, ?_⟩
    unfold Request.carryOut
    rw [hverb]
    simp only [carryOutRun, Loaded.andThen, hm, executeProgram, hconsole]
    rfl
  obtain ⟨hsteps, hhalts⟩ := execute_console_iff (.ofOptions r.options) memory
    { feed := w.feed, prompting := w.terminal }
  rw [hbudget] at hsteps hhalts
  rw [run_eq_finish hr hj, hdeed, out_finish, ending_finish_eq_zero_iff]
  exact ⟨rfl, hsteps, hhalts⟩

/-- A directory with the image of the program `902 000`, which writes a zero. -/
def zeroDesk : World where
  files := { here := [], entries := [(["f.bin".toList], .file [0xe1, 0x80])] }
  feed := { lines := [] }

/-- The image is to be executed with that budget. -/
def budgetLine (budget : String) : List (List Char) :=
  ["run", "f.bin", "--max-steps", budget].map String.toList

theorem loadImage_zeroDesk :
    (loadImage zeroDesk.files "f.bin".toList).result = .ok (.ofList [902]) := by
  decide +kernel

/-- A budget of two is enough for the program. -/
theorem two_steps_suffice :
    ∃ r, Request.ofLine (budgetLine "2") = .ok (some r) ∧ r.options.maxSteps = some 2 ∧
      (loadImage zeroDesk.files r.input).result = .ok (.ofList [902]) ∧
        (run zeroDesk (budgetLine "2")).ending = .status 0 := by
  have hline : Request.ofLine (budgetLine "2") = .ok (some _) := rfl
  obtain ⟨-, -, hends⟩ :=
    run_within_budget (w := zeroDesk) hline rfl rfl rfl rfl loadImage_zeroDesk
  exact ⟨_, hline, rfl, loadImage_zeroDesk, hends.mpr ⟨⟨.halted, 1, 0⟩, by decide +kernel, rfl⟩⟩

/-- **A budget of zero is none**: the program is executed and ends well, although none of no steps
halts. -/
theorem zero_budget_runs :
    ∃ r, Request.ofLine (budgetLine "0") = .ok (some r) ∧ r.options.maxSteps = some 0 ∧
      (loadImage zeroDesk.files r.input).result = .ok (.ofList [902]) ∧
      (run zeroDesk (budgetLine "0")).ending = .status 0 ∧
      (run zeroDesk (budgetLine "0")).out = ['0', '\n'] ∧
      ¬ ∃ x ∈ Machine.results Handler.device 0 (.start (.ofList [902]))
        (.console { feed := zeroDesk.feed, prompting := false }), x.outcome = .halted := by
  refine ⟨_, rfl, rfl, loadImage_zeroDesk, ?_, ?_, ?_⟩
  · decide +kernel
  · decide +kernel
  · simp [Machine.results, Machine.steps]

end Program
end MinionComputer
