/-
# One machine and two devices

A plain machine asks its device for numbers and hands it numbers, nothing else.  So if two devices
give the same numbers, it cannot tell them apart, and a run with one is a run with the other.  The
first device may also be late: it may have no number yet where the second has one.  Then the run
with the first waits at a place that the run with the second passes.

* `Device.Follows`: what the two devices have to do with each other;
* `Machine.turnsFollow_step`: one step;
* `Machine.runsFollow_runFrom`, `Machine.Plain.run_same`: a run.
-/
import MinionComputer.Proofs.Machine.Mode

namespace MinionComputer

variable {σ ε τ δ : Type}

/-! ## 1. Devices -/

/-- The first device gives the numbers that the second gives and takes what the second takes, and
`R` is kept.  Where it has no number yet, `late` may hold of it then and of the second device, which
was not asked. -/
structure Device.Follows (dev : Device σ ε) (dev' : Device τ δ) (R late : σ → τ → Prop) : Prop where
  requestNumber : ∀ s q, R s q →
    (∃ x, (dev.requestNumber s).value = .ok x ∧ (dev'.requestNumber q).value = .ok x ∧
      R (dev.requestNumber s).state (dev'.requestNumber q).state) ∨
    (dev.requestNumber s).value = .ok none ∧ late (dev.requestNumber s).state q
  emitNumber : ∀ n s q, R s q → (dev.emitNumber n s).value = .ok () ∧
    (dev'.emitNumber n q).value = .ok () ∧ R (dev.emitNumber n s).state (dev'.emitNumber n q).state

namespace Machine

variable {dev : Device σ ε} {dev' : Device τ δ} {R late : σ → τ → Prop} {m : Machine} {s : σ} {q : τ}

/-! ## 2. One instruction -/

/-- The answers of the two devices to one instruction, of which the second is not looked at if the
first is late; `q` is the second device before it. -/
inductive AnswersFollow (R late : σ → τ → Prop) (q : τ) :
    Answer σ ε (Option Machine) → Answer τ δ (Option Machine) → Prop
  | same {a : Answer σ ε (Option Machine)} {a' : Answer τ δ (Option Machine)} (x : Option Machine)
      (h : a.value = .ok x) (h' : a'.value = .ok x) (hR : R a.state a'.state) :
      AnswersFollow R late q a a'
  | late {a : Answer σ ε (Option Machine)} {a' : Answer τ δ (Option Machine)}
      (h : a.value = .ok none) (hlate : late a.state q) : AnswersFollow R late q a a'

theorem AnswersFollow.quiet (hR : R s q) (m : Machine) :
    AnswersFollow (ε := ε) (δ := δ) R late q (.quiet s (.ok (some m))) (.quiet q (.ok (some m))) :=
  .same (some m) rfl rfl hR

/-- A number that comes is used in the same way. -/
theorem answersFollow_readNumber (hdev : dev.Follows dev' R late) (hR : R s q) (m : Machine) :
    AnswersFollow R late q (m.perform dev s .readNumber) (m.perform dev' q .readNumber) := by
  rcases hdev.requestNumber s q hR with ⟨x, hx, hx', hstate⟩ | ⟨hnone, hlate⟩
  · simp only [perform, hx, hx']
    cases x with
    | none => exact .same none rfl rfl hstate
    | some n => exact .same _ rfl rfl hstate
  · simp only [perform, hnone]
    exact .late rfl hlate

/-- **An instruction for numbers comes to the same with either device, or the first is late.** -/
theorem answersFollow_perform (hdev : dev.Follows dev' R late) (hR : R s q) (m : Machine)
    {i : Instruction} (hread : i ≠ .readCharacter) (hwrite : i ≠ .writeCharacter) :
    AnswersFollow R late q (m.perform dev s i) (m.perform dev' q i) := by
  cases i with
  | readCharacter => exact absurd rfl hread
  | writeCharacter => exact absurd rfl hwrite
  | readNumber => exact answersFollow_readNumber hdev hR m
  | writeNumber =>
    obtain ⟨hvalue, hvalue', hstate⟩ := hdev.emitNumber (Cell.toInt m.registers.cell) s q hR
    refine .same (some m) ?_ ?_ hstate
    · simp only [perform, Answer.map, hvalue]
      rfl
    · simp only [perform, Answer.map, hvalue']
      rfl
  | _ => exact .same _ rfl rfl hR

/-! ## 3. One step -/

/-- What holds of a machine in a plain run without breakpoints. -/
structure Plain (m : Machine) : Prop where
  sound : m.Sound
  extended : m.extended = false
  breakpoints : m.breakpoints = []

theorem Plain.start {memory : Memory} (h : memory.read 0 ≠ 10) : (start memory).Plain where
  sound := sound_of_fresh rfl rfl
  extended := beq_false_of_ne h
  breakpoints := rfl

theorem Plain.step (h : m.Plain) (dev : Device σ ε) (s : σ) : (m.step dev s).machine.Plain := by
  have hsetting := sameSetting_step dev m s
  exact ⟨h.sound.step dev s, hsetting.extended.trans h.extended,
    hsetting.breakpoints.trans h.breakpoints⟩

theorem Plain.run (h : m.Plain) (dev : Device σ ε) (budget : Int) (s : σ) :
    (m.run dev budget s).machine.Plain := by
  refine run_invariant (P := fun m _ => m.Plain) ?_ budget h
  intro m s hm
  exact hm.step dev s

/-- What a plain machine fetches is no instruction for characters. -/
theorem Plain.numeric (h : m.Plain) {a : Address} {f : Fetched} (hf : m.Fetches a f) :
    f.instruction ≠ .readCharacter ∧ f.instruction ≠ .writeCharacter := by
  have hdigits := digits_ofCell m.extended (m.memory.read a)
  rw [hf.meaning, h.extended] at hdigits
  generalize f.instruction = i at hdigits
  constructor
  · rintro rfl
    cases hdigits with
    | readCharacter hextended _ => cases hextended
  · rintro rfl
    cases hdigits with
    | writeCharacter hextended _ => cases hextended

/-- What a step comes to with the two devices; `m` and `q` are the machine and the second device
before it. -/
inductive TurnsFollow (R late : σ → τ → Prop) (m : Machine) (q : τ) :
    Turn σ ε → Turn τ δ → Prop
  | same {t : Turn σ ε} {t' : Turn τ δ} (r : StepResult) (hmachine : t'.machine = t.machine)
      (h : t.result = .ok r) (h' : t'.result = .ok r) (hR : R t.device t'.device) :
      TurnsFollow R late m q t t'
  | late {t : Turn σ ε} {t' : Turn τ δ} (a : Address) (c : Cell) (hmachine : t.machine = m)
      (h : t.result = .ok ⟨.awaitingInput, a, c⟩) (hlate : late t.device q) :
      TurnsFollow R late m q t t'

theorem turnsFollow_execute (hdev : dev.Follows dev' R late) (hR : R s q) (m : Machine)
    {f : Fetched} (hread : f.instruction ≠ .readCharacter)
    (hwrite : f.instruction ≠ .writeCharacter) :
    TurnsFollow R late m q (m.execute dev s f) (m.execute dev' q f) := by
  have hanswers := answersFollow_perform hdev hR m hread hwrite
  unfold execute
  split
  · exact .same _ rfl rfl rfl hR
  · split
    · exact .same _ rfl rfl rfl hR
    · generalize m.perform dev s f.instruction = a at hanswers
      generalize m.perform dev' q f.instruction = a' at hanswers
      cases hanswers with
      | same x h h' hstate =>
        simp only [h, h']
        cases x with
        | none => exact .same _ rfl rfl rfl hstate
        | some m' => exact .same _ rfl rfl rfl hstate
      | late h hlate =>
        simp only [h]
        exact .late _ _ rfl rfl hlate

/-- **A plain step comes to the same with either device, or the first is late.** -/
theorem turnsFollow_step (hdev : dev.Follows dev' R late) (h : m.Plain) (hR : R s q) :
    TurnsFollow R late m q (m.step dev s) (m.step dev' q) := by
  cases hfinal : m.final with
  | some r =>
    rw [step_of_final dev s hfinal, step_of_final dev' q hfinal]
    exact .same r rfl rfl rfl hR
  | none =>
    obtain ⟨a, hpc⟩ := h.sound.exists_address
    cases hi : Instruction.ofCell m.extended (m.memory.read a) with
    | none =>
      rw [step_eq_finish dev s hfinal hpc hi, step_eq_finish dev' q hfinal hpc hi]
      exact .same _ rfl rfl rfl hR
    | some i =>
      have hf : m.Fetches a ⟨a, m.memory.read a, i⟩ := ⟨rfl, rfl, hi⟩
      obtain ⟨hread, hwrite⟩ := h.numeric hf
      rw [step_eq_execute dev s hfinal hpc hf, step_eq_execute dev' q hfinal hpc hf]
      exact turnsFollow_execute hdev hR m hread hwrite

/-! ## 4. A run -/

/-- What a run of `left` steps from `m` comes to with the two devices.  If the first is late, its run
waits, and what is left of the other goes on from there with as many steps as there are left. -/
inductive RunsFollow (R late : σ → τ → Prop) (dev' : Device τ δ) (budget' : Int) (left : Nat)
    (m : Machine) : Turn σ ε → Turn τ δ → Prop
  | same {t : Turn σ ε} {t' : Turn τ δ} (r : StepResult) (hmachine : t'.machine = t.machine)
      (h : t.result = .ok r) (h' : t'.result = .ok r) (hR : R t.device t'.device) :
      RunsFollow R late dev' budget' left m t t'
  | late {t : Turn σ ε} {t' : Turn τ δ} (a : Address) (c : Cell) (left' : Nat) (first' : Bool)
      (notes' : Array Note) (q : τ) (h : t.result = .ok ⟨.awaitingInput, a, c⟩)
      (hlate : late t.device q)
      (hleft : (left' : Int) + t.machine.registers.steps = left + m.registers.steps)
      (ht' : t' = runFrom dev' budget' left' first' notes' t.machine q) :
      RunsFollow R late dev' budget' left m t t'

/-- Without breakpoints a run goes on after a step that goes on. -/
theorem Plain.runFrom_of_continued (h : m.Plain) {a : Address} {c : Cell}
    (hresult : (m.step dev s).result = .ok ⟨.continued, a, c⟩) (budget : Int) (left : Nat)
    (first : Bool) (notes : Array Note) : runFrom dev budget (left + 1) first notes m s =
      runFrom dev budget left false (notes ++ (m.step dev s).notes.toArray)
        (m.step dev s).machine (m.step dev s).device := by
  have hnobreak : (!first && m.atBreakpoint) = false := by
    simp [atBreakpoint, h.breakpoints]
  rw [runFrom, hnobreak]
  simp only [hresult]
  rfl

/-- It ends with a step that does not. -/
theorem Plain.runFrom_of_stopped (h : m.Plain) {r : StepResult}
    (hresult : (m.step dev s).result = .ok r) (hr : r.outcome ≠ .continued) (budget : Int)
    (left : Nat) (first : Bool) (notes : Array Note) :
    runFrom dev budget (left + 1) first notes m s =
      { m.step dev s with notes := (notes ++ (m.step dev s).notes.toArray).toList } := by
  have hnobreak : (!first && m.atBreakpoint) = false := by
    simp [atBreakpoint, h.breakpoints]
  obtain ⟨outcome, a, c⟩ := r
  rw [runFrom, hnobreak]
  cases outcome with
  | continued => exact absurd rfl hr
  | _ =>
    simp only [hresult]
    rfl

/-- **A plain run comes to the same with either device, or the first is late.** -/
theorem runsFollow_runFrom (hdev : dev.Follows dev' R late) (budget budget' : Int) (left : Nat)
    (first first' : Bool) (notes notes' : Array Note) (h : m.Plain) (hR : R s q) :
    RunsFollow R late dev' budget' left m (runFrom dev budget left first notes m s)
      (runFrom dev' budget' left first' notes' m q) := by
  induction left generalizing first first' notes notes' m s q with
  | zero =>
    obtain ⟨a, hpc⟩ := h.sound.exists_address
    exact .same _ rfl (here_eq hpc .timeout) (here_eq hpc .timeout) hR
  | succ left ih =>
    have hturns := turnsFollow_step hdev h hR
    cases hturns with
    | late a c hmachine hresult hlate =>
      rw [h.runFrom_of_stopped hresult (by simp)]
      refine .late a c (left + 1) first' notes' q hresult hlate ?_ ?_
      · exact congrArg (fun m : Machine => ((left + 1 : Nat) : Int) + m.registers.steps) hmachine
      · exact congrArg (fun m => runFrom dev' budget' (left + 1) first' notes' m q) hmachine.symm
    | same r hmachine hresult hresult' hdevice =>
      obtain ⟨outcome, a, c⟩ := r
      by_cases hgoes : outcome = .continued
      · subst hgoes
        have hcount := steps_of_continues h.sound ⟨a, c, hresult⟩
        rw [h.runFrom_of_continued hresult, h.runFrom_of_continued hresult', hmachine]
        have hrest := ih false false (notes ++ (m.step dev s).notes.toArray)
          (notes' ++ (m.step dev' q).notes.toArray) (h.step dev s) hdevice
        cases hrest with
        | same r hm h h' hR => exact .same r hm h h' hR
        | late a c left' first' notes' q' h hlate hleft ht' =>
          refine .late a c left' first' notes' q' h hlate ?_ ht'
          rw [hleft, hcount]
          omega
      · rw [h.runFrom_of_stopped hresult hgoes, h.runFrom_of_stopped hresult' hgoes]
        exact .same _ hmachine hresult hresult' hdevice

/-- **A plain run with a device that is never late comes to the same with either device.** -/
theorem Plain.run_same (hdev : dev.Follows dev' R fun _ _ => False) (h : m.Plain) (hR : R s q)
    (budget : Int) : ∃ r, (m.run dev budget s).result = .ok r ∧
      (m.run dev' budget q).result = .ok r ∧
      (m.run dev budget s).machine = (m.run dev' budget q).machine ∧
      R (m.run dev budget s).device (m.run dev' budget q).device := by
  have hruns := runsFollow_runFrom hdev budget budget budget.toNat true true #[] #[] h hR
  cases hruns with
  | same r hmachine hresult hresult' hdevice => exact ⟨r, hresult, hresult', hmachine.symm, hdevice⟩
  | late _ _ _ _ _ _ _ hlate _ _ => exact hlate.elim

end Machine
end MinionComputer
