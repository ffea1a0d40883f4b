/-
# The faults that a run can end with

A machine hands its device only cells and codes of eight bits.  If a device that is handed nothing
else fails only with certain faults, those are the only faults that a run on it can end with.

* `Device.FailsOnly`: a device and the faults it can fail with;
* `Machine.Sound.fault_of_step`, `Machine.Sound.fault_of_run`: the faults of a step and of a run;
* `Console.failsOnly`, `Handler.failsOnly_console`: a console fails only where its input ends.
-/
import MinionComputer.Device.Handler
import MinionComputer.Proofs.Outcome
import MinionComputer.Proofs.Device.Scripted
import MinionComputer.Proofs.Machine.Recorded

namespace MinionComputer

/-! ## 1. What a device can fail with -/

/-- In states that satisfy `P`, the device keeps `P` and fails only with faults that satisfy `Q`, as
long as it is handed codes of eight bits. -/
structure Device.FailsOnly {σ ε : Type} (dev : Device σ ε) (P : σ → Prop) (Q : ε → Prop) :
    Prop where
  keeps : dev.Keeps P
  requestNumber : ∀ s e, P s → (dev.requestNumber s).value = .error e → Q e
  requestCharacter : ∀ s e, P s → (dev.requestCharacter s).value = .error e → Q e
  emitNumber : ∀ n s e, P s → (dev.emitNumber n s).value = .error e → Q e
  emitCharacter : ∀ code s e, 0 ≤ code → code ≤ 255 → P s →
    (dev.emitCharacter code s).value = .error e → Q e

namespace Machine

variable {σ ε : Type} {dev : Device σ ε} {P : σ → Prop} {Q : ε → Prop} {m : Machine} {s : σ}

/-- An instruction fails only as its device can. -/
theorem fault_of_perform (hdev : dev.FailsOnly P Q) (h : P s) {i : Instruction} {e : ε}
    (hp : (m.perform dev s i).value = .error e) : Q e := by
  cases i with
  | readNumber =>
    simp only [perform] at hp
    split at hp
    · cases hp
    · cases hp
    · next hv =>
      cases hp
      exact hdev.requestNumber s e h hv
  | readCharacter => exact hdev.requestCharacter s e h (error_of_map hp)
  | writeNumber => exact hdev.emitNumber _ s e h (error_of_map hp)
  | writeCharacter =>
    have hproper := m.proper_calls .writeCharacter _ List.mem_cons_self
    exact hdev.emitCharacter _ s e hproper.1 hproper.2 h (error_of_map hp)
  | _ => cases hp

/-- **A step of a sound machine fails only as its device can.** -/
theorem Sound.fault_of_step (h : m.Sound) (hdev : dev.FailsOnly P Q) (hs : P s) {f : StepFault ε}
    (hresult : (m.step dev s).result = .error f) : ∃ e, f = .device e ∧ Q e := by
  obtain ⟨r, _, hrepeat⟩ | ⟨_, a, _, hcase⟩ := h.step_cases dev s
  · rw [hrepeat] at hresult
    cases hresult
  · generalize m.step dev s = t at hcase hresult
    cases hcase with
    | @fail f e _ _ _ hp =>
      cases hresult
      exact ⟨e, rfl, fault_of_perform hdev hs hp⟩
    | _ => cases hresult

/-- The program counter of a sound machine is an address, so the cell there can be told. -/
theorem Sound.exists_here (h : m.Sound) (o : Outcome) :
    ∃ r, (m.here o : Except (StepFault ε) StepResult) = .ok r := by
  obtain ⟨a, hpc⟩ := h.exists_address
  exact ⟨⟨o, a, m.memory.read a⟩, here_eq hpc o⟩

/-- **A run of a sound machine fails only as its device can.** -/
theorem Sound.fault_of_run (h : m.Sound) (hdev : dev.FailsOnly P Q) (hs : P s) (budget : Int)
    {f : StepFault ε} (hresult : (m.run dev budget s).result = .error f) :
    ∃ e, f = .device e ∧ Q e := by
  obtain ⟨n, m', s', hgo, -, hend⟩ := runEnd_run dev budget m s
  have hm' : m'.Sound := h.goesOn hgo
  have hs' : P s' := hgo.invariant (P := fun _ s => P s)
    (fun m _ hp _ => keeps_step hdev.keeps m hp) hs
  cases hend with
  | timeout _ _ _ hr =>
    obtain ⟨r, hr'⟩ : ∃ r, (m'.here .timeout : Except (StepFault ε) StepResult) = .ok r :=
      hm'.exists_here .timeout
    rw [hr, hr'] at hresult
    cases hresult
  | breakpoint _ _ _ _ _ hr =>
    obtain ⟨r, hr'⟩ : ∃ r, (m'.here .breakpoint : Except (StepFault ε) StepResult) = .ok r :=
      hm'.exists_here .breakpoint
    rw [hr, hr'] at hresult
    cases hresult
  | stop _ _ _ _ hr =>
    rw [hr] at hresult
    exact hm'.fault_of_step hdev hs' hresult

end Machine

/-! ## 2. Consoles -/

namespace Console

/-- What a console can fail with whose feed is `growing`, or is not: bytes that are not UTF-8, and
waiting for what is not there yet. -/
inductive EndFault (growing : Bool) : ConsoleFault → Prop
  | undecodable (f : Text.Utf8.Fault) : EndFault growing (.undecodable f)
  | waiting (h : growing = true) : EndFault growing .waiting

variable {growing : Bool}

@[simp] theorem feed_prompt (c : Console) (text : String) : (c.prompt text).feed = c.feed := by
  unfold prompt
  split <;> rfl

theorem value_atEnd {c : Console} {e : ConsoleFault} (hc : c.feed.growing = growing)
    (h : c.atEnd.value = .error e) : EndFault growing e := by
  unfold atEnd at h
  split at h
  · next f _ =>
    cases h
    exact .undecodable f
  · cases hgrowing : c.feed.growing with
    | true =>
      rw [hgrowing] at h
      cases h
      exact .waiting (hc.symm.trans hgrowing)
    | false =>
      rw [hgrowing] at h
      cases h

theorem state_atEnd (c : Console) : c.atEnd.state = c := by
  unfold atEnd
  split <;> rfl

/-- Asking for a number reads lines, and fails only behind the last. -/
theorem numberFrom_spec : ∀ (lines : List (List Char)) (c : Console),
    c.feed.growing = growing → (numberFrom c lines).state.feed.growing = growing ∧
      ∀ e, (numberFrom c lines).value = .error e → EndFault growing e
  | [], c, hc => by
    have hc' : ({ c.prompt "Input: " with
        feed := { c.feed with lines := [] } } : Console).feed.growing = growing := hc
    refine ⟨?_, fun e he => value_atEnd hc' he⟩
    unfold numberFrom
    rw [state_atEnd]
    exact hc
  | line :: rest, c, hc => by
    have hprompt : (c.prompt "Input: ").feed.growing = growing := by rwa [feed_prompt]
    unfold numberFrom
    dsimp only
    split
    · refine ⟨?_, by simp [Answer.quiet]⟩
      simpa [Answer.quiet] using hc
    · exact numberFrom_spec rest _ hprompt

theorem requestCharacter_spec (c : Console) (hc : c.feed.growing = growing) :
    (requestCharacter c).state.feed.growing = growing ∧
      ∀ e, (requestCharacter c).value = .error e → EndFault growing e := by
  have hprompt : (c.prompt "Input char: ").feed.growing = growing := by rwa [feed_prompt]
  unfold requestCharacter
  dsimp only
  split
  · refine ⟨?_, fun e he => value_atEnd hprompt he⟩
    rw [state_atEnd]
    exact hprompt
  · exact ⟨hprompt, by simp⟩

/-- A code of eight bits has a character. -/
theorem exists_characterOf {code : Int} (hlow : 0 ≤ code) (hhigh : code ≤ 255) :
    ∃ x, characterOf code = .ok x := by
  refine ⟨Char.ofNat code.toNat, ?_⟩
  unfold characterOf codeOf
  rw [if_neg (by omega), if_neg (by omega)]
  rfl

theorem emitCharacter_growing (code : Int) (c : Console) :
    (emitCharacter code c).state.feed.growing = c.feed.growing := by
  unfold emitCharacter
  split <;> rfl

/-- **A console fails only where its input ends.** -/
theorem failsOnly (growing : Bool) :
    device.FailsOnly (fun c => c.feed.growing = growing) (EndFault growing) where
  keeps :=
    ⟨fun c hc => (numberFrom_spec c.feed.lines c hc).1, fun c hc => (requestCharacter_spec c hc).1,
      fun _ _ hc => hc, fun code c hc => (emitCharacter_growing code c).trans hc⟩
  requestNumber c e hc he := (numberFrom_spec c.feed.lines c hc).2 e he
  requestCharacter c e hc he := (requestCharacter_spec c hc).2 e he
  emitNumber := by
    rintro n c e - ⟨⟩
  emitCharacter code c e hlow hhigh _ he := by
    obtain ⟨x, hx⟩ := exists_characterOf hlow hhigh
    have hvalue : (emitCharacter code c).value = .ok () := by
      unfold emitCharacter
      rw [hx]
      rfl
    exact absurd (hvalue.symm.trans he) (by simp)

end Console

namespace Handler

/-- The handler is a console whose feed is `growing`, or is not. -/
def IsConsole (growing : Bool) (h : Handler) : Prop :=
  ∃ c : Console, h = .console c ∧ c.feed.growing = growing

/-- **A console that is used as a handler fails as it does alone.** -/
theorem failsOnly_console (growing : Bool) :
    device.FailsOnly (IsConsole growing)
      (fun e => ∃ f, e = .console f ∧ Console.EndFault growing f) := by
  have hdev := Console.failsOnly growing
  have hfault {α : Type} {a : Answer Console ConsoleFault α} {e : HandlerFault}
      (h : (a.lift Handler.console HandlerFault.console).value = .error e) :
      ∃ f, e = .console f ∧ a.value = .error f := by
    obtain ⟨f, hf, rfl⟩ := Outcome.mapError_eq_error_iff.mp h
    exact ⟨f, rfl, hf⟩
  refine ⟨⟨?_, ?_, ?_, ?_⟩, ?_, ?_, ?_, ?_⟩
  · rintro _ ⟨c, rfl, hc⟩
    exact ⟨_, rfl, hdev.keeps.requestNumber c hc⟩
  · rintro _ ⟨c, rfl, hc⟩
    exact ⟨_, rfl, hdev.keeps.requestCharacter c hc⟩
  · rintro n _ ⟨c, rfl, hc⟩
    exact ⟨_, rfl, hdev.keeps.emitNumber n c hc⟩
  · rintro code _ ⟨c, rfl, hc⟩
    exact ⟨_, rfl, hdev.keeps.emitCharacter code c hc⟩
  · rintro _ e ⟨c, rfl, hc⟩ he
    obtain ⟨f, rfl, hf⟩ := hfault he
    exact ⟨f, rfl, hdev.requestNumber c f hc hf⟩
  · rintro _ e ⟨c, rfl, hc⟩ he
    obtain ⟨f, rfl, hf⟩ := hfault he
    exact ⟨f, rfl, hdev.requestCharacter c f hc hf⟩
  · rintro n _ e ⟨c, rfl, hc⟩ he
    obtain ⟨f, rfl, hf⟩ := hfault he
    exact ⟨f, rfl, hdev.emitNumber n c f hc hf⟩
  · rintro code _ e hlow hhigh ⟨c, rfl, hc⟩ he
    obtain ⟨f, rfl, hf⟩ := hfault he
    exact ⟨f, rfl, hdev.emitCharacter code c f hlow hhigh hc hf⟩

end Handler
end MinionComputer
