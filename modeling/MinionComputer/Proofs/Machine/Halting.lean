/-
# Halts among a number of steps

Steps can be taken whatever they bring, also behind one that ended the run or found no input.  One
that ended the run is repeated for ever.  One that found no input is repeated as well, if the device
has run dry: its input has ended, and it never has any again.  With such a device one of the steps
halts exactly when steps that go on lead to a halt.

* `Device.RunsDry`: a device that has no input any more once it had none;
* `Machine.outcomes_of_dry`: a machine that waits for a dry device waits for ever;
* `Machine.halts_within_iff`: when one of a number of steps halts.
-/
import MinionComputer.Proofs.Device.Scripted

namespace MinionComputer

/-! ## 1. Devices that run dry -/

/-- In states that satisfy `P`, which it keeps, the device is left `dry` by a request that finds no
input; and no request finds input in a dry state, or leaves it. -/
structure Device.RunsDry {σ ε : Type} (dev : Device σ ε) (P dry : σ → Prop) : Prop where
  keeps : dev.Keeps P
  number_dries : ∀ s, P s → (dev.requestNumber s).value = .ok none →
    dry (dev.requestNumber s).state
  character_dries : ∀ s, P s → (dev.requestCharacter s).value = .ok none →
    dry (dev.requestCharacter s).state
  number : ∀ s, dry s → (dev.requestNumber s).value = .ok none ∧ dry (dev.requestNumber s).state
  character : ∀ s, dry s →
    (dev.requestCharacter s).value = .ok none ∧ dry (dev.requestCharacter s).state

namespace Machine

variable {σ ε : Type} {dev : Device σ ε} {P dry : σ → Prop} {m m' : Machine} {s s' : σ}

/-- What an instruction does that has found no input, for this device and for one that is dry. -/
theorem perform_of_dry (hdev : dev.RunsDry P dry) {i : Instruction}
    (hp : (m.perform dev s i).value = .ok none) :
    (P s → dry (m.perform dev s i).state) ∧ ∀ s', dry s' →
      (m.perform dev s' i).value = .ok none ∧ dry (m.perform dev s' i).state := by
  cases i with
  | readNumber =>
    have hvalue : (dev.requestNumber s).value = .ok none := by
      simp only [perform] at hp
      split at hp
      · cases hp
      · next h => exact h
      · cases hp
    have hstate : (m.perform dev s .readNumber).state = (dev.requestNumber s).state := by
      simp only [perform, hvalue]
    refine ⟨fun hs => hstate ▸ hdev.number_dries s hs hvalue, fun s' hs' => ?_⟩
    obtain ⟨hvalue', hdry⟩ := hdev.number s' hs'
    simp only [perform, hvalue']
    exact ⟨trivial, hdry⟩
  | readCharacter =>
    have hvalue : (dev.requestCharacter s).value = .ok none := by
      simp only [perform, Answer.map] at hp
      cases h : (dev.requestCharacter s).value with
      | error e =>
        rw [h] at hp
        cases hp
      | ok c =>
        rw [h] at hp
        cases c with
        | none => rfl
        | some n => cases hp
    refine ⟨fun hs => hdev.character_dries s hs hvalue, fun s' hs' => ?_⟩
    obtain ⟨hvalue', hdry⟩ := hdev.character s' hs'
    simp only [perform, Answer.map, hvalue']
    exact ⟨rfl, hdry⟩
  | writeNumber =>
    simp only [perform, Answer.map] at hp
    cases h : (dev.emitNumber (Cell.toInt m.registers.cell) s).value <;> simp [h, Except.map] at hp
  | writeCharacter =>
    simp only [perform, Answer.map] at hp
    cases h : (dev.emitCharacter (Accumulator.lowByte (Cell.toInt m.registers.cell)) s).value <;>
      simp [h, Except.map] at hp
  | _ => cases hp

/-- A machine that waits stays as it is, and its device is dry.  With any device that is dry it
waits too. -/
theorem Sound.awaits_of_dry (h : m.Sound) (hdev : dev.RunsDry P dry) (hwait : Awaits dev m s) :
    ((m.step dev s).machine = m ∧ (P s → dry (m.step dev s).device)) ∧
      ∀ s', dry s' → Awaits dev m s' ∧ (m.step dev s').machine = m ∧ dry (m.step dev s').device := by
  obtain ⟨a, c, hresult⟩ := hwait
  obtain ⟨r, hfinal, hrepeat⟩ | ⟨hfinal, b, hpc, hcase⟩ := h.step_cases dev s
  · rw [hrepeat] at hresult
    cases hresult
    exact absurd (h.terminal _ hfinal) Bool.false_ne_true
  · generalize m.step dev s = t at hcase hresult ⊢
    cases hcase with
    | @wait f hf hh hn hp =>
      obtain ⟨hdries, hdry⟩ := perform_of_dry hdev hp
      refine ⟨⟨rfl, hdries⟩, fun s' hs' => ?_⟩
      obtain ⟨hvalue, hstate⟩ := hdry s' hs'
      have hhalts : ¬ f.halts = true := Bool.eq_false_iff.mp hh
      have hstep : m.step dev s' = ⟨m, (m.perform dev s' f.instruction).state,
          (m.perform dev s' f.instruction).notes, .ok ⟨.awaitingInput, f.address, f.cell⟩⟩ := by
        rw [step_eq_execute dev s' hfinal hpc hf, execute, if_neg hhalts,
          if_neg (Nat.not_le_of_lt hn)]
        simp only [hvalue]
      rw [hstep]
      exact ⟨⟨f.address, f.cell, congrArg Turn.result hstep⟩, rfl, hstate⟩
    | _ => cases hresult

/-! ## 2. Steps that are repeated -/

/-- The results of a number of steps. -/
def results (dev : Device σ ε) (count : Nat) (m : Machine) (s : σ) : List StepResult :=
  (m.steps dev count s).2.2.2.1.map (·.1)

theorem results_of_ok {count : Nat} {r : StepResult} (hr : (m.step dev s).result = .ok r) :
    results dev (count + 1) m s =
      r :: results dev count (m.step dev s).machine (m.step dev s).device := by
  simp only [results, Machine.steps, hr, List.map_cons]

theorem results_of_error {count : Nat} {f : StepFault ε} (hr : (m.step dev s).result = .error f) :
    results dev (count + 1) m s = [] := by
  simp only [results, Machine.steps, hr, List.map_nil]

/-- A run that is over gives its result again and again. -/
theorem results_of_final {r : StepResult} (hfinal : m.final = some r) : ∀ (count : Nat) (s : σ),
    ∀ x ∈ results dev count m s, x = r
  | 0, _, x, hx => by cases hx
  | count + 1, s, x, hx => by
    have hstep := step_of_final dev s hfinal
    rw [results_of_ok (congrArg Turn.result hstep), hstep] at hx
    rcases List.mem_cons.mp hx with rfl | hx
    · rfl
    · exact results_of_final hfinal count s x hx

/-- **A machine that waits for a dry device waits for ever.** -/
theorem Sound.outcomes_of_dry (h : m.Sound) (hdev : dev.RunsDry P dry) (hwait : Awaits dev m s) :
    ∀ (count : Nat) (s' : σ), dry s' → ∀ x ∈ results dev count m s', x.outcome = .awaitingInput
  | 0, _, _, x, hx => by cases hx
  | count + 1, s', hs', x, hx => by
    obtain ⟨⟨a, c, hresult⟩, hm, hdry⟩ := (h.awaits_of_dry hdev hwait).2 s' hs'
    rw [results_of_ok hresult, hm] at hx
    rcases List.mem_cons.mp hx with rfl | hx
    · rfl
    · exact h.outcomes_of_dry hdev hwait count _ hdry x hx

/-- A step goes on, finds no input or ends the run. -/
theorem Sound.outcome_of_step (h : m.Sound) {r : StepResult} (hr : (m.step dev s).result = .ok r) :
    Continues dev m s ∨ Awaits dev m s ∨ (m.step dev s).machine.final = some r := by
  obtain ⟨r', hfinal, hrepeat⟩ | ⟨_, a, _, hcase⟩ := h.step_cases dev s
  · rw [hrepeat] at hr ⊢
    cases hr
    exact .inr (.inr hfinal)
  · generalize ht : m.step dev s = t at hcase hr
    have hresult : (m.step dev s).result = t.result := congrArg Turn.result ht
    cases hcase with
    | fail _ _ _ _ => cases hr
    | go _ _ _ _ => exact .inl ⟨_, _, hresult⟩
    | wait _ _ _ _ => exact .inr (.inl ⟨_, _, hresult⟩)
    | _ =>
      cases hr
      exact .inr (.inr rfl)

/-! ## 3. Halts -/

/-- **When one of a number of steps halts.**  With a device that runs dry, it is when fewer steps
that go on lead to a halt. -/
theorem Sound.halts_within_iff (hdev : dev.RunsDry P dry) : ∀ (count : Nat) (m : Machine) (s : σ),
    m.Sound → P s → ((∃ x ∈ results dev count m s, x.outcome = .halted) ↔
      ∃ n m' s' a c, n < count ∧ GoesOn dev n m s m' s' ∧
        (m'.step dev s').result = .ok ⟨.halted, a, c⟩)
  | 0, m, s, _, _ => by
    refine iff_of_false ?_ (by rintro ⟨n, m', s', a, c, hn, -⟩; omega)
    rintro ⟨x, hx, -⟩
    cases hx
  | count + 1, m, s, h, hs => by
    cases hr : (m.step dev s).result with
    | error f =>
      rw [results_of_error hr]
      refine iff_of_false (by simp) ?_
      rintro ⟨n, m', s', a, c, -, hgo, hhalts⟩
      cases hgo with
      | refl _ _ =>
        rw [hr] at hhalts
        cases hhalts
      | head hc _ =>
        obtain ⟨_, _, hc⟩ := hc
        rw [hr] at hc
        cases hc
    | ok r =>
      rw [results_of_ok hr]
      have ih := halts_within_iff hdev count (m.step dev s).machine (m.step dev s).device
        (h.step dev s) (keeps_step hdev.keeps m hs)
      rcases h.outcome_of_step hr with hgo | hwait | hfinal
      · -- the first step goes on, so the halt is behind it
        obtain ⟨a, c, hgo'⟩ := hgo
        obtain rfl := Except.ok.inj (hr.symm.trans hgo')
        constructor
        · rintro ⟨x, hx, hhalted⟩
          rcases List.mem_cons.mp hx with rfl | hx
          · cases hhalted
          · obtain ⟨n, m', s', a', c', hn, hgoes, hhalts⟩ := ih.mp ⟨x, hx, hhalted⟩
            exact ⟨n + 1, m', s', a', c', Nat.succ_lt_succ hn, .head ⟨a, c, hr⟩ hgoes, hhalts⟩
        · rintro ⟨n, m', s', a', c', hn, hgoes, hhalts⟩
          cases hgoes with
          | refl _ _ =>
            rw [hr] at hhalts
            cases hhalts
          | head _ rest =>
            obtain ⟨x, hx, hhalted⟩ :=
              ih.mpr ⟨_, m', s', a', c', Nat.lt_of_succ_lt_succ hn, rest, hhalts⟩
            exact ⟨x, List.mem_cons_of_mem _ hx, hhalted⟩
      · -- the first step waits, and so do all others
        obtain ⟨⟨hm, hdries⟩, -⟩ := h.awaits_of_dry hdev hwait
        have hstop := hwait.not_continues
        obtain ⟨a, c, hwait'⟩ := hwait
        obtain rfl := Except.ok.inj (hr.symm.trans hwait')
        refine iff_of_false ?_ ?_
        · rintro ⟨x, hx, hhalted⟩
          rw [hm] at hx
          rcases List.mem_cons.mp hx with rfl | hx
          · cases hhalted
          · rw [h.outcomes_of_dry hdev ⟨a, c, hr⟩ count _ (hdries hs) x hx] at hhalted
            cases hhalted
        · rintro ⟨n, m', s', a', c', -, hgoes, hhalts⟩
          cases hgoes with
          | refl _ _ =>
            rw [hr] at hhalts
            cases hhalts
          | head hc _ => exact hstop hc
      · -- the first step ends the run, with a halt or for ever without one
        constructor
        · rintro ⟨x, hx, hhalted⟩
          have hxr : x = r := by
            rcases List.mem_cons.mp hx with rfl | hx
            · rfl
            · exact results_of_final hfinal count _ x hx
          subst hxr
          obtain ⟨o, a, c⟩ := x
          cases hhalted
          exact ⟨0, m, s, a, c, Nat.succ_pos count, .refl m s, hr⟩
        · rintro ⟨n, m', s', a', c', -, hgoes, hhalts⟩
          cases hgoes with
          | refl _ _ =>
            obtain rfl := Except.ok.inj (hr.symm.trans hhalts)
            exact ⟨_, List.mem_cons_self, rfl⟩
          | head hc _ =>
            obtain ⟨_, _, hc⟩ := hc
            obtain rfl := Except.ok.inj (hr.symm.trans hc)
            have hterminal := (h.step dev s).terminal _ hfinal
            exact absurd hterminal Bool.false_ne_true

end Machine
end MinionComputer
