/-
# Every case of a file can be carried out

A case that does not pass has failed, or could not be carried out: the machine left its memory, or
a code that was to be shown has no character.  Neither happens to a case that was read from a file,
whose codes have eight bits like all that a machine writes.

* `Check.failsOnly`: the device of a case only finds what was not expected;
* `exists_failure_of_run`: one case;
* `exists_runAll`: the cases of a file, one after another.
-/
import MinionComputer.Proofs.Device.Faults
import MinionComputer.Proofs.Trial.Reading
import MinionComputer.Trial.Check

namespace MinionComputer
namespace Trial

/-- The codes are codes of eight bits. -/
def Bytes (codes : List Int) : Prop := ∀ n ∈ codes, 0 ≤ n ∧ n ≤ 255

/-! ## 1. The device of a case -/

/-- A code of eight bits can be shown. -/
theorem exists_showCode {code : Int} (hlow : 0 ≤ code) (hhigh : code ≤ 255) :
    ∃ text, Check.showCode code = .ok text := by
  have hcode : codeOf code = .ok code.toNat := by
    unfold codeOf
    rw [if_neg (by omega), if_neg (by omega)]
  unfold Check.showCode
  rw [hcode]
  exact ⟨_, rfl⟩

/-- The device found something that was not expected. -/
def Unexpected (e : CheckFault) : Prop := ∃ kind detail, e = .unexpected kind detail

theorem unexpected_numberFault (v : Int) (expected : Option Int) :
    Unexpected (Check.numberFault v expected) := by
  cases expected <;> exact ⟨_, _, rfl⟩

theorem unexpected_characterFault {v : Int} (hlow : 0 ≤ v) (hhigh : v ≤ 255) :
    ∀ expected : Option Int, (∀ e, expected = some e → 0 ≤ e ∧ e ≤ 255) →
      Unexpected (Check.characterFault v expected)
  | none, _ => by
    obtain ⟨text, htext⟩ := exists_showCode hlow hhigh
    unfold Check.characterFault
    rw [htext]
    exact ⟨_, _, rfl⟩
  | some e, he => by
    obtain ⟨text, htext⟩ := exists_showCode hlow hhigh
    obtain ⟨text', htext'⟩ := exists_showCode (he e rfl).1 (he e rfl).2
    simp only [Check.characterFault, htext, htext']
    exact ⟨_, _, rfl⟩

/-- **While it expects codes of eight bits, the device of a case fails only at what was not
expected.** -/
theorem Check.failsOnly :
    Check.device.FailsOnly (fun k => Bytes k.expectedCharacters) Unexpected where
  keeps := by
    refine ⟨?_, ?_, ?_, ?_⟩
    · rintro ⟨_ | _, characters, expected, codes⟩ h <;> exact h
    · rintro ⟨numbers, _ | _, expected, codes⟩ h <;> exact h
    · rintro n ⟨numbers, characters, _ | _, codes⟩ h <;> exact h
    · rintro n ⟨numbers, characters, expected, _ | ⟨e, codes⟩⟩ h
      · exact h
      · exact fun k hk => h k (List.mem_cons_of_mem e hk)
  requestNumber := by
    rintro ⟨_ | _, characters, expected, codes⟩ e - he <;> cases he
  requestCharacter := by
    rintro ⟨numbers, _ | _, expected, codes⟩ e - he <;> cases he
  emitNumber := by
    rintro n ⟨numbers, characters, _ | ⟨k, expected⟩, codes⟩ e - he
    · cases he
      exact unexpected_numberFault n none
    · simp only [Check.device, Answer.quiet] at he
      split at he
      · cases he
      · cases he
        exact unexpected_numberFault n (some k)
  emitCharacter := by
    rintro n ⟨numbers, characters, expected, _ | ⟨k, codes⟩⟩ e hlow hhigh h he
    · cases he
      exact unexpected_characterFault hlow hhigh none (by simp)
    · simp only [Check.device, Answer.quiet] at he
      split at he
      · cases he
      · cases he
        refine unexpected_characterFault hlow hhigh (some k) fun j hj => ?_
        cases hj
        exact h k List.mem_cons_self

/-! ## 2. One case -/

/-- A program that halted passes or has left something over. -/
theorem exists_failure_of_settle {m : Machine} {k : Check} {t : Trouble}
    (h : settle m k = .error t) : ∃ f, t = .failure f := by
  unfold settle at h
  split at h
  · cases h
    exact ⟨_, rfl⟩
  · cases h

/-- What is left of a run can be carried out. -/
theorem exists_failure_of_drive : ∀ (left : Nat) (notes : Array Note) (m : Machine) (k : Check)
    (t : Trouble), m.Sound → Bytes k.expectedCharacters → (drive left notes m k).2 = .error t →
      ∃ f, t = .failure f
  | 0, notes, m, k, t, _, _, h => by
    cases h
    exact ⟨_, rfl⟩
  | left + 1, notes, m, k, t, hm, hk, h => by
    have hm' := hm.step Check.device k
    have hk' := Machine.keeps_step Check.failsOnly.keeps m hk
    simp only [drive] at h
    split at h
    · next n hr =>
      obtain ⟨e, he, -⟩ := hm.fault_of_step Check.failsOnly hk hr
      cases he
    · next f hr =>
      obtain ⟨e, he, kind, detail, rfl⟩ := hm.fault_of_step Check.failsOnly hk hr
      cases he
    · cases h
      exact ⟨_, rfl⟩
    · split at h
      · exact exists_failure_of_drive left _ _ _ t hm' hk' h
      · exact exists_failure_of_settle h
      · cases h
        exact ⟨_, rfl⟩
      · cases h
        exact ⟨_, rfl⟩

/-- **A case that expects codes of eight bits can be carried out.** -/
theorem exists_failure_of_run {c : Case} {m : Memory} {t : Trouble}
    (hc : Bytes c.characterOutputs) (h : (c.run m).2 = .error t) : ∃ f, t = .failure f := by
  simp only [Case.run] at h
  split at h
  · cases h
  · next t' ht' =>
    cases h
    obtain ⟨f, rfl⟩ := exists_failure_of_drive _ _ _ _ _
      (Machine.sound_of_fresh rfl rfl) hc ht'
    exact ⟨_, rfl⟩

/-! ## 3. All cases of a file -/

/-- Cases that expect codes of eight bits can all be carried out. -/
theorem exists_runAll (m : Memory) : ∀ cases : List Case,
    (∀ c ∈ cases, Bytes c.characterOutputs) → ∃ es, (runAll m cases).2 = .ok es
  | [], _ => ⟨[], rfl⟩
  | c :: cs, hbytes => by
    rw [List.forall_mem_cons] at hbytes
    obtain ⟨es, hes⟩ := exists_runAll m cs hbytes.2
    rw [runAll]
    dsimp only
    split
    · next n _ => exact ⟨⟨c, none, n⟩ :: es, by simp [hes, Except.map]⟩
    · next f _ => exact ⟨⟨c, some f, f.steps⟩ :: es, by simp [hes, Except.map]⟩
    · next t hnot ht =>
      obtain ⟨f, rfl⟩ := exists_failure_of_run hbytes.1 ht
      exact absurd rfl (hnot f)

/-- What a field of characters expects are codes of eight bits. -/
theorem bytes_of_codesOfField {side : Side} {line : Int} {field : List Char} {codes : List Int}
    (h : codesOfField side line field = .ok codes) : Bytes codes := by
  intro n hn
  obtain ⟨x, -, hx⟩ := Outcome.exists_of_mem_mapM h n hn
  unfold codeOfCharacter at hx
  split at hx
  · cases hx
    omega
  · cases hx

/-- **A case that was read from a file expects codes of eight bits.** -/
theorem bytes_of_ofText {text : List Char} {cases : List Case} (h : Case.ofText text = .ok cases) :
    ∀ c ∈ cases, Bytes c.characterOutputs := by
  intro c hc
  obtain ⟨x, -, hx⟩ := Outcome.exists_of_mem_mapM h c hc
  obtain ⟨f, -, hf⟩ := Outcome.bind_eq_ok_iff.mp hx
  simp only [ofFields_eq_bind, Outcome.bind_eq_ok_iff, Outcome.map_eq_ok_iff] at hf
  obtain ⟨_, -, _, -, _, -, _, -, codes, hcodes, rfl⟩ := hf
  exact bytes_of_codesOfField hcodes

end Trial
end MinionComputer
