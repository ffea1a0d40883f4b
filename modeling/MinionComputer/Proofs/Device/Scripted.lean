/-
# What a scripted device has written

A machine changes its device only by what it asks of it.  A scripted device keeps what is written
to it and takes nothing back, so what it has written at one time begins what it has written later.

* `Device.Keeps`, `Machine.keeps_step`: what every request keeps, a step keeps;
* `Scripted.outputs_push`, `Scripted.characterOutputs_push`: one thing more is written;
* `Scripted.Extends`, `Machine.extends_runFrom`: a run takes nothing back.
-/
import MinionComputer.Device.Scripted
import MinionComputer.Proofs.Machine.Run

namespace MinionComputer

/-! ## 1. What every request keeps -/

/-- Whatever the device is asked, it keeps `P`. -/
structure Device.Keeps {σ ε : Type} (dev : Device σ ε) (P : σ → Prop) : Prop where
  requestNumber : ∀ s, P s → P (dev.requestNumber s).state
  requestCharacter : ∀ s, P s → P (dev.requestCharacter s).state
  emitNumber : ∀ n s, P s → P (dev.emitNumber n s).state
  emitCharacter : ∀ code s, P s → P (dev.emitCharacter code s).state

namespace Machine

variable {σ ε : Type} {dev : Device σ ε} {P : σ → Prop} {s : σ}

theorem keeps_perform (hdev : dev.Keeps P) (m : Machine) (i : Instruction) (h : P s) :
    P (m.perform dev s i).state := by
  cases i with
  | readNumber =>
    have hstate : (m.perform dev s .readNumber).state = (dev.requestNumber s).state := by
      simp only [perform]
      split <;> rfl
    exact hstate ▸ hdev.requestNumber s h
  | readCharacter => exact hdev.requestCharacter s h
  | writeNumber => exact hdev.emitNumber _ s h
  | writeCharacter => exact hdev.emitCharacter _ s h
  | _ => exact h

/-- **What every request keeps, a step keeps.** -/
theorem keeps_step (hdev : dev.Keeps P) (m : Machine) (h : P s) : P (m.step dev s).device := by
  unfold step
  split
  · exact h
  · split
    · exact h
    · exact h
    · next f _ =>
      have hperform := keeps_perform hdev m f.instruction h
      unfold execute
      split
      · exact h
      · split
        · exact h
        · dsimp only
          split <;> exact hperform

end Machine

/-! ## 2. One thing more -/

namespace Scripted

theorem outputs_push (numbers characters : List (Option Int)) (events : Array Emission)
    (e : Emission) :
    outputs ⟨numbers, characters, events.push e⟩ = outputs ⟨numbers, characters, events⟩ ++
      (match e with
        | .number n => [n]
        | .character _ => []) := by
  unfold outputs
  rw [Array.toList_push, List.filterMap_append]
  cases e <;> rfl

theorem characterOutputs_push (numbers characters : List (Option Int)) (events : Array Emission)
    (e : Emission) :
    characterOutputs ⟨numbers, characters, events.push e⟩ =
      characterOutputs ⟨numbers, characters, events⟩ ++
        (match e with
          | .number _ => []
          | .character code => [code]) := by
  unfold characterOutputs
  rw [Array.toList_push, List.filterMap_append]
  cases e <;> rfl

/-! ## 3. Nothing is taken back -/

/-- What `q` has written begins what `q'` has written. -/
structure Extends (q q' : Scripted) : Prop where
  outputs : q.outputs <+: q'.outputs
  characterOutputs : q.characterOutputs <+: q'.characterOutputs

theorem Extends.refl (q : Scripted) : q.Extends q :=
  ⟨List.prefix_rfl, List.prefix_rfl⟩

/-- Whatever it is asked, a scripted device takes nothing back. -/
theorem keeps_extends (q : Scripted) : device.Keeps q.Extends := by
  have hemit : ∀ e s, q.Extends s → q.Extends (emit e s).state := by
    intro e s h
    refine ⟨h.outputs.trans ?_, h.characterOutputs.trans ?_⟩
    · exact ⟨_, (outputs_push s.numbers s.characters s.events e).symm⟩
    · exact ⟨_, (characterOutputs_push s.numbers s.characters s.events e).symm⟩
  refine ⟨?_, ?_, fun n => hemit (.number n), fun code => hemit (.character code)⟩
  · rintro ⟨numbers, characters, events⟩ h
    cases numbers <;> exact ⟨h.outputs, h.characterOutputs⟩
  · rintro ⟨numbers, characters, events⟩ h
    cases characters <;> exact ⟨h.outputs, h.characterOutputs⟩

end Scripted

/-- **The rest of a run takes nothing back.** -/
theorem Machine.extends_runFrom (budget : Int) (left : Nat) (first : Bool) (notes : Array Note)
    (m : Machine) (q : Scripted) :
    q.Extends (runFrom Scripted.device budget left first notes m q).device :=
  runFrom_invariant (P := fun _ => q.Extends)
    (fun m _ h => keeps_step (Scripted.keeps_extends q) m h) budget left first notes
    (Scripted.Extends.refl q)

end MinionComputer
