/-
# A case passes exactly when a plain run matches it

A case is checked while it runs: its device compares what comes out at once and stops the run at
the first difference.  A plain run with the same input keeps what comes out to the end.  Both do
the same until the check fails, and then the plain run has written something that it cannot take
back.  So a case passes exactly when the plain run halts, has written what was expected, and has
used up its input.

* `Case.Matches`: a plain run that is as the case expects;
* `Expects`: the two devices, step by step;
* `alignedTurns_step`: what one step comes to with either;
* `drive_eq_ok_iff`: what is left of a run comes to;
* `passes_iff_matches`: all of it, the cases one after another, and the memory they are run on.
-/
import MinionComputer.Proofs.Device.Scripted
import MinionComputer.Proofs.Machine.Slicing
import MinionComputer.Proofs.Trial.Shelf
import MinionComputer.Trial.Check

namespace MinionComputer
namespace Trial

open Machine (runFrom)

/-! ## 1. Plain runs -/

/-- The plain run of a case: on the memory, with the input of the case and its budget. -/
def Case.plainRun (c : Case) (m : Memory) : Turn Scripted Empty :=
  (Machine.start m).run Scripted.device c.maxSteps
    (Scripted.ofInputs c.inputs c.characterInputs #[])

/-- A plain run is as the case expects: it halted, it wrote what is expected and nothing else, no
input is left, and it executed `n` instructions. -/
structure Case.Matches (c : Case) (t : Turn Scripted Empty) (n : Int) : Prop where
  halted : ∃ a cell, t.result = .ok ⟨.halted, a, cell⟩
  outputs : t.device.outputs = c.outputs
  characterOutputs : t.device.characterOutputs = c.characterOutputs
  numbers : t.device.numbers = []
  characters : t.device.characters = []
  steps : n = t.machine.registers.steps

/-! ## 2. Two devices -/

/-- The devices have the same input left, and what was written and what is still expected are
together what the case expects. -/
structure Expects (c : Case) (k : Check) (q : Scripted) : Prop where
  numbers : q.numbers = k.numbers.map some
  characters : q.characters = k.characters.map some
  outputs : q.outputs ++ k.expected = c.outputs
  characterOutputs : q.characterOutputs ++ k.expectedCharacters = c.characterOutputs

/-- What was written does not begin what the case expects. -/
def Spoiled (c : Case) (q : Scripted) : Prop :=
  ¬ (q.outputs <+: c.outputs ∧ q.characterOutputs <+: c.characterOutputs)

variable {c : Case} {k : Check} {q : Scripted} {m : Machine}

theorem expects_ofCase (c : Case) :
    Expects c (Check.ofCase c) (Scripted.ofInputs c.inputs c.characterInputs #[]) :=
  ⟨rfl, rfl, rfl, rfl⟩

/-- What was spoiled stays so. -/
theorem Spoiled.mono {q' : Scripted} (h : Spoiled c q) (hq : q.Extends q') : Spoiled c q' :=
  fun hprefix => h ⟨hq.outputs.trans hprefix.1, hq.characterOutputs.trans hprefix.2⟩

theorem Spoiled.not_matches {t : Turn Scripted Empty} {n : Int} (h : Spoiled c t.device) :
    ¬ c.Matches t n := fun hmatches =>
  h ⟨hmatches.outputs ▸ List.prefix_rfl, hmatches.characterOutputs ▸ List.prefix_rfl⟩

/-- What the check answers when `v` comes out and `expected` is what is left of its row; `rest` is
the check with another row in its place. -/
def compared (k : Check) (expected : List Int) (rest : List Int → Check)
    (fault : Option Int → CheckFault) (v : Int) : Answer Check CheckFault Unit :=
  match expected with
  | [] => .quiet k (.error (fault none))
  | e :: r => .quiet (rest r) (if v = e then .ok () else .error (fault (some e)))

theorem emitNumber_eq_compared (v : Int) (k : Check) : Check.device.emitNumber v k =
    compared k k.expected (fun r => { k with expected := r }) (Check.numberFault v) v := rfl

theorem emitCharacter_eq_compared (v : Int) (k : Check) : Check.device.emitCharacter v k =
    compared k k.expectedCharacters (fun r => { k with expectedCharacters := r })
      (Check.characterFault v) v := rfl

/-- What comes out is what is expected next behind what was written, or the check fails and what
was written begins no longer what is expected in all. -/
theorem compared_cases {written expected all : List Int} (h : written ++ expected = all) (k : Check)
    (rest : List Int → Check) (fault : Option Int → CheckFault) (v : Int) :
    (∃ r, compared k expected rest fault v = .quiet (rest r) (.ok ()) ∧
        (written ++ [v]) ++ r = all) ∨
      ((∃ k' e, compared k expected rest fault v = .quiet k' (.error e)) ∧
        ¬ written ++ [v] <+: all) := by
  subst h
  rw [List.prefix_append_right_inj]
  cases expected with
  | nil => exact .inr ⟨⟨k, fault none, rfl⟩, by simp⟩
  | cons e r =>
    by_cases hv : v = e
    · subst hv
      exact .inl ⟨r, by rw [compared, if_pos rfl], by simp⟩
    · refine .inr ⟨⟨rest r, fault (some e), by rw [compared, if_neg hv]⟩, ?_⟩
      simp [List.cons_prefix_cons, hv]

/-! ## 3. One step -/

/-- The answers of the two devices to one instruction: the same, or the check fails and the other
device is spoiled. -/
inductive AlignedAnswers (c : Case) :
    Answer Check CheckFault (Option Machine) → Answer Scripted Empty (Option Machine) → Prop
  | same {k : Check} {q : Scripted} (h : Expects c k q) (notes notes' : List Note)
      (x : Option Machine) : AlignedAnswers c ⟨k, notes, .ok x⟩ ⟨q, notes', .ok x⟩
  | spoiled {q : Scripted} (h : Spoiled c q) (k : Check) (e : CheckFault)
      (notes notes' : List Note) (m : Machine) :
      AlignedAnswers c ⟨k, notes, .error e⟩ ⟨q, notes', .ok (some m)⟩

/-- Something that is written is what the case expects, or the check fails and the other device
is spoiled by it. -/
theorem alignedAnswers_of_emission {a : Answer Check CheckFault Unit} {q : Scripted}
    (h : (∃ k, a = .quiet k (.ok ()) ∧ Expects c k q) ∨
      ((∃ k e, a = .quiet k (.error e)) ∧ Spoiled c q)) (m : Machine) :
    AlignedAnswers c (a.map fun _ => some m) ((Answer.quiet q (.ok ())).map fun _ => some m) := by
  rcases h with ⟨k, rfl, h⟩ | ⟨⟨k, e, rfl⟩, h⟩
  · exact .same h _ _ _
  · exact .spoiled h _ _ _ _ _

theorem alignedAnswers_emitNumber (h : Expects c k q) (v : Int) (m : Machine) :
    AlignedAnswers c ((Check.device.emitNumber v k).map fun _ => some m)
      ((Scripted.device.emitNumber v q).map fun _ => some m) := by
  have hwritten := Scripted.outputs_push q.numbers q.characters q.events (.number v)
  have hother := Scripted.characterOutputs_push q.numbers q.characters q.events (.number v)
  rw [List.append_nil] at hother
  refine alignedAnswers_of_emission ?_ m
  rw [emitNumber_eq_compared]
  rcases compared_cases h.outputs k _ _ v with ⟨r, hanswer, hrest⟩ | ⟨hfault, hnot⟩
  · refine .inl ⟨_, hanswer, h.numbers, h.characters, ?_, ?_⟩
    · rw [hwritten]
      exact hrest
    · rw [hother]
      exact h.characterOutputs
  · exact .inr ⟨hfault, fun hprefix => hnot (hwritten ▸ hprefix.1)⟩

theorem alignedAnswers_emitCharacter (h : Expects c k q) (v : Int) (m : Machine) :
    AlignedAnswers c ((Check.device.emitCharacter v k).map fun _ => some m)
      ((Scripted.device.emitCharacter v q).map fun _ => some m) := by
  have hwritten := Scripted.characterOutputs_push q.numbers q.characters q.events (.character v)
  have hother := Scripted.outputs_push q.numbers q.characters q.events (.character v)
  rw [List.append_nil] at hother
  refine alignedAnswers_of_emission ?_ m
  rw [emitCharacter_eq_compared]
  rcases compared_cases h.characterOutputs k _ _ v with ⟨r, hanswer, hrest⟩ | ⟨hfault, hnot⟩
  · refine .inl ⟨_, hanswer, h.numbers, h.characters, ?_, ?_⟩
    · rw [hother]
      exact h.outputs
    · rw [hwritten]
      exact hrest
  · exact .inr ⟨hfault, fun hprefix => hnot (hwritten ▸ hprefix.2)⟩

/-- **An instruction comes to the same with either device, or the check fails.** -/
theorem alignedAnswers_perform (h : Expects c k q) (m : Machine) (i : Instruction) :
    AlignedAnswers c (m.perform Check.device k i) (m.perform Scripted.device q i) := by
  cases i with
  | readNumber =>
    have hq := h.numbers
    cases hk : k.numbers with
    | nil =>
      rw [hk] at hq
      simp only [Machine.perform, Check.device, Scripted.device, Scripted.requestNumber, hk, hq,
        List.map_nil]
      exact .same h _ _ _
    | cons n r =>
      rw [hk] at hq
      simp only [Machine.perform, Check.device, Scripted.device, Scripted.requestNumber, hk, hq,
        List.map_cons]
      have hrest : Expects c { k with numbers := r } { q with numbers := r.map some } :=
        ⟨rfl, h.characters, h.outputs, h.characterOutputs⟩
      exact .same hrest _ _ _
  | readCharacter =>
    have hq := h.characters
    cases hk : k.characters with
    | nil =>
      rw [hk] at hq
      simp only [Machine.perform, Check.device, Scripted.device, Scripted.requestCharacter, hk,
        hq, List.map_nil]
      exact .same h _ _ _
    | cons n r =>
      rw [hk] at hq
      simp only [Machine.perform, Check.device, Scripted.device, Scripted.requestCharacter, hk,
        hq, List.map_cons]
      have hrest : Expects c { k with characters := r } { q with characters := r.map some } :=
        ⟨h.numbers, rfl, h.outputs, h.characterOutputs⟩
      exact .same hrest _ _ _
  | writeNumber => exact alignedAnswers_emitNumber h _ m
  | writeCharacter => exact alignedAnswers_emitCharacter h _ m
  | _ => exact .same h _ _ _

/-- What a step comes to with the two devices. -/
inductive AlignedTurns (c : Case) : Turn Check CheckFault → Turn Scripted Empty → Prop
  /-- The same result. -/
  | same {k : Check} {q : Scripted} (h : Expects c k q) (m : Machine) (notes notes' : List Note)
      (r : StepResult) : AlignedTurns c ⟨m, k, notes, .ok r⟩ ⟨m, q, notes', .ok r⟩
  /-- There is no instruction for either. -/
  | lost (k : Check) (q : Scripted) (m m' : Machine) (notes notes' : List Note) (n : Int) :
      AlignedTurns c ⟨m, k, notes, .error (.address n)⟩ ⟨m', q, notes', .error (.address n)⟩
  /-- The check fails, and the plain run goes on with a device that is spoiled. -/
  | spoiled {q : Scripted} (h : Spoiled c q) (k : Check) (e : CheckFault) (m m' : Machine)
      (notes notes' : List Note) (a : Address) (cell : Cell) :
      AlignedTurns c ⟨m, k, notes, .error (.device e)⟩ ⟨m', q, notes', .ok ⟨.continued, a, cell⟩⟩

theorem alignedTurns_execute (h : Expects c k q) (m : Machine) (f : Fetched) :
    AlignedTurns c (m.execute Check.device k f) (m.execute Scripted.device q f) := by
  have hanswers := alignedAnswers_perform h m f.instruction
  unfold Machine.execute
  split
  · exact .same h _ _ _ _
  · split
    · exact .same h _ _ _ _
    · generalize m.perform Check.device k f.instruction = a at hanswers
      generalize m.perform Scripted.device q f.instruction = a' at hanswers
      cases hanswers with
      | same h notes notes' x =>
        cases x with
        | none => exact .same h _ _ _ _
        | some m' => exact .same h _ _ _ _
      | spoiled h => exact .spoiled h _ _ _ _ _ _ _ _

/-- **A step comes to the same with either device, or the check fails.** -/
theorem alignedTurns_step (h : Expects c k q) (m : Machine) :
    AlignedTurns c (m.step Check.device k) (m.step Scripted.device q) := by
  unfold Machine.step
  cases m.final with
  | some r => exact .same h _ _ _ _
  | none =>
    cases fetch m.memory m.registers.pc m.extended with
    | ok f => exact alignedTurns_execute h m f
    | error e =>
      cases e with
      | address n => exact .lost _ _ _ _ _ _ _
      | illegal a cell => exact .same h _ _ _ _

/-! ## 4. The rest of a run -/

/-- Nothing is left over exactly when all four rows are used up. -/
theorem leftover_eq_none_iff : k.leftover = none ↔
    k.numbers = [] ∧ k.expected = [] ∧ k.characters = [] ∧ k.expectedCharacters = [] := by
  unfold Check.leftover
  cases k.numbers <;> cases k.expected <;> cases k.characters <;> cases k.expectedCharacters <;>
    simp

/-- **A program that halted passes exactly when the plain run that halted with it matches.** -/
theorem settle_eq_ok_iff (h : Expects c k q) (notes : List Note) (a : Address) (cell : Cell)
    {n : Int} : settle m k = .ok n ↔ c.Matches ⟨m, q, notes, .ok ⟨.halted, a, cell⟩⟩ n := by
  have houtputs : k.expected = [] ↔ q.outputs = c.outputs := by
    rw [← h.outputs, List.self_eq_append_right]
  have hcharacters : k.expectedCharacters = [] ↔ q.characterOutputs = c.characterOutputs := by
    rw [← h.characterOutputs, List.self_eq_append_right]
  have hsettle : settle m k = .ok n ↔ k.leftover = none ∧ n = m.registers.steps := by
    unfold settle
    cases k.leftover <;> simp [eq_comm]
  rw [hsettle, leftover_eq_none_iff]
  constructor
  · rintro ⟨⟨hn, ho, hch, hco⟩, hsteps⟩
    exact ⟨⟨a, cell, rfl⟩, houtputs.mp ho, hcharacters.mp hco, by simp [h.numbers, hn],
      by simp [h.characters, hch], hsteps⟩
  · intro hm
    have hn : k.numbers = [] := List.map_eq_nil_iff.mp (h.numbers.symm.trans hm.numbers)
    have hch : k.characters = [] := List.map_eq_nil_iff.mp (h.characters.symm.trans hm.characters)
    exact ⟨⟨hn, houtputs.mpr hm.outputs, hch, hcharacters.mpr hm.characterOutputs⟩, hm.steps⟩

/-- A run that did not halt matches no case. -/
theorem not_matches_of_result {t : Turn Scripted Empty} {n : Int}
    (h : ∀ a cell, t.result ≠ .ok ⟨.halted, a, cell⟩) : ¬ c.Matches t n := fun hmatches =>
  let ⟨a, cell, hresult⟩ := hmatches.halted
  h a cell hresult

/-- **What is left of a run passes exactly when what is left of the plain run matches.** -/
theorem drive_eq_ok_iff (budget : Int) {n : Int} : ∀ (left : Nat) (first : Bool)
    (notes notes' : Array Note) (m : Machine) (k : Check) (q : Scripted), m.breakpoints = [] →
      Expects c k q →
        ((drive left notes m k).2 = .ok n ↔
          c.Matches (runFrom Scripted.device budget left first notes' m q) n)
  | 0, first, notes, notes', m, k, q, _, _ => by
    refine iff_of_false (by simp [drive]) (not_matches_of_result fun a cell => ?_)
    simp only [runFrom, Machine.here]
    split <;> simp
  | left + 1, first, notes, notes', m, k, q, hb, h => by
    have hnobreak : (!first && m.atBreakpoint) = false := by
      simp [Machine.atBreakpoint, hb]
    have haligned := alignedTurns_step h m
    have hb' : (m.step Scripted.device q).machine.breakpoints = [] :=
      (Machine.breakpoints_step _ m q).trans hb
    rw [drive, runFrom, hnobreak]
    generalize m.step Check.device k = t at haligned ⊢
    generalize m.step Scripted.device q = t' at haligned hb' ⊢
    cases haligned with
    | same h m' _ _ r =>
      obtain ⟨outcome, a, cell⟩ := r
      cases outcome with
      | continued => exact drive_eq_ok_iff budget left false _ _ m' _ _ hb' h
      | halted => exact settle_eq_ok_iff h _ a cell
      | _ => exact iff_of_false (by simp) (not_matches_of_result (by simp))
    | lost => exact iff_of_false (by simp) (not_matches_of_result (by simp))
    | @spoiled q' hspoiled _ e _ m' =>
      -- the plain run goes on, but it takes nothing back
      have hlater notes := hspoiled.mono
        (Machine.extends_runFrom budget left false notes m' q')
      refine iff_of_false ?_ (hlater _).not_matches
      cases e <;> simp

/-! ## 5. Cases -/

theorem run_eq_ok_iff (c : Case) (m : Memory) {n : Int} : (c.run m).2 = .ok n ↔
    (drive c.maxSteps.toNat #[(Machine.start m).startNote] (Machine.start m)
      (Check.ofCase c)).2 = .ok n := by
  simp only [Case.run]
  cases (drive c.maxSteps.toNat #[(Machine.start m).startNote] (Machine.start m)
    (Check.ofCase c)).2 <;> simp

/-- What comes of one case on its own. -/
def Case.entry (m : Memory) (c : Case) : Except Trouble Entry :=
  match (c.run m).2 with
  | .ok n => .ok ⟨c, none, n⟩
  | .error (.failure f) => .ok ⟨c, some f, f.steps⟩
  | .error t => .error t

/-- **No case changes the memory for the next.**  The cases one after another come to what each of
them comes to on its own. -/
theorem runAll_eq_mapM (m : Memory) : ∀ cases : List Case,
    (runAll m cases).2 = cases.mapM (Case.entry m)
  | [] => rfl
  | c :: cs => by
    rw [List.mapM_cons, ← runAll_eq_mapM m cs]
    simp only [runAll, Case.entry]
    cases (c.run m).2 with
    | ok n => cases (runAll m cs).2 <;> rfl
    | error t =>
      cases t with
      | failure f => cases (runAll m cs).2 <;> rfl
      | code f => rfl
      | address n => rfl

/-- **A case passes exactly when the plain run matches it**, and with as many steps as the plain
run has executed.  The memory is the same for the next case, whatever the program did: wherever it
stands, a case works on a copy behind all other memories, and leaves it and the others as they
were. -/
theorem passes_iff_matches (m : Memory) :
    (∀ (c : Case) (n : Int), (c.run m).2 = .ok n ↔ c.Matches (c.plainRun m) n) ∧
      (∀ cases : List Case, (runAll m cases).2 = cases.mapM (Case.entry m)) ∧
      ∀ (c : Case) (h : Shelf) (i : Nat), h[i]? = some m →
        (Shelf.run i c h).1 = c.run m ∧ ∃ m', (Shelf.run i c h).2 = h ++ [m'] := by
  refine ⟨fun c n => ?_, runAll_eq_mapM m, fun c _ _ hi => Shelf.run_eq hi c⟩
  rw [run_eq_ok_iff]
  exact drive_eq_ok_iff c.maxSteps c.maxSteps.toNat true _ #[] _ _ _ rfl (expects_ofCase c)

/-- Reading a number, writing it and halting takes a budget of three, although the halt is no
instruction that is counted. -/
example : ([3, 2].map fun budget =>
    (Case.run ⟨none, [7], [7], [], [], budget⟩ (Memory.ofList [901, 902, 0])).2.toOption) =
      [some 2, none] := by
  decide +kernel

end Trial
end MinionComputer
