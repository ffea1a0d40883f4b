/-
# The sums of a run

The accumulator has three digits and a sign, so a sum that needs more is folded.  What is kept of it
is the remainder modulo 1000, and the flag tells whether the last result was folded, or negative.
Here a run is seen as an account: values that are loaded, and cells that are added to them or taken
from them, each as it was read.  The exact sum is counted beside the machine and compared with the
accumulator, through every program that rewrites itself and every change to the cells from outside.

* `Posting`, `Executed.posting?`: what an instruction does to the account;
* `Posting.exactSum`, `Posting.Pending`: the sum that is not folded, and an overflow not yet past;
* `Balances`, `Balances.concat`: what the accumulator and the flag have of them, through postings;
* `Act.accounts_performAll`: so it is through every history of a run.
-/
import Mathlib.Data.Int.ModEq
import Mathlib.Data.List.DropRight
import MinionComputer.Proofs.Machine.Executed
import MinionComputer.Proofs.Machine.Mode
import MinionComputer.Proofs.Outcome

namespace MinionComputer

/-! ## 1. Accounts -/

/-- What an instruction does to the account: it loads a value, or it adds a cell to the accumulator
or takes a cell from it. -/
inductive Posting where
  | loaded (value : Int)
  | added (acc : Int) (cell : Cell)
  | subtracted (acc : Int) (cell : Cell)
  deriving DecidableEq, Repr

namespace Posting

/-- The value that is loaded. -/
def loaded? : Posting → Option Int
  | loaded value => some value
  | _ => none

/-- What is added to the sum. -/
def term : Posting → Int
  | loaded _ => 0
  | added _ cell => Cell.toInt cell
  | subtracted _ cell => -Cell.toInt cell

/-- The result before it is folded is out of the range of an addition, or below zero. -/
def Overflows : Posting → Prop
  | loaded _ => False
  | added acc cell => ¬ (0 ≤ acc + Cell.toInt cell ∧ acc + Cell.toInt cell ≤ 999)
  | subtracted acc cell => acc - Cell.toInt cell < 0

/-- The value that was loaded last; 0 if none was. -/
def base (ps : List Posting) : Int := (ps.filterMap loaded?).getLast?.getD 0

/-- What was added since. -/
def since (ps : List Posting) : List Int := (ps.rtakeWhile (·.loaded?.isNone)).map term

/-- The value that was loaded last with all that was added since. -/
def exactSum (ps : List Posting) : Int := base ps + (since ps).sum

/-- The last posting overflowed. -/
def Pending (ps : List Posting) : Prop := ∃ p, ps.getLast? = some p ∧ p.Overflows

/-- All sums since the last value that was loaded fit the accumulator. -/
def Fitting (ps : List Posting) : Prop :=
  ∀ k, 0 < k → k ≤ (since ps).length →
    -999 ≤ base ps + ((since ps).take k).sum ∧ base ps + ((since ps).take k).sum ≤ 999

variable {ps : List Posting} {p : Posting}

theorem base_concat_loaded (ps : List Posting) (value : Int) :
    base (ps ++ [.loaded value]) = value := by
  simp [base, loaded?]

theorem since_concat_loaded (ps : List Posting) (value : Int) :
    since (ps ++ [.loaded value]) = [] := by
  simp [since, loaded?]

theorem base_concat (ps : List Posting) (hp : p.loaded? = none) : base (ps ++ [p]) = base ps := by
  simp [base, hp]

theorem since_concat (ps : List Posting) (hp : p.loaded? = none) :
    since (ps ++ [p]) = since ps ++ [p.term] := by
  simp [since, hp]

theorem exactSum_concat (ps : List Posting) (hp : p.loaded? = none) :
    exactSum (ps ++ [p]) = exactSum ps + p.term := by
  rw [exactSum, exactSum, base_concat ps hp, since_concat ps hp, List.sum_append,
    List.sum_singleton, Int.add_assoc]

theorem pending_concat : Pending (ps ++ [p]) ↔ p.Overflows := by
  simp [Pending]

/-- What fits with one term more fits without it, and the last sum fits. -/
theorem fitting_concat (hp : p.loaded? = none) (h : Fitting (ps ++ [p])) :
    Fitting ps ∧ -999 ≤ exactSum ps + p.term ∧ exactSum ps + p.term ≤ 999 := by
  rw [Fitting, base_concat ps hp, since_concat ps hp, List.length_append,
    List.length_singleton] at h
  constructor
  · intro k hpos hk
    have hfit := h k hpos (by omega)
    rwa [List.take_append_of_le_length hk] at hfit
  · have hfit := h ((since ps).length + 1) (Nat.succ_pos _) le_rfl
    rw [List.take_of_length_le (by simp), List.sum_append, List.sum_singleton] at hfit
    rw [exactSum]
    omega

end Posting

/-- What an executed instruction does to the account. -/
def Executed.posting? (e : Executed) : Option Posting :=
  match Instruction.ofCell e.before.extended e.cell with
  | some (.add a) => some (.added e.before.registers.acc (e.before.memory.read a))
  | some (.subtract a) => some (.subtracted e.before.registers.acc (e.before.memory.read a))
  | some (.load _) | some .readNumber | some .readCharacter => some (.loaded e.after.acc)
  | _ => none

/-- The account of what was executed. -/
def postings (log : List Executed) : List Posting := log.filterMap Executed.posting?

theorem postings_concat (log : List Executed) (e : Executed) :
    postings (log ++ [e]) = postings log ++ e.posting?.toList := by
  rw [postings, List.filterMap_append, List.filterMap_cons]
  cases e.posting? <;> rfl

/-! ## 2. The accumulator and the flag -/

open Posting

variable {ps : List Posting} {p : Posting}

/-- Folding keeps the remainder. -/
theorem Accumulator.wrap_modEq (n : Int) : wrap n ≡ n [ZMOD 1000] := by
  unfold wrap Int.ModEq
  split
  · omega
  · split <;> omega

/-- What the accumulator and the flag have of an account. -/
structure Balances (ps : List Posting) (r : Registers) : Prop where
  congruent : r.acc ≡ exactSum ps [ZMOD 1000]
  exact : Fitting ps → r.acc = exactSum ps
  flag : r.negative = true ↔ Pending ps

/-- How an instruction that does this to the account leaves the accumulator and the flag. -/
inductive Posts (before after : Registers) : Option Posting → Prop
  | loaded (hflag : after.negative = false) : Posts before after (some (.loaded after.acc))
  | added {cell : Cell}
      (h : (after.acc, after.negative) = Accumulator.add before.acc (Cell.toInt cell)) :
      Posts before after (some (.added before.acc cell))
  | subtracted {cell : Cell}
      (h : (after.acc, after.negative) = Accumulator.subtract before.acc (Cell.toInt cell)) :
      Posts before after (some (.subtracted before.acc cell))
  | none (hacc : after.acc = before.acc) (hflag : after.negative = before.negative) :
      Posts before after none

namespace Balances

variable {before after : Registers}

theorem start : Balances [] {} where
  congruent := rfl
  exact := fun _ => rfl
  flag := by simp [Pending]

/-- The account goes on from a value that is loaded. -/
theorem loaded (ps : List Posting) (hflag : after.negative = false) :
    Balances (ps ++ [.loaded after.acc]) after := by
  have hsum : exactSum (ps ++ [.loaded after.acc]) = after.acc := by
    rw [exactSum, base_concat_loaded, since_concat_loaded, List.sum_nil, Int.add_zero]
  refine ⟨?_, fun _ => hsum.symm, ?_⟩
  · rw [hsum]
  · rw [hflag, pending_concat]
    exact iff_of_false Bool.false_ne_true id

/-- A sum that is folded keeps its remainder, and one that fits is not folded. -/
theorem summed (h : Balances ps before) (hp : p.loaded? = none)
    (hacc : after.acc = Accumulator.wrap (before.acc + p.term))
    (hflag : after.negative = true ↔ p.Overflows) : Balances (ps ++ [p]) after where
  congruent := by
    rw [hacc, exactSum_concat ps hp]
    exact (Accumulator.wrap_modEq _).trans (h.congruent.add_right p.term)
  exact := by
    intro hfit
    obtain ⟨hfit, hlast⟩ := fitting_concat hp hfit
    rw [hacc, exactSum_concat ps hp, h.exact hfit, Accumulator.wrap_of_mem hlast]
  flag := hflag.trans pending_concat.symm

/-- **One posting more.** -/
theorem concat (h : Balances ps before) {o : Option Posting} (hposts : Posts before after o) :
    Balances (ps ++ o.toList) after := by
  induction hposts with
  | loaded hflag => exact loaded ps hflag
  | @added cell heq =>
    obtain ⟨hacc, hflag⟩ := Prod.mk.inj heq
    refine h.summed rfl hacc ?_
    rw [hflag, Bool.or_eq_true, decide_eq_true_iff, decide_eq_true_iff]
    unfold Posting.Overflows
    omega
  | @subtracted cell heq =>
    obtain ⟨hacc, hflag⟩ := Prod.mk.inj heq
    refine h.summed rfl ?_ ?_
    · rw [hacc, Posting.term, Int.sub_eq_add_neg]
    · rw [hflag, decide_eq_true_iff]
      rfl
  | none hacc hflag =>
    rw [Option.toList_none, List.append_nil]
    exact ⟨hacc ▸ h.congruent, hacc ▸ h.exact, hflag ▸ h.flag⟩

end Balances

/-! ## 3. Steps -/

namespace Machine

variable {σ ε : Type} {dev : Device σ ε} {m m' : Machine} {s : σ}

/-- What a machine that has this account does: its registers balance, and it branches on a clear
flag exactly when no overflow is pending. -/
structure Accounts (ps : List Posting) (m : Machine) : Prop where
  balances : Balances ps m.registers
  /-- The branch is taken. -/
  taken : ¬ Pending ps → ∀ a c t, m.ComesTo a c →
    Instruction.ofCell m.extended c = some (.branchPositive t) →
      ∀ {τ δ : Type} (dev : Device τ δ) (s : τ),
        (m.step dev s).result = .ok ⟨.continued, a, c⟩ ∧
          (m.step dev s).machine.registers.pc = Address.toInt t
  /-- The branch is not taken: the machine goes on behind it, or there is nothing behind it. -/
  passed : Pending ps → ∀ a c t, m.ComesTo a c →
    Instruction.ofCell m.extended c = some (.branchPositive t) →
      ∀ {τ δ : Type} (dev : Device τ δ) (s : τ),
        (a.val < 99 → (m.step dev s).result = .ok ⟨.continued, a, c⟩ ∧
          (m.step dev s).machine.registers.pc = Address.toInt a + 1) ∧
        (a.val = 99 → (m.step dev s).result = .ok ⟨.reachedEnd, a, c⟩)

/-- A branch with somewhere to go on goes there. -/
theorem ComesTo.branches {a t : Address} {c : Cell} (h : m.ComesTo a c)
    (hi : Instruction.ofCell m.extended c = some (.branchPositive t)) (dev : Device σ ε) (s : σ)
    (hn : m.next ⟨a, c, .branchPositive t⟩ < 100) :
    (m.step dev s).result = .ok ⟨.continued, a, c⟩ ∧
      (m.step dev s).machine.registers.pc = m.next ⟨a, c, .branchPositive t⟩ := by
  have hgoes : ¬ (⟨a, c, .branchPositive t⟩ : Fetched).halts = true := by simp [Fetched.halts]
  rw [h.step_eq hi, execute, if_neg hgoes, if_neg (Nat.not_le_of_lt hn)]
  exact ⟨rfl, congrArg Registers.pc (registers_advance _ _)⟩

/-- Registers that balance tell a branch what is pending. -/
theorem accounts_of_balances (h : Balances ps m.registers) : m.Accounts ps where
  balances := h
  taken := by
    intro hclear a c t hcome hi τ δ dev s
    have hflag : ¬ m.registers.negative = true := mt h.flag.mp hclear
    have hn : m.next ⟨a, c, .branchPositive t⟩ = t.val := if_neg hflag
    have hbranches := hcome.branches hi dev s (hn.symm ▸ t.isLt)
    rw [hn] at hbranches
    exact hbranches
  passed := by
    intro hpending a c t hcome hi τ δ dev s
    have hflag : m.registers.negative = true := h.flag.mpr hpending
    have hn : m.next ⟨a, c, .branchPositive t⟩ = a.val + 1 := if_pos hflag
    refine ⟨fun ha => ?_, fun ha => ?_⟩
    · have hbranches := hcome.branches hi dev s (by omega)
      rw [hn] at hbranches
      exact hbranches
    · have hgoes : ¬ (⟨a, c, .branchPositive t⟩ : Fetched).halts = true := by simp [Fetched.halts]
      rw [hcome.step_eq hi, execute, if_neg hgoes, if_pos (by omega)]
      rfl

/-- **An instruction that is executed leaves the accumulator and the flag as its posting says.** -/
theorem Executes.posts {f : Fetched} (h : Executes dev m s f m') :
    Posts m.registers (m.registersAfter f m')
      (Executed.posting? ⟨m, f.address, f.cell, m.registersAfter f m'⟩) := by
  have hacc : (m.registersAfter f m').acc = m'.registers.acc := rfl
  have hflag : (m.registersAfter f m').negative = m'.registers.negative := rfl
  have hmeaning : Instruction.ofCell m.extended f.cell = some f.instruction :=
    h.fetches.cell ▸ h.fetches.meaning
  have hperform := h.performs
  simp only [Executed.posting?, hmeaning]
  generalize m.registersAfter f m' = after at hacc hflag ⊢
  generalize f.instruction = i at hperform
  cases i with
  | add a =>
    cases hperform
    exact .added (by rw [hacc, hflag]; rfl)
  | subtract a =>
    cases hperform
    exact .subtracted (by rw [hacc, hflag]; rfl)
  | load a =>
    cases hperform
    exact .loaded hflag
  | readNumber =>
    refine .loaded (hflag.trans ?_)
    simp only [perform] at hperform
    split at hperform
    · cases hperform
      rfl
    · cases hperform
    · cases hperform
  | readCharacter =>
    refine .loaded (hflag.trans ?_)
    simp only [perform, Answer.map, Outcome.map_eq_ok_iff, Option.map_eq_some_iff] at hperform
    obtain ⟨_, -, _, -, rfl⟩ := hperform
    rfl
  | writeNumber =>
    simp only [perform, Answer.map, Outcome.map_eq_ok_iff, Option.some.injEq] at hperform
    obtain ⟨_, -, rfl⟩ := hperform
    exact .none hacc hflag
  | writeCharacter =>
    simp only [perform, Answer.map, Outcome.map_eq_ok_iff, Option.some.injEq] at hperform
    obtain ⟨_, -, rfl⟩ := hperform
    exact .none hacc hflag
  | _ =>
    cases hperform
    exact .none hacc hflag

/-- **A step keeps its account.** -/
theorem keepsLog_balances (dev : Device σ ε) :
    KeepsLog dev fun log m => m.Sound ∧ Balances (postings log) m.registers := by
  refine keepsLog_of_executes (P := fun log r => Balances (postings log) r) ?_
  intro log m s f m' hexecutes h
  rw [postings_concat]
  exact h.concat hexecutes.posts

end Machine

/-! ## 4. Runs -/

namespace Act

open Machine

variable {σ ε ω : Type} {m : Machine}

/-- **Through every history of a run the accumulator has the exact sum**, up to multiples of a
thousand, and the sum itself while no sum since the last value that was loaded was too large.  The
flag is set as long as the last sum overflowed, and no longer. -/
theorem accounts_performAll (dev : Device σ ε) (h : m.Begins) (s : σ) {acts : List (Act σ ω)}
    (hacts : ∀ a ∈ acts, a.begins = false) :
    (performAll dev acts m (s, [])).1.Accounts (postings (executedAll dev acts m (s, []))) := by
  have hregisters : m.registers = {} := by
    induction h <;> rfl
  have hstart : m.Sound ∧ Balances (postings []) m.registers :=
    ⟨h.sound, hregisters ▸ Balances.start⟩
  exact accounts_of_balances (executedAll_keeps (keepsLog_balances dev.recorded) hacts hstart).2

/-- A program that adds to what does not fit, twice, and then branches. -/
def overflowing : Memory := .ofList [504, 105, 105, 800, 900, 999]

/-- It has come to the branch with the last three digits of the sum and an overflow pending. -/
theorem overflowing_accounts :
    let acts := [(.use (.run 3) : Act Scripted Empty)]
    let m := (performAll Scripted.device acts (.start overflowing) ({}, [])).1
    let ps := postings (executedAll Scripted.device acts (.start overflowing) ({}, []))
    m.registers = ⟨898, 3, true, 3⟩ ∧ m.ComesTo 3 800 ∧
      ps = [.loaded 900, .added 900 999, .added 899 999] ∧ m.Accounts ps := by
  refine ⟨rfl, ⟨rfl, rfl, rfl⟩, rfl, ?_⟩
  exact accounts_performAll Scripted.device (.start overflowing) {} (by simp [begins])

end Act
end MinionComputer
