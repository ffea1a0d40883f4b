/-
# What the operations on a bank change

A bank is looked at through three things: the memory of each number, the names on each address of
it, and the watch of each name.  For each operation that changes a bank, here is what it does to the
three.

* `Bank.memory?_add`, `Bank.namesOn_add`: a further memory;
* `Bank.memory?_update`, `Bank.namesOn_update`: a change of one memory;
* `Bank.namesOn_putWatch`, `Bank.watch?_putWatch`: a watch that is put;
* `Bank.namesOn_removeWatch`: watches that are removed.
-/
import Mathlib.Data.List.Basic
import MinionComputer.Memory.Bank
import MinionComputer.Proofs.Cell

namespace MinionComputer
namespace Bank

variable {b : Bank} {i j : Nat} {x a : Address} {address : Argument} {name n : String}
  {r : Reaction} {name? : Option String}

/-! ## 1. What there is -/

/-- The names in a row of registrations that are for an address. -/
def namesAt (l : List (Address × String)) (x : Address) : List String :=
  (l.filter (·.1 == x)).map (·.2)

/-- The names on an address of memory `i`, oldest first. -/
def namesOn (b : Bank) (i : Nat) (x : Address) : List String :=
  namesAt ((b.memories[i]?.map (·.watching)).getD []) x

/-- Names, without one of them or none at all. -/
def without (names : List String) : Option String → List String
  | none => []
  | some n => names.filter (· != n)

theorem mem_of_mem_without {names : List String} (h : n ∈ without names name?) : n ∈ names := by
  cases name? with
  | none => cases h
  | some m => exact (List.mem_filter.mp h).1

theorem isSome_memory?_iff : (b.memory? i).isSome ↔ i < b.memories.length := by
  simp [Bank.memory?]

/-! ## 2. A further memory -/

theorem memory?_add (m : Memory) :
    (b.add m).memory? i = if i = b.memories.length then some m else b.memory? i := by
  unfold Bank.memory? Bank.add
  split
  · next h => simp [h]
  · next h =>
    rcases Nat.lt_or_gt_of_ne h with hlt | hgt
    · simp [List.getElem?_append_left hlt]
    · rw [List.getElem?_eq_none (by simp; omega), List.getElem?_eq_none (by omega)]

theorem namesOn_add (m : Memory) : (b.add m).namesOn i x = b.namesOn i x := by
  unfold namesOn Bank.add
  rcases Nat.lt_trichotomy i b.memories.length with hlt | rfl | hgt
  · simp [List.getElem?_append_left hlt]
  · simp
  · rw [List.getElem?_eq_none (by simp; omega), List.getElem?_eq_none (by omega)]

/-! ## 3. A change of one memory -/

/-- Where a change of one memory is a change of its cells, this is what is there then. -/
theorem memory?_update {f : WatchedMemory → WatchedMemory} {g : Memory → Memory}
    (h : ∀ w, (f w).memory = g w.memory) :
    (b.update j f).memory? i = if i = j then (b.memory? i).map g else b.memory? i := by
  unfold Bank.memory? Bank.update
  rw [List.getElem?_modify]
  by_cases hij : i = j
  · subst hij
    cases b.memories[i]? <;> simp [h]
  · simp [hij, Ne.symm hij]

/-- Where a change of one memory is a change of its registrations, these are the names there
then. -/
theorem namesOn_update {f : WatchedMemory → WatchedMemory}
    {g : List (Address × String) → List (Address × String)} (h : ∀ w, (f w).watching = g w.watching)
    (hnil : j < b.memories.length ∨ g [] = []) : (b.update j f).namesOn i x =
      if i = j then namesAt (g ((b.memories[i]?.map (·.watching)).getD [])) x
      else b.namesOn i x := by
  unfold namesOn Bank.update
  rw [List.getElem?_modify]
  by_cases hij : i = j
  · subst hij
    cases hw : b.memories[i]? with
    | none =>
      have hg : g [] = [] := hnil.resolve_left fun hi => by
        rw [List.getElem?_eq_getElem hi] at hw
        cases hw
      simp [hg]
    | some w => simp [h]
  · simp [hij, Ne.symm hij]

theorem length_update (f : WatchedMemory → WatchedMemory) :
    (b.update j f).memories.length = b.memories.length :=
  List.length_modify ..

/-- What leaves the cells alone. -/
theorem memory?_update_of_same {f : WatchedMemory → WatchedMemory}
    (h : ∀ w, (f w).memory = w.memory) : (b.update j f).memory? i = b.memory? i := by
  rw [memory?_update (g := id) h]
  split
  · exact Option.map_id'
  · rfl

/-- What leaves the registrations alone. -/
theorem namesOn_update_of_same {f : WatchedMemory → WatchedMemory}
    (h : ∀ w, (f w).watching = w.watching) : (b.update j f).namesOn i x = b.namesOn i x := by
  rw [namesOn_update (g := id) h (.inr rfl)]
  split
  · rfl
  · rfl

theorem memory?_set (c : Cell) : (b.set j a c).memory? i =
    if i = j then (b.memory? i).map (·.write a c) else b.memory? i :=
  memory?_update (g := (·.write a c)) fun _ => rfl

theorem namesOn_set (c : Cell) : (b.set j a c).namesOn i x = b.namesOn i x :=
  namesOn_update_of_same fun _ => rfl

/-- Memory `j` is replaced. -/
theorem memory?_replace (m : Memory) : (b.update j fun w => { w with memory := m }).memory? i =
    if i = j then (b.memory? i).map fun _ => m else b.memory? i :=
  memory?_update (g := fun _ => m) fun _ => rfl

theorem namesOn_replace (m : Memory) :
    (b.update j fun w => { w with memory := m }).namesOn i x = b.namesOn i x :=
  namesOn_update_of_same fun _ => rfl

/-! ## 4. Putting a watch -/

/-- The bank with a watch of that name. -/
def named (b : Bank) (i : Nat) (name : String) (r : Reaction) : Bank :=
  if (b.watch? name).isSome then b else { b with watches := b.watches ++ [⟨name, i, r⟩] }

theorem memories_named : (b.named i name r).memories = b.memories := by
  unfold named
  split <;> rfl

/-- A watch whose name is new is one more watch. -/
theorem watch?_named : (b.named i name r).watch? n =
    (b.watch? n).or (if name = n then some ⟨name, i, r⟩ else none) := by
  unfold named
  by_cases hknown : (b.watch? name).isSome
  · rw [if_pos hknown]
    by_cases hn : name = n
    · rw [Option.or_of_isSome (hn ▸ hknown)]
    · rw [if_neg hn, Option.or_none]
  · rw [if_neg hknown, watch?, List.find?_append, ← watch?]
    by_cases hn : name = n <;> simp [hn]

theorem putWatch_of_none (h : address.address? = none) : b.putWatch i address name r =
    (b.named i name r, .error (.address address)) := by
  simp only [putWatch, Argument.toAddress, h]
  rfl

theorem putWatch_of_some (h : address.address? = some a) : b.putWatch i address name r =
    ((b.named i name r).update i fun w => { w with watching := w.watching ++ [(a, name)] },
      .ok ()) := by
  simp only [putWatch, Argument.toAddress, h]
  rfl

theorem length_putWatch : (b.putWatch i address name r).1.memories.length = b.memories.length := by
  cases h : address.address? with
  | none => rw [putWatch_of_none h, memories_named]
  | some a => rw [putWatch_of_some h, length_update, memories_named]

theorem memory?_putWatch : (b.putWatch i address name r).1.memory? j = b.memory? j := by
  have hnamed : (b.named i name r).memory? j = b.memory? j := by
    rw [memory?, memories_named, ← memory?]
  cases h : address.address? with
  | none => rw [putWatch_of_none h, hnamed]
  | some a =>
    rw [putWatch_of_some h, ← hnamed]
    exact memory?_update_of_same fun _ => rfl

theorem watch?_putWatch : (b.putWatch i address name r).1.watch? n =
    (b.watch? n).or (if name = n then some ⟨name, i, r⟩ else none) := by
  rw [← watch?_named]
  cases h : address.address? with
  | none => rw [putWatch_of_none h]
  | some a =>
    rw [putWatch_of_some h]
    rfl

theorem namesAt_append_singleton (l : List (Address × String)) (name : String) :
    namesAt (l ++ [(a, name)]) x = if a = x then namesAt l x ++ [name] else namesAt l x := by
  unfold namesAt
  split
  · next h => simp [h]
  · next h => simp [h]

/-- A name that is put on an address is the last of the names there. -/
theorem namesOn_putWatch (hi : i < b.memories.length) :
    (b.putWatch i address name r).1.namesOn j x =
      if j = i ∧ address.address? = some x then b.namesOn j x ++ [name] else b.namesOn j x := by
  have hnamed : (b.named i name r).namesOn j x = b.namesOn j x := by
    rw [namesOn, memories_named, ← namesOn]
  cases h : address.address? with
  | none =>
    rw [putWatch_of_none h, hnamed, if_neg (by simp)]
  | some a =>
    have hthere : i < (b.named i name r).memories.length := by rwa [memories_named]
    have hput : ((b.named i name r).update i fun w =>
        { w with watching := w.watching ++ [(a, name)] }).namesOn j x =
          if j = i then
            namesAt (((b.named i name r).memories[j]?.map (·.watching)).getD [] ++ [(a, name)]) x
          else (b.named i name r).namesOn j x :=
      namesOn_update (g := (· ++ [(a, name)])) (fun _ => rfl) (.inl hthere)
    rw [putWatch_of_some h, hput, namesAt_append_singleton, ← namesOn, hnamed]
    by_cases hj : j = i <;> simp [hj]

/-! ## 5. Removing watches -/

/-- What is left of a row of registrations when one name, or every name, is taken from an
address. -/
theorem namesAt_filter (l : List (Address × String)) (name? : Option String) :
    namesAt (l.filter fun e => !(e.1 == a && name?.all (· == e.2))) x =
      if a = x then without (namesAt l x) name? else namesAt l x := by
  unfold namesAt
  rw [List.filter_filter]
  by_cases hax : a = x
  · subst hax
    rw [if_pos rfl]
    cases name? with
    | none => simp [without]
    | some n =>
      rw [without, List.filter_map, List.filter_filter]
      refine congrArg (List.map _) (List.filter_congr fun e _ => ?_)
      by_cases he : e.1 = a
      · simpa [he, bne] using (BEq.comm : (n == e.2) = (e.2 == n))
      · simp [beq_false_of_ne he]
  · rw [if_neg hax]
    refine congrArg (List.map _) (List.filter_congr fun e _ => ?_)
    by_cases he : e.1 = x
    · simp [he, Ne.symm hax]
    · simp [he]

theorem removeWatch_of_none (h : address.whole?.bind Address.ofInt? = none) :
    b.removeWatch i address name? = b := by
  rw [removeWatch, h]

theorem removeWatch_of_some (h : address.whole?.bind Address.ofInt? = some a) :
    b.removeWatch i address name? = b.update i fun w =>
      { w with watching := w.watching.filter fun e => !(e.1 == a && name?.all (· == e.2)) } := by
  rw [removeWatch, h]

theorem length_removeWatch :
    (b.removeWatch i address name?).memories.length = b.memories.length := by
  cases h : address.whole?.bind Address.ofInt? with
  | none => rw [removeWatch_of_none h]
  | some a => rw [removeWatch_of_some h, length_update]

theorem memory?_removeWatch : (b.removeWatch i address name?).memory? j = b.memory? j := by
  cases h : address.whole?.bind Address.ofInt? with
  | none => rw [removeWatch_of_none h]
  | some a =>
    rw [removeWatch_of_some h]
    exact memory?_update_of_same fun _ => rfl

theorem watch?_removeWatch : (b.removeWatch i address name?).watch? n = b.watch? n := by
  cases h : address.whole?.bind Address.ofInt? with
  | none => rw [removeWatch_of_none h]
  | some a =>
    rw [removeWatch_of_some h]
    rfl

/-- One name, or every name, is taken from an address. -/
theorem namesOn_removeWatch : (b.removeWatch i address name?).namesOn j x =
    if j = i ∧ address.whole? = some (Address.toInt x) then without (b.namesOn j x) name?
    else b.namesOn j x := by
  cases h : address.whole?.bind Address.ofInt? with
  | none =>
    have hother : address.whole? ≠ some (Address.toInt x) := by
      intro hx
      simp [hx] at h
    rw [removeWatch_of_none h, if_neg fun hx => hother hx.2]
  | some a =>
    have hsame : address.whole? = some (Address.toInt x) ↔ a = x := by
      obtain ⟨k, hk, hka⟩ := Option.bind_eq_some_iff.mp h
      rw [hk, ← Address.ofInt?_eq_some_iff.mp hka, Option.some_inj, Address.toInt_inj]
    have hleft : (b.update i fun w => { w with watching :=
        (w.watching.filter fun e => !(e.1 == a && name?.all (· == e.2))) }).namesOn j x =
          if j = i then namesAt (((b.memories[j]?.map (·.watching)).getD []).filter fun e =>
            !(e.1 == a && name?.all (· == e.2))) x
          else b.namesOn j x :=
      namesOn_update (g := List.filter fun e => !(e.1 == a && name?.all (· == e.2)))
        (fun _ => rfl) (.inr rfl)
    rw [removeWatch_of_some h, hleft, namesAt_filter, ← namesOn]
    simp only [hsame]
    by_cases hj : j = i <;> simp [hj]

end Bank
end MinionComputer
