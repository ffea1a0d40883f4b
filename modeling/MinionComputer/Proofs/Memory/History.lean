/-
# What the history of some memories tells

What a memory holds, and what watches it, is what the operations made of it, one after another.
Here this is told from the history of the operations alone, without a bank: a cell holds what the
last write or load on its memory put there that succeeded, and an address is watched by what was
registered for it and not removed.  So the history decides whether the next operation succeeds, and
which watches it calls.

* `Op`, `perform`, `after`: operations, what they do to a bank, and the bank after a history;
* `held`, `registered`, `watch`: what each memory holds and what watches it;
* `accepts`, `calls`: the next operation;
* `isSome_watch_of_registered`, `home_lt`: what is registered is a watch, and its home is there.
-/
import MinionComputer.Proofs.Memory.Bank

namespace MinionComputer
namespace Store

/-! ## 1. Operations -/

/-- An operation on memories, which go by their numbers. -/
inductive Op where
  /-- A further memory with these values. -/
  | new (values : List Argument)
  | read (i : Nat) (address : Argument)
  | write (i : Nat) (address value : Argument)
  | load (i : Nat) (values : List Argument)
  /-- A further memory with the cells of memory `i`. -/
  | copy (i : Nat)
  /-- Puts a watch.  If there is none of that name yet, it is a new one, which fails or only
  records. -/
  | watch (i : Nat) (address : Argument) (name : String) (fails : Bool)
  | unwatch (i : Nat) (address : Argument) (name? : Option String)
  /-- From now on the watches of these names fail, and the others only record.  This is nothing that
  is done to memories: what a watch does is up to it, and may change from one operation to the
  next. -/
  | turn (failing : String → Bool)

/-- The memory that has to be there. -/
def Op.memory? : Op → Option Nat
  | .new _ | .turn _ => none
  | .read i _ | .write i _ _ | .load i _ | .copy i | .watch i _ _ _ | .unwatch i _ _ => some i

/-- Why an operation fails. -/
inductive Fault where
  | memory (f : MemoryFault)
  | bank (f : BankFault)
  | lookup (f : Bank.LookupFault)

/-- What an operation did: the bank after it, what the watches saw, and its answer, which is a cell
or nothing. -/
structure Reply where
  bank : Bank
  sightings : List Sighting
  result : Except Fault (Option Cell)

/-- A watch that fails or only records. -/
def reaction (fails : Bool) : Reaction := if fails then .fail else .record

@[simp] theorem reaction_true : reaction true = .fail := rfl

@[simp] theorem reaction_false : reaction false = .record := rfl

/-- The bank in which the watches fail that are said to, and the others only record. -/
def turned (b : Bank) (failing : String → Bool) : Bank :=
  { b with watches := b.watches.map fun w => { w with reaction := reaction (failing w.name) } }

/-- The bank is changed, or the change fails and it stays as it was. -/
def changed (b : Bank) : Except Fault Bank → Reply
  | .ok b' => ⟨b', [], .ok none⟩
  | .error f => ⟨b, [], .error f⟩

/-- What an operation does whose memory is there. -/
def act (b : Bank) : Op → Reply
  | .new values => changed b (((Memory.ofValues values).map b.add).mapError .memory)
  | .read i address =>
    ⟨b, [], ((((b.memory? i).getD .blank).readAt address).map some).mapError .memory⟩
  | .write i address value =>
    let d := b.write i address value
    ⟨d.bank, d.sightings, (d.result.map fun _ => none).mapError .bank⟩
  | .load i values => changed b ((b.load i values).mapError .memory)
  | .copy i => changed b (.ok (b.copy i))
  | .watch i address name fails =>
    let x := b.putWatch i address name (reaction fails)
    ⟨x.1, [], (x.2.map fun _ => none).mapError .memory⟩
  | .unwatch i address name? => changed b ((b.unwatch i address name?).mapError .lookup)
  | .turn failing => changed b (.ok (turned b failing))

/-- What an operation does. -/
def perform (b : Bank) (op : Op) : Reply :=
  if op.memory?.all (· < b.memories.length) then act b op else ⟨b, [], .error (.bank .noMemory)⟩

/-- The bank after a history, the last operation of which stands first.  In the beginning there is
no memory. -/
def after : List Op → Bank
  | [] => ⟨[], []⟩
  | op :: past => (perform (after past) op).bank

/-! ## 2. What a history tells -/

/-- The cell that a value is. -/
def cellOf (v : Argument) : Cell := v.cell?.getD 0

/-- The values fill a memory: there are at most a hundred, and each is a cell. -/
def fits (values : List Argument) : Bool :=
  values.length ≤ 100 && values.all fun v => v.cell?.isSome

/-- What a memory with these values holds at an address. -/
def entry (values : List Argument) (x : Address) : Cell := (values.map cellOf).getD x.val 0

/-- How many memories there are. -/
def made : List Op → Nat
  | [] => 0
  | .new values :: past => if fits values then made past + 1 else made past
  | .copy i :: past => if i < made past then made past + 1 else made past
  | _ :: past => made past

/-- The watch of that name: as it was put first, and as it was last told to react. -/
def watch : List Op → String → Option Watch
  | [], _ => none
  | .watch i _ name fails :: past, n =>
    (watch past n).or (if name = n ∧ i < made past then some ⟨name, i, reaction fails⟩ else none)
  | .turn failing :: past, n =>
    (watch past n).map fun w => { w with reaction := reaction (failing n) }
  | _ :: past, n => watch past n

/-- The memory at which the watch of that name was put first. -/
def home (past : List Op) (n : String) : Nat := ((watch past n).map Watch.home).getD 0

/-- Whether the watch of that name fails when it is called. -/
def fails (past : List Op) (n : String) : Bool :=
  (watch past n).any fun w => match w.reaction with
    | .fail => true
    | _ => false

/-- The names registered for an address of memory `i`, in the order in which they were.  All
registrations of the watch that is named go at once, and those of every watch if none is named. -/
def registered : List Op → Nat → Address → List String
  | [], _, _ => []
  | .watch j address name _ :: past, i, x =>
    if j = i ∧ j < made past ∧ address.address? = some x then registered past i x ++ [name]
    else registered past i x
  | .unwatch j address name? :: past, i, x =>
    if j = i ∧ j < made past ∧ address.whole? = some (Address.toInt x) then
      Bank.without (registered past i x) name?
    else registered past i x
  | _ :: past, i, x => registered past i x

/-- The argument is a list, which cannot be looked up. -/
def isList : Argument → Bool
  | .list _ => true
  | _ => false

/-- Whether an operation succeeds. -/
def accepts (past : List Op) (op : Op) : Bool :=
  op.memory?.all (· < made past) && match op with
    | .new values => fits values
    | .read _ address => address.address?.isSome
    | .write i address value =>
      match address.address? with
      | some x => value.cell?.isSome && !(registered past i x).any (fails past)
      | none => false
    | .load _ values => fits values
    | .copy _ => true
    | .watch _ address _ _ => address.address?.isSome
    | .unwatch _ address _ => !isList address
    | .turn _ => true

/-- What memory `i` holds: the values that it was made with, or those of the memory that it is a
copy of, changed by each write and load on it that succeeded. -/
def held : List Op → Nat → Address → Cell
  | [], _, _ => 0
  | op :: past, i, x =>
    if accepts past op then
      match op with
      | .new values => if i = made past then entry values x else held past i x
      | .copy j => if i = made past then held past j x else held past i x
      | .load j values => if i = j then entry values x else held past i x
      | .write j address value =>
        if i = j ∧ address.address? = some x then cellOf value else held past i x
      | _ => held past i x
    else held past i x

/-- The names up to the first that fails, with it. -/
def upTo (failing : String → Bool) (names : List String) : List String :=
  names.takeWhile (fun n => !failing n) ++ (names.dropWhile fun n => !failing n).take 1

/-- What the watches see that an operation calls, while nothing has been changed yet: the address,
what is held there, what is to be written, and what their own memory holds there. -/
def calls (past : List Op) : Op → List Sighting
  | .write i address value =>
    match address.address?, value.cell? with
    | some x, some c =>
      (upTo (fails past) (registered past i x)).map fun n =>
        ⟨n, x, held past i x, c, held past (home past n) x⟩
    | _, _ => []
  | _ => []

/-! ## 3. Memories and watches stay -/

variable {i : Nat} {x : Address} {past : List Op} {op : Op}

/-- No memory goes away. -/
theorem made_le_cons (op : Op) (past : List Op) : made past ≤ made (op :: past) := by
  cases op with
  | new values =>
    simp only [made]
    split
    · exact Nat.le_succ _
    · exact Nat.le_refl _
  | copy i =>
    simp only [made]
    split
    · exact Nat.le_succ _
    · exact Nat.le_refl _
  | _ => exact Nat.le_refl _

/-- A memory is not watched before it is there. -/
theorem registered_eq_nil : ∀ {past : List Op}, made past ≤ i → registered past i x = []
  | [], _ => rfl
  | op :: past, hi => by
    have ih : registered past i x = [] :=
      registered_eq_nil (Nat.le_trans (made_le_cons op past) hi)
    cases op with
    | watch j address name fails =>
      have hi' : made past ≤ i := hi
      rw [registered, if_neg (by omega), ih]
    | unwatch j address name? =>
      have hi' : made past ≤ i := hi
      rw [registered, if_neg (by omega), ih]
    | _ => exact ih

/-- What every watch is. -/
structure IsWatch (past : List Op) (n : String) (w : Watch) : Prop where
  name : w.name = n
  home : w.home < made past
  reaction : ∃ failing, w.reaction = reaction failing

theorem isWatch_of_watch {n : String} {w : Watch} : ∀ {past : List Op},
    watch past n = some w → IsWatch past n w
  | op :: past, h => by
    have hmade := made_le_cons op past
    have hlater (h : watch past n = some w) : IsWatch (op :: past) n w :=
      let hw := isWatch_of_watch h
      ⟨hw.name, Nat.lt_of_lt_of_le hw.home hmade, hw.reaction⟩
    cases op with
    | watch i address name fails =>
      rw [watch, Option.or_eq_some_iff] at h
      rcases h with h | ⟨-, h⟩
      · exact hlater h
      · split at h
        · next hnew =>
          cases h
          exact ⟨hnew.1, hnew.2, fails, rfl⟩
        · cases h
    | turn failing =>
      rw [watch, Option.map_eq_some_iff] at h
      obtain ⟨w', h, rfl⟩ := h
      have hw := isWatch_of_watch h
      exact ⟨hw.name, hw.home, failing n, rfl⟩
    | _ => exact hlater h

/-- A watch that there is has its name, its home, and fails or only records. -/
theorem watch_eq {n : String} (h : (watch past n).isSome) :
    watch past n = some ⟨n, home past n, reaction (fails past n)⟩ := by
  obtain ⟨w, hw⟩ := Option.isSome_iff_exists.mp h
  obtain ⟨name, i, r⟩ := w
  obtain ⟨rfl, -, failing, hreaction⟩ := isWatch_of_watch hw
  obtain rfl : r = reaction failing := hreaction
  have hhome : home past name = i := by simp [home, hw]
  have hfails : fails past name = failing := by cases failing <;> simp [fails, hw]
  rw [hhome, hfails, hw]

theorem home_lt {n : String} (h : (watch past n).isSome) : home past n < made past :=
  (isWatch_of_watch (watch_eq h)).home

/-- Watches stay. -/
theorem isSome_watch_cons {n : String} (op : Op) (h : (watch past n).isSome) :
    (watch (op :: past) n).isSome := by
  cases op with
  | watch i address name fails => simp [watch, h]
  | turn failing => simp [watch, h]
  | _ => exact h

/-- What is registered is the name of a watch. -/
theorem isSome_watch_of_registered {n : String} : ∀ {past : List Op},
    n ∈ registered past i x → (watch past n).isSome
  | op :: past, h => by
    have hlater (h : n ∈ registered past i x) : (watch (op :: past) n).isSome :=
      isSome_watch_cons op (isSome_watch_of_registered h)
    cases op with
    | watch j address name fails =>
      rw [registered] at h
      split at h
      · next hput =>
        rcases List.mem_append.mp h with h | h
        · exact hlater h
        · obtain rfl := List.mem_singleton.mp h
          simp [watch, hput.2.1]
      · exact hlater h
    | unwatch j address name? =>
      rw [registered] at h
      split at h
      · exact hlater (Bank.mem_of_mem_without h)
      · exact hlater h
    | _ => exact hlater h

/-- A name that is not registered removes nothing, be there a watch of it or not. -/
theorem registered_unwatch_of_not_mem {n : String} (h : n ∉ registered past i x) (j : Nat)
    (address : Argument) :
    registered (.unwatch j address (some n) :: past) i x = registered past i x := by
  rw [registered]
  split
  · refine List.filter_eq_self.mpr fun k hk => ?_
    exact bne_iff_ne.mpr fun heq => h (heq ▸ hk)
  · rfl

/-! ## 4. Watches that fail -/

theorem upTo_cons (failing : String → Bool) (n : String) (names : List String) :
    upTo failing (n :: names) = if failing n then [n] else n :: upTo failing names := by
  unfold upTo
  cases h : failing n <;> simp [h]

theorem mem_of_mem_upTo {failing : String → Bool} {names : List String} {n : String}
    (h : n ∈ upTo failing names) : n ∈ names := by
  rcases List.mem_append.mp h with h | h
  · exact (List.takeWhile_prefix _).subset h
  · exact (List.dropWhile_suffix _).subset (List.mem_of_mem_take h)

/-! ## 5. Cells -/

theorem held_of_rejected (h : accepts past op = false) :
    held (op :: past) i x = held past i x := by
  cases op <;> simp [held, h]

end Store
end MinionComputer
