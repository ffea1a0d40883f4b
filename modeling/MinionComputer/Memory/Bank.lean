/-
# Several memories, with watches

A bank holds memories by number.  A watch is something that runs at every write to an address it
was put on, before the cell changes.  Each watch belongs to one memory, its home: it reads and
writes there, whichever memory the write that wakes it goes to.

* `Bank.write`: the checks, the watches in the order they were put, then the cell;
* `Bank.load`: replaces a whole memory and wakes nothing;
* `Bank.copy`: a further memory with the same cells and no watches.

A watch may write, and so wake others or itself.  `nestingLimit` bounds how deep that may go.
-/
import MinionComputer.Memory.Argument
import MinionComputer.Memory.Table

namespace MinionComputer

/-! ## 1. Watches -/

/-- What a watch does after it has told what it saw. -/
inductive Reaction where
  /-- Nothing more. -/
  | record
  /-- It fails, and with it the write that woke it. -/
  | fail
  /-- It writes to its home. -/
  | poke (address value : Argument)

/-- A watch: its name, its home and its reaction. -/
structure Watch where
  name : String
  home : Nat
  reaction : Reaction

/-- What a watch saw: the address, the content before the write, the value to be written, and
what its home holds at that address at that moment. -/
structure Sighting where
  watch : String
  address : Address
  old : Cell
  new : Cell
  seen : Cell
  deriving DecidableEq

/-! ## 2. Banks -/

/-- A memory and the names of the watches on each of its addresses, oldest first. -/
structure WatchedMemory where
  memory : Memory
  watching : List (Address × String) := []

/-- Memories by number, and the watches there are. -/
structure Bank where
  memories : List WatchedMemory
  watches : List Watch := []

/-- Why an operation on a bank fails. -/
inductive BankFault where
  | memory (f : MemoryFault)
  /-- A watch failed. -/
  | watchFailed
  /-- Watches woke each other too deep. -/
  | tooDeep
  /-- There is no memory of that number. -/
  | noMemory

/-- What an operation that may wake watches did. -/
structure Disturbance where
  bank : Bank
  sightings : List Sighting
  result : Except BankFault Unit

namespace Bank

/-- A bank of one memory. -/
def single (m : Memory) : Bank := ⟨[⟨m, []⟩], []⟩

/-- The memory of number `i`. -/
def memory? (b : Bank) (i : Nat) : Option Memory := b.memories[i]?.map (·.memory)

/-- The watch of that name. -/
def watch? (b : Bank) (name : String) : Option Watch := b.watches.find? (·.name == name)

/-- The watches on an address of a memory, oldest first. -/
def watchesOn (b : Bank) (i : Nat) (a : Address) : List Watch :=
  match b.memories[i]? with
  | none => []
  | some w => (w.watching.filter (·.1 == a)).filterMap fun x => b.watch? x.2

/-- The bank with memory `i` changed by `f`. -/
def update (b : Bank) (i : Nat) (f : WatchedMemory → WatchedMemory) : Bank :=
  { b with memories := b.memories.modify i f }

/-- The bank with `c` at address `a` of memory `i`. -/
def set (b : Bank) (i : Nat) (a : Address) (c : Cell) : Bank :=
  b.update i fun w => { w with memory := w.memory.write a c }

/-- A further memory; its number is the number of memories there were. -/
def add (b : Bank) (m : Memory) : Bank := { b with memories := b.memories ++ [⟨m, []⟩] }

/-- A further memory with the cells of memory `i` and no watches. -/
def copy (b : Bank) (i : Nat) : Bank := b.add ((b.memory? i).getD .blank)

/-- Replaces all cells of memory `i`; the watches on it stay and sleep. -/
def load (b : Bank) (i : Nat) (vs : List Argument) : Except MemoryFault Bank :=
  (Memory.ofValues vs).map fun m => b.update i fun w => { w with memory := m }

/-! ## 3. Writing -/

/-- How deep watches may wake each other. -/
def nestingLimit : Nat := 490

/-- Wakes the watches in order for the write of `new` over `old` at `a`; `write` writes for those
that poke.  The first that fails ends it. -/
def wake (write : Bank → Nat → Argument → Argument → Disturbance) (a : Address)
    (old new : Cell) : List Watch → Bank → Disturbance
  | [], b => ⟨b, [], .ok ()⟩
  | w :: ws, b =>
    let sighting : Sighting := ⟨w.name, a, old, new, ((b.memory? w.home).getD .blank).read a⟩
    match w.reaction with
    | .record =>
      let d := wake write a old new ws b
      { d with sightings := sighting :: d.sightings }
    | .fail => ⟨b, [sighting], .error .watchFailed⟩
    | .poke address value =>
      let d := write b w.home address value
      match d.result with
      | .error e => ⟨d.bank, sighting :: d.sightings, .error e⟩
      | .ok () =>
        let d' := wake write a old new ws d.bank
        { d' with sightings := sighting :: d.sightings ++ d'.sightings }

/-- Writes to memory `i`, with watches nested at most `depth` deep. -/
def writeWithin : Nat → Bank → Nat → Argument → Argument → Disturbance
  | 0, b, _, _, _ => ⟨b, [], .error .tooDeep⟩
  | depth + 1, b, i, address, value =>
    match address.toAddress, value.toCell with
    | .error f, _ => ⟨b, [], .error (.memory f)⟩
    | .ok _, .error f => ⟨b, [], .error (.memory f)⟩
    | .ok a, .ok c =>
      match b.memory? i with
      | none => ⟨b, [], .error .noMemory⟩
      | some m =>
        let d := wake (writeWithin depth) a (m.read a) c (b.watchesOn i a) b
        match d.result with
        | .error e => { d with result := .error e }
        | .ok () => { d with bank := d.bank.set i a c }

/-- Writes to memory `i`. -/
def write (b : Bank) (i : Nat) (address value : Argument) : Disturbance :=
  writeWithin nestingLimit b i address value

/-! ## 4. Putting and removing watches -/

/-- Puts a watch on an address of memory `i`.  A name that is new makes a watch whose home is
that memory, even if the address is then rejected; a known name is the watch that it was. -/
def putWatch (b : Bank) (i : Nat) (address : Argument) (name : String) (reaction : Reaction) :
    Bank × Except MemoryFault Unit :=
  let b' := if (b.watch? name).isSome then b
    else { b with watches := b.watches ++ [⟨name, i, reaction⟩] }
  match address.toAddress with
  | .error f => (b', .error f)
  | .ok a => (b'.update i fun w => { w with watching := w.watching ++ [(a, name)] }, .ok ())

/-- Removes the watch of that name from an address of memory `i`, as often as it was put there;
without a name, all watches on the address. -/
def removeWatch (b : Bank) (i : Nat) (address : Argument) (name? : Option String) : Bank :=
  match address.whole?.bind Address.ofInt? with
  | none => b
  | some a =>
    b.update i fun w =>
      { w with watching := w.watching.filter fun x => !(x.1 == a && name?.all (· == x.2)) }

/-- Why no watch is looked for. -/
inductive LookupFault where
  /-- A list is nothing that can be looked up. -/
  | list (items : List Argument)

/-- Removes watches as `removeWatch` does, from an address that can be looked up. -/
def unwatch (b : Bank) (i : Nat) (address : Argument) (name? : Option String) :
    Except LookupFault Bank :=
  match address with
  | .list items => .error (.list items)
  | _ => .ok (b.removeWatch i address name?)

end Bank
end MinionComputer
