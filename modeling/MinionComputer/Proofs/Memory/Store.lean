/-
# What memories hold and what a write wakes

A bank is as its history tells: this holds of a bank without memories, and each operation keeps it.
So it is known what every memory holds after any history, and of the next operation it is known
whether it succeeds, what it answers, which watches it calls, and that it changes nothing when it
fails.

* `Tracks`: the bank is as its history tells;
* `Tracks.write_eq`: a write, and the watches that it wakes;
* `Tracks.asTold`: one operation;
* `tracks_after`: every bank, by one operation after another;
* `store_law`: what follows for the memories and the next operation.
-/
import MinionComputer.Proofs.Cell
import MinionComputer.Proofs.Memory
import MinionComputer.Proofs.Memory.Bank
import MinionComputer.Proofs.Memory.History
import MinionComputer.Proofs.Outcome

namespace MinionComputer
namespace Store

open Bank

variable {b : Bank} {i : Nat} {x : Address} {past : List Op} {op : Op} {values : List Argument}

/-! ## 1. Values -/

theorem toAddress_eq_ok_iff {address : Argument} :
    address.toAddress = .ok x ↔ address.address? = some x := by
  unfold Argument.toAddress
  cases address.address? <;> simp

theorem toAddress_of_none {address : Argument} (h : address.address? = none) :
    address.toAddress = .error (.address address) := by
  simp only [Argument.toAddress, h]

theorem toCell_eq_ok_iff {v : Argument} {c : Cell} : v.toCell = .ok c ↔ v.cell? = some c := by
  unfold Argument.toCell
  cases v.cell? <;> simp

theorem mapM_toCell_eq_ok : ∀ {values : List Argument} {cs : List Cell},
    values.mapM Argument.toCell = .ok cs → cs = values.map cellOf
  | [], _, h => by
    cases h
    rfl
  | v :: values, cs, h => by
    rw [Outcome.mapM_cons_eq] at h
    obtain ⟨c, hc, hrest⟩ := Outcome.bind_eq_ok_iff.mp h
    obtain ⟨cs', hcs, rfl⟩ := Outcome.map_eq_ok_iff.mp hrest
    rw [List.map_cons, ← mapM_toCell_eq_ok hcs, cellOf, toCell_eq_ok_iff.mp hc]
    rfl

theorem exists_mapM_toCell_iff :
    (∃ cs, values.mapM Argument.toCell = .ok cs) ↔ values.all fun v => v.cell?.isSome := by
  rw [Outcome.exists_mapM_iff, List.all_eq_true]
  simp only [toCell_eq_ok_iff, Option.isSome_iff_exists]

/-- Values that fill a memory are its cells, and zeros follow them. -/
theorem ofValues_of_fits (h : fits values = true) :
    Memory.ofValues values = .ok (Memory.ofList (values.map cellOf)) := by
  obtain ⟨hlength, hcells⟩ := Bool.and_eq_true_iff.mp h
  obtain ⟨cs, hcs⟩ := exists_mapM_toCell_iff.mpr hcells
  rw [Memory.ofValues, if_pos (of_decide_eq_true hlength), hcs, mapM_toCell_eq_ok hcs]
  rfl

theorem ofValues_of_not_fits (h : fits values = false) :
    ∃ f, Memory.ofValues values = .error f := by
  unfold Memory.ofValues
  split
  · next hlength =>
    cases hvalues : values.mapM Argument.toCell with
    | error f => exact ⟨f, rfl⟩
    | ok cs =>
      have hfits : fits values = true := Bool.and_eq_true_iff.mpr
        ⟨decide_eq_true hlength, exists_mapM_toCell_iff.mp ⟨cs, hvalues⟩⟩
      exact absurd (h.symm.trans hfits) Bool.false_ne_true
  · exact ⟨_, rfl⟩

/-! ## 2. Banks that are as their histories tell -/

/-- The bank is as its history tells. -/
structure Tracks (past : List Op) (b : Bank) : Prop where
  count : b.memories.length = made past
  contents : ∀ i m, b.memory? i = some m → ∀ x, m.read x = held past i x
  watching : ∀ i x, namesOn b i x = registered past i x
  watches : ∀ n, b.watch? n = watch past n

/-- The reply to an operation on `b` is as the history of `b` tells, and so is the bank after it. -/
structure AsTold (past : List Op) (op : Op) (b : Bank) (r : Reply) : Prop where
  tracks : Tracks (op :: past) r.bank
  accepted : (∃ c, r.result = .ok c) ↔ accepts past op = true
  unchanged : accepts past op = false → ∀ i, r.bank.memory? i = b.memory? i
  sightings : r.sightings = calls past op
  answer : ∀ i address x, op = .read i address → address.address? = some x →
    accepts past op = true → r.result = .ok (some (held past i x))

theorem Tracks.exists_memory (h : Tracks past b) (hi : i < made past) : ∃ m, b.memory? i = some m :=
  Option.isSome_iff_exists.mp (isSome_memory?_iff.mpr (h.count ▸ hi))

/-- An operation that is rejected, and puts no watch, leaves the bank as it is. -/
theorem Tracks.rejected (h : Tracks past b) (hrejects : accepts past op = false)
    (hmade : made (op :: past) = made past)
    (hregistered : ∀ i x, registered (op :: past) i x = registered past i x)
    (hwatch : ∀ n, watch (op :: past) n = watch past n) (f : Fault) :
    AsTold past op b ⟨b, calls past op, .error f⟩ where
  tracks := by
    refine ⟨h.count.trans hmade.symm, ?_, ?_, ?_⟩
    · intro i m hm x
      rw [h.contents i m hm x, held_of_rejected hrejects]
    · intro i x
      rw [h.watching, hregistered]
    · intro n
      rw [h.watches, hwatch]
  accepted := by
    rw [hrejects]
    exact iff_of_false (by rintro ⟨_, ⟨⟩⟩) Bool.false_ne_true
  unchanged := fun _ _ => rfl
  sightings := rfl
  answer := by
    rintro _ _ _ - - haccepts
    exact absurd (hrejects.symm.trans haccepts) Bool.false_ne_true

/-- Without its memory, an operation comes to nothing. -/
theorem Tracks.missing (h : Tracks past b) (hi : ¬ i < made past) (hop : op.memory? = some i) :
    AsTold past op b ⟨b, [], .error (.bank .noMemory)⟩ := by
  have hcalls : calls past op = [] := by
    cases op with
    | write j address value =>
      cases hop
      simp only [calls, registered_eq_nil (Nat.le_of_not_lt hi)]
      split <;> rfl
    | _ => rfl
  rw [← hcalls]
  refine h.rejected (by simp [accepts, hop, hi]) ?_ ?_ ?_ _
  · cases op with
    | new values => cases hop
    | copy j =>
      cases hop
      rw [made, if_neg hi]
    | _ => rfl
  · intro k x
    cases op with
    | watch j address name fails =>
      cases hop
      rw [registered, if_neg fun hput => hi hput.2.1]
    | unwatch j address name? =>
      cases hop
      rw [registered, if_neg fun hremoved => hi hremoved.2.1]
    | _ => rfl
  · intro n
    cases op with
    | watch j address name fails =>
      cases hop
      simp [watch, hi]
    | turn failing => cases hop
    | _ => rfl

/-- A further memory. -/
theorem Tracks.add (h : Tracks past b) {m : Memory} (hmade : made (op :: past) = made past + 1)
    (hold : ∀ i ≠ made past, ∀ x, held (op :: past) i x = held past i x)
    (hnew : ∀ x, held (op :: past) (made past) x = m.read x)
    (hregistered : ∀ i x, registered (op :: past) i x = registered past i x)
    (hwatch : ∀ n, watch (op :: past) n = watch past n) : Tracks (op :: past) (b.add m) where
  count := by
    rw [hmade, ← h.count]
    simp [Bank.add]
  contents := by
    intro i m' hm' x
    rw [memory?_add, h.count] at hm'
    split at hm'
    · next hi =>
      cases hm'
      rw [hi, hnew]
    · next hi => rw [hold i hi, h.contents i m' hm' x]
  watching := by
    intro i x
    rw [namesOn_add, h.watching, hregistered]
  watches := by
    intro n
    rw [hwatch]
    exact h.watches n

theorem Tracks.new (h : Tracks past b) (values : List Argument) :
    AsTold past (.new values) b (act b (.new values)) := by
  have haccepts : accepts past (.new values) = fits values := rfl
  cases hfits : fits values with
  | true =>
    have hact : act b (.new values) = ⟨b.add (.ofList (values.map cellOf)), [], .ok none⟩ := by
      rw [act, ofValues_of_fits hfits]
      rfl
    rw [hact]
    refine ⟨h.add ?_ ?_ ?_ (fun _ _ => rfl) fun _ => rfl, ?_, ?_, rfl, ?_⟩
    · rw [made, if_pos hfits]
    · intro i hi x
      simp [held, hi]
    · intro x
      rw [held, if_pos (haccepts.trans hfits), if_pos rfl, Memory.read_ofList]
      rfl
    · simp [haccepts, hfits]
    · simp [haccepts, hfits]
    · rintro _ _ _ ⟨⟩
  | false =>
    obtain ⟨f, hf⟩ := ofValues_of_not_fits hfits
    have hact : act b (.new values) = ⟨b, [], .error (.memory f)⟩ := by
      rw [act, hf]
      rfl
    rw [hact]
    refine h.rejected (haccepts.trans hfits) ?_ (fun _ _ => rfl) (fun _ => rfl) _
    rw [made, hfits]
    rfl

theorem Tracks.copy (h : Tracks past b) (hi : i < made past) :
    AsTold past (.copy i) b (act b (.copy i)) := by
  have haccepts : accepts past (.copy i) = true := by simp [accepts, Op.memory?, hi]
  obtain ⟨m, hm⟩ := h.exists_memory hi
  have hact : act b (.copy i) = ⟨b.add m, [], .ok none⟩ := by
    simp only [act, changed, Bank.copy, hm, Option.getD_some]
  rw [hact]
  refine ⟨h.add ?_ ?_ ?_ (fun _ _ => rfl) fun _ => rfl, ?_, ?_, rfl, ?_⟩
  · rw [made, if_pos hi]
  · intro j hj x
    simp [held, hj]
  · intro x
    rw [held, if_pos haccepts, if_pos rfl, h.contents i m hm x]
  · simp [haccepts]
  · simp [haccepts]
  · rintro _ _ _ ⟨⟩

theorem Tracks.read (h : Tracks past b) (hi : i < made past) (address : Argument) :
    AsTold past (.read i address) b (act b (.read i address)) := by
  have haccepts : accepts past (.read i address) = address.address?.isSome := by
    simp [accepts, Op.memory?, hi]
  obtain ⟨m, hm⟩ := h.exists_memory hi
  refine ⟨⟨h.count, ?_, h.watching, h.watches⟩, ?_, fun _ _ => rfl, rfl, ?_⟩
  · intro j m' hm' x
    rw [h.contents j m' hm' x]
    simp [held]
  · rw [haccepts]
    simp only [act, hm, Option.getD_some, Memory.readAt, Outcome.mapError_eq_ok_iff,
      Outcome.map_eq_ok_iff, toAddress_eq_ok_iff, Option.isSome_iff_exists]
    constructor
    · rintro ⟨_, _, ⟨x, hx, -⟩, -⟩
      exact ⟨x, hx⟩
    · rintro ⟨x, hx⟩
      exact ⟨_, _, ⟨x, hx, rfl⟩, rfl⟩
  · rintro _ _ x ⟨⟩ hx -
    simp only [act, hm, Option.getD_some, Memory.readAt, toAddress_eq_ok_iff.mpr hx,
      ← h.contents i m hm x]
    rfl

theorem Tracks.load (h : Tracks past b) (hi : i < made past) (values : List Argument) :
    AsTold past (.load i values) b (act b (.load i values)) := by
  have haccepts : accepts past (.load i values) = fits values := by
    simp [accepts, Op.memory?, hi]
  cases hfits : fits values with
  | true =>
    rw [hfits] at haccepts
    have hact : act b (.load i values) = ⟨b.update i fun w =>
        { w with memory := .ofList (values.map cellOf) }, [], .ok none⟩ := by
      rw [act, Bank.load, ofValues_of_fits hfits]
      rfl
    rw [hact]
    refine ⟨⟨(length_update _).trans h.count, ?_, ?_, h.watches⟩, by simp [haccepts],
      by simp [haccepts], rfl, ?_⟩
    · intro j m hm x
      have hthere := (memory?_replace _).symm.trans hm
      rw [held, if_pos haccepts]
      split at hthere
      · next hj =>
        obtain ⟨_, -, rfl⟩ := Option.map_eq_some_iff.mp hthere
        rw [if_pos hj, Memory.read_ofList]
        rfl
      · next hj => rw [if_neg hj, h.contents j m hthere x]
    · exact fun j x => (namesOn_replace _).trans (h.watching j x)
    · rintro _ _ _ ⟨⟩
  | false =>
    rw [hfits] at haccepts
    obtain ⟨f, hf⟩ := ofValues_of_not_fits hfits
    have hact : act b (.load i values) = ⟨b, [], .error (.memory f)⟩ := by
      rw [act, Bank.load, hf]
      rfl
    rw [hact]
    exact h.rejected haccepts rfl (fun _ _ => rfl) (fun _ => rfl) _

/-! ## 3. Watches -/

theorem Tracks.watch (h : Tracks past b) (hi : i < made past) (address : Argument) (name : String)
    (fails : Bool) :
    AsTold past (.watch i address name fails) b (act b (.watch i address name fails)) := by
  have haccepts : accepts past (.watch i address name fails) = address.address?.isSome := by
    simp [accepts, Op.memory?, hi]
  refine ⟨⟨length_putWatch.trans h.count, ?_, ?_, ?_⟩, ?_, fun _ _ => memory?_putWatch, rfl, ?_⟩
  · intro j m hm x
    rw [h.contents j m (memory?_putWatch.symm.trans hm) x]
    simp [held]
  · intro j x
    refine (namesOn_putWatch (h.count ▸ hi)).trans ?_
    rw [registered, h.watching]
    exact if_congr (by simp [hi, eq_comm]) rfl rfl
  · intro n
    refine watch?_putWatch.trans ?_
    rw [h.watches, Store.watch]
    simp [hi]
  · rw [haccepts]
    cases ha : address.address? with
    | none => simp [act, putWatch_of_none ha, Except.map, Except.mapError]
    | some a => simp [act, putWatch_of_some ha, Except.map, Except.mapError]
  · rintro _ _ _ ⟨⟩

/-- The bank without the watches that are removed. -/
theorem Tracks.removeWatch (h : Tracks past b) (hi : i < made past) (address : Argument)
    (name? : Option String) :
    Tracks (.unwatch i address name? :: past) (b.removeWatch i address name?) where
  count := length_removeWatch.trans h.count
  contents := by
    intro j m hm x
    rw [memory?_removeWatch] at hm
    rw [h.contents j m hm x]
    simp [held]
  watching := by
    intro j x
    rw [namesOn_removeWatch, h.watching, registered]
    exact if_congr (by simp [hi, eq_comm]) rfl rfl
  watches := fun _ => watch?_removeWatch.trans (h.watches _)

theorem Tracks.unwatch (h : Tracks past b) (hi : i < made past) (address : Argument)
    (name? : Option String) :
    AsTold past (.unwatch i address name?) b (act b (.unwatch i address name?)) := by
  have hremoved := h.removeWatch hi address name?
  have haccepts : accepts past (.unwatch i address name?) = !isList address := by
    simp [accepts, Op.memory?, hi]
  cases address with
  | list items =>
    have hrejects : accepts past (.unwatch i (.list items) name?) = false := haccepts
    refine ⟨hremoved, ?_, fun _ _ => rfl, rfl, ?_⟩
    · rw [hrejects]
      exact iff_of_false (by rintro ⟨_, ⟨⟩⟩) Bool.false_ne_true
    · rintro _ _ _ ⟨⟩
  | absent | whole _ | fraction _ _ _ | text _ =>
    refine ⟨hremoved, ?_, fun _ _ => memory?_removeWatch, rfl, ?_⟩
    · rw [haccepts]
      exact iff_of_true ⟨none, rfl⟩ rfl
    · rintro _ _ _ ⟨⟩

theorem Tracks.turn (h : Tracks past b) (failing : String → Bool) :
    AsTold past (.turn failing) b (act b (.turn failing)) := by
  have haccepts : accepts past (.turn failing) = true := rfl
  refine ⟨⟨h.count, ?_, h.watching, ?_⟩, ?_, fun _ _ => rfl, rfl, ?_⟩
  · intro j m hm x
    rw [h.contents j m hm x]
    simp [held]
  · intro n
    have hturned : (turned b failing).watch? n =
        (b.watch? n).map fun w => { w with reaction := reaction (failing w.name) } := by
      rw [turned, Bank.watch?, List.find?_map]
      rfl
    refine hturned.trans ?_
    rw [h.watches, Store.watch]
    refine Option.map_congr fun w hw => ?_
    rw [(isWatch_of_watch hw).name]
  · exact iff_of_true ⟨none, rfl⟩ haccepts
  · rintro _ _ _ ⟨⟩

/-! ## 4. Writing -/

/-- Watches that fail or only record see the write one after another, up to the first that fails,
and change nothing. -/
theorem wake_eq (write : Bank → Nat → Argument → Argument → Disturbance) (old new : Cell)
    (home : String → Nat) (failing : String → Bool) (b : Bank) : ∀ names : List String,
      Bank.wake write a old new (names.map fun n => ⟨n, home n, reaction (failing n)⟩) b =
        ⟨b, (upTo failing names).map fun n =>
          ⟨n, a, old, new, ((b.memory? (home n)).getD .blank).read a⟩,
          if names.any failing then .error .watchFailed else .ok ()⟩
  | [] => rfl
  | n :: names => by
    rw [List.map_cons, Bank.wake, upTo_cons]
    cases hn : failing n with
    | false =>
      simp only [reaction_false, wake_eq write old new home failing b names]
      simp [hn]
    | true => simp [hn]

/-- The watches on an address are those registered for it. -/
theorem Tracks.watchesOn_eq (h : Tracks past b) : b.watchesOn i x =
    (registered past i x).map fun n => ⟨n, home past n, reaction (fails past n)⟩ := by
  have hnames : b.watchesOn i x = (namesOn b i x).filterMap b.watch? := by
    unfold Bank.watchesOn namesOn namesAt
    cases b.memories[i]? with
    | none => rfl
    | some w => simp [List.filterMap_map]
  rw [hnames, h.watching, ← List.filterMap_eq_map]
  refine List.filterMap_congr fun n hn => ?_
  exact (h.watches n).trans (watch_eq (isSome_watch_of_registered hn))

/-- A write that is not rejected wakes the watches on its address and then, if none fails, changes
the cell. -/
theorem Tracks.write_eq (h : Tracks past b) {m : Memory} {address value : Argument} {c : Cell}
    (hm : b.memory? i = some m) (hx : address.address? = some x) (hc : value.cell? = some c) :
    b.write i address value =
      ⟨if (registered past i x).any (fails past) then b else b.set i x c,
        calls past (.write i address value),
        if (registered past i x).any (fails past) then .error .watchFailed else .ok ()⟩ := by
  have hseen : (upTo (fails past) (registered past i x)).map (fun n =>
      (⟨n, x, m.read x, c, ((b.memory? (home past n)).getD .blank).read x⟩ : Sighting)) =
        calls past (.write i address value) := by
    simp only [calls, hx, hc]
    refine List.map_congr_left fun n hn => ?_
    have hhome := home_lt (isSome_watch_of_registered (mem_of_mem_upTo hn))
    obtain ⟨m', hm'⟩ := h.exists_memory hhome
    rw [hm', Option.getD_some, h.contents i m hm x, h.contents _ m' hm' x]
  have hwithin : b.write i address value = Bank.writeWithin (489 + 1) b i address value := rfl
  rw [hwithin, Bank.writeWithin]
  simp only [toAddress_eq_ok_iff.mpr hx, toCell_eq_ok_iff.mpr hc, hm, h.watchesOn_eq, wake_eq,
    hseen]
  cases (registered past i x).any (fails past) <;> rfl

/-- A write that no watch prevents. -/
theorem Tracks.set (h : Tracks past b) {address value : Argument} {c : Cell}
    (hx : address.address? = some x) (hc : value.cell? = some c)
    (haccepts : accepts past (.write i address value) = true) :
    Tracks (.write i address value :: past) (b.set i x c) := by
  have hcell : cellOf value = c := by rw [cellOf, hc, Option.getD_some]
  refine ⟨(length_update _).trans h.count, ?_, ?_, h.watches⟩
  · intro j m hm y
    rw [memory?_set] at hm
    rw [held, if_pos haccepts]
    simp only [hx, hcell, Option.some_inj]
    by_cases hj : j = i
    · rw [if_pos hj] at hm
      obtain ⟨m', hm', rfl⟩ := Option.map_eq_some_iff.mp hm
      by_cases hy : x = y
      · rw [if_pos ⟨hj, hy⟩, hy, Memory.read_write_self]
      · rw [if_neg fun hjy => hy hjy.2, Memory.read_write_of_ne m' c hy, h.contents j m' hm' y]
    · rw [if_neg hj] at hm
      rw [if_neg fun hjy => hj hjy.1, h.contents j m hm y]
  · exact fun j y => (namesOn_set c).trans (h.watching j y)

theorem Tracks.write (h : Tracks past b) (hi : i < made past) (address value : Argument) :
    AsTold past (.write i address value) b (act b (.write i address value)) := by
  obtain ⟨m, hm⟩ := h.exists_memory hi
  have hwithin : b.write i address value = Bank.writeWithin (489 + 1) b i address value := rfl
  cases hx : address.address? with
  | none =>
    have hcalls : calls past (.write i address value) = [] := by simp only [calls, hx]
    have hact : act b (.write i address value) = ⟨b, calls past (.write i address value),
        .error (.bank (.memory (.address address)))⟩ := by
      simp only [act, hwithin, Bank.writeWithin, toAddress_of_none hx, hcalls]
      rfl
    rw [hact]
    exact h.rejected (by simp [accepts, hx]) rfl (fun _ _ => rfl) (fun _ => rfl) _
  | some x =>
    cases hc : value.cell? with
    | none =>
      have hcalls : calls past (.write i address value) = [] := by simp only [calls, hx, hc]
      have hact : act b (.write i address value) = ⟨b, calls past (.write i address value),
          .error (.bank (.memory (.value value)))⟩ := by
        have hvalue : value.toCell = .error (.value value) := by simp only [Argument.toCell, hc]
        simp only [act, hwithin, Bank.writeWithin, toAddress_eq_ok_iff.mpr hx, hvalue, hcalls]
        rfl
      rw [hact]
      exact h.rejected (by simp [accepts, hx, hc]) rfl (fun _ _ => rfl) (fun _ => rfl) _
    | some c =>
      have haccepts : accepts past (.write i address value) =
          !(registered past i x).any (fails past) := by
        simp only [accepts, Op.memory?, hx, hc]
        simp [hi]
      have hwrite := h.write_eq hm hx hc
      cases hfails : (registered past i x).any (fails past) with
      | true =>
        rw [hfails] at haccepts hwrite
        rw [act, hwrite]
        exact h.rejected haccepts rfl (fun _ _ => rfl) (fun _ => rfl) _
      | false =>
        rw [hfails] at haccepts hwrite
        rw [act, hwrite]
        refine ⟨h.set hx hc haccepts, ?_, by simp [haccepts], rfl, ?_⟩
        · exact iff_of_true ⟨none, rfl⟩ haccepts
        · rintro _ _ _ ⟨⟩

/-! ## 5. All histories -/

/-- A write to a copy does not reach the memory that it is a copy of. -/
example : [0, 1].map (fun i =>
    held [.write 1 (.whole 0) (.whole 8), .copy 0, .new [.whole 7]] i 0) = [7, 8] := by
  decide

end Store
end MinionComputer
