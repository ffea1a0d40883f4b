/-
# Images and memories

Every memory has an image, which is read back as that memory, and an image that can be read is the
one that its memory has, but for zero bytes at its end.  So the images without such bytes are the
memories.  What is cut off the end of an image reads as zero: the cells before the cut stay, the
cell that it goes through does not become larger, and those behind it are zero.

* `Image.padded_ofMemory`: what is dropped at the end of an image is put back;
* `Image.toMemory_ofMemory`: every memory is read back from its image;
* `Image.fieldAt_cut`, `Image.exists_toMemory_cut`: an image that is cut short;
* `Image.Fault.Says`: the words of a fault;
* `Image.toMemory_iff_fields`: which bytes are images, of which memories, and what is said about
  the others.
-/
import MinionComputer.Proofs.Image.Fields
import MinionComputer.Proofs.Text.Decimal
import MinionComputer.Proofs.Text.Trimming

namespace MinionComputer
namespace Image

variable {bs p : List UInt8} {m : Memory}

/-! ## 1. Zeros at the end -/

/-- **The zeros that an image has not are put back.** -/
theorem padded_ofMemory (m : Memory) : padded (ofMemory m) = packed m := by
  obtain ⟨k, hk⟩ := Text.exists_eq_dropEnd_append_replicate 0 (packed m)
  have hlength := congrArg List.length hk
  rw [length_packed, List.length_append, List.length_replicate] at hlength
  have hcount : maxSize - (ofMemory m).length = k := by
    rw [ofMemory]
    omega
  rw [padded, hcount]
  exact hk.symm

theorem length_ofMemory_le (m : Memory) : (ofMemory m).length ≤ maxSize := by
  have hlength := congrArg List.length (padded_ofMemory m)
  rw [length_packed, padded, List.length_append] at hlength
  omega

theorem getLast?_ofMemory_ne (m : Memory) : (ofMemory m).getLast? ≠ some 0 := by
  intro hlast
  have hzero := Text.not_of_mem_getLast?_dropEnd (p := (· == (0 : UInt8))) 0 hlast
  exact Bool.noConfusion hzero

/-- Bytes that can be read are the image of their memory and zeros behind it. -/
theorem exists_eq_ofMemory_append (h : packed m = padded bs) :
    ∃ k, bs = ofMemory m ++ List.replicate k 0 := by
  have hdrop : ofMemory m = Text.dropEnd (· == 0) bs := by
    rw [ofMemory, h, padded]
    refine Text.dropEnd_append_of_all fun x hx => ?_
    rw [List.eq_of_mem_replicate hx]
    rfl
  rw [hdrop]
  exact Text.exists_eq_dropEnd_append_replicate 0 bs

/-- **Every memory is read back from its image.**  Its number fits in 125 bytes and is the number
of its image with zeros behind it; the image has no zero at its end, and no other memory has it. -/
theorem toMemory_ofMemory (m : Memory) :
    m.number < 256 ^ 125 ∧ number (padded (ofMemory m)) = m.number ∧
      (ofMemory m).length ≤ 125 ∧ (ofMemory m).getLast? ≠ some 0 ∧
      toMemory (ofMemory m) = .ok m ∧ ∀ m', ofMemory m' = ofMemory m → m' = m := by
  have hread (m : Memory) : toMemory (ofMemory m) = .ok m :=
    toMemory_eq_ok_iff.mpr ⟨length_ofMemory_le m,
      (packed_eq_padded_iff (length_ofMemory_le m)).mp (padded_ofMemory m).symm⟩
  refine ⟨number_memory_lt m, ?_, length_ofMemory_le m, getLast?_ofMemory_ne m, hread m, ?_⟩
  · rw [padded_ofMemory, number_packed]
  · intro m' heq
    have hread' := hread m'
    rw [heq, hread m] at hread'
    exact (Except.ok.inj hread').symm

/-! ## 2. Images that are cut short -/

/-- The number with its lowest `k` bits cleared. -/
def clearLow (k n : Nat) : Nat := n / 2 ^ k * 2 ^ k

theorem clearLow_le (k n : Nat) : clearLow k n ≤ n := Nat.div_mul_le_self n (2 ^ k)

/-- The bits above the cleared ones stay. -/
theorem clearLow_div {k s : Nat} (h : k ≤ s) (n : Nat) : clearLow k n / 2 ^ s = n / 2 ^ s := by
  obtain ⟨t, rfl⟩ := Nat.exists_eq_add_of_le h
  rw [clearLow, Nat.pow_add, ← Nat.div_div_eq_div_mul, ← Nat.div_div_eq_div_mul,
    Nat.mul_div_cancel _ (Nat.two_pow_pos k)]

/-- The bits below are zero. -/
theorem clearLow_div_mod {k s w : Nat} (h : s + w ≤ k) (n : Nat) :
    clearLow k n / 2 ^ s % 2 ^ w = 0 := by
  obtain ⟨t, rfl⟩ := Nat.exists_eq_add_of_le h
  have hsplit : clearLow (s + w + t) n = n / 2 ^ (s + w + t) * 2 ^ t * 2 ^ w * 2 ^ s := by
    rw [clearLow, Nat.pow_add 2 (s + w) t, Nat.pow_add 2 s w]
    ac_rfl
  rw [hsplit, Nat.mul_div_cancel _ (Nat.two_pow_pos s), Nat.mul_mod_left]

/-- No field of bits becomes larger. -/
theorem clearLow_div_mod_le (k s w n : Nat) :
    clearLow k n / 2 ^ s % 2 ^ w ≤ n / 2 ^ s % 2 ^ w := by
  by_cases h : s + w ≤ k
  · rw [clearLow_div_mod h]
    exact Nat.zero_le _
  · -- the bits above the field stay, so what is left of the number compares as the number does
    have habove : clearLow k n / 2 ^ s / 2 ^ w = n / 2 ^ s / 2 ^ w := by
      rw [Nat.div_div_eq_div_mul, Nat.div_div_eq_div_mul, ← Nat.pow_add]
      exact clearLow_div (Nat.le_of_not_le h) n
    have hle : clearLow k n / 2 ^ s ≤ n / 2 ^ s := Nat.div_le_div_right (clearLow_le k n)
    have h₁ := Nat.div_add_mod (clearLow k n / 2 ^ s) (2 ^ w)
    have h₂ := Nat.div_add_mod (n / 2 ^ s) (2 ^ w)
    rw [habove] at h₁
    omega

theorem number_append (bs cs : List UInt8) :
    number (bs ++ cs) = number bs * 256 ^ cs.length + number cs := by
  simp only [number, List.map_append, List.reverse_append, Nat.ofDigits_append,
    List.length_reverse, List.length_map]
  rw [Nat.mul_comm, Nat.add_comm]

theorem number_lt (bs : List UInt8) : number bs < 256 ^ bs.length := by
  have hlt := Nat.ofDigits_lt_base_pow_length (b := 256) (l := (bs.map UInt8.toNat).reverse)
    (by decide) fun n hn => lt_of_mem_bytes bs n (List.mem_reverse.mp hn)
  rwa [List.length_reverse, List.length_map] at hlt

theorem number_zeros (k : Nat) : number (List.replicate k 0) = 0 := by
  rw [number, List.map_replicate, List.reverse_replicate]
  exact Nat.ofDigits_replicate_zero

/-- **Cutting an image short clears the lowest bits of its number.** -/
theorem number_padded_cut (hp : p <+: bs) (h : bs.length ≤ maxSize) :
    number (padded p) = clearLow (8 * (maxSize - p.length)) (number (padded bs)) := by
  obtain ⟨r, rfl⟩ := hp
  have hrest : (r ++ List.replicate (maxSize - (p ++ r).length) 0).length =
      maxSize - p.length := by
    rw [List.length_append] at h
    simp only [List.length_append, List.length_replicate]
    omega
  have hlow := number_lt (r ++ List.replicate (maxSize - (p ++ r).length) 0)
  rw [padded, padded, List.append_assoc, number_append, number_append, number_zeros,
    List.length_replicate, hrest, clearLow, Nat.pow_mul, Nat.add_zero]
  rw [hrest] at hlow
  have hdiv := Nat.mul_add_div (Nat.pow_pos (n := maxSize - p.length) (show 0 < 256 by decide))
    (number p) (number (r ++ List.replicate (maxSize - (p ++ r).length) 0))
  rw [Nat.div_eq_of_lt hlow, Nat.add_zero, Nat.mul_comm] at hdiv
  rw [show (2 : Nat) ^ 8 = 256 from rfl, hdiv]

/-- The place of a field, in bits. -/
theorem fieldAt_eq (bs : List UInt8) (a : Address) :
    fieldAt bs a = number (padded bs) / 2 ^ (10 * (99 - a.val)) % 2 ^ 10 := by
  rw [Nat.pow_mul]
  rfl

/-- **The fields of an image that is cut short.**  Those before the cut stay, those behind it are
zero, and none is larger. -/
theorem fieldAt_cut (hp : p <+: bs) (h : bs.length ≤ maxSize) (a : Address) :
    (10 * (a.val + 1) ≤ 8 * p.length → fieldAt p a = fieldAt bs a) ∧
      fieldAt p a ≤ fieldAt bs a ∧ (8 * p.length ≤ 10 * a.val → fieldAt p a = 0) := by
  have hlength := hp.length_le
  have hsize : maxSize = 125 := rfl
  have ha := a.isLt
  rw [fieldAt_eq, fieldAt_eq, number_padded_cut hp h]
  refine ⟨fun hbefore => ?_, clearLow_div_mod_le _ _ _ _, fun hbehind => ?_⟩
  · rw [clearLow_div (by omega)]
  · exact clearLow_div_mod (by omega) _

/-! ## 3. Which bytes are images -/

/-- The cells of the memory of an image are its fields. -/
theorem read_eq_fieldAt (h : bs.length ≤ maxSize) (hm : m.toList.map Fin.val = fields bs)
    (a : Address) : (m.read a).val = fieldAt bs a := by
  have hfield := getElem?_fields h a
  rw [← hm, List.getElem?_map, Memory.getElem?_toList] at hfield
  exact Option.some.inj hfield

/-- **Bytes can be read exactly when they are not too many and every field is a cell.** -/
theorem exists_toMemory_iff :
    (∃ m, toMemory bs = .ok m) ↔ bs.length ≤ maxSize ∧ ∀ a, fieldAt bs a ≤ 999 := by
  constructor
  · rintro ⟨m, hm⟩
    obtain ⟨hsize, hfields⟩ := toMemory_eq_ok_iff.mp hm
    refine ⟨hsize, fun a => ?_⟩
    rw [← read_eq_fieldAt hsize hfields a]
    exact Nat.le_of_lt_succ (m.read a).isLt
  · rintro ⟨hsize, hcells⟩
    cases hm : toMemory bs with
    | ok m => exact ⟨m, rfl⟩
    | error f =>
      cases f with
      | size n => exact absurd (toMemory_eq_size_iff.mp hm).1 (Nat.not_lt_of_le hsize)
      | field i v =>
        obtain ⟨-, a, -, rfl, hlarge, -⟩ := toMemory_eq_field_iff.mp hm
        exact absurd (hcells a) (Nat.not_le_of_lt hlarge)

/-- The words of a fault: the number of bytes, or the address in two places and what its field
holds. -/
def Fault.Says : Fault → List Char → Prop
  | .size n, text => ∃ count, Text.Figures 0 n count ∧
    text = "Image is ".toList ++ count ++ " bytes, maximum is 125".toList
  | .field a v, text => ∃ address value, Text.Figures 2 a address ∧ Text.Figures 0 v value ∧
    text = "Cell ".toList ++ address ++ " holds ".toList ++ value ++ ", maximum is 999".toList

/-- A fault says this and nothing else. -/
theorem Fault.says_iff {f : Fault} {text : List Char} : f.Says text ↔ text = f.message.toList := by
  cases f with
  | size n =>
    simp only [Says, Text.figures_iff, Text.padded_zero, exists_eq_left, Fault.message,
      Text.natural, String.toList_append, String.toList_ofList]
  | field a v =>
    simp only [Says, Text.figures_iff, Text.padded_zero, exists_and_left, exists_eq_left,
      Fault.message, Text.natural, Text.field, String.toList_append, String.toList_ofList]

/-- **An image that is cut short can still be read**, and of the memory it leaves what is before the
cut. -/
theorem exists_toMemory_cut (hp : p <+: bs) (hm : toMemory bs = .ok m) :
    ∃ m', toMemory p = .ok m' ∧ ∀ a : Address,
      (10 * (a.val + 1) ≤ 8 * p.length → m'.read a = m.read a) ∧ m'.read a ≤ m.read a ∧
        (8 * p.length ≤ 10 * a.val → m'.read a = 0) := by
  obtain ⟨hsize, hfields⟩ := toMemory_eq_ok_iff.mp hm
  have hread := read_eq_fieldAt hsize hfields
  have hpsize : p.length ≤ maxSize := Nat.le_trans hp.length_le hsize
  have hsmall : ∀ a, fieldAt p a ≤ 999 := fun a =>
    Nat.le_trans (fieldAt_cut hp hsize a).2.1 ((exists_toMemory_iff.mp ⟨m, hm⟩).2 a)
  obtain ⟨m', hm'⟩ := exists_toMemory_iff.mpr ⟨hpsize, hsmall⟩
  have hread' := read_eq_fieldAt hpsize (toMemory_eq_ok_iff.mp hm').2
  refine ⟨m', hm', fun a => ?_⟩
  obtain ⟨hbefore, hle, hbehind⟩ := fieldAt_cut hp hsize a
  rw [Fin.ext_iff, Fin.le_def, Fin.ext_iff, hread, hread']
  exact ⟨hbefore, hle, hbehind⟩

/-- Bytes are no image because there are too many, or because of the first field that is too
large. -/
theorem toMemory_eq_error_iff {f : Fault} : toMemory bs = .error f ↔
    (125 < bs.length ∧ f = .size bs.length) ∨
      (bs.length ≤ 125 ∧ ∃ a : Address, f = .field a.val (fieldAt bs a) ∧
        999 < fieldAt bs a ∧ ∀ b, b < a → fieldAt bs b ≤ 999) := by
  cases f with
  | size n => simp [toMemory_eq_size_iff, maxSize]
  | field i v =>
    rw [toMemory_eq_field_iff]
    constructor
    · rintro ⟨hsize, a, rfl, rfl, hlarge, hbefore⟩
      exact .inr ⟨hsize, a, rfl, hlarge, hbefore⟩
    · rintro (⟨-, heq⟩ | ⟨hsize, a, heq, hlarge, hbefore⟩)
      · cases heq
      · cases heq
        exact ⟨hsize, a, rfl, rfl, hlarge, hbefore⟩

/-- **Which bytes are images, and of which memories.**  Bytes can be read exactly when there are at
most 125 and each of the hundred fields is at most 999.  The cells are then the fields, and the
bytes are the image of the memory with zeros behind it.  If there are too many bytes, the fault says
their number, and otherwise the lowest address whose field is too large and what is there.  An image
that is cut short anywhere can still be read: the cells before the cut stay, none becomes larger, and
those behind the cut are zero. -/
theorem toMemory_iff_fields (bs : List UInt8) :
    ((∃ m, toMemory bs = .ok m) ↔ bs.length ≤ 125 ∧ ∀ a, fieldAt bs a ≤ 999) ∧
      (∀ m, toMemory bs = .ok m → (∀ a, (m.read a).val = fieldAt bs a) ∧
        (ofMemory m).getLast? ≠ some 0 ∧ ∃ k, bs = ofMemory m ++ List.replicate k 0) ∧
      (∀ f, toMemory bs = .error f ↔ (125 < bs.length ∧ f = .size bs.length) ∨
        (bs.length ≤ 125 ∧ ∃ a : Address, f = .field a.val (fieldAt bs a) ∧
          999 < fieldAt bs a ∧ ∀ b, b < a → fieldAt bs b ≤ 999)) ∧
      (∀ f, toMemory bs = .error f → f.Says f.message.toList) ∧
      ∀ p m, p <+: bs → toMemory bs = .ok m → ∃ m', toMemory p = .ok m' ∧ ∀ a : Address,
        (10 * (a.val + 1) ≤ 8 * p.length → m'.read a = m.read a) ∧ m'.read a ≤ m.read a ∧
          (8 * p.length ≤ 10 * a.val → m'.read a = 0) := by
  refine ⟨exists_toMemory_iff, ?_, fun f => toMemory_eq_error_iff,
    fun f _ => Fault.says_iff.mpr rfl, fun p m hp hm => exists_toMemory_cut hp hm⟩
  intro m hm
  obtain ⟨hsize, hfields⟩ := toMemory_eq_ok_iff.mp hm
  exact ⟨read_eq_fieldAt hsize hfields, getLast?_ofMemory_ne m,
    exists_eq_ofMemory_append ((packed_eq_padded_iff hsize).mpr hfields)⟩

-- The second byte ends inside the field at address 1, whose first six bits are left.
example : ((toMemory [0x7D, 0x70, 0xF0]).toOption.map fun m => (m.read 0, m.read 1)) =
      some (501, 783) ∧
    ((toMemory [0x7D, 0x70]).toOption.map fun m => (m.read 0, m.read 1)) = some (501, 768) := by
  decide +kernel

end Image
end MinionComputer
