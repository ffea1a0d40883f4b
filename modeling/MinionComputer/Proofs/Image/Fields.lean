/-
# Images as numbers

The bytes of an image, with zeros behind them, are one number of a thousand bits, and so are the
cells of a memory.  Packing keeps this number, and the field at an address is the digit of the
number at its place in base 1024.

* `Image.number`, `Image.fieldAt`, `Memory.number`: numbers and their fields, said without bits;
* `Image.number_packed`, `Image.getElem?_fields`: what packing and unpacking have to do with them;
* `Image.packed_eq_padded_iff`: packing is the inverse of unpacking;
* `Image.toMemory_eq_ok_iff`, `Image.toMemory_eq_field_iff`: which bytes are images, and what is
  wrong with the others.
-/
import MinionComputer.Proofs.Image.Bits
import MinionComputer.Proofs.Memory

namespace MinionComputer

/-- The cells of a memory as one number, the cell at address 0 the highest digit. -/
def Memory.number (m : Memory) : Nat := Nat.ofDigits 1024 (m.toList.map Fin.val).reverse

namespace Image

variable {bs : List UInt8} {m : Memory}

/-! ## 1. Numbers -/

/-- Bytes as one number, the first byte the highest digit. -/
def number (bs : List UInt8) : Nat := Nat.ofDigits 256 (bs.map UInt8.toNat).reverse

/-- The ten bits at the place of an address, in bytes with zeros behind them. -/
def fieldAt (bs : List UInt8) (a : Address) : Nat :=
  number (padded bs) / 1024 ^ (99 - a.val) % 1024

theorem lt_of_mem_bytes (bs : List UInt8) : ∀ n ∈ bs.map UInt8.toNat, n < 2 ^ 8 := by
  simp only [List.mem_map]
  rintro n ⟨b, _, rfl⟩
  exact UInt8.toNat_lt b

theorem lt_of_mem_cells (m : Memory) : ∀ n ∈ m.toList.map Fin.val, n < 2 ^ 10 := by
  simp only [List.mem_map]
  rintro n ⟨c, _, rfl⟩
  exact Nat.lt_trans c.isLt (by decide)

/-- The bits of bytes make up their number. -/
theorem number_eq_ofBits (bs : List UInt8) :
    number bs = ofBits ((bs.map UInt8.toNat).flatMap (bits 8)) :=
  ofDigits_eq_ofBits (lt_of_mem_bytes bs)

/-- So do the bits of cells. -/
theorem number_memory_eq_ofBits (m : Memory) :
    m.number = ofBits ((m.toList.map Fin.val).flatMap (bits 10)) :=
  ofDigits_eq_ofBits (lt_of_mem_cells m)

/-- **The number of a memory fits in 125 bytes.** -/
theorem number_memory_lt (m : Memory) : m.number < 256 ^ maxSize := by
  have hlt := ofBits_lt ((m.toList.map Fin.val).flatMap (bits 10))
  rw [← number_memory_eq_ofBits, length_flatMap_bits, List.length_map, Memory.length_toList] at hlt
  have hbits : 10 * 100 = 8 * maxSize := rfl
  calc m.number < 2 ^ (10 * 100) := hlt
    _ = 2 ^ (8 * maxSize) := congrArg (2 ^ ·) hbits
    _ = 256 ^ maxSize := Nat.pow_mul 2 8 maxSize

/-! ## 2. Packing and unpacking -/

theorem length_padded (h : bs.length ≤ maxSize) : (padded bs).length = maxSize := by
  rw [padded, List.length_append, List.length_replicate]
  omega

@[simp] theorem length_packed (m : Memory) : (packed m).length = maxSize := by
  rw [packed, List.length_map, length_groups]

@[simp] theorem length_fields (bs : List UInt8) : (fields bs).length = 100 := by
  rw [fields, List.length_map, length_groups]

/-- The bits of a memory in groups of ten are as many as in groups of eight. -/
theorem length_cellBits (m : Memory) :
    ((m.toList.map Fin.val).flatMap (bits 10)).length = 8 * maxSize := by
  rw [length_flatMap_bits, List.length_map, Memory.length_toList]
  rfl

/-- The bits of 125 bytes in groups of eight are as many as in groups of ten. -/
theorem length_byteBits (h : bs.length ≤ maxSize) :
    (((padded bs).map UInt8.toNat).flatMap (bits 8)).length = 10 * 100 := by
  rw [length_flatMap_bits, List.length_map, length_padded h]
  rfl

/-- The bytes of a memory as numbers. -/
theorem map_toNat_packed (m : Memory) : (packed m).map UInt8.toNat =
    (groups 8 maxSize ((m.toList.map Fin.val).flatMap (bits 10))).map ofBits := by
  rw [packed, List.flatMap_map, List.map_map]
  refine List.map_congr_left fun g hg => ?_
  have hbits := length_cellBits m
  rw [List.flatMap_map] at hbits
  have hlt := ofBits_lt_of_mem_groups hbits (ofBits g) (List.mem_map_of_mem hg)
  exact UInt8.toNat_ofNat_of_lt hlt

/-- The fields of bytes as groups of their bits. -/
theorem fields_eq (bs : List UInt8) : fields bs =
    (groups 10 100 (((padded bs).map UInt8.toNat).flatMap (bits 8))).map ofBits := by
  rw [fields, List.flatMap_map]

/-- **A memory is packed into bytes exactly when its cells are the fields of the bytes.** -/
theorem packed_eq_padded_iff (h : bs.length ≤ maxSize) :
    packed m = padded bs ↔ m.toList.map Fin.val = fields bs := by
  have hbytes : packed m = padded bs ↔
      (packed m).map UInt8.toNat = (padded bs).map UInt8.toNat :=
    (List.map_inj_right fun _ _ => UInt8.toNat_inj.mp).symm
  rw [hbytes, map_toNat_packed, fields_eq]
  constructor
  · intro heq
    have hcells := map_ofBits_groups (lt_of_mem_cells m)
    rw [List.length_map, Memory.length_toList] at hcells
    rw [← heq, flatMap_bits_groups (length_cellBits m), hcells]
  · intro heq
    have hread := map_ofBits_groups (lt_of_mem_bytes (padded bs))
    rw [List.length_map, length_padded h] at hread
    rw [heq, flatMap_bits_groups (length_byteBits h), hread]

/-- **Packing keeps the number of a memory.** -/
theorem number_packed (m : Memory) : number (packed m) = m.number := by
  rw [number_eq_ofBits, map_toNat_packed, flatMap_bits_groups (length_cellBits m),
    number_memory_eq_ofBits]

/-- **The fields of bytes are the digits of their number.** -/
theorem getElem?_fields (h : bs.length ≤ maxSize) (a : Address) :
    (fields bs)[a.val]? = some (fieldAt bs a) := by
  have ha : a.val < (fields bs).length := by
    rw [length_fields]
    exact a.isLt
  have hlt : ∀ n ∈ fields bs, n < 2 ^ 10 := by
    rw [fields_eq]
    exact ofBits_lt_of_mem_groups (length_byteBits h)
  have hnumber : Nat.ofDigits (2 ^ 10) (fields bs).reverse = number (padded bs) := by
    rw [ofDigits_eq_ofBits hlt, number_eq_ofBits, fields_eq,
      flatMap_bits_groups (length_byteBits h)]
  rw [List.getElem?_eq_getElem ha, getElem_eq_div_mod (Nat.two_pow_pos 10) hlt ha, hnumber,
    length_fields]
  rfl

/-! ## 3. Fields and cells -/

/-- Numbers are cells if they are all small enough. -/
theorem cells_eq_ok_iff : ∀ {vs : List Nat} {first : Nat} {cs : List Cell},
    cells first vs = .ok cs ↔ cs.map Fin.val = vs
  | [], _, cs => by
    rw [cells, Except.ok.injEq, List.map_eq_nil_iff]
    exact eq_comm
  | v :: vs, first, cs => by
    rw [cells]
    split
    · next hv =>
      constructor
      · intro h
        cases hrest : cells (first + 1) vs with
        | error f =>
          rw [hrest] at h
          cases h
        | ok rest =>
          rw [hrest] at h
          cases h
          rw [List.map_cons, cells_eq_ok_iff.mp hrest]
      · intro h
        obtain ⟨c, rest, rfl, rfl, hrest⟩ := List.map_eq_cons_iff.mp h
        rw [cells_eq_ok_iff.mpr hrest]
        rfl
    · next hv =>
      refine iff_of_false (fun h => by cases h) fun h => ?_
      obtain ⟨c, rest, rfl, rfl, -⟩ := List.map_eq_cons_iff.mp h
      exact hv c.isLt

/-- What is reported otherwise is the first number that is too large, at its address. -/
theorem cells_eq_error_iff : ∀ {vs : List Nat} {first : Nat} {f : Fault},
    cells first vs = .error f ↔ ∃ i v, f = .field (first + i) v ∧ vs[i]? = some v ∧ 999 < v ∧
      ∀ (j u : Nat), j < i → vs[j]? = some u → u ≤ 999
  | [], _, f => by simp [cells]
  | v :: vs, first, f => by
    rw [cells]
    split
    · next hv =>
      have hrest : (cells (first + 1) vs).map (⟨v, hv⟩ :: ·) = .error f ↔
          cells (first + 1) vs = .error f := by
        cases cells (first + 1) vs <;> simp [Except.map]
      rw [hrest, cells_eq_error_iff]
      constructor
      · rintro ⟨i, u, rfl, hu, hlarge, hbefore⟩
        refine ⟨i + 1, u, by rw [Nat.add_assoc, Nat.add_comm 1], hu, hlarge, fun j w hj hw => ?_⟩
        cases j with
        | zero =>
          cases hw
          exact Nat.le_of_lt_succ hv
        | succ j => exact hbefore j w (Nat.lt_of_succ_lt_succ hj) hw
      · rintro ⟨i, u, rfl, hu, hlarge, hbefore⟩
        cases i with
        | zero =>
          cases hu
          omega
        | succ i =>
          refine ⟨i, u, by rw [Nat.add_assoc, Nat.add_comm 1], hu, hlarge, fun j w hj hw => ?_⟩
          exact hbefore (j + 1) w (Nat.succ_lt_succ hj) hw
    · next hv =>
      rw [Except.error.injEq]
      constructor
      · rintro rfl
        exact ⟨0, v, rfl, rfl, by omega, fun j u hj _ => absurd hj (Nat.not_lt_zero j)⟩
      · rintro ⟨i, u, rfl, hu, hlarge, hbefore⟩
        cases i with
        | zero =>
          cases hu
          rfl
        | succ i => exact absurd (hbefore 0 v (Nat.succ_pos i) rfl) (by omega)

/-- **Bytes are the image of a memory exactly when they are not too many and its cells are their
fields.** -/
theorem toMemory_eq_ok_iff :
    toMemory bs = .ok m ↔ bs.length ≤ maxSize ∧ m.toList.map Fin.val = fields bs := by
  unfold toMemory
  split
  · next h => exact iff_of_false (fun h => by cases h) fun h' => absurd h'.1 (Nat.not_le_of_lt h)
  · next h =>
    refine Iff.trans ?_ (and_iff_right (Nat.le_of_not_lt h)).symm
    constructor
    · intro hm
      cases hcells : cells 0 (fields bs) with
      | error f =>
        rw [hcells] at hm
        cases hm
      | ok cs =>
        rw [hcells] at hm
        obtain rfl : Memory.ofList cs = m := Except.ok.inj hm
        have hfields := cells_eq_ok_iff.mp hcells
        have hlength : cs.length = 100 := by rw [← length_fields bs, ← hfields, List.length_map]
        rw [Memory.toList_ofList hlength, hfields]
    · intro hm
      rw [cells_eq_ok_iff.mpr hm, Except.map, Memory.ofList_toList]

/-- Too many bytes are reported with their number. -/
theorem toMemory_eq_size_iff {n : Nat} :
    toMemory bs = .error (.size n) ↔ maxSize < bs.length ∧ n = bs.length := by
  unfold toMemory
  split
  · next h => simp [h, eq_comm]
  · next h =>
    refine iff_of_false (fun hn => ?_) fun h' => h h'.1
    cases hcells : cells 0 (fields bs) with
    | error f =>
      rw [hcells] at hn
      obtain ⟨i, v, rfl, -⟩ := cells_eq_error_iff.mp hcells
      cases hn
    | ok cs =>
      rw [hcells] at hn
      cases hn

/-- **Of bytes that are not too many, the lowest field that is too large is reported.** -/
theorem toMemory_eq_field_iff {i v : Nat} : toMemory bs = .error (.field i v) ↔
    bs.length ≤ maxSize ∧ ∃ a : Address, a.val = i ∧ fieldAt bs a = v ∧ 999 < v ∧
      ∀ b, b < a → fieldAt bs b ≤ 999 := by
  unfold toMemory
  split
  · next h =>
    exact iff_of_false (fun hn => by cases hn) fun h' => absurd h'.1 (Nat.not_le_of_lt h)
  · next h =>
    have hsize : bs.length ≤ maxSize := Nat.le_of_not_lt h
    have herror : (cells 0 (fields bs)).map Memory.ofList = .error (.field i v) ↔
        cells 0 (fields bs) = .error (.field i v) := by
      cases cells 0 (fields bs) <;> simp [Except.map]
    rw [herror, cells_eq_error_iff, and_iff_right hsize]
    constructor
    · rintro ⟨k, u, heq, hu, hlarge, hbefore⟩
      cases heq
      have hk : k < 100 := by
        rw [← length_fields bs]
        exact (List.getElem?_eq_some_iff.mp hu).1
      have hfield := getElem?_fields hsize ⟨k, hk⟩
      rw [hu] at hfield
      refine ⟨⟨k, hk⟩, (Nat.zero_add k).symm, (Option.some.inj hfield).symm, hlarge, ?_⟩
      exact fun b hb => hbefore b.val _ hb (getElem?_fields hsize b)
    · rintro ⟨a, rfl, rfl, hlarge, hbefore⟩
      refine ⟨a.val, _, by rw [Nat.zero_add], getElem?_fields hsize a, hlarge, fun j u hj hu => ?_⟩
      have hj' : j < 100 := Nat.lt_trans hj a.isLt
      have hfield := getElem?_fields hsize ⟨j, hj'⟩
      rw [hu] at hfield
      rw [Option.some.inj hfield]
      exact hbefore ⟨j, hj'⟩ hj

end Image
end MinionComputer
