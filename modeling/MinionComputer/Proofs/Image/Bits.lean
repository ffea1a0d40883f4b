/-
# Bits and the numbers made of them

A row of bits is a number in base two, and cut into groups of `w` bits it is the same number in
base `2 ^ w`.  So packing numbers of one width into numbers of another neither changes the number
that they are together nor loses any of them.

* `ofBits_bits`, `bits_ofBits`: bits and numbers of one width are the same thing;
* `flatten_groups`, `groups_flatten`: so are a row and its groups;
* `map_ofBits_groups`, `flatMap_bits_groups`: packing and unpacking undo each other;
* `ofDigits_eq_ofBits`: neither changes the number;
* `getElem_eq_div_mod`: where a digit stands in a number.
-/
import Mathlib.Data.Nat.Digits.Defs
import MinionComputer.Image

namespace MinionComputer

/-! ## 1. Bits -/

/-- The bits of a number are its digits in base two. -/
theorem ofBits_eq_ofDigits (l : List Bool) :
    ofBits l = Nat.ofDigits 2 (l.map Bool.toNat).reverse := by
  rw [Nat.ofDigits_eq_foldr, List.foldr_reverse, List.foldl_map]
  simp only [ofBits, Nat.cast_id, Nat.add_comm]

theorem ofBits_append (l r : List Bool) :
    ofBits (l ++ r) = ofBits l * 2 ^ r.length + ofBits r := by
  simp only [ofBits_eq_ofDigits, List.map_append, List.reverse_append, Nat.ofDigits_append,
    List.length_reverse, List.length_map]
  rw [Nat.mul_comm, Nat.add_comm]

theorem ofBits_cons (b : Bool) (l : List Bool) :
    ofBits (b :: l) = 2 ^ l.length * b.toNat + ofBits l := by
  have h := ofBits_append [b] l
  rw [Nat.mul_comm] at h
  simpa [ofBits] using h

theorem ofBits_lt (l : List Bool) : ofBits l < 2 ^ l.length := by
  have h : ∀ x ∈ (l.map Bool.toNat).reverse, x < 2 := by
    simp only [List.mem_reverse, List.mem_map]
    rintro x ⟨b, _, rfl⟩
    exact Bool.toNat_lt b
  have hlt := Nat.ofDigits_lt_base_pow_length Nat.one_lt_two h
  rw [List.length_reverse, List.length_map] at hlt
  rwa [ofBits_eq_ofDigits]

/-- The lowest bits of a number depend on nothing else. -/
theorem bits_congr : ∀ {w n n' : Nat}, (∀ i < w, n.testBit i = n'.testBit i) →
    bits w n = bits w n'
  | 0, _, _, _ => rfl
  | w + 1, n, n', h => by
    rw [bits, bits, h w (Nat.lt_succ_self w),
      bits_congr fun i hi => h i (Nat.lt_succ_of_lt hi)]

/-- **Reading back the bits of a number gives its lowest part.** -/
theorem ofBits_bits (w n : Nat) : ofBits (bits w n) = n % 2 ^ w := by
  induction w with
  | zero => simp [bits, ofBits, Nat.mod_one]
  | succ w ih =>
    rw [bits, ofBits_cons, length_bits, ih, Nat.mod_pow_succ, Nat.toNat_testBit, Nat.add_comm]

/-- **The bits of the number that bits make up are these bits.** -/
theorem bits_ofBits (l : List Bool) : bits l.length (ofBits l) = l := by
  induction l with
  | nil => rfl
  | cons b l ih =>
    have hbit := Nat.testBit_two_pow_mul_add b.toNat (ofBits_lt l)
    rw [List.length_cons, bits, ofBits_cons, hbit, if_neg (Nat.lt_irrefl _), Nat.sub_self]
    have hlow : bits l.length (2 ^ l.length * b.toNat + ofBits l) = l := by
      rw [← ih, length_bits]
      refine bits_congr fun i hi => ?_
      rw [ih, hbit, if_pos hi]
    rw [hlow]
    cases b <;> rfl

/-! ## 2. Groups -/

section Groups

variable {α : Type} {w : Nat}

theorem length_of_mem_groups : ∀ {count : Nat} {l : List α}, l.length = w * count →
    ∀ g ∈ groups w count l, g.length = w
  | 0, _, _, _, hg => absurd hg List.not_mem_nil
  | count + 1, l, h, g, hg => by
    rw [Nat.mul_succ] at h
    rcases List.mem_cons.mp hg with rfl | hg
    · rw [List.length_take, h]
      omega
    · refine length_of_mem_groups ?_ g hg
      rw [List.length_drop, h]
      omega

/-- A row is its groups one after another. -/
theorem flatten_groups : ∀ {count : Nat} {l : List α}, l.length = w * count →
    (groups w count l).flatten = l
  | 0, l, h => (List.length_eq_zero_iff.mp h).symm
  | count + 1, l, h => by
    have hrest : (l.drop w).length = w * count := by
      rw [List.length_drop, h, Nat.mul_succ]
      omega
    rw [groups, List.flatten_cons, flatten_groups hrest, List.take_append_drop]

/-- Parts of one length are the groups of the row that they make up. -/
theorem groups_flatten : ∀ {ls : List (List α)}, (∀ l ∈ ls, l.length = w) →
    groups w ls.length ls.flatten = ls
  | [], _ => rfl
  | l :: ls, h => by
    have hl : l.length = w := h l List.mem_cons_self
    rw [List.length_cons, groups, List.flatten_cons, List.take_left' hl, List.drop_left' hl,
      groups_flatten fun x hx => h x (List.mem_cons_of_mem l hx)]

end Groups

/-! ## 3. Packing -/

variable {w count : Nat} {ns : List Nat} {l : List Bool}

theorem length_flatMap_bits (w : Nat) (ns : List Nat) :
    (ns.flatMap (bits w)).length = w * ns.length := by
  induction ns with
  | nil => rfl
  | cons n ns ih =>
    rw [List.flatMap_cons, List.length_append, length_bits, ih, List.length_cons, Nat.mul_succ,
      Nat.add_comm]

/-- **Numbers of a width are read back from their bits.** -/
theorem map_ofBits_groups (h : ∀ n ∈ ns, n < 2 ^ w) :
    (groups w ns.length (ns.flatMap (bits w))).map ofBits = ns := by
  have hparts : ∀ g ∈ ns.map (bits w), g.length = w := by
    simp only [List.mem_map]
    rintro g ⟨n, _, rfl⟩
    exact length_bits w n
  have hgroups := groups_flatten hparts
  rw [List.length_map] at hgroups
  rw [List.flatMap_def, hgroups, List.map_map]
  refine (List.map_congr_left fun n hn => ?_).trans (List.map_id ns)
  rw [Function.comp_apply, ofBits_bits, Nat.mod_eq_of_lt (h n hn), id]

/-- **Bits are read back from the numbers of their groups.** -/
theorem flatMap_bits_groups (h : l.length = w * count) :
    ((groups w count l).map ofBits).flatMap (bits w) = l := by
  have hgroup : ∀ g ∈ groups w count l, bits w (ofBits g) = g := by
    intro g hg
    have hlength := length_of_mem_groups h g hg
    have hbits := bits_ofBits g
    rwa [hlength] at hbits
  rw [List.flatMap_map, List.flatMap_def, List.map_congr_left hgroup, List.map_id']
  exact flatten_groups h

theorem ofBits_lt_of_mem_groups (h : l.length = w * count) :
    ∀ n ∈ (groups w count l).map ofBits, n < 2 ^ w := by
  simp only [List.mem_map]
  rintro n ⟨g, hg, rfl⟩
  have hlt := ofBits_lt g
  rwa [length_of_mem_groups h g hg] at hlt

/-! ## 4. Digits -/

/-- **Numbers of a width are the digits of the number that their bits make up.** -/
theorem ofDigits_eq_ofBits (h : ∀ n ∈ ns, n < 2 ^ w) :
    Nat.ofDigits (2 ^ w) ns.reverse = ofBits (ns.flatMap (bits w)) := by
  induction ns with
  | nil => rfl
  | cons n ns ih =>
    have hn : n < 2 ^ w := h n List.mem_cons_self
    have hrest := ih fun x hx => h x (List.mem_cons_of_mem n hx)
    rw [Nat.ofDigits_reverse_cons, hrest, List.flatMap_cons, ofBits_append, ofBits_bits,
      Nat.mod_eq_of_lt hn, length_flatMap_bits, Nat.pow_mul, Nat.add_comm, Nat.mul_comm n]

/-- A digit is what is left of the number without the digits behind it and before it. -/
theorem getElem_eq_div_mod {b i : Nat} {ds : List Nat} (hb : 0 < b) (h : ∀ d ∈ ds, d < b)
    (hi : i < ds.length) :
    ds[i] = Nat.ofDigits b ds.reverse / b ^ (ds.length - 1 - i) % b := by
  have hmem : ∀ d ∈ ds.reverse, d < b := fun d hd => h d (List.mem_reverse.mp hd)
  have hdrop : ds.reverse.drop (ds.length - 1 - i) = ds[i] :: (ds.take i).reverse := by
    rw [List.drop_reverse]
    have hcount : ds.length - (ds.length - 1 - i) = i + 1 := by omega
    rw [hcount, List.take_succ_eq_append_getElem hi, List.reverse_append]
    rfl
  rw [Nat.ofDigits_div_pow_eq_ofDigits_drop _ hb _ hmem, hdrop, Nat.ofDigits_cons,
    Nat.add_mul_mod_self_left, Nat.mod_eq_of_lt (h _ (List.getElem_mem hi))]

end MinionComputer
