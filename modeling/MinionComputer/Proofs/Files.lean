/-
# What stays where it is in the files

A name leads through directories.  As long as those stay directories it leads where it led, however
many other entries come and go (`Keeps`, `walk_of_keeps`).  So what was written under a name is
read under it again, and a directory or a file that was made once is there when it is asked for once
more.

* `entry_put`: one entry more;
* `Takes`, `Takes.read_of_write`: a file that was written is read back;
* `ensureDirectory_again`: directories that were made are there;
* `openForMore_again`: so is a file that was opened.
-/
import MinionComputer.Files.Basic
import MinionComputer.Proofs.Outcome

namespace MinionComputer
namespace Files

variable {f g : Files} {p q : Place} {name : List Char}

/-! ## 1. One entry -/

theorem entry_root (f : Files) : f.entry? [] = some .directory := rfl

theorem entry_put (f : Files) (hp : p ≠ []) (e : Entry) (q : Place) :
    Files.entry? (f.put p e) q = if q = p then some e else f.entry? q := by
  unfold entry? put
  have hfilter : ∀ es : List (Place × Entry), q ≠ p →
      (es.filter (·.1 != p)).find? (·.1 == q) = es.find? (·.1 == q) := by
    intro es hne
    rw [List.find?_filter]
    congr 1
    funext x
    by_cases hx : x.1 = q
    · simp [hx, hne]
    · simp [hx]
  by_cases hq : q = p
  · subst hq
    have hnone : (f.entries.filter (·.1 != q)).find? (·.1 == q) = none := by
      rw [List.find?_eq_none]
      intro x hx
      have := (List.mem_filter.mp hx).2
      simpa using this
    have hempty : q.isEmpty = false := by simpa using hp
    simp [hempty, List.find?_append, hnone]
  · rw [if_neg hq]
    cases hempty : q.isEmpty with
    | true => rfl
    | false =>
      have hlast : [(p, e)].find? (fun x => x.1 == q) = none := by
        simp [Ne.symm hq]
      simp only [Bool.false_eq_true, if_false]
      rw [List.find?_append, hfilter _ hq, hlast, Option.or_none]

/-! ## 2. Directories that stay -/

/-- One is in the same directory, and what was a directory is one. -/
structure Keeps (f g : Files) : Prop where
  here : g.here = f.here
  directory : ∀ p, f.entry? p = some .directory → g.entry? p = some .directory

theorem Keeps.refl (f : Files) : f.Keeps f := ⟨rfl, fun _ h => h⟩

theorem Keeps.trans {h : Files} (hfg : f.Keeps g) (hgh : g.Keeps h) : f.Keeps h where
  here := hgh.here.trans hfg.here
  directory p hp := hgh.directory p (hfg.directory p hp)

/-- An entry that does not take the place of a directory. -/
theorem keeps_put (hp : f.entry? p ≠ some .directory) (e : Entry) : f.Keeps (f.put p e) where
  here := rfl
  directory q hq := by
    have hroot : p ≠ [] := by
      rintro rfl
      exact hp (entry_root f)
    rw [entry_put f hroot]
    by_cases hqp : q = p
    · exact absurd (hqp ▸ hq) hp
    · rwa [if_neg hqp]

/-- A directory takes the place of nothing that was needed as one. -/
theorem keeps_put_directory (hp : p ≠ []) : f.Keeps (f.put p .directory) where
  here := rfl
  directory q hq := by
    rw [entry_put f hp]
    split
    · rfl
    · exact hq

theorem enter_of_keeps (h : f.Keeps g) {part : List Char} (he : f.enter p part = .ok q) :
    g.enter p part = .ok q := by
  unfold enter at he ⊢
  split at he
  · cases he
  · next hlimit =>
    rw [if_neg hlimit]
    split at he
    · next hidle =>
      rw [if_pos hidle]
      exact he
    · next hidle =>
      rw [if_neg hidle]
      split at he
      · next hback =>
        rw [if_pos hback]
        exact he
      · next hback =>
        rw [if_neg hback]
        split at he
        · cases he
        · next hentry =>
          rw [h.directory _ hentry]
          exact he
        · cases he

theorem walkFrom_of_keeps (h : f.Keeps g) {slash : Bool} {t : Target} :
    ∀ (parts : List (List Char)) (p : Place), f.walkFrom slash p parts = .ok t →
      g.walkFrom slash p parts = .ok t
  | [], p, hw => hw
  | [last], p, hw => by
    unfold walkFrom at hw ⊢
    split at hw
    · next hdots =>
      rw [if_pos hdots]
      obtain ⟨q, hq, rfl⟩ := Outcome.map_eq_ok_iff.mp hw
      exact Outcome.map_eq_ok_iff.mpr ⟨q, enter_of_keeps h hq, rfl⟩
    · next hdots =>
      rw [if_neg hdots]
      exact hw
  | part :: next :: rest, p, hw => by
    unfold walkFrom at hw ⊢
    split at hw
    · cases hw
    · next p' hp' =>
      rw [enter_of_keeps h hp']
      exact walkFrom_of_keeps h (next :: rest) p' hw

/-- **A name leads where it led, as long as the directories stay.** -/
theorem walk_of_keeps (h : f.Keeps g) {t : Target} (hw : f.walk name = .ok t) :
    g.walk name = .ok t := by
  unfold walk at hw ⊢
  split at hw
  · cases hw
  · next hempty =>
    rw [if_neg hempty]
    split at hw
    · cases hw
    · next hlimit =>
      rw [if_neg hlimit, h.here]
      exact walkFrom_of_keeps h _ _ hw

/-! ## 3. Reading what was written -/

theorem checked_eq_ok_iff {α : Type} {r : Except FileReason α} {a : α} :
    checked name r = .ok a ↔ '\x00' ∉ name ∧ r = .ok a := by
  unfold checked
  by_cases hzero : '\x00' ∈ name
  · simp [hzero]
  · simp [hzero, Outcome.mapError_eq_ok_iff]

theorem look_eq_ok_iff {e : Option Entry} :
    f.look p = .ok e ↔ size (p.getLast?.getD []) ≤ partLimit ∧ f.entry? p = e := by
  unfold look
  split
  · next hlimit => simp [Nat.not_le_of_lt hlimit]
  · next hlimit => simp [Nat.le_of_not_lt hlimit]

/-- A file may be written at a part whose name is short enough, unless it is a directory. -/
theorem writable_eq_ok_iff {t : Target} :
    f.writable t = .ok p ↔ t = .part p false ∧ size (p.getLast?.getD []) ≤ partLimit ∧
      f.entry? p ≠ some .directory := by
  cases t with
  | directory q => simp [writable]
  | part q must =>
    cases must with
    | true => simp [writable]
    | false =>
      simp only [writable, Bool.false_eq_true, if_false, Target.part.injEq, and_true]
      by_cases hlimit : size (q.getLast?.getD []) ≤ partLimit
      · have hlook : f.look q = .ok (f.entry? q) := look_eq_ok_iff.mpr ⟨hlimit, rfl⟩
        rw [hlook]
        rcases hentry : f.entry? q with _ | (_ | content | _)
        · exact ⟨fun h => by cases h; exact ⟨rfl, hlimit, by simp [hentry]⟩, fun h => by rw [h.1]⟩
        · exact iff_of_false (by simp) fun h => h.2.2 (h.1 ▸ hentry)
        · exact ⟨fun h => by cases h; exact ⟨rfl, hlimit, by simp [hentry]⟩, fun h => by rw [h.1]⟩
        · exact ⟨fun h => by cases h; exact ⟨rfl, hlimit, by simp [hentry]⟩, fun h => by rw [h.1]⟩
      · have hlook : f.look q = .error .tooLong := if_pos (Nat.lt_of_not_le hlimit)
        rw [hlook]
        refine iff_of_false (by simp) ?_
        rintro ⟨rfl, h, -⟩
        exact hlimit h

/-- The name leads to `p`, and a file may be written there. -/
structure LeadsTo (f : Files) (name : List Char) (p : Place) : Prop where
  zero : '\x00' ∉ name
  walk : f.walk name = .ok (.part p false)
  short : size (p.getLast?.getD []) ≤ partLimit
  free : f.entry? p ≠ some .directory

theorem walk_bind_writable_iff :
    ('\x00' ∉ name ∧ (f.walk name).bind f.writable = .ok p) ↔ f.LeadsTo name p := by
  rw [Outcome.bind_eq_ok_iff]
  constructor
  · rintro ⟨hzero, t, hwalk, ht⟩
    obtain ⟨rfl, hshort, hfree⟩ := writable_eq_ok_iff.mp ht
    exact ⟨hzero, hwalk, hshort, hfree⟩
  · intro h
    exact ⟨h.zero, _, h.walk, writable_eq_ok_iff.mpr ⟨rfl, h.short, h.free⟩⟩

theorem write_eq_ok_iff {content : List UInt8} :
    f.write name content = .ok g ↔ ∃ p, f.LeadsTo name p ∧ g = f.store content p := by
  simp only [write, checked_eq_ok_iff, Outcome.map_eq_ok_iff, ← walk_bind_writable_iff]
  constructor
  · rintro ⟨hzero, p, hp, rfl⟩
    exact ⟨p, ⟨hzero, hp⟩, rfl⟩
  · rintro ⟨p, ⟨hzero, hp⟩, rfl⟩
    exact ⟨hzero, p, hp, rfl⟩

theorem openForMore_eq_ok_iff :
    f.openForMore name = .ok (p, g) ↔
      f.LeadsTo name p ∧ g = if (f.entry? p).isSome then f else f.store [] p := by
  simp only [openForMore, checked_eq_ok_iff, Outcome.map_eq_ok_iff, ← walk_bind_writable_iff]
  constructor
  · rintro ⟨hzero, p', hp, heq⟩
    cases heq
    exact ⟨⟨hzero, hp⟩, rfl⟩
  · rintro ⟨⟨hzero, hp⟩, rfl⟩
    exact ⟨hzero, p, hp, rfl⟩

theorem LeadsTo.ne_nil (h : f.LeadsTo name p) : p ≠ [] := by
  rintro rfl
  exact h.free (entry_root f)

/-- Storing a file leaves the directories where they are. -/
theorem LeadsTo.keeps_store (h : f.LeadsTo name p) (content : List UInt8) :
    f.Keeps (f.store content p) := by
  unfold store
  split
  · exact .refl f
  · exact keeps_put h.free _

/-- What is stored stands there, unless everything that is stored there is lost. -/
theorem LeadsTo.entry_store (h : f.LeadsTo name p) (content : List UInt8) :
    Files.entry? (f.store content p) p =
      some (if f.entry? p = some .void then .void else .file content) := by
  unfold store
  split
  · next hvoid => exact hvoid
  · rw [entry_put f h.ne_nil, if_pos rfl]

/-- The name leads to the same place as long as the directories stay. -/
theorem LeadsTo.of_keeps (h : f.LeadsTo name p) (hkeeps : f.Keeps g)
    (hfree : g.entry? p ≠ some .directory) : g.LeadsTo name p where
  zero := h.zero
  walk := walk_of_keeps hkeeps h.walk
  short := h.short
  free := hfree

theorem LeadsTo.store (h : f.LeadsTo name p) (content : List UInt8) :
    (f.store content p).LeadsTo name p := by
  refine h.of_keeps (h.keeps_store content) ?_
  rw [h.entry_store]
  split <;> simp

theorem LeadsTo.read (h : f.LeadsTo name p) {content : List UInt8}
    (hentry : f.entry? p = some (.file content)) : f.read name = .ok content := by
  have hlook : f.look p = .ok (some (.file content)) := look_eq_ok_iff.mpr ⟨h.short, hentry⟩
  refine checked_eq_ok_iff.mpr ⟨h.zero, Outcome.bind_eq_ok_iff.mpr ⟨_, h.walk, ?_⟩⟩
  simp [readTarget, hlook]

/-- A name leads to one place only. -/
theorem LeadsTo.unique (hp : f.LeadsTo name p) (hq : f.LeadsTo name q) : p = q := by
  have hwalk := hp.walk.symm.trans hq.walk
  cases hwalk
  rfl

/-- A file may be written under the name, and what is written is not lost. -/
def Takes (f : Files) (name : List Char) : Prop :=
  ∃ p, f.LeadsTo name p ∧ f.entry? p ≠ some .void

variable {content : List UInt8}

theorem Takes.exists_write (h : f.Takes name) (content : List UInt8) :
    ∃ g, f.write name content = .ok g := by
  obtain ⟨p, hleads, -⟩ := h
  exact ⟨f.store content p, write_eq_ok_iff.mpr ⟨p, hleads, rfl⟩⟩

/-- **What was written under a name is read under it.** -/
theorem Takes.read_of_write (h : f.Takes name) (hwrite : f.write name content = .ok g) :
    g.read name = .ok content := by
  obtain ⟨p, hleads, hvoid⟩ := h
  obtain ⟨q, hleads', rfl⟩ := write_eq_ok_iff.mp hwrite
  obtain rfl := hleads.unique hleads'
  refine (hleads.store content).read ?_
  rw [hleads.entry_store, if_neg hvoid]

/-- **Writing a file takes no name away**, not even its own. -/
theorem Takes.of_write {other : List Char} (h : f.Takes name)
    (hwrite : f.write other content = .ok g) : g.Takes name := by
  obtain ⟨p, hleads, hvoid⟩ := h
  obtain ⟨q, hother, rfl⟩ := write_eq_ok_iff.mp hwrite
  have hentry : ∀ e, (e = .directory ∨ e = .void) → f.entry? p ≠ some e →
      Files.entry? (f.store content q) p ≠ some e := by
    intro e he hne
    unfold store
    split
    · exact hne
    · rw [entry_put f hother.ne_nil]
      split
      · rcases he with rfl | rfl <;> simp
      · exact hne
  exact ⟨p, hleads.of_keeps (hother.keeps_store content) (hentry _ (.inl rfl) hleads.free),
    hentry _ (.inr rfl) hvoid⟩

/-! ## 4. What was made is there -/

theorem isDirectory_iff : f.isDirectory name = true ↔
    (∃ p, f.walk name = .ok (.directory p)) ∨
      ∃ p b, f.walk name = .ok (.part p b) ∧ f.entry? p = some .directory := by
  unfold isDirectory
  rcases f.walk name with _ | (_ | _) <;> simp

theorem isDirectory_of_keeps (h : f.Keeps g) (hd : f.isDirectory name = true) :
    g.isDirectory name = true := by
  rw [isDirectory_iff] at hd ⊢
  rcases hd with ⟨p, hp⟩ | ⟨p, b, hp, hentry⟩
  · exact .inl ⟨p, walk_of_keeps h hp⟩
  · exact .inr ⟨p, b, walk_of_keeps h hp, h.directory p hentry⟩

/-- A directory that is there is not made again. -/
theorem makeMissing_of_isDirectory (h : f.isDirectory name = true) :
    f.makeMissing name = .ok f := by
  have hrefused : ∃ reason, f.makeDirectory name = .error reason ∧ reason ≠ .missing := by
    unfold makeDirectory
    rcases isDirectory_iff.mp h with ⟨p, hp⟩ | ⟨p, b, hp, hentry⟩
    · exact ⟨.occupied, by rw [hp]; rfl, by simp⟩
    · by_cases hlimit : size (p.getLast?.getD []) ≤ partLimit
      · have hlook : f.look p = .ok (some .directory) := look_eq_ok_iff.mpr ⟨hlimit, hentry⟩
        refine ⟨.occupied, ?_, by simp⟩
        rw [hp]
        simp only [Except.bind, makeDirectoryAt, hlook]
      · have hlook : f.look p = .error .tooLong := if_pos (Nat.lt_of_not_le hlimit)
        refine ⟨.tooLong, ?_, by simp⟩
        rw [hp]
        simp only [Except.bind, makeDirectoryAt, hlook]
  obtain ⟨reason, hreason, hne⟩ := hrefused
  simp only [makeMissing, hreason, if_pos (And.intro hne h)]

/-- A directory that was made, if it had to be, is there. -/
theorem isDirectory_of_makeMissing (h : f.makeMissing name = .ok g) :
    f.Keeps g ∧ g.isDirectory name = true := by
  unfold makeMissing at h
  split at h
  · next g' hmade =>
    cases h
    unfold makeDirectory at hmade
    obtain ⟨t, ht, hat⟩ := Outcome.bind_eq_ok_iff.mp hmade
    cases t with
    | directory p => cases hat
    | part p b =>
      simp only [makeDirectoryAt] at hat
      split at hat
      · cases hat
      · next hlook =>
        cases hat
        have hnone : f.entry? p = none := (look_eq_ok_iff.mp hlook).2
        have hp : p ≠ [] := by
          rintro rfl
          cases hnone
        have hkeeps : f.Keeps (f.put p .directory) := keeps_put_directory hp
        refine ⟨hkeeps, isDirectory_iff.mpr (.inr ⟨p, b, walk_of_keeps hkeeps ht, ?_⟩)⟩
        rw [entry_put f hp, if_pos rfl]
      · cases hat
  · split at h
    · next hthere =>
      cases h
      exact ⟨.refl f, hthere.2⟩
    · cases h

theorem isDirectory_of_ensureWithin : ∀ (n : Nat) (f g : Files) (p : Path),
    f.ensureWithin n p = .ok g → f.Keeps g ∧ g.isDirectory p.text = true
  | 0, f, g, p, h => isDirectory_of_makeMissing (Outcome.mapError_eq_ok_iff.mp h)
  | n + 1, f, g, p, h => by
    unfold ensureWithin at h
    split at h
    · next hmade =>
      cases h
      exact isDirectory_of_makeMissing hmade
    · split at h
      · cases h
      · next f' habove =>
        obtain ⟨hkeeps, -⟩ := isDirectory_of_ensureWithin n f f' p.parent habove
        obtain ⟨hkeeps', hthere⟩ := isDirectory_of_makeMissing (Outcome.mapError_eq_ok_iff.mp h)
        exact ⟨hkeeps.trans hkeeps', hthere⟩
    · cases h

/-- **Directories that were made are not made again**, wherever the directories stay. -/
theorem ensureDirectory_again {h : Files} {p : Path} (hmade : f.ensureDirectory p = .ok g)
    (hkeeps : g.Keeps h) : h.ensureDirectory p = .ok h := by
  unfold ensureDirectory at hmade ⊢
  split at hmade
  · cases hmade
  · next hzero =>
    obtain ⟨-, hthere⟩ := isDirectory_of_ensureWithin _ f g p hmade
    have hmissing := makeMissing_of_isDirectory (isDirectory_of_keeps hkeeps hthere)
    rw [if_neg hzero]
    cases p.parts.length with
    | zero =>
      rw [ensureWithin, hmissing]
      rfl
    | succ n => simp only [ensureWithin, hmissing]

/-- **A file that was opened is opened again at the same place**, and is there already. -/
theorem openForMore_again (h : f.openForMore name = .ok (p, g)) :
    f.Keeps g ∧ g.openForMore name = .ok (p, g) := by
  obtain ⟨hleads, rfl⟩ := openForMore_eq_ok_iff.mp h
  by_cases hentry : (f.entry? p).isSome
  · rw [if_pos hentry]
    exact ⟨.refl f, openForMore_eq_ok_iff.mpr ⟨hleads, by rw [if_pos hentry]⟩⟩
  · rw [if_neg hentry]
    refine ⟨hleads.keeps_store [], openForMore_eq_ok_iff.mpr ⟨hleads.store [], ?_⟩⟩
    rw [hleads.entry_store, Option.isSome_some, if_pos rfl]

end Files
end MinionComputer
