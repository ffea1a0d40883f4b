/-
# When a journal can be set up

All channels that are set up for a run write to the same file, if they write to one.  Opening it
for the first of them makes what is missing, and from then on everything is there; so whether the
journal can be set up is decided by the first channel alone.

* `fileOutlet_again`: an outlet that could be opened can be opened again;
* `exists_setUpAll_of_stable`, `setUpAll_eq_error_iff`: channels that write to a file;
* `exists_setUpAll_of_plain`: channels that do not.
-/
import MinionComputer.Journal
import MinionComputer.Proofs.Files

namespace MinionComputer
namespace Journal

variable {f g : Files} {name : List Char} {o : Outlet} {setups : List Setup} {s : Setup}

/-! ## 1. One outlet -/

/-- **An outlet that could be opened can be opened again, and nothing is made for it then.** -/
theorem fileOutlet_again (h : fileOutlet f name = .ok (o, g)) :
    fileOutlet g name = .ok (o, g) := by
  unfold fileOutlet at h ⊢
  dsimp only at h ⊢
  split at h
  · cases h
  · next f' hmade =>
    obtain ⟨⟨p, g'⟩, hopened, heq⟩ := Outcome.map_eq_ok_iff.mp h
    cases heq
    obtain ⟨hkeeps, hagain⟩ := Files.openForMore_again hopened
    rw [Files.ensureDirectory_again hmade hkeeps]
    exact Outcome.map_eq_ok_iff.mpr ⟨_, hagain, rfl⟩

/-! ## 2. Channels -/

/-- Opening the file of a channel decides whether the channel can be set up. -/
theorem setUp_of_outlet (j : Journal) (hfile : s.file = some name)
    (h : fileOutlet f name = .ok (o, g)) :
    ∃ j' f', j.setUp f s = .ok (j', f') ∧ (f' = f ∨ f' = g) := by
  have houtlets : fileOutlets f s = .ok ([o], g) := by
    unfold fileOutlets
    rw [hfile]
    exact Outcome.map_eq_ok_iff.mpr ⟨_, h, rfl⟩
  unfold setUp
  dsimp only
  split
  · exact ⟨j, f, rfl, .inl rfl⟩
  · rw [houtlets]
    exact ⟨_, g, rfl, .inr rfl⟩

/-- Once the file is there, all channels that write to it can be set up. -/
theorem exists_setUpAll_of_stable (h : fileOutlet f name = .ok (o, f)) :
    ∀ (setups : List Setup) (j : Journal), (∀ s ∈ setups, s.file = some name) →
      ∃ j', j.setUpAll f setups = .ok (j', f)
  | [], j, _ => ⟨j, rfl⟩
  | s :: rest, j, hfile => by
    rw [List.forall_mem_cons] at hfile
    obtain ⟨j', f', hset, hf'⟩ := setUp_of_outlet j hfile.1 h
    rw [hf'.elim id id] at hset
    simp only [setUpAll, hset]
    exact exists_setUpAll_of_stable h rest j' hfile.2

/-- **The channels can be set up exactly when the file of the first can be opened**, if that one
has no outlets yet, and the fault is that of the file otherwise. -/
theorem setUpAll_eq_error_iff {j : Journal} {rest : List Setup} {fault : FileFault}
    (hnew : ((j.channel? (properName s.name)).map (·.outlets)).any (!·.isEmpty) = false)
    (hfile : ∀ t ∈ s :: rest, t.file = some name) :
    j.setUpAll f (s :: rest) = .error fault ↔ fileOutlet f name = .error fault := by
  rw [List.forall_mem_cons] at hfile
  have hset : j.setUp f s = (fileOutlets f s).map fun x =>
      ((j.putChannel ⟨properName s.name, s.threshold,
        x.1 ++ [⟨if s.styled then .styled else .plain, s.console⟩]⟩).writeAll (setupNotes s),
          x.2) := by
    unfold setUp
    dsimp only
    rw [hnew]
    cases fileOutlets f s <;> rfl
  have houtlets : fileOutlets f s = (fileOutlet f name).map fun x => ([x.1], x.2) := by
    unfold fileOutlets
    rw [hfile.1]
  -- after the first channel the file is there, so that none of the others can fail
  rw [setUpAll, hset, houtlets]
  cases hopened : fileOutlet f name with
  | error fault' => simp [Except.map]
  | ok x =>
    obtain ⟨o, g⟩ := x
    simp only [Except.map]
    obtain ⟨j', hj'⟩ := exists_setUpAll_of_stable (fileOutlet_again hopened) rest _ hfile.2
    rw [hj']
    simp

/-- **Channels that write to no file can always be set up**, and leave all files as they are. -/
theorem exists_setUpAll_of_plain (f : Files) : ∀ (setups : List Setup) (j : Journal),
    (∀ s ∈ setups, s.file = none) → ∃ j', j.setUpAll f setups = .ok (j', f)
  | [], j, _ => ⟨j, rfl⟩
  | s :: rest, j, hfile => by
    rw [List.forall_mem_cons] at hfile
    obtain ⟨j', hset⟩ : ∃ j', j.setUp f s = .ok (j', f) := by
      unfold setUp fileOutlets
      dsimp only
      rw [hfile.1]
      split
      · exact ⟨j, rfl⟩
      · exact ⟨_, rfl⟩
    simp only [setUpAll, hset]
    exact exists_setUpAll_of_plain f rest j' hfile.2

end Journal
end MinionComputer
