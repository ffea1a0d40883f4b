/-
# Running the cases of a file

Since the cases of a file do not touch each other, a run that tests a program with them ends well
exactly when each of them passes alone, and the line that it ends with counts those that pass alone.

* `Reports`: what a run tells of the cases;
* `Program.reports_run`: what comes of a run that tests;
* `Program.cases_isolated`: for the cases themselves, and for a run with them.
-/
import MinionComputer.Proofs.Command.Budget
import MinionComputer.Proofs.Trial.Isolation

namespace MinionComputer

open Trial (Case Isolated)

/-! ## 1. Reports -/

theorem failures_eq_zero_iff {es : List Trial.Entry} :
    failures es = 0 ↔ ∀ e ∈ es, e.failure.isNone = true := by
  simp [failures]

/-- What did not fail has passed. -/
theorem length_sub_failures (es : List Trial.Entry) :
    es.length - failures es = es.countP (·.failure.isNone) := by
  have hboth := List.length_eq_countP_add_countP (p := fun e : Trial.Entry => e.failure.isNone) (l := es)
  have hfailures : failures es = es.countP fun e => !e.failure.isNone := by
    rw [failures, ← List.countP_eq_length_filter]
    simp
  simp only [Bool.not_eq_true, Bool.decide_eq_false] at hboth
  omega

/-- The line that counts the cases that pass. -/
def countLine (passing all : Nat) : List Char :=
  asLine (Text.decimal passing ++ '/' :: Text.decimal all ++ " passed".toList)

theorem wholeLines_flatMap {α : Type} (f : α → List Char) (l : List α) :
    WholeLines (l.flatMap fun x => asLine (f x)) := by
  rcases List.eq_nil_or_concat l with rfl | ⟨before, x, rfl⟩
  · exact .inl rfl
  · refine .inr ?_
    simp [asLine]

/-- A report ends with the count. -/
theorem exists_reportText (es : List Trial.Entry) : ∃ above, WholeLines above ∧
    reportText es = above ++ countLine (es.countP (·.failure.isNone)) es.length := by
  refine ⟨_, wholeLines_flatMap (fun x => entryLine x.1 x.2) (Text.numbered es), ?_⟩
  rw [← length_sub_failures]
  rfl

/-! ## 2. Runs -/

/-- A run tells of the cases how many of them pass alone: it ends with zero if all do and with one
if not, and behind other lines there is the count. -/
structure Reports (m : Memory) (cases : List Case) (f : Finished) : Prop where
  status : f.ending = .status 0 ∨ f.ending = .status 1
  passes : f.ending = .status 0 ↔ ∀ c ∈ cases, ∃ n, (c.run m).2 = .ok n
  count : ∃ above, WholeLines above ∧
    f.out = above ++ countLine (cases.countP fun c => (c.run m).2.isOk) cases.length

/-- Cases that were read from a file are those of a text. -/
theorem exists_text_of_loadCases {f : Files} {name : Option (List Char)} {cases : List Case}
    (h : (loadCases f name).result = .ok cases) : ∃ text, Case.ofText text = .ok cases := by
  unfold loadCases at h
  split at h
  · cases h
  · split at h
    · cases h
    · exact ⟨_, Outcome.mapError_eq_ok_iff.mp h⟩

namespace Program

variable {w : World} {words : List (List Char)} {r : Request} {j : Journal} {files : Files}
  {m : Memory} {cases : List Case}

/-- **What comes of a run that tests a program**, if both files can be read and the journal be
kept. -/
theorem reports_run (hr : Request.ofLine words = .ok (some r)) (hverb : r.verb = .test)
    (hj : Journal.setUpAll {} w.files (setups (.ofOptions r.options)) = .ok (j, files))
    (hm : (loadEither files (.ofOptions r.options) r.input).result = .ok m)
    (hcases : (loadCases files r.cases).result = .ok cases) : Reports m cases (run w words) := by
  obtain ⟨text, htext⟩ := exists_text_of_loadCases hcases
  have hrunAll := (Trial.isolated_of_ofText htext m).run cases (List.Subset.refl cases)
  have halone : ∀ c ∈ cases, (c.alone m).failure.isNone = true ↔ ∃ n, (c.run m).2 = .ok n := by
    intro c hc
    rw [Option.isNone_iff_eq_none]
    exact Trial.failure_alone_eq_none_iff (Trial.bytes_of_ofText htext c hc)
  have hdeed : (r.carryOut { w with files := files } (.ofOptions r.options)).result =
        .ok (if failures (cases.map (Case.alone m)) = 0 then 0 else 1) ∧
      (r.carryOut { w with files := files } (.ofOptions r.options)).out =
        reportText (cases.map (Case.alone m)) := by
    unfold Request.carryOut
    rw [hverb]
    simp only [carryOutTest, Loaded.andThen, hm, hcases, Deed.ofCases, hrunAll, and_self]
  have hending : (run w words).ending =
      .status (if failures (cases.map (Case.alone m)) = 0 then 0 else 1) := by
    rw [run_eq_finish hr hj]
    simp only [finish, hdeed.1]
  refine ⟨?_, ?_, ?_⟩
  · rw [hending]
    split
    · exact .inl rfl
    · exact .inr rfl
  · have hall : failures (cases.map (Case.alone m)) = 0 ↔
        ∀ c ∈ cases, ∃ n, (c.run m).2 = .ok n := by
      rw [failures_eq_zero_iff, List.forall_mem_map]
      exact forall₂_congr halone
    rw [hending, ← hall]
    split <;> simp_all
  · obtain ⟨above, habove, hreport⟩ := exists_reportText (cases.map (Case.alone m))
    have hcount : (cases.map (Case.alone m)).countP (·.failure.isNone) =
        cases.countP fun c => (c.run m).2.isOk := by
      rw [List.countP_map]
      refine List.countP_congr fun c hc => (halone c hc).trans ?_
      cases (c.run m).2 <;> simp [Except.isOk, Except.toBool]
    refine ⟨above, habove, ?_⟩
    rw [run_eq_finish hr hj, out_finish, hdeed.2, hreport, hcount, List.length_map]

/-- **Test cases do not touch each other.**  The cases of a file, on any memory: each has the entry
that it has alone, whichever of them are run, in whatever order and however often, and all memories
are the same afterwards.  So a run that tests a program with them ends well exactly when each passes
alone, and counts those that do. -/
theorem cases_isolated :
    (∀ (text : List Char) (cases : List Case) (m : Memory), Case.ofText text = .ok cases →
        Isolated m cases) ∧
      ∀ (w : World) (words : List (List Char)) (r : Request) (j : Journal) (files : Files)
        (m : Memory) (cases : List Case), Request.ofLine words = .ok (some r) → r.verb = .test →
        Journal.setUpAll {} w.files (setups (.ofOptions r.options)) = .ok (j, files) →
        (loadEither files (.ofOptions r.options) r.input).result = .ok m →
        (loadCases files r.cases).result = .ok cases →
          Reports m cases (run w words) :=
  ⟨fun _ _ m htext => Trial.isolated_of_ofText htext m,
    fun _ _ _ _ _ _ _ hr hverb hj hm hcases => reports_run hr hverb hj hm hcases⟩

/-- A directory with the image of a program that says the number it is told, and two cases for it.
The second expects another number. -/
def pairDesk : World where
  files := { here := [], entries :=
    [(["f.bin".toList], .file (Image.ofMemory (.ofList [901, 902]))),
      (["t.csv".toList], .file (Text.Utf8.encode "same;7;7;9\nother;7;8;9\n".toList))] }
  feed := { lines := [] }

/-- The program is to be tested with the cases. -/
def pairLine : List (List Char) := ["test", "f.bin", "t.csv"].map String.toList

/-- The two cases. -/
def pair : List Case :=
  [{ name := some "same".toList, inputs := [7], outputs := [7], maxSteps := 9 },
    { name := some "other".toList, inputs := [7], outputs := [8], maxSteps := 9 }]

theorem loadEither_pairDesk :
    (loadEither pairDesk.files (.ofOptions {}) "f.bin".toList).result = .ok (.ofList [901, 902]) := by
  decide +kernel

theorem ofText_pair : Case.ofText "same;7;7;9\nother;7;8;9\n".toList = .ok pair := by
  decide +kernel

/-- Neither case touches the other, and the run counts one of them. -/
theorem pair_reported :
    Isolated (.ofList [901, 902]) pair ∧ Reports (.ofList [901, 902]) pair (run pairDesk pairLine) ∧
      (run pairDesk pairLine).ending = .status 1 ∧
        (pair.countP fun c => (c.run (.ofList [901, 902])).2.isOk) = 1 := by
  have hline : Request.ofLine pairLine = .ok (some _) := rfl
  have hcases : (loadCases pairDesk.files (some "t.csv".toList)).result = .ok pair := by
    decide +kernel
  refine ⟨cases_isolated.1 _ _ _ ofText_pair,
    cases_isolated.2 pairDesk pairLine _ _ _ _ _ hline rfl rfl loadEither_pairDesk hcases, ?_, ?_⟩
  · decide +kernel
  · decide +kernel

end Program
end MinionComputer
