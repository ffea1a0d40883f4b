/-
# All routes from a source text to its execution

A source text may be executed as it is, or first be made into an image, into a list of numbers, or
into an image that is shown as a source text again.  Each of these is read back as the memory that
the source text was assembled to, and an execution only depends on that memory, so it makes no
difference which way is taken.

* `Asking`, `Routes`: the command lines of all routes, and the names of the files on the way;
* `Finished.Agrees`: two runs that end in the same way and write the same;
* `loadImage_of_read`, `loadNumbers_of_read`, `loadProgram_of_read`: what was written is read back;
* `Routes.agree`: the routes agree.
-/
import MinionComputer.Proofs.Command.Status
import MinionComputer.Proofs.Disassembly
import MinionComputer.Proofs.Image.RoundTrip
import MinionComputer.Proofs.NumberList
import MinionComputer.Proofs.Text.Utf8

namespace MinionComputer

variable {w : World} {f g : Files} {s : Settings} {m : Memory} {name : List Char}
  {d d' : Deed} {r : Request}

/-! ## 1. What was written is read back -/

theorem readText_of_encoded {text : List Char} (hread : f.read name = .ok (Text.Utf8.encode text))
    (hreturn : '\r' ∉ text) : readText f name = .ok text := by
  simp only [readText, hread, Text.Utf8.decode_encode, Text.unifyLineEnds_of_not_mem hreturn]

/-- An image is read back as its memory. -/
theorem loadImage_of_read (hread : f.read (Path.plain name) = .ok (Image.ofMemory m)) :
    (loadImage f name).result = .ok m := by
  have hmemory : Image.toMemory (Image.ofMemory m) = .ok m :=
    Image.toMemory_eq_ok_iff.mpr ⟨Image.length_ofMemory_le m,
      (Image.packed_eq_padded_iff (Image.length_ofMemory_le m)).mp (Image.padded_ofMemory m).symm⟩
  simp only [loadImage, hread, hmemory]
  rfl

/-- All cells in decimal, a line for each, are read back as their memory. -/
theorem loadNumbers_of_read (hread : f.read name = .ok (Text.Utf8.encode (numberText m))) :
    (loadNumbers f name).result = .ok m := by
  have hne : m.toList ≠ [] := List.ne_nil_of_length_pos (by rw [Memory.length_toList]; decide)
  have hreturn : '\r' ∉ numberText m := by
    refine Text.return_not_mem_joinWith fun l hl c hc => ?_
    obtain ⟨cell, -, rfl⟩ := List.mem_map.mp hl
    exact (Text.decimal_decimal cell.val).isLineEnd c hc
  have hnumbers : NumberList.ofText (numberText m) = .ok m.toList :=
    NumberList.ofText_decimals hne (Nat.le_of_eq m.length_toList)
  simp only [loadNumbers, readText_of_encoded hread hreturn, NumberList.toMemory, hnumbers]
  exact congrArg Except.ok m.ofList_toList

/-- A memory that is shown as a source text is read back, wherever the extended instructions are
on. -/
theorem loadProgram_of_read (hextended : s.extended = true)
    (hread : f.read name = .ok (Text.Utf8.encode m.sourceText)) :
    (loadProgram f s name).result = .ok m := by
  have hreturn : '\r' ∉ m.sourceText := by
    rw [Memory.sourceText_eq_programText]
    refine Text.return_not_mem_joinWith fun l hl c hc => ?_
    obtain ⟨s, hs, rfl⟩ := List.mem_map.mp hl
    exact (Disassembly.plain_of_mem_program hs).isLineEnd_of_mem_text hc
  have hresult := Memory.ofSource_sourceText m none (.inl hextended)
  simp only [loadProgram, loadSource, readText_of_encoded hread hreturn, hresult]
  rfl

/-! ## 2. Writing in every form -/

/-- The ending of a name, by which the form of a file is chosen. -/
def fileEnding (name : List Char) : String := String.ofList (Text.lowerAscii (extension name))

theorem saveAssembly_eq (f : Files) (name : List Char) (a : Source.Assembly) (m : Memory) :
    saveAssembly f name a m =
      if fileEnding name = ".lst" then saveText f name (asLine a.listing)
      else if fileEnding name = ".txt" then saveText f name (numberText m)
      else saveImage f name m := rfl

/-- An image is written under every name that does not end as a listing or a list of numbers. -/
theorem exists_saveAssembly_image (htakes : f.Takes (Path.plain name))
    (hending : fileEnding name ∉ [".lst", ".txt"]) (a : Source.Assembly) (m : Memory) :
    ∃ g notes, saveAssembly f name a m = .ok (g, notes) ∧
      f.write (Path.plain name) (Image.ofMemory m) = .ok g := by
  simp only [List.mem_cons, List.not_mem_nil, or_false, not_or] at hending
  obtain ⟨g, hwrite⟩ := htakes.exists_write (Image.ofMemory m)
  refine ⟨g, [Image.savedNote (Image.ofMemory m) (String.ofList name)], ?_, hwrite⟩
  rw [saveAssembly_eq, if_neg hending.1, if_neg hending.2, saveImage, hwrite]
  rfl

/-- The numbers are written under every name that ends as a list of numbers. -/
theorem exists_saveAssembly_numbers (htakes : f.Takes name) (hending : fileEnding name = ".txt")
    (a : Source.Assembly) (m : Memory) :
    ∃ g notes, saveAssembly f name a m = .ok (g, notes) ∧
      f.write name (Text.Utf8.encode (numberText m)) = .ok g := by
  have hlisting : fileEnding name ≠ ".lst" := by
    rw [hending]
    decide
  obtain ⟨g, hwrite⟩ := htakes.exists_write (Text.Utf8.encode (numberText m))
  refine ⟨g, [], ?_, hwrite⟩
  rw [saveAssembly_eq, if_neg hlisting, if_pos hending, saveText, hwrite]
  rfl

/-! ## 3. Runs that agree -/

/-- Two runs end in the same way, and write the same to both outputs, but for their journals. -/
structure Finished.Agrees (a b : Finished) : Prop where
  ending : a.ending = b.ending
  out : a.out = b.out
  err : a.err = b.err

/-- The deeds end in the same way, and write the same. -/
structure Deed.Alike (d d' : Deed) : Prop where
  result : d.result = d'.result
  out : d.out = d'.out
  err : d.err = d'.err

theorem agrees_finish (h : d.Alike d') (j j' : Journal) (v v' : Verb) :
    (Program.finish j v d).Agrees (Program.finish j' v' d') := by
  unfold Program.finish
  rw [h.result, h.out, h.err]
  rcases d'.result with (_ | _ | _) | _ <;> exact ⟨rfl, rfl, rfl⟩

/-- **Executing the same memory is the same**, whatever it was read from and whatever other files
there are. -/
theorem alike_carryOutRun {l l' : Loaded Memory} (hl : l.result = .ok m) (hl' : l'.result = .ok m)
    (f : Files) (plainOnly : Bool) (o : Options) :
    (carryOutRun w (Settings.ofOptions { o with plainOnly := plainOnly }) l).Alike
      (carryOutRun { w with files := f } (Settings.ofOptions o) l') := by
  have hsettings : ∀ m, executeProgram w (Settings.ofOptions { o with plainOnly := plainOnly }) m =
      executeProgram w (Settings.ofOptions o) m := fun m => rfl
  unfold carryOutRun Loaded.andThen
  rw [hl, hl']
  dsimp only
  rw [hsettings]
  unfold executeProgram
  cases (Settings.ofOptions o).port.filter (!·.isEmpty) with
  | none => exact ⟨rfl, rfl, rfl⟩
  | some name =>
    dsimp only
    unfold Loaded.andThen
    cases (openLine w.ports name (Settings.ofOptions o)).result <;> exact ⟨rfl, rfl, rfl⟩

/-- Only a deed that went well leaves a status of zero. -/
theorem result_of_ending_finish {j : Journal} {v : Verb}
    (h : (Program.finish j v d).ending = .status 0) : d.result = .ok 0 := by
  unfold Program.finish at h
  rcases hresult : d.result with (_ | _ | _) | code <;> rw [hresult] at h <;> cases h
  rfl

/-! ## 4. Command lines -/

/-- A command line that asks for a request. -/
structure Asking (r : Request) where
  words : List (List Char)
  asks : Request.ofLine words = .ok (some r)

/-- The run of the command line in a world. -/
def Asking.run (a : Asking r) (w : World) : Finished := Program.run w a.words

/-- The world after a run in it. -/
def World.after (w : World) (done : Finished) : World := { w with files := done.files }

/-- A request for a verb with nothing but a file to be read. -/
def Request.reading (v : Verb) (o : Options) (input : List Char) : Request where
  verb := v
  options := o
  input := input
  cases := none
  output := none
  listing := false
  source := false

/-- A run that keeps no journal in a file is what comes of its request. -/
theorem Asking.exists_run (a : Asking r) (hlog : r.options.logFile = none) (w : World) :
    ∃ j, a.run w =
      Program.finish j r.verb (r.carryOut w (Settings.ofOptions r.options)) := by
  have hplain : (Settings.ofOptions r.options).logFile = none := by
    simp [Settings.ofOptions, hlog]
  obtain ⟨j, hj⟩ := Program.exists_finish_of_plain (w := w) hplain
  exact ⟨j, (Program.run_eq a.asks).trans hj⟩

/-- The files of all routes, and the command lines.  The source text is executed, or made into an
image or a list of numbers; the image is executed, or shown as a text, which is executed then; and
the list of numbers is executed, or made into a copy of the image. -/
structure Routes where
  source : List Char
  image : List Char
  numbers : List Char
  text : List Char
  copy : List Char
  /-- The options of commands that execute something, and of those that do not. -/
  running : Options
  writing : Options
  /-- Whether the extended instructions are off for the source text. -/
  plainOnly : Bool
  runSource : Asking (.reading .runAsm { running with plainOnly := plainOnly } source)
  toImage : Asking { Request.reading .asm { writing with plainOnly := plainOnly } source with
    output := some image }
  runImage : Asking (.reading .run running image)
  toNumbers : Asking { Request.reading .asm { writing with plainOnly := plainOnly } source with
    output := some numbers }
  runNumbers : Asking (.reading .runNums running numbers)
  toText : Asking { Request.reading .disasm writing image with source := true }
  runText : Asking (.reading .runAsm running text)
  toCopy : Asking { Request.reading .nums writing numbers with output := some copy }
  running_logFile : running.logFile = none
  writing_logFile : writing.logFile = none
  running_plainOnly : running.plainOnly = false
  image_ne_nil : image ≠ []
  image_ending : fileEnding image ∉ [".lst", ".txt"]
  numbers_ending : fileEnding numbers = ".txt"

namespace Routes

/-- The world once the image is written. -/
def withImage (t : Routes) (w : World) : World := w.after (t.toImage.run w)

/-- The world once the numbers are written. -/
def withNumbers (t : Routes) (w : World) : World := w.after (t.toNumbers.run w)

/-- The image, shown as a text. -/
def shown (t : Routes) (w : World) : Finished := t.toText.run (t.withImage w)

/-- How the source text is assembled. -/
def assembling (t : Routes) : Settings :=
  Settings.ofOptions { t.writing with plainOnly := t.plainOnly }

variable {t : Routes} {a : Source.Assembly}

/-- What is accepted was read and assembled. -/
theorem exists_loadSource (h : (t.toImage.run w).ending = .status 0) :
    ∃ a m, (loadSource w.files t.assembling t.source).result = .ok (a, m) := by
  obtain ⟨j, hj⟩ := t.toImage.exists_run t.writing_logFile w
  rw [hj] at h
  have hresult : ((loadSource w.files t.assembling t.source).andThen w.files _).result = .ok 0 :=
    result_of_ending_finish h
  unfold Loaded.andThen at hresult
  cases hload : (loadSource w.files t.assembling t.source).result with
  | error c =>
    rw [hload] at hresult
    cases hresult
  | ok x => exact ⟨x.1, x.2, rfl⟩

/-- What is assembled is written. -/
theorem asm_done {notes : List Note}
    (b : Asking { Request.reading .asm { t.writing with plainOnly := t.plainOnly } t.source with
      output := some name })
    (hload : (loadSource w.files t.assembling t.source).result = .ok (a, m)) (hne : name ≠ [])
    (hsave : saveAssembly w.files name a m = .ok (g, notes)) :
    (b.run w).ending = .status 0 ∧ (b.run w).files = g := by
  obtain ⟨j, hj⟩ := b.exists_run t.writing_logFile w
  have hname : (some name).filter (!·.isEmpty) = some name := by simp [hne]
  have hload' : (loadSource w.files (Settings.ofOptions { t.writing with
      plainOnly := t.plainOnly }) t.source).result = .ok (a, m) := hload
  rw [hj]
  simp [Request.carryOut, Request.reading, carryOutAsm, Loaded.andThen, hload', hname, hsave,
    Program.finish, Deed.ofSaving]

/-- **The image is written.** -/
theorem toImage_done (hload : (loadSource w.files t.assembling t.source).result = .ok (a, m))
    (htakes : w.files.Takes (Path.plain t.image)) :
    (t.toImage.run w).ending = .status 0 ∧
      w.files.write (Path.plain t.image) (Image.ofMemory m) = .ok (t.toImage.run w).files := by
  obtain ⟨g, notes, hsave, hwrite⟩ := exists_saveAssembly_image htakes t.image_ending a m
  obtain ⟨hdone, rfl⟩ := asm_done t.toImage hload t.image_ne_nil hsave
  exact ⟨hdone, hwrite⟩

/-- **The numbers are written.** -/
theorem toNumbers_done (hload : (loadSource w.files t.assembling t.source).result = .ok (a, m))
    (htakes : w.files.Takes t.numbers) :
    (t.toNumbers.run w).ending = .status 0 ∧
      w.files.write t.numbers (Text.Utf8.encode (numberText m)) =
        .ok (t.toNumbers.run w).files := by
  have hne : t.numbers ≠ [] := by
    intro hnil
    have hending := t.numbers_ending
    rw [hnil] at hending
    exact absurd hending (by decide)
  obtain ⟨g, notes, hsave, hwrite⟩ := exists_saveAssembly_numbers htakes t.numbers_ending a m
  obtain ⟨hdone, rfl⟩ := asm_done t.toNumbers hload hne hsave
  exact ⟨hdone, hwrite⟩

/-- **The image is shown as a text**, and no file changes. -/
theorem toText_done (hload : (loadImage w.files t.image).result = .ok m) :
    (t.toText.run w).ending = .status 0 ∧ (t.toText.run w).files = w.files ∧
      (t.toText.run w).out = m.sourceText := by
  obtain ⟨j, hj⟩ := t.toText.exists_run t.writing_logFile w
  rw [hj]
  simp [Request.carryOut, Request.reading, carryOutDisasm, Loaded.andThen, hload, Program.finish]

/-- **The list of numbers is made into an image.** -/
theorem toCopy_done (hload : (loadNumbers w.files t.numbers).result = .ok m)
    (htakes : w.files.Takes (Path.plain t.copy)) :
    (t.toCopy.run w).ending = .status 0 ∧
      w.files.write (Path.plain t.copy) (Image.ofMemory m) = .ok (t.toCopy.run w).files := by
  obtain ⟨g, hwrite⟩ := htakes.exists_write (Image.ofMemory m)
  obtain ⟨j, hj⟩ := t.toCopy.exists_run t.writing_logFile w
  rw [hj]
  simp [Request.carryOut, Request.reading, carryOutNums, Loaded.andThen, hload, Program.finish,
    saveImage, hwrite, Except.map, Deed.ofSaving]

/-- A command that executes what is read back agrees with executing the source text. -/
theorem agrees_of_loaded {l : Loaded Memory} (b : Asking r) (hoptions : r.options = t.running)
    (hcarry : r.carryOut { w with files := f } (Settings.ofOptions t.running) =
      carryOutRun { w with files := f } (Settings.ofOptions t.running) l)
    (hsource : (loadSource w.files t.assembling t.source).result = .ok (a, m))
    (hl : l.result = .ok m) :
    (t.runSource.run w).Agrees (b.run { w with files := f }) := by
  obtain ⟨j, hj⟩ := t.runSource.exists_run t.running_logFile w
  obtain ⟨j', hj'⟩ := b.exists_run (hoptions ▸ t.running_logFile) { w with files := f }
  have hprogram : (loadProgram w.files t.assembling t.source).result = .ok m :=
    Outcome.map_eq_ok_iff.mpr ⟨(a, m), hsource, rfl⟩
  rw [hj, hj', hoptions, hcarry]
  exact agrees_finish (alike_carryOutRun hprogram hl f t.plainOnly t.running) j j' _ _

/-- **All routes agree.**  Let a source text be accepted, and let nothing be lost that is written
under the names on the way.  Then every command on the way succeeds; executing the image, the list
of numbers, or the text that the image is shown as, ends as executing the source text does and
writes the same; and the copy is, byte for byte, the image. -/
theorem agree (t : Routes) (w : World) (haccepted : (t.toImage.run w).ending = .status 0)
    (himage : w.files.Takes (Path.plain t.image)) (hnumbers : w.files.Takes t.numbers)
    (htext : w.files.Takes t.text) (hcopy : w.files.Takes (Path.plain t.copy)) :
    (t.runSource.run w).Agrees (t.runImage.run (t.withImage w)) ∧
      ((t.toNumbers.run w).ending = .status 0 ∧
        (t.runSource.run w).Agrees (t.runNumbers.run (t.withNumbers w))) ∧
      ((t.shown w).ending = .status 0 ∧
        ∃ g, (t.shown w).files.write t.text (Text.Utf8.encode (t.shown w).out) = .ok g ∧
          (t.runSource.run w).Agrees (t.runText.run { w with files := g })) ∧
      ((t.toCopy.run (t.withNumbers w)).ending = .status 0 ∧
        ∃ bytes, (t.withImage w).files.read (Path.plain t.image) = .ok bytes ∧
          (t.toCopy.run (t.withNumbers w)).files.read (Path.plain t.copy) = .ok bytes) := by
  obtain ⟨a, m, hload⟩ := exists_loadSource haccepted
  obtain ⟨-, hwriteImage⟩ := toImage_done hload himage
  obtain ⟨hwritten, hwriteNumbers⟩ := toNumbers_done hload hnumbers
  have hreadImage : (t.withImage w).files.read (Path.plain t.image) = .ok (Image.ofMemory m) :=
    himage.read_of_write hwriteImage
  have hloadImage := loadImage_of_read hreadImage
  have hloadNumbers : (loadNumbers (t.withNumbers w).files t.numbers).result = .ok m :=
    loadNumbers_of_read (hnumbers.read_of_write hwriteNumbers)
  -- the text and the copy are written where the image and the numbers were written before
  have htext' : (t.withImage w).files.Takes t.text := htext.of_write hwriteImage
  have hcopy' : (t.withNumbers w).files.Takes (Path.plain t.copy) := hcopy.of_write hwriteNumbers
  obtain ⟨hshown, hfiles, hout⟩ := toText_done hloadImage
  obtain ⟨g, hwriteText⟩ := htext'.exists_write (Text.Utf8.encode m.sourceText)
  have hextended : (Settings.ofOptions t.running).extended = true := by
    simp [Settings.ofOptions, t.running_plainOnly]
  have hloadText := loadProgram_of_read hextended (htext'.read_of_write hwriteText)
  obtain ⟨hcopied, hwriteCopy⟩ := toCopy_done hloadNumbers hcopy'
  refine ⟨agrees_of_loaded t.runImage rfl rfl hload hloadImage,
    ⟨hwritten, agrees_of_loaded t.runNumbers rfl rfl hload hloadNumbers⟩,
    ⟨hshown, g, ?_, agrees_of_loaded t.runText rfl rfl hload hloadText⟩,
    hcopied, Image.ofMemory m, hreadImage, hcopy'.read_of_write hwriteCopy⟩
  rw [shown, hfiles, hout]
  exact hwriteText

/-- All routes of a program, with a budget of steps. -/
def parrot : Routes where
  source := "p.lmc".toList
  image := "x.bin".toList
  numbers := "x.txt".toList
  text := "y.lmc".toList
  copy := "z.bin".toList
  running := { verbosity := some 0, maxSteps := some 9 }
  writing := { verbosity := some 0 }
  plainOnly := false
  runSource := ⟨["run-asm", "p.lmc", "--max-steps", "9"].map String.toList, rfl⟩
  toImage := ⟨["asm", "p.lmc", "-o", "x.bin"].map String.toList, rfl⟩
  runImage := ⟨["run", "x.bin", "--max-steps=9"].map String.toList, rfl⟩
  toNumbers := ⟨["asm", "-ox.txt", "p.lmc"].map String.toList, rfl⟩
  runNumbers := ⟨["run-nums", "--max-steps", "9", "x.txt"].map String.toList, rfl⟩
  toText := ⟨["disasm", "x.bin", "--source"].map String.toList, rfl⟩
  runText := ⟨["run-asm", "y.lmc", "--max-steps", "9"].map String.toList, rfl⟩
  toCopy := ⟨["nums", "x.txt", "-o", "z.bin"].map String.toList, rfl⟩
  running_logFile := rfl
  writing_logFile := rfl
  running_plainOnly := rfl
  image_ne_nil := nofun
  image_ending := by decide
  numbers_ending := by decide

/-- A program in extended mode that says the letter that it is told, and the letter `x`. -/
def parrotDesk : World where
  files := { here := [], entries :=
    [(["p.lmc".toList], .file (Text.Utf8.encode "EXT\nINA\nOTA\nHLT\nlast DAT".toList))] }
  feed := { lines := ["x".toList] }

/-- The program is accepted and says the letter, and so does its image. -/
theorem parrot_agrees :
    (parrot.toImage.run parrotDesk).ending = .status 0 ∧
      (parrot.runSource.run parrotDesk).ending = .status 0 ∧
      (parrot.runSource.run parrotDesk).out = ['x'] ∧
      (parrot.runSource.run parrotDesk).Agrees
        (parrot.runImage.run (parrot.withImage parrotDesk)) :=
  ⟨by decide +kernel, by decide +kernel, by decide +kernel,
    (agree parrot parrotDesk (by decide +kernel)
      ⟨["x.bin".toList], ⟨by decide, rfl, by decide, by decide⟩, by decide⟩
      ⟨["x.txt".toList], ⟨by decide, rfl, by decide, by decide⟩, by decide⟩
      ⟨["y.lmc".toList], ⟨by decide, rfl, by decide, by decide⟩, by decide⟩
      ⟨["z.bin".toList], ⟨by decide, rfl, by decide, by decide⟩, by decide⟩).1⟩

end Routes
end MinionComputer
