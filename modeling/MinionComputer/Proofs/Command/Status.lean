/-
# The status that a run ends with

A request that is carried out ends with zero, or says why it is not, or finds a case that fails;
and unless it ends with zero it leaves the files as they were.  Two ways out remain.  A file of test
cases may be given as something that stands for nothing, and then the program itself is at fault.
And the file for the journal is opened before any request is looked at, so a fault of that file
leaves the program as it is.

* `Deed.EndsAs`: the ways in which a request can end;
* `Request.endsAs_carryOut`: every request ends in one of them;
* `Program.status_of_request`: the status, the message and the files after a request;
* `Program.escapes_iff_outlet_fails`: when a fault leaves the program.
-/
import MinionComputer.Command.Program
import MinionComputer.Proofs.Journal
import MinionComputer.Proofs.Trial.Trouble

namespace MinionComputer

variable {w : World} {r : Request} {f : Files} {s : Settings} {d : Deed}

/-! ## 1. How a request can end -/

/-- The request asks for test cases, there is a program to run them on, and what was given for their
file stands for nothing. -/
structure Request.Hollow (w : World) (s : Settings) (r : Request) : Prop where
  verb : r.verb = .test
  cases : r.cases = none
  program : ∃ m, (loadEither w.files s r.input).result = .ok m

/-- One of the test cases that the request asks for fails. -/
def Request.CaseFails (w : World) (s : Settings) (r : Request) : Prop :=
  r.verb = .test ∧ ∃ m cases es, (loadEither w.files s r.input).result = .ok m ∧
    (loadCases w.files r.cases).result = .ok cases ∧ (Trial.runAll m cases).2 = .ok es ∧
      0 < failures es

/-- The text is empty or ends with a line feed. -/
def WholeLines (text : List Char) : Prop := text = [] ∨ text.getLast? = some '\n'

/-- How a deed in a world can end, and what it leaves then: well, failed if some case `fails`, with
something to be said, at fault if the request is `hollow`, or not at all if it `waits`. -/
inductive Deed.EndsAs (w : World) (fails hollow waits : Prop) (d : Deed) : Prop
  | done (h : d.result = .ok 0)
  | failed (h : d.result = .ok 1) (hfiles : d.files = w.files) (hfails : fails)
  | said {message : String} (h : d.result = .error (.said message)) (hfiles : d.files = w.files)
      (herr : WholeLines d.err)
  | internal (h : d.result = .error .internal) (hfiles : d.files = w.files) (hhollow : hollow)
  | starved (h : d.result = .error .starved) (hfiles : d.files = w.files) (hwaits : waits)

/-! ## 2. Reading -/

/-- What could not be read is told. -/
def Loaded.Tells {α : Type} (l : Loaded α) : Prop :=
  ∀ c, l.result = .error c → ∃ message, c = .said message

theorem tells_readText {name : List Char} {c : Complaint} (h : readText f name = .error c) :
    ∃ message, c = .said message := by
  unfold readText at h
  split at h
  · cases h
    exact ⟨_, rfl⟩
  · split at h
    · cases h
      exact ⟨_, rfl⟩
    · cases h

theorem Loaded.tells_error {α : Type} {notes : List Note} {c : Complaint}
    (h : ∃ message, c = .said message) : (⟨notes, .error c⟩ : Loaded α).Tells := by
  rintro _ ⟨⟩
  exact h

/-- A fault that is put in words is told. -/
theorem Loaded.tells_mapError {α ε : Type} (notes : List Note) (r : Except ε α) (g : ε → String) :
    (⟨notes, r.mapError fun fault => .said (g fault)⟩ : Loaded α).Tells := by
  intro c h
  obtain ⟨fault, -, rfl⟩ := Outcome.mapError_eq_error_iff.mp h
  exact ⟨_, rfl⟩

theorem tells_loadSource (f : Files) (s : Settings) (name : List Char) :
    (loadSource f s name).Tells := by
  unfold loadSource
  split
  · next hread => exact Loaded.tells_error (tells_readText hread)
  · exact Loaded.tells_mapError _ _ _

theorem tells_loadProgram (f : Files) (s : Settings) (name : List Char) :
    (loadProgram f s name).Tells := fun c h =>
  tells_loadSource f s name c (Outcome.map_eq_error_iff.mp h)

theorem tells_loadNumbers (f : Files) (name : List Char) : (loadNumbers f name).Tells := by
  unfold loadNumbers
  split
  · next hread => exact Loaded.tells_error (tells_readText hread)
  · exact Loaded.tells_mapError _ _ _

theorem tells_loadImage (f : Files) (name : List Char) : (loadImage f name).Tells := by
  unfold loadImage
  split
  · exact Loaded.tells_error ⟨_, rfl⟩
  · exact Loaded.tells_mapError _ _ _

theorem tells_loadEither (f : Files) (s : Settings) (name : List Char) :
    (loadEither f s name).Tells := by
  unfold loadEither
  split
  · exact tells_loadProgram f s name
  · exact tells_loadImage f name

theorem tells_loadCases (f : Files) (name : List Char) : (loadCases f (some name)).Tells := by
  unfold loadCases
  dsimp only
  split
  · next hread => exact Loaded.tells_error (tells_readText hread)
  · exact Loaded.tells_mapError _ _ _

variable {fails hollow waits : Prop}

/-- Only the result, the files and what was said beside it matter to how a deed ends. -/
theorem Deed.EndsAs.imp {d' : Deed} {hollow' : Prop} (h : d.EndsAs w fails hollow waits)
    (hresult : d'.result = d.result) (hleft : d'.files = d.files) (hsaid : d'.err = d.err)
    (hhollow : hollow → hollow') : d'.EndsAs w fails hollow' waits := by
  cases h with
  | done h => exact .done (hresult.trans h)
  | failed h hfiles hfails => exact .failed (hresult.trans h) (hleft.trans hfiles) hfails
  | said h hfiles herr =>
    exact .said (hresult.trans h) (hleft.trans hfiles) (hsaid.symm ▸ herr)
  | internal h hfiles h' => exact .internal (hresult.trans h) (hleft.trans hfiles) (hhollow h')
  | starved h hfiles hwaits => exact .starved (hresult.trans h) (hleft.trans hfiles) hwaits

/-- What is told while reading is told by the deed, and nothing was done yet. -/
theorem Loaded.endsAs {α : Type} {l : Loaded α} {k : α → Deed} (hl : l.Tells)
    (hk : ∀ a, l.result = .ok a → (k a).EndsAs w fails hollow waits) :
    (l.andThen w.files k).EndsAs w fails hollow waits := by
  unfold Loaded.andThen
  cases hresult : l.result with
  | error c =>
    obtain ⟨message, rfl⟩ := hl c hresult
    exact .said rfl rfl (.inl rfl)
  | ok a => exact (hk a hresult).imp rfl rfl rfl id

/-! ## 3. Writing and executing -/

/-- A file that cannot be written is told, and is not written. -/
theorem Deed.endsAs_ofSaving (out done : List Char) (saved : Except FileFault (Files × List Note)) :
    (Deed.ofSaving w.files out done saved).EndsAs w fails hollow waits := by
  cases saved with
  | error fault => exact .said rfl rfl (.inl rfl)
  | ok x => exact .done rfl

/-- **An execution on a console ends well, says what came of it, or fails where the input ends.** -/
theorem execute_console_cases (s : Settings) (m : Memory) (c : Console) :
    (execute s m (.console c) false).result = .ok () ∨
      (∃ message, (execute s m (.console c) false).result = .error (.refused message)) ∨
      ∃ e, (execute s m (.console c) false).result =
          .error (.drive (.step (.device (.console e)))) ∧
        Console.EndFault c.feed.growing e := by
  have hsound : ((Machine.start m).setTracing s.tracing).Sound := Machine.sound_of_fresh rfl rfl
  -- nothing is polled on a console, so the execution is one run, judged
  have hdrive : (execute s m (.console c) false).result =
      (judge s.maxSteps (execute s m (.console c) false).machine.registers.steps
        ((((Machine.start m).setTracing s.tracing).run Handler.device (s.maxSteps - 0)
          (.console c)).result.mapError .step)).2 := rfl
  cases hresult : (((Machine.start m).setTracing s.tracing).run Handler.device (s.maxSteps - 0)
      (.console c)).result with
  | ok r =>
    rw [hresult] at hdrive
    cases hverdict : verdict s.maxSteps r with
    | none =>
      refine .inl (hdrive.trans ?_)
      simp only [judge, Except.mapError, hverdict]
    | some message =>
      refine .inr (.inl ⟨message, hdrive.trans ?_⟩)
      simp only [judge, Except.mapError, hverdict]
  | error f =>
    obtain ⟨_, rfl, e, rfl, he⟩ := hsound.fault_of_run
      (Handler.failsOnly_console c.feed.growing) ⟨c, rfl, rfl⟩ _ hresult
    rw [hresult] at hdrive
    exact .inr (.inr ⟨e, hdrive, he⟩)

/-- What an execution says beside its result are whole lines. -/
theorem wholeLines_said (s : Settings) (m : Memory) (h : Handler) (opened : Bool) :
    WholeLines (execute s m h opened).said := by
  have hsaid : (execute s m h opened).said =
      if s.tracing then (execute s m h opened).machine.traceText ++ ['\n'] else [] := rfl
  rw [hsaid]
  split
  · exact .inr (by rw [List.getLast?_append]; rfl)
  · exact .inl rfl

/-- **A program that is executed on the console ends in one of the ways**, and never by a fault of
its own. -/
theorem endsAs_executeProgram (hport : s.port.filter (!·.isEmpty) = none) (m : Memory) :
    (executeProgram w s m).EndsAs w fails hollow (w.feed.growing = true) := by
  have herr := wholeLines_said s m (.console { feed := w.feed, prompting := w.terminal }) false
  unfold executeProgram
  rw [hport]
  rcases execute_console_cases s m { feed := w.feed, prompting := w.terminal } with
    h | ⟨message, h⟩ | ⟨e, h, he⟩
  · exact .done (congrArg statusOf h)
  · exact .said (congrArg statusOf h) rfl herr
  · cases he with
    | undecodable f => exact .said (congrArg statusOf h) rfl herr
    | waiting hgrowing => exact .starved (congrArg statusOf h) rfl hgrowing

/-- Any execution ends in one of the ways, if it may be at fault and may wait. -/
theorem Deed.endsAs_ofExecution {e : Execution} (hsaid : WholeLines e.said) :
    (Deed.ofExecution w.files e).EndsAs w fails True True := by
  have hall : ∀ c, (Deed.ofExecution w.files e).result = .error c →
      (Deed.ofExecution w.files e).EndsAs w fails True True := by
    rintro (message | _ | _) h
    · exact .said h rfl hsaid
    · exact .internal h rfl trivial
    · exact .starved h rfl trivial
  cases hresult : e.result with
  | ok u => exact .done (congrArg statusOf hresult)
  | error f =>
    cases hstatus : statusOf e.result with
    | error c => exact hall c hstatus
    | ok code =>
      rw [hresult] at hstatus
      rcases f with message | (f | _)
      · cases hstatus
      · cases f <;> cases hstatus
      · cases hstatus

/-- A program that is executed on a serial line may be at fault and may wait. -/
theorem endsAs_executeProgram_line {name : String} (hport : s.port.filter (!·.isEmpty) = some name)
    (m : Memory) : (executeProgram w s m).EndsAs w fails True True := by
  unfold executeProgram
  rw [hport]
  dsimp only
  unfold Loaded.andThen
  cases hresult : (openLine w.ports name s).result with
  | error c =>
    rcases c with message | _ | _
    · exact .said rfl rfl (.inl rfl)
    · exact .internal rfl rfl trivial
    · exact .starved rfl rfl trivial
  | ok h => exact (Deed.endsAs_ofExecution (wholeLines_said s m h true)).imp rfl rfl rfl id

/-! ## 4. Requests -/

/-- Cases that were read from a file end with zero, or one of them fails. -/
theorem endsAs_carryOutTest (hverb : r.verb = .test) :
    (carryOutTest w s r).EndsAs w (r.CaseFails w s) (r.Hollow w s) waits := by
  unfold carryOutTest
  refine Loaded.endsAs (tells_loadEither w.files s r.input) fun m hm => ?_
  cases hcases : r.cases with
  | none => exact .internal rfl rfl ⟨hverb, hcases, m, hm⟩
  | some name =>
    refine Loaded.endsAs (tells_loadCases w.files name) fun cases hload => ?_
    -- every character that was read has a code of one byte, so no comparison of codes can fail
    have hbytes : ∀ c ∈ cases, Trial.Bytes c.characterOutputs := by
      unfold loadCases at hload
      dsimp only at hload
      split at hload
      · cases hload
      · exact Trial.bytes_of_ofText (Outcome.mapError_eq_ok_iff.mp hload)
    obtain ⟨es, hes⟩ := Trial.exists_runAll m cases hbytes
    unfold Deed.ofCases
    dsimp only
    rw [hes]
    by_cases hfailures : failures es = 0
    · exact .done (by simp [hfailures])
    · refine .failed (by simp [hfailures]) rfl ⟨hverb, m, cases, es, hm, ?_, hes,
        Nat.pos_of_ne_zero hfailures⟩
      rw [hcases]
      exact hload

/-- **Every request ends in one of the ways**, if the execution of a program does. -/
theorem Request.endsAs_carryOut (hhollow : r.Hollow w s → hollow)
    (hrun : ∀ m, (executeProgram w s m).EndsAs w (r.CaseFails w s) hollow waits) :
    (r.carryOut w s).EndsAs w (r.CaseFails w s) hollow waits := by
  unfold Request.carryOut
  split
  · refine Loaded.endsAs (tells_loadSource w.files s r.input) fun a _ => ?_
    dsimp only
    split
    · exact .done rfl
    · exact Deed.endsAs_ofSaving _ _ _
  · exact Loaded.endsAs (tells_loadNumbers w.files r.input) fun m _ => Deed.endsAs_ofSaving _ _ _
  · exact Loaded.endsAs (tells_loadImage w.files r.input) fun m _ => hrun m
  · exact Loaded.endsAs (tells_loadProgram w.files s r.input) fun m _ => hrun m
  · exact Loaded.endsAs (tells_loadNumbers w.files r.input) fun m _ => hrun m
  · exact Loaded.endsAs (tells_loadImage w.files r.input) fun m _ => .done rfl
  · exact Loaded.endsAs (tells_loadImage w.files r.input) fun m _ => .done rfl
  · next hverb => exact (endsAs_carryOutTest hverb).imp rfl rfl rfl hhollow

/-- A hollow request is a fault of the program itself. -/
theorem Request.Hollow.result (h : r.Hollow w s) :
    (r.carryOut w s).result = .error .internal := by
  obtain ⟨m, hm⟩ := h.program
  unfold Request.carryOut
  rw [h.verb]
  simp only [carryOutTest, Loaded.andThen, hm, h.cases, loadCases]

/-! ## 5. Runs -/

/-- The text ends with a line that says what is wrong. -/
def EndsWithMessage (text : List Char) : Prop :=
  ∃ above message, text = above ++ ("Error: " ++ message ++ "\n").toList ∧ WholeLines above

namespace Program

variable {words : List (List Char)} {j : Journal}

/-- A run whose command line asks for something. -/
theorem run_eq (hr : Request.ofLine words = .ok (some r)) : run w words = runRequest w r := by
  simp only [run, hr]

/-- Without a file for the journal, a run is what comes of its request. -/
theorem exists_finish_of_plain (hlog : (Settings.ofOptions r.options).logFile = none) :
    ∃ j, runRequest w r = finish j r.verb (r.carryOut w (Settings.ofOptions r.options)) := by
  have hplain : ∀ t ∈ setups (Settings.ofOptions r.options), t.file = none := by
    intro t ht
    obtain ⟨name, -, rfl⟩ := List.mem_map.mp ht
    exact hlog
  obtain ⟨j, hj⟩ := Journal.exists_setUpAll_of_plain w.files _ {} hplain
  refine ⟨j, ?_⟩
  simp only [runRequest, hj]

/-- How a run ends whose deed ends in one of the ways. -/
theorem ending_finish (v : Verb) (h : d.EndsAs w fails hollow waits) :
    ((∃ code ≤ 2, (finish j v d).ending = .status code) ∨
        ((finish j v d).ending = .starved ∧ waits)) ∧
      ((finish j v d).ending = .status 2 → hollow) ∧
      ((finish j v d).ending = .status 1 → EndsWithMessage (finish j v d).err ∨ fails) ∧
      ((finish j v d).ending ≠ .status 0 → (finish j v d).files = w.files) := by
  cases h with
  | done h => simp [finish, h]
  | failed h hfiles hfails => simp [finish, h, hfiles, hfails]
  | said h hfiles herr =>
    simp only [finish, h]
    exact ⟨.inl ⟨1, by decide, rfl⟩, by simp, fun _ => .inl ⟨d.err, _, rfl, herr⟩, fun _ => hfiles⟩
  | internal h hfiles hhollow => simp [finish, h, hfiles, hhollow]
  | starved h hfiles hwaits => simp [finish, h, hfiles, hwaits]

/-- **The status of a run with a request**, when no journal is kept in a file and no serial line is
used.  It is one of three, or the run waits for what has not been typed; it is two exactly for a
hollow request; if it is one, the last thing said is what is wrong, or some case fails; and if it is
not zero, all files are as they were. -/
theorem status_of_request (hr : Request.ofLine words = .ok (some r))
    (hlog : r.options.logFile = none) (hport : r.options.port = none) :
    ((∃ code ≤ 2, (run w words).ending = .status code) ∨
        ((run w words).ending = .starved ∧ w.feed.growing = true)) ∧
      ((run w words).ending = .status 2 ↔ r.Hollow w (Settings.ofOptions r.options)) ∧
      ((run w words).ending = .status 1 →
        EndsWithMessage (run w words).err ∨ r.CaseFails w (Settings.ofOptions r.options)) ∧
      ((run w words).ending ≠ .status 0 → (run w words).files = w.files) := by
  have hnolog : (Settings.ofOptions r.options).logFile = none := by
    simp [Settings.ofOptions, hlog]
  have hnoport : (Settings.ofOptions r.options).port.filter (!·.isEmpty) = none := by
    simp [Settings.ofOptions, hport]
  obtain ⟨j, hj⟩ := exists_finish_of_plain (w := w) hnolog
  rw [run_eq hr, hj]
  obtain ⟨hstatus, htwo, hone, hfiles⟩ := ending_finish (j := j) r.verb
    (Request.endsAs_carryOut id fun m => endsAs_executeProgram (w := w) hnoport m)
  refine ⟨hstatus, ⟨htwo, fun hhollow => ?_⟩, hone, hfiles⟩
  simp [finish, hhollow.result]

/-- A directory with an image of no bytes, and nothing to be read from the input. -/
def desk : World where
  files := { here := [], entries := [(["f.bin".toList], .file [])] }
  feed := { lines := [] }

/-- An image that is not there is asked for. -/
def missingLine : List (List Char) := ["dump", "g.bin"].map String.toList

/-- The run says that the image is not there, and leaves the files as they were. -/
theorem missing_image_told :
    ∃ r, Request.ofLine missingLine = .ok (some r) ∧ r.options.logFile = none ∧
      r.options.port = none ∧ (run desk missingLine).ending = .status 1 ∧
        (run desk missingLine).files = desk.files := by
  have hline : Request.ofLine missingLine = .ok (some _) := rfl
  exact ⟨_, hline, rfl, rfl, rfl, (status_of_request (w := desk) hline rfl rfl).2.2.2 (by decide)⟩

/-- Two dashes stand behind the program, and two more in place of the file of test cases. -/
def dashedLine : List (List Char) := ["test", "f.bin", "--", "--"].map String.toList

/-- **The program is at fault for a command line that it takes up**, and says nothing. -/
theorem dashes_end_with_two :
    (run desk dashedLine).ending = .status 2 ∧ (run desk dashedLine).err = [] := by
  decide +kernel

/-! ## 6. The file for the journal -/

/-- A command line that is turned down ends with a status. -/
theorem ending_refuse_ne_escaped (w : World) (refusal : Refusal) (fault : FileFault) :
    (refuse w refusal).ending ≠ .escaped fault := by
  unfold refuse
  split <;> simp

/-- A request that was carried out leaves no fault behind. -/
theorem ending_finish_ne_escaped (j : Journal) (v : Verb) (d : Deed) (fault : FileFault) :
    (finish j v d).ending ≠ .escaped fault := by
  unfold finish
  dsimp only
  split <;> simp

/-- With a file for the journal, a fault of that file ends the run, and nothing else does before the
request is carried out. -/
theorem runRequest_of_logFile {name : List Char}
    (hlog : (Settings.ofOptions r.options).logFile = some name) :
    (∃ fault, Journal.fileOutlet w.files name = .error fault ∧
        (runRequest w r).ending = .escaped fault) ∨
      ((∃ opened, Journal.fileOutlet w.files name = .ok opened) ∧
        ∃ j files, runRequest w r =
          finish j r.verb (r.carryOut { w with files := files } (Settings.ofOptions r.options))) := by
  have hfile : ∀ t ∈ setups (Settings.ofOptions r.options), t.file = some name := by
    intro t ht
    obtain ⟨channel, -, rfl⟩ := List.mem_map.mp ht
    exact hlog
  have hiff : ∀ fault, Journal.setUpAll {} w.files (setups (Settings.ofOptions r.options)) =
      .error fault ↔ Journal.fileOutlet w.files name = .error fault := fun fault =>
    Journal.setUpAll_eq_error_iff rfl hfile
  unfold runRequest
  dsimp only
  cases hset : Journal.setUpAll {} w.files (setups (Settings.ofOptions r.options)) with
  | error fault => exact .inl ⟨fault, (hiff fault).mp hset, rfl⟩
  | ok x =>
    refine .inr ⟨?_, x.1, x.2, rfl⟩
    cases hopened : Journal.fileOutlet w.files name with
    | error fault =>
      rw [(hiff fault).mpr hopened] at hset
      cases hset
    | ok opened => exact ⟨opened, rfl⟩

/-- A request that is carried out gives a status, or waits. -/
theorem ending_finish_carryOut (j : Journal) (w : World) (r : Request) :
    (∃ code ≤ 2, (finish j r.verb (r.carryOut w (Settings.ofOptions r.options))).ending =
        .status code) ∨
      ((finish j r.verb (r.carryOut w (Settings.ofOptions r.options))).ending = .starved ∧
        (w.feed.growing = true ∨ ∃ port, r.options.port = some port ∧ port ≠ "")) := by
  cases hport : (Settings.ofOptions r.options).port.filter (!·.isEmpty) with
  | none =>
    have hends := Request.endsAs_carryOut (r := r) id fun m =>
      endsAs_executeProgram (w := w) hport m
    exact (ending_finish r.verb hends).1.imp id fun h => ⟨h.1, .inl h.2⟩
  | some port =>
    have hends := Request.endsAs_carryOut (r := r) (fun _ => trivial) fun m =>
      endsAs_executeProgram_line (w := w) hport m
    have hsome := Option.filter_eq_some_iff.mp hport
    exact (ending_finish r.verb hends).1.imp id fun h =>
      ⟨h.1, .inr ⟨port, hsome.1, by simpa using hsome.2⟩⟩

/-- Whether a fault of the file for the journal ends a request, and how the request ends
otherwise. -/
theorem ending_runRequest (w : World) (r : Request) :
    (∀ fault, (runRequest w r).ending = .escaped fault ↔
        ∃ name, (Settings.ofOptions r.options).logFile = some name ∧
          Journal.fileOutlet w.files name = .error fault) ∧
      ((∃ fault, (runRequest w r).ending = .escaped fault) ∨
        (∃ code ≤ 2, (runRequest w r).ending = .status code) ∨
          ((runRequest w r).ending = .starved ∧
            (w.feed.growing = true ∨ ∃ port, r.options.port = some port ∧ port ≠ ""))) := by
  cases hlog : (Settings.ofOptions r.options).logFile with
  | none =>
    obtain ⟨j, hj⟩ := exists_finish_of_plain (w := w) hlog
    rw [hj]
    refine ⟨fun fault => ⟨fun h => absurd h (ending_finish_ne_escaped j r.verb _ fault), ?_⟩,
      .inr (ending_finish_carryOut j w r)⟩
    rintro ⟨_, hname, -⟩
    cases hname
  | some name =>
    rcases runRequest_of_logFile (w := w) hlog with
      ⟨fault, hfault, hends⟩ | ⟨⟨opened, hopened⟩, j, files, hj⟩
    · refine ⟨fun fault' => ?_, .inl ⟨fault, hends⟩⟩
      rw [hends]
      constructor
      · rintro ⟨⟩
        exact ⟨name, rfl, hfault⟩
      · rintro ⟨_, ⟨⟩, hfault'⟩
        rw [Except.error.inj (hfault.symm.trans hfault')]
    · rw [hj]
      refine ⟨fun fault => ⟨fun h => absurd h (ending_finish_ne_escaped j r.verb _ fault), ?_⟩,
        .inr (ending_finish_carryOut j { w with files := files } r)⟩
      rintro ⟨_, ⟨⟩, hfault⟩
      rw [hopened] at hfault
      cases hfault

/-- **A fault leaves the program exactly when the file for the journal cannot be opened**, whatever
the command line, the files and the input are, and no other file is behind it: every request for
which that file is opened ends with a status, or waits for what has not been typed or arrived. -/
theorem escapes_iff_outlet_fails (w : World) (words : List (List Char)) :
    (∀ fault, (run w words).ending = .escaped fault ↔
        ∃ r name, Request.ofLine words = .ok (some r) ∧
          (Settings.ofOptions r.options).logFile = some name ∧
            Journal.fileOutlet w.files name = .error fault) ∧
      ∀ r, Request.ofLine words = .ok (some r) →
        (∃ fault, (run w words).ending = .escaped fault) ∨
          (∃ code ≤ 2, (run w words).ending = .status code) ∨
            ((run w words).ending = .starved ∧
              (w.feed.growing = true ∨ ∃ port, r.options.port = some port ∧ port ≠ "")) := by
  cases hline : Request.ofLine words with
  | error refusal =>
    refine ⟨fun fault => ⟨fun h => ?_, by rintro ⟨r, _, hr, -⟩; cases hr⟩, fun r hr => by cases hr⟩
    simp only [run, hline] at h
    exact absurd h (ending_refuse_ne_escaped w refusal fault)
  | ok asked =>
    cases asked with
    | none => simp [run, hline]
    | some r =>
      obtain ⟨hescapes, hends⟩ := ending_runRequest w r
      rw [run_eq hline]
      refine ⟨fun fault => (hescapes fault).trans ⟨?_, ?_⟩, ?_⟩
      · rintro ⟨name, hlog, hfault⟩
        exact ⟨r, name, rfl, hlog, hfault⟩
      · rintro ⟨r', name, hr, hlog, hfault⟩
        cases hr
        exact ⟨name, hlog, hfault⟩
      · rintro r' hr
        cases hr
        exact hends

/-- The journal is to be kept below the image. -/
def belowFileLine : List (List Char) :=
  ["dump", "f.bin", "--log-file", "f.bin/x.log"].map String.toList

/-- **A journal below a file** is refused, and the refusal leaves the program. -/
theorem journal_below_file_escapes :
    (run desk belowFileLine).ending = .escaped (.refused .occupied "f.bin".toList) := by
  decide +kernel

end Program
end MinionComputer
