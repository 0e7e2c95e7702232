/-
**Looking without writing.**

Testing and listing read and decode their sources as a job does, and write no output. So does a job
whose output goes nowhere. All three come to the same verdict on a source, since what they do after
decoding it can neither fail nor change anything.

* `eq_nil_of_nowhere`: nothing comes of the null device, in whatever spelling of its path;
* `on_decompressFile_of_nothing`: a job that stores nothing does what describing its source does;
* `on_decompressFile_testing`, `on_decompressFile_nowhere`: such are a test and a job whose output goes
  nowhere;
* `Task.Inert`: a task that changes no file and shows no output;
* `Listing.Listed`, `Listing.run_shows_table`: what listing does;
* `CommandLine.testMode_of_parse`: a command that only tests has preferences that say so;
* `Program.inspection_readOnly`: no file is changed, no output is shown, and the verdicts agree.
-/

import Mathlib.Data.List.Forall2
import Inflate.Program
import Inflate.Proofs.CoherentCommands
import Inflate.Proofs.Isolation

namespace Inflate

open FileSystem (WithoutIdle)

variable {source destination : String} {preferences : Preferences} {world : World}

/-! ### The null device -/

namespace Path

/-- The parts among segments that are not the first ones of a path. -/
theorem filter_zipIdx (segments : List String) {position : Nat} (later : position ≠ 0) :
    ((segments.zipIdx position).filter fun entry => isPart entry.2 entry.1).map Prod.fst =
      segments.filter fun segment => segment != "" && segment != "." := by
  induction segments generalizing position with
  | nil => rfl
  | cons segment rest ih =>
    have same : isPart position segment = (segment != "" && segment != ".") := by
      simp [isPart, beq_eq_false_iff_ne.mpr later]
    rw [List.zipIdx_cons, List.filter_cons, List.filter_cons, same]
    split
    · rw [List.map_cons, ih (Nat.succ_ne_zero _)]
    · exact ih (Nat.succ_ne_zero _)

/-- A path from the root on has the same parts as the path without the segments that say nothing. -/
theorem withoutIdle_parts {path : String} (absolute : isAbsolute path = true) :
    WithoutIdle (segments path) ("" :: parts path) := by
  obtain ⟨rest, chars⟩ : ∃ rest, path.toList = '/' :: rest := by
    unfold isAbsolute at absolute
    cases chars : path.toList with
    | nil => simp [chars] at absolute
    | cons c rest =>
      rw [chars] at absolute
      exact ⟨rest, by simpa using absolute⟩
  have whole : segments path = "" :: (split rest).map String.ofList := by
    simp [segments, chars, split]
  have named : parts path =
      ((split rest).map String.ofList).filter fun segment => segment != "" && segment != "." := by
    unfold parts
    rw [whole, List.zipIdx_cons, List.filter_cons_of_neg (by simp [isPart])]
    exact filter_zipIdx _ (Nat.succ_ne_zero 0)
  rw [whole, named]
  exact .keep "" (FileSystem.withoutIdle_filter _)

end Path

theorem usable_nowhere : FileSystem.Usable nowhereName :=
  ⟨by decide +kernel, by decide +kernel, by decide +kernel⟩

/-- What another spelling of the null device's path leads to, the path itself leads to. -/
theorem resolve_nowhere {files : FileSystem} {location : Location}
    (same : Path.same nowhereName source = true)
    (resolved : files.resolve source .reading = .ok (.entry location)) :
    files.resolve nowhereName .reading = .ok (.entry location) := by
  obtain ⟨-, led⟩ := FileSystem.resolve_eq_ok_iff.mp resolved
  obtain ⟨also, parts⟩ : true = Path.isAbsolute source ∧ ["dev", "null"] = Path.parts source := by
    have absolute : Path.isAbsolute nowhereName = true := by decide +kernel
    have named : Path.parts nowhereName = ["dev", "null"] := by decide +kernel
    simpa [Path.same, absolute, named] using same
  have origin : ∀ {path}, Path.isAbsolute path = true → files.origin path = [] :=
    fun absolute => if_pos absolute
  have segments : Path.segments nowhereName = ["", "dev", "null"] := by decide +kernel
  refine FileSystem.resolve_eq_ok_iff.mpr ⟨usable_nowhere, ?_⟩
  rw [origin (by decide +kernel), segments, parts]
  rw [origin also.symm] at led
  exact led.withoutIdle (Path.withoutIdle_parts also.symm)

/-- **Nothing comes of the null device**, in whatever spelling, unless a regular file is in its place. -/
theorem eq_nil_of_nowhere {content : Bytes} (device : world.files.regular? nowhereName = none)
    (named : isStandardInput source = false) (same : Path.same nowhereName source = true)
    (read : given source world = .ok content) : content = [] := by
  have gives := gives_of_given read
  unfold Gives at gives
  rw [named, if_neg Bool.false_ne_true] at gives
  obtain ⟨location, entry, reads⟩ := gives
  rcases reads.content with ⟨-, empty⟩ | ⟨file, rfl, -⟩
  · exact empty
  · obtain ⟨resolved, held⟩ := FileSystem.status_eq_ok_iff.mp reads.status
    have regular := FileSystem.regular?_eq_some_iff.mpr ⟨resolve_nowhere same resolved, held⟩
    cases device.symm.trans regular

/-! ### Verdicts on a source -/

/-- The report of a job that has written nothing. -/
def Listing.Description.report (description : Listing.Description) : Report :=
  ⟨description.format, description.compressedSize, description.size, none⟩

/-- What a job that stores nothing makes of the description of its source: a report and a remark. -/
def concluded (source : String) (testMode : Bool) :
    Except IoError Listing.Description × World → Except IoError Report × World
  | (.ok description, after) =>
    (.ok description.report, after.say 2 (finishedLine source testMode description.size))
  | (.error error, after) => (.error error, after)

theorem fst_concluded (source : String) (testMode : Bool)
    (outcome : Except IoError Listing.Description × World) :
    (concluded source testMode outcome).1 = outcome.1.map Listing.Description.report := by
  obtain ⟨_ | description, after⟩ := outcome <;> rfl

/-- **A job that stores nothing** and keeps its source does what describing the source does, and then
shows one line. -/
theorem on_decompressFile_of_nothing
    (nothing : ∀ content decoded later, given source world = .ok content →
      decode preferences.format content preferences.options = .ok decoded →
        Task.on (store source destination decoded preferences) later = (.ok none, later))
    (stays : removes preferences source = false) :
    Task.on (decompressFile source destination preferences) world =
      concluded source preferences.testMode
        (Task.on (Listing.describe source preferences) world) := by
  have kept : ¬(preferences.removeSource && !preferences.testMode &&
      !isStandardInput source) = true := Bool.eq_false_iff.mp stays
  unfold decompressFile Listing.describe
  rw [Task.on_bind, Task.on_bind]
  cases read : Task.on (readSource source) world with
  | mk result opened =>
    cases result with
    | error failure => rfl
    | ok content =>
      have taken : given source world = .ok content := congrArg Prod.fst read
      have decodes := decodeSource_spec source content preferences opened
      simp only
      rw [Task.on_bind, Task.on_bind]
      cases ran : Task.on (decodeSource source content preferences) opened with
      | mk result later =>
        cases result with
        | error failure => rfl
        | ok decoded =>
          have accepted := (decodes.of_ok ran).2
          simp only
          rw [Task.on_bind, nothing content decoded later taken accepted]
          simp only [if_neg kept]
          rfl

/-- **A test** does what describing its source does. -/
theorem on_decompressFile_testing (testing : preferences.testMode = true)
    (source destination : String) (world : World) :
    Task.on (decompressFile source destination preferences) world =
      concluded source preferences.testMode
        (Task.on (Listing.describe source preferences) world) := by
  refine on_decompressFile_of_nothing (fun content decoded later _ _ => ?_) ?_
  · unfold store
    rw [if_pos testing]
    rfl
  · rw [removes, testing, Bool.not_true, Bool.and_false, Bool.false_and]

/-- **A job whose output goes nowhere** does so too, unless its source is a regular file in the place of
the null device. -/
theorem on_decompressFile_nowhere (writing : preferences.testMode = false)
    (plain : preferences.outputDirectory = none) (keeping : preferences.removeSource = false)
    (device : world.files.regular? nowhereName = none) :
    Task.on (decompressFile source nowhereName preferences) world =
      concluded source preferences.testMode
        (Task.on (Listing.describe source preferences) world) := by
  refine on_decompressFile_of_nothing (fun content decoded later read decodes => ?_) ?_
  · have other : ¬(!isStandardInput source && Path.same nowhereName source) = true := by
      intro own
      obtain ⟨named, same⟩ := Bool.and_eq_true_iff.mp own
      have named : isStandardInput source = false := by simpa using named
      rw [eq_nil_of_nowhere device named same read] at decodes
      exact decode_nil _ _ _ decodes
    have nowhere : Destination.ofName nowhereName = .nowhere := by decide +kernel
    have chosen : chosenDestination source nowhereName decoded preferences = .ok nowhereName := by
      rw [chosenDestination, nowhere]
    unfold store
    rw [if_neg (Bool.eq_false_iff.mp writing), plain]
    simp only [Task.on_bind, Task.on_adapt, Task.on_ofExcept, chosen, Except.mapError, if_neg other,
      nowhere]
    rfl
  · rw [removes, keeping, Bool.false_and, Bool.false_and]

/-! ### Tasks that change no file and show no output -/

/-- The files and standard output are as before. -/
structure Untouched (before after : World) : Prop where
  files : after.files = before.files
  output : after.console.output = before.console.output

theorem Untouched.trans {before between after : World} (first : Untouched before between)
    (second : Untouched between after) : Untouched before after :=
  ⟨second.files.trans first.files, second.output.trans first.output⟩

theorem untouched_say (level : Nat) (remark : String) (world : World) :
    Untouched world (world.say level remark) :=
  ⟨World.files_say _ _ _, World.output_say _ _ _⟩

namespace Task

variable {ε ε' α β : Type}

/-- The task changes no file and shows no output. -/
def Inert (task : Task ε α) : Prop := ∀ world, Untouched world (task.on world).2

theorem inert_pure (result : α) : Inert (pure result : Task ε α) := fun _ => ⟨rfl, rfl⟩

theorem inert_throw (failure : ε) : Inert (throw failure : Task ε α) := fun _ => ⟨rfl, rfl⟩

theorem inert_say (level : Nat) (remark : String) : Inert (liftM (say level remark) : Task ε Unit) :=
  untouched_say level remark

theorem Inert.bind {task : Task ε α} {next : α → Task ε β} (first : Inert task)
    (second : ∀ value, Inert (next value)) : Inert (task >>= next) := by
  intro world
  have before := first world
  rw [on_bind]
  generalize on task world = outcome at before ⊢
  obtain ⟨_ | value, after⟩ := outcome
  · exact before
  · exact before.trans (second value after)

theorem Inert.adapt {task : Task ε α} (inert : Inert task) (view : ε → ε') :
    Inert (ExceptT.adapt view task) := fun world => inert world

end Task

/-! ### Describing and listing -/

namespace Listing

/-- Describing a source leaves alone all of the console but the remarks and standard input. -/
theorem keeps_describe {γ : Type} {part : Console → γ}
    (plain : ∀ console remarks, part { console with remarks } = part console)
    (unheard : ∀ console : Console, part { console with input := [] } = part console) :
    Task.Keeps part (describe source preferences) :=
  (keeps_readSource plain fun _ => unheard).bind fun content =>
    (keeps_decodeSource plain content).bind fun _ => Task.keeps_pure _

/-- **Describing a source** changes no file and shows no output. -/
theorem inert_describe (source : String) (preferences : Preferences) :
    Task.Inert (describe source preferences) := by
  intro world
  refine ⟨?_, keeps_describe output_plain (fun _ => rfl) world⟩
  have does : Task.Does (describe source preferences) world
      (fun _ after => after.files = world.files) fun _ after => after.files = world.files := by
    refine (readSource_spec source world).bind (fun _ _ same => same) ?_
    rintro content opened ⟨same, -⟩
    refine (decodeSource_spec source content preferences opened).bind
      (fun _ _ kept => kept.trans same) ?_
    rintro decoded later ⟨kept, -⟩
    exact kept.trans same
  unfold Task.Does at does
  generalize Task.on (describe source preferences) world = outcome at does ⊢
  obtain ⟨_ | description, after⟩ := outcome <;> exact does

/-- What listing comes to know of a source. -/
def verdict (source : String) (preferences : Preferences) (world : World) :
    Except IoError Description :=
  (Task.on (describe source preferences) world).1

/-- What is shown of a source at a verbosity. -/
def lines (verbosity : Nat) : Except IoError Description → Bytes
  | .ok description =>
    (row description).toUTF8.toList ++
      if 3 ≤ verbosity then (details description).toUTF8.toList else []
  | .error _ => []

/-- What listing sources does: each of them gets its verdict, and only what is known of them is
shown. -/
structure Listed (sources : List String) (preferences : Preferences) (world : World)
    (results : List (Except IoError Description)) (after : World) : Prop where
  files : after.files = world.files
  verbosity : after.console.verbosity = world.console.verbosity
  verdicts : List.Forall₂ (fun source result => ∃ seen : World, seen.files = world.files ∧
    verdict source preferences seen = result) sources results
  output : after.console.output =
    world.console.output ++ results.flatMap (lines world.console.verbosity)

/-- One source. -/
theorem listed_source (source : String) (preferences : Preferences) (world : World) :
    Listed [source] preferences world [((listSource preferences source).run world).1]
      ((listSource preferences source).run world).2 := by
  have inert := inert_describe source preferences world
  have verbosity : (Task.on (describe source preferences) world).2.console.verbosity =
      world.console.verbosity :=
    keeps_describe (fun _ _ => rfl) (fun _ => rfl) world
  have same : verdict source preferences world = (Task.on (describe source preferences) world).1 :=
    rfl
  have ran : (describe source preferences).run.run world =
      Task.on (describe source preferences) world := rfl
  rw [listSource, StateT.run_bind, ran]
  generalize Task.on (describe source preferences) world = outcome at inert verbosity same ⊢
  have verdicts : ∀ result, outcome.1 = result → List.Forall₂ (fun source result =>
      ∃ seen : World, seen.files = world.files ∧ verdict source preferences seen = result)
      [source] [result] :=
    fun result isResult => .cons ⟨world, rfl, same.trans isResult⟩ .nil
  obtain ⟨error | description, after⟩ := outcome
  · show Listed [source] preferences world [.error error] (after.say 1 (signed error.message))
    have said := inert.trans (untouched_say 1 (signed error.message) after)
    refine ⟨said.files, ?_, verdicts _ rfl, ?_⟩
    · exact (Task.console_say (fun _ _ => rfl) _ _ _).trans verbosity
    · simpa [lines] using said.output
  · -- The row is shown, and the lines below it depend on the verbosity then.
    let rowed := after.emit (row description).toUTF8.toList
    let below : StateM World (Except IoError Description) :=
      if 3 ≤ rowed.console.verbosity then do
        emitText (details description)
        return .ok description
      else return .ok description
    show Listed [source] preferences world [(below.run rowed).1] (below.run rowed).2
    have high : rowed.console.verbosity = world.console.verbosity := verbosity
    have output : rowed.console.output =
        world.console.output ++ (row description).toUTF8.toList :=
      congrArg (· ++ (row description).toUTF8.toList) inert.output
    by_cases detailed : 3 ≤ world.console.verbosity
    · have run : below.run rowed =
          (.ok description, rowed.emit (details description).toUTF8.toList) := by
        simp only [below, high, if_pos detailed]
        rfl
      rw [run]
      refine ⟨inert.files, verbosity, verdicts _ rfl, ?_⟩
      show rowed.console.output ++ (details description).toUTF8.toList = _
      simp [output, lines, if_pos detailed]
    · have run : below.run rowed = (.ok description, rowed) := by
        simp only [below, high, if_neg detailed]
        rfl
      rw [run]
      refine ⟨inert.files, verbosity, verdicts _ rfl, ?_⟩
      simp [output, lines, if_neg detailed]

/-- **What listing sources does.** -/
theorem listed_sources (sources : List String) (preferences : Preferences) (world : World) :
    Listed sources preferences world ((listSources preferences sources).run world).1
      ((listSources preferences sources).run world).2 := by
  induction sources generalizing world with
  | nil => exact ⟨rfl, rfl, .nil, (List.append_nil _).symm⟩
  | cons source rest ih =>
    have split : (listSources preferences (source :: rest)).run world =
        (((listSource preferences source).run world).1 ::
            ((listSources preferences rest).run ((listSource preferences source).run world).2).1,
          ((listSources preferences rest).run ((listSource preferences source).run world).2).2) := by
      simp only [listSources, List.mapM_cons, StateT.run_bind]
      rfl
    have first := listed_source source preferences world
    have others := ih ((listSource preferences source).run world).2
    rw [split]
    generalize (listSource preferences source).run world = ran at first others ⊢
    obtain ⟨result, between⟩ := ran
    generalize (listSources preferences rest).run between = finished at others ⊢
    obtain ⟨results, after⟩ := finished
    refine ⟨others.files.trans first.files, others.verbosity.trans first.verbosity, ?_, ?_⟩
    · obtain ⟨found, -⟩ := List.forall₂_cons.mp first.verdicts
      refine .cons found (others.verdicts.imp ?_)
      rintro source result ⟨seen, same, isResult⟩
      exact ⟨seen, same.trans first.files, isResult⟩
    · have shown := first.output
      have more := others.output
      simp only [List.flatMap_cons, List.flatMap_nil, List.append_nil] at shown ⊢
      rw [more, shown, first.verbosity, List.append_assoc]

/-- A table: its head and what is shown of each source. -/
def table (verbosity : Nat) (results : List (Except IoError Description)) : Bytes :=
  head.toUTF8.toList ++ results.flatMap (lines verbosity)

/-- **A whole listing** shows a table and changes no file. -/
theorem run_shows_table (sources : List String) (preferences : Preferences) (world : World) :
    ∃ results, List.Forall₂ (fun source result => ∃ seen : World, seen.files = world.files ∧
        verdict source preferences seen = result) sources results ∧
      (Task.on (run sources preferences) world).2.files = world.files ∧
      (Task.on (run sources preferences) world).2.console.output =
        world.console.output ++ table world.console.verbosity results := by
  have listed := listed_sources sources preferences (world.emit head.toUTF8.toList)
  have after : (Task.on (run sources preferences) world).2 =
      ((listSources preferences sources).run (world.emit head.toUTF8.toList)).2 := by
    unfold run emitText
    simp only [Task.on_bind, Task.on_lift, run_emit]
    split <;> rfl
  refine ⟨_, listed.verdicts, ?_, ?_⟩
  · rw [after]
    exact listed.files
  · rw [after, listed.output, table, ← List.append_assoc]
    rfl

end Listing

/-! ### Testing -/

/-- A test of one source. -/
theorem inert_decompressFile (testing : preferences.testMode = true) (source destination : String) :
    Task.Inert (decompressFile source destination preferences) := by
  intro world
  have inert := Listing.inert_describe source preferences world
  rw [on_decompressFile_testing testing]
  generalize Task.on (Listing.describe source preferences) world = outcome at inert ⊢
  obtain ⟨_ | description, after⟩ := outcome
  · exact inert
  · exact inert.trans (untouched_say _ _ _)

/-- Tests of several sources, one after the other. -/
theorem Batch.untouched_runItems (testing : preferences.testMode = true) (jobs : List Batch.Item)
    (world : World) : Untouched world ((Batch.runItems preferences jobs).run world).2 := by
  induction jobs generalizing world with
  | nil => exact ⟨rfl, rfl⟩
  | cons item rest ih =>
    have first : Untouched world ((Batch.attemptItem preferences item).run world).2 := by
      have inert := inert_decompressFile testing item.source item.destination world
      rw [Batch.run_attemptItem]
      generalize Task.on (decompressFile item.source item.destination preferences) world = outcome
        at inert ⊢
      obtain ⟨_ | report, after⟩ := outcome
      · exact inert.trans (untouched_say _ _ _)
      · exact inert
    rw [Batch.run_runItems_cons]
    exact first.trans (ih _)

/-- A whole batch of tests. -/
theorem Batch.inert_run (testing : preferences.testMode = true) (sources : List String)
    (common : Option String) : Task.Inert (Batch.run sources common preferences) := by
  intro world
  have begins : Untouched world (Batch.begun sources common preferences world) :=
    ⟨Batch.files_begun _ _, Batch.console_begun output_plain _ _⟩
  rw [Batch.on_run]
  exact (begins.trans (Batch.untouched_runItems testing _ _)).trans (untouched_say _ _ _)

/-! ### Commands -/

namespace CommandLine

/-- **A command that is understood** has preferences that say whether it only tests. -/
theorem testMode_of_parse {environment : Environment} {words : List Word} {before after : World}
    {command : Command}
    (parsed : Task.on (parse environment words) before = (.ok (some command), after)) :
    command.preferences.testMode = (command.mode == .test) := by
  have does : Task.Does (parse environment words) before
      (fun found _ => ∀ command ∈ found, command.preferences.testMode = (command.mode == .test))
      fun _ _ => True := by
    rcases parse_cases environment words with ⟨draft, -, same⟩ | ⟨fault, -, same⟩ |
      ⟨stop, text, -, -, same⟩
    · rw [same]
      refine (ofDraft_spec environment draft before).bind (fun _ _ _ => trivial) ?_
      rintro _ _ ⟨coherent, -⟩ _ ⟨⟩
      exact Bool.eq_iff_iff.mpr (coherent.testMode.trans beq_iff_eq.symm)
    · rw [same]
      exact trivial
    · rw [same]
      exact Task.does_lift_bind fun command member => absurd member (Option.not_mem_none command)
  exact does.of_ok parsed command rfl

end CommandLine

namespace Program

variable {command : CommandLine.Command}

theorem inert_lowerVerbosity : Task.Inert (liftM lowerVerbosity : Task String Unit) := by
  intro world
  rw [Task.on_lift, lowerVerbosity, StateT.run_bind, run_currentVerbosity]
  show Untouched world
    (StateT.run (if world.console.verbosity = usualVerbosity then setVerbosity 1 else pure ()) world).2
  split <;> exact ⟨rfl, rfl⟩

theorem inert_decompressAll (testing : command.preferences.testMode = true) :
    Task.Inert (decompressAll command) := by
  have batch := (Batch.inert_run testing command.inputs (namedOutput command)).adapt ioText
  unfold decompressAll
  split
  · exact (Task.inert_throw _).bind fun _ => inert_lowerVerbosity.bind fun _ => batch
  · exact inert_lowerVerbosity.bind fun _ => batch

theorem inert_chosenOutput (command : CommandLine.Command) (input : String) :
    Task.Inert (chosenOutput command input) := by
  unfold chosenOutput
  split
  · exact Task.inert_pure _
  · split
    · exact Task.inert_pure _
    · split
      · exact Task.inert_pure _
      · split
        · exact (Task.inert_say _ _).bind fun _ => Task.inert_pure _
        · exact Task.inert_throw _

theorem inert_decompressOne (testing : command.preferences.testMode = true) :
    Task.Inert (decompressOne command) := by
  have job : ∀ input output, Task.Inert (do
      let _ ← ExceptT.adapt ioText (decompressFile input output command.preferences)) :=
    fun input output => ((inert_decompressFile testing input output).adapt ioText).bind fun _ =>
      Task.inert_pure _
  unfold decompressOne
  refine (inert_chosenOutput command _).bind fun output => ?_
  split
  · exact inert_lowerVerbosity.bind fun _ => job _ _
  · exact job _ _

/-- A command that only tests. -/
theorem inert_execute (testing : command.preferences.testMode = true) (mode : command.mode = .test) :
    Task.Inert (execute command) := by
  have notList : command.mode ≠ .list := by
    rw [mode]
    nofun
  unfold execute
  refine (Task.inert_say _ _).bind fun _ => (Task.inert_say _ _).bind fun _ => ?_
  rw [if_neg notList]
  split
  · exact inert_decompressAll testing
  · exact inert_decompressOne testing

/-- The sources that a command lists. -/
def listedSources (command : CommandLine.Command) : List String :=
  if command.several then command.inputs else [command.input.getD standardInputName]

/-- A command that lists shows a table. -/
theorem execute_shows_table (mode : command.mode = .list) (world : World) :
    ∃ results, List.Forall₂ (fun source result => ∃ seen : World, seen.files = world.files ∧
        Listing.verdict source command.preferences seen = result) (listedSources command) results ∧
      (Task.on (execute command) world).2.files = world.files ∧
      (Task.on (execute command) world).2.console.output =
        world.console.output ++ Listing.table world.console.verbosity results := by
  obtain ⟨begun, isBegun⟩ : ∃ begun, (world.say 3 welcome).say 4
    (command.preferences.summary ++ "\n") = begun := ⟨_, rfl⟩
  have said : Untouched world begun := isBegun ▸ (untouched_say _ _ _).trans (untouched_say _ _ _)
  have verbosity : begun.console.verbosity = world.console.verbosity := by
    rw [← isBegun]
    exact (Task.console_say (fun _ _ => rfl) _ _ _).trans (Task.console_say (fun _ _ => rfl) _ _ _)
  have ran : (Task.on (execute command) world).2 =
      (Task.on (Listing.run (listedSources command) command.preferences) begun).2 := by
    unfold execute
    simp only [Task.on_bind, Task.on_lift, run_say, if_pos mode, isBegun]
    rfl
  obtain ⟨results, verdicts, files, output⟩ :=
    Listing.run_shows_table (listedSources command) command.preferences begun
  rw [said.files] at verdicts files
  rw [said.output, verbosity] at output
  exact ⟨results, verdicts, ran ▸ files, ran ▸ output⟩

/-- **Testing and listing only look.** A command that is understood and does not decompress changes no
file, whatever its other options. If it tests it shows no output, and if it lists it shows a table of
what is known of its sources. On a single source three ways come to the same verdict, with the same
container and sizes or the same error: listing, testing, and decompressing to the null device, unless
a regular file is in the place of that device. -/
theorem inspection_readOnly :
    (∀ environment words before command after,
      Task.on (CommandLine.parse environment words) before = (.ok (some command), after) →
        command.mode = .test ∨ command.mode = .list → ∀ world,
        (Task.on (execute command) world).2.files = world.files ∧
        (command.mode = .test →
          (Task.on (execute command) world).2.console.output = world.console.output) ∧
        (command.mode = .list → ∃ results, List.Forall₂ (fun source result =>
            ∃ seen : World, seen.files = world.files ∧
              Listing.verdict source command.preferences seen = result)
            (listedSources command) results ∧
          (Task.on (execute command) world).2.console.output =
            world.console.output ++ Listing.table world.console.verbosity results)) ∧
    ∀ source preferences world,
      (∀ destination,
        (Task.on (decompressFile source destination { preferences with testMode := true }) world).1 =
          (Listing.verdict source preferences world).map Listing.Description.report) ∧
      (world.files.regular? nowhereName = none →
        (Task.on (decompressFile source nowhereName { preferences with
            testMode := false, outputDirectory := none, removeSource := false }) world).1 =
          (Listing.verdict source preferences world).map Listing.Description.report) := by
  refine ⟨?_, fun source preferences world => ⟨fun destination => ?_, fun device => ?_⟩⟩
  · intro environment words before command after parsed inspects world
    rcases inspects with mode | mode
    · have testing : command.preferences.testMode = true := by
        rw [CommandLine.testMode_of_parse parsed, mode]
        rfl
      have inert := inert_execute testing mode world
      refine ⟨inert.files, fun _ => inert.output, fun other => ?_⟩
      cases mode.symm.trans other
    · obtain ⟨results, verdicts, files, output⟩ := execute_shows_table mode world
      refine ⟨files, fun other => ?_, fun _ => ⟨results, verdicts, output⟩⟩
      cases mode.symm.trans other
  · rw [on_decompressFile_testing rfl, fst_concluded]
    rfl
  · rw [on_decompressFile_nowhere rfl rfl rfl device, fst_concluded]
    rfl

/-- A file system with the null device, and a good stream next to it. -/
def equipped : FileSystem :=
  ⟨[(["dev"], .directory), (["dev", "null"], .nullDevice), (["x.zz"], plainFile letterStream)],
    [], 0⟩

/-- A test of a good stream, although its source was to be removed and an output to be replaced. -/
theorem inspection_readOnly_forced :
    ∃ command after,
      Task.on (CommandLine.parse {} (["-tf", "--rm", "x.zz"].map Word.ofString)) ⟨equipped, {}⟩ =
        (.ok (some command), after) ∧
      command.mode = .test ∧ command.preferences.removeSource = true ∧
      (Task.on (execute command) ⟨equipped, {}⟩).2.files = equipped ∧
      equipped.regular? nowhereName = none ∧
      (Task.on (decompressFile "x.zz" nowhereName { command.preferences with
          testMode := false, outputDirectory := none, removeSource := false }) ⟨equipped, {}⟩).1 =
        (Listing.verdict "x.zz" command.preferences ⟨equipped, {}⟩).map
          Listing.Description.report := by
  obtain ⟨looks, agrees⟩ := inspection_readOnly
  have device : equipped.regular? nowhereName = none := by
    have walked : equipped.walk .reading FileSystem.maxLinks [] (Path.segments nowhereName) =
        .ok (.entry ["dev", "null"]) := by cbv
    have status : equipped.status nowhereName = .ok (["dev", "null"], .nullDevice) :=
      FileSystem.status_eq_ok_iff.mpr
        ⟨FileSystem.resolve_eq_ok_iff.mpr ⟨usable_nowhere, FileSystem.leads_of_walk walked⟩, rfl⟩
    rw [FileSystem.regular?, status]
  have parsed : Task.on (CommandLine.parse {} (["-tf", "--rm", "x.zz"].map Word.ofString))
      ⟨equipped, {}⟩ = (.ok (some {
        preferences := { overwrite := true, testMode := true, removeSource := true }
        mode := .test
        input := some "x.zz"
        verbosity := 2 }), ⟨equipped, {}⟩) := by
    cbv
  exact ⟨_, _, parsed, rfl, rfl, (looks _ _ _ _ _ parsed (Or.inl rfl) _).1, device,
    (agrees "x.zz" _ _).2 device⟩

end Program

end Inflate
