/-
**One job in two worlds.**

What a job does depends on the locations that it asks for, on standard input if that is its source, and
on nothing else. In two worlds that agree on these it ends in the same way, changes the same locations
in the same way, and writes the same to standard output.

* `Task.Twin`: two tasks that do the same in two worlds;
* `Task.Twin.bind`: tasks one after the other;
* `JobAsks`: the locations that a job asks for;
* `twin_process`, `twin_conclude`: a job up to the removal of its source, and its end;
* `twin_decompressFile`: **a whole job**.
-/

import Inflate.Proofs.Console
import Inflate.Proofs.FileSystem.Agreement

namespace Inflate

open FileSystem (Agree Asks AsksBefore InStep Removed Within)

/-! ### Tasks that do the same -/

namespace Task

variable {ε ε' α β : Type} {shared : Location → Prop} {world other : World}

/-- Two tasks that do the same in two worlds: they end in the same way, change shared locations in the
same way and no others, and write the same to standard output. -/
structure Twin (shared : Location → Prop) (first second : Task ε α) (world other : World) : Prop where
  result : (second.on other).1 = (first.on world).1
  files : InStep shared world.files other.files (first.on world).2.files (second.on other).2.files
  output : ∃ data, (first.on world).2.console.output = world.console.output ++ data ∧
    (second.on other).2.console.output = other.console.output ++ data

/-- Two tasks that change no file and write nothing. -/
theorem twin_of_same {first second : Task ε α} (agree : Agree shared world.files other.files)
    (result : (second.on other).1 = (first.on world).1)
    (left : (first.on world).2.files = world.files)
    (right : (second.on other).2.files = other.files)
    (quiet : (first.on world).2.console.output = world.console.output)
    (silent : (second.on other).2.console.output = other.console.output) :
    Twin shared first second world other where
  result := result
  files := by
    rw [left, right]
    exact .refl agree
  output := ⟨[], quiet.trans (List.append_nil _).symm, silent.trans (List.append_nil _).symm⟩

theorem twin_pure (agree : Agree shared world.files other.files) (result : α) :
    Twin shared (pure result : Task ε α) (pure result) world other :=
  twin_of_same agree rfl rfl rfl rfl rfl

theorem twin_throw (agree : Agree shared world.files other.files) (failure : ε) :
    Twin shared (throw failure : Task ε α) (throw failure) world other :=
  twin_of_same agree rfl rfl rfl rfl rfl

theorem twin_ofExcept (agree : Agree shared world.files other.files) (result : Except ε α) :
    Twin shared (MonadExcept.ofExcept result : Task ε α) (MonadExcept.ofExcept result) world
      other := by
  cases result with
  | error failure => exact twin_throw agree failure
  | ok value => exact twin_pure agree value

theorem twin_say (agree : Agree shared world.files other.files) (level : Nat) (remark : String) :
    Twin shared (liftM (say level remark) : Task ε Unit) (liftM (say level remark)) world other :=
  twin_of_same agree rfl (World.files_say _ _ _) (World.files_say _ _ _) (World.output_say _ _ _)
    (World.output_say _ _ _)

theorem twin_emit (agree : Agree shared world.files other.files) (data : Bytes) :
    Twin shared (liftM (emit data) : Task ε Unit) (liftM (emit data)) world other :=
  ⟨rfl, .refl agree, data, rfl, rfl⟩

theorem twin_setFiles {files later : FileSystem}
    (step : InStep shared world.files other.files files later) :
    Twin shared (liftM (setFiles files) : Task ε Unit) (liftM (setFiles later)) world other :=
  ⟨rfl, step, [], (List.append_nil _).symm, (List.append_nil _).symm⟩

/-- **Tasks one after the other** do the same if they do so each. -/
theorem Twin.bind {first second : Task ε α} {next following : α → Task ε β}
    (twin : Twin shared first second world other)
    (rest : ∀ value after last, first.on world = (.ok value, after) →
      second.on other = (.ok value, last) → Agree shared after.files last.files →
        Twin shared (next value) (following value) after last) :
    Twin shared (first >>= next) (second >>= following) world other := by
  obtain ⟨result, step, data, left, right⟩ := twin
  rcases firstRan : first.on world with ⟨outcome, after⟩
  rcases secondRan : second.on other with ⟨same, last⟩
  rw [firstRan, secondRan] at result step
  rw [firstRan] at left
  rw [secondRan] at right
  obtain rfl : same = outcome := result
  cases same with
  | error failure =>
    have firstEnds : (first >>= next).on world = (.error failure, after) := by rw [on_bind, firstRan]
    have secondEnds : (second >>= following).on other = (.error failure, last) := by
      rw [on_bind, secondRan]
    refine ⟨?_, ?_, data, ?_, ?_⟩
    · rw [firstEnds, secondEnds]
    · rw [firstEnds, secondEnds]
      exact step
    · rw [firstEnds]
      exact left
    · rw [secondEnds]
      exact right
  | ok value =>
    have firstGoesOn : (first >>= next).on world = (next value).on after := by
      rw [on_bind, firstRan]
    have secondGoesOn : (second >>= following).on other = (following value).on last := by
      rw [on_bind, secondRan]
    obtain ⟨result, further, more, ahead, behind⟩ := rest value after last firstRan secondRan step.agree
    refine ⟨?_, ?_, data ++ more, ?_, ?_⟩
    · rw [firstGoesOn, secondGoesOn]
      exact result
    · rw [firstGoesOn, secondGoesOn]
      exact step.trans further
    · rw [firstGoesOn, ahead, left, List.append_assoc]
    · rw [secondGoesOn, behind, right, List.append_assoc]

/-- Another view of the failure. -/
theorem Twin.adapt {first second : Task ε α} (twin : Twin shared first second world other)
    (view : ε → ε') :
    Twin shared (ExceptT.adapt view first) (ExceptT.adapt view second) world other where
  result := congrArg (·.mapError view) twin.result
  files := twin.files
  output := twin.output

/-- Tasks that look at the files first. -/
theorem twin_currentFiles {next following : FileSystem → Task ε α}
    (twin : Twin shared (next world.files) (following other.files) world other) :
    Twin shared (liftM currentFiles >>= next) (liftM currentFiles >>= following) world other := by
  have first : (liftM currentFiles >>= next).on world = (next world.files).on world := rfl
  have second : (liftM currentFiles >>= following).on other = (following other.files).on other := rfl
  refine ⟨?_, ?_, ?_⟩
  · rw [first, second]
    exact twin.result
  · rw [first, second]
    exact twin.files
  · rw [first, second]
    exact twin.output

end Task

variable {shared : Location → Prop} {source destination path : String} {preferences : Preferences}
  {decoded : Decoded} {content data : Bytes} {world other : World} {stored : FileSystem}

/-! ### What a job asks for -/

/-- The locations that are asked for to find the directory that a word names. -/
def DirectoryAsks (files : FileSystem) (word : Word) (place : Location) : Prop :=
  match word.text? with
  | some directory => files.Asks directory .reading place
  | none => files.AsksBefore (String.ofList word.chars) place

/-- The source of a job can be read and decoded. -/
structure Decodes (source : String) (preferences : Preferences) (world : World) (decoded : Decoded)
    (content : Bytes) : Prop where
  read : given source world = .ok content
  decodes : decode preferences.format content preferences.options = .ok decoded

/-- The path that the output of a job goes to, if its source can be decoded. -/
def GoesTo (source destination : String) (preferences : Preferences) (world : World) (path : String) :
    Prop :=
  ∃ decoded content, Decodes source preferences world decoded content ∧
    outputPath source destination decoded preferences = some path

/-- The locations that a job asks for: on the way to its source, to the output directory, if an output
is to be written there, and to its output. -/
inductive JobAsks (source destination : String) (preferences : Preferences) (world : World)
    (place : Location) : Prop where
  | source (named : isStandardInput source = false) (asks : world.files.Asks source .reading place)
  | directory {word : Word} {decoded : Decoded} {content : Bytes} {name : String}
    (writes : preferences.testMode = false) (under : preferences.outputDirectory = some word)
    (decodes : Decodes source preferences world decoded content)
    (isNamed : Naming.outputName decoded = .ok name)
    (asks : DirectoryAsks world.files word place)
  | output {path : String} (goes : GoesTo source destination preferences world path)
    (asks : world.files.Asks path (outputPurpose preferences) place)

/-- Where an output was stored, a path asks for nothing new. -/
theorem Stored.within {before : FileSystem} {written : Option String} {purpose : Purpose}
    (stores : Stored decoded preferences before stored written)
    (within : Within shared before path purpose) : Within shared stored path purpose := by
  rcases stores.same_or_gains with same | ⟨location, gains, -⟩
  · exact same ▸ within
  · exact within.of_gain gains

/-- The path of an output that was stored asks for nothing but what it asked for before. -/
theorem Stored.within_written {before : FileSystem}
    (stores : Stored decoded preferences before stored (some path))
    (within : Within shared before path (outputPurpose preferences)) :
    Within shared stored path .reading := by
  unfold outputPurpose at within
  cases stores with
  | device same plain =>
    rw [plain] at within
    exact same ▸ within
  | opened plain _ opened =>
    rw [plain] at within
    exact within.of_gain opened.writes.gains
  | placed under _ _ _ placed =>
    rw [under] at within
    have gains := placed.writes.gains
    have origin : ∀ path, stored.origin path = before.origin path := fun path => by
      rw [FileSystem.origin, FileSystem.origin, gains.home]
    intro place asks
    unfold Asks at asks
    rw [origin] at asks
    refine within place ?_
    rcases placed.names with names | names
    · exact asks.naming_of_gain gains placed.outside (FileSystem.resolve_eq_ok_iff.mp names).2
        (Or.inl rfl)
    · exact asks.naming_of_gain gains placed.outside (FileSystem.resolve_eq_ok_iff.mp names).2
        (Or.inr rfl)

/-! ### Parts of jobs -/

open Inflate.Task (Twin)

theorem twin_readSource (agree : Agree shared world.files other.files)
    (within : isStandardInput source = false → Within shared world.files source .reading)
    (input : isStandardInput source = true → other.console.input = world.console.input) :
    Twin shared (readSource source) (readSource source) world other := by
  unfold readSource
  by_cases standard : isStandardInput source = true
  · simp only [if_pos standard]
    refine (Task.twin_say agree 4 _).bind fun _ after last saidLeft saidRight agree => ?_
    cases saidLeft
    cases saidRight
    refine Task.twin_of_same agree ?_ rfl rfl rfl rfl
    simp only [Task.on_lift, run_takeInput, World.input_say, input standard]
  · simp only [if_neg standard]
    have within := within (Bool.eq_false_iff.mpr standard)
    refine Task.twin_currentFiles ?_
    rw [agree.isDirectory_eq within, agree.read_eq within]
    split
    · exact (Task.twin_say agree 1 _).bind fun _ _ _ _ _ agree => Task.twin_throw agree _
    · split
      · exact Task.twin_pure agree _
      · exact Task.twin_throw agree _

theorem twin_decodeSource (agree : Agree shared world.files other.files) :
    Twin shared (decodeSource source content preferences) (decodeSource source content preferences)
      world other := by
  refine Twin.adapt ?_ _
  refine Task.twin_of_same agree ?_ ?_ ?_ ?_ ?_ <;> rw [on_perform]
  · rw [on_perform]
  · exact World.files_sayAll _ _
  · exact World.files_sayAll _ _
  · exact World.output_sayAll _ _
  · exact World.output_sayAll _ _

theorem twin_persist {directory name : String} (agree : Agree shared world.files other.files)
    (inside : Within shared world.files directory .reading)
    (output : Within shared world.files (Path.join directory name) .naming) :
    Twin shared (persist directory name data) (persist directory name data) world other := by
  obtain ⟨remark, left⟩ := on_persist directory name data world
  obtain ⟨line, right⟩ := on_persist directory name data other
  have same : Persistence.Call.verdict ⟨directory, name, [data]⟩ other.files =
      Persistence.Call.verdict ⟨directory, name, [data]⟩ world.files :=
    agree.verdict_eq inside output
  rw [same] at right
  cases verdict : Persistence.Call.verdict ⟨directory, name, [data]⟩ world.files with
  | error failure =>
    rw [verdict] at left right
    refine Task.twin_of_same agree ?_ ?_ ?_ ?_ ?_ <;> simp only [left, right]
  | ok location =>
    rw [verdict] at left right
    have accepts := Persistence.Call.accepts_iff.mpr verdict
    have here : shared location := by
      rcases accepts.names with names | names <;> exact output.place names
    refine ⟨?_, ?_, [], ?_, ?_⟩ <;> simp only [left, right, World.files_say, World.output_say,
      List.append_nil]
    exact agree.withFile here (FileSystem.ne_nil_of_kindAt accepts.outside) _ _

theorem twin_persistAt {word : Word} {name : String} (agree : Agree shared world.files other.files)
    (inside : ∀ place, DirectoryAsks world.files word place → shared place)
    (output : ∀ directory, word.text? = some directory →
      Within shared world.files (Path.join directory name) .naming) :
    Twin shared (persistAt word name data) (persistAt word name data) world other := by
  unfold persistAt
  unfold DirectoryAsks at inside
  cases text : word.text? with
  | some directory =>
    rw [text] at inside
    exact twin_persist agree inside (output directory text)
  | none =>
    rw [text] at inside
    refine Task.twin_currentFiles ?_
    rw [agree.undecodable_eq inside]
    exact Task.twin_throw agree _

theorem twin_writeDestination (target : Destination) (overwrite : Bool)
    (agree : Agree shared world.files other.files)
    (within : ∀ path, target.path? = some path → Within shared world.files path .reading) :
    Twin shared (writeDestination target overwrite data) (writeDestination target overwrite data)
      world other := by
  cases target with
  | standardOutput =>
    refine Twin.bind ?_ fun _ _ _ _ _ agree => Task.twin_emit agree data
    exact (Task.twin_say agree 4 _).bind fun _ _ _ _ _ agree => Task.twin_pure agree none
  | nowhere =>
    refine (Task.twin_pure agree none).bind ?_
    rintro _ _ _ ⟨⟩ ⟨⟩ agree
    exact Task.twin_pure agree ()
  | file path =>
    have within := within path rfl
    have opening : Twin shared (openDestination (.file path) overwrite)
        (openDestination (.file path) overwrite) world other := by
      unfold openDestination
      refine Task.twin_currentFiles ?_
      rw [agree.pathExists_eq within]
      split
      · exact (Task.twin_say agree 1 _).bind fun _ _ _ _ _ agree => Task.twin_throw agree _
      · rcases agree.create_cases within with
          ⟨errno, left, right⟩ | ⟨created, later, place, left, right, step, -⟩
        · rw [left, right]
          exact Task.twin_throw agree _
        · rw [left, right]
          exact (Task.twin_setFiles step).bind fun _ _ _ _ _ agree => Task.twin_pure agree place
    refine opening.bind fun place after last ran _ agree => ?_
    obtain ⟨-, ⟨rfl, -⟩ | ⟨location, rfl, opened⟩⟩ :=
      (openDestination_spec path overwrite world).of_ok ran
    · exact Task.twin_pure agree ()
    · have here : shared location := by
        rcases opened.aims with aims | aims <;> exact within.place aims
      exact Task.twin_currentFiles (Task.twin_setFiles (agree.appendAt here data))

theorem twin_store (agree : Agree shared world.files other.files)
    (inside : ∀ word name, preferences.testMode = false → preferences.outputDirectory = some word →
      Naming.outputName decoded = .ok name →
        ∀ place, DirectoryAsks world.files word place → shared place)
    (output : ∀ path, outputPath source destination decoded preferences = some path →
      Within shared world.files path (outputPurpose preferences)) :
    Twin shared (store source destination decoded preferences)
      (store source destination decoded preferences) world other := by
  unfold store
  unfold outputPath outputPurpose at output
  cases testMode : preferences.testMode with
  | true => exact Task.twin_pure agree none
  | false =>
    rw [testMode] at output
    cases under : preferences.outputDirectory with
    | some word =>
      rw [under] at output
      refine Twin.adapt ?_ _
      cases isNamed : Naming.outputName decoded with
      | error failure => exact (Task.twin_throw agree failure).bind fun _ _ _ ran => nomatch ran
      | ok name =>
        refine (Task.twin_pure agree name).bind ?_
        rintro _ _ _ ⟨⟩ ⟨⟩ agree
        refine Twin.bind ?_ fun _ _ _ _ _ agree => Task.twin_pure agree _
        refine twin_persistAt agree (inside word name testMode under isNamed) fun directory text => ?_
        refine output _ ?_
        simp only [text, isNamed]
        rfl
    | none =>
      rw [under] at output
      refine (Twin.adapt (Task.twin_ofExcept agree _) _).bind ?_
      intro chosen after last ran _ agree
      obtain ⟨isChosen, rfl⟩ :
          chosenDestination source destination decoded preferences = .ok chosen ∧ world = after := by
        rw [Task.on_adapt, Task.on_ofExcept] at ran
        cases found : chosenDestination source destination decoded preferences with
        | error failure =>
          rw [found] at ran
          cases ran
        | ok name =>
          rw [found] at ran
          cases ran
          exact ⟨rfl, rfl⟩
      split
      · exact Task.twin_throw agree _
      · refine Twin.bind ?_ fun _ _ _ _ _ agree => Task.twin_pure agree _
        refine twin_writeDestination _ _ agree fun path isFile => ?_
        refine output path ?_
        simp only [isChosen]
        exact isFile

theorem twin_copyStatus (agree : Agree shared world.files other.files)
    (within : isStandardInput source = false → Within shared world.files source .reading)
    (output : Within shared world.files path .reading) :
    Twin shared (liftM (copyStatus source path decoded preferences) : Task IoError Unit)
      (liftM (copyStatus source path decoded preferences)) world other := by
  have quiet : Task.Keeps Console.output
      (liftM (copyStatus source path decoded preferences) : Task IoError Unit) :=
    keeps_copyStatus output_plain path decoded
  have step : InStep shared world.files other.files
      ((copyStatus source path decoded preferences).run world).2.files
      ((copyStatus source path decoded preferences).run other).2.files := by
    unfold copyStatus
    simp only [run_currentFiles_bind, agree.regular?_eq output]
    by_cases skip : (isStandardInput source || (world.files.regular? path).isNone) = true
    · simp only [if_pos skip]
      exact .refl agree
    · have named : isStandardInput source = false := by
        cases standard : isStandardInput source
        · rfl
        · rw [standard] at skip
          exact absurd rfl skip
      simp only [if_neg skip, agree.regular?_eq (within named)]
      cases world.files.regular? source with
      | none => exact .refl agree
      | some found =>
        obtain ⟨location, file⟩ := found
        rcases agree.setStatus_cases output (chosenTime file decoded preferences) file.mode with
          ⟨error, left, right⟩ | ⟨changed, later, left, right, step⟩
        · simp only [left, right, run_say, World.files_say]
          exact .refl agree
        · simp only [left, right]
          exact step
  refine ⟨rfl, step, [], ?_, ?_⟩
  · exact (quiet world).trans (List.append_nil _).symm
  · exact (quiet other).trans (List.append_nil _).symm

theorem twin_removeSource (agree : Agree shared world.files other.files)
    (within : Within shared world.files source .naming) :
    Twin shared (removeSource source) (removeSource source) world other := by
  unfold removeSource
  refine Task.twin_currentFiles ?_
  rcases agree.remove_cases within with ⟨errno, left, right⟩ | ⟨files, later, left, right, step⟩
  · rw [left, right]
    exact Task.twin_throw agree _
  · rw [left, right]
    exact Task.twin_setFiles step

/-! ### Whole jobs -/

/-- A job up to the removal of its source, in two worlds. -/
theorem twin_process (agree : Agree shared world.files other.files)
    (asks : ∀ place, JobAsks source destination preferences world place → shared place)
    (input : isStandardInput source = true → other.console.input = world.console.input) :
    Twin shared (process source destination preferences) (process source destination preferences)
      world other := by
  have within : isStandardInput source = false → Within shared world.files source .reading :=
    fun named place on => asks place (.source named on)
  unfold process
  refine (twin_readSource agree within input).bind fun content read _ reading _ agree => ?_
  have sameRead := ((readSource_spec source world).of_ok reading).1
  refine (twin_decodeSource agree).bind fun decoded opened _ decoding _ agree => ?_
  obtain ⟨sameOpened, decodes⟩ := (decodeSource_spec source content preferences read).of_ok decoding
  have same : opened.files = world.files := sameOpened.trans sameRead
  have decodes : Decodes source preferences world decoded content :=
    ⟨congrArg Prod.fst reading, decodes⟩
  have output : ∀ path, outputPath source destination decoded preferences = some path →
      Within shared opened.files path (outputPurpose preferences) := by
    intro path goes place on
    exact asks place (.output ⟨decoded, content, decodes, goes⟩ (same ▸ on))
  refine (twin_store agree ?_ output).bind fun written stored _ storing _ agree => ?_
  · intro word name writes under isNamed place on
    exact asks place (.directory writes under decodes isNamed (same ▸ on))
  · obtain ⟨reports, stores⟩ := (store_spec source destination decoded preferences opened).of_ok storing
    cases written with
    | none => exact Task.twin_pure agree _
    | some path =>
      refine (twin_copyStatus agree (fun named => ?_) ?_).bind fun _ _ _ _ _ agree =>
        Task.twin_pure agree _
      · exact stores.within (same ▸ within named)
      · exact stores.within_written (output path reports.symm)

/-- The end of a job, in two worlds. -/
theorem twin_conclude (report : Report) (agree : Agree shared world.files other.files)
    (within : removes preferences source = true → Within shared world.files source .naming) :
    Twin shared (conclude source preferences report) (conclude source preferences report) world
      other := by
  have saying : ∀ {world other : World}, Agree shared world.files other.files → ∀ line,
      Twin shared (do say 2 line; return report : Task IoError Report) (do say 2 line; return report)
        world other :=
    fun agree line => (Task.twin_say agree 2 line).bind fun _ _ _ _ _ agree =>
      Task.twin_pure agree report
  unfold conclude
  unfold removes at within
  split
  · next removing =>
    exact (twin_removeSource agree (within removing)).bind fun _ _ _ _ _ agree => saying agree _
  · exact saying agree _

/-- **A whole job** does the same in two worlds that agree on what it asks for. -/
theorem twin_decompressFile (agree : Agree shared world.files other.files)
    (asks : ∀ place, JobAsks source destination preferences world place → shared place)
    (input : isStandardInput source = true → other.console.input = world.console.input) :
    Twin shared (decompressFile source destination preferences)
      (decompressFile source destination preferences) world other := by
  rw [decompressFile_eq]
  refine (twin_process agree asks input).bind fun report kept _ processing _ agree => ?_
  obtain ⟨content, decoded, stored, processed⟩ :=
    (process_spec source destination preferences world).of_ok processing
  refine twin_conclude report agree fun removing => ?_
  have within : Within shared world.files source .reading := fun place on =>
    asks place (.source (standard_eq_false removing) on)
  exact ((processed.stores.within within).of_sameContents processed.dresses).of_reading .naming

end Inflate
