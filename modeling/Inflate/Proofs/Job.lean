/-
**What a job does to files.**

A job first reads, then decodes, then writes, and at the end may remove its source. Each of these is
described by what it does to the files if it succeeds and if it fails; put together they give all that
a job can do.

* `Gives`, `Stored`: what a source gives, and the ways in which an output is stored;
* `process`, `conclude`: a job up to the removal of its source, and its end;
* `succeeds_decompressFile`, `succeeds_unreported`: a job whose parts succeed;
* `succeeds_replacing`: a job that replaces what has the name of its output in an output directory;
* `process_spec`, `conclude_spec`: what each half of a job can do;
* `decompressFile_spec`: what a job does, by its `Course` if it succeeded.
-/

import Inflate.Job
import Inflate.Proofs.Persistence

namespace Inflate

open FileSystem (Writes Opened SameContents Removed)
open Persistence (Placed)

variable {source destination : String} {decoded : Decoded} {preferences : Preferences} {world : World}

/-! ### Reading and decoding -/

/-- What can be read of a file or of the null device. -/
structure Reads (files : FileSystem) (path : String) (content : Bytes) (location : Location)
    (entry : Entry) : Prop where
  status : files.status path = .ok (location, entry)
  content : entry = .nullDevice ∧ content = [] ∨ ∃ file, entry = .file file ∧ content = file.content

theorem reads_of_read {files : FileSystem} {path : String} {content : Bytes}
    (read : files.read path = .ok content) :
    ∃ location entry, Reads files path content location entry := by
  unfold FileSystem.read at read
  cases status : files.status path with
  | error errno =>
    rw [status] at read
    cases read
  | ok found =>
    obtain ⟨location, entry⟩ := found
    rw [status] at read
    simp only [bind, Except.bind] at read
    cases entry with
    | directory | link => cases read
    | nullDevice =>
      cases read
      exact ⟨location, _, status, Or.inl ⟨rfl, rfl⟩⟩
    | file file =>
      simp only at read
      split at read
      · cases read
        exact ⟨location, _, status, Or.inr ⟨file, rfl, rfl⟩⟩
      · cases read

/-- The content of a source: what standard input gives, or what can be read of a path. -/
def Gives (world : World) (source : String) (content : Bytes) : Prop :=
  if isStandardInput source then content = world.console.input
  else ∃ location entry, Reads world.files source content location entry

/-- What reading a source gives. -/
def given (source : String) (world : World) : Except IoError Bytes :=
  (Task.on (readSource source) world).1

theorem World.input_say (level : Nat) (remark : String) (world : World) :
    (world.say level remark).console.input = world.console.input := by
  unfold say
  split <;> rfl

/-- **Reading a source** changes no file. -/
theorem readSource_spec (source : String) (world : World) :
    Task.Does (readSource source) world
      (fun content after => after.files = world.files ∧ Gives world source content)
      (fun _ after => after.files = world.files) := by
  unfold readSource Gives
  by_cases standard : isStandardInput source = true
  · rw [if_pos standard]
    refine Task.does_lift_bind ⟨World.files_say _ _ _, ?_⟩
    rw [if_pos standard]
    exact World.input_say _ _ _
  · rw [if_neg standard]
    refine Task.does_lift_bind ?_
    rw [run_currentFiles]
    by_cases directory : world.files.isDirectory source = true
    · rw [if_pos directory]
      exact Task.does_lift_bind (World.files_say _ _ _)
    · rw [if_neg directory]
      cases read : world.files.read source with
      | error errno => exact rfl
      | ok content =>
        refine ⟨rfl, ?_⟩
        rw [if_neg standard]
        exact reads_of_read read

/-- What reading a source gives is its content. -/
theorem gives_of_given {content : Bytes} (read : given source world = .ok content) :
    Gives world source content := by
  have does := readSource_spec source world
  unfold given at read
  unfold Task.Does at does
  generalize Task.on (readSource source) world = outcome at read does
  obtain ⟨_ | _, after⟩ := outcome <;> cases read
  exact does.2

theorem given_of_succeeds {content : Bytes} {files : FileSystem}
    (reading : Task.Succeeds (readSource source) files content files) (console : Console) :
    given source ⟨files, console⟩ = .ok content := by
  obtain ⟨_, ran⟩ := reading console
  exact congrArg Prod.fst ran

/-- **Decoding a source** changes no file. -/
theorem decodeSource_spec (source : String) (content : Bytes) (preferences : Preferences)
    (world : World) :
    Task.Does (decodeSource source content preferences) world
      (fun decoded after => after.files = world.files ∧
        decode preferences.format content preferences.options = .ok decoded)
      (fun _ after => after.files = world.files) := by
  have performed := Task.does_perform (attempt preferences.format content preferences.options) world
  refine (performed.imp ?_ fun _ _ failed => failed.2).adapt _ fun _ _ same => same
  exact fun decoded after done => ⟨done.2, done.1⟩

/-- A source that can be decoded is decoded. -/
theorem succeeds_decodeSource (source : String) {content : Bytes}
    (decodes : decode preferences.format content preferences.options = .ok decoded)
    (files : FileSystem) :
    Task.Succeeds (decodeSource source content preferences) files decoded files := by
  intro console
  have result : (attempt preferences.format content preferences.options).result = .ok decoded :=
    decodes
  have same := World.files_sayAll ((attempt preferences.format content preferences.options).notes.map
    fun note => (note.level, note.text)) ⟨files, console⟩
  rw [decodeSource, Task.on_adapt, on_perform, result]
  generalize World.sayAll _ ⟨files, console⟩ = world at same ⊢
  subst same
  exact ⟨world.console, rfl⟩

/-- What can be read is no directory. -/
theorem Reads.kindAt_ne_directory {files : FileSystem} {path : String} {content : Bytes}
    {location : Location} {entry : Entry} (reads : Reads files path content location entry) :
    files.kindAt location ≠ some .directory := by
  have kind := FileSystem.kindAt_of_lookup (FileSystem.status_eq_ok_iff.mp reads.status).2
  rcases reads.content with ⟨rfl, -⟩ | ⟨file, rfl, -⟩
  · exact kind.trans_ne nofun
  · exact kind.trans_ne nofun

/-- What can be read is no link. -/
theorem Reads.solid {files : FileSystem} {path : String} {content : Bytes} {location : Location}
    {entry : Entry} (reads : Reads files path content location entry) (text : String) :
    entry ≠ .link text := by
  rcases reads.content with ⟨rfl, -⟩ | ⟨file, rfl, -⟩ <;> exact nofun

/-- What is read is a matter of the entry alone. -/
theorem Reads.content_eq {files later : FileSystem} {first second : String} {content more : Bytes}
    {here there : Location} {entry : Entry} (reads : Reads files first content here entry)
    (others : Reads later second more there entry) : content = more := by
  rcases reads.content with ⟨rfl, rfl⟩ | ⟨file, rfl, rfl⟩ <;>
    rcases others.content with ⟨same, rfl⟩ | ⟨_, same, rfl⟩ <;> cases same <;> rfl

/-! ### Storing -/

/-- The path that a decoded stream is written to, if it is written to a file. -/
def outputPath (source destination : String) (decoded : Decoded) (preferences : Preferences) :
    Option String :=
  if preferences.testMode then none
  else match preferences.outputDirectory with
    | some word => do
      let directory ← word.text?
      let name ← (Naming.outputName decoded).toOption
      return Path.join directory name
    | none => do
      let chosen ← (chosenDestination source destination decoded preferences).toOption
      (Destination.ofName chosen).path?

/-- What the path of an output is resolved for: in an output directory the last link is replaced and
not followed. -/
def outputPurpose (preferences : Preferences) : Purpose :=
  if preferences.outputDirectory.isSome then .naming else .reading

/-- The ways in which an output is stored: not at all, without an output directory or as a test,
through a path to the null device, in a file that was opened, or in an output directory. -/
inductive Stored (decoded : Decoded) (preferences : Preferences)
    (before after : FileSystem) : Option String → Prop where
  | nothing (same : after = before)
    (silent : preferences.testMode = true ∨ preferences.outputDirectory = none) :
    Stored decoded preferences before after none
  | device {path : String} {location : Location} (same : after = before)
    (plain : preferences.outputDirectory = none)
    (allowed : preferences.overwrite = true)
    (status : before.status path = .ok (location, .nullDevice)) :
    Stored decoded preferences before after (some path)
  | opened {path : String} {location : Location} (plain : preferences.outputDirectory = none)
    (allowed : preferences.overwrite = true ∨ before.pathExists path = false)
    (opened : Opened before after path location decoded.data) :
    Stored decoded preferences before after (some path)
  | placed {word : Word} {directory name : String} {location : Location}
    (under : preferences.outputDirectory = some word) (text : word.text? = some directory)
    (named : Naming.outputName decoded = .ok name) (inside : before.isDirectory directory = true)
    (placed : Placed (Path.join directory name) decoded.data before after location) :
    Stored decoded preferences before after (some (Path.join directory name))

/-- Storing an output changes nothing, or a file stands at one location then. Unless it is in an output
directory, it took the place of no link. -/
theorem Stored.same_or_gains {before after : FileSystem} {written : Option String}
    (stores : Stored decoded preferences before after written) :
    after = before ∨ ∃ location, FileSystem.Gains before after location ∧
      before.kindAt location ≠ some .directory ∧
      (preferences.outputDirectory = none → ∀ text, before.kindAt location ≠ some (.link text)) := by
  cases stores with
  | nothing same | device same => exact Or.inl same
  | opened _ _ opened =>
    refine Or.inr ⟨_, opened.writes.gains, opened.kindAt_ne nofun, fun _ text => ?_⟩
    exact opened.kindAt_ne nofun
  | placed under _ _ _ placed =>
    refine Or.inr ⟨_, placed.writes.gains, placed.outside, fun plain => ?_⟩
    cases plain.symm.trans under

/-- **Opening a file for writing** is refused if it may not be replaced. -/
theorem openDestination_spec (path : String) (overwrite : Bool) (world : World) :
    Task.Does (openDestination (.file path) overwrite) world
      (fun place after => (overwrite = true ∨ world.files.pathExists path = false) ∧
        ((place = none ∧ after.files = world.files ∧
            ∃ location, world.files.status path = .ok (location, .nullDevice)) ∨
          ∃ location, place = some location ∧ Opened world.files after.files path location []))
      (fun _ after => after.files = world.files) := by
  unfold openDestination
  refine Task.does_lift_bind ?_
  rw [run_currentFiles]
  by_cases kept : (!overwrite && world.files.pathExists path) = true
  · rw [if_pos kept]
    exact Task.does_lift_bind (World.files_say _ _ _)
  · rw [if_neg kept]
    have allowed : overwrite = true ∨ world.files.pathExists path = false := by
      cases overwrite
      · exact Or.inr (by simpa using kept)
      · exact Or.inl rfl
    cases created : world.files.create path with
    | error errno => exact rfl
    | ok result =>
      obtain ⟨later, place⟩ := result
      simp only
      refine Task.does_lift_bind ?_
      rcases FileSystem.create_spec created with ⟨rfl, rfl, device⟩ | ⟨location, rfl, opened⟩
      · exact ⟨allowed, Or.inl ⟨rfl, rfl, device⟩⟩
      · exact ⟨allowed, Or.inr ⟨location, rfl, opened⟩⟩

/-- **Writing to a destination** fails only if it cannot be opened. -/
theorem writeDestination_spec (target : Destination) (overwrite : Bool) (data : Bytes)
    (world : World) :
    Task.Does (writeDestination target overwrite data) world
      (fun _ after => match target.path? with
        | some path => (overwrite = true ∨ world.files.pathExists path = false) ∧
          ((after.files = world.files ∧
            ∃ location, world.files.status path = .ok (location, .nullDevice)) ∨
          ∃ location, Opened world.files after.files path location data)
        | none => after.files = world.files)
      (fun _ after => after.files = world.files) := by
  unfold writeDestination
  cases target with
  | standardOutput =>
    unfold openDestination
    simp only [Task.Does, Task.on_bind, Task.on_lift, Task.on_pure, run_say, run_emit,
      World.files_emit, World.files_say, Destination.path?]
  | nowhere => exact rfl
  | file path =>
    refine (openDestination_spec path overwrite world).bind (fun _ _ same => same) ?_
    rintro place after ⟨allowed, ⟨rfl, same, device⟩ | ⟨location, rfl, opened⟩⟩
    · exact ⟨allowed, Or.inl ⟨same, device⟩⟩
    · refine Task.does_lift_bind ?_
      rw [run_currentFiles]
      exact ⟨allowed, Or.inr ⟨location, opened.append data⟩⟩

/-- **Writing into a directory** that a word names. -/
theorem persistAt_spec (word : Word) (name : String) (data : Bytes) (world : World) :
    Task.Does (persistAt word name data) world
      (fun path after => ∃ directory location, word.text? = some directory ∧
        world.files.isDirectory directory = true ∧ path = Path.join directory name ∧
        Placed path data world.files after.files location)
      (fun _ after => after.files = world.files) := by
  unfold persistAt
  cases text : word.text? with
  | none => exact Task.does_lift_bind rfl
  | some directory =>
    refine (persist_spec directory name data world).imp ?_ fun _ _ same => same
    rintro path after ⟨rfl, inside, location, placed⟩
    exact ⟨directory, location, rfl, inside, rfl, placed⟩

/-- **Storing an output**: what fails leaves all files alone. -/
theorem store_spec (source destination : String) (decoded : Decoded) (preferences : Preferences)
    (world : World) :
    Task.Does (store source destination decoded preferences) world
      (fun written after => written = outputPath source destination decoded preferences ∧
        Stored decoded preferences world.files after.files written)
      (fun _ after => after.files = world.files) := by
  unfold store outputPath
  cases testMode : preferences.testMode with
  | true => exact ⟨rfl, .nothing rfl (Or.inl testMode)⟩
  | false =>
    cases under : preferences.outputDirectory with
    | some word =>
      refine Task.Does.adapt (?_ : Task.Does _ world _ fun _ after =>
        after.files = world.files) _ fun _ _ same => same
      refine (Task.does_ofExcept_self (Naming.outputName decoded) world).bind
        (fun _ _ failed => congrArg World.files failed.2) ?_
      rintro name after ⟨named, rfl⟩
      refine (persistAt_spec word name decoded.data after).bind (fun _ _ same => same) ?_
      rintro _ last ⟨directory, location, text, inside, rfl, placed⟩
      refine ⟨?_, .placed under text named inside placed⟩
      simp only [text, named]
      rfl
    | none =>
      have choosing := Task.does_ofExcept_self
        (chosenDestination source destination decoded preferences) world
      refine Task.Does.bind (choosing.adapt (Failure.about source)
        (fun _ _ failed => failed.2 : ∀ _ after, _ → after = world))
        (fun _ _ same => congrArg World.files same) ?_
      rintro chosen after ⟨isChosen, rfl⟩
      have path : (do
          let chosen ← (chosenDestination source destination decoded preferences).toOption
          (Destination.ofName chosen).path?) = (Destination.ofName chosen).path? := by
        rw [isChosen]
        rfl
      by_cases own : (!isStandardInput source && Path.same chosen source) = true
      · rw [if_pos own]
        exact rfl
      · rw [if_neg own]
        refine (writeDestination_spec (Destination.ofName chosen) preferences.overwrite decoded.data
          after).bind (fun _ _ same => same) ?_
        intro _ last written
        refine ⟨path.symm, ?_⟩
        cases file : (Destination.ofName chosen).path? with
        | none =>
          rw [file] at written
          exact .nothing written (Or.inr under)
        | some path =>
          rw [file] at written
          obtain ⟨allowed, ⟨same, location, device⟩ | ⟨location, opened⟩⟩ := written
          · refine .device same under (allowed.resolve_right ?_) device
            intro absent
            rw [FileSystem.pathExists, device] at absent
            cases absent
          · exact .opened under allowed opened

/-! ### After storing -/

/-- **Copying a time and a mode** changes no content, and nothing but what the path leads to. It leaves
the same files whatever the console is. -/
theorem copyStatus_spec (source path : String) (decoded : Decoded) (preferences : Preferences)
    (files : FileSystem) :
    ∃ dressed, (SameContents files dressed ∧
        ∀ location, dressed.lookup location ≠ files.lookup location →
          files.resolve path .reading = .ok (.entry location)) ∧
      ∀ console, ∃ shown,
        (copyStatus source path decoded preferences).run ⟨files, console⟩ = ((), ⟨dressed, shown⟩) := by
  have nothing : SameContents files files ∧ ∀ location, files.lookup location ≠ files.lookup location →
      files.resolve path .reading = .ok (.entry location) :=
    ⟨.refl _, fun _ changed => absurd rfl changed⟩
  unfold copyStatus
  simp only [run_currentFiles_bind]
  split
  · exact ⟨files, nothing, fun console => ⟨console, rfl⟩⟩
  · split
    · split
      · next changed set =>
        exact ⟨changed, FileSystem.setStatus_spec set, fun console => ⟨console, rfl⟩⟩
      · exact ⟨files, nothing, run_say_files _ _ _⟩
    · exact ⟨files, nothing, fun console => ⟨console, rfl⟩⟩

/-- **Removing a source** removes what it names, or fails and changes no file. -/
theorem removeSource_spec (source : String) (world : World) :
    Task.Does (removeSource source) world
      (fun _ after => ∃ gone, Removed world.files after.files source gone)
      (fun _ after => after.files = world.files) := by
  unfold removeSource
  refine Task.does_lift_bind ?_
  rw [run_currentFiles]
  cases removed : world.files.remove source with
  | error errno => exact rfl
  | ok files => exact FileSystem.remove_spec removed

/-! ### Jobs up to the removal of their sources -/

/-- Whether a job removes its source at the end. -/
def removes (preferences : Preferences) (source : String) : Bool :=
  preferences.removeSource && !preferences.testMode && !isStandardInput source

/-- Standard input is never removed. -/
theorem standard_eq_false (removing : removes preferences source = true) :
    isStandardInput source = false := by
  simp only [removes, Bool.and_eq_true, Bool.not_eq_true'] at removing
  exact removing.2

/-- A job up to the removal of its source. -/
def process (source destination : String) (preferences : Preferences) : Task IoError Report := do
  let content ← readSource source
  let decoded ← decodeSource source content preferences
  let written ← store source destination decoded preferences
  if let some path := written then copyStatus source path decoded preferences
  return ⟨decoded.format, content.length, decoded.data.length, written⟩

/-- The end of a job: its source is removed, if that was asked for, and its line is shown. -/
def conclude (source : String) (preferences : Preferences) (report : Report) :
    Task IoError Report := do
  if preferences.removeSource && !preferences.testMode && !isStandardInput source then
    removeSource source
  say 2 (finishedLine source preferences.testMode report.size)
  return report

/-- **A job is processed and concluded.** -/
theorem decompressFile_eq (source destination : String) (preferences : Preferences) :
    decompressFile source destination preferences =
      process source destination preferences >>= conclude source preferences := by
  unfold decompressFile process conclude
  simp only [bind_assoc]
  refine bind_congr fun content => bind_congr fun decoded => bind_congr fun written => ?_
  cases written <;> simp only [bind_assoc, pure_bind]

/-- **What the end of a job does.** -/
theorem conclude_spec (source : String) (preferences : Preferences) (report : Report)
    (world : World) :
    Task.Does (conclude source preferences report) world
      (fun result after => result = report ∧
        if removes preferences source then ∃ gone, Removed world.files after.files source gone
        else after.files = world.files)
      (fun _ after => after.files = world.files) := by
  unfold conclude removes
  by_cases removing : (preferences.removeSource && !preferences.testMode &&
    !isStandardInput source) = true
  · simp only [if_pos removing]
    refine (removeSource_spec source world).bind (fun _ _ same => same) ?_
    intro _ after removed
    refine Task.does_lift_bind ?_
    rw [run_say]
    refine ⟨rfl, ?_⟩
    rw [World.files_say]
    exact removed
  · simp only [if_neg removing]
    refine Task.does_lift_bind ?_
    rw [run_say]
    exact ⟨rfl, World.files_say _ _ _⟩

/-- A job is concluded if its source can be removed or need not be. -/
theorem exists_conclude (report : Report) (world : World)
    (can : removes preferences source = true → ∃ later, world.files.remove source = .ok later) :
    ∃ after, Task.on (conclude source preferences report) world = (.ok report, after) := by
  unfold conclude
  unfold removes at can
  by_cases removing : (preferences.removeSource && !preferences.testMode &&
    !isStandardInput source) = true
  · obtain ⟨later, removed⟩ := can removing
    simp only [if_pos removing, removeSource, Task.on_bind, Task.on_lift, run_currentFiles, removed,
      run_setFiles, run_say, Task.on_pure]
    exact ⟨_, rfl⟩
  · simp only [if_neg removing, Task.on_bind, Task.on_lift, run_say, Task.on_pure]
    exact ⟨_, rfl⟩

/-! ### Jobs that succeed -/

/-- A regular file that may be read is what its source gives. -/
theorem succeeds_readSource {files : FileSystem} {location : Location} {file : RegularFile}
    (named : isStandardInput source = false)
    (status : files.status source = .ok (location, .file file)) (readable : file.isReadable = true) :
    Task.Succeeds (readSource source) files file.content files := by
  have noDirectory : files.isDirectory source = false := by
    rw [FileSystem.isDirectory, FileSystem.directory?, status]
    rfl
  have read : files.read source = .ok file.content := by
    rw [FileSystem.read, status]
    exact if_pos readable
  intro console
  unfold readSource
  rw [named]
  simp only [Bool.false_eq_true, if_false, Task.on_bind, Task.on_lift, run_currentFiles, noDirectory,
    read, Task.on_pure]
  exact ⟨console, rfl⟩

/-- A source that names a file is removed. -/
theorem succeeds_removeSource {files : FileSystem} {location : Location} {file : RegularFile}
    (names : files.resolve source .naming = .ok (.entry location))
    (found : files.lookup location = some (.file file)) :
    Task.Succeeds (removeSource source) files () (files.erase location) := by
  have removed : files.remove source = .ok (files.erase location) := by
    have noDirectory : files.isDirectoryAt location = false := by
      rw [FileSystem.isDirectoryAt, found]
      rfl
    rw [FileSystem.remove, names]
    simp only [bind, Except.bind, noDirectory, Bool.false_eq_true, if_false]
  intro console
  unfold removeSource
  simp only [Task.on_bind, Task.on_lift, run_currentFiles, removed, run_setFiles]
  exact ⟨console, rfl⟩

/-- The end of a job succeeds if its source can be removed or need not be. -/
theorem succeeds_conclude {dressed last : FileSystem}
    (ending : if removes preferences source then
        Task.Succeeds (removeSource source) dressed () last else last = dressed) (report : Report) :
    Task.Succeeds (conclude source preferences report) dressed report last := by
  unfold conclude
  unfold removes at ending
  by_cases removing : (preferences.removeSource && !preferences.testMode &&
    !isStandardInput source) = true
  · rw [if_pos removing] at ending
    simp only [if_pos removing]
    exact ending.bind ((Task.succeeds_say _ _ _).bind (Task.succeeds_pure _ _))
  · rw [if_neg removing] at ending
    subst ending
    simp only [if_neg removing]
    exact (Task.succeeds_say _ _ _).bind (Task.succeeds_pure _ _)

/-- **A job succeeds** if all its parts do. -/
theorem succeeds_decompressFile {content : Bytes} {path : String}
    {files stored dressed last : FileSystem}
    (reading : Task.Succeeds (readSource source) files content files)
    (decodes : decode preferences.format content preferences.options = .ok decoded)
    (storing : Task.Succeeds (store source destination decoded preferences) files (some path) stored)
    (dressing : ∀ console, ∃ shown,
      (copyStatus source path decoded preferences).run ⟨stored, console⟩ = ((), ⟨dressed, shown⟩))
    (ending : if removes preferences source then
        Task.Succeeds (removeSource source) dressed () last else last = dressed) :
    Task.Succeeds (decompressFile source destination preferences) files
      ⟨decoded.format, content.length, decoded.data.length, some path⟩ last := by
  have processing : Task.Succeeds (process source destination preferences) files
      ⟨decoded.format, content.length, decoded.data.length, some path⟩ dressed :=
    reading.bind ((succeeds_decodeSource source decodes files).bind
      (storing.bind ((Task.succeeds_lift dressing).bind (Task.succeeds_pure _ _))))
  rw [decompressFile_eq]
  exact processing.bind (succeeds_conclude ending _)

/-- A job that stores no file has nothing to give a time and a mode to. -/
theorem succeeds_unreported {content : Bytes} {files stored last : FileSystem}
    (reading : Task.Succeeds (readSource source) files content files)
    (decodes : decode preferences.format content preferences.options = .ok decoded)
    (storing : Task.Succeeds (store source destination decoded preferences) files none stored)
    (ending : if removes preferences source then
        Task.Succeeds (removeSource source) stored () last else last = stored) :
    Task.Succeeds (decompressFile source destination preferences) files
      ⟨decoded.format, content.length, decoded.data.length, none⟩ last := by
  have processing : Task.Succeeds (process source destination preferences) files
      ⟨decoded.format, content.length, decoded.data.length, none⟩ stored :=
    reading.bind ((succeeds_decodeSource source decodes files).bind
      (storing.bind (Task.succeeds_pure _ _)))
  rw [decompressFile_eq]
  exact processing.bind (succeeds_conclude ending _)

/-- **A job replaces** what has the name of its output in an output directory, whether or not files may
be replaced elsewhere. -/
theorem succeeds_replacing {content : Bytes} {files : FileSystem} {location : Location} {word : Word}
    {directory name : String} (reading : Task.Succeeds (readSource source) files content files)
    (decodes : decode preferences.format content preferences.options = .ok decoded)
    (writes : preferences.testMode = false) (keeps : removes preferences source = false)
    (under : preferences.outputDirectory = some word) (text : word.text? = some directory)
    (named : Naming.outputName decoded = .ok name)
    (accepts : Persistence.Call.Accepts ⟨directory, name, [decoded.data]⟩ files location) :
    ∃ report later, later.contentAt location = some decoded.data ∧
      Task.Succeeds (decompressFile source destination preferences) files report later := by
  have persisting := succeeds_persist accepts
  have held := (FileSystem.writes_withFile accepts.outside FileSystem.newFileMode decoded.data).held
  generalize files.withFile location FileSystem.newFileMode decoded.data = stored at persisting held
  have storing : Task.Succeeds (store source destination decoded preferences) files
      (some (Path.join directory name)) stored := by
    have writing : Task.Succeeds (do
        let name ← MonadExcept.ofExcept (Naming.outputName decoded)
        return some (← persistAt word name decoded.data)) files (some (Path.join directory name))
        stored := by
      unfold persistAt
      rw [named]
      simp only [text]
      exact (Task.succeeds_pure _ _).bind (persisting.bind (Task.succeeds_pure _ _))
    unfold store
    rw [writes, under]
    exact writing.adapt _
  obtain ⟨dressed, ⟨same, -⟩, dressing⟩ :=
    copyStatus_spec source (Path.join directory name) decoded preferences stored
  refine ⟨_, dressed, (same.content location).trans held,
    succeeds_decompressFile reading decodes storing dressing ?_⟩
  rw [if_neg (Bool.eq_false_iff.mp keeps)]

/-! ### Whole jobs -/

/-- What a job has done before its source is removed: what was read and decoded, and the files after
the output was stored and after its time and mode were set. -/
structure Processed (source destination : String) (preferences : Preferences) (world : World)
    (report : Report) (content : Bytes) (decoded : Decoded) (stored dressed : FileSystem) : Prop where
  read : given source world = .ok content
  decodes : decode preferences.format content preferences.options = .ok decoded
  reports : report.written = outputPath source destination decoded preferences
  stores : Stored decoded preferences world.files stored report.written
  dresses : SameContents stored dressed
  elsewhere : ∀ location, dressed.lookup location ≠ stored.lookup location →
    ∃ path, report.written = some path ∧ stored.resolve path .reading = .ok (.entry location)

theorem Processed.gives {report : Report} {content : Bytes} {stored dressed : FileSystem}
    (processed :
      Processed source destination preferences world report content decoded stored dressed) :
    Gives world source content :=
  gives_of_given processed.read

/-- A source that is no standard input was read. -/
theorem Processed.exists_reads {report : Report} {content : Bytes} {stored dressed : FileSystem}
    (processed :
      Processed source destination preferences world report content decoded stored dressed)
    (named : isStandardInput source = false) :
    ∃ location entry, Reads world.files source content location entry := by
  have gives := processed.gives
  rwa [Gives, named] at gives

/-- **What a job does before its source is removed**: what fails leaves all files alone. -/
theorem process_spec (source destination : String) (preferences : Preferences) (world : World) :
    Task.Does (process source destination preferences) world
      (fun report after => ∃ content decoded stored,
        Processed source destination preferences world report content decoded stored after.files)
      (fun _ after => after.files = world.files) := by
  unfold process
  refine (readSource_spec source world).with_on.bind (fun _ _ same => same.2) ?_
  rintro content read ⟨on, sameRead, -⟩
  have given : given source world = .ok content := congrArg Prod.fst on
  refine (decodeSource_spec source content preferences read).bind
    (fun _ _ same => same.trans sameRead) ?_
  rintro decoded opened ⟨sameOpened, decodes⟩
  have same : opened.files = world.files := sameOpened.trans sameRead
  refine (store_spec source destination decoded preferences opened).bind
    (fun _ _ unchanged => unchanged.trans same) ?_
  rintro written stored ⟨reports, stores⟩
  rw [same] at stores
  cases written with
  | none =>
    exact ⟨content, decoded, stored.files, given, decodes, reports, stores, .refl _,
      fun _ changed => absurd rfl changed⟩
  | some path =>
    obtain ⟨dressed, ⟨dresses, elsewhere⟩, runs⟩ :=
      copyStatus_spec source path decoded preferences stored.files
    obtain ⟨shown, run⟩ := runs stored.console
    refine Task.does_lift_bind ?_
    rw [run]
    exact ⟨content, decoded, stored.files, given, decodes, reports, stores, dresses,
      fun location changed => ⟨path, rfl, elsewhere location changed⟩⟩

/-- The course of a job that succeeded: what it did before its source was removed, and its end. -/
structure Course (source destination : String) (preferences : Preferences) (world after : World)
    (report : Report) (content : Bytes) (decoded : Decoded) (stored dressed : FileSystem) : Prop
    extends
      Processed source destination preferences world report content decoded stored dressed where
  ends : if removes preferences source then ∃ gone, Removed dressed after.files source gone
    else after.files = dressed

/-- The course of a job that failed: its output was stored, if at all, but its source could not be
removed. -/
inductive Broken (source destination : String) (preferences : Preferences) (world after : World) :
    Prop where
  | early (same : after.files = world.files)
  | late {report : Report} {content : Bytes} {decoded : Decoded} {stored : FileSystem}
    (processed :
      Processed source destination preferences world report content decoded stored after.files)

/-- **What a job does.** -/
theorem decompressFile_spec (source destination : String) (preferences : Preferences)
    (world : World) :
    Task.Does (decompressFile source destination preferences) world
      (fun report after => ∃ content decoded stored dressed,
        Course source destination preferences world after report content decoded stored dressed)
      (fun _ after => Broken source destination preferences world after) := by
  rw [decompressFile_eq]
  refine (process_spec source destination preferences world).bind (fun _ _ same => .early same) ?_
  rintro report kept ⟨content, decoded, stored, processed⟩
  refine (conclude_spec source preferences report kept).imp ?_ fun _ after same => ?_
  · rintro _ after ⟨rfl, ends⟩
    exact ⟨content, decoded, stored, kept.files, processed, ends⟩
  · exact .late (same ▸ processed)

end Inflate
