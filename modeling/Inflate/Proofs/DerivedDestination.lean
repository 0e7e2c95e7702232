/-
**Destinations that nobody named.**

A source without a destination is decompressed into a file of its own name without the suffix, and a stored
name may take the place of any file. Such a name is a text like one that was asked for, and two texts do not
stand for files. A source whose name without its suffix is one of them, or a stored name that is, has its
output sent to standard output or kept nowhere, and the source is removed all the same if that was asked
for. Every other output stands in the file of that name.

* `Unnamed`: a destination that nobody named;
* `Mistaken`: a name that is taken for standard output or nowhere;
* `decompressFile_emits`: what a job adds to standard output;
* `Outcome`: what becomes of an output;
* `unnamed_outcome`: every output whose destination nobody named;
* `unnamed_lost`: an output that goes to standard output, and a source that is gone.
-/

import Inflate.Program
import Inflate.Proofs.Confinement
import Inflate.Proofs.WrittenFile

namespace Inflate

open FileSystem (SameContents Removed)

/-! ### Names -/

namespace Naming

/-- The suffixes that nothing takes the place of. -/
def bareSuffixes : List String := [".zlib", ".zz", ".gz", ".z"]

/-- The name of a source without its suffix, and what was there and takes its place. -/
theorem exists_stem {path name : String} (derived : derivedName path = some name) :
    ∃ entry ∈ suffixes, ∃ stem, path = stem ++ entry.1 ∧ name = stem ++ entry.2 := by
  obtain ⟨entry, among, found⟩ := List.exists_of_findSome?_eq_some derived
  unfold derivedWith stripSuffix? at found
  by_cases ends : entry.1.toList <:+ path.toList
  · rw [if_pos (List.isSuffixOf_iff_suffix.mpr ends)] at found
    simp only at found
    split at found
    · cases found
    · cases found
      refine ⟨entry, among, _, ?_, rfl⟩
      apply String.toList_inj.mp
      obtain ⟨front, whole⟩ := ends
      rw [String.toList_append, String.toList_ofList, ← whole, List.length_append,
        Nat.add_sub_cancel, List.take_left]
  · rw [if_neg fun found => ends (List.isSuffixOf_iff_suffix.mp found)] at found
    cases found

/-- A name that does not end in `r` is left by a suffix that nothing takes the place of. -/
theorem exists_bareSuffix {path name : String} (derived : derivedName path = some name)
    (other : name.toList.getLast? ≠ some 'r') : ∃ suffix ∈ bareSuffixes, path = name ++ suffix := by
  obtain ⟨entry, among, stem, rfl, rfl⟩ := exists_stem derived
  simp only [suffixes, List.mem_cons, List.not_mem_nil, or_false] at among
  rcases among with rfl | rfl | rfl | rfl | rfl
  · exact ⟨".zlib", by decide, by simp⟩
  · simp at other
  · exact ⟨".zz", by decide, by simp⟩
  · exact ⟨".gz", by decide, by simp⟩
  · exact ⟨".z", by decide, by simp⟩

end Naming

variable {source destination path : String} {content : Bytes} {decoded : Decoded}
  {preferences : Preferences} {world after : World} {report : Report}

/-- The path of a stored name is that of its last part beside the source. -/
theorem exists_stored (named : isStandardInput source = false)
    (found : storedDestination source decoded = .ok (some path)) :
    ∃ stored own, decoded.storedName = some stored ∧ Naming.safeName stored = .ok own ∧
      path = Path.join (Path.parent source) own := by
  unfold storedDestination at found
  split at found
  · next stored holds =>
    rw [storedNameDirectory, if_neg (Bool.eq_false_iff.mp named)] at found
    cases safe : Naming.safeName stored with
    | error failure =>
      rw [safe] at found
      cases found
    | ok own =>
      rw [safe] at found
      cases found
      exact ⟨stored, own, holds, safe, rfl⟩
  · cases found

/-- A name under a directory is longer than the name, unless there is no directory. -/
theorem Path.eq_empty_of_join {directory name : String} (proper : Path.Proper name)
    (same : Path.join directory name = name) : directory = "" := by
  unfold Path.join at same
  rw [if_neg (Bool.eq_false_iff.mp proper.isAbsolute_eq_false)] at same
  have sizes := congrArg String.length same
  apply String.length_eq_zero_iff.mp
  split at sizes
  · rw [String.length_append] at sizes
    omega
  · rw [String.length_append, String.length_append] at sizes
    omega

/-- A name that is taken for standard output or nowhere, by where it comes from: the name of the source
without its suffix, or a stored name beside the source. -/
inductive Mistaken (source : String) (preferences : Preferences) (decoded : Decoded) : String → Prop where
  | derived {name suffix : String} (special : name = standardOutputName ∨ name = nowhereName)
    (bare : suffix ∈ Naming.bareSuffixes) (same : source = name ++ suffix) :
    Mistaken source preferences decoded name
  | storedOutput {stored : String} (asked : preferences.useStoredName = true)
    (holds : decoded.storedName = some stored) (last : Naming.lastName stored = "stdout")
    (here : Path.parent source = "") : Mistaken source preferences decoded standardOutputName
  | storedNowhere {stored : String} (asked : preferences.useStoredName = true)
    (holds : decoded.storedName = some stored) (last : Naming.lastName stored = "null")
    (absolute : Path.isAbsolute source = true) (devices : (Path.parts source).dropLast = ["dev"]) :
    Mistaken source preferences decoded nowhereName

/-- A stored name that is taken for standard output is the name of it, beside a source in the working
directory. -/
theorem mistaken_output (named : isStandardInput source = false)
    (asked : preferences.useStoredName = true)
    (found : storedDestination source decoded = .ok (some standardOutputName)) :
    Mistaken source preferences decoded standardOutputName := by
  obtain ⟨stored, own, holds, safe, joined⟩ := exists_stored named found
  have proper := Naming.proper_of_safeName safe
  have parts := Path.parts_join proper (Path.parent source)
  rw [← joined, show Path.parts standardOutputName = [] ++ ["stdout"] by decide] at parts
  obtain ⟨-, last⟩ := List.append_inj' parts rfl
  obtain rfl : "stdout" = own := (List.cons.inj last).1
  exact .storedOutput asked holds (Naming.safeName_eq_ok_iff.mp safe).1.symm
    (Path.eq_empty_of_join proper joined.symm)

/-- A stored name that is taken for nowhere is the last part of it, beside a source among the devices. -/
theorem mistaken_nowhere (named : isStandardInput source = false)
    (asked : preferences.useStoredName = true)
    (found : storedDestination source decoded = .ok (some nowhereName)) :
    Mistaken source preferences decoded nowhereName := by
  obtain ⟨stored, own, holds, safe, joined⟩ := exists_stored named found
  have proper := Naming.proper_of_safeName safe
  have parts := Path.parts_join proper (Path.parent source)
  rw [← joined, show Path.parts nowhereName = ["dev"] ++ ["null"] by decide] at parts
  obtain ⟨front, last⟩ := List.append_inj' parts rfl
  obtain rfl : "null" = own := (List.cons.inj last).1
  have some : Path.parent source ≠ "" := by
    intro empty
    rw [empty] at front
    exact absurd front (by decide)
  have devices : (Path.parts source).dropLast = ["dev"] := by rw [← Path.parts_parent, front]
  have several : Path.parts source ≠ [] := by
    intro none
    rw [none] at devices
    cases devices
  have absolute : Path.isAbsolute source = true := by
    rw [← Path.isAbsolute_parent several, ← Path.isAbsolute_join proper some, ← joined]
    decide
  exact .storedNowhere asked holds (Naming.safeName_eq_ok_iff.mp safe).1.symm absolute devices

/-- A name that stands for no file is taken for what it stands for. -/
theorem mistaken_of_origin (named : isStandardInput source = false)
    (origin : Naming.derivedName source = some path ∨ preferences.useStoredName = true ∧
      storedDestination source decoded = .ok (some path))
    (special : path = standardOutputName ∨ path = nowhereName) :
    Mistaken source preferences decoded path := by
  rcases origin with derived | ⟨asked, found⟩
  · have other : path.toList.getLast? ≠ some 'r' := by
      rcases special with rfl | rfl <;> decide
    obtain ⟨suffix, bare, same⟩ := Naming.exists_bareSuffix derived other
    exact .derived special bare same
  · rcases special with rfl | rfl
    · exact mistaken_output named asked found
    · exact mistaken_nowhere named asked found

/-! ### Destinations that nobody named -/

/-- Nobody named where the output goes: the destination comes from the name of the source, in a batch or
for a single input, or a stored name takes the place of a file. -/
inductive Unnamed (source destination : String) (preferences : Preferences) (decoded : Decoded) :
    Prop where
  | inBatch (derives : Batch.destination? none preferences source = some destination)
  | alone {command : CommandLine.Command} {before told : World}
    (nobody : Program.namedOutput command = none) (same : command.preferences = preferences)
    (derives : Task.on (Program.chosenOutput command source) before = (.ok destination, told))
  | stored (asked : preferences.useStoredName = true)
    (regular : Destination.ofName destination = .file destination)
    (holds : decoded.storedName ≠ none)

/-- What is chosen is what was there, or a stored name that takes the place of a file. -/
theorem chosen_cases (isChosen : chosenDestination source destination decoded preferences = .ok path) :
    path = destination ∨ preferences.useStoredName = true ∧
      storedDestination source decoded = .ok (some path) := by
  unfold chosenDestination at isChosen
  split at isChosen
  · by_cases asked : preferences.useStoredName = true
    · rw [if_pos asked] at isChosen
      cases found : storedDestination source decoded with
      | error failure =>
        rw [found] at isChosen
        cases isChosen
      | ok name =>
        rw [found] at isChosen
        cases isChosen
        cases name with
        | none => exact Or.inl rfl
        | some name => exact Or.inr ⟨asked, rfl⟩
    · rw [if_neg asked] at isChosen
      cases isChosen
      exact Or.inl rfl
  · cases isChosen
    exact Or.inl rfl

/-- **Where a destination comes from** that nobody named. -/
theorem Unnamed.origin (unnamed : Unnamed source destination preferences decoded)
    (named : isStandardInput source = false) (tests : preferences.testMode = false)
    (plain : preferences.outputDirectory = none)
    (isChosen : chosenDestination source destination decoded preferences = .ok path) :
    Naming.derivedName source = some path ∨
      preferences.useStoredName = true ∧ storedDestination source decoded = .ok (some path) := by
  have own : Naming.derivedName source = some destination → Naming.derivedName source = some path ∨
      preferences.useStoredName = true ∧ storedDestination source decoded = .ok (some path) := by
    intro derived
    rcases chosen_cases isChosen with rfl | stored
    · exact Or.inl derived
    · exact Or.inr stored
  cases unnamed with
  | inBatch derives =>
    rw [Batch.destination?, tests, plain] at derives
    exact own derives
  | alone nobody same derives =>
    have notInput : source ≠ standardInputName := by
      rintro rfl
      exact absurd named (by decide)
    subst same
    apply own
    unfold Program.chosenOutput at derives
    rw [nobody] at derives
    simp only [plain, Option.isSome_none, Bool.false_eq_true, if_false, if_neg notInput] at derives
    cases derived : Naming.derivedName source with
    | none =>
      rw [derived] at derives
      cases congrArg Prod.fst derives
    | some name =>
      rw [derived] at derives
      cases congrArg Prod.fst derives
      rfl
  | stored asked regular holds =>
    unfold chosenDestination at isChosen
    rw [regular] at isChosen
    simp only [if_pos asked] at isChosen
    obtain ⟨stored, isStored⟩ := Option.ne_none_iff_exists'.mp holds
    cases found : storedDestination source decoded with
    | error failure =>
      rw [found] at isChosen
      cases isChosen
    | ok name =>
      rw [found] at isChosen
      cases isChosen
      cases name with
      | some name => exact Or.inr ⟨asked, rfl⟩
      | none =>
        simp only [storedDestination, isStored] at found
        cases safe : Naming.safeName stored with
        | error failure =>
          rw [safe] at found
          cases found
        | ok own =>
          rw [safe] at found
          cases found

/-! ### Standard output -/

/-- What an output adds to standard output, by the name of its destination. -/
def emitted (chosen : String) (data : Bytes) : Bytes :=
  if chosen = standardOutputName then data else []

theorem writeDestination_emits (chosen : String) (overwrite : Bool) (data : Bytes) (world : World) :
    Task.Does (writeDestination (Destination.ofName chosen) overwrite data) world
      (fun _ after => after.console.output = world.console.output ++ emitted chosen data)
      (fun _ _ => True) := by
  unfold writeDestination emitted
  refine ((keeps_openDestination output_plain (Destination.ofName chosen) overwrite).does world).bind
    (fun _ _ _ => trivial) ?_
  intro place opened same
  unfold Destination.ofName
  by_cases toOutput : chosen = standardOutputName
  · rw [if_pos toOutput, if_pos toOutput, ← same]
    exact rfl
  rw [if_neg toOutput, if_neg toOutput, List.append_nil]
  by_cases toNowhere : chosen = nowhereName
  · rw [if_pos toNowhere]
    cases place <;> exact same
  · rw [if_neg toNowhere]
    cases place <;> exact same

theorem store_emits (tests : preferences.testMode = false)
    (plain : preferences.outputDirectory = none) (decoded : Decoded) (world : World) :
    Task.Does (store source destination decoded preferences) world
      (fun _ after => ∃ chosen,
        chosenDestination source destination decoded preferences = .ok chosen ∧
          after.console.output = world.console.output ++ emitted chosen decoded.data)
      (fun _ _ => True) := by
  have choosing : Task.Does (ExceptT.adapt (Failure.about source) (MonadExcept.ofExcept
      (chosenDestination source destination decoded preferences) : Task Failure String)) world
      (fun chosen after => chosenDestination source destination decoded preferences = .ok chosen ∧
        after = world) (fun _ _ => True) :=
    (Task.does_ofExcept_self _ world).adapt _ fun _ _ _ => trivial
  unfold store
  rw [tests, plain]
  refine choosing.bind (fun _ _ _ => trivial) ?_
  rintro chosen after ⟨isChosen, rfl⟩
  by_cases own : (!isStandardInput source && Path.same chosen source) = true
  · rw [if_pos own]
    exact trivial
  · rw [if_neg own]
    refine (writeDestination_emits chosen preferences.overwrite decoded.data after).bind
      (fun _ _ _ => trivial) ?_
    exact fun _ _ same => ⟨chosen, isChosen, same⟩

theorem process_emits (tests : preferences.testMode = false)
    (plain : preferences.outputDirectory = none) (read : given source world = .ok content)
    (decodes : decode preferences.format content preferences.options = .ok decoded) :
    Task.Does (process source destination preferences) world
      (fun _ after => ∃ chosen,
        chosenDestination source destination decoded preferences = .ok chosen ∧
          after.console.output = world.console.output ++ emitted chosen decoded.data)
      (fun _ _ => True) := by
  have reads : Task.Keeps Console.output (readSource source) :=
    keeps_readSource output_plain fun _ _ => rfl
  unfold process
  refine ((reads.does world).with_on).bind (fun _ _ _ => trivial) ?_
  rintro other opened ⟨ran, sameOpened⟩
  obtain rfl : other = content :=
    Except.ok.inj ((congrArg Prod.fst ran).symm.trans read)
  refine ((keeps_decodeSource output_plain other).with_does
    (decodeSource_spec source other preferences opened)).bind (fun _ _ _ => trivial) ?_
  rintro result kept ⟨⟨-, also⟩, sameKept⟩
  obtain rfl : result = decoded := Except.ok.inj (also.symm.trans decodes)
  refine (store_emits tests plain result kept).bind (fun _ _ _ => trivial) ?_
  rintro written stored ⟨chosen, isChosen, added⟩
  have added := added.trans (congrArg (· ++ emitted chosen result.data) (sameKept.trans sameOpened))
  cases written with
  | none => exact ⟨chosen, isChosen, added⟩
  | some path =>
    refine ((keeps_copyStatus output_plain path result).does stored).bind
      (fun _ _ _ => trivial) ?_
    exact fun _ last same => ⟨chosen, isChosen, same.trans added⟩

/-- **What a job adds to standard output**: its output, if that is where it goes. -/
theorem decompressFile_emits (tests : preferences.testMode = false)
    (plain : preferences.outputDirectory = none) (read : given source world = .ok content)
    (decodes : decode preferences.format content preferences.options = .ok decoded) :
    Task.Does (decompressFile source destination preferences) world
      (fun _ after => ∃ chosen,
        chosenDestination source destination decoded preferences = .ok chosen ∧
          after.console.output = world.console.output ++ emitted chosen decoded.data)
      (fun _ _ => True) := by
  rw [decompressFile_eq]
  refine (process_emits tests plain read decodes).bind (fun _ _ _ => trivial) ?_
  rintro report kept ⟨chosen, isChosen, added⟩
  refine ((keeps_conclude output_plain report).does kept).imp ?_ fun _ _ _ => trivial
  exact fun _ _ same => ⟨chosen, isChosen, same.trans added⟩

/-! ### What becomes of an output -/

/-- No file holds anything that it did not hold before, and a source that is to be removed is gone. -/
structure WritesNothing (source : String) (preferences : Preferences) (before after : FileSystem) :
    Prop where
  kept : ∀ location content, after.contentAt location = some content →
    before.contentAt location = some content
  gone : removes preferences source = true → ∃ location,
    before.resolve source .naming = .ok (.entry location) ∧ after.lookup location = none

/-- The path of an output leads to the null device, or to the source that is removed. Files may be
replaced then. -/
structure Endangered (source path : String) (preferences : Preferences) (before : FileSystem) :
    Prop where
  replaces : preferences.overwrite = true
  leads : (∃ location, before.status path = .ok (location, .nullDevice)) ∨
    removes preferences source = true ∧ ∃ location entry other,
      before.status source = .ok (location, entry) ∧ before.status path = .ok (location, other)

/-- What becomes of an output whose destination nobody named. -/
inductive Outcome (source path : String) (preferences : Preferences) (decoded : Decoded)
    (world after : World) (report : Report) : Prop where
  | file (notOutput : path ≠ standardOutputName) (notNowhere : path ≠ nowhereName)
    (reported : report.written = some path)
    (silent : after.console.output = world.console.output)
    (stands : (∃ location file, after.files.regular? path = some (location, file) ∧
        file.content = decoded.data) ∨ Endangered source path preferences world.files)
  | shown (mistaken : Mistaken source preferences decoded path) (toOutput : path = standardOutputName)
    (unreported : report.written = none)
    (shown : after.console.output = world.console.output ++ decoded.data)
    (unwritten : WritesNothing source preferences world.files after.files)
  | dropped (mistaken : Mistaken source preferences decoded path) (toNowhere : path = nowhereName)
    (unreported : report.written = none)
    (silent : after.console.output = world.console.output)
    (unwritten : WritesNothing source preferences world.files after.files)

section Courses

variable {stored dressed : FileSystem}
  (course : Course source destination preferences world after report content decoded stored dressed)

include course

/-- What is reported is the path that was chosen, if that is a file. -/
theorem Course.written_eq (tests : preferences.testMode = false)
    (plain : preferences.outputDirectory = none)
    (isChosen : chosenDestination source destination decoded preferences = .ok path) :
    report.written = (Destination.ofName path).path? := by
  rw [course.reports, outputPath, tests, plain, isChosen]
  rfl

/-- A job that reports no file has written none. -/
theorem Course.writesNothing (unreported : report.written = none) :
    WritesNothing source preferences world.files after.files := by
  have same : SameContents world.files dressed := by
    have stores := course.stores
    have dresses := course.dresses
    rw [unreported] at stores
    cases stores with
    | nothing same => exact same ▸ dresses
  have ends := course.ends
  by_cases removing : removes preferences source = true
  · rw [if_pos removing] at ends
    obtain ⟨gone, removed⟩ := ends
    have named := same.symm.resolve removed.names
    refine ⟨fun location content held => ?_, fun _ => ⟨gone, named, removed.empty⟩⟩
    by_cases there : location = gone
    · rw [there, FileSystem.contentAt, removed.empty] at held
      cases held
    · rw [← same.content, ← FileSystem.contentAt_congr (removed.elsewhere location there), held]
  · rw [if_neg removing] at ends
    refine ⟨fun location content held => ?_, fun removes => absurd removes removing⟩
    rw [← same.content, ← ends, held]

/-- A file that is reported holds the output, unless its path leads astray. -/
theorem Course.holds_or_endangered (plain : preferences.outputDirectory = none)
    (reported : report.written = some path) :
    (∃ location file, after.files.regular? path = some (location, file) ∧
      file.content = decoded.data) ∨ Endangered source path preferences world.files := by
  by_cases replaces : preferences.overwrite = true
  · by_cases leads : (∃ location, world.files.status path = .ok (location, .nullDevice)) ∨
      removes preferences source = true ∧ ∃ location entry other,
        world.files.status source = .ok (location, entry) ∧
          world.files.status path = .ok (location, other)
    · exact Or.inr ⟨replaces, leads⟩
    · obtain ⟨noDevice, noSource⟩ := not_or.mp leads
      refine Or.inl (course.holds reported (Or.inr ⟨?_, ?_, ?_⟩))
      · exact fun _ location status => noDevice ⟨location, status⟩
      · exact fun under => absurd plain under
      · exact fun removing location entry other first second =>
          noSource ⟨removing, location, entry, other, first, second⟩
  · exact Or.inl (course.holds reported (Or.inl ⟨Bool.eq_false_iff.mpr replaces, plain⟩))

end Courses

/-- **Where an output goes whose destination nobody named.** A job that succeeds, with a source that is not
standard input, no test and no output directory:

* reports the path that was chosen, writes nothing to standard output and leaves a regular file with the
  output there, unless the path leads to the null device or to the source that is removed, which takes the
  permission to replace files;
* or takes the path for standard output or for nowhere. Then the name of the source without its suffix, or
  the stored name beside the source, is the text that stands for it. The output is in no file, and the source
  is removed all the same. -/
theorem unnamed_outcome (named : isStandardInput source = false) (tests : preferences.testMode = false)
    (plain : preferences.outputDirectory = none) (read : given source world = .ok content)
    (decodes : decode preferences.format content preferences.options = .ok decoded)
    (unnamed : Unnamed source destination preferences decoded)
    (succeeds : Task.on (decompressFile source destination preferences) world = (.ok report, after)) :
    ∃ path, chosenDestination source destination decoded preferences = .ok path ∧
      Outcome source path preferences decoded world after report := by
  obtain ⟨path, isChosen, added⟩ := (decompressFile_emits tests plain read decodes).of_ok succeeds
  obtain ⟨same, result, stored, dressed, course⟩ :=
    (decompressFile_spec source destination preferences world).of_ok succeeds
  obtain rfl : same = content := Except.ok.inj (course.read.symm.trans read)
  obtain rfl : result = decoded := Except.ok.inj (course.decodes.symm.trans decodes)
  have written := course.written_eq tests plain isChosen
  have mistaken := mistaken_of_origin named (unnamed.origin named tests plain isChosen)
  refine ⟨path, isChosen, ?_⟩
  by_cases toOutput : path = standardOutputName
  · subst toOutput
    exact .shown (mistaken (Or.inl rfl)) rfl written added (course.writesNothing written)
  rw [emitted, if_neg toOutput, List.append_nil] at added
  by_cases toNowhere : path = nowhereName
  · subst toNowhere
    exact .dropped (mistaken (Or.inr rfl)) rfl written added (course.writesNothing written)
  · have reported : report.written = some path := by
      rw [written, Destination.ofName, if_neg toOutput, if_neg toNowhere]
      rfl
    exact .file toOutput toNowhere reported added (course.holds_or_endangered plain reported)

/-! ### Two sources in the working directory -/

/-- The stored byte in a file of the working directory is read, and the file removed. -/
theorem succeeds_letterFile {files : FileSystem} (named : isStandardInput source = false)
    (proper : Path.Proper source) (usable : FileSystem.Usable source)
    (short : source.utf8ByteSize ≤ FileSystem.maxNameSize) (home : files.home = [])
    (found : files.lookup [source] = some (plainFile letterStream)) :
    Task.Succeeds (readSource source) files letterStream files ∧
      Task.Succeeds (removeSource source) files () (files.erase [source]) := by
  have resolves := FileSystem.resolve_here proper usable short home found
  have status := FileSystem.status_eq_ok_iff.mpr ⟨resolves .reading, found⟩
  exact ⟨succeeds_readSource named status (by decide), succeeds_removeSource (resolves .naming) found⟩

/-- Standard output always takes an output. -/
theorem succeeds_store_output (tests : preferences.testMode = false)
    (plain : preferences.outputDirectory = none)
    (isChosen : chosenDestination source destination decoded preferences = .ok standardOutputName)
    (other : Path.same standardOutputName source = false) (files : FileSystem) :
    Task.Succeeds (store source destination decoded preferences) files none files := by
  have choosing : Task.Succeeds (ExceptT.adapt (Failure.about source) (MonadExcept.ofExcept
      (chosenDestination source destination decoded preferences) : Task Failure String)) files
      standardOutputName files := by
    rw [isChosen]
    exact (Task.succeeds_pure files standardOutputName).adapt _
  have own : ¬(!isStandardInput source && Path.same standardOutputName source) = true := by
    rw [other, Bool.and_false]
    nofun
  have opening : Task.Succeeds (openDestination .standardOutput preferences.overwrite) files none
      files := (Task.succeeds_say _ _ _).bind (Task.succeeds_pure _ _)
  have writing : Task.Succeeds (writeDestination .standardOutput preferences.overwrite decoded.data)
      files () files := opening.bind (Task.succeeds_lift fun console => ⟨_, rfl⟩)
  unfold store
  rw [tests, plain]
  refine choosing.bind ?_
  rw [if_neg own]
  exact writing.bind (Task.succeeds_pure _ _)

/-- What a job that removes its source is run with. -/
def removing : Preferences := { removeSource := true }

/-- An output in the file that is named after its source, which is then removed. -/
theorem unnamed_outcome_letter : ∃ after report,
    Batch.destination? none removing "x.zz" = some "x" ∧
    Task.on (decompressFile "x.zz" "x" removing)
        ⟨⟨[(["x.zz"], plainFile letterStream)], [], 0⟩, {}⟩ = (.ok report, after) ∧
      report.written = some "x" ∧ after.console.output = [] ∧
      ∃ location file, after.files.regular? "x" = some (location, file) ∧ file.content = [0x61] := by
  obtain ⟨files, isFiles⟩ : ∃ files : FileSystem,
    files = ⟨[(["x.zz"], plainFile letterStream)], [], 0⟩ := ⟨_, rfl⟩
  obtain ⟨stored, isStored⟩ : ∃ stored : FileSystem,
    stored = ⟨[(["x"], plainFile [0x61]), (["x.zz"], plainFile letterStream)], [], 0⟩ := ⟨_, rfl⟩
  have proper : Path.Proper "x.zz" := Path.fileName?_eq_self_iff.mp (by decide +kernel)
  have usable : FileSystem.Usable "x.zz" := ⟨by decide, by decide, by decide⟩
  obtain ⟨reading, -⟩ := succeeds_letterFile (by decide) proper usable (by decide)
    (show files.home = [] by rw [isFiles]) (by rw [isFiles]; rfl)
  obtain ⟨-, ending⟩ := succeeds_letterFile (by decide) proper usable (by decide)
    (show stored.home = [] by rw [isStored]) (by rw [isStored]; rfl)
  have storing : Task.Succeeds (store "x.zz" "x" letter removing) files (some "x") stored := by
    have own : Path.same "x" "x.zz" = false := by decide +kernel
    show Task.Succeeds (do
        if !isStandardInput "x.zz" && Path.same "x" "x.zz" then
          throw ⟨.invalidInput, "x.zz" ++ ": source and destination are the same file"⟩
        writeDestination (.file "x") false [0x61]
        return some "x") _ _ _
    rw [own, isFiles, isStored]
    exact fun console => ⟨console, by cbv⟩
  have dressing (console : Console) : (copyStatus "x.zz" "x" letter removing).run ⟨stored, console⟩ =
      ((), ⟨stored, console⟩) := by
    rw [isStored]
    cbv
  have gone : removes removing "x.zz" = true := by decide
  obtain ⟨shown, succeeds⟩ := succeeds_decompressFile reading decode_letterStream storing
    (fun console => ⟨console, dressing console⟩) (by rw [if_pos gone]; exact ending) {}
  have derives : Batch.destination? none removing "x.zz" = some "x" := by decide
  obtain ⟨path, isChosen, outcome⟩ := unnamed_outcome (by decide) rfl rfl (given_of_succeeds reading {})
    decode_letterStream (.inBatch derives) succeeds
  obtain rfl : "x" = path := Except.ok.inj isChosen
  rw [← isFiles]
  refine ⟨_, _, derives, succeeds, rfl, ?_⟩
  cases outcome with
  | file _ _ _ silent stands =>
    refine ⟨silent, stands.resolve_right fun endangered => ?_⟩
    cases endangered.replaces
  | shown _ toOutput => exact absurd toOutput (by decide)
  | dropped _ toNowhere => exact absurd toNowhere (by decide)

/-- **A source that is gone with its output**: the name of the source without its suffix is that of standard
output. -/
theorem unnamed_lost : ∃ after report,
    Batch.destination? none removing "stdout.zz" = some "stdout" ∧
    Task.on (decompressFile "stdout.zz" "stdout" removing)
        ⟨⟨[(["stdout.zz"], plainFile letterStream)], [], 0⟩, {}⟩ = (.ok report, after) ∧
      report.written = none ∧ after.console.output = [0x61] ∧ after.files.entries = [] := by
  obtain ⟨files, isFiles⟩ : ∃ files : FileSystem,
    files = ⟨[(["stdout.zz"], plainFile letterStream)], [], 0⟩ := ⟨_, rfl⟩
  have proper : Path.Proper "stdout.zz" := Path.fileName?_eq_self_iff.mp (by decide +kernel)
  have usable : FileSystem.Usable "stdout.zz" := ⟨by decide, by decide, by decide⟩
  obtain ⟨reading, ending⟩ := succeeds_letterFile (by decide) proper usable (by decide)
    (show files.home = [] by rw [isFiles]) (by rw [isFiles]; rfl)
  have storing : Task.Succeeds (store "stdout.zz" "stdout" letter removing) files none files :=
    succeeds_store_output rfl rfl rfl (by decide) files
  have gone : removes removing "stdout.zz" = true := by decide
  obtain ⟨shown, succeeds⟩ :=
    succeeds_unreported reading decode_letterStream storing (by rw [if_pos gone]; exact ending) {}
  obtain ⟨chosen, isChosen, added⟩ :=
    (decompressFile_emits rfl rfl (given_of_succeeds reading {}) decode_letterStream).of_ok succeeds
  obtain rfl : "stdout" = chosen := Except.ok.inj isChosen
  have nothing : (files.erase ["stdout.zz"]).entries = [] := by rw [isFiles]; rfl
  rw [← isFiles]
  exact ⟨_, _, by decide, succeeds, rfl, added, nothing⟩

end Inflate
