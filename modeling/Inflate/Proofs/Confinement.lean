/-
**Stored names stay in their directory.**

The name stored in a gzip header is any text. What is used of it is what follows its last separator of
either kind, and three other rules meet that name later: the check of file names before a writing, the
joining of a name to a directory, and the walk to the path that this gives. They agree on every name that is
used, so an output lands in the directory that was asked for, or beside the source. A stream that cannot be
decoded, or that has no usable name, leaves nothing behind.

* `safeName_eq_self`: a usable name is used as it is;
* `proper_of_outputName`: every name of an output can name an entry;
* `StandsIn`: an output that stands in a directory, with all else as before;
* `does_decodeToDirectory`, `does_store_into`: what is written into a directory;
* `usedBeside_of_chosen`: where a stored name is used beside the source;
* `on_decompressFile_fruitless`: a job that has nothing to store;
* `names_confined`: all of it.
-/

import Mathlib
import Inflate.Proofs.Console
import Inflate.Proofs.FileSystem.Children

namespace Inflate

open Inflate.Path (Child Proper)

/-! ### Names -/

namespace Naming

variable {stored name : String} {decoded : Decoded}

theorem isProper_iff : isProper name = true ↔ name ≠ "" ∧ name ≠ "." ∧ name ≠ ".." := by
  simp [isProper, and_assoc]

theorem isSeparator_eq_false_iff {c : Char} : isSeparator c = false ↔ c ≠ '/' ∧ c ≠ '\\' := by
  simp [isSeparator]

/-- A last name is all that follows the last separator. -/
theorem exists_front (path : String) : ∃ front : List Char,
    path.toList = front ++ (lastName path).toList ∧
      ∀ c, front.getLast? = some c → isSeparator c = true := by
  refine ⟨(path.toList.reverse.dropWhile fun c => !isSeparator c).reverse, ?_, fun c ends => ?_⟩
  · rw [lastName, String.toList_ofList, lastPart, ← List.reverse_append,
      List.takeWhile_append_dropWhile, List.reverse_reverse]
  · rw [List.getLast?_reverse] at ends
    have stops := List.head?_dropWhile_not (fun c => !isSeparator c) path.toList.reverse
    rw [ends] at stops
    simpa using stops

/-- A name that is used holds no separator. -/
theorem plain_of_safeName (safe : safeName stored = .ok name) :
    ∀ c ∈ name.toList, isSeparator c = false := by
  obtain ⟨rfl, -⟩ := safeName_eq_ok_iff.mp safe
  rw [lastName, String.toList_ofList]
  exact fun c among => isSeparator_of_mem_lastPart among

/-- **A usable name is used as it is.** -/
theorem safeName_eq_self (safe : safeName stored = .ok name) : safeName name = .ok name := by
  have proper := (safeName_eq_ok_iff.mp safe).2
  refine safeName_eq_ok_iff.mpr ⟨?_, proper⟩
  rw [lastName, lastPart_of_forall (plain_of_safeName safe), String.ofList_toList]

/-- A text without separators can name an entry, unless it is empty or a dot path. -/
theorem proper_of_plain (plain : ∀ c ∈ name.toList, isSeparator c = false)
    (named : isProper name = true) : Proper name := by
  obtain ⟨nonempty, notDot, notDots⟩ := isProper_iff.mp named
  exact ⟨fun c among => (isSeparator_eq_false_iff.mp (plain c among)).1, nonempty, notDot, notDots⟩

theorem proper_of_safeName (safe : safeName stored = .ok name) : Proper name :=
  proper_of_plain (plain_of_safeName safe) (safeName_eq_ok_iff.mp safe).2

/-- No hexadecimal digit is a separator. -/
theorem plain_toDigitsCore (fuel n : Nat) {rest : List Char}
    (plain : ∀ c ∈ rest, isSeparator c = false) :
    ∀ c ∈ Nat.toDigitsCore 16 fuel n rest, isSeparator c = false := by
  have digits : ∀ digit < 16, isSeparator (Nat.digitChar digit) = false := by decide
  induction fuel generalizing n rest with
  | zero => exact plain
  | succ fuel ih =>
    have longer : ∀ c ∈ (n % 16).digitChar :: rest, isSeparator c = false :=
      List.forall_mem_cons.mpr ⟨digits _ (Nat.mod_lt _ (by decide)), plain⟩
    unfold Nat.toDigitsCore
    simp only
    split
    · exact longer
    · exact ih _ longer

/-- **Every name of an output** can name an entry, be it stored or made from the checksum. -/
theorem proper_of_outputName (named : outputName decoded = .ok name) : Proper name := by
  unfold outputName at named
  split at named
  · exact proper_of_safeName named
  · obtain rfl := Except.ok.inj named
    have chars : (Text.hex 8 decoded.checksum.toNat ++ outputEnding).toList =
        Text.fillLeft '0' 8 (Nat.toDigits 16 decoded.checksum.toNat) ++ ['.', 'o', 'u', 't'] := by
      rw [String.toList_append, Text.hex, String.toList_ofList]
      rfl
    have long : 4 ≤ (Text.hex 8 decoded.checksum.toNat ++ outputEnding).toList.length := by
      rw [chars, List.length_append]
      exact Nat.le_add_left _ _
    have endings : ∀ c ∈ ['.', 'o', 'u', 't'], isSeparator c = false := by simp [isSeparator]
    refine proper_of_plain ?_ (isProper_iff.mpr ⟨?_, ?_, ?_⟩)
    · rw [chars]
      intro c among
      rcases List.mem_append.mp among with digit | ending
      · rcases List.mem_append.mp digit with zero | digit
        · rw [List.eq_of_mem_replicate zero]
          rfl
        · exact plain_toDigitsCore _ _ (List.forall_mem_nil _) c digit
      · exact endings c ending
    all_goals
      intro short
      rw [short] at long
      exact absurd long (by decide)

end Naming

/-! ### Writing into a directory -/

/-- The directory that a path stands for, where no path at all stands for the working directory. -/
def FileSystem.seat? (files : FileSystem) (directory : String) : Option Location :=
  files.directory? (if directory = "" then "." else directory)

/-- **A name in a directory** names what has this name there, if anything. -/
theorem FileSystem.resolve_in_seat {files : FileSystem} {directory name : String} {place : Location}
    {target : Target} (found : files.seat? directory = some place) (proper : Proper name)
    (resolved : files.resolve (Path.join directory name) .naming = .ok target) :
    target = .entry (place ++ [name]) ∨ target = .missing (place ++ [name]) false := by
  unfold FileSystem.seat? at found
  by_cases empty : directory = ""
  · rw [if_pos empty] at found
    obtain ⟨here, inside⟩ := FileSystem.status_eq_ok_iff.mp (FileSystem.directory?_eq_some_iff.mp found)
    have home : place = files.home := by
      obtain ⟨-, led⟩ := FileSystem.resolve_eq_ok_iff.mp here
      cases led.of_stay (Or.inr rfl)
      rfl
    obtain ⟨-, walked⟩ := FileSystem.resolve_eq_ok_iff.mp resolved
    rw [empty, proper.join_empty, FileSystem.origin, proper.isAbsolute_eq_false, proper.segments_eq,
      if_neg Bool.false_ne_true, ← home, ← FileSystem.walk_eq_ok_iff,
      FileSystem.walk_name (FileSystem.kindAt_of_lookup inside) proper] at walked
    split at walked
    · cases walked
    · obtain rfl := Except.ok.inj walked
      exact files.named_cases _
  · rw [if_neg empty] at found
    exact FileSystem.resolve_join found proper resolved

section Directories

variable {directory name : String} {data : Bytes} {world : World}

/-- An output stands under its name in a directory, and nothing else has changed. -/
structure StandsIn (directory name : String) (data : Bytes) (before : FileSystem) (path : String)
    (after : FileSystem) : Prop where
  child : Child directory name path
  place : ∃ place, before.directory? directory = some place ∧
    after = before.withFile (place ++ [name]) FileSystem.newFileMode data

/-- A failure that does not blame the name of a file. -/
def Failure.AcceptsName (failure : Failure) : Prop := ∀ text, failure ≠ .invalidFileName text

theorem acceptsName_unreachable (directory : String) (errno : Errno) :
    (Persistence.unreachable directory errno).AcceptsName := by
  intro text same
  unfold Persistence.unreachable at same
  split at same <;> cases same

/-- Whatever stops a writing under a proper name does not blame the name. -/
theorem acceptsName_of_verdict (proper : Proper name) {pieces : List Bytes} {files : FileSystem}
    {failure : Failure}
    (stopped : Persistence.Call.verdict ⟨directory, name, pieces⟩ files = .error failure) :
    failure.AcceptsName := by
  simp only [Persistence.Call.verdict] at stopped
  split at stopped
  · rw [if_pos (Path.fileName?_eq_self_iff.mpr proper)] at stopped
    generalize Persistence.landing files _ = landed at stopped
    cases landed with
    | ok place => cases stopped
    | error errno =>
      obtain rfl := Except.error.inj stopped
      nofun
  · obtain rfl := Except.error.inj stopped
    nofun
  · obtain rfl := Except.error.inj stopped
    exact acceptsName_unreachable _ _

/-- **Writing under a proper name** puts the output there, or fails without blaming the name. -/
theorem does_persist (proper : Proper name) (directory : String) (data : Bytes) (world : World) :
    Task.Does (persist directory name data) world
      (fun path after => StandsIn directory name data world.files path after.files)
      (fun failure after => failure.AcceptsName ∧ after.files = world.files) := by
  obtain ⟨remark, ran⟩ := on_persist directory name data world
  unfold Task.Does
  rw [ran]
  cases verdict : Persistence.Call.verdict ⟨directory, name, [data]⟩ world.files with
  | ok location =>
    obtain ⟨place, found, rfl⟩ := (Persistence.Call.accepts_iff.mpr verdict).exists_place
    exact ⟨Path.child_join proper directory, place, found, World.files_say _ _ _⟩
  | error failure => exact ⟨acceptsName_of_verdict proper verdict, rfl⟩

/-- Writing into the directory that a word names. -/
theorem does_persistAt (proper : Proper name) (word : Word) (data : Bytes) (world : World) :
    Task.Does (persistAt word name data) world
      (fun path after => ∃ directory, word.text? = some directory ∧
        StandsIn directory name data world.files path after.files)
      (fun failure after => failure.AcceptsName ∧ after.files = world.files) := by
  unfold persistAt
  cases text : word.text? with
  | none =>
    refine Task.does_lift_bind ?_
    exact ⟨acceptsName_unreachable _ _, rfl⟩
  | some directory =>
    exact (does_persist proper directory data world).imp
      (fun path after stands => ⟨directory, rfl, stands⟩) fun _ _ same => same

/-- Why decoding into a directory fails: the input cannot be decoded, the output has no name, or it cannot
be written for a reason that is not its name. -/
inductive Unwritten (format : Option Format) (input : Bytes) (options : Options) : Failure → Prop where
  | undecoded {failure : Failure} (fails : decode format input options = .error failure) :
    Unwritten format input options failure
  | unnamed {decoded : Decoded} {failure : Failure} (decodes : decode format input options = .ok decoded)
    (fails : Naming.outputName decoded = .error failure) : Unwritten format input options failure
  | refused {decoded : Decoded} {name : String} {failure : Failure}
    (decodes : decode format input options = .ok decoded)
    (named : Naming.outputName decoded = .ok name) (accepts : failure.AcceptsName) :
    Unwritten format input options failure

/-- **Decoding into a directory** writes what was decoded under the name that it asks for, or nothing. -/
theorem does_decodeToDirectory (format : Option Format) (input : Bytes) (directory : String)
    (options : Options) (world : World) :
    Task.Does (decodeToDirectory format input directory options) world
      (fun result after => decode format input options = .ok result.1 ∧
        ∃ name, Naming.outputName result.1 = .ok name ∧
          StandsIn directory name result.1.data world.files result.2 after.files)
      (fun failure after => Unwritten format input options failure ∧ after.files = world.files) := by
  unfold decodeToDirectory
  refine (Task.does_perform (attempt format input options) world).bind
    (fun failure after failed => ⟨.undecoded failed.1, failed.2⟩) ?_
  rintro decoded read ⟨decodes, same⟩
  refine (Task.does_ofExcept_self (Naming.outputName decoded) read).bind ?_ ?_
  · rintro failure _ ⟨unnamed, rfl⟩
    exact ⟨.unnamed decodes unnamed, same⟩
  · rintro name opened ⟨named, rfl⟩
    refine (does_persist (Naming.proper_of_outputName named) directory decoded.data opened).bind ?_ ?_
    · rintro failure after ⟨accepts, kept⟩
      exact ⟨.refused decodes named accepts, kept.trans same⟩
    · intro path after stands
      rw [same] at stands
      exact ⟨decodes, name, named, stands⟩

end Directories

/-! ### Jobs -/

section Jobs

variable {source destination name : String} {decoded : Decoded} {preferences : Preferences}
  {content : Bytes} {failure : Failure} {world : World}

/-- **Storing into an output directory** puts the output there, or fails without blaming its name. -/
theorem does_store_into (tests : preferences.testMode = false) {word : Word}
    (under : preferences.outputDirectory = some word) (named : Naming.outputName decoded = .ok name)
    (source destination : String) (world : World) :
    Task.Does (store source destination decoded preferences) world
      (fun written after => ∃ directory path, word.text? = some directory ∧ written = some path ∧
        StandsIn directory name decoded.data world.files path after.files)
      (fun error after => (∃ failure : Failure, error = failure.about source ∧ failure.AcceptsName) ∧
        after.files = world.files) := by
  have inside : Task.Does (do
        let name ← MonadExcept.ofExcept (Naming.outputName decoded)
        return some (← persistAt word name decoded.data)) world
      (fun written after => ∃ directory path, word.text? = some directory ∧ written = some path ∧
        StandsIn directory name decoded.data world.files path after.files)
      (fun failure after => failure.AcceptsName ∧ after.files = world.files) := by
    rw [named]
    refine (does_persistAt (Naming.proper_of_outputName named) word decoded.data world).bind
      (fun _ _ same => same) ?_
    rintro path after ⟨directory, text, stands⟩
    exact ⟨directory, path, text, rfl, stands⟩
  unfold store
  rw [tests, under]
  exact inside.adapt _ fun failure after ⟨accepted, same⟩ => ⟨⟨failure, rfl, accepted⟩, same⟩

/-- **A job with an output directory** writes a child of that directory. -/
theorem does_decompressFile_into (tests : preferences.testMode = false) {word : Word}
    (under : preferences.outputDirectory = some word) (source destination : String) (world : World) :
    Task.Does (decompressFile source destination preferences) world
      (fun report _ => ∃ directory name path, word.text? = some directory ∧
        report.written = some path ∧ Child directory name path)
      (fun _ _ => True) := by
  refine (decompressFile_spec source destination preferences world).imp ?_ fun _ _ _ => trivial
  rintro report after ⟨content, decoded, stored, dressed, course⟩
  have stores := course.stores
  generalize report.written = written at stores ⊢
  cases stores with
  | nothing _ silent =>
    rcases silent with testing | plain
    · cases tests.symm.trans testing
    · cases under.symm.trans plain
  | device _ plain | opened plain => cases under.symm.trans plain
  | placed other text named =>
    cases under.symm.trans other
    exact ⟨_, _, _, text, rfl, Path.child_join (Naming.proper_of_outputName named) _⟩

/-- A path that a name is used at: it is a child of the directory of a source, so it stands beside the
source, and it names what has this name there. -/
structure UsedBeside (source name chosen : String) : Prop where
  child : Child (storedNameDirectory source) name chosen
  here : isStandardInput source = true → Path.parts chosen = [".", name]
  beside : isStandardInput source = false → Path.parts source ≠ [] →
    Path.parts chosen = (Path.parts source).dropLast ++ [name] ∧
      Path.isAbsolute chosen = Path.isAbsolute source
  names : ∀ (files : FileSystem) (place : Location) (target : Target),
    files.seat? (storedNameDirectory source) = some place →
      files.resolve chosen .naming = .ok target →
        target = .entry (place ++ [name]) ∨ target = .missing (place ++ [name]) false

theorem usedBeside_join (proper : Proper name) (source : String) :
    UsedBeside source name (Path.join (storedNameDirectory source) name) := by
  have child := Path.child_join proper (storedNameDirectory source)
  refine ⟨child, fun standard => ?_, fun other nonempty => ?_,
    fun files place target found resolved => FileSystem.resolve_in_seat found proper resolved⟩
  · have dot : Path.parts "." = ["."] := by decide
    rw [child.parts, storedNameDirectory, if_pos standard, dot]
    rfl
  · unfold storedNameDirectory at child ⊢
    rw [if_neg (Bool.eq_false_iff.mp other)] at child ⊢
    exact child.beside nonempty

/-- **A stored name that is used** names a path beside the source, or in the working directory for standard
input. -/
theorem usedBeside_of_chosen {stored chosen : String}
    (asked : Destination.ofName destination = .file destination)
    (uses : preferences.useStoredName = true) (holds : decoded.storedName = some stored)
    (isChosen : chosenDestination source destination decoded preferences = .ok chosen) :
    ∃ name, Naming.safeName stored = .ok name ∧ UsedBeside source name chosen := by
  simp only [chosenDestination, storedDestination, asked, uses, holds, if_true] at isChosen
  cases safe : Naming.safeName stored with
  | error failure =>
    rw [safe] at isChosen
    cases isChosen
  | ok name =>
    rw [safe] at isChosen
    cases isChosen
    exact ⟨name, rfl, usedBeside_join (Naming.proper_of_safeName safe) source⟩

/-- Why a job has nothing to store: its source cannot be decoded, or the output has no name. -/
inductive Fruitless (source destination : String) (preferences : Preferences) (content : Bytes) :
    Failure → Prop where
  | undecoded {failure : Failure}
    (fails : decode preferences.format content preferences.options = .error failure) :
    Fruitless source destination preferences content failure
  | unnamed {decoded : Decoded} {word : Word} {failure : Failure}
    (decodes : decode preferences.format content preferences.options = .ok decoded)
    (tests : preferences.testMode = false) (under : preferences.outputDirectory = some word)
    (fails : Naming.outputName decoded = .error failure) :
    Fruitless source destination preferences content failure
  | unplaced {decoded : Decoded} {failure : Failure}
    (decodes : decode preferences.format content preferences.options = .ok decoded)
    (tests : preferences.testMode = false) (plain : preferences.outputDirectory = none)
    (fails : chosenDestination source destination decoded preferences = .error failure) :
    Fruitless source destination preferences content failure

/-- A job that has nothing to store fails before it stores anything. -/
theorem does_process_fruitless (read : given source world = .ok content)
    (fruitless : Fruitless source destination preferences content failure) :
    Task.Does (process source destination preferences) world (fun _ _ => False)
      fun error _ => error = failure.about source := by
  unfold process
  refine (readSource_spec source world).with_on.bind ?_ ?_
  · rintro error after ⟨ran, -⟩
    unfold given at read
    rw [ran] at read
    cases read
  rintro same opened ⟨ran, -⟩
  obtain rfl : same = content := by
    unfold given at read
    rw [ran] at read
    exact Except.ok.inj read
  have decoding : Task.Does (decodeSource source same preferences) opened
      (fun decoded _ => decode preferences.format same preferences.options = .ok decoded)
      (fun error _ => ∃ cause, decode preferences.format same preferences.options = .error cause ∧
        error = cause.about source) :=
    ((Task.does_perform (attempt preferences.format same preferences.options) opened).imp
      (fun _ _ done => done.1) fun _ _ failed => failed.1).adapt _
        fun cause _ fails => ⟨cause, fails, rfl⟩
  refine decoding.bind ?_ ?_
  · rintro error _ ⟨cause, fails, rfl⟩
    cases fruitless with
    | undecoded other => rw [Except.error.inj (fails.symm.trans other)]
    | unnamed decodes | unplaced decodes => cases fails.symm.trans decodes
  intro decoded later decodes
  have storing : Task.Does (store source destination decoded preferences) later (fun _ _ => False)
      fun error _ => error = failure.about source := by
    cases fruitless with
    | undecoded fails => cases fails.symm.trans decodes
    | unnamed other tests under fails =>
      obtain rfl := Except.ok.inj (decodes.symm.trans other)
      unfold store
      rw [tests, under, fails]
      exact rfl
    | unplaced other tests plain fails =>
      obtain rfl := Except.ok.inj (decodes.symm.trans other)
      unfold store
      rw [tests, plain, fails]
      exact rfl
  exact storing.bind (fun _ _ same => same) fun _ _ => False.elim

/-- **A job that has nothing to store** leaves nothing behind. -/
theorem on_decompressFile_fruitless (read : given source world = .ok content)
    (fruitless : Fruitless source destination preferences content failure) :
    ∃ after, Task.on (decompressFile source destination preferences) world =
        (.error (failure.about source), after) ∧
      after.files = world.files ∧ after.console.output = world.console.output := by
  obtain ⟨error, after, ran, rfl⟩ := (does_process_fruitless read fruitless).exists_error
  refine ⟨after, ?_, (process_spec _ _ _ _).of_error ran, (process_output _ _ _ _).of_error ran⟩
  rw [decompressFile_eq, Task.on_bind, ran]

end Jobs

/-! ### All of it -/

/-- **Stored names stay in their directory.** The name that is used of a stored one is all that follows
its last separator, unless that is empty or a dot path; it holds no separator of either kind, is used as it
is, and passes the check of the names of files. So an output directory gets a child of that name or nothing
at all, and never is the name blamed; a stored name that takes the place of a destination stays beside its
source; and a job that has nothing to store, or no name to store it by, leaves nothing behind. -/
theorem names_confined :
    (∀ stored name, Naming.safeName stored = .ok name ↔
      name = Naming.lastName stored ∧ name ≠ "" ∧ name ≠ "." ∧ name ≠ "..") ∧
    (∀ stored name, Naming.safeName stored = .ok name →
      (∃ front, stored.toList = front ++ name.toList ∧
        ∀ c, front.getLast? = some c → Naming.isSeparator c = true) ∧
      (∀ c ∈ name.toList, c ≠ '/' ∧ c ≠ '\\') ∧ Naming.safeName name = .ok name ∧
        Path.fileName? name = some name) ∧
    (∀ format input directory options world,
      Task.Does (decodeToDirectory format input directory options) world
        (fun result after => decode format input options = .ok result.1 ∧
          ∃ name, Naming.outputName result.1 = .ok name ∧
            StandsIn directory name result.1.data world.files result.2 after.files)
        (fun failure after => Unwritten format input options failure ∧ after.files = world.files)) ∧
    (∀ (preferences : Preferences) word source destination world, preferences.testMode = false →
      preferences.outputDirectory = some word →
        Task.Does (decompressFile source destination preferences) world
          (fun report _ => ∃ directory name path, word.text? = some directory ∧
            report.written = some path ∧ Child directory name path) (fun _ _ => True) ∧
        ∀ decoded name, Naming.outputName decoded = .ok name →
          Task.Does (store source destination decoded preferences) world
            (fun written after => ∃ directory path, word.text? = some directory ∧
              written = some path ∧
              StandsIn directory name decoded.data world.files path after.files)
            (fun error after =>
              (∃ failure : Failure, error = failure.about source ∧ failure.AcceptsName) ∧
                after.files = world.files)) ∧
    (∀ (preferences : Preferences) decoded source destination stored chosen,
      Destination.ofName destination = .file destination → preferences.useStoredName = true →
      decoded.storedName = some stored →
      chosenDestination source destination decoded preferences = .ok chosen →
        ∃ name, Naming.safeName stored = .ok name ∧ UsedBeside source name chosen) ∧
    (∀ preferences source destination content failure world, given source world = .ok content →
      Fruitless source destination preferences content failure →
        ∃ after, Task.on (decompressFile source destination preferences) world =
            (.error (failure.about source), after) ∧
          after.files = world.files ∧ after.console.output = world.console.output) := by
  refine ⟨fun stored name => ?_, fun stored name safe => ⟨?_, ?_, ?_, ?_⟩, does_decodeToDirectory,
    fun preferences word source destination world tests under => ⟨?_, fun decoded name named => ?_⟩,
    fun preferences decoded source destination stored chosen => usedBeside_of_chosen,
    fun preferences source destination content failure world => on_decompressFile_fruitless⟩
  · rw [Naming.safeName_eq_ok_iff, Naming.isProper_iff]
  · obtain ⟨rfl, -⟩ := Naming.safeName_eq_ok_iff.mp safe
    exact Naming.exists_front stored
  · exact fun c among => Naming.isSeparator_eq_false_iff.mp (Naming.plain_of_safeName safe c among)
  · exact Naming.safeName_eq_self safe
  · exact Path.fileName?_eq_self_iff.mpr (Naming.proper_of_safeName safe)
  · exact does_decompressFile_into tests under source destination world
  · exact does_store_into tests under named source destination world

/-- A letter whose stored name leads out of its directory. -/
def letterAbove : Decoded :=
  ⟨[0x61], .gzip, 0xe8b7be43, some ⟨8, 8, 0, 0, 0xff, none, some "../a\\b", none, 17⟩, 31⟩

/-- A directory, and beside it a file that cannot be decoded. -/
def besideZero : World := ⟨⟨[(["d"], .directory), (["x"], .file ⟨[0], 0o644, 0⟩)], [], 0⟩, {}⟩

/-- The letter in an output directory and beside its source, and a job that has nothing to store. -/
theorem names_confined_above :
    (Naming.safeName "../a\\b" = .ok "b" ∧ Path.fileName? "b" = some "b") ∧
    (∃ after, Task.on (store "x" "y" letterAbove { outputDirectory := some (Word.ofString "d") })
        besideZero = (.ok (some "d/b"), after) ∧
      StandsIn "d" "b" [0x61] besideZero.files "d/b" after.files) ∧
    (chosenDestination "d/x.gz" "d/x" letterAbove { useStoredName := true } = .ok "d/b" ∧
      UsedBeside "d/x.gz" "b" "d/b") ∧
    ∃ after, Task.on (decompressFile "x" "y" {}) besideZero =
        (.error (Failure.truncated.about "x"), after) ∧
      after.files = besideZero.files ∧ after.console.output = [] := by
  obtain ⟨agree, accept, -, into, chosen, fruitless⟩ := names_confined
  have safe : Naming.safeName "../a\\b" = .ok "b" :=
    (agree _ _).mpr ⟨by decide, by decide, by decide, by decide⟩
  have named : Naming.outputName letterAbove = .ok "b" := safe
  have run : (Task.on (store "x" "y" letterAbove { outputDirectory := some (Word.ofString "d") })
      besideZero).1 = .ok (some "d/b") := by cbv
  have isChosen : chosenDestination "d/x.gz" "d/x" letterAbove { useStoredName := true } =
      .ok "d/b" := by cbv
  have reads : given "x" besideZero = .ok [0] := by cbv
  refine ⟨⟨safe, (accept _ _ safe).2.2.2⟩, ?_, ⟨isChosen, ?_⟩,
    fruitless {} "x" "y" [0] .truncated _ reads (.undecoded (by cbv))⟩
  · obtain ⟨after, ran⟩ : ∃ after, Task.on
        (store "x" "y" letterAbove { outputDirectory := some (Word.ofString "d") }) besideZero =
          (.ok (some "d/b"), after) := ⟨_, Prod.ext run rfl⟩
    obtain ⟨directory, path, text, same, stands⟩ :=
      ((into _ _ "x" "y" besideZero rfl rfl).2 letterAbove "b" named).of_ok ran
    cases same
    cases text
    exact ⟨after, ran, stands⟩
  · obtain ⟨name, isName, beside⟩ :=
      chosen _ letterAbove "d/x.gz" "d/x" "../a\\b" "d/b" (by decide) rfl rfl isChosen
    obtain rfl := Except.ok.inj (safe.symm.trans isName)
    exact beside

end Inflate
