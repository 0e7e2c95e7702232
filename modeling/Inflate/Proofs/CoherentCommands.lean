/-
**Commands are coherent.**

A command is put together from flags, settings, variables of the environment and any count of files, and
what carries it out relies on how its parts fit each other. They do so whatever is given: what does not fit
is a fault of usage, every file that is left has one place, and a dash never stays a name.

* `preferred_preferencesOf`: the preferences of a draft, whatever the environment is;
* `Filed`, `Draft.Misuse`: where the files of a command go, and what does not fit in a draft;
* `withFiles_cases`: the files of a draft;
* `Coherent`, `ofDraft_spec`: what a draft comes to;
* `parse_cases`: what a command line comes to: a command by its draft, a fault, or a text that is shown;
* `parse_coherent`: what is understood of a command line is coherent, or nothing is left to be done.
-/

import Mathlib
import Inflate.CommandLine.Command
import Inflate.Proofs.World

namespace Inflate

/-! ### Actions that leave the files alone -/

/-- An action that leaves the files alone. -/
def KeepsFiles {α : Type} (action : StateM World α) : Prop :=
  ∀ world, (action.run world).2.files = world.files

section KeepsFiles

variable {α β : Type}

theorem keepsFiles_pure (value : α) : KeepsFiles (pure value) := fun _ => rfl

theorem keepsFiles_say (level : Nat) (remark : String) : KeepsFiles (say level remark) :=
  fun _ => World.files_say _ _ _

theorem KeepsFiles.bind {action : StateM World α} {next : α → StateM World β}
    (first : KeepsFiles action) (second : ∀ value, KeepsFiles (next value)) :
    KeepsFiles (action >>= next) :=
  fun world => (second _ _).trans (first world)

end KeepsFiles

namespace CommandLine

variable {environment : Environment} {draft : Draft} {command : Command} {words : List Word}
  {world : World}

/-! ### Preferences -/

theorem keepsFiles_limitOf (text : Option String) : KeepsFiles (Environment.limitOf text) := by
  unfold Environment.limitOf
  split
  · exact keepsFiles_pure _
  · split
    · exact keepsFiles_pure _
    · exact (keepsFiles_say _ _).bind fun _ => keepsFiles_pure _

theorem keepsFiles_workersOf (text : Option String) : KeepsFiles (Environment.workersOf text) := by
  unfold Environment.workersOf
  split
  · exact keepsFiles_pure _
  · split
    · exact keepsFiles_pure _
    · exact (keepsFiles_say _ _).bind fun _ => keepsFiles_pure _

theorem keepsFiles_withWorkers (preferences : Preferences) (host requested : Nat) :
    KeepsFiles (preferences.withWorkers host requested) := by
  unfold Preferences.withWorkers
  simp only
  split
  · exact (keepsFiles_say _ _).bind fun _ => keepsFiles_pure _
  · exact keepsFiles_pure _

theorem keepsFiles_preferencesOf (environment : Environment) (draft : Draft) :
    KeepsFiles (Command.preferencesOf environment draft) := by
  have ends : ∀ preferences : Nat → Preferences,
      ∀ workers, KeepsFiles ((preferences workers).withWorkers environment.hostWorkers workers) :=
    fun preferences workers => keepsFiles_withWorkers _ _ _
  unfold Command.preferencesOf
  generalize draft.maxOutput = limit
  generalize draft.threads = count
  cases limit <;> cases count
  · exact (keepsFiles_limitOf _).bind fun _ => (keepsFiles_workersOf _).bind (ends _)
  · exact (keepsFiles_limitOf _).bind fun _ => (keepsFiles_pure _).bind (ends _)
  · exact (keepsFiles_pure _).bind fun _ => (keepsFiles_workersOf _).bind (ends _)
  · exact (keepsFiles_pure _).bind fun _ => (keepsFiles_pure _).bind (ends _)

theorem fst_withWorkers (preferences : Preferences) (host requested : Nat) (world : World) :
    ((preferences.withWorkers host requested).run world).1 =
      { preferences with workers := workerCount host requested } := by
  unfold Preferences.withWorkers
  simp only
  split <;> rfl

/-- Preferences that do as a draft asks. -/
structure Preferred (draft : Draft) (preferences : Preferences) : Prop where
  testMode : preferences.testMode = true ↔ draft.mode = .test
  outputDirectory : preferences.outputDirectory = draft.outputDirectory
  workers_pos : 1 ≤ preferences.workers
  workers_le : preferences.workers ≤ maxWorkers

/-- **The preferences of a draft** do as it asks, whatever the environment is. -/
theorem preferred_preferencesOf (environment : Environment) (draft : Draft) (world : World) :
    Preferred draft ((Command.preferencesOf environment draft).run world).1 := by
  have given : ∀ (preferences : Preferences) (host requested : Nat) (world : World),
      preferences.testMode = (draft.mode == .test) →
      preferences.outputDirectory = draft.outputDirectory →
        Preferred draft ((preferences.withWorkers host requested).run world).1 := by
    intro preferences host requested world testMode outputDirectory
    rw [fst_withWorkers]
    refine ⟨?_, outputDirectory, workerCount_pos _ _, workerCount_le _ _⟩
    rw [testMode]
    exact beq_iff_eq
  unfold Command.preferencesOf
  split <;> split <;> exact given _ _ _ _ rfl rfl

/-! ### Files -/

/-- With a name in its place no dash is left. -/
theorem ne_dash_of_mem_map {name : String} (named : name ≠ "-") (files : List String) :
    ∀ file ∈ files.map (inPlaceOfDash name), file ≠ "-" := by
  intro file among
  obtain ⟨given, -, rfl⟩ := List.mem_map.mp among
  unfold inPlaceOfDash
  split
  · exact named
  · assumption

/-- The output of a command: standard output if that is asked for, and otherwise what is named. -/
def usedOutput (toStandardOutput : Bool) (name : Option String) : Option String :=
  if toStandardOutput then some standardOutputName else name.map (inPlaceOfDash standardOutputName)

theorem usedOutput_none (toStandardOutput : Bool) : usedOutput toStandardOutput none = none ∨
    usedOutput toStandardOutput none = some standardOutputName := by
  cases toStandardOutput
  · exact Or.inl rfl
  · exact Or.inr rfl

theorem ne_dash_of_usedOutput (toStandardOutput : Bool) (name : Option String) :
    ∀ output ∈ usedOutput toStandardOutput name, output ≠ "-" := by
  intro output same
  unfold usedOutput at same
  split at same
  · cases same
    decide
  · refine ne_dash_of_mem_map (by decide : standardOutputName ≠ "-") name.toList output ?_
    rw [← Option.toList_map]
    exact Option.mem_toList.mpr same

theorem outputOf_none (toStandardOutput : Bool) :
    Command.outputOf toStandardOutput none = .ok (usedOutput toStandardOutput none) := by
  cases toStandardOutput <;> rfl

/-- Where the files of a command go: all of them are inputs, or the first one is the input and the second
one the output. -/
inductive Filed (command : Command) (files : List String) : Command → Prop where
  | several (all : command.several = true) :
    Filed command files { command with
      inputs := files.map (inPlaceOfDash standardInputName)
      output := usedOutput command.toStandardOutput none }
  | single {input output : Option String} (one : command.several = false)
    (given : files = input.toList ++ output.toList) (first : input = none → output = none)
    (exclusive : command.toStandardOutput = true → output = none) :
    Filed command files { command with
      input := input.map (inPlaceOfDash standardInputName)
      output := usedOutput command.toStandardOutput output }

/-! ### Commands -/

/-- A command before it is given its files. -/
def Draft.unfiled (draft : Draft) (preferences : Preferences) : Command where
  preferences
  mode := draft.mode
  toStandardOutput := draft.has .standardOutput
  several := draft.several
  verbosity := draft.verbosity

/-- What does not fit in a draft, with its fault. -/
inductive Draft.Misuse (draft : Draft) : UsageFault → Prop where
  | recursion (asked : draft.has .recursive = true) : Misuse draft .recursionUnsupported
  | directory (asked : draft.has .standardOutput = true) (named : draft.outputDirectory ≠ none) :
    Misuse draft .standardOutputAndDirectory
  | name {input output : String} (asked : draft.has .standardOutput = true)
    (single : draft.several = false) (given : draft.files = [input, output]) :
    Misuse draft .standardOutputAndName
  | file {input output extra : String} {others : List String} (single : draft.several = false)
    (given : draft.files = input :: output :: extra :: others) : Misuse draft (.unexpectedFile extra)

/-- **The files of a draft** go where they belong, or do not fit. -/
theorem withFiles_cases (draft : Draft) (preferences : Preferences) :
    (∃ command, (draft.unfiled preferences).withFiles draft.files = .ok command ∧
      Filed (draft.unfiled preferences) draft.files command) ∨
    ∃ fault, (draft.unfiled preferences).withFiles draft.files = .error fault ∧
      draft.Misuse fault := by
  by_cases all : draft.several = true
  · exact Or.inl ⟨_, if_pos all, .several all⟩
  have one : draft.several = false := Bool.eq_false_iff.mpr all
  have opened (files : List String) : (draft.unfiled preferences).withFiles files = _ := if_neg all
  rw [opened]
  rcases given : draft.files with _ | ⟨input, _ | ⟨output, _ | ⟨extra, others⟩⟩⟩
  · simp only [outputOf_none]
    exact Or.inl ⟨_, rfl, @Filed.single _ _ none none one rfl (fun _ => rfl) fun _ => rfl⟩
  · simp only [outputOf_none]
    exact Or.inl ⟨_, rfl, @Filed.single _ _ (some input) none one rfl nofun fun _ => rfl⟩
  · cases asked : (draft.unfiled preferences).toStandardOutput with
    | true => exact Or.inr ⟨_, rfl, .name asked one given⟩
    | false =>
      have quiet : (draft.unfiled preferences).toStandardOutput = true → some output = none :=
        fun loud => absurd loud (Bool.eq_false_iff.mp asked)
      have filed := @Filed.single _ _ (some input) (some output) one rfl nofun quiet
      rw [asked] at filed
      exact Or.inl ⟨_, rfl, filed⟩
  · exact Or.inr ⟨_, rfl, .file one given⟩

/-- All names that a command holds. -/
def Command.names (command : Command) : List String :=
  command.input.toList ++ command.output.toList ++ command.inputs

/-- A command whose parts fit each other and the draft that it is made of. -/
structure Coherent (draft : Draft) (command : Command) : Prop where
  fits : ∀ fault, ¬draft.Misuse fault
  mode : command.mode = draft.mode
  toStandardOutput : command.toStandardOutput = draft.has .standardOutput
  several : command.several = draft.several
  notRecursive : draft.has .recursive = false
  workers_pos : 1 ≤ command.preferences.workers
  workers_le : command.preferences.workers ≤ maxWorkers
  testMode : command.preferences.testMode = true ↔ command.mode = .test
  ofSeveral : command.several = true → command.input = none
  ofSingle : command.several = false → command.inputs = [] ∧ draft.files.length ≤ 2
  ofStandardOutput : command.toStandardOutput = true →
    command.output = some standardOutputName ∧ command.preferences.outputDirectory = none
  narrow : command.toStandardOutput = true ∨ command.several = true →
    command.output = none ∨ command.output = some standardOutputName
  noDash : ∀ name ∈ command.names, name ≠ "-"

/-- A draft whose files found their places fits. -/
theorem fits_of_filed {preferences : Preferences} (plain : draft.has .recursive = false)
    (exclusive : draft.has .standardOutput = true → draft.outputDirectory = none)
    (filed : Filed (draft.unfiled preferences) draft.files command) (fault : UsageFault) :
    ¬draft.Misuse fault := by
  intro misuse
  cases misuse with
  | recursion asked => cases plain.symm.trans asked
  | directory asked named => exact named (exclusive asked)
  | name asked single given =>
    cases filed with
    | several all => cases single.symm.trans all
    | @single first second _ parted _ nameless =>
      rw [nameless asked, given] at parted
      cases first <;> cases parted
  | file single given =>
    cases filed with
    | several all => cases single.symm.trans all
    | @single first second _ parted =>
      rw [given] at parted
      cases first <;> cases second <;> cases parted

/-- **A command with its files** is coherent. -/
theorem coherent_of_filed {preferences : Preferences} (preferred : Preferred draft preferences)
    (plain : draft.has .recursive = false)
    (exclusive : draft.has .standardOutput = true → draft.outputDirectory = none)
    (filed : Filed (draft.unfiled preferences) draft.files command) : Coherent draft command := by
  obtain ⟨testMode, outputDirectory, workers_pos, workers_le⟩ := preferred
  have fits := fits_of_filed plain exclusive filed
  have input : standardInputName ≠ "-" := by decide
  have undirected (asked : draft.has .standardOutput = true) : preferences.outputDirectory = none :=
    outputDirectory.trans (exclusive asked)
  cases filed with
  | several all =>
    refine ⟨fits, rfl, rfl, rfl, plain, workers_pos, workers_le, testMode, fun _ => rfl,
      fun one => absurd all (Bool.eq_false_iff.mp one), fun asked => ⟨if_pos asked, undirected asked⟩,
      fun _ => usedOutput_none _, ?_⟩
    intro name among
    rcases List.mem_append.mp among with output | among
    · exact ne_dash_of_usedOutput _ none name (Option.mem_toList.mp output)
    · exact ne_dash_of_mem_map input draft.files name among
  | @single first second one given =>
    refine ⟨fits, rfl, rfl, rfl, plain, workers_pos, workers_le, testMode,
      fun all => absurd all (Bool.eq_false_iff.mp one), fun _ => ⟨rfl, ?_⟩,
      fun asked => ⟨if_pos asked, undirected asked⟩, ?_, ?_⟩
    · rw [given]
      cases first <;> cases second <;> simp
    · rintro (asked | all)
      · exact Or.inr (if_pos asked)
      · exact absurd all (Bool.eq_false_iff.mp one)
    · intro name among
      rcases List.mem_append.mp among with among | impossible
      · rcases List.mem_append.mp among with among | output
        · refine ne_dash_of_mem_map input first.toList name ?_
          rw [← Option.toList_map]
          exact among
        · exact ne_dash_of_usedOutput _ second name (Option.mem_toList.mp output)
      · cases impossible

/-- **What a draft comes to.** -/
theorem ofDraft_spec (environment : Environment) (draft : Draft) (world : World) :
    Task.Does (Command.ofDraft environment draft) world
      (fun command after => Coherent draft command ∧ after.files = world.files)
      (fun fault after => draft.Misuse fault ∧ after.files = world.files) := by
  unfold Command.ofDraft
  by_cases recursive : draft.has .recursive = true
  · simp only [if_pos recursive]
    exact ⟨.recursion recursive, rfl⟩
  by_cases contradicts : (draft.has .standardOutput && draft.outputDirectory.isSome) = true
  · simp only [if_neg recursive, if_pos contradicts]
    obtain ⟨asked, named⟩ := Bool.and_eq_true_iff.mp contradicts
    exact ⟨.directory asked (Option.isSome_iff_ne_none.mp named), rfl⟩
  have exclusive (asked : draft.has .standardOutput = true) : draft.outputDirectory = none := by
    rw [asked, Bool.true_and] at contradicts
    simpa using contradicts
  have same := keepsFiles_preferencesOf environment draft world
  simp only [if_neg recursive, if_neg contradicts]
  refine Task.does_lift_bind ?_
  have preferred := preferred_preferencesOf environment draft world
  rcases withFiles_cases draft ((Command.preferencesOf environment draft).run world).1 with
    ⟨command, done, filed⟩ | ⟨fault, done, misuse⟩
  · show Task.Does (MonadExcept.ofExcept ((draft.unfiled _).withFiles draft.files)) _ _ _
    rw [done]
    exact ⟨coherent_of_filed preferred (Bool.eq_false_iff.mpr recursive) exclusive filed, same⟩
  · show Task.Does (MonadExcept.ofExcept ((draft.unfiled _).withFiles draft.files)) _ _ _
    rw [done]
    exact ⟨misuse, same⟩

/-! ### Command lines -/

/-- **What a command line comes to**: a command by its draft, a fault, or a text that is shown. -/
theorem parse_cases (environment : Environment) (words : List Word) :
    (∃ draft, readWords words = .ok draft ∧
      parse environment words = (do return some (← Command.ofDraft environment draft))) ∨
    (∃ fault, readWords words = .error (.fault fault) ∧
      parse environment words = throw (.words fault)) ∨
    ∃ stop text, readWords words = .error stop ∧ (∀ fault, stop ≠ .fault fault) ∧
      parse environment words = (do emitText text; return none) := by
  unfold parse
  cases readWords words with
  | ok draft => exact Or.inl ⟨draft, rfl, rfl⟩
  | error stop =>
    cases stop with
    | fault fault => exact Or.inr (Or.inl ⟨fault, rfl, rfl⟩)
    | help long => exact Or.inr (Or.inr ⟨_, _, rfl, nofun, rfl⟩)
    | version => exact Or.inr (Or.inr ⟨_, _, rfl, nofun, rfl⟩)

/-- What is understood of a command line: nothing is left to be done if help or the version was asked for,
and otherwise there is a coherent command. -/
inductive Understood (words : List Word) : Option Command → Prop where
  | told {stop : Stop} (stops : readWords words = .error stop)
    (asked : stop = .version ∨ ∃ long, stop = .help long) : Understood words none
  | command {draft : Draft} {command : Command} (reads : readWords words = .ok draft)
    (coherent : Coherent draft command) : Understood words (some command)

/-- Why a command line is refused: a word is at fault, or the draft does not fit. -/
inductive Refused (words : List Word) : UsageFault → Prop where
  | words {fault : WordFault} (stops : readWords words = .error (.fault fault)) :
    Refused words (.words fault)
  | misuse {draft : Draft} {fault : UsageFault} (reads : readWords words = .ok draft)
    (misuse : draft.Misuse fault) : Refused words fault

/-- **Every command line that is understood** gives a coherent command, or shows a text and leaves nothing
to be done, whatever the variables of the environment hold. Only what cannot be read or does not fit is
refused. No file changes on the way. -/
theorem parse_coherent (environment : Environment) (words : List Word) (world : World) :
    Task.Does (parse environment words) world
      (fun result after => Understood words result ∧ after.files = world.files)
      (fun fault after => Refused words fault ∧ after.files = world.files) := by
  rcases parse_cases environment words with ⟨draft, reads, same⟩ | ⟨fault, stops, same⟩ |
    ⟨stop, text, stops, other, same⟩
  · rw [same]
    refine (ofDraft_spec environment draft world).bind ?_ ?_
    · rintro fault after ⟨misuse, kept⟩
      exact ⟨.misuse reads misuse, kept⟩
    · rintro command after ⟨coherent, kept⟩
      exact ⟨.command reads coherent, kept⟩
  · rw [same]
    exact ⟨.words stops, rfl⟩
  · rw [same]
    refine Task.does_lift_bind ⟨.told stops ?_, rfl⟩
    cases stop with
    | fault fault => exact absurd rfl (other fault)
    | help long => exact Or.inr ⟨long, rfl⟩
    | version => exact Or.inl rfl

/-- Two inputs to standard output, one of them standard input, with as many workers as there can be. -/
def dashed : Command where
  preferences := { workers := 200 }
  toStandardOutput := true
  several := true
  output := some "stdout"
  inputs := ["stdin", "b"]
  verbosity := 2

/-- A command line with a dash, and too many workers in the environment. -/
theorem parse_coherent_dash : ∃ draft after,
    Task.on (parse { workers := some "1K" } (["-mc", "-", "b"].map Word.ofString))
      ⟨⟨[], [], 0⟩, {}⟩ = (.ok (some dashed), after) ∧
    Coherent draft dashed ∧ after.files = ⟨[], [], 0⟩ := by
  have parsed : (Task.on (parse { workers := some "1K" } (["-mc", "-", "b"].map Word.ofString))
      ⟨⟨[], [], 0⟩, {}⟩).1 = .ok (some dashed) := by cbv
  obtain ⟨after, ran⟩ : ∃ after, Task.on (parse { workers := some "1K" }
      (["-mc", "-", "b"].map Word.ofString)) ⟨⟨[], [], 0⟩, {}⟩ = (.ok (some dashed), after) :=
    ⟨_, Prod.ext parsed rfl⟩
  obtain ⟨understood, same⟩ := (parse_coherent { workers := some "1K" }
    (["-mc", "-", "b"].map Word.ofString) ⟨⟨[], [], 0⟩, {}⟩).of_ok ran
  cases understood with
  | command _ coherent => exact ⟨_, after, ran, coherent, same⟩

end CommandLine

end Inflate
