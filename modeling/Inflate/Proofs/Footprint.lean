/-
**Which files a job touches.**

A job that fails leaves all files and standard output as they were, provided that a source that could
be read can be removed. A job that succeeds changes the place of the file that it reports, and nothing
is left where the source was named, if it was to be removed. Every other place is as before, so no
temporary file remains.

* `Aims`: the place of an output;
* `Stored.aims_of_changed`, `Processed.aims_of_changed`: storing and dressing an output touch its place
  only;
* `Footprint`: what a job that succeeds touches;
* `decompressFile_footprint`: a job leaves its footprint, or nothing at all;
* `removable_of_plain`: without an output directory every source that was read can be removed.
-/

import Inflate.Proofs.Console
import Inflate.Proofs.WrittenFile

namespace Inflate

open FileSystem (Gains Leads Opened SameContents Removed)
open Persistence (Placed)

variable {source destination path : String} {decoded : Decoded} {preferences : Preferences}
  {world : World} {before stored dressed : FileSystem} {location : Location} {data : Bytes}
  {written : Option String}

/-! ### The place of an output -/

/-- The place of an output: the entry that its path leads to, or where that would be. -/
def Aims (files : FileSystem) (preferences : Preferences) (path : String) (location : Location) :
    Prop :=
  files.resolve path (outputPurpose preferences) = .ok (.entry location) ∨
    files.resolve path (outputPurpose preferences) = .ok (.missing location false)

theorem aims_of_plain (plain : preferences.outputDirectory = none) :
    Aims before preferences path location ↔
      before.resolve path .reading = .ok (.entry location) ∨
        before.resolve path .reading = .ok (.missing location false) := by
  unfold Aims outputPurpose
  rw [plain]
  rfl

theorem aims_of_under {word : Word} (under : preferences.outputDirectory = some word) :
    Aims before preferences path location ↔
      before.resolve path .naming = .ok (.entry location) ∨
        before.resolve path .naming = .ok (.missing location false) := by
  unfold Aims outputPurpose
  rw [under]
  rfl

/-- What is placed in an output directory is what its path leads to, if it leads anywhere. -/
theorem Persistence.Placed.eq_of_reads (placed : Placed path data before stored location)
    {reached : Location} (reads : stored.resolve path .reading = .ok (.entry reached)) :
    reached = location := by
  have gains := placed.writes.gains
  obtain ⟨usable, led⟩ := FileSystem.resolve_eq_ok_iff.mp reads
  obtain ⟨last, named⟩ := led.exists_naming
  have names : stored.resolve path .naming = .ok (.entry last) :=
    FileSystem.resolve_eq_ok_iff.mpr ⟨usable, named⟩
  have same : last = location := by
    rcases FileSystem.resolve_before_gain gains placed.outside names with earlier | ⟨same, -⟩
    · rcases placed.names with here | here
      · cases here.symm.trans earlier
        rfl
      · cases here.symm.trans earlier
    · exact Target.entry.inj same
  -- A file stands there now, so the path goes no further.
  rcases named.naming led with here | ⟨text, _, link, _⟩
  · exact here.symm.trans same
  · rw [same] at link
    cases gains.file.symm.trans link

/-- **Storing an output** touches its place only. -/
theorem Stored.aims_of_changed (stores : Stored decoded preferences before stored written)
    (changed : stored.lookup location ≠ before.lookup location) :
    ∃ path, written = some path ∧ Aims before preferences path location := by
  cases stores with
  | nothing same | device same =>
    rw [same] at changed
    exact absurd rfl changed
  | @opened path place plain allowed opened =>
    have here : location = place := not_imp_comm.mp (opened.writes.elsewhere location) changed
    exact ⟨path, rfl, (aims_of_plain plain).mpr (here ▸ opened.aims)⟩
  | @placed word directory name place under text named inside placed =>
    have here : location = place := not_imp_comm.mp (placed.writes.elsewhere location) changed
    exact ⟨_, rfl, (aims_of_under under).mpr (here ▸ placed.names)⟩

/-- Where a path leads after an output was stored through it is the place of the output. -/
theorem Stored.aims_of_reads (stores : Stored decoded preferences before stored (some path))
    (reads : stored.resolve path .reading = .ok (.entry location)) :
    Aims before preferences path location := by
  cases stores with
  | device same plain _ status =>
    rw [same] at reads
    exact (aims_of_plain plain).mpr (Or.inl reads)
  | opened plain allowed opened =>
    cases opened.leads.symm.trans reads
    exact (aims_of_plain plain).mpr opened.aims
  | placed under text named _ placed =>
    cases placed.eq_of_reads reads
    exact (aims_of_under under).mpr placed.names

/-- An output that was stored has a place. -/
theorem Stored.exists_aims (stores : Stored decoded preferences before stored (some path)) :
    ∃ location, Aims before preferences path location := by
  cases stores with
  | device same plain _ status =>
    exact ⟨_, (aims_of_plain plain).mpr (Or.inl (FileSystem.status_eq_ok_iff.mp status).1)⟩
  | opened plain _ opened => exact ⟨_, (aims_of_plain plain).mpr opened.aims⟩
  | placed under _ _ _ placed => exact ⟨_, (aims_of_under under).mpr placed.names⟩

theorem Stored.home (stores : Stored decoded preferences before stored written) :
    stored.home = before.home := by
  cases stores with
  | nothing same | device same => rw [same]
  | opened _ _ opened => exact opened.writes.home
  | placed _ _ _ _ placed => exact placed.writes.home

theorem Stored.clock (stores : Stored decoded preferences before stored written) :
    stored.clock = before.clock := by
  cases stores with
  | nothing same | device same => rw [same]
  | opened _ _ opened => exact opened.writes.clock
  | placed _ _ _ _ placed => exact placed.writes.clock

namespace Processed

variable {report : Report} {content : Bytes}

/-- **Storing and dressing an output** touch its place only. -/
theorem aims_of_changed
    (processed :
      Processed source destination preferences world report content decoded stored dressed)
    (changed : dressed.lookup location ≠ world.files.lookup location) :
    ∃ path, report.written = some path ∧ Aims world.files preferences path location := by
  by_cases kept : stored.lookup location = world.files.lookup location
  · rw [← kept] at changed
    obtain ⟨path, reported, reads⟩ := processed.elsewhere location changed
    exact ⟨path, reported, (reported ▸ processed.stores).aims_of_reads reads⟩
  · exact processed.stores.aims_of_changed kept

theorem home
    (processed :
      Processed source destination preferences world report content decoded stored dressed) :
    dressed.home = world.files.home :=
  processed.dresses.home.trans processed.stores.home

theorem clock
    (processed :
      Processed source destination preferences world report content decoded stored dressed) :
    dressed.clock = world.files.clock :=
  processed.dresses.clock.trans processed.stores.clock

/-- A source that is named after the output was stored was named before. -/
theorem names_before
    (processed :
      Processed source destination preferences world report content decoded stored dressed)
    (named : isStandardInput source = false)
    (names : dressed.resolve source .naming = .ok (.entry location)) :
    world.files.resolve source .naming = .ok (.entry location) := by
  obtain ⟨reached, entry, reads⟩ := processed.exists_reads named
  obtain ⟨usable, led⟩ := FileSystem.resolve_eq_ok_iff.mp
    (FileSystem.status_eq_ok_iff.mp reads.status).1
  obtain ⟨last, leads⟩ := led.exists_naming
  have there : world.files.resolve source .naming = .ok (.entry last) :=
    FileSystem.resolve_eq_ok_iff.mpr ⟨usable, leads⟩
  have names := processed.dresses.symm.resolve names
  rcases processed.stores.same_or_gains with same | ⟨place, gains, outside, -⟩
  · exact same ▸ names
  · refine (FileSystem.resolve_before_gain gains outside names).resolve_right ?_
    rintro ⟨-, -, missing⟩
    cases there.symm.trans missing

end Processed

/-! ### Sources that can be removed -/

/-- A source that could be read can be removed: if the job comes to that, nothing is in the way. -/
def Removable (source destination : String) (preferences : Preferences) (world : World) : Prop :=
  removes preferences source = true → ∀ report kept,
    Task.on (process source destination preferences) world = (.ok report, kept) →
      ∃ later, kept.files.remove source = .ok later

/-- A path that leads to no directory names something that can be removed. -/
theorem FileSystem.exists_remove {files : FileSystem} {reached : Location}
    (reads : files.resolve path .reading = .ok (.entry reached))
    (outside : files.kindAt reached ≠ some .directory) : ∃ later, files.remove path = .ok later := by
  obtain ⟨usable, led⟩ := resolve_eq_ok_iff.mp reads
  obtain ⟨gone, named⟩ := led.exists_naming
  have names : files.resolve path .naming = .ok (.entry gone) := resolve_eq_ok_iff.mpr ⟨usable, named⟩
  have file : ¬files.isDirectoryAt gone = true := by
    intro directory
    have inside := isDirectoryAt_iff.mp directory
    rcases named.naming led with same | ⟨text, _, link, _⟩
    · exact outside (same ▸ inside)
    · cases inside.symm.trans link
  refine ⟨files.erase gone, ?_⟩
  rw [remove, names]
  exact if_neg file

/-- **Without an output directory** every source that was read can be removed. -/
theorem removable_of_plain (plain : preferences.outputDirectory = none) (source destination : String)
    (world : World) : Removable source destination preferences world := by
  intro removing report kept done
  have does := process_spec source destination preferences world
  unfold Task.Does at does
  rw [done] at does
  obtain ⟨content, decoded, stored, processed⟩ := does
  obtain ⟨reached, entry, reads⟩ := processed.exists_reads (standard_eq_false removing)
  obtain ⟨resolved, found⟩ := FileSystem.status_eq_ok_iff.mp reads.status
  have kind := FileSystem.kindAt_of_lookup found
  have outside := reads.kindAt_ne_directory
  -- The source leads where it led, and what is there is no directory still.
  obtain ⟨leads, still⟩ : stored.resolve source .reading = .ok (.entry reached) ∧
      stored.kindAt reached ≠ some .directory := by
    rcases processed.stores.same_or_gains with same | ⟨place, gains, clear, solid⟩
    · exact same ▸ ⟨resolved, outside⟩
    · refine ⟨FileSystem.resolve_of_leads gains.home
        (fun _ _ leads => leads.of_gain gains clear (solid plain)) resolved, ?_⟩
      rwa [ne_eq, gains.directory clear]
  refine FileSystem.exists_remove (processed.dresses.resolve leads) ?_
  rwa [processed.dresses.kind]

/-! ### Whole jobs -/

/-- **The footprint of a job that succeeded**: the place of the file that it reports and, if its source
was to be removed, where that was named; nothing is left there. -/
structure Footprint (source : String) (preferences : Preferences) (before after : FileSystem)
    (written : Option String) : Prop where
  home : after.home = before.home
  clock : after.clock = before.clock
  elsewhere : ∀ location, after.lookup location ≠ before.lookup location →
    (∃ path, written = some path ∧ Aims before preferences path location) ∨
      removes preferences source = true ∧ before.resolve source .naming = .ok (.entry location)
  gone : removes preferences source = true → ∃ location,
    before.resolve source .naming = .ok (.entry location) ∧ after.lookup location = none

/-- A job that is done leaves its footprint. -/
theorem Course.footprint {after : World} {report : Report} {content : Bytes}
    (course :
      Course source destination preferences world after report content decoded stored dressed) :
    Footprint source preferences world.files after.files report.written := by
  have ends := course.ends
  by_cases removing : removes preferences source = true
  · rw [if_pos removing] at ends
    obtain ⟨gone, removed⟩ := ends
    have names := course.names_before (standard_eq_false removing) removed.names
    refine ⟨removed.home.trans course.home, removed.clock.trans course.clock, ?_,
      fun _ => ⟨gone, names, removed.empty⟩⟩
    intro location changed
    by_cases here : location = gone
    · exact Or.inr ⟨removing, here ▸ names⟩
    · rw [removed.elsewhere location here] at changed
      exact Or.inl (course.aims_of_changed changed)
  · rw [if_neg removing] at ends
    rw [ends]
    exact ⟨course.home, course.clock, fun _ changed => Or.inl (course.aims_of_changed changed),
      fun given => absurd given removing⟩

/-- **A job runs its course, or leaves nothing at all**, if a source that could be read can be
removed. -/
theorem course_or_unchanged (source destination : String) (preferences : Preferences) (world : World)
    (removable : Removable source destination preferences world) :
    Task.Does (decompressFile source destination preferences) world
      (fun report after => ∃ content decoded stored dressed,
        Course source destination preferences world after report content decoded stored dressed)
      (fun _ after => after.files = world.files ∧ after.console.output = world.console.output) := by
  have course := decompressFile_spec source destination preferences world
  have files := process_spec source destination preferences world
  have output := process_output source destination preferences world
  unfold Task.Does at course files output ⊢
  rw [decompressFile_eq, Task.on_bind] at course ⊢
  cases processed : Task.on (process source destination preferences) world with
  | mk outcome kept =>
    rw [processed] at course files output
    cases outcome with
    | error failure => exact ⟨files, output⟩
    | ok report =>
      obtain ⟨after, concluded⟩ := exists_conclude report kept
        fun removing => removable removing report kept processed
      simp only [concluded] at course ⊢
      exact course

/-- **A job leaves its footprint, or nothing at all**, if a source that could be read can be
removed. -/
theorem decompressFile_footprint (source destination : String) (preferences : Preferences)
    (world : World) (removable : Removable source destination preferences world) :
    Task.Does (decompressFile source destination preferences) world
      (fun report after => Footprint source preferences world.files after.files report.written)
      (fun _ after => after.files = world.files ∧ after.console.output = world.console.output) := by
  refine (course_or_unchanged source destination preferences world removable).imp ?_
    fun _ _ unchanged => unchanged
  rintro report after ⟨content, decoded, stored, dressed, course⟩
  exact course.footprint

/-- A job that replaces one file and removes another, with a third beside them. -/
theorem decompressFile_footprint_letter : ∃ world after report,
    world.files.entries =
      [(["x"], plainFile letterStream), (["y"], plainFile [0]), (["z"], plainFile [1])] ∧
    Removable "x" "y" forced world ∧
    Task.on (decompressFile "x" "y" forced) world = (.ok report, after) ∧
    report.written = some "y" ∧ Footprint "x" forced world.files after.files report.written := by
  obtain ⟨files, isFiles⟩ : ∃ files : FileSystem, files =
    ⟨[(["x"], plainFile letterStream), (["y"], plainFile [0]), (["z"], plainFile [1])], [], 0⟩ :=
    ⟨_, rfl⟩
  obtain ⟨stored, isStored⟩ : ∃ stored : FileSystem, stored =
    ⟨[(["y"], plainFile [0x61]), (["x"], plainFile letterStream), (["z"], plainFile [1])], [], 0⟩ :=
    ⟨_, rfl⟩
  have reading : Task.Succeeds (readSource "x") files letterStream files := by
    rw [isFiles]
    exact fun console => ⟨console, by cbv⟩
  have storing : Task.Succeeds (store "x" "y" letter forced) files (some "y") stored := by
    show Task.Succeeds (do writeDestination (.file "y") true [0x61]; return some "y") _ _ _
    rw [isFiles, isStored]
    exact fun console => ⟨console, by cbv⟩
  have dressing : ∀ console, (copyStatus "x" "y" letter forced).run ⟨stored, console⟩ =
      ((), ⟨stored, console⟩) := by
    rw [isStored]
    intro console
    cbv
  have removing : Task.Succeeds (removeSource "x") stored ()
      ⟨[(["y"], plainFile [0x61]), (["z"], plainFile [1])], [], 0⟩ := by
    rw [isStored]
    exact fun console => ⟨console, by cbv⟩
  obtain ⟨shown, succeeds⟩ := succeeds_letter reading storing dressing removing {}
  have removable : Removable "x" "y" forced ⟨files, {}⟩ := removable_of_plain rfl "x" "y" _
  have footprint := decompressFile_footprint "x" "y" forced ⟨files, {}⟩ removable
  unfold Task.Does at footprint
  rw [succeeds] at footprint
  exact ⟨⟨files, {}⟩, _, _, congrArg FileSystem.entries isFiles, removable, succeeds, rfl, footprint⟩

end Inflate
