/-
**What jobs can do to each other.**

A job can change the location that its output goes to, and the one that its source names. Two jobs are
independent if they have different sources and neither asks for what the other may write to. Then all
that one of them can find changed is that the source of the other is gone, and a job that comes by the
source of another one fails, be it still there or not.

* `WritesTo`, `Takes`: the locations that a job may write to, and the one that it may remove;
* `touches_ran`: a job changes no others;
* `Independent`: jobs that do not ask for what the other may write to;
* `Thinned`: a later world in which sources of independent jobs may be gone;
* `fails_of_meets`: **a job that comes by the source of an independent job fails** and changes nothing.
-/

import Inflate.Proofs.Batch
import Inflate.Proofs.Footprint
import Inflate.Proofs.SideBySide

namespace Inflate

open FileSystem (Asks ComesBy Leads Missed NameOf Removed)

/-! ### Names of files on trails -/

/-- A path that comes by the name of a file and leads to no link leads to the file. -/
theorem FileSystem.NameOf.eq_of_status {files : FileSystem} {name reached location : Location}
    {path : String} {entry : Entry} (nameOf : NameOf files name reached)
    (status : files.status path = .ok (location, entry)) (solid : ∀ text, entry ≠ .link text)
    (asks : files.Asks path .reading name) : location = reached := by
  obtain ⟨resolved, found⟩ := status_eq_ok_iff.mp status
  have leads := (resolve_eq_ok_iff.mp resolved).2
  rcases nameOf.target_eq (by decide) leads asks with same | same <;> cases same
  · rfl
  · refine nameOf.leads.resolve_right ?_
    rintro ⟨text, _, link, -⟩
    exact solid text (Option.some.inj (found.symm.trans (lookup_of_kindAt_link link)))

namespace Batch

variable {item other : Item} {preferences : Preferences} {world now : World}
  {location place reached : Location}

/-! ### What a job changes -/

/-- A job that is run by itself. -/
def Item.ran (item : Item) (preferences : Preferences) (world : World) :
    Except IoError Report × World :=
  Task.on (decompressFile item.source item.destination preferences) world

/-- The locations that a job asks for. -/
def Item.Asks (item : Item) (preferences : Preferences) (world : World) (place : Location) : Prop :=
  JobAsks item.source item.destination preferences world place

/-- The locations that a job may write its output to: where its path leads, or would lead if it could
go over more links. -/
def Item.WritesTo (item : Item) (preferences : Preferences) (world : World) (location : Location) :
    Prop :=
  ∃ path, GoesTo item.source item.destination preferences world path ∧ ∃ links,
    Leads world.files (outputPurpose preferences) links (world.files.origin path)
        (Path.segments path) (.entry location) ∨
      Leads world.files (outputPurpose preferences) links (world.files.origin path)
        (Path.segments path) (.missing location false)

/-- The location that a job may remove: what its source names, with the file that this leads to. -/
structure Item.Takes (item : Item) (world : World) (name reached : Location) : Prop where
  named : isStandardInput item.source = false
  names : world.files.resolve item.source .naming = .ok (.entry name)
  reads : world.files.resolve item.source .reading = .ok (.entry reached)
  nameOf : NameOf world.files name reached

/-- A job asks for what its source names. -/
theorem Item.Takes.asks_name (takes : item.Takes world location reached) :
    item.Asks preferences world location :=
  .source takes.named (FileSystem.resolve_eq_ok_iff.mp takes.names).2.comesBy.reading

/-- A job asks for what its source leads to. -/
theorem Item.Takes.asks_reached (takes : item.Takes world location reached) :
    item.Asks preferences world reached :=
  .source takes.named (FileSystem.resolve_eq_ok_iff.mp takes.reads).2.comesBy

/-- What a job has done to the files: it has changed the location that it may write to, and nothing
is left where its source was named. -/
structure Touches (item : Item) (preferences : Preferences) (world : World) (after : FileSystem) :
    Prop where
  home : after.home = world.files.home
  clock : after.clock = world.files.clock
  changed : ∀ location, after.lookup location ≠ world.files.lookup location →
    item.WritesTo preferences world location ∨
      (∃ reached, item.Takes world location reached) ∧ after.lookup location = none

section Processed

variable {report : Report} {content : Bytes} {decoded : Decoded} {stored dressed : FileSystem}

/-- Storing and dressing an output touch what the job may write to. -/
theorem writesTo_of_changed
    (processed :
      Processed item.source item.destination preferences world report content decoded stored dressed)
    (changed : dressed.lookup location ≠ world.files.lookup location) :
    item.WritesTo preferences world location := by
  obtain ⟨path, reported, aims⟩ := processed.aims_of_changed changed
  refine ⟨path, ⟨decoded, content, ⟨processed.read, processed.decodes⟩, ?_⟩, FileSystem.maxLinks, ?_⟩
  · exact processed.reports.symm.trans reported
  · exact aims.imp (fun leads => (FileSystem.resolve_eq_ok_iff.mp leads).2)
      fun leads => (FileSystem.resolve_eq_ok_iff.mp leads).2

theorem touches_of_processed
    (processed :
      Processed item.source item.destination preferences world report content decoded stored
        dressed) : Touches item preferences world dressed :=
  ⟨processed.home, processed.clock, fun _ changed => Or.inl (writesTo_of_changed processed changed)⟩

/-- A source that was read and removed is what the job takes. -/
theorem takes_of_removed {after : FileSystem} {gone : Location}
    (processed :
      Processed item.source item.destination preferences world report content decoded stored dressed)
    (named : isStandardInput item.source = false) (removed : Removed dressed after item.source gone) :
    ∃ reached, item.Takes world gone reached := by
  obtain ⟨reached, entry, reads⟩ := processed.exists_reads named
  obtain ⟨resolved, found⟩ := FileSystem.status_eq_ok_iff.mp reads.status
  have names := processed.names_before named removed.names
  exact ⟨reached, named, names, resolved,
    (FileSystem.resolve_eq_ok_iff.mp names).2.nameOf (FileSystem.resolve_eq_ok_iff.mp resolved).2
      found reads.kindAt_ne_directory reads.solid⟩

end Processed

/-- **A job changes** nothing but what it may write to and what it may remove. -/
theorem touches_ran (item : Item) (preferences : Preferences) (world : World) :
    Touches item preferences world (item.ran preferences world).2.files := by
  have does := decompressFile_spec item.source item.destination preferences world
  unfold Item.ran
  unfold Task.Does at does
  generalize Task.on (decompressFile item.source item.destination preferences) world = ran at does ⊢
  obtain ⟨failure | report, after⟩ := ran
  · rcases does with same | processed
    · exact ⟨congrArg _ same, congrArg _ same, fun location changed =>
        absurd (congrArg (FileSystem.lookup · location) same) changed⟩
    · exact touches_of_processed processed
  · obtain ⟨content, decoded, stored, dressed, course⟩ := does
    have ends := course.ends
    by_cases removing : removes preferences item.source = true
    · rw [if_pos removing] at ends
      obtain ⟨gone, removed⟩ := ends
      refine ⟨removed.home.trans course.home, removed.clock.trans course.clock, ?_⟩
      intro location changed
      by_cases here : location = gone
      · subst here
        exact Or.inr ⟨takes_of_removed course.toProcessed (standard_eq_false removing) removed,
          removed.empty⟩
      · rw [removed.elsewhere location here] at changed
        exact Or.inl (writesTo_of_changed course.toProcessed changed)
    · rw [if_neg removing] at ends
      exact ends ▸ touches_of_processed course.toProcessed

/-! ### Independent jobs -/

/-- Two jobs with different sources, neither of which asks for what the other may write to: where one
writes to is not the source or the output of the other, nor on the way to one of them. -/
structure Independent (preferences : Preferences) (world : World) (first second : Item) : Prop where
  input : ¬(isStandardInput first.source = true ∧ isStandardInput second.source = true)
  sources : isStandardInput first.source = false → isStandardInput second.source = false →
    ∀ location entry other, world.files.status first.source = .ok (location, entry) →
      world.files.status second.source ≠ .ok (location, other)
  apart : ∀ location, first.WritesTo preferences world location →
    ¬second.Asks preferences world location
  clear : ∀ location, second.WritesTo preferences world location →
    ¬first.Asks preferences world location

theorem Independent.symm (independent : Independent preferences world item other) :
    Independent preferences world other item where
  input := fun both => independent.input both.symm
  sources := fun first second location entry last here there =>
    independent.sources second first location last entry there here
  apart := independent.clear
  clear := independent.apart

/-- A job that can take its source is not independent of itself. -/
theorem Item.Takes.not_independent (takes : item.Takes world place reached) :
    ¬Independent preferences world item item := by
  intro independent
  obtain ⟨entry, found⟩ := Option.ne_none_iff_exists'.mp fun empty =>
    takes.nameOf.there (FileSystem.kindAt_eq_none_iff.mpr empty)
  have status := FileSystem.status_eq_ok_iff.mpr ⟨takes.reads, found⟩
  exact independent.sources takes.named takes.named _ _ _ status status

/-- A later world, as far as a job asks for it: it is the same, but sources of independent jobs may be
gone. -/
structure Thinned (item : Item) (preferences : Preferences) (world now : World) : Prop where
  home : now.files.home = world.files.home
  input : isStandardInput item.source = true → now.console.input = world.console.input
  gone : ∀ place, item.Asks preferences world place →
    now.files.lookup place = world.files.lookup place ∨
      now.files.lookup place = none ∧ ∃ other reached,
        Independent preferences world item other ∧ other.Takes world place reached

namespace Thinned

theorem refl (item : Item) (preferences : Preferences) (world : World) :
    Thinned item preferences world world :=
  ⟨rfl, fun _ => rfl, fun _ _ => Or.inl rfl⟩

variable {path : String} {purpose : Purpose} {target : Target} {entry : Entry}

/-- Where a path leads that the job walks along. -/
theorem leads_or_missed (thinned : Thinned item preferences world now)
    (asks : ∀ place, world.files.Asks path purpose place → item.Asks preferences world place)
    (resolved : now.files.resolve path purpose = .ok target) :
    Leads world.files purpose FileSystem.maxLinks (world.files.origin path) (Path.segments path)
        target ∨
      ∃ place slash, target = .missing place slash ∧
        Missed world.files now.files purpose FileSystem.maxLinks (world.files.origin path)
          (Path.segments path) place slash := by
  obtain ⟨-, led⟩ := FileSystem.resolve_eq_ok_iff.mp resolved
  have origin : now.files.origin path = world.files.origin path := by
    rw [FileSystem.origin, FileSystem.origin, thinned.home]
  rw [origin] at led
  exact led.of_removals fun place on => (thinned.gone place (asks place on)).imp_right And.left

/-- What the job finds at a path was there before. -/
theorem status_before (thinned : Thinned item preferences world now)
    (asks : ∀ place, world.files.Asks path .reading place → item.Asks preferences world place)
    (status : now.files.status path = .ok (location, entry)) :
    world.files.status path = .ok (location, entry) := by
  obtain ⟨resolved, found⟩ := FileSystem.status_eq_ok_iff.mp status
  have usable := (FileSystem.resolve_eq_ok_iff.mp resolved).1
  rcases thinned.leads_or_missed asks resolved with leads | ⟨place, slash, missing, -⟩
  · refine FileSystem.status_eq_ok_iff.mpr
      ⟨FileSystem.resolve_eq_ok_iff.mpr ⟨usable, leads⟩, ?_⟩
    rcases thinned.gone location (asks location leads.comesBy) with same | ⟨gone, -⟩
    · exact same.symm.trans found
    · cases gone.symm.trans found
  · cases missing

end Thinned

/-! ### Jobs that come by the source of another one -/

section Meets

variable {report : Report} {content : Bytes} {decoded : Decoded} {stored dressed : FileSystem}

/-- What is decoded in a later world is what was decoded before. -/
theorem decoded_eq (thinned : Thinned item preferences world now) {before : Decoded} {read : Bytes}
    (decodes : Decodes item.source preferences world before read)
    (processed :
      Processed item.source item.destination preferences now report content decoded stored dressed) :
    decoded = before := by
  have gives := gives_of_given decodes.read
  have same : content = read := by
    have later := processed.gives
    unfold Gives at gives later
    by_cases standard : isStandardInput item.source = true
    · rw [if_pos standard] at gives later
      rw [gives, later, thinned.input standard]
    · rw [if_neg standard] at gives later
      obtain ⟨location, entry, reads⟩ := later
      obtain ⟨reached, found, earlier⟩ := gives
      have status := thinned.status_before
        (fun _ on => .source (Bool.eq_false_iff.mpr standard) on) reads.status
      cases earlier.status.symm.trans status
      exact reads.content_eq earlier
  have decoding := processed.decodes
  rw [same, decodes.decodes] at decoding
  exact (Except.ok.inj decoding).symm

variable (thinned : Thinned item preferences world now)
  (independent : Independent preferences world item other) (takes : other.Takes world place reached)
  (processed :
    Processed item.source item.destination preferences now report content decoded stored dressed)

include thinned independent takes processed

/-- The way to the source of a job does not come by the source of an independent one. -/
theorem not_source (named : isStandardInput item.source = false)
    (on : world.files.Asks item.source .reading place) : False := by
  obtain ⟨location, entry, reads⟩ := processed.exists_reads named
  have status := thinned.status_before (fun _ on => .source named on) reads.status
  obtain rfl := takes.nameOf.eq_of_status status reads.solid on
  have found := (FileSystem.status_eq_ok_iff.mp status).2
  exact independent.sources named takes.named _ _ _ status
    (FileSystem.status_eq_ok_iff.mpr ⟨takes.reads, found⟩)

omit independent in
/-- Neither does the way to its output directory. -/
theorem not_directory {word : Word} {before : Decoded} {read : Bytes} {name : String}
    (writes : preferences.testMode = false) (under : preferences.outputDirectory = some word)
    (decodes : Decodes item.source preferences world before read)
    (isNamed : Naming.outputName before = .ok name)
    (on : DirectoryAsks world.files word place) : False := by
  have asks : ∀ place, DirectoryAsks world.files word place → item.Asks preferences world place :=
    fun _ on => .directory writes under decodes isNamed on
  have stores := processed.stores
  generalize report.written = written at stores
  cases stores with
  | nothing _ silent =>
    rcases silent with testing | plain
    · cases testing.symm.trans writes
    · cases plain.symm.trans under
  | device _ plain | opened plain => cases plain.symm.trans under
  | @placed found directory _ location given text _ inside =>
    cases given.symm.trans under
    unfold DirectoryAsks at on asks
    rw [text] at on asks
    obtain ⟨position, leads⟩ := Option.isSome_iff_exists.mp inside
    have status := thinned.status_before asks (FileSystem.directory?_eq_some_iff.mp leads)
    obtain rfl := takes.nameOf.eq_of_status status (fun _ => nofun) on
    exact takes.nameOf.outside
      (FileSystem.kindAt_of_lookup (FileSystem.status_eq_ok_iff.mp status).2)

/-- Neither does the way to its output. -/
theorem not_output {path : String} (goes : GoesTo item.source item.destination preferences world path)
    (on : world.files.Asks path (outputPurpose preferences) place) : False := by
  obtain ⟨before, read, decodes, isPath⟩ := id goes
  obtain rfl := decoded_eq thinned decodes processed
  have stores := processed.stores
  rw [processed.reports, isPath] at stores
  have plain : outputPurpose preferences ≠ .writing := by
    unfold outputPurpose
    split <;> decide
  have asks : ∀ place, world.files.Asks path (outputPurpose preferences) place →
      item.Asks preferences world place := fun _ on => .output goes on
  -- The path leads there in the later world.
  obtain ⟨location, aims⟩ := stores.exists_aims
  obtain ⟨target, resolved, isTarget⟩ : ∃ target,
      now.files.resolve path (outputPurpose preferences) = .ok target ∧
        (target = .entry location ∨ target = .missing location false) := by
    rcases aims with aims | aims
    · exact ⟨_, aims, Or.inl rfl⟩
    · exact ⟨_, aims, Or.inr rfl⟩
  rcases thinned.leads_or_missed asks resolved with leads | ⟨empty, slash, rfl, missed⟩
  · -- It led to the source of the other job, which is not to be written to.
    rcases takes.nameOf.target_eq plain leads on with rfl | rfl
    · exact independent.apart _ ⟨path, goes, _, Or.inl leads⟩ takes.asks_reached
    · exact independent.apart _ ⟨path, goes, _, Or.inl leads⟩ takes.asks_name
  · -- It led to a source that is gone.
    obtain rfl : slash = false := by
      rcases isTarget with same | same <;> cases same
      rfl
    obtain ⟨-, last, held, free, taken⟩ :=
      (thinned.gone empty (asks empty missed.visits)).resolve_left
        fun same => missed.there (same.symm.trans missed.gone)
    cases purpose : outputPurpose preferences with
    | writing => exact plain purpose
    | naming =>
      have leads := missed.names rfl purpose
      rw [← purpose] at leads
      exact free.apart _ ⟨path, goes, _, Or.inl leads⟩ taken.asks_name
    | reading =>
      obtain ⟨budget, leads⟩ := missed.reads rfl held taken.nameOf
      rw [← purpose] at leads
      exact free.apart _ ⟨path, goes, _, Or.inl leads⟩ taken.asks_reached

end Meets

/-- **A job that comes by the source of an independent job** fails and changes nothing, whether that
source is still there or not. -/
theorem fails_of_meets (thinned : Thinned item preferences world now)
    (independent : Independent preferences world item other)
    (takes : other.Takes world place reached) (asks : item.Asks preferences world place) :
    ∃ failure after, item.ran preferences now = (.error failure, after) ∧
      after.files = now.files := by
  have absurd : ∀ {report content decoded stored dressed},
      ¬Processed item.source item.destination preferences now report content decoded stored
        dressed := by
    intro report content decoded stored dressed processed
    rcases asks with ⟨named, on⟩ | ⟨writes, under, decodes, isNamed, on⟩ | ⟨goes, on⟩
    · exact not_source thinned independent takes processed named on
    · exact not_directory thinned takes processed writes under decodes isNamed on
    · exact not_output thinned independent takes processed goes on
  refine Task.Does.exists_error
    ((decompressFile_spec item.source item.destination preferences now).imp ?_ ?_)
  · rintro report after ⟨content, decoded, stored, dressed, course⟩
    exact absurd course.toProcessed
  · rintro failure after (same | processed)
    · exact same
    · exact (absurd processed).elim

end Batch

end Inflate
