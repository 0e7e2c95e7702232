/-
**What a job says it wrote is there.**

The report of a job names the file written. After the job that file holds the output, unless the path
leads to no regular file at all or the job removed what it had written with its source. The job takes
care of the latter only by comparing the texts of two paths, so it is another matter whether they lead
to the same file.

* `Stands`: an output stands where a path leads to;
* `Apart`: the path of an output that is no device, goes over no link and is not the source;
* `decompressFile_written`: the output is there, if it is apart from the source or nothing may be
  replaced;
* `decompressFile_lost`: an output that is lost with its source.
-/

import Inflate.Proofs.Job
import Inflate.Proofs.Zlib.Verdict

namespace Inflate

open FileSystem (Writes Opened SameContents Removed)
open Persistence (Placed)

variable {source destination path : String} {decoded : Decoded} {preferences : Preferences}
  {before stored : FileSystem} {location : Location} {data : Bytes}

/-! ### Outputs that stand -/

/-- An output stands where a path leads to. Before it was written, a file stood there to which the
path led, or the null device, or nothing. -/
structure Stands (before stored : FileSystem) (path : String) (location : Location) (data : Bytes) :
    Prop where
  writes : Writes before stored location data
  leads : stored.resolve path .reading = .ok (.entry location)
  outside : before.kindAt location ≠ some .directory
  solid : ∀ text, before.kindAt location ≠ some (.link text)
  before : before.lookup location = none ∨ ∃ entry, before.status path = .ok (location, entry)

theorem FileSystem.Opened.stands (opened : Opened before stored path location data) :
    Stands before stored path location data where
  writes := opened.writes
  leads := opened.leads
  outside := opened.kindAt_ne nofun
  solid := fun _ => opened.kindAt_ne nofun
  before := opened.before.imp FileSystem.kindAt_eq_none_iff.mp fun ⟨_, status⟩ => ⟨_, status⟩

/-- An output in a directory stands where its path leads to, unless it took the place of a link. -/
theorem Persistence.Placed.stands (placed : Placed path data before stored location)
    (noLink : ∀ location text, before.resolve path .naming = .ok (.entry location) →
      before.lookup location ≠ some (.link text)) : Stands before stored path location data := by
  have gains := placed.writes.gains
  rcases placed.names with names | names
  · have solid : ∀ text, before.kindAt location ≠ some (.link text) := fun text found =>
      noLink location text names (FileSystem.lookup_of_kindAt_link found)
    have reads : before.resolve path .reading = .ok (.entry location) :=
      FileSystem.resolve_of_leads rfl (fun _ _ leads => leads.reading fun _ last text same found => by
        cases same
        exact solid text found) names
    refine ⟨placed.writes, ?_, placed.outside, solid, ?_⟩
    · exact FileSystem.resolve_of_leads gains.home
        (fun _ _ leads => leads.of_gain gains placed.outside solid) reads
    · cases found : before.lookup location with
      | none => exact Or.inl rfl
      | some entry => exact Or.inr ⟨entry, FileSystem.status_eq_ok_iff.mpr ⟨reads, found⟩⟩
  · have nothing := ((FileSystem.resolve_eq_ok_iff.mp names).2).kindAt_eq_none
    have reads : before.resolve path .reading = .ok (.missing location false) :=
      FileSystem.resolve_of_leads rfl (fun _ _ leads => leads.reading nofun) names
    refine ⟨placed.writes, ?_, placed.outside, ?_, Or.inl (FileSystem.kindAt_eq_none_iff.mp nothing)⟩
    · exact FileSystem.resolve_of_leads gains.home (fun _ _ leads => leads.of_gain_missing gains) reads
    · intro text
      rw [nothing]
      nofun

namespace Stands

variable {later : FileSystem} {reached : Location} {entry : Entry} {content : Bytes}

/-- A source that led elsewhere does so still, to an entry of the same kind. -/
theorem of_source (stands : Stands before stored path location data)
    (reads : Reads before source content reached entry) (different : reached ≠ location) :
    stored.resolve source .reading = .ok (.entry reached) ∧
      stored.kindAt reached = some entry.kind := by
  obtain ⟨resolved, found⟩ := FileSystem.status_eq_ok_iff.mp reads.status
  have gains := stands.writes.gains
  constructor
  · exact FileSystem.resolve_of_leads gains.home
      (fun _ _ leads => leads.of_gain gains stands.outside stands.solid) resolved
  · rw [gains.elsewhere reached different]
    exact FileSystem.kindAt_of_lookup found

/-- **An output stands still** after a source that leads elsewhere was removed. -/
theorem removed {gone : Location} (stands : Stands before stored path location data)
    (same : SameContents stored later) (reads : Reads before source content reached entry)
    (different : reached ≠ location) {after : FileSystem}
    (removed : Removed later after source gone) :
    after.resolve path .reading = .ok (.entry location) ∧ after.contentAt location = some data := by
  obtain ⟨resolved, kind⟩ := stands.of_source reads different
  have resolved := same.resolve resolved
  have kind : later.kindAt reached = some entry.kind := (same.kind reached).trans kind
  have leads := same.resolve stands.leads
  have held : later.contentAt location = some data := (same.content location).trans stands.writes.held
  have plain : entry.kind ≠ .directory ∧ ∀ text, entry.kind ≠ .link text := by
    rcases reads.content with ⟨rfl, -⟩ | ⟨file, rfl, -⟩
    · exact ⟨nofun, fun _ => nofun⟩
    · exact ⟨nofun, fun _ => nofun⟩
  refine ⟨removed.resolve resolved kind plain.1 plain.2 different.symm leads, ?_⟩
  -- What is removed is the source itself or a link to it, and a file is no link.
  have other : location ≠ gone := by
    rintro rfl
    have named := (FileSystem.resolve_eq_ok_iff.mp removed.names).2
    have read := (FileSystem.resolve_eq_ok_iff.mp resolved).2
    rcases named.naming read with same | ⟨text, _, link, _⟩
    · exact different same.symm
    · cases (FileSystem.kindAt_of_contentAt held).symm.trans link
  exact (FileSystem.contentAt_congr (removed.elsewhere location other)).trans held

end Stands

/-! ### Jobs -/

/-- The path of an output that is no device, goes over no link in an output directory and, if the
source is to be removed, leads to another file. -/
structure Apart (files : FileSystem) (preferences : Preferences) (source path : String) : Prop where
  noDevice : preferences.outputDirectory = none →
    ∀ location, files.status path ≠ .ok (location, .nullDevice)
  noLink : preferences.outputDirectory ≠ none → ∀ location text,
    files.resolve path .naming = .ok (.entry location) →
      files.lookup location ≠ some (.link text)
  noSource : removes preferences source = true → ∀ location entry other,
    files.status source = .ok (location, entry) → files.status path ≠ .ok (location, other)

/-- Where nothing may be replaced and no output directory is given, or the path is apart from the
source, what was stored stands, and the source led elsewhere. -/
theorem Stored.stands {written : Option String}
    (stores : Stored decoded preferences before stored written) (reported : written = some path)
    (safe : preferences.overwrite = false ∧ preferences.outputDirectory = none ∨
      Apart before preferences source path) :
    ∃ location, Stands before stored path location decoded.data ∧
      (removes preferences source = true → ∀ content reached entry,
        Reads before source content reached entry → reached ≠ location) := by
  have apart : ∀ location, Stands before stored path location decoded.data →
      Apart before preferences source path →
      removes preferences source = true → ∀ content reached entry,
        Reads before source content reached entry → reached ≠ location := by
    rintro location stands apart removing content _ entry reads rfl
    rcases stands.before with none | ⟨other, status⟩
    · cases none.symm.trans (FileSystem.status_eq_ok_iff.mp reads.status).2
    · exact apart.noSource removing _ _ _ reads.status status
  cases stores with
  | nothing => cases reported
  | device same plain allowed status =>
    cases reported
    rcases safe with ⟨careful, -⟩ | safe
    · cases allowed.symm.trans careful
    · exact absurd status (safe.noDevice plain _)
  | @opened _ location plain allowed opened =>
    cases reported
    refine ⟨location, opened.stands, ?_⟩
    rcases safe with ⟨careful, -⟩ | safe
    · -- Where nothing was before, no source was either.
      have absent := allowed.resolve_left (by rw [careful]; nofun)
      have nothing := FileSystem.kindAt_eq_none_iff.mp (opened.kindAt_eq_none absent)
      rintro - content _ entry reads rfl
      cases nothing.symm.trans (FileSystem.status_eq_ok_iff.mp reads.status).2
    · exact apart location opened.stands safe
  | @placed word directory name location under text isNamed inside placed =>
    cases reported
    have some : preferences.outputDirectory ≠ none := under.trans_ne nofun
    have safe := safe.resolve_left fun careful => some careful.2
    have stands := placed.stands (safe.noLink some)
    exact ⟨location, stands, apart location stands safe⟩

/-- What a job says it wrote holds its output when the job has run its course. -/
theorem Course.holds {world after : World} {report : Report} {content : Bytes}
    {dressed : FileSystem}
    (course :
      Course source destination preferences world after report content decoded stored dressed)
    (reported : report.written = some path)
    (safe : preferences.overwrite = false ∧ preferences.outputDirectory = none ∨
      Apart world.files preferences source path) :
    ∃ location file, after.files.regular? path = some (location, file) ∧
      file.content = decoded.data := by
  obtain ⟨location, stands, elsewhere⟩ := course.stores.stands reported safe
  have standing : after.files.resolve path .reading = .ok (.entry location) ∧
      after.files.contentAt location = some decoded.data := by
    have ends := course.ends
    by_cases removing : removes preferences source = true
    · rw [if_pos removing] at ends
      obtain ⟨gone, removed⟩ := ends
      obtain ⟨reached, entry, reads⟩ := course.exists_reads (standard_eq_false removing)
      exact stands.removed course.dresses reads (elsewhere removing _ _ _ reads) removed
    · rw [if_neg removing] at ends
      rw [ends]
      exact ⟨course.dresses.resolve stands.leads,
        (course.dresses.content location).trans stands.writes.held⟩
  obtain ⟨resolved, held⟩ := standing
  obtain ⟨file, found, content⟩ := FileSystem.contentAt_eq_some_iff.mp held
  have status := FileSystem.status_eq_ok_iff.mpr ⟨resolved, found⟩
  refine ⟨location, file, ?_, content⟩
  rw [FileSystem.regular?, status]

/-- **What a job says it wrote is there** when it is done, with the output of its source: always if
nothing may be replaced and no output directory is given, and otherwise if the path is apart from the
source. -/
theorem decompressFile_written {world after : World} {report : Report}
    (succeeds : Task.on (decompressFile source destination preferences) world = (.ok report, after))
    (reported : report.written = some path)
    (safe : preferences.overwrite = false ∧ preferences.outputDirectory = none ∨
      Apart world.files preferences source path) :
    ∃ content decoded location file, Gives world source content ∧
      decode preferences.format content preferences.options = .ok decoded ∧
      after.files.regular? path = some (location, file) ∧ file.content = decoded.data := by
  obtain ⟨content, decoded, stored, dressed, course⟩ :=
    (decompressFile_spec source destination preferences world).of_ok succeeds
  obtain ⟨location, file, found, holds⟩ := course.holds reported safe
  exact ⟨content, decoded, location, file, course.gives, course.decodes, found, holds⟩

/-! ### A stored byte -/

/-- A stream of one stored byte. -/
def letterStream : Bytes := [0x78, 0x9c, 1, 1, 0, 0xfe, 0xff, 0x61, 0, 0x62, 0, 0x62]

/-- What is decoded of the stream. -/
def letter : Decoded := ⟨[0x61], .zlib, 0x00620062, none, 12⟩

theorem decode_letterStream : decode none letterStream {} = .ok letter := by
  have valid : Zlib.Header.Valid 0x78 0x9c := ⟨by decide, by decide, by decide, by decide⟩
  have unset : ({} : Options).initialCapacity = none := rfl
  have complete : Deflate.inflate [1, 1, 0, 0xfe, 0xff, 0x61, 0, 0x62, 0, 0x62] =
      ([0x61], .complete [0, 0x62, 0, 0x62]) := by cbv
  have yields := Zlib.yields_conclusion valid unset complete (permits_default _)
  have same : decode none letterStream {} = Zlib.decode letterStream {} := rfl
  rw [same]
  exact yields.eq (by decide)

/-- A regular file whose bytes are given. -/
def plainFile (content : Bytes) : Entry := .file ⟨content, 0o644, 0⟩

/-- What a job that may replace files and removes its source is run with. -/
def forced : Preferences := { overwrite := true, removeSource := true }

/-- A job on the stored byte, by what its parts do. -/
theorem succeeds_letter {path : String} {files stored last : FileSystem}
    (reading : Task.Succeeds (readSource "x") files letterStream files)
    (storing : Task.Succeeds (store "x" path letter forced) files (some path) stored)
    (dressing : ∀ console, (copyStatus "x" path letter forced).run ⟨stored, console⟩ =
      ((), ⟨stored, console⟩))
    (removing : Task.Succeeds (removeSource "x") stored () last) :
    Task.Succeeds (decompressFile "x" path forced) files ⟨.zlib, 12, 1, some path⟩ last := by
  have removed : removes forced "x" = true := by decide
  refine succeeds_decompressFile reading decode_letterStream storing
    (fun console => ⟨console, dressing console⟩) ?_
  rw [if_pos removed]
  exact removing

/-- An output takes the place of a file other than its source, which is then removed. -/
theorem decompressFile_written_letter : ∃ world after report,
    world.files.entries = [(["x"], plainFile letterStream), (["y"], plainFile [0])] ∧
    Task.on (decompressFile "x" "y" forced) world = (.ok report, after) ∧
    report.written = some "y" ∧ Apart world.files forced "x" "y" ∧
    ∃ content decoded location file, Gives world "x" content ∧
      decode none content {} = .ok decoded ∧
      after.files.regular? "y" = some (location, file) ∧ file.content = decoded.data := by
  obtain ⟨files, isFiles⟩ : ∃ files : FileSystem,
    files = ⟨[(["x"], plainFile letterStream), (["y"], plainFile [0])], [], 0⟩ := ⟨_, rfl⟩
  obtain ⟨stored, isStored⟩ : ∃ stored : FileSystem,
    stored = ⟨[(["y"], plainFile [0x61]), (["x"], plainFile letterStream)], [], 0⟩ := ⟨_, rfl⟩
  have reading : Task.Succeeds (readSource "x") files letterStream files := by
    rw [isFiles]
    exact fun console => ⟨console, by cbv⟩
  have storing : Task.Succeeds (store "x" "y" letter forced) files (some "y") stored := by
    show Task.Succeeds (do writeDestination (.file "y") true [0x61]; return some "y") _ _ _
    rw [isFiles, isStored]
    exact fun console => ⟨console, by cbv⟩
  have dressing : ∀ console, (copyStatus "x" "y" letter forced).run ⟨stored, console⟩ =
      ((), ⟨stored, console⟩) := by
    rw [isStored]
    intro console
    cbv
  have removing : Task.Succeeds (removeSource "x") stored ()
      ⟨[(["y"], plainFile [0x61])], [], 0⟩ := by
    rw [isStored]
    exact fun console => ⟨console, by cbv⟩
  obtain ⟨shown, succeeds⟩ := succeeds_letter reading storing dressing removing {}
  have source : files.status "x" = .ok (["x"], plainFile letterStream) := by
    rw [isFiles]
    cbv
  have target : files.status "y" = .ok (["y"], plainFile [0]) := by
    rw [isFiles]
    cbv
  have apart : Apart files forced "x" "y" := by
    refine ⟨?_, ?_, ?_⟩
    · intro _ location status
      cases target.symm.trans status
    · intro some
      exact absurd rfl some
    · intro _ location entry other first second
      have places := congrArg (Except.map Prod.fst) (source.symm.trans first)
      have others := congrArg (Except.map Prod.fst) (target.symm.trans second)
      have same : (["x"] : Location) = ["y"] :=
        (Except.ok.inj places).trans (Except.ok.inj others).symm
      exact absurd same (by decide)
  exact ⟨⟨files, {}⟩, _, _, congrArg FileSystem.entries isFiles, succeeds, rfl, apart,
    decompressFile_written succeeds rfl (Or.inr apart)⟩

/-- **An output that is lost with its source**: a second spelling of the path of a source leads to the
source, which is first replaced by the output and then removed. -/
theorem decompressFile_lost : ∃ after report,
    Task.on (decompressFile "x" "./x" forced) ⟨⟨[(["x"], plainFile letterStream)], [], 0⟩, {}⟩ =
      (.ok report, after) ∧
    report.written = some "./x" ∧ after.files.regular? "./x" = none ∧ after.files.entries = [] := by
  obtain ⟨files, isFiles⟩ : ∃ files : FileSystem,
    files = ⟨[(["x"], plainFile letterStream)], [], 0⟩ := ⟨_, rfl⟩
  obtain ⟨stored, isStored⟩ : ∃ stored : FileSystem,
    stored = ⟨[(["x"], plainFile [0x61])], [], 0⟩ := ⟨_, rfl⟩
  have reading : Task.Succeeds (readSource "x") files letterStream files := by
    rw [isFiles]
    exact fun console => ⟨console, by cbv⟩
  have storing : Task.Succeeds (store "x" "./x" letter forced) files (some "./x") stored := by
    show Task.Succeeds (do writeDestination (.file "./x") true [0x61]; return some "./x") _ _ _
    rw [isFiles, isStored]
    exact fun console => ⟨console, by cbv⟩
  have dressing : ∀ console, (copyStatus "x" "./x" letter forced).run ⟨stored, console⟩ =
      ((), ⟨stored, console⟩) := by
    rw [isStored]
    intro console
    cbv
  have removing : Task.Succeeds (removeSource "x") stored () ⟨[], [], 0⟩ := by
    rw [isStored]
    exact fun console => ⟨console, by cbv⟩
  obtain ⟨shown, succeeds⟩ := succeeds_letter reading storing dressing removing {}
  rw [← isFiles]
  exact ⟨_, _, succeeds, rfl, by cbv, rfl⟩

end Inflate
