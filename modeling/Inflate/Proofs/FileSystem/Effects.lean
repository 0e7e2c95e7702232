/-
**What operations do to files.**

* `resolve_eq_ok_iff`: the paths that lead somewhere;
* `resolve_before_fill`: where a path led before files came to stand at some locations;
* `Writes`: an output at one location, all else as before;
* `create_spec`, `setStatus_spec`, `remove_spec`: opening, dressing and removing a file;
* `Removed.resolve`: removing what one path names leaves the paths to other files alone.
-/

import Inflate.Proofs.FileSystem.Change

namespace Inflate

namespace FileSystem

variable {files later : FileSystem} {path : String} {purpose : Purpose} {target : Target}
  {location : Location}

/-! ### Paths -/

/-- A path that a walk begins with. -/
structure Usable (path : String) : Prop where
  noNul : ¬path.toList.contains '\x00'
  nonempty : path ≠ ""
  short : path.utf8ByteSize ≤ maxPathSize

/-- **The paths that lead somewhere** are the usable ones whose walk does. -/
theorem resolve_eq_ok_iff : files.resolve path purpose = .ok target ↔
    Usable path ∧ Leads files purpose maxLinks (files.origin path) (Path.segments path) target := by
  rw [← walk_eq_ok_iff]
  unfold resolve
  constructor
  · intro resolved
    split at resolved
    · cases resolved
    · next noNul =>
      split at resolved
      · cases resolved
      · next nonempty =>
        split at resolved
        · cases resolved
        · next short => exact ⟨⟨noNul, nonempty, Nat.not_lt.mp short⟩, resolved⟩
  · rintro ⟨usable, walked⟩
    rw [if_neg usable.noNul, if_neg usable.nonempty, if_neg (Nat.not_lt.mpr usable.short)]
    exact walked

/-- A path leads to the same in two file systems if its walks do. -/
theorem resolve_of_leads {other : Purpose} {result : Target} (home : later.home = files.home)
    (leads : ∀ location segments, Leads files purpose maxLinks location segments target →
      Leads later other maxLinks location segments result)
    (resolved : files.resolve path purpose = .ok target) : later.resolve path other = .ok result := by
  obtain ⟨usable, led⟩ := resolve_eq_ok_iff.mp resolved
  have origin : later.origin path = files.origin path := by rw [origin, origin, home]
  refine resolve_eq_ok_iff.mpr ⟨usable, ?_⟩
  rw [origin]
  exact leads _ _ led

/-- **Where a path leads now** it led before, or it leads to a file. For naming, this file stands where
nothing was. -/
theorem resolve_before_fill (fills : Fills files later)
    (resolved : later.resolve path purpose = .ok target) :
    files.resolve path purpose = .ok target ∨
      ∃ reached, target = .entry reached ∧ later.kindAt reached = some .file ∧
        (files.kindAt reached = none ∧
          files.resolve path purpose = .ok (.missing reached false) ∨ purpose ≠ .naming) := by
  obtain ⟨usable, led⟩ := resolve_eq_ok_iff.mp resolved
  have origin : later.origin path = files.origin path := by rw [origin, origin, fills.home]
  rw [origin] at led
  refine (led.before_fill fills).imp (fun leads => resolve_eq_ok_iff.mpr ⟨usable, leads⟩) ?_
  exact fun ⟨reached, same, file, cause⟩ => ⟨reached, same, file,
    cause.imp_left (And.imp_right fun leads => resolve_eq_ok_iff.mpr ⟨usable, leads⟩)⟩

/-- What a path names after a location has gained a file it named before, or it names the new file
where nothing was. -/
theorem resolve_before_gain {gained : Location} (gains : Gains files later gained)
    (before : files.kindAt gained ≠ some .directory)
    (resolved : later.resolve path .naming = .ok target) :
    files.resolve path .naming = .ok target ∨
      target = .entry gained ∧ files.kindAt gained = none ∧
        files.resolve path .naming = .ok (.missing gained false) := by
  refine (resolve_before_fill (gains.fills before) resolved).imp_right ?_
  rintro ⟨reached, rfl, file, ⟨nothing, missed⟩ | other⟩
  · by_cases here : reached = gained
    · exact here ▸ ⟨rfl, nothing, missed⟩
    · rw [gains.elsewhere reached here, nothing] at file
      cases file
  · exact absurd rfl other

theorem status_eq_ok_iff {entry : Entry} : files.status path = .ok (location, entry) ↔
    files.resolve path .reading = .ok (.entry location) ∧ files.lookup location = some entry := by
  unfold status
  simp only [bind, Except.bind]
  cases files.resolve path .reading with
  | error errno =>
    constructor
    · rintro ⟨⟩
    · rintro ⟨⟨⟩, -⟩
  | ok target =>
    cases target with
    | missing =>
      constructor
      · rintro ⟨⟩
      · rintro ⟨⟨⟩, -⟩
    | entry reached =>
      cases found : files.lookup reached with
      | none =>
        constructor
        · rintro failed
          simp only [found] at failed
          cases failed
        · rintro ⟨⟨⟩, other⟩
          cases found.symm.trans other
      | some other =>
        simp only [found]
        constructor
        · rintro ⟨⟩
          exact ⟨rfl, found⟩
        · rintro ⟨⟨⟩, same⟩
          cases found.symm.trans same
          rfl

theorem regular?_eq_some_iff {file : RegularFile} : files.regular? path = some (location, file) ↔
    files.resolve path .reading = .ok (.entry location) ∧
      files.lookup location = some (.file file) := by
  rw [← status_eq_ok_iff]
  unfold regular?
  constructor
  · intro regular
    split at regular
    · next status =>
      cases regular
      exact status
    · cases regular
  · intro status
    rw [status]

/-! ### Contents -/

/-- The content of the regular file at a location. -/
def contentAt (files : FileSystem) (location : Location) : Option Bytes :=
  match files.lookup location with
  | some (.file file) => some file.content
  | _ => none

theorem contentAt_of_lookup {file : RegularFile} (found : files.lookup location = some (.file file)) :
    files.contentAt location = some file.content := by
  rw [contentAt, found]

theorem contentAt_eq_some_iff {content : Bytes} : files.contentAt location = some content ↔
    ∃ file, files.lookup location = some (.file file) ∧ file.content = content := by
  constructor
  · intro held
    unfold contentAt at held
    split at held
    · next file found => exact ⟨file, found, Option.some.inj held⟩
    · cases held
  · rintro ⟨file, found, rfl⟩
    exact contentAt_of_lookup found

theorem contentAt_congr (same : later.lookup location = files.lookup location) :
    later.contentAt location = files.contentAt location := by
  rw [contentAt, contentAt, same]

theorem kindAt_congr (same : later.lookup location = files.lookup location) :
    later.kindAt location = files.kindAt location := by
  rw [kindAt, kindAt, same]

/-- Where content is, there is a file. -/
theorem kindAt_of_contentAt {content : Bytes} (held : files.contentAt location = some content) :
    files.kindAt location = some .file := by
  obtain ⟨file, found, -⟩ := contentAt_eq_some_iff.mp held
  exact kindAt_of_lookup found

/-- Where something other than a directory can stand. -/
theorem ne_nil_of_kindAt (outside : files.kindAt location ≠ some .directory) : location ≠ [] := by
  rintro rfl
  exact outside (kindAt_nil files)

/-! ### Outputs -/

/-- An output has been written to a location, and all else is as before. -/
structure Writes (files later : FileSystem) (location : Location) (data : Bytes) : Prop where
  home : later.home = files.home
  clock : later.clock = files.clock
  elsewhere : ∀ other, other ≠ location → later.lookup other = files.lookup other
  held : later.contentAt location = some data

section Writes

variable {data : Bytes}

theorem Writes.gains (writes : Writes files later location data) : Gains files later location where
  home := writes.home
  elsewhere := fun other different => kindAt_congr (writes.elsewhere other different)
  file := kindAt_of_contentAt writes.held

theorem writes_put (file : RegularFile) (outside : files.kindAt location ≠ some .directory) :
    Writes files (files.put location (.file file)) location file.content where
  home := rfl
  clock := rfl
  elsewhere := fun other different => by
    rw [lookup_put _ _ _ _ (ne_nil_of_kindAt outside), if_neg different]
  held := by
    refine contentAt_of_lookup ?_
    rw [lookup_put _ _ _ _ (ne_nil_of_kindAt outside), if_pos rfl]

/-- What is written twice to one location is as written the second time. -/
theorem Writes.trans {last : FileSystem} {more : Bytes} (first : Writes files later location data)
    (second : Writes later last location more) : Writes files last location more where
  home := second.home.trans first.home
  clock := second.clock.trans first.clock
  elsewhere := fun other different =>
    (second.elsewhere other different).trans (first.elsewhere other different)
  held := second.held

/-- Bytes are added to what a location holds. -/
theorem writes_appendAt (held : files.contentAt location = some data) (more : Bytes) :
    Writes files (files.appendAt location more) location (data ++ more) := by
  obtain ⟨file, found, rfl⟩ := contentAt_eq_some_iff.mp held
  have outside : files.kindAt location ≠ some .directory :=
    (kindAt_of_lookup found).trans_ne nofun
  unfold appendAt
  rw [found]
  exact writes_put _ outside

/-- What is put at a location twice is as put the second time. -/
theorem put_put (files : FileSystem) (location : Location) (first second : Entry) :
    (files.put location first).put location second = files.put location second := by
  simp [put, List.filter_filter]

/-- What is put where nothing was can be taken away again. -/
theorem erase_put {entry : Entry} (free : files.lookup location = none) :
    (files.put location entry).erase location = files := by
  have below : location ≠ [] := by
    rintro rfl
    cases free
  unfold lookup at free
  rw [if_neg below, List.lookup_eq_none_iff] at free
  have whole : files.entries.filter (fun other => other.1 != location) = files.entries := by
    refine List.filter_eq_self.mpr fun other member => ?_
    rw [bne_comm]
    exact free other member
  simp [erase, put, whole]

/-- The files with a regular file at a location, which holds some bytes and is written now. -/
def withFile (files : FileSystem) (location : Location) (mode : Nat) (data : Bytes) : FileSystem :=
  files.put location (.file ⟨data, mode, files.clock⟩)

theorem lookup_withFile (outside : files.kindAt location ≠ some .directory) (mode : Nat)
    (other : Location) : (files.withFile location mode data).lookup other =
      if other = location then some (.file ⟨data, mode, files.clock⟩) else files.lookup other :=
  lookup_put _ _ _ _ (ne_nil_of_kindAt outside)

theorem writes_withFile (outside : files.kindAt location ≠ some .directory) (mode : Nat)
    (data : Bytes) : Writes files (files.withFile location mode data) location data :=
  writes_put _ outside

/-- Bytes are added to a file that was written. -/
theorem appendAt_withFile (outside : files.kindAt location ≠ some .directory) (mode : Nat)
    (more : Bytes) : (files.withFile location mode data).appendAt location more =
      files.withFile location mode (data ++ more) := by
  unfold appendAt
  rw [lookup_withFile outside, if_pos rfl]
  exact put_put _ _ _ _

/-- A file that was written gets another mode. -/
theorem grantAt_withFile (outside : files.kindAt location ≠ some .directory) (mode other : Nat) :
    (files.withFile location mode data).grantAt location other =
      files.withFile location other data := by
  unfold grantAt
  rw [lookup_withFile outside, if_pos rfl]
  exact put_put _ _ _ _

/-- A file that was written where nothing was is moved, and leaves nothing behind. -/
theorem move_withFile (free : files.lookup location = none) (mode : Nat) (target : Location) :
    (files.withFile location mode data).move location target = files.withFile target mode data := by
  have outside : files.kindAt location ≠ some .directory :=
    (kindAt_eq_none_iff.mpr free).trans_ne nofun
  unfold move
  rw [lookup_withFile outside, if_pos rfl]
  simp only [withFile, erase_put free]

end Writes

/-! ### Opening -/

/-- A file that was opened for writing holds what was written since, and its path leads to it. It was
a file before, to which the path led already, or nothing where the path would lead. -/
structure Opened (files later : FileSystem) (path : String) (location : Location) (data : Bytes) :
    Prop where
  writes : Writes files later location data
  before : files.kindAt location = none ∨
    ∃ file, files.status path = .ok (location, .file file)
  aims : files.resolve path .reading = .ok (.entry location) ∨
    files.resolve path .reading = .ok (.missing location false)
  leads : later.resolve path .reading = .ok (.entry location)

/-- **What opening a file for writing does**: nothing if its path leads to the null device. -/
theorem create_spec {place : Option Location} (created : files.create path = .ok (later, place)) :
    (place = none ∧ later = files ∧ ∃ device, files.status path = .ok (device, .nullDevice)) ∨
      ∃ location, place = some location ∧ Opened files later path location [] := by
  unfold create at created
  cases resolved : files.resolve path .writing with
  | error errno =>
    rw [resolved] at created
    cases created
  | ok target =>
    have notNaming : Purpose.writing = .naming → ∀ last text, target = .entry last →
        files.kindAt last ≠ some (.link text) := nofun
    have reads := resolve_of_leads rfl (fun _ _ leads => Leads.reading leads notNaming) resolved
    rw [resolved] at created
    cases target with
    | missing location slash =>
      cases slash with
      | true => cases created
      | false =>
        cases created
        have nothing := ((resolve_eq_ok_iff.mp resolved).2).kindAt_eq_none
        have outside : files.kindAt location ≠ some .directory := nothing.trans_ne nofun
        have writes := writes_put ⟨[], newFileMode, files.clock⟩ outside
        refine Or.inr ⟨location, rfl, writes, Or.inl nothing, Or.inr reads, ?_⟩
        exact resolve_of_leads writes.home (fun _ _ leads => leads.of_gain_missing writes.gains) reads
    | entry location =>
      simp only [bind, Except.bind] at created
      split at created
      · next file found =>
        split at created
        · cases created
          have kind : files.kindAt location = some .file := kindAt_of_lookup found
          have outside : files.kindAt location ≠ some .directory := kind.trans_ne nofun
          have solid : ∀ text, files.kindAt location ≠ some (.link text) :=
            fun _ => kind.trans_ne nofun
          have writes := writes_put ⟨[], modeAfterWriting file.mode, files.clock⟩ outside
          refine Or.inr ⟨location, rfl, writes, ?_, Or.inl reads, ?_⟩
          · exact Or.inr ⟨file, status_eq_ok_iff.mpr ⟨reads, found⟩⟩
          · exact resolve_of_leads writes.home
              (fun _ _ leads => leads.of_gain writes.gains outside solid) reads
        · cases created
      · next found =>
        cases created
        exact Or.inl ⟨rfl, rfl, location, status_eq_ok_iff.mpr ⟨reads, found⟩⟩
      · cases created

namespace Opened

variable {data : Bytes}

/-- What is opened was no directory, link or device. -/
theorem kindAt_ne (opened : Opened files later path location data) {kind : Kind}
    (other : kind ≠ .file) : files.kindAt location ≠ some kind := by
  rcases opened.before with nothing | ⟨file, status⟩
  · exact nothing.trans_ne nofun
  · have found : files.kindAt location = some .file :=
      kindAt_of_lookup (status_eq_ok_iff.mp status).2
    exact found.trans_ne fun same => other (Option.some.inj same).symm

/-- A path that led to nothing leads to a new file. -/
theorem kindAt_eq_none (opened : Opened files later path location data)
    (absent : files.pathExists path = false) : files.kindAt location = none := by
  refine opened.before.resolve_right ?_
  rintro ⟨file, status⟩
  rw [pathExists, status] at absent
  cases absent

/-- What is written to an open file is added to it. -/
theorem append (opened : Opened files later path location data) (more : Bytes) :
    Opened files (later.appendAt location more) path location (data ++ more) where
  writes := opened.writes.trans (writes_appendAt opened.writes.held more)
  before := opened.before
  aims := opened.aims
  leads := by
    have writes := writes_appendAt opened.writes.held more
    have kind := opened.writes.gains.file
    have outside : later.kindAt location ≠ some .directory := kind.trans_ne nofun
    have solid : ∀ text, later.kindAt location ≠ some (.link text) := fun _ => kind.trans_ne nofun
    exact resolve_of_leads writes.home
      (fun _ _ leads => leads.of_gain writes.gains outside solid) opened.leads

end Opened

/-! ### Times and modes -/

/-- No more than times and modes differ. -/
structure SameContents (files later : FileSystem) : Prop where
  home : later.home = files.home
  clock : later.clock = files.clock
  kind : ∀ location, later.kindAt location = files.kindAt location
  content : ∀ location, later.contentAt location = files.contentAt location

theorem SameContents.refl (files : FileSystem) : SameContents files files :=
  ⟨rfl, rfl, fun _ => rfl, fun _ => rfl⟩

/-- Paths lead where they led. -/
theorem SameContents.resolve (same : SameContents files later)
    (resolved : files.resolve path purpose = .ok target) :
    later.resolve path purpose = .ok target :=
  resolve_of_leads same.home (fun _ _ leads => leads.of_same same.kind) resolved

theorem SameContents.symm (same : SameContents files later) : SameContents later files :=
  ⟨same.home.symm, same.clock.symm, fun location => (same.kind location).symm,
    fun location => (same.content location).symm⟩

/-- **Setting a time and a mode** changes no kind and no content, and nothing but what the path leads
to. -/
theorem setStatus_spec {mtime : Int} {mode : Nat} (set : files.setStatus path mtime mode = .ok later) :
    SameContents files later ∧ ∀ location, later.lookup location ≠ files.lookup location →
      files.resolve path .reading = .ok (.entry location) := by
  unfold setStatus at set
  split at set
  · next place file regular =>
    split at set
    · cases set
      obtain ⟨leads, found⟩ := regular?_eq_some_iff.mp regular
      have kind : files.kindAt place = some .file := kindAt_of_lookup found
      have outside : files.kindAt place ≠ some .directory := kind.trans_ne nofun
      have writes := writes_put ⟨file.content, modeBits mode, mtime⟩ outside
      refine ⟨⟨rfl, rfl, ?_, ?_⟩, ?_⟩
      · intro location
        by_cases here : location = place
        · subst here
          exact writes.gains.file.trans kind.symm
        · exact writes.gains.elsewhere location here
      · intro location
        by_cases here : location = place
        · subst here
          exact writes.held.trans (contentAt_of_lookup found).symm
        · exact contentAt_congr (writes.elsewhere location here)
      · intro location changed
        by_cases here : location = place
        · exact here ▸ leads
        · exact absurd (writes.elsewhere location here) changed
    · cases set
  · cases set

/-! ### Removing -/

/-- The entry that a path names has been removed, and all else is as before. -/
structure Removed (files later : FileSystem) (path : String) (gone : Location) : Prop where
  home : later.home = files.home
  clock : later.clock = files.clock
  elsewhere : ∀ other, other ≠ gone → later.lookup other = files.lookup other
  names : files.resolve path .naming = .ok (.entry gone)
  empty : later.lookup gone = none
  outside : files.kindAt gone ≠ some .directory

/-- **What removing a file does.** -/
theorem remove_spec (removed : files.remove path = .ok later) :
    ∃ gone, Removed files later path gone := by
  unfold remove at removed
  cases resolved : files.resolve path .naming with
  | error errno =>
    rw [resolved] at removed
    cases removed
  | ok target =>
    rw [resolved] at removed
    cases target with
    | missing => cases removed
    | entry gone =>
      simp only [bind, Except.bind] at removed
      split at removed
      · cases removed
      · next file =>
        cases removed
        have outside := kindAt_ne_directory (Bool.not_eq_true _ ▸ file)
        refine ⟨gone, rfl, rfl, ?_, resolved, ?_, outside⟩
        · intro other different
          rw [lookup_erase _ _ _ (ne_nil_of_kindAt outside), if_neg different]
        · rw [lookup_erase _ _ _ (ne_nil_of_kindAt outside), if_pos rfl]

/-- **Removing what one path names** leaves the paths to other files alone. -/
theorem Removed.resolve {gone reached other : Location} {source : String}
    (removed : Removed files later source gone)
    (reads : files.resolve source .reading = .ok (.entry reached)) {kind : Kind}
    (found : files.kindAt reached = some kind) (file : kind ≠ .directory)
    (solid : ∀ text, kind ≠ .link text) (different : other ≠ reached)
    (leads : files.resolve path .reading = .ok (.entry other)) :
    later.resolve path .reading = .ok (.entry other) := by
  have named := (resolve_eq_ok_iff.mp removed.names).2
  have read := (resolve_eq_ok_iff.mp reads).2
  have all := named.allLeadTo read found file solid
  have same : ∀ location, location ≠ gone → later.kindAt location = files.kindAt location :=
    fun location other => kindAt_congr (removed.elsewhere location other)
  exact resolve_of_leads removed.home
    (fun _ _ leads => leads.erase same removed.outside all different) leads

end FileSystem

end Inflate
