/-
**File systems that agree on some locations.**

What an operation does depends on the locations that its path asks for, and on nothing else. In two
file systems that agree on these it ends in the same way, and changes both in the same way.

* `Within`: a path that asks for shared locations only;
* `Agree.resolve_eq`, `Agree.status_eq`: a path within the shared locations leads to the same;
* `InStep`: two file systems that have changed in the same way at shared locations and nowhere else;
* `Agree.create_cases`, `Agree.remove_cases`, `Agree.setStatus_cases`: operations in step;
* `Agree.verdict_eq`: the same becomes of a writing into a directory.
-/

import Inflate.Proofs.FileSystem.Trail
import Inflate.Proofs.Persistence

namespace Inflate

namespace FileSystem

/-- The locations that a path asks for. -/
def Asks (files : FileSystem) (path : String) (purpose : Purpose) (place : Location) : Prop :=
  ComesBy files purpose maxLinks (files.origin path) (Path.segments path) place

/-- The locations that are asked for on the way to the last segment of a path. -/
def AsksBefore (files : FileSystem) (path : String) (place : Location) : Prop :=
  ComesBy files .reading maxLinks (files.origin path) ((Path.segments path).dropLast ++ ["."]) place

/-- A path that asks for shared locations only. -/
def Within (shared : Location → Prop) (files : FileSystem) (path : String) (purpose : Purpose) : Prop :=
  ∀ place, files.Asks path purpose place → shared place

/-- Two file systems with the same entries at shared locations. -/
structure Agree (shared : Location → Prop) (files later : FileSystem) : Prop where
  home : later.home = files.home
  clock : later.clock = files.clock
  lookup : ∀ place, shared place → later.lookup place = files.lookup place

/-- Two file systems with the same entries everywhere. -/
abbrev SameEntries (files later : FileSystem) : Prop := Agree (fun _ => True) files later

section Agreement

variable {shared : Location → Prop} {files later : FileSystem} {path : String} {purpose : Purpose}
  {target : Target} {location : Location}

/-! ### Paths -/

theorem Within.of_reading (within : Within shared files path .reading) (purpose : Purpose) :
    Within shared files path purpose :=
  fun place asks => within place asks.reading

/-- Where a location has gained a file, a path asks for nothing new. -/
theorem Within.of_gain {gained : Location} (gains : Gains files later gained)
    (within : Within shared files path purpose) : Within shared later path purpose := by
  have origin : later.origin path = files.origin path := by rw [origin, origin, gains.home]
  intro place asks
  unfold Asks at asks
  rw [origin] at asks
  refine within place (asks.of_stops fun place _ => ?_)
  by_cases here : place = gained
  · exact Or.inr (by rw [here, gains.file]; exact ⟨by decide, fun _ => by simp⟩)
  · exact Or.inl (gains.elsewhere place here)

/-- Where only times and modes differ, a path asks for the same. -/
theorem Within.of_sameContents (same : SameContents files later)
    (within : Within shared files path purpose) : Within shared later path purpose := by
  have origin : later.origin path = files.origin path := by rw [origin, origin, same.home]
  intro place asks
  unfold Asks at asks
  rw [origin] at asks
  exact within place (asks.of_stops fun place _ => Or.inl (same.kind place))

/-- A path within the shared locations leads to one of them. -/
theorem Within.place (within : Within shared files path purpose)
    (resolved : files.resolve path purpose = .ok target) : shared target.place :=
  within _ (resolve_eq_ok_iff.mp resolved).2.comesBy

namespace Agree

theorem refl (files : FileSystem) : Agree shared files files := ⟨rfl, rfl, fun _ _ => rfl⟩

theorem origin_eq (agree : Agree shared files later) (path : String) :
    later.origin path = files.origin path := by
  rw [origin, origin, agree.home]

/-- **A path within the shared locations** leads to the same. -/
theorem resolve_eq (agree : Agree shared files later) (within : Within shared files path purpose) :
    later.resolve path purpose = files.resolve path purpose := by
  unfold resolve
  rw [agree.origin_eq path, walk_congr fun place visits => agree.lookup place (within place visits)]

/-- A path that ends in undecodable bytes leads nowhere for the same reason. -/
theorem undecodable_eq (agree : Agree shared files later)
    (within : ∀ place, files.AsksBefore path place → shared place) (tail : Bytes) :
    later.undecodable path tail = files.undecodable path tail := by
  have walked := walk_congr fun place visits => agree.lookup place (within place visits)
  unfold undecodable
  simp only [agree.origin_eq path, walked]

theorem status_eq (agree : Agree shared files later) (within : Within shared files path .reading) :
    later.status path = files.status path := by
  unfold status
  rw [agree.resolve_eq within]
  cases resolved : files.resolve path .reading with
  | error errno => rfl
  | ok target =>
    cases target with
    | missing => rfl
    | entry location =>
      have same := agree.lookup location (within.place resolved)
      simp only [bind, Except.bind, same]

theorem directory?_eq (agree : Agree shared files later) (within : Within shared files path .reading) :
    later.directory? path = files.directory? path := by
  rw [directory?, directory?, agree.status_eq within]

theorem isDirectory_eq (agree : Agree shared files later)
    (within : Within shared files path .reading) : later.isDirectory path = files.isDirectory path := by
  rw [isDirectory, isDirectory, agree.directory?_eq within]

theorem regular?_eq (agree : Agree shared files later) (within : Within shared files path .reading) :
    later.regular? path = files.regular? path := by
  rw [regular?, regular?, agree.status_eq within]

theorem pathExists_eq (agree : Agree shared files later)
    (within : Within shared files path .reading) : later.pathExists path = files.pathExists path := by
  rw [pathExists, pathExists, agree.status_eq within]

theorem read_eq (agree : Agree shared files later) (within : Within shared files path .reading) :
    later.read path = files.read path := by
  rw [read, read, agree.status_eq within]

end Agree

/-! ### Changes in step -/

/-- Two file systems have changed in the same way at shared locations, and nowhere else. -/
structure InStep (shared : Location → Prop) (before other after last : FileSystem) : Prop where
  agree : Agree shared after last
  left : ∀ place, ¬shared place → after.lookup place = before.lookup place
  right : ∀ place, ¬shared place → last.lookup place = other.lookup place

theorem InStep.refl (agree : Agree shared files later) : InStep shared files later files later :=
  ⟨agree, fun _ _ => rfl, fun _ _ => rfl⟩

theorem InStep.trans {before other after last : FileSystem}
    (first : InStep shared before other files later) (second : InStep shared files later after last) :
    InStep shared before other after last where
  agree := second.agree
  left := fun place outside => (second.left place outside).trans (first.left place outside)
  right := fun place outside => (second.right place outside).trans (first.right place outside)

namespace Agree

variable (agree : Agree shared files later) (here : shared location) (below : location ≠ [])

include agree here below

theorem put (entry : Entry) :
    InStep shared files later (files.put location entry) (later.put location entry) := by
  have other : ∀ place, ¬shared place → place ≠ location := by
    rintro place outside rfl
    exact outside here
  refine ⟨⟨agree.home, agree.clock, fun place member => ?_⟩, fun place outside => ?_,
    fun place outside => ?_⟩
  · rw [lookup_put _ _ _ _ below, lookup_put _ _ _ _ below, agree.lookup place member]
  · rw [lookup_put _ _ _ _ below, if_neg (other place outside)]
  · rw [lookup_put _ _ _ _ below, if_neg (other place outside)]

theorem erase : InStep shared files later (files.erase location) (later.erase location) := by
  have other : ∀ place, ¬shared place → place ≠ location := by
    rintro place outside rfl
    exact outside here
  refine ⟨⟨agree.home, agree.clock, fun place member => ?_⟩, fun place outside => ?_,
    fun place outside => ?_⟩
  · rw [lookup_erase _ _ _ below, lookup_erase _ _ _ below, agree.lookup place member]
  · rw [lookup_erase _ _ _ below, if_neg (other place outside)]
  · rw [lookup_erase _ _ _ below, if_neg (other place outside)]

theorem withFile (mode : Nat) (data : Bytes) :
    InStep shared files later (files.withFile location mode data)
      (later.withFile location mode data) := by
  unfold FileSystem.withFile
  rw [agree.clock]
  exact agree.put here below _

end Agree

namespace Agree

variable (agree : Agree shared files later)

include agree

theorem appendAt (here : shared location) (data : Bytes) :
    InStep shared files later (files.appendAt location data) (later.appendAt location data) := by
  unfold FileSystem.appendAt
  rw [agree.lookup location here, agree.clock]
  split
  · next file found =>
    have outside : files.kindAt location ≠ some .directory := (kindAt_of_lookup found).trans_ne nofun
    exact agree.put here (ne_nil_of_kindAt outside) _
  · exact .refl agree

/-- **Opening a file** in step. -/
theorem create_cases (within : Within shared files path .reading) :
    (∃ errno, files.create path = .error errno ∧ later.create path = .error errno) ∨
    ∃ created other place, files.create path = .ok (created, place) ∧
      later.create path = .ok (other, place) ∧ InStep shared files later created other ∧
        ∀ location, place = some location → shared location := by
  unfold create
  rw [agree.resolve_eq (within.of_reading .writing)]
  cases resolved : files.resolve path .writing with
  | error errno => exact Or.inl ⟨errno, rfl, rfl⟩
  | ok target =>
    have here := (within.of_reading .writing).place resolved
    cases target with
    | missing location slash =>
      cases slash with
      | true => exact Or.inl ⟨_, rfl, rfl⟩
      | false =>
        have nothing := ((resolve_eq_ok_iff.mp resolved).2).kindAt_eq_none
        have below := ne_nil_of_kindAt (nothing.trans_ne nofun)
        refine Or.inr ⟨_, _, some location, rfl, rfl, ?_, ?_⟩
        · rw [agree.clock]
          exact agree.put here below _
        · rintro _ ⟨⟩
          exact here
    | entry location =>
      have same : later.lookup location = files.lookup location := agree.lookup location here
      simp only [bind, Except.bind, same]
      split
      · next file found =>
        have outside : files.kindAt location ≠ some .directory :=
          (kindAt_of_lookup found).trans_ne nofun
        split
        · refine Or.inr ⟨_, _, some location, rfl, rfl, ?_, ?_⟩
          · rw [agree.clock]
            exact agree.put here (ne_nil_of_kindAt outside) _
          · rintro _ ⟨⟩
            exact here
        · exact Or.inl ⟨_, rfl, rfl⟩
      · exact Or.inr ⟨_, _, none, rfl, rfl, .refl agree, nofun⟩
      · exact Or.inl ⟨_, rfl, rfl⟩

/-- **Removing a file** in step. -/
theorem remove_cases (within : Within shared files path .naming) :
    (∃ errno, files.remove path = .error errno ∧ later.remove path = .error errno) ∨
    ∃ left other, files.remove path = .ok left ∧ later.remove path = .ok other ∧
      InStep shared files later left other := by
  unfold remove
  rw [agree.resolve_eq within]
  cases resolved : files.resolve path .naming with
  | error errno => exact Or.inl ⟨errno, rfl, rfl⟩
  | ok target =>
    cases target with
    | missing => exact Or.inl ⟨_, rfl, rfl⟩
    | entry location =>
      have here : shared location := within.place resolved
      have same := isDirectoryAt_congr (agree.lookup location here)
      simp only [bind, Except.bind, same]
      split
      · exact Or.inl ⟨_, rfl, rfl⟩
      · next file =>
        have outside := kindAt_ne_directory (Bool.not_eq_true _ ▸ file)
        exact Or.inr ⟨_, _, rfl, rfl, agree.erase here (ne_nil_of_kindAt outside)⟩

/-- **Setting a time and a mode** in step. -/
theorem setStatus_cases (within : Within shared files path .reading) (mtime : Int) (mode : Nat) :
    (∃ error, files.setStatus path mtime mode = .error error ∧
      later.setStatus path mtime mode = .error error) ∨
    ∃ changed other, files.setStatus path mtime mode = .ok changed ∧
      later.setStatus path mtime mode = .ok other ∧ InStep shared files later changed other := by
  unfold setStatus
  rw [agree.regular?_eq within]
  split
  · next location file regular =>
    split
    · obtain ⟨leads, found⟩ := regular?_eq_some_iff.mp regular
      have outside : files.kindAt location ≠ some .directory :=
        (kindAt_of_lookup found).trans_ne nofun
      have here : shared location := within.place leads
      exact Or.inr ⟨_, _, rfl, rfl, agree.put here (ne_nil_of_kindAt outside) _⟩
    · exact Or.inl ⟨_, rfl, rfl⟩
  · exact Or.inl ⟨_, rfl, rfl⟩

end Agree

/-! ### Writings into a directory -/

open Persistence (Call landing)

/-- A file lands at the same location. -/
theorem Agree.landing_eq (agree : Agree shared files later)
    (within : Within shared files path .naming) : landing later path = landing files path := by
  unfold landing
  rw [agree.resolve_eq within]
  rcases resolved : files.resolve path .naming with errno | location | ⟨location, slash⟩
  · cases errno <;> rfl
  · have here : shared location := within.place resolved
    simp only [isDirectoryAt_congr (agree.lookup location here)]
  · cases slash <;> rfl

/-- **The same becomes of a writing.** -/
theorem Agree.verdict_eq {call : Call} (agree : Agree shared files later)
    (directory : Within shared files call.directory .reading)
    (output : Within shared files call.path .naming) : call.verdict later = call.verdict files := by
  unfold Call.verdict
  rw [agree.status_eq directory, agree.landing_eq output]

end Agreement

end FileSystem

end Inflate
