/-
**Walks in a file system that has changed.**

A walk only asks for the kinds of the entries it comes by, so it is the same as long as these are. A
new regular file at one location is met by the walks that end there and stops those that would go on.
A name that is removed is only missed by walks that come by it; and these lead to what that name leads
to, be it a file or a link to one, so they are no walks to any other file.

* `Leads.of_same`: kinds that are the same;
* `Fills`: regular files at some locations, all else as before;
* `Leads.before_fill`: where a walk led before;
* `Gains`: a regular file at one location, all else as before;
* `Leads.of_gain`, `Leads.of_gain_missing`: walks after a location has gained a file;
* `Leads.allLeadTo`, `Leads.erase`: walks that come by a name, and those left when it is removed.
-/

import Inflate.Proofs.FileSystem.Walk

namespace Inflate

namespace FileSystem

variable {files later : FileSystem} {purpose : Purpose} {links : Nat} {location : Location}
  {segments : List String} {target : Target}

/-! ### Purposes -/

/-- Reading takes the same walk, unless it stopped at a link. -/
theorem Leads.reading (leads : Leads files purpose links location segments target)
    (solid : purpose = .naming → ∀ last text, target = .entry last →
      files.kindAt last ≠ some (.link text)) :
    Leads files .reading links location segments target := by
  induction leads with
  | arrive links location => exact .arrive links location
  | stay inside idle _ ih => exact .stay inside idle (ih solid)
  | up inside _ ih => exact .up inside (ih solid)
  | missing links inside name nothing last => exact .missing links inside (name.reading _) nothing last
  | stop links inside name found naming => exact absurd found (solid naming _ _ rfl)
  | follow inside name found through _ ih =>
    exact .follow inside (name.reading _) found nofun (ih solid)
  | enter inside name found kind _ ih => exact .enter inside (name.reading _) found kind (ih solid)

/-- A path that leads to an entry names that entry, or a link that leads to it. -/
theorem Leads.naming {last reached : Location} {budget : Nat}
    (leads : Leads files .naming links location segments (.entry last))
    (reads : Leads files .reading budget location segments (.entry reached)) :
    last = reached ∨ ∃ text fewer, files.kindAt last = some (.link text) ∧
      Leads files .reading fewer (afterLink last.dropLast text) (Path.segments text)
        (.entry reached) := by
  generalize same : Target.entry last = target at leads
  induction leads generalizing budget with
  | arrive links location =>
    cases same
    cases reads
    exact Or.inl rfl
  | stay inside idle _ ih => exact ih (reads.of_stay idle) same
  | up inside _ ih => exact ih reads.of_up same
  | missing => cases same
  | stop links inside name found naming =>
    cases same
    obtain ⟨fewer, on⟩ := reads.of_follow (name.reading _) found nofun
    rw [List.append_nil] at on
    rw [List.dropLast_concat]
    exact Or.inr ⟨_, fewer, found, on⟩
  | follow inside name found through _ ih =>
    obtain ⟨fewer, on⟩ := reads.of_follow (name.reading _) found nofun
    exact ih on same
  | enter inside name found solid _ ih => exact ih (reads.of_enter (name.reading _) found solid) same

/-- A path that leads to an entry names one. -/
theorem Leads.exists_naming {reached : Location}
    (reads : Leads files .reading links location segments (.entry reached)) :
    ∃ last, Leads files .naming links location segments (.entry last) := by
  generalize same : Target.entry reached = target at reads
  induction reads with
  | arrive links location => exact ⟨location, .arrive links location⟩
  | stay inside idle _ ih =>
    obtain ⟨last, leads⟩ := ih same
    exact ⟨last, .stay inside idle leads⟩
  | up inside _ ih =>
    obtain ⟨last, leads⟩ := ih same
    exact ⟨last, .up inside leads⟩
  | missing => cases same
  | stop _ _ _ _ naming => cases naming
  | @follow links location segment text rest _ inside name found _ _ ih =>
    by_cases last : rest = []
    · subst last
      exact ⟨_, .stop (links + 1) inside (name.of_ne_writing (by decide) _) found rfl⟩
    · obtain ⟨named, leads⟩ := ih same
      refine ⟨named, .follow inside (name.of_ne_writing (by decide) _) found ?_ leads⟩
      exact fun stops => last stops.1
  | enter inside name found solid _ ih =>
    obtain ⟨last, leads⟩ := ih same
    exact ⟨last, .enter inside (name.of_ne_writing (by decide) _) found solid leads⟩

/-- Nothing stands where an entry is missing. -/
theorem Leads.kindAt_eq_none {missed : Location} {slash : Bool}
    (leads : Leads files purpose links location segments (.missing missed slash)) :
    files.kindAt missed = none := by
  generalize same : Target.missing missed slash = target at leads
  induction leads with
  | arrive | stop => cases same
  | stay _ _ _ ih | up _ _ ih | follow _ _ _ _ _ ih | enter _ _ _ _ _ ih => exact ih same
  | missing _ _ _ nothing =>
    cases same
    exact nothing

/-! ### Kinds that are the same -/

theorem Leads.of_same (leads : Leads files purpose links location segments target)
    (same : ∀ location, later.kindAt location = files.kindAt location) :
    Leads later purpose links location segments target := by
  induction leads with
  | arrive links location => exact .arrive links location
  | stay inside idle _ ih => exact .stay ((same _).trans inside) idle ih
  | up inside _ ih => exact .up ((same _).trans inside) ih
  | missing links inside name nothing last =>
    exact .missing links ((same _).trans inside) name ((same _).trans nothing) last
  | stop links inside name found naming =>
    exact .stop links ((same _).trans inside) name ((same _).trans found) naming
  | follow inside name found through _ ih =>
    exact .follow ((same _).trans inside) name ((same _).trans found) through ih
  | enter inside name found solid _ ih =>
    exact .enter ((same _).trans inside) name ((same _).trans found) solid ih

/-! ### Locations where files have come to stand -/

/-- Regular files stand at some locations where no directory was, and all else is as before. -/
structure Fills (files later : FileSystem) : Prop where
  home : later.home = files.home
  kind : ∀ location, later.kindAt location = files.kindAt location ∨
    later.kindAt location = some .file ∧ files.kindAt location ≠ some .directory

section Fills

/-- What is no file now is as it was. -/
theorem Fills.unchanged (fills : Fills files later) {kind : Option Kind}
    (found : later.kindAt location = kind) (other : kind ≠ some .file) :
    files.kindAt location = kind := by
  rcases fills.kind location with same | ⟨file, -⟩
  · exact same.symm.trans found
  · exact absurd (found.symm.trans file) other

/-- Directories are where they were. -/
theorem Fills.directory (fills : Fills files later) (location : Location) :
    later.kindAt location = some .directory ↔ files.kindAt location = some .directory := by
  rcases fills.kind location with same | ⟨file, outside⟩
  · rw [same]
  · rw [file]
    exact ⟨nofun, fun inside => absurd inside outside⟩

/-- **Where a walk leads now** it led before, or it leads to a file. For naming, this file stands where
nothing was. -/
theorem Leads.before_fill (fills : Fills files later)
    (leads : Leads later purpose links location segments target) :
    Leads files purpose links location segments target ∨
      ∃ reached, target = .entry reached ∧ later.kindAt reached = some .file ∧
        (files.kindAt reached = none ∧
          Leads files purpose links location segments (.missing reached false) ∨
            purpose ≠ .naming) := by
  induction leads with
  | arrive links location => exact Or.inl (.arrive links location)
  | stay inside idle _ ih =>
    have inside := fills.unchanged inside nofun
    refine ih.imp (fun leads => .stay inside idle leads) ?_
    exact fun ⟨reached, same, file, cause⟩ => ⟨reached, same, file,
      cause.imp_left (And.imp_right fun leads => .stay inside idle leads)⟩
  | up inside _ ih =>
    have inside := fills.unchanged inside nofun
    refine ih.imp (fun leads => .up inside leads) ?_
    exact fun ⟨reached, same, file, cause⟩ => ⟨reached, same, file,
      cause.imp_left (And.imp_right fun leads => .up inside leads)⟩
  | missing links inside name nothing last =>
    have inside := fills.unchanged inside nofun
    exact Or.inl (.missing links inside name (fills.unchanged nothing nofun) last)
  | stop links inside name found naming =>
    have inside := fills.unchanged inside nofun
    exact Or.inl (.stop links inside name (fills.unchanged found nofun) naming)
  | follow inside name found through _ ih =>
    have inside := fills.unchanged inside nofun
    have found := fills.unchanged found nofun
    refine ih.imp (fun leads => .follow inside name found through leads) ?_
    exact fun ⟨reached, same, file, cause⟩ => ⟨reached, same, file,
      cause.imp_left (And.imp_right fun leads => .follow inside name found through leads)⟩
  | @enter links location segment kind rest target inside name found solid on ih =>
    have inside := fills.unchanged inside nofun
    rcases fills.kind (location ++ [segment]) with same | ⟨file, before⟩
    · have found := same.symm.trans found
      refine ih.imp (fun leads => .enter inside name found solid leads) ?_
      exact fun ⟨reached, same, file, cause⟩ => ⟨reached, same, file,
        cause.imp_left (And.imp_right fun leads => .enter inside name found solid leads)⟩
    · -- Behind a file there is no way on, so the walk ends at it.
      obtain ⟨rfl, rfl⟩ := on.eq_of_outside (file.trans_ne nofun)
      cases was : files.kindAt (location ++ [segment]) with
      | none =>
        have missing := Leads.missing links inside name was (Or.inl rfl)
        exact Or.inr ⟨_, rfl, file, Or.inl ⟨was, missing⟩⟩
      | some kind =>
        cases kind with
        | directory => exact absurd was before
        | file | nullDevice =>
          exact Or.inl (.enter inside name was (fun _ => nofun) (.arrive links _))
        | link text =>
          by_cases naming : purpose = .naming
          · exact Or.inl (.stop links inside name was naming)
          · exact Or.inr ⟨_, rfl, file, Or.inr naming⟩

end Fills

/-! ### A location that gains a file -/

/-- A regular file stands at one location, and all else is as before. -/
structure Gains (files later : FileSystem) (gained : Location) : Prop where
  home : later.home = files.home
  elsewhere : ∀ location, location ≠ gained → later.kindAt location = files.kindAt location
  file : later.kindAt gained = some .file

section Gains

variable {gained : Location}

theorem Gains.fills (gains : Gains files later gained)
    (before : files.kindAt gained ≠ some .directory) : Fills files later where
  home := gains.home
  kind := by
    intro location
    by_cases here : location = gained
    · subst here
      exact Or.inr ⟨gains.file, before⟩
    · exact Or.inl (gains.elsewhere location here)

/-- Directories are where they were. -/
theorem Gains.directory (gains : Gains files later gained)
    (before : files.kindAt gained ≠ some .directory) (location : Location) :
    later.kindAt location = some .directory ↔ files.kindAt location = some .directory :=
  (gains.fills before).directory location

/-- An entry that is met is met still. -/
theorem Leads.of_gain (gains : Gains files later gained)
    (before : files.kindAt gained ≠ some .directory)
    (solid : ∀ text, files.kindAt gained ≠ some (.link text)) {reached : Location}
    (leads : Leads files purpose links location segments (.entry reached)) :
    Leads later purpose links location segments (.entry reached) := by
  have elsewhere : ∀ {location text}, files.kindAt location = some (.link text) →
      later.kindAt location = some (.link text) := by
    intro location text found
    rw [gains.elsewhere location, found]
    rintro rfl
    exact solid text found
  generalize same : Target.entry reached = target at leads
  induction leads with
  | arrive links location => exact .arrive links location
  | stay inside idle _ ih => exact .stay ((gains.directory before _).mpr inside) idle (ih same)
  | up inside _ ih => exact .up ((gains.directory before _).mpr inside) (ih same)
  | missing => cases same
  | stop links inside name found naming =>
    exact .stop links ((gains.directory before _).mpr inside) name (elsewhere found) naming
  | follow inside name found through _ ih =>
    have inside := (gains.directory before _).mpr inside
    exact .follow inside name (elsewhere found) through (ih same)
  | @enter _ location segment _ _ _ inside name found kind _ ih =>
    have inside := (gains.directory before _).mpr inside
    -- The new file may stand where another file or the null device was, and is met like these.
    by_cases here : location ++ [segment] = gained
    · exact .enter inside name (here ▸ gains.file) (by rintro _ ⟨⟩) (ih same)
    · exact .enter inside name ((gains.elsewhere _ here).trans found) kind (ih same)

/-- The file is met where nothing was met before. -/
theorem Leads.of_gain_missing (gains : Gains files later gained)
    (leads : Leads files purpose links location segments (.missing gained false)) :
    Leads later purpose links location segments (.entry gained) := by
  have nothing := leads.kindAt_eq_none
  have before : files.kindAt gained ≠ some .directory := nothing.trans_ne nofun
  have elsewhere : ∀ {location kind}, files.kindAt location = some kind →
      later.kindAt location = some kind := by
    intro location kind found
    rw [gains.elsewhere location, found]
    rintro rfl
    cases nothing.symm.trans found
  generalize same : Target.missing gained false = target at leads
  induction leads with
  | arrive | stop => cases same
  | stay inside idle _ ih => exact .stay (elsewhere inside) idle (ih same)
  | up inside _ ih => exact .up (elsewhere inside) (ih same)
  | @missing location segment rest links inside name nothing last =>
    injection same with here noSlash
    have ends : rest = [] := last.resolve_right (by rw [← noSlash]; nofun)
    subst ends here
    exact .enter (elsewhere inside) name gains.file (fun _ => nofun) (.arrive links _)
  | follow inside name found through _ ih =>
    exact .follow (elsewhere inside) name (elsewhere found) through (ih same)
  | enter inside name found solid _ ih =>
    exact .enter (elsewhere inside) name (elsewhere found) solid (ih same)

end Gains

/-! ### A name that is removed -/

/-- Every walk for reading that comes by a name leads to one entry. -/
def AllLeadTo (files : FileSystem) (name reached : Location) : Prop :=
  ∀ (links : Nat) (location : Location) (segment : String) (rest : List String) (target : Target),
    location ++ [segment] = name → IsName .reading segment rest →
      Leads files .reading links location (segment :: rest) target → target = .entry reached

/-- What a path names leads all walks to where the path leads, if that is no directory. -/
theorem Leads.allLeadTo {last reached : Location} {budget : Nat} {kind : Kind}
    (leads : Leads files .naming links location segments (.entry last))
    (reads : Leads files .reading budget location segments (.entry reached))
    (found : files.kindAt reached = some kind) (file : kind ≠ .directory)
    (solid : ∀ text, kind ≠ .link text) : AllLeadTo files last reached := by
  intro links location segment rest target here name walk
  have outside : files.kindAt reached ≠ some .directory := by
    rw [found]
    exact fun same => file (Option.some.inj same)
  subst here
  rcases leads.naming reads with same | ⟨text, fewer, link, on⟩
  · subst same
    exact ((walk.of_enter name found solid).eq_of_outside outside).2
  · obtain ⟨left, whole⟩ := walk.of_follow name link nofun
    rw [List.dropLast_concat] at on
    obtain ⟨_, after⟩ := on.append whole nofun nofun
    exact (after.eq_of_outside outside).2

/-- **A walk does not come by a name** that leads to another entry, so it can be removed. -/
theorem Leads.erase {gone reached other : Location}
    (same : ∀ location, location ≠ gone → later.kindAt location = files.kindAt location)
    (file : files.kindAt gone ≠ some .directory) (all : AllLeadTo files gone reached)
    (different : other ≠ reached)
    (leads : Leads files .reading links location segments (.entry other)) :
    Leads later .reading links location segments (.entry other) := by
  have inside' : ∀ {location}, files.kindAt location = some .directory →
      later.kindAt location = some .directory := by
    intro location inside
    rw [same location, inside]
    rintro rfl
    exact file inside
  generalize isOther : Target.entry other = target at leads
  induction leads with
  | arrive links location => exact .arrive links location
  | stay inside idle _ ih => exact .stay (inside' inside) idle (ih isOther)
  | up inside _ ih => exact .up (inside' inside) (ih isOther)
  | missing => cases isOther
  | stop _ _ _ _ naming => cases naming
  | follow inside name found through on ih =>
    refine .follow (inside' inside) name ((same _ ?_).trans found) through (ih isOther)
    -- A walk that comes by the name that is gone would lead to `reached`.
    intro here
    have led := all _ _ _ _ _ here name (.follow inside name found through on)
    exact different (Target.entry.inj (isOther.trans led))
  | enter inside name found solid on ih =>
    refine .enter (inside' inside) name ((same _ ?_).trans found) solid (ih isOther)
    intro here
    have led := all _ _ _ _ _ here name (.enter inside name found solid on)
    exact different (Target.entry.inj (isOther.trans led))

end FileSystem

end Inflate
