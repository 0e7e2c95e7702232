/-
**Walks along paths.**

Where a walk leads depends only on what kind of entry stands at each location it comes by, and on no
content. So it is described by a relation with one case for each kind of segment, in which the walk and
its target are told apart from the walks that fail.

* `Leads`: the walks that lead somewhere;
* `walk_eq_ok_iff`: the walks that succeed are those that lead somewhere;
* `Leads.unique`: no budget of links changes the target;
* `Leads.append`, `Leads.walk_append`: a walk goes on from where its first part leads to;
* `Leads.withoutIdle`: segments that say nothing can be left out.
-/

import Mathlib.Logic.Basic
import Inflate.FileSystem.Operations

namespace Inflate

/-! ### Kinds of entries -/

/-- What stands at a location, without what a regular file holds. -/
inductive Kind where
  | directory
  | file
  | link (text : String)
  | nullDevice
deriving DecidableEq, Repr

/-- The kind of an entry. -/
def Entry.kind : Entry → Kind
  | directory => .directory
  | file _ => .file
  | link text => .link text
  | nullDevice => .nullDevice

namespace FileSystem

/-- The kind of the entry at a location. -/
def kindAt (files : FileSystem) (location : Location) : Option Kind :=
  (files.lookup location).map Entry.kind

section Kinds

variable {files : FileSystem} {location : Location}

theorem kindAt_of_lookup {entry : Entry} (found : files.lookup location = some entry) :
    files.kindAt location = some entry.kind := by
  rw [kindAt, found]
  rfl

theorem kindAt_eq_none_iff : files.kindAt location = none ↔ files.lookup location = none :=
  Option.map_eq_none_iff

theorem lookup_of_kindAt_link {text : String} (found : files.kindAt location = some (.link text)) :
    files.lookup location = some (.link text) := by
  obtain ⟨entry, same, kind⟩ := Option.map_eq_some_iff.mp found
  cases entry with
  | link other =>
    cases kind
    exact same
  | directory | file | nullDevice => cases kind

theorem isDirectoryAt_iff :
    files.isDirectoryAt location = true ↔ files.kindAt location = some .directory := by
  unfold isDirectoryAt kindAt
  cases files.lookup location with
  | none => exact ⟨nofun, nofun⟩
  | some entry => cases entry <;> simp [Entry.kind]

/-- The root is a directory. -/
theorem kindAt_nil (files : FileSystem) : files.kindAt [] = some .directory := rfl

end Kinds

/-! ### Where walks lead -/

/-- A segment that names an entry, with the segments after it. -/
structure IsName (purpose : Purpose) (segment : String) (rest : List String) : Prop where
  nonempty : segment ≠ ""
  notDot : segment ≠ "."
  notDots : segment ≠ ".."
  allowed : ¬(purpose = .writing ∧ endsInSlash rest = true)
  short : segment.utf8ByteSize ≤ maxNameSize

/-- Unless it is to be written to, it does not matter what follows a name. -/
theorem IsName.of_ne_writing {purpose other : Purpose} {segment : String} {rest : List String}
    (name : IsName purpose segment rest) (plain : other ≠ .writing) (next : List String) :
    IsName other segment next :=
  ⟨name.nonempty, name.notDot, name.notDots, fun writes => plain writes.1, name.short⟩

/-- For reading it does not matter what follows a name. -/
theorem IsName.reading {purpose : Purpose} {segment : String} {rest : List String}
    (name : IsName purpose segment rest) (next : List String) : IsName .reading segment next :=
  name.of_ne_writing (by decide) next

/-- Where a walk goes on after a link. -/
def afterLink (location : Location) (text : String) : Location :=
  if Path.isAbsolute text then [] else location

/-- The walks that lead somewhere, with the count of links that they may still follow. -/
inductive Leads (files : FileSystem) (purpose : Purpose) :
    Nat → Location → List String → Target → Prop where
  | arrive (links : Nat) (location : Location) :
    Leads files purpose links location [] (.entry location)
  | stay {links : Nat} {location : Location} {segment : String} {rest : List String}
    {target : Target} (inside : files.kindAt location = some .directory)
    (idle : segment = "" ∨ segment = ".") (on : Leads files purpose links location rest target) :
    Leads files purpose links location (segment :: rest) target
  | up {links : Nat} {location : Location} {rest : List String} {target : Target}
    (inside : files.kindAt location = some .directory)
    (on : Leads files purpose links location.dropLast rest target) :
    Leads files purpose links location (".." :: rest) target
  | missing {location : Location} {segment : String} {rest : List String} (links : Nat)
    (inside : files.kindAt location = some .directory) (name : IsName purpose segment rest)
    (nothing : files.kindAt (location ++ [segment]) = none)
    (last : rest = [] ∨ endsInSlash rest = true) :
    Leads files purpose links location (segment :: rest)
      (.missing (location ++ [segment]) (endsInSlash rest))
  | stop {location : Location} {segment text : String} (links : Nat)
    (inside : files.kindAt location = some .directory) (name : IsName purpose segment [])
    (found : files.kindAt (location ++ [segment]) = some (.link text))
    (naming : purpose = .naming) :
    Leads files purpose links location [segment] (.entry (location ++ [segment]))
  | follow {links : Nat} {location : Location} {segment text : String} {rest : List String}
    {target : Target} (inside : files.kindAt location = some .directory)
    (name : IsName purpose segment rest)
    (found : files.kindAt (location ++ [segment]) = some (.link text))
    (through : ¬(rest = [] ∧ purpose = .naming))
    (on : Leads files purpose links (afterLink location text) (Path.segments text ++ rest) target) :
    Leads files purpose (links + 1) location (segment :: rest) target
  | enter {links : Nat} {location : Location} {segment : String} {kind : Kind}
    {rest : List String} {target : Target} (inside : files.kindAt location = some .directory)
    (name : IsName purpose segment rest)
    (found : files.kindAt (location ++ [segment]) = some kind) (solid : ∀ text, kind ≠ .link text)
    (on : Leads files purpose links (location ++ [segment]) rest target) :
    Leads files purpose links location (segment :: rest) target

/-- The second list of segments is the first one without some that say nothing. -/
inductive WithoutIdle : List String → List String → Prop where
  | nil : WithoutIdle [] []
  | keep {segments fewer : List String} (segment : String) (rest : WithoutIdle segments fewer) :
    WithoutIdle (segment :: segments) (segment :: fewer)
  | drop {segments fewer : List String} {segment : String} (idle : segment = "" ∨ segment = ".")
    (rest : WithoutIdle segments fewer) : WithoutIdle (segment :: segments) fewer

theorem WithoutIdle.append_left {segments fewer : List String}
    (without : WithoutIdle segments fewer) (front : List String) :
    WithoutIdle (front ++ segments) (front ++ fewer) := by
  induction front with
  | nil => exact without
  | cons segment rest ih => exact .keep segment ih

/-- All segments that say nothing can be left out. -/
theorem withoutIdle_filter (segments : List String) :
    WithoutIdle segments (segments.filter fun segment => segment != "" && segment != ".") := by
  induction segments with
  | nil => exact .nil
  | cons segment rest ih =>
    rw [List.filter_cons]
    split
    · exact .keep segment ih
    · next idle =>
      refine .drop ?_ ih
      by_cases empty : segment = ""
      · exact Or.inl empty
      · exact Or.inr (by simpa [empty] using idle)

section Walks

variable {files : FileSystem} {purpose : Purpose}

/-- What is no directory. -/
theorem kindAt_ne_directory {location : Location} (outside : files.isDirectoryAt location = false) :
    files.kindAt location ≠ some .directory := by
  intro inside
  cases outside.symm.trans (isDirectoryAt_iff.mpr inside)

/-- A walk that succeeds leads somewhere. -/
theorem leads_of_walk {links : Nat} {location : Location} {segments : List String} {target : Target}
    (walked : files.walk purpose links location segments = .ok target) :
    Leads files purpose links location segments target := by
  fun_induction walk files purpose links location segments with
  | case1 links location =>
    cases walked
    exact .arrive links location
  | case2 | case5 | case6 | case8 | case10 => cases walked
  | case3 links location segment rest inside idle ih =>
    exact .stay (isDirectoryAt_iff.mp (by simpa using inside)) idle (ih walked)
  | case4 links location rest inside _ ih =>
    exact .up (isDirectoryAt_iff.mp (by simpa using inside)) (ih walked)
  | case7 links location segment rest inside idle notDots allowed short next nothing last =>
    cases walked
    refine .missing links (isDirectoryAt_iff.mp (by simpa using inside)) ?_
      (kindAt_eq_none_iff.mpr nothing) (last.imp_left List.isEmpty_iff.mp)
    exact ⟨mt Or.inl idle, mt Or.inr idle, notDots, allowed, Nat.not_lt.mp short⟩
  | case9 links location segment rest inside idle notDots allowed short next text found last =>
    obtain ⟨empty, naming⟩ := last
    obtain rfl := List.isEmpty_iff.mp empty
    cases walked
    refine .stop links (isDirectoryAt_iff.mp (by simpa using inside)) ?_ (kindAt_of_lookup found)
      naming
    exact ⟨mt Or.inl idle, mt Or.inr idle, notDots, allowed, Nat.not_lt.mp short⟩
  | case11 location segment rest inside idle notDots allowed short next text found last links ih =>
    refine .follow (isDirectoryAt_iff.mp (by simpa using inside)) ?_ (kindAt_of_lookup found)
      (fun stops => last ⟨List.isEmpty_iff.mpr stops.1, stops.2⟩) (ih walked)
    exact ⟨mt Or.inl idle, mt Or.inr idle, notDots, allowed, Nat.not_lt.mp short⟩
  | case12 links location segment rest inside idle notDots allowed short next entry solid found ih =>
    refine .enter (isDirectoryAt_iff.mp (by simpa using inside)) ?_ (kindAt_of_lookup found) ?_
      (ih walked)
    · exact ⟨mt Or.inl idle, mt Or.inr idle, notDots, allowed, Nat.not_lt.mp short⟩
    · intro text same
      cases entry with
      | link other => exact solid other rfl
      | directory | file | nullDevice => cases same

/-- A step to a name. -/
theorem walk_of_isName {links : Nat} {location : Location} {segment : String} {rest : List String}
    (inside : files.kindAt location = some .directory) (name : IsName purpose segment rest) :
    files.walk purpose links location (segment :: rest) =
      match files.lookup (location ++ [segment]) with
      | none =>
        if rest.isEmpty ∨ endsInSlash rest then
          .ok (.missing (location ++ [segment]) (endsInSlash rest))
        else .error .noEntry
      | some (.link text) =>
        if rest.isEmpty ∧ purpose = .naming then .ok (.entry (location ++ [segment]))
        else match links with
          | 0 => .error .tooManyLinks
          | links + 1 =>
            files.walk purpose links (afterLink location text) (Path.segments text ++ rest)
      | some _ => files.walk purpose links (location ++ [segment]) rest := by
  have idle : ¬(segment = "" ∨ segment = ".") := not_or.mpr ⟨name.nonempty, name.notDot⟩
  have inside := isDirectoryAt_iff.mpr inside
  rw [walk]
  simp only [inside, Bool.not_true, Bool.false_eq_true, if_false, if_neg idle, if_neg name.notDots,
    if_neg name.allowed, if_neg (Nat.not_lt.mpr name.short)]
  rfl

/-- A walk that leads somewhere succeeds. -/
theorem walk_of_leads {links : Nat} {location : Location} {segments : List String} {target : Target}
    (leads : Leads files purpose links location segments target) :
    files.walk purpose links location segments = .ok target := by
  induction leads with
  | arrive links location => rw [walk]
  | stay inside idle on ih =>
    rw [walk]
    simp only [isDirectoryAt_iff.mpr inside, Bool.not_true, Bool.false_eq_true, if_false,
      if_pos idle, ih]
  | up inside on ih =>
    have notIdle : ¬(".." = "" ∨ ".." = ".") := by decide
    rw [walk]
    simp only [isDirectoryAt_iff.mpr inside, Bool.not_true, Bool.false_eq_true, if_false,
      if_neg notIdle, if_true, ih]
  | missing links inside name nothing last =>
    rw [walk_of_isName inside name, kindAt_eq_none_iff.mp nothing]
    exact if_pos (last.imp_left List.isEmpty_iff.mpr)
  | stop links inside name found naming =>
    rw [walk_of_isName inside name, lookup_of_kindAt_link found]
    exact if_pos ⟨rfl, naming⟩
  | follow inside name found through on ih =>
    rw [walk_of_isName inside name, lookup_of_kindAt_link found]
    simp only
    rw [if_neg fun stops => through ⟨List.isEmpty_iff.mp stops.1, stops.2⟩]
    exact ih
  | enter inside name found solid on ih =>
    obtain ⟨entry, same, rfl⟩ := Option.map_eq_some_iff.mp found
    rw [walk_of_isName inside name, same]
    cases entry with
    | link text => exact absurd rfl (solid text)
    | directory | file | nullDevice => exact ih

/-- **The walks that succeed** are those that lead somewhere. -/
theorem walk_eq_ok_iff {links : Nat} {location : Location} {segments : List String}
    {target : Target} : files.walk purpose links location segments = .ok target ↔
      Leads files purpose links location segments target :=
  ⟨leads_of_walk, walk_of_leads⟩

/-! ### Inversion -/

namespace Leads

variable {links : Nat} {location : Location} {segment : String} {rest : List String}
  {target : Target}

/-- Only from a directory does a walk go on. -/
theorem inside (leads : Leads files purpose links location (segment :: rest) target) :
    files.kindAt location = some .directory := by
  cases leads with
  | stay inside | up inside | missing _ inside | stop _ inside | follow inside | enter inside =>
    exact inside

/-- From what is no directory a walk leads nowhere else. -/
theorem eq_of_outside {segments : List String}
    (leads : Leads files purpose links location segments target)
    (outside : files.kindAt location ≠ some .directory) :
    segments = [] ∧ target = .entry location := by
  cases segments with
  | nil =>
    cases leads
    exact ⟨rfl, rfl⟩
  | cons segment rest => exact absurd leads.inside outside

theorem of_stay (leads : Leads files purpose links location (segment :: rest) target)
    (idle : segment = "" ∨ segment = ".") : Leads files purpose links location rest target := by
  have unnamed : ∀ {purpose rest}, ¬IsName purpose segment rest := fun name =>
    idle.elim name.nonempty name.notDot
  cases leads with
  | stay _ _ on => exact on
  | up => exact absurd idle (by decide)
  | missing _ _ name | stop _ _ name | follow _ name | enter _ name => exact absurd name unnamed

theorem of_up (leads : Leads files purpose links location (".." :: rest) target) :
    Leads files purpose links location.dropLast rest target := by
  cases leads with
  | stay _ idle => exact absurd idle (by decide)
  | up _ on => exact on
  | missing _ _ name | stop _ _ name | follow _ name | enter _ name =>
    exact absurd rfl name.notDots

theorem of_follow (leads : Leads files purpose links location (segment :: rest) target)
    (name : IsName purpose segment rest) {text : String}
    (found : files.kindAt (location ++ [segment]) = some (.link text))
    (through : ¬(rest = [] ∧ purpose = .naming)) :
    ∃ fewer, Leads files purpose fewer (afterLink location text) (Path.segments text ++ rest)
      target := by
  cases leads with
  | stay _ idle => exact absurd idle (not_or.mpr ⟨name.nonempty, name.notDot⟩)
  | up => exact absurd rfl name.notDots
  | missing _ _ _ nothing => cases nothing.symm.trans found
  | stop _ _ _ _ naming => exact absurd ⟨rfl, naming⟩ through
  | follow _ _ other _ on =>
    cases found.symm.trans other
    exact ⟨_, on⟩
  | enter _ _ other solid =>
    cases found.symm.trans other
    exact absurd rfl (solid text)

theorem of_enter (leads : Leads files purpose links location (segment :: rest) target)
    (name : IsName purpose segment rest) {kind : Kind}
    (found : files.kindAt (location ++ [segment]) = some kind) (solid : ∀ text, kind ≠ .link text) :
    Leads files purpose links (location ++ [segment]) rest target := by
  cases leads with
  | stay _ idle => exact absurd idle (not_or.mpr ⟨name.nonempty, name.notDot⟩)
  | up => exact absurd rfl name.notDots
  | missing _ _ _ nothing => cases nothing.symm.trans found
  | stop _ _ _ other | follow _ _ other =>
    cases found.symm.trans other
    exact absurd rfl (solid _)
  | enter _ _ _ _ on => exact on

/-! ### Budgets -/

/-- A greater budget of links changes nothing. -/
theorem mono {segments : List String} (leads : Leads files purpose links location segments target)
    (more : Nat) : Leads files purpose (links + more) location segments target := by
  induction leads with
  | arrive links location => exact .arrive _ _
  | stay inside idle _ ih => exact .stay inside idle ih
  | up inside _ ih => exact .up inside ih
  | missing links inside name nothing last => exact .missing _ inside name nothing last
  | stop links inside name found naming => exact .stop _ inside name found naming
  | @follow links location segment text rest target inside name found through _ ih =>
    rw [Nat.add_right_comm]
    exact .follow inside name found through ih
  | enter inside name found solid _ ih => exact .enter inside name found solid ih

/-- **The target is unique**, whatever the budgets. -/
theorem unique {segments : List String} {other : Target} {budget : Nat}
    (leads : Leads files purpose links location segments target)
    (also : Leads files purpose budget location segments other) : target = other := by
  have first := walk_of_leads (leads.mono budget)
  have second := walk_of_leads (also.mono links)
  rw [Nat.add_comm, second] at first
  exact (Except.ok.inj first).symm

/-! ### Parts of walks -/

/-- **A walk goes on** from where its first part leads to. A walk that names an entry does not follow
the last link, so it needs a second part. -/
theorem append {first second : List String} {between : Location} {budget : Nat}
    (front : Leads files .reading links location first (.entry between))
    (whole : Leads files purpose budget location (first ++ second) target)
    (plain : purpose ≠ .writing) (more : purpose = .naming → second ≠ []) :
    ∃ left, Leads files purpose left between second target := by
  -- Along the cases of the first part, the whole walk is cut down to the second one.
  generalize same : Target.entry between = reached at front
  induction front generalizing budget with
  | arrive links location =>
    cases same
    exact ⟨budget, whole⟩
  | stay inside idle _ ih => exact ih (whole.of_stay idle) same
  | up inside _ ih => exact ih whole.of_up same
  | missing => cases same
  | stop _ _ _ _ naming => cases naming
  | @follow links location segment text rest reached inside name found through _ ih =>
    obtain ⟨fewer, on⟩ := whole.of_follow (name.of_ne_writing plain _) found
      fun stops => more stops.2 (List.append_eq_nil_iff.mp stops.1).2
    have onwards : Leads files purpose fewer (afterLink location text)
        (Path.segments text ++ rest ++ second) target := by
      rw [List.append_assoc]
      exact on
    exact ih onwards same
  | enter inside name found solid _ ih =>
    exact ih (whole.of_enter (name.of_ne_writing plain _) found solid) same

/-- **A walk is continued** from where its first part leads to, with the links that are left. -/
theorem walk_append {first second : List String} {between : Location}
    (front : Leads files .reading links location first (.entry between)) (plain : purpose ≠ .writing)
    (more : purpose = .naming → second ≠ []) :
    ∃ left, files.walk purpose links location (first ++ second) =
      files.walk purpose left between second := by
  generalize same : Target.entry between = reached at front
  induction front with
  | arrive links location =>
    cases same
    exact ⟨links, rfl⟩
  | stay inside idle _ ih =>
    obtain ⟨left, on⟩ := ih same
    refine ⟨left, ?_⟩
    rw [List.cons_append, walk]
    simp only [isDirectoryAt_iff.mpr inside, Bool.not_true, Bool.false_eq_true, if_false, if_pos idle]
    exact on
  | up inside _ ih =>
    obtain ⟨left, on⟩ := ih same
    have notIdle : ¬(".." = "" ∨ ".." = ".") := by decide
    refine ⟨left, ?_⟩
    rw [List.cons_append, walk]
    simp only [isDirectoryAt_iff.mpr inside, Bool.not_true, Bool.false_eq_true, if_false,
      if_neg notIdle, if_true]
    exact on
  | missing => cases same
  | stop _ _ _ _ naming => cases naming
  | @follow links location segment text rest reached inside name found through _ ih =>
    obtain ⟨left, on⟩ := ih same
    refine ⟨left, ?_⟩
    rw [List.cons_append, walk_of_isName inside (name.of_ne_writing plain _),
      lookup_of_kindAt_link found]
    have stops : ¬((rest ++ second).isEmpty = true ∧ purpose = .naming) := fun stops =>
      more stops.2 (List.append_eq_nil_iff.mp (List.isEmpty_iff.mp stops.1)).2
    simp only
    rw [if_neg stops, ← List.append_assoc]
    exact on
  | enter inside name found solid _ ih =>
    obtain ⟨left, on⟩ := ih same
    obtain ⟨entry, entered, rfl⟩ := Option.map_eq_some_iff.mp found
    refine ⟨left, ?_⟩
    rw [List.cons_append, walk_of_isName inside (name.of_ne_writing plain _), entered]
    cases entry with
    | link text => exact absurd rfl (solid text)
    | directory | file | nullDevice => exact on

/-- **Segments that say nothing can be left out** of a walk to an entry. -/
theorem withoutIdle {segments fewer : List String} {reached : Location}
    (leads : Leads files .reading links location segments (.entry reached))
    (without : WithoutIdle segments fewer) :
    Leads files .reading links location fewer (.entry reached) := by
  generalize isEntry : Target.entry reached = target at leads
  induction leads generalizing fewer with
  | arrive links location =>
    cases without
    exact .arrive links location
  | stay inside idle _ ih =>
    cases without with
    | keep _ rest => exact .stay inside idle (ih rest isEntry)
    | drop _ rest => exact ih rest isEntry
  | up inside _ ih =>
    cases without with
    | keep _ rest => exact .up inside (ih rest isEntry)
    | drop idle => exact absurd idle (by decide)
  | missing => cases isEntry
  | stop _ _ _ _ naming => cases naming
  | follow inside name found through _ ih =>
    cases without with
    | keep _ rest =>
      -- What the link leads over is kept as a whole.
      exact .follow inside (name.reading _) found nofun (ih (rest.append_left _) isEntry)
    | drop idle => exact absurd idle (not_or.mpr ⟨name.nonempty, name.notDot⟩)
  | enter inside name found solid _ ih =>
    cases without with
    | keep _ rest => exact .enter inside (name.reading _) found solid (ih rest isEntry)
    | drop idle => exact absurd idle (not_or.mpr ⟨name.nonempty, name.notDot⟩)

/-- A segment at the end that says nothing can be left out. -/
theorem of_last_idle {front : List String} {reached : Location}
    (leads : Leads files .reading links location (front ++ [segment]) (.entry reached))
    (idle : segment = "" ∨ segment = ".") :
    Leads files .reading links location front (.entry reached) := by
  have without : WithoutIdle (front ++ [segment]) (front ++ []) :=
    WithoutIdle.append_left (.drop idle .nil) front
  rw [List.append_nil] at without
  exact leads.withoutIdle without

end Leads

end Walks

end FileSystem

end Inflate
