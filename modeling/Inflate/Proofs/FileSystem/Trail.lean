/-
**The trail of a walk.**

A walk asks for the entries at some locations and for no others: the trail that it leaves. Where the
entries on its trail are the same, a walk is the same; where some of them are gone, it leads nowhere
new, unless it now ends where one is missing.

* `ComesBy`: the locations that a walk asks for;
* `walk_congr`: walks in file systems that agree on the trail;
* `ComesBy.of_stops`: trails in a file system where walks go no further than before;
* `Leads.comesBy`, `Leads.of_comesBy`: a walk comes by where it leads, and leads on from what it comes
  by;
* `NameOf.target_eq`: a walk that comes by a name of a file leads to the file or names it;
* `Leads.of_removals`: walks in a file system where entries on the trail are gone.
-/

import Inflate.Proofs.FileSystem.Effects

namespace Inflate

/-- The location of a target. -/
def Target.place : Target → Location
  | entry location => location
  | missing location _ => location

namespace FileSystem

/-- The locations whose entries a walk asks for, the one where it ends included. -/
inductive ComesBy (files : FileSystem) (purpose : Purpose) :
    Nat → Location → List String → Location → Prop where
  | here (links : Nat) (location : Location) (segments : List String) :
    ComesBy files purpose links location segments location
  | stay {links : Nat} {location place : Location} {segment : String} {rest : List String}
    (inside : files.kindAt location = some .directory) (idle : segment = "" ∨ segment = ".")
    (on : ComesBy files purpose links location rest place) :
    ComesBy files purpose links location (segment :: rest) place
  | up {links : Nat} {location place : Location} {rest : List String}
    (inside : files.kindAt location = some .directory)
    (on : ComesBy files purpose links location.dropLast rest place) :
    ComesBy files purpose links location (".." :: rest) place
  | next {location : Location} {segment : String} {rest : List String} (links : Nat)
    (inside : files.kindAt location = some .directory) (name : IsName purpose segment rest) :
    ComesBy files purpose links location (segment :: rest) (location ++ [segment])
  | follow {links : Nat} {location place : Location} {segment text : String} {rest : List String}
    (inside : files.kindAt location = some .directory) (name : IsName purpose segment rest)
    (found : files.kindAt (location ++ [segment]) = some (.link text))
    (through : ¬(rest = [] ∧ purpose = .naming))
    (on : ComesBy files purpose links (afterLink location text) (Path.segments text ++ rest) place) :
    ComesBy files purpose (links + 1) location (segment :: rest) place
  | enter {links : Nat} {location place : Location} {segment : String} {kind : Kind}
    {rest : List String} (inside : files.kindAt location = some .directory)
    (name : IsName purpose segment rest)
    (found : files.kindAt (location ++ [segment]) = some kind) (solid : ∀ text, kind ≠ .link text)
    (on : ComesBy files purpose links (location ++ [segment]) rest place) :
    ComesBy files purpose links location (segment :: rest) place

section Trails

variable {files later : FileSystem} {purpose : Purpose} {links : Nat} {location place : Location}
  {segments : List String} {target : Target}

/-! ### Walks that are the same -/

theorem isDirectoryAt_congr (same : later.lookup location = files.lookup location) :
    later.isDirectoryAt location = files.isDirectoryAt location := by
  rw [isDirectoryAt, isDirectoryAt, same]

/-- An entry that is no link is of no kind of link. -/
theorem kind_ne_link {entry : Entry} (solid : ∀ text, entry ≠ .link text) (text : String) :
    entry.kind ≠ .link text := by
  cases entry with
  | link other => exact absurd rfl (solid other)
  | directory | file | nullDevice => exact nofun

/-- **Where the entries on its trail are the same, a walk is the same.** -/
theorem walk_congr
    (agree : ∀ place, ComesBy files purpose links location segments place →
      later.lookup place = files.lookup place) :
    later.walk purpose links location segments = files.walk purpose links location segments := by
  have inside' : later.isDirectoryAt location = files.isDirectoryAt location :=
    isDirectoryAt_congr (agree location (.here _ _ _))
  -- A walk that comes to a name meets the same entry there.
  have met : ∀ {links location segment rest}, ¬(!files.isDirectoryAt location) = true →
      ¬(segment = "" ∨ segment = ".") → segment ≠ ".." →
      ¬(purpose = .writing ∧ endsInSlash rest = true) → ¬maxNameSize < segment.utf8ByteSize →
      (∀ place, ComesBy files purpose links location (segment :: rest) place →
        later.lookup place = files.lookup place) →
      later.isDirectoryAt location = files.isDirectoryAt location →
      IsName purpose segment rest ∧
        later.lookup (location ++ [segment]) = files.lookup (location ++ [segment]) ∧
        later.kindAt location = some .directory := by
    intro links location segment rest inside idle notDots allowed short agree same
    have name : IsName purpose segment rest :=
      ⟨mt Or.inl idle, mt Or.inr idle, notDots, allowed, Nat.not_lt.mp short⟩
    have there : files.isDirectoryAt location = true := by simpa using inside
    exact ⟨name, agree _ (.next links (isDirectoryAt_iff.mp there) name),
      isDirectoryAt_iff.mp (same.trans there)⟩
  fun_induction walk files purpose links location segments with
  | case1 links location => rw [walk]
  | case2 links location segment rest outside => rw [walk, inside', if_pos outside]
  | case3 links location segment rest inside idle ih =>
    have kind := isDirectoryAt_iff.mp (by simpa using inside)
    rw [walk, inside', if_neg inside, if_pos idle]
    exact ih (fun place on => agree place (.stay kind idle on)) inside'
  | case4 links location rest inside idle ih =>
    have kind := isDirectoryAt_iff.mp (by simpa using inside)
    rw [walk, inside', if_neg inside, if_neg idle, if_pos rfl]
    exact ih (fun place on => agree place (.up kind on))
      (isDirectoryAt_congr (agree _ (.up kind (.here _ _ _))))
  | case5 links location segment rest inside idle notDots refused =>
    rw [walk, inside', if_neg inside, if_neg idle, if_neg notDots, if_pos refused]
  | case6 links location segment rest inside idle notDots allowed long =>
    rw [walk, inside', if_neg inside, if_neg idle, if_neg notDots, if_neg allowed, if_pos long]
  | case7 links location segment rest inside idle notDots allowed short next nothing last =>
    obtain ⟨name, same, there⟩ := met inside idle notDots allowed short agree inside'
    rw [walk_of_isName there name, same, nothing]
    exact if_pos last
  | case8 links location segment rest inside idle notDots allowed short next nothing more =>
    obtain ⟨name, same, there⟩ := met inside idle notDots allowed short agree inside'
    rw [walk_of_isName there name, same, nothing]
    exact if_neg more
  | case9 links location segment rest inside idle notDots allowed short next text found last =>
    obtain ⟨name, same, there⟩ := met inside idle notDots allowed short agree inside'
    rw [walk_of_isName there name, same, found]
    exact if_pos last
  | case10 location segment rest inside idle notDots allowed short next text found through =>
    obtain ⟨name, same, there⟩ := met inside idle notDots allowed short agree inside'
    rw [walk_of_isName there name, same, found]
    exact if_neg through
  | case11 location segment rest inside idle notDots allowed short next text found through links ih =>
    obtain ⟨name, same, there⟩ := met inside idle notDots allowed short agree inside'
    have kind := isDirectoryAt_iff.mp (by simpa using inside)
    have on : ¬(rest = [] ∧ purpose = .naming) := fun stops =>
      through ⟨List.isEmpty_iff.mpr stops.1, stops.2⟩
    have follow := fun place => @ComesBy.follow files purpose links location place segment text rest
      kind name (kindAt_of_lookup found) on
    rw [walk_of_isName there name, same, found]
    refine (if_neg through).trans (ih (fun place visits => agree place (follow place visits)) ?_)
    exact isDirectoryAt_congr (agree _ (follow _ (.here _ _ _)))
  | case12 links location segment rest inside idle notDots allowed short next entry solid found ih =>
    obtain ⟨name, same, there⟩ := met inside idle notDots allowed short agree inside'
    have kind := isDirectoryAt_iff.mp (by simpa using inside)
    have enter := fun place => @ComesBy.enter files purpose links location place segment entry.kind rest
      kind name (kindAt_of_lookup found) (kind_ne_link solid)
    rw [walk_of_isName there name, same, found]
    have on := ih (fun place visits => agree place (enter place visits))
      (isDirectoryAt_congr (agree _ (enter _ (.here _ _ _))))
    cases entry with
    | link text => exact absurd rfl (solid text)
    | directory | file | nullDevice => exact on

/-! ### Shorter trails -/

/-- From what is no directory a walk comes by nothing else. -/
theorem ComesBy.eq_of_outside (visits : ComesBy files purpose links location segments place)
    (outside : files.kindAt location ≠ some .directory) : place = location := by
  cases visits with
  | here => rfl
  | stay inside | up inside | next _ inside | follow inside | enter inside =>
    exact absurd inside outside

/-- A walk for reading comes by all that a walk for another purpose comes by. -/
theorem ComesBy.reading (visits : ComesBy files purpose links location segments place) :
    ComesBy files .reading links location segments place := by
  induction visits with
  | here links location segments => exact .here links location segments
  | stay inside idle _ ih => exact .stay inside idle ih
  | up inside _ ih => exact .up inside ih
  | next links inside name => exact .next links inside (name.reading _)
  | follow inside name found _ _ ih => exact .follow inside (name.reading _) found nofun ih
  | enter inside name found solid _ ih => exact .enter inside (name.reading _) found solid ih

/-- **Trails where walks go no further than before**: on its trail every entry is of the kind that it
was, or such that a walk ends there. -/
theorem ComesBy.of_stops (visits : ComesBy later purpose links location segments place)
    (stops : ∀ place, ComesBy files purpose links location segments place →
      later.kindAt place = files.kindAt place ∨
        later.kindAt place ≠ some .directory ∧ ∀ text, later.kindAt place ≠ some (.link text)) :
    ComesBy files purpose links location segments place := by
  have inside' : ∀ {links location segments}, (∀ place,
      ComesBy files purpose links location segments place →
        later.kindAt place = files.kindAt place ∨
          later.kindAt place ≠ some .directory ∧ ∀ text, later.kindAt place ≠ some (.link text)) →
      later.kindAt location = some .directory → files.kindAt location = some .directory := by
    intro links location segments stops inside
    rcases stops location (.here _ _ _) with same | ⟨outside, -⟩
    · exact same.symm.trans inside
    · exact absurd inside outside
  induction visits with
  | here links location segments => exact .here links location segments
  | stay inside idle _ ih =>
    have inside := inside' stops inside
    exact .stay inside idle (ih fun place on => stops place (.stay inside idle on))
  | up inside _ ih =>
    have inside := inside' stops inside
    exact .up inside (ih fun place on => stops place (.up inside on))
  | next links inside name => exact .next links (inside' stops inside) name
  | follow inside name found through _ ih =>
    have inside := inside' stops inside
    rcases stops _ (.next _ inside name) with same | ⟨-, solid⟩
    · have found := same.symm.trans found
      exact .follow inside name found through
        (ih fun place on => stops place (.follow inside name found through on))
    · exact absurd found (solid _)
  | enter inside name found solid on ih =>
    have inside := inside' stops inside
    rcases stops _ (.next _ inside name) with same | ⟨outside, -⟩
    · have found := same.symm.trans found
      exact .enter inside name found solid
        (ih fun place on => stops place (.enter inside name found solid on))
    · rw [on.eq_of_outside outside]
      exact .next _ inside name

/-- The trail to a file that a location has gained is that of naming it before. -/
theorem ComesBy.naming_of_gain {gained : Location} (gains : Gains files later gained)
    (outside : files.kindAt gained ≠ some .directory) {budget : Nat}
    (leads : Leads files .naming budget location segments target)
    (aims : target = .entry gained ∨ target = .missing gained false)
    (visits : ComesBy later .reading links location segments place) :
    ComesBy files .naming links location segments place := by
  induction visits generalizing budget with
  | here links location segments => exact .here links location segments
  | stay inside idle _ ih =>
    exact .stay ((gains.directory outside _).mp inside) idle (ih (leads.of_stay idle))
  | up inside _ ih => exact .up ((gains.directory outside _).mp inside) (ih leads.of_up)
  | next links inside name =>
    exact .next links ((gains.directory outside _).mp inside) (name.of_ne_writing (by decide) _)
  | @follow links location place segment text rest inside name found _ _ ih =>
    have inside := (gains.directory outside _).mp inside
    have name : IsName .naming segment rest := name.of_ne_writing (by decide) _
    have other : location ++ [segment] ≠ gained := by
      intro here
      rw [here] at found
      cases gains.file.symm.trans found
    have found := (gains.elsewhere _ other).symm.trans found
    -- Naming stops at the last link, and that is not where the file is.
    have through : ¬(rest = [] ∧ Purpose.naming = .naming) := by
      rintro ⟨rfl, -⟩
      have stops := leads.unique (.stop 0 inside name found rfl)
      rcases aims with same | same <;> cases same.symm.trans stops
      exact other rfl
    obtain ⟨fewer, on⟩ := leads.of_follow name found through
    exact .follow inside name found through (ih on)
  | @enter links location place segment kind rest inside name found solid on ih =>
    have inside := (gains.directory outside _).mp inside
    have name : IsName .naming segment rest := name.of_ne_writing (by decide) _
    by_cases here : location ++ [segment] = gained
    · have ends : later.kindAt (location ++ [segment]) ≠ some .directory := by
        rw [here, gains.file]
        nofun
      rw [on.eq_of_outside ends]
      exact .next _ inside name
    · have found := (gains.elsewhere _ here).symm.trans found
      exact .enter inside name found solid (ih (leads.of_enter name found solid))

/-! ### Where walks lead -/

/-- A walk comes by where it leads. -/
theorem Leads.comesBy (leads : Leads files purpose links location segments target) :
    ComesBy files purpose links location segments target.place := by
  induction leads with
  | arrive links location => exact .here _ _ _
  | stay inside idle _ ih => exact .stay inside idle ih
  | up inside _ ih => exact .up inside ih
  | missing links inside name | stop links inside name => exact .next _ inside name
  | follow inside name found through _ ih => exact .follow inside name found through ih
  | enter inside name found solid _ ih => exact .enter inside name found solid ih

/-- **A walk leads on from what it comes by**, if that is no directory, or ends there. -/
theorem Leads.of_comesBy {budget : Nat} (leads : Leads files purpose budget location segments target)
    (visits : ComesBy files purpose links location segments place)
    (outside : files.kindAt place ≠ some .directory) :
    target = .entry place ∨ ∃ fewer parent segment rest, parent ++ [segment] = place ∧
      IsName purpose segment rest ∧ Leads files purpose fewer parent (segment :: rest) target := by
  induction visits generalizing budget with
  | here => exact Or.inl (leads.eq_of_outside outside).2
  | stay _ idle _ ih => exact ih (leads.of_stay idle) outside
  | up _ _ ih => exact ih leads.of_up outside
  | next links inside name => exact Or.inr ⟨_, _, _, _, rfl, name, leads⟩
  | follow inside name found through _ ih =>
    obtain ⟨fewer, on⟩ := leads.of_follow name found through
    exact ih on outside
  | enter inside name found solid _ ih => exact ih (leads.of_enter name found solid) outside

/-! ### Names of files -/

/-- A name of a file: where that stands, or a link that leads there. -/
structure NameOf (files : FileSystem) (name reached : Location) : Prop where
  outside : files.kindAt reached ≠ some .directory
  solid : ∀ text, files.kindAt reached ≠ some (.link text)
  there : files.kindAt reached ≠ none
  leads : name = reached ∨ ∃ text fewer, files.kindAt name = some (.link text) ∧
    Leads files .reading fewer (afterLink name.dropLast text) (Path.segments text) (.entry reached)

namespace NameOf

variable {name reached : Location}

theorem kindAt_ne_directory (nameOf : NameOf files name reached) :
    files.kindAt name ≠ some .directory := by
  rcases nameOf.leads with same | ⟨text, _, link, _⟩
  · exact same ▸ nameOf.outside
  · exact link.trans_ne nofun

/-- From its name a file is reached. -/
theorem exists_leads (nameOf : NameOf files name reached) {segment : String} {parent : Location}
    (here : parent ++ [segment] = name) (inside : files.kindAt parent = some .directory)
    (isName : IsName .reading segment []) :
    ∃ budget, Leads files .reading budget parent [segment] (.entry reached) := by
  subst here
  rcases nameOf.leads with same | ⟨text, fewer, link, on⟩
  · obtain ⟨kind, found⟩ := Option.ne_none_iff_exists'.mp nameOf.there
    refine ⟨0, .enter inside isName (same.symm ▸ found) ?_ (same ▸ .arrive 0 _)⟩
    rintro text rfl
    exact nameOf.solid text found
  · rw [List.dropLast_concat] at on
    refine ⟨fewer + 1, .follow inside isName link nofun ?_⟩
    rw [List.append_nil]
    exact on

/-- **A walk that comes by the name of a file** leads to the file or to its name. -/
theorem target_eq (nameOf : NameOf files name reached) {budget : Nat} (plain : purpose ≠ .writing)
    (leads : Leads files purpose budget location segments target)
    (visits : ComesBy files purpose links location segments name) :
    target = .entry reached ∨ target = .entry name := by
  rcases leads.of_comesBy visits nameOf.kindAt_ne_directory with
    ended | ⟨fewer, parent, segment, rest, rfl, isName, walk⟩
  · exact Or.inr ended
  rcases nameOf.leads with same | ⟨text, _, link, on⟩
  · obtain ⟨kind, found⟩ := Option.ne_none_iff_exists'.mp nameOf.there
    have enters := walk.of_enter isName (same.symm ▸ found) fun text isLink =>
      nameOf.solid text (isLink ▸ found)
    exact Or.inr (enters.eq_of_outside (same ▸ nameOf.outside)).2
  · by_cases stops : rest = [] ∧ purpose = .naming
    · obtain ⟨rfl, rfl⟩ := stops
      exact Or.inr (walk.unique (.stop 0 walk.inside isName link rfl))
    · -- Behind the file that the link leads to there is no way on.
      obtain ⟨_, whole⟩ := walk.of_follow isName link stops
      rw [List.dropLast_concat] at on
      obtain ⟨_, after⟩ := on.append whole plain fun naming last => stops ⟨last, naming⟩
      exact Or.inl (after.eq_of_outside nameOf.outside).2

end NameOf

/-- What a path names is a name of what it leads to. -/
theorem Leads.nameOf {name reached : Location} {budget : Nat} {entry : Entry}
    (names : Leads files .naming links location segments (.entry name))
    (reads : Leads files .reading budget location segments (.entry reached))
    (found : files.lookup reached = some entry) (outside : files.kindAt reached ≠ some .directory)
    (solid : ∀ text, entry ≠ .link text) : NameOf files name reached where
  outside := outside
  solid := fun text => (kindAt_of_lookup found).trans_ne fun same =>
    kind_ne_link solid text (Option.some.inj same)
  there := (kindAt_of_lookup found).trans_ne nofun
  leads := names.naming reads

/-! ### Entries that are gone -/

/-- A walk that now ends where an entry is gone. If nothing follows there, it named this entry, and
led to all that is reached from it. -/
structure Missed (files later : FileSystem) (purpose : Purpose) (links : Nat) (location : Location)
    (segments : List String) (place : Location) (slash : Bool) : Prop where
  visits : ComesBy files purpose links location segments place
  there : files.lookup place ≠ none
  gone : later.lookup place = none
  names : slash = false → purpose = .naming →
    Leads files .naming links location segments (.entry place)
  reads : slash = false → ∀ reached, NameOf files place reached →
    ∃ budget, Leads files .reading budget location segments (.entry reached)

namespace Missed

variable {segment text : String} {rest : List String} {slash : Bool}

theorem stay (missed : Missed files later purpose links location rest place slash)
    (inside : files.kindAt location = some .directory) (idle : segment = "" ∨ segment = ".") :
    Missed files later purpose links location (segment :: rest) place slash where
  visits := .stay inside idle missed.visits
  there := missed.there
  gone := missed.gone
  names := fun last naming => .stay inside idle (missed.names last naming)
  reads := fun last reached nameOf => by
    obtain ⟨budget, leads⟩ := missed.reads last reached nameOf
    exact ⟨budget, .stay inside idle leads⟩

theorem up (missed : Missed files later purpose links location.dropLast rest place slash)
    (inside : files.kindAt location = some .directory) :
    Missed files later purpose links location (".." :: rest) place slash where
  visits := .up inside missed.visits
  there := missed.there
  gone := missed.gone
  names := fun last naming => .up inside (missed.names last naming)
  reads := fun last reached nameOf => by
    obtain ⟨budget, leads⟩ := missed.reads last reached nameOf
    exact ⟨budget, .up inside leads⟩

theorem follow (missed : Missed files later purpose links (afterLink location text)
      (Path.segments text ++ rest) place slash) (inside : files.kindAt location = some .directory)
    (name : IsName purpose segment rest)
    (found : files.kindAt (location ++ [segment]) = some (.link text))
    (through : ¬(rest = [] ∧ purpose = .naming)) :
    Missed files later purpose (links + 1) location (segment :: rest) place slash where
  visits := .follow inside name found through missed.visits
  there := missed.there
  gone := missed.gone
  names := fun last naming => by
    subst naming
    exact .follow inside name found through (missed.names last rfl)
  reads := fun last reached nameOf => by
    obtain ⟨budget, leads⟩ := missed.reads last reached nameOf
    exact ⟨budget + 1, .follow inside (name.reading _) found nofun leads⟩

theorem enter {kind : Kind}
    (missed : Missed files later purpose links (location ++ [segment]) rest place slash)
    (inside : files.kindAt location = some .directory) (name : IsName purpose segment rest)
    (found : files.kindAt (location ++ [segment]) = some kind) (solid : ∀ text, kind ≠ .link text) :
    Missed files later purpose links location (segment :: rest) place slash where
  visits := .enter inside name found solid missed.visits
  there := missed.there
  gone := missed.gone
  names := fun last naming => by
    subst naming
    exact .enter inside name found solid (missed.names last rfl)
  reads := fun last reached nameOf => by
    obtain ⟨budget, leads⟩ := missed.reads last reached nameOf
    exact ⟨budget, .enter inside (name.reading _) found solid leads⟩

/-- The walk that ends at once where an entry is gone. -/
theorem at_once (links : Nat) (inside : files.kindAt location = some .directory)
    (name : IsName purpose segment rest) (last : rest = [] ∨ endsInSlash rest = true)
    (there : files.lookup (location ++ [segment]) ≠ none)
    (gone : later.lookup (location ++ [segment]) = none) :
    Missed files later purpose links location (segment :: rest) (location ++ [segment])
      (endsInSlash rest) where
  visits := .next links inside name
  there := there
  gone := gone
  names := fun noSlash naming => by
    obtain rfl := last.resolve_right (by rw [noSlash]; nofun)
    obtain ⟨entry, found⟩ := Option.ne_none_iff_exists'.mp there
    subst naming
    cases kind : entry.kind with
    | link text => exact .stop links inside name (kind ▸ kindAt_of_lookup found) rfl
    | directory | file | nullDevice =>
      exact .enter inside name (kindAt_of_lookup found) (by rw [kind]; exact fun _ => nofun)
        (.arrive links _)
  reads := fun noSlash reached nameOf => by
    obtain rfl := last.resolve_right (by rw [noSlash]; nofun)
    exact nameOf.exists_leads rfl inside (name.reading _)

end Missed

/-- **Where entries on its trail are gone**, a walk leads where it led, or ends where one is gone. -/
theorem Leads.of_removals (leads : Leads later purpose links location segments target)
    (only : ∀ place, ComesBy files purpose links location segments place →
      later.lookup place = files.lookup place ∨ later.lookup place = none) :
    Leads files purpose links location segments target ∨
      ∃ place slash, target = .missing place slash ∧
        Missed files later purpose links location segments place slash := by
  have kept : ∀ {links location segments place kind}, (∀ place,
      ComesBy files purpose links location segments place →
        later.lookup place = files.lookup place ∨ later.lookup place = none) →
      ComesBy files purpose links location segments place →
      later.kindAt place = some kind → files.kindAt place = some kind := by
    intro links location segments place kind only visits found
    rcases only place visits with same | gone
    · exact (kindAt_congr same).symm.trans found
    · cases (kindAt_eq_none_iff.mpr gone).symm.trans found
  induction leads with
  | arrive links location => exact Or.inl (.arrive links location)
  | stay inside idle _ ih =>
    have inside := kept only (.here _ _ _) inside
    refine (ih fun place on => only place (.stay inside idle on)).imp (.stay inside idle ·) ?_
    rintro ⟨place, slash, rfl, missed⟩
    exact ⟨place, slash, rfl, missed.stay inside idle⟩
  | up inside _ ih =>
    have inside := kept only (.here _ _ _) inside
    refine (ih fun place on => only place (.up inside on)).imp (.up inside ·) ?_
    rintro ⟨place, slash, rfl, missed⟩
    exact ⟨place, slash, rfl, missed.up inside⟩
  | @missing location segment rest links inside name nothing last =>
    have inside := kept only (.here _ _ _) inside
    by_cases free : files.lookup (location ++ [segment]) = none
    · exact Or.inl (.missing links inside name (kindAt_eq_none_iff.mpr free) last)
    · exact Or.inr ⟨_, _, rfl,
        .at_once links inside name last free (kindAt_eq_none_iff.mp nothing)⟩
  | stop links inside name found naming =>
    have inside := kept only (.here _ _ _) inside
    exact Or.inl (.stop links inside name (kept only (.next _ inside name) found) naming)
  | follow inside name found through _ ih =>
    have inside := kept only (.here _ _ _) inside
    have found := kept only (.next _ inside name) found
    refine (ih fun place on => only place (.follow inside name found through on)).imp
      (.follow inside name found through ·) ?_
    rintro ⟨place, slash, rfl, missed⟩
    exact ⟨place, slash, rfl, missed.follow inside name found through⟩
  | enter inside name found solid _ ih =>
    have inside := kept only (.here _ _ _) inside
    have found := kept only (.next _ inside name) found
    refine (ih fun place on => only place (.enter inside name found solid on)).imp
      (.enter inside name found solid ·) ?_
    rintro ⟨place, slash, rfl, missed⟩
    exact ⟨place, slash, rfl, missed.enter inside name found solid⟩

end Trails

end FileSystem

end Inflate
