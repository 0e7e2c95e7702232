/-
**Names in a directory.**

The segments of a name under a directory are those of the directory and the name, so the walk goes to
the directory first and then to the name in it.

* `Path.segments_join`: the segments of a name under a directory;
* `resolve_join`: what a name under a directory that exists names.
-/

import Inflate.Proofs.FileSystem.Effects

namespace Inflate

/-! ### Segments -/

namespace Path

theorem split_ne_nil (chars : List Char) : split chars ≠ [] := by
  cases chars with
  | nil => exact List.cons_ne_nil _ _
  | cons c rest =>
    unfold split
    split
    · exact List.cons_ne_nil _ _
    · split <;> exact List.cons_ne_nil _ _

/-- The segments on both sides of a slash. -/
theorem split_append (first second : List Char) :
    split (first ++ '/' :: second) = split first ++ split second := by
  induction first with
  | nil => rfl
  | cons c rest ih =>
    obtain ⟨segment, others, parted⟩ := List.exists_cons_of_ne_nil (split_ne_nil rest)
    by_cases slash : c = '/'
    · simp [split, slash, ih]
    · simp [split, slash, ih, parted]

/-- No segment holds a slash. -/
theorem ne_of_mem_split {chars segment : List Char} (member : segment ∈ split chars) :
    ∀ c ∈ segment, c ≠ '/' := by
  induction chars generalizing segment with
  | nil =>
    obtain rfl := List.mem_singleton.mp member
    nofun
  | cons c rest ih =>
    obtain ⟨first, others, parted⟩ := List.exists_cons_of_ne_nil (split_ne_nil rest)
    rw [parted] at ih
    by_cases slash : c = '/'
    · rw [split, if_pos slash, parted] at member
      rcases List.mem_cons.mp member with rfl | member
      · nofun
      · exact ih member
    · rw [split, if_neg slash, parted] at member
      rcases List.mem_cons.mp member with rfl | member
      · exact List.forall_mem_cons.mpr ⟨slash, ih List.mem_cons_self⟩
      · exact ih (List.mem_cons_of_mem _ member)

/-- A text that can be the name of an entry. -/
structure Proper (name : String) : Prop where
  plain : ∀ c ∈ name.toList, c ≠ '/'
  nonempty : name ≠ ""
  notDot : name ≠ "."
  notDots : name ≠ ".."

/-- **The texts that are their own file names** are those that can name an entry. -/
theorem fileName?_eq_self_iff {name : String} : fileName? name = some name ↔ Proper name := by
  constructor
  · intro own
    obtain ⟨last, proper⟩ := Option.filter_eq_some_iff.mp own
    simp only [Bool.and_eq_true, bne_iff_ne] at proper
    obtain ⟨⟨segment, position⟩, entry, isName⟩ := List.mem_map.mp (List.mem_of_getLast? last)
    obtain rfl : segment = name := isName
    obtain ⟨member, part⟩ := List.mem_filter.mp entry
    simp only [isPart, Bool.and_eq_true, bne_iff_ne] at part
    obtain ⟨chars, piece, same⟩ : ∃ chars ∈ split segment.toList, String.ofList chars = segment :=
      List.mem_map.mp (List.fst_mem_of_mem_zipIdx member)
    have plain : ∀ c ∈ segment.toList, c ≠ '/' := by
      rw [← same, String.toList_ofList]
      exact ne_of_mem_split piece
    exact ⟨plain, part.1, proper.1, proper.2⟩
  · exact fun proper =>
      fileName?_of_proper proper.plain proper.nonempty proper.notDot proper.notDots

/-- A name is one segment. -/
theorem Proper.segments_eq {name : String} (proper : Proper name) : segments name = [name] := by
  simp [segments, split_of_forall proper.plain]

/-- A name begins with no slash. -/
theorem Proper.isAbsolute_eq_false {name : String} (proper : Proper name) :
    isAbsolute name = false := by
  unfold isAbsolute
  cases chars : name.toList with
  | nil => rfl
  | cons c rest =>
    have other : c ≠ '/' := proper.plain c (chars ▸ List.mem_cons_self)
    simp [other]

/-- **The segments of a name under a directory**: those of the directory, without the empty one behind
a last slash, and the name. -/
theorem segments_join {directory name : String} (proper : Proper name) (nonempty : directory ≠ "") :
    ∃ front, segments (join directory name) = front ++ [name] ∧
      (segments directory = front ∨ segments directory = front ++ [""]) := by
  have own : split name.toList = [name.toList] := split_of_forall proper.plain
  have name_eq : String.ofList name.toList = name := String.ofList_toList
  unfold join
  rw [if_neg (Bool.eq_false_iff.mp proper.isAbsolute_eq_false)]
  by_cases slash : endsWithSlash directory = true
  · rw [if_pos (by rw [slash, Bool.or_true])]
    have last : directory.toList.getLast? = some '/' := by simpa [endsWithSlash] using slash
    obtain ⟨front, chars⟩ := List.getLast?_eq_some_iff.mp last
    refine ⟨(split front).map String.ofList, ?_, Or.inr ?_⟩
    · simp [segments, chars, split_append, own, name_eq]
    · simp [segments, chars, split_append, split]
  · rw [if_neg (by simp [nonempty, slash])]
    refine ⟨segments directory, ?_, Or.inl rfl⟩
    have chars : (directory ++ "/" ++ name).toList = directory.toList ++ '/' :: name.toList := by
      simp
    simp [segments, chars, split_append, own, name_eq]

/-- A name under a directory begins where the directory does. -/
theorem isAbsolute_join {directory name : String} (proper : Proper name)
    (nonempty : directory ≠ "") : isAbsolute (join directory name) = isAbsolute directory := by
  obtain ⟨c, rest, chars⟩ : ∃ c rest, directory.toList = c :: rest :=
    List.exists_cons_of_ne_nil fun empty => nonempty (String.toList_eq_nil_iff.mp empty)
  unfold join
  rw [if_neg (Bool.eq_false_iff.mp proper.isAbsolute_eq_false)]
  split <;> simp [isAbsolute, chars]

end Path

/-! ### Walks -/

namespace FileSystem

open Inflate.Path (Proper)

variable {files : FileSystem} {directory name : String} {place : Location} {target : Target}

theorem directory?_eq_some_iff : files.directory? directory = some place ↔
    files.status directory = .ok (place, .directory) := by
  unfold directory?
  constructor
  · intro found
    split at found
    · next status =>
      cases found
      exact status
    · cases found
  · intro status
    rw [status]

/-- A directory that a path leads to now was there before files came to stand at some locations. -/
theorem directory?_before_fill {later : FileSystem} (fills : Fills files later)
    (found : later.directory? directory = some place) : files.directory? directory = some place := by
  obtain ⟨reads, inside⟩ := status_eq_ok_iff.mp (directory?_eq_some_iff.mp found)
  have kind := (fills.directory place).mp (kindAt_of_lookup inside)
  have stands : files.lookup place = some .directory := by
    simpa [isDirectoryAt] using isDirectoryAt_iff.mpr kind
  refine directory?_eq_some_iff.mpr (status_eq_ok_iff.mpr ⟨?_, stands⟩)
  refine (resolve_before_fill fills reads).resolve_right ?_
  rintro ⟨reached, same, file, -⟩
  cases same
  cases file.symm.trans (kindAt_of_lookup inside)

/-- A file in the working directory is found by its name, whatever for. -/
theorem resolve_here {file : RegularFile} (proper : Proper name) (usable : Usable name)
    (short : name.utf8ByteSize ≤ maxNameSize) (home : files.home = [])
    (found : files.lookup [name] = some (.file file)) (purpose : Purpose) :
    files.resolve name purpose = .ok (.entry [name]) := by
  have origin : files.origin name = [] := by rw [origin, home, ite_self]
  have isName : IsName purpose name [] :=
    ⟨proper.nonempty, proper.notDot, proper.notDots, fun slash => absurd slash.2 (by decide), short⟩
  refine resolve_eq_ok_iff.mpr ⟨usable, ?_⟩
  rw [origin, proper.segments_eq]
  have solid (text : String) : Kind.file ≠ .link text := Kind.noConfusion
  exact .enter (kindAt_nil files) isName (kindAt_of_lookup found) solid (.arrive _ _)

/-- What the name of a location names: the entry there, or that there is none. -/
def named (files : FileSystem) (place : Location) : Target :=
  if (files.lookup place).isSome then .entry place else .missing place false

theorem named_cases (files : FileSystem) (place : Location) :
    files.named place = .entry place ∨ files.named place = .missing place false := by
  unfold named
  split
  · exact Or.inl rfl
  · exact Or.inr rfl

/-- A walk to a name in a directory ends there. -/
theorem walk_name (inside : files.kindAt place = some .directory) (proper : Proper name)
    (links : Nat) : files.walk .naming links place [name] =
      if maxNameSize < name.utf8ByteSize then .error .nameTooLong
      else .ok (files.named (place ++ [name])) := by
  by_cases long : maxNameSize < name.utf8ByteSize
  · have idle : ¬(name = "" ∨ name = ".") := not_or.mpr ⟨proper.nonempty, proper.notDot⟩
    rw [walk, if_pos long, if_pos long]
    simp [isDirectoryAt_iff.mpr inside, idle, proper.notDots]
  · have isName : IsName .naming name [] :=
      ⟨proper.nonempty, proper.notDot, proper.notDots, fun writes => absurd writes.1 (by decide),
        Nat.not_lt.mp long⟩
    rw [walk_of_isName inside isName, if_neg long, named]
    cases files.lookup (place ++ [name]) with
    | none => rfl
    | some entry => cases entry <;> simp [walk]

/-- **A name under a directory that exists** names what has this name in the directory, if neither
the name nor the whole path is too long. -/
theorem resolve_join_eq (found : files.directory? directory = some place) (proper : Proper name) :
    files.resolve (Path.join directory name) .naming =
      if (Path.join directory name).toList.contains '\x00' then .error .nulInPath
      else if maxPathSize < (Path.join directory name).utf8ByteSize then .error .nameTooLong
      else if maxNameSize < name.utf8ByteSize then .error .nameTooLong
      else .ok (files.named (place ++ [name])) := by
  obtain ⟨reads, inside⟩ := status_eq_ok_iff.mp (directory?_eq_some_iff.mp found)
  obtain ⟨usable, led⟩ := resolve_eq_ok_iff.mp reads
  obtain ⟨front, whole, own⟩ := Path.segments_join proper usable.nonempty
  have origin : files.origin (Path.join directory name) = files.origin directory := by
    rw [FileSystem.origin, FileSystem.origin, Path.isAbsolute_join proper usable.nonempty]
  have nonempty : Path.join directory name ≠ "" := by
    intro empty
    rw [empty] at whole
    have only : [""] = front ++ [name] := whole
    cases front with
    | nil => exact proper.nonempty (List.singleton_inj.mp only).symm
    | cons => simp at only
  -- The walk to the directory is the same without a slash at its end.
  obtain ⟨taken, toPlace⟩ : ∃ taken,
      files.walk .naming maxLinks (files.origin directory) (front ++ [name]) =
        files.walk .naming taken place [name] := by
    have bare : Leads files .reading maxLinks (files.origin directory) front (.entry place) := by
      rcases own with same | same
      · exact same ▸ led
      · rw [same] at led
        exact led.of_last_idle (Or.inl rfl)
    exact bare.walk_append (by decide) fun _ => List.cons_ne_nil _ _
  unfold resolve
  rw [if_neg nonempty, origin, whole, toPlace, walk_name (kindAt_of_lookup inside) proper]

theorem resolve_join (found : files.directory? directory = some place) (proper : Proper name)
    (resolved : files.resolve (Path.join directory name) .naming = .ok target) :
    target = .entry (place ++ [name]) ∨ target = .missing (place ++ [name]) false := by
  rw [resolve_join_eq found proper] at resolved
  split at resolved
  · cases resolved
  split at resolved
  · cases resolved
  split at resolved
  · cases resolved
  obtain rfl := Except.ok.inj resolved
  exact files.named_cases _

end FileSystem

end Inflate
