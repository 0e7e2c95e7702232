/-
**The file system.**

A file system gives an entry to some locations, which are lists of names from the root on. The root
is always a directory. There are directories, regular files with a mode and a time, symbolic links and
the null device. Times are whole seconds, counted from the epoch forwards and backwards. The clock is
what new times are taken from. All files belong to the user of the program, who has no rights but
those of an owner.

Three things of a real file system are left out. A regular file stands at one location only: there are no
hard links. Directories have no permissions: every one may be searched, and entries may be added to it and
taken from it, so that a new file cannot fail for the directory it is made in. And names are texts of Unicode
characters: an entry whose name is made of other bytes does not occur, although a path may ask for one.

* `lookup_put`, `lookup_erase`: what changing one location does to all of them.
-/

import Inflate.Bytes

namespace Inflate

/-- A list of names from the root on. -/
abbrev Location := List String

/-- A regular file. -/
structure RegularFile where
  content : Bytes
  mode : Nat
  mtime : Int
deriving DecidableEq, Repr

namespace RegularFile

/-- Whether the owner may read a file. -/
def isReadable (file : RegularFile) : Bool := file.mode.testBit 8

/-- Whether the owner may write to a file. -/
def isWritable (file : RegularFile) : Bool := file.mode.testBit 7

end RegularFile

/-- What stands at a location. -/
inductive Entry where
  | directory
  | file (file : RegularFile)
  | link (target : String)
  | nullDevice
deriving DecidableEq, Repr

/-- The entries by location, the working directory and the clock. -/
structure FileSystem where
  entries : List (Location × Entry)
  home : Location
  clock : Int
deriving DecidableEq, Repr

namespace FileSystem

/-- The entry at a location. -/
def lookup (files : FileSystem) (location : Location) : Option Entry :=
  if location = [] then some .directory else files.entries.lookup location

/-- Puts an entry at a location, in place of the one there. -/
def put (files : FileSystem) (location : Location) (entry : Entry) : FileSystem :=
  { files with entries := (location, entry) :: files.entries.filter (·.1 != location) }

/-- Removes the entry at a location. -/
def erase (files : FileSystem) (location : Location) : FileSystem :=
  { files with entries := files.entries.filter (·.1 != location) }

theorem lookup_filter_ne (entries : List (Location × Entry)) (location other : Location) :
    (entries.filter (·.1 != location)).lookup other =
      if other = location then none else entries.lookup other := by
  induction entries with
  | nil => simp
  | cons head rest ih =>
    obtain ⟨key, entry⟩ := head
    by_cases here : key = location
    · subst here
      by_cases asked : other = key
      · subst asked
        simpa using ih
      · simp [List.lookup_cons, asked, ih, beq_eq_false_iff_ne.mpr asked]
    · by_cases asked : other = key
      · subst asked
        simp [here]
      · simp [List.lookup_cons, here, ih, beq_eq_false_iff_ne.mpr asked]

/-- Only the location put to changes. -/
theorem lookup_put (files : FileSystem) (location other : Location) (entry : Entry)
    (below : location ≠ []) :
    (files.put location entry).lookup other =
      if other = location then some entry else files.lookup other := by
  unfold lookup put
  by_cases top : other = []
  · subst top
    simp [below.symm]
  · by_cases here : other = location
    · subst here
      simp [top]
    · simp [top, here, List.lookup_cons, lookup_filter_ne, beq_eq_false_iff_ne.mpr here]

/-- Only the location erased changes. -/
theorem lookup_erase (files : FileSystem) (location other : Location) (below : location ≠ []) :
    (files.erase location).lookup other =
      if other = location then none else files.lookup other := by
  unfold lookup erase
  by_cases top : other = []
  · subst top
    simp [below.symm]
  · simp [top, lookup_filter_ne]

/-- Whether a directory stands at a location. -/
def isDirectoryAt (files : FileSystem) (location : Location) : Bool :=
  files.lookup location == some .directory

end FileSystem

end Inflate
