/-
**Paths as texts.**

A path is a text whose segments are separated by slashes. A segment that is empty, or that is one dot
and not the first, says nothing; the others are the parts of the path. Two paths are the same path if
they have the same parts and both or neither begin with a slash; no link is followed for that, and
two dots are not resolved.

* `same`: whether two texts are the same path;
* `parent`, `join`, `fileName?`: taking paths apart and putting them together;
* `fileName?_of_proper`: a text without slashes that is not a dot path is its own file name.
-/

namespace Inflate

namespace Path

/-! ### Segments and parts -/

/-- The segments between the slashes of a list of characters. -/
def split : List Char → List (List Char)
  | [] => [[]]
  | c :: rest =>
    if c = '/' then [] :: split rest
    else match split rest with
      | [] => [[c]]
      | segment :: others => (c :: segment) :: others

/-- The segments between the slashes of a path. -/
def segments (path : String) : List String := (split path.toList).map String.ofList

/-- The path with the given segments. -/
def ofSegments (parts : List String) : String := String.intercalate "/" parts

/-- Whether a path begins with a slash. -/
def isAbsolute (path : String) : Bool := path.toList.head? == some '/'

/-- Whether a path ends with a slash. -/
def endsWithSlash (path : String) : Bool := path.toList.getLast? == some '/'

/-- Whether the segment at a position is a part of its path. -/
def isPart (position : Nat) (segment : String) : Bool :=
  segment != "" && (segment != "." || position == 0)

/-- The parts of a path. -/
def parts (path : String) : List String :=
  ((segments path).zipIdx.filter fun entry => isPart entry.2 entry.1).map Prod.fst

/-- Whether two texts are the same path. -/
def same (first second : String) : Bool :=
  isAbsolute first == isAbsolute second && parts first == parts second

/-! ### File names -/

/-- The last part of a path, unless it is one or two dots. -/
def fileName? (path : String) : Option String :=
  (parts path).getLast?.filter fun name => name != "." && name != ".."

theorem split_of_forall {chars : List Char} (plain : ∀ c ∈ chars, c ≠ '/') :
    split chars = [chars] := by
  induction chars with
  | nil => rfl
  | cons c rest ih =>
    simp only [List.mem_cons, forall_eq_or_imp] at plain
    simp [split, plain.1, ih plain.2]

/-- A text without slashes that is not a dot path is its own file name. -/
theorem fileName?_of_proper {name : String} (plain : ∀ c ∈ name.toList, c ≠ '/')
    (nonempty : name ≠ "") (notDot : name ≠ ".") (notDots : name ≠ "..") :
    fileName? name = some name := by
  have whole : segments name = [name] := by simp [segments, split_of_forall plain]
  have single : parts name = [name] := by simp [parts, whole, isPart, nonempty]
  simp [fileName?, single, notDot, notDots]

/-! ### Parents and children -/

/-- The path before the last part. A path of one part has the empty path before it, or the root. -/
def parent (path : String) : String :=
  let pieces := segments path
  let positions := (pieces.zipIdx.filter fun entry => isPart entry.2 entry.1).map Prod.snd
  match positions.dropLast.getLast? with
  | some position => ofSegments (pieces.take (position + 1))
  | none => if isAbsolute path && !positions.isEmpty then "/" else ""

/-- A name under a directory. -/
def join (directory name : String) : String :=
  if isAbsolute name then name
  else if directory = "" || endsWithSlash directory then directory ++ name
  else directory ++ "/" ++ name

end Path

end Inflate
