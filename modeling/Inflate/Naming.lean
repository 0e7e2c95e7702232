/-
**Names of outputs.**

An output that is persisted has the name stored in its gzip header, without any directories, or else
its checksum with an ending. An output that is written beside its source has the name of the source
without the suffix that marks it as compressed.

* `safeName_eq_ok_iff`: a stored name is usable exactly if its last part is not empty, one dot or two
  dots;
* `isSeparator_of_mem_lastPart`: a last part holds no separator;
* `derivedName`: the name of a source without its suffix.
-/

import Inflate.Decoded

namespace Inflate

namespace Naming

/-! ### Last parts -/

/-- The characters that separate the parts of a path; either kind may come from a stored name. -/
def isSeparator (c : Char) : Bool := c == '/' || c == '\\'

/-- The characters after the last separator. -/
def lastPart (path : List Char) : List Char :=
  (path.reverse.takeWhile (fun c => !isSeparator c)).reverse

/-- A last part holds no separator. -/
theorem isSeparator_of_mem_lastPart {path : List Char} {c : Char} (member : c ∈ lastPart path) :
    isSeparator c = false := by
  rw [lastPart, List.mem_reverse] at member
  simpa using List.all_eq_true.mp List.all_takeWhile c member

/-- A list without separators is its own last part. -/
theorem lastPart_of_forall {path : List Char} (plain : ∀ c ∈ path, isSeparator c = false) :
    lastPart path = path := by
  have whole : ∀ l : List Char, (∀ c ∈ l, isSeparator c = false) →
      l.takeWhile (fun c => !isSeparator c) = l := by
    intro l plain
    induction l with
    | nil => rfl
    | cons c rest ih =>
      simp only [List.mem_cons, forall_eq_or_imp] at plain
      simp [plain.1, ih plain.2]
  rw [lastPart, whole _ (by simpa using plain), List.reverse_reverse]

/-- The text after the last separator of a path. -/
def lastName (path : String) : String := String.ofList (lastPart path.toList)

/-! ### Persisted outputs -/

/-- Whether a last part can be the name of a file. -/
def isProper (name : String) : Bool := name != "" && name != "." && name != ".."

/-- A stored name without its directories. -/
def safeName (stored : String) : Except Failure String :=
  let name := lastName stored
  if isProper name then .ok name else .error (.invalidFileName stored)

/-- A stored name is usable exactly if its last part is proper. -/
theorem safeName_eq_ok_iff {stored name : String} :
    safeName stored = .ok name ↔ name = lastName stored ∧ isProper name = true := by
  unfold safeName
  constructor
  · intro safe
    simp only at safe
    split at safe
    · next proper =>
      cases safe
      exact ⟨rfl, proper⟩
    · cases safe
  · rintro ⟨rfl, proper⟩
    simp [proper]

/-- The ending of an output that has no stored name. -/
def outputEnding : String := ".out"

/-- The name of a persisted output. -/
def outputName (decoded : Decoded) : Except Failure String :=
  match decoded.storedName with
  | some stored => safeName stored
  | none => .ok (Text.hex 8 decoded.checksum.toNat ++ outputEnding)

/-! ### Outputs beside their source -/

/-- The suffixes of compressed files and what takes their place, in the order they are tried. -/
def suffixes : List (String × String) :=
  [(".zlib", ""), (".tgz", ".tar"), (".zz", ""), (".gz", ""), (".z", "")]

/-- What is before a suffix. -/
def stripSuffix? (suffix path : List Char) : Option (List Char) :=
  if suffix.isSuffixOf path then some (path.take (path.length - suffix.length)) else none

/-- The name without one given suffix, unless nothing of its last part would remain. -/
def derivedWith (path : List Char) (entry : String × String) : Option String :=
  match stripSuffix? entry.1.toList path with
  | some stem =>
    if (lastPart stem).isEmpty then none else some (String.ofList stem ++ entry.2)
  | none => none

/-- The name of a source without its suffix. -/
def derivedName (path : String) : Option String :=
  suffixes.findSome? (derivedWith path.toList)

/-- Whether a name marks a file as compressed. -/
def hasSuffix (path : String) : Bool := (derivedName path).isSome

end Naming

end Inflate
