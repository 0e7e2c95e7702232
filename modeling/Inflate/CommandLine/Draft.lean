/-
**Options as they are collected.**

A draft holds what the words read so far have set. A flag or a setting that is given a second time is
a fault; but a flag that another one has cancelled in between counts as not given.

* `Draft.addFlag`, `Draft.assign`: what giving a flag or a value does;
* `nodup_addFlag`: the flags of a draft are all different;
* `parseCount`: a count of threads.
-/

import Inflate.CommandLine.Size
import Inflate.CommandLine.Usage
import Inflate.Decoded

namespace Inflate

namespace CommandLine

/-- What the words read so far have set. The flags stand in the order in which they were given. -/
structure Draft where
  flags : List Flag := []
  verbose : Nat := 0
  quiet : Nat := 0
  outputDirectory : Option Word := none
  format : Option (Option Format) := none
  maxOutput : Option Nat := none
  threads : Option Nat := none
  files : List String := []
deriving DecidableEq, Repr

/-! ### Counts -/

/-- Why a text is no count. -/
inductive CountFault where
  | empty
  | invalidDigit
  | tooLarge
deriving DecidableEq, Repr

/-- The text of a fault in a count. -/
def CountFault.message : CountFault → String
  | empty => "cannot parse integer from empty string"
  | invalidDigit => "invalid digit found in string"
  | tooLarge => "number too large to fit in target type"

/-- Reads digits after a number read so far, up to the first fault. -/
def countFrom (value : Nat) : List Char → Except CountFault Nat
  | [] => .ok value
  | c :: rest =>
    if c.isDigit then
      let next := 10 * value + (c.toNat - '0'.toNat)
      if next < 2 ^ 64 then countFrom next rest else .error .tooLarge
    else .error .invalidDigit

/-- A count, with or without a plus sign. -/
def parseCount (text : String) : Except CountFault Nat :=
  match text.toList with
  | [] => .error .empty
  | '+' :: c :: rest => countFrom 0 (c :: rest)
  | chars => countFrom 0 chars

/-! ### Values -/

/-- The container of a name; the first of them stands for the container that is found. -/
def parseFormat : String → Option (Option Format)
  | "auto" => some none
  | "zlib" => some (some .zlib)
  | "gzip" => some (some .gzip)
  | _ => none

namespace Draft

/-- Whether a setting was given. -/
def hasSetting (draft : Draft) : Setting → Bool
  | .outputDirectory => draft.outputDirectory.isSome
  | .format => draft.format.isSome
  | .maxOutput => draft.maxOutput.isSome
  | .threads => draft.threads.isSome

/-- Reads the value of a setting. -/
def assign (draft : Draft) (setting : Setting) (value : Word) : Except WordFault Draft :=
  match setting with
  | .outputDirectory =>
    if value.isEmpty then .error (.missingValue setting)
    else .ok { draft with outputDirectory := some value }
  | .format =>
    if value.isEmpty then .error (.missingValue setting)
    else match value.text?.bind parseFormat with
      | some format => .ok { draft with format := some format }
      | none => .error (.invalidValue setting value.lossy none)
  | .maxOutput =>
    match value.text? with
    | none => .error .undecodable
    | some text =>
      match parseSize text with
      | .ok size => .ok { draft with maxOutput := some size }
      | .error fault => .error (.invalidValue setting text (some fault.message))
  | .threads =>
    match value.text? with
    | none => .error .undecodable
    | some text =>
      match parseCount text with
      | .ok count => .ok { draft with threads := some count }
      | .error fault => .error (.invalidValue setting text (some fault.message))

/-- Gives a setting its value, if it has one. -/
def give (draft : Draft) (setting : Setting) (value : Option Word) : Except WordFault Draft :=
  match value with
  | none => .error (.missingValue setting)
  | some word =>
    if draft.hasSetting setting then .error (.repeated (.setting setting))
    else draft.assign setting word

/-! ### Flags, counters and files -/

/-- Gives a flag. Flags that it cancels are taken back. -/
def addFlag (draft : Draft) (flag : Flag) : Except WordFault Draft :=
  if flag ∈ draft.flags then .error (.repeated (.flag flag))
  else .ok { draft with flags := draft.flags.filter (fun other => !flag.cancels other) ++ [flag] }

/-- The flags of a draft are all different. -/
theorem nodup_addFlag {draft next : Draft} {flag : Flag} (different : draft.flags.Nodup)
    (added : draft.addFlag flag = .ok next) : next.flags.Nodup := by
  unfold addFlag at added
  split at added
  · cases added
  · next absent =>
    cases added
    simp only [List.nodup_append, List.nodup_cons, List.not_mem_nil, not_false_eq_true,
      List.nodup_nil, and_self, List.mem_cons, or_false, true_and]
    refine ⟨different.filter _, ?_⟩
    rintro other member flag rfl equal
    exact absent (equal ▸ (List.mem_filter.mp member).1)

/-- The greatest count of a counter. -/
def maxCount : Nat := 255

/-- Counts an occurrence of a counter. -/
def addCount (draft : Draft) : Counter → Draft
  | .verbose => { draft with verbose := min (draft.verbose + 1) maxCount }
  | .quiet => { draft with quiet := min (draft.quiet + 1) maxCount }

/-- Adds files. Their names must be decodable. -/
def addFiles (draft : Draft) (words : List Word) : Except WordFault Draft :=
  match words.mapM Word.text? with
  | some names => .ok { draft with files := draft.files ++ names }
  | none => .error .undecodable

/-- Whether a flag was given. -/
def has (draft : Draft) (flag : Flag) : Bool := draft.flags.contains flag

/-- Checks that no two flags exclude each other. The one given first is named first. -/
def checkConflicts (draft : Draft) : Except WordFault Draft :=
  match draft.flags.filter fun flag => flag == .test || flag == .list with
  | first :: second :: _ => .error (.conflict first second)
  | _ => .ok draft

end Draft

end CommandLine

end Inflate
