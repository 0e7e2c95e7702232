/-
**Preferences for work on files.**

Preferences say what is done with sources and destinations, besides how streams are decoded. The
count of workers is always between one and `maxWorkers`.

* `workerCount_pos`, `workerCount_le`: the bounds on the count of workers;
* `Preferences.summary`: all preferences in one line.
-/

import Inflate.Options
import Inflate.World

namespace Inflate

open Text (decimal)

/-- How files are decompressed. Without a container of its own each source shows which it has, and
with an output directory the outputs are named there by the names they ask for. -/
structure Preferences where
  overwrite : Bool := false
  testMode : Bool := false
  removeSource : Bool := false
  useStoredName : Bool := false
  format : Option Format := none
  options : Options := {}
  outputDirectory : Option Word := none
  workers : Nat := 1
deriving DecidableEq, Repr

/-! ### The count of workers -/

/-- The greatest count of workers. -/
def maxWorkers : Nat := 200

/-- The count of workers that is asked for; zero asks for the count that suits the host. -/
def wantedWorkers (host requested : Nat) : Nat := if requested = 0 then host else requested

/-- The count of workers that is used. -/
def workerCount (host requested : Nat) : Nat :=
  max 1 (min (wantedWorkers host requested) maxWorkers)

theorem workerCount_pos (host requested : Nat) : 1 ≤ workerCount host requested :=
  Nat.le_max_left _ _

theorem workerCount_le (host requested : Nat) : workerCount host requested ≤ maxWorkers :=
  Nat.max_le.mpr ⟨by decide, Nat.min_le_right _ _⟩

/-- The remark on a count of workers that is too great. -/
def tooManyWorkers (wanted : Nat) : String :=
  "Requested " ++ decimal wanted ++ " threads too large => automatically reduced to " ++
    decimal maxWorkers ++ " \n"

/-- Sets the count of workers, and remarks on one that is too great. -/
def Preferences.withWorkers (preferences : Preferences) (host requested : Nat) :
    StateM World Preferences := do
  let wanted := wantedWorkers host requested
  if maxWorkers < wanted then say 3 (tooManyWorkers wanted)
  return { preferences with workers := workerCount host requested }

/-! ### One line -/

/-- A truth value. -/
def summaryOfBool (value : Bool) : String := if value then "true" else "false"

/-- A value that may be absent. -/
def summaryOfOption {α : Type} (text : α → String) : Option α → String
  | none => "None"
  | some value => "Some(" ++ text value ++ ")"

/-- The name of a container with a capital letter. -/
def summaryOfFormat (format : Format) : String := format.name.capitalize

/-- Fields with their values, under a title. -/
def summaryOfFields (title : String) (fields : List (String × String)) : String :=
  title ++ " \x7b " ++
    String.intercalate ", " (fields.map fun field => field.1 ++ ": " ++ field.2) ++ " \x7d"

/-- The options in one line. -/
def Options.summary (options : Options) : String :=
  summaryOfFields "Options" [
    ("max_output", summaryOfOption decimal options.maxOutput),
    ("allow_trailing_data", summaryOfBool options.allowTrailing),
    ("initial_capacity", summaryOfOption decimal options.initialCapacity)]

/-- The preferences in one line. -/
def Preferences.summary (preferences : Preferences) : String :=
  summaryOfFields "Prefs" [
    ("overwrite", summaryOfBool preferences.overwrite),
    ("test_mode", summaryOfBool preferences.testMode),
    ("remove_src_file", summaryOfBool preferences.removeSource),
    ("use_stored_name", summaryOfBool preferences.useStoredName),
    ("format", summaryOfOption summaryOfFormat preferences.format),
    ("options", preferences.options.summary),
    ("output_dir", summaryOfOption Text.quotedWord preferences.outputDirectory),
    ("nb_workers", decimal preferences.workers)]

end Inflate
