/-
**Decompressing several files.**

A batch gives every source a destination, skips the sources that have none, and runs the jobs in the
order of the list. A job that fails is remarked on and counted, and the others run all the same.

* `Batch.destination?`: the destination of a source;
* `Batch.run`: a whole batch; it succeeds if no source was skipped and no job failed.
-/

import Inflate.Job

namespace Inflate

open Text (decimal)

namespace Batch

/-- A source and its destination. -/
structure Item where
  source : String
  destination : String
deriving DecidableEq, Repr

/-- The destination of a source: the common one if there is one, nowhere if no destination is needed,
and otherwise the name of the source without its suffix. -/
def destination? (common : Option String) (preferences : Preferences) (source : String) :
    Option String :=
  match common with
  | some name => some name
  | none =>
    if preferences.testMode || preferences.outputDirectory.isSome then some nowhereName
    else Naming.derivedName source

/-- The jobs of a batch. -/
def items (common : Option String) (preferences : Preferences) (sources : List String) :
    List Item :=
  sources.filterMap fun source =>
    (destination? common preferences source).map fun destination => ⟨source, destination⟩

/-- The sources that are skipped. -/
def skipped (common : Option String) (preferences : Preferences) (sources : List String) :
    List String :=
  sources.filter fun source => (destination? common preferences source).isNone

theorem length_items_add_length_skipped (common : Option String) (preferences : Preferences)
    (sources : List String) :
    (items common preferences sources).length + (skipped common preferences sources).length =
      sources.length := by
  induction sources with
  | nil => rfl
  | cons source rest ih =>
    cases found : destination? common preferences source <;>
      simp_all [items, skipped] <;> omega

/-! ### Running -/

/-- Runs one job. A failure is remarked on. -/
def attemptItem (preferences : Preferences) (item : Item) : StateM World (Except IoError Report) := do
  let result ← (decompressFile item.source item.destination preferences).run
  if let .error error := result then say 1 (signed error.message)
  return result

/-- Runs jobs one after the other. -/
def runItems (preferences : Preferences) (jobs : List Item) :
    StateM World (List (Except IoError Report)) :=
  jobs.mapM (attemptItem preferences)

/-- The remark on a source that is skipped. -/
def skippedLine (source : String) : String :=
  signed (source ++ ": unknown suffix -- ignored ")

/-- Whether the jobs are shared out among workers. -/
def isShared (common : Option String) (preferences : Preferences) (jobs : List Item) : Bool :=
  decide (1 < preferences.workers) && decide (1 < jobs.length) &&
    common != some standardOutputName

/-- The reports of the jobs that succeeded. -/
def reports (results : List (Except IoError Report)) : List Report :=
  results.filterMap Except.toOption

/-- How many jobs failed. -/
def failures (results : List (Except IoError Report)) : Nat :=
  results.length - (reports results).length

/-- The line that a finished batch shows. The time taken is not measured and shown as zero. -/
def finishedLine (results : List (Except IoError Report)) : String :=
  let total := (reports results).foldl (fun sum report => sum + report.size) 0
  decimal (reports results).length ++ " files, " ++ decimal total ++ " bytes decoded in 0.00 s \n"

/-- The error of a batch in which not all went well. -/
def incomplete (failed skipped : Nat) : IoError :=
  ⟨.other, decimal failed ++ " file(s) could not be decompressed; " ++ decimal skipped ++
    " file(s) skipped"⟩

/-- Runs a batch. -/
def run (sources : List String) (common : Option String) (preferences : Preferences) :
    Task IoError Unit := do
  let jobs := items common preferences sources
  let left := skipped common preferences sources
  sayAll (left.map fun source => (1, skippedLine source))
  if isShared common preferences jobs then
    say 4 ("Using " ++ decimal preferences.workers ++ " threads for decompression \n")
  let results ← runItems preferences jobs
  say 3 (finishedLine results)
  if 0 < failures results + left.length then
    throw (incomplete (failures results) left.length)

end Batch

end Inflate
