/-
**What a job does to the console.**

Standard input is taken by the jobs that read it, as a whole, and left alone by all others. Standard
output is written to only once nothing can fail any more but the removal of the source.

* `input_decompressFile`: what a job leaves of standard input;
* `process_output`: a job that fails before its source is removed has written nothing.
-/

import Inflate.Proofs.Job

namespace Inflate

variable {source destination : String} {preferences : Preferences} {world : World}

/-! ### Parts of jobs -/

section Parts

variable {γ : Type} {part : Console → γ}
  (plain : ∀ console remarks, part { console with remarks } = part console)

include plain

/-- Reading a source leaves a part alone that standard input is no matter of. -/
theorem keeps_readSource (unheard : isStandardInput source = true →
      ∀ console : Console, part { console with input := [] } = part console) :
    Task.Keeps part (readSource source) := by
  unfold readSource
  split
  · next standard =>
    refine (Task.keeps_say plain _ _).bind fun _ => ?_
    exact Task.keeps_lift fun world => unheard standard world.console
  · refine Task.keeps_currentFiles.bind fun files => ?_
    split
    · exact (Task.keeps_say plain _ _).bind fun _ => Task.keeps_throw _
    · split
      · exact Task.keeps_pure _
      · exact Task.keeps_throw _

theorem keeps_decodeSource (content : Bytes) :
    Task.Keeps part (decodeSource source content preferences) :=
  (Task.keeps_perform plain _).adapt _

theorem keeps_openDestination (target : Destination) (overwrite : Bool) :
    Task.Keeps part (openDestination target overwrite) := by
  unfold openDestination
  cases target with
  | standardOutput => exact (Task.keeps_say plain _ _).bind fun _ => Task.keeps_pure _
  | nowhere => exact Task.keeps_pure _
  | file path =>
    refine Task.keeps_currentFiles.bind fun files => ?_
    split
    · exact (Task.keeps_say plain _ _).bind fun _ => Task.keeps_throw _
    · split
      · exact (Task.keeps_setFiles _).bind fun _ => Task.keeps_pure _
      · exact Task.keeps_throw _

theorem keeps_persist (directory name : String) (data : Bytes) :
    Task.Keeps part (persist directory name data) := by
  refine Task.keeps_currentFiles.bind fun files => (Task.keeps_setFiles _).bind fun _ => ?_
  split
  · exact Task.keeps_throw _
  · exact (Task.keeps_say plain _ _).bind fun _ => Task.keeps_pure _

theorem keeps_persistAt (word : Word) (name : String) (data : Bytes) :
    Task.Keeps part (persistAt word name data) := by
  unfold persistAt
  split
  · exact keeps_persist plain _ _ _
  · exact Task.keeps_currentFiles.bind fun _ => Task.keeps_throw _

/-- Writing into the output directory leaves all but the remarks alone. -/
theorem keeps_persisting (word : Word) (decoded : Decoded) :
    Task.Keeps part (ExceptT.adapt (Failure.about source) do
      let name ← MonadExcept.ofExcept (Naming.outputName decoded)
      return some (← persistAt word name decoded.data)) := by
  refine Task.Keeps.adapt ?_ _
  refine (Task.keeps_ofExcept _).bind fun name => ?_
  exact (keeps_persistAt plain word name decoded.data).bind fun _ => Task.keeps_pure _

theorem keeps_copyStatus (path : String) (decoded : Decoded) :
    Task.Keeps part (liftM (copyStatus source path decoded preferences) : Task IoError Unit) := by
  refine Task.keeps_lift fun world => ?_
  unfold copyStatus
  rw [run_currentFiles_bind]
  split
  · rfl
  · split
    · split
      · rfl
      · exact Task.console_say plain _ _ _
    · rfl

theorem keeps_conclude (report : Report) : Task.Keeps part (conclude source preferences report) := by
  have said : ∀ line, Task.Keeps part (do say 2 line; return report : Task IoError Report) :=
    fun line => (Task.keeps_say plain _ _).bind fun _ => Task.keeps_pure _
  unfold conclude
  split
  · refine Task.Keeps.bind ?_ fun _ => said _
    refine Task.keeps_currentFiles.bind fun files => ?_
    split
    · exact Task.keeps_setFiles _
    · exact Task.keeps_throw _
  · exact said _

end Parts

/-! ### Standard input -/

theorem input_plain (console : Console) (remarks : String) :
    Console.input { console with remarks } = console.input := rfl

/-- Storing an output takes nothing from standard input. -/
theorem keeps_store_input (decoded : Decoded) :
    Task.Keeps Console.input (store source destination decoded preferences) := by
  have emits : ∀ data, Task.Keeps Console.input (liftM (emit data) : Task IoError Unit) :=
    fun _ => Task.keeps_lift fun _ => rfl
  unfold store
  split
  · exact Task.keeps_pure _
  · split
    · exact keeps_persisting input_plain _ _
    · refine ((Task.keeps_ofExcept _).adapt _).bind fun chosen => ?_
      split
      · exact Task.keeps_throw _
      · refine Task.Keeps.bind ?_ fun _ => Task.keeps_pure _
        refine (keeps_openDestination input_plain _ _).bind fun place => ?_
        split
        · exact emits _
        · exact Task.keeps_currentFiles.bind fun _ => Task.keeps_setFiles _
        · exact Task.keeps_pure _

/-- What reading a source leaves of standard input. -/
theorem input_readSource (source : String) (world : World) :
    (Task.on (readSource source) world).2.console.input =
      if isStandardInput source then [] else world.console.input := by
  by_cases standard : isStandardInput source = true
  · rw [if_pos standard, readSource, if_pos standard]
    rfl
  · rw [if_neg standard]
    exact keeps_readSource input_plain (fun given => absurd given standard) world

/-- **What a job leaves of standard input**: nothing if that is its source, and otherwise all. -/
theorem input_decompressFile (source destination : String) (preferences : Preferences)
    (world : World) :
    (Task.on (decompressFile source destination preferences) world).2.console.input =
      if isStandardInput source then [] else world.console.input := by
  calc
    (Task.on (decompressFile source destination preferences) world).2.console.input
      = (Task.on (process source destination preferences) world).2.console.input := by
        rw [decompressFile_eq]
        exact Task.on_bind_of_keeps _ (fun _ => keeps_conclude input_plain _) world
    _ = (Task.on (readSource source) world).2.console.input := by
        refine Task.on_bind_of_keeps _ (fun content => ?_) world
        refine (keeps_decodeSource input_plain content).bind fun decoded => ?_
        refine (keeps_store_input decoded).bind fun written => ?_
        cases written with
        | none => exact Task.keeps_pure _
        | some path =>
          exact (keeps_copyStatus input_plain path decoded).bind fun _ => Task.keeps_pure _
    _ = if isStandardInput source then [] else world.console.input := input_readSource source world

/-! ### Standard output -/

theorem output_plain (console : Console) (remarks : String) :
    Console.output { console with remarks } = console.output := rfl

/-- A destination that fails was not opened, so nothing was written to standard output. -/
theorem writeDestination_output (target : Destination) (overwrite : Bool) (data : Bytes)
    (world : World) :
    Task.Does (writeDestination target overwrite data) world (fun _ _ => True)
      fun _ after => after.console.output = world.console.output := by
  unfold writeDestination
  refine ((keeps_openDestination output_plain target overwrite).does world).bind
    (fun _ _ same => same) ?_
  intro place after _
  cases target <;> cases place <;> exact trivial

/-- An output that could not be stored was not written to standard output. -/
theorem store_output (decoded : Decoded) (world : World) :
    Task.Does (store source destination decoded preferences) world (fun _ _ => True)
      fun _ after => after.console.output = world.console.output := by
  unfold store
  split
  · exact trivial
  · split
    · exact ((keeps_persisting output_plain _ _).does world).imp (fun _ _ _ => trivial)
        fun _ _ same => same
    · have choosing : Task.Keeps Console.output (ExceptT.adapt (Failure.about source)
          (MonadExcept.ofExcept (chosenDestination source destination decoded preferences) :
            Task Failure String)) := (Task.keeps_ofExcept _).adapt _
      refine (choosing.does world).bind (fun _ _ same => same) ?_
      intro chosen after same
      split
      · exact same
      · refine (writeDestination_output _ _ _ after).bind (fun _ _ kept => kept.trans same) ?_
        exact fun _ _ _ => trivial

/-- **A job that fails before its source is removed** has written nothing to standard output. -/
theorem process_output (source destination : String) (preferences : Preferences) (world : World) :
    Task.Does (process source destination preferences) world (fun _ _ => True)
      fun _ after => after.console.output = world.console.output := by
  have reads : Task.Keeps Console.output (readSource source) :=
    keeps_readSource output_plain fun _ _ => rfl
  unfold process
  refine (reads.does world).bind (fun _ _ same => same) ?_
  intro content read same
  refine ((keeps_decodeSource output_plain content).does read).bind
    (fun _ _ kept => kept.trans same) ?_
  intro decoded opened kept
  refine (store_output decoded opened).bind (fun _ _ still => (still.trans kept).trans same) ?_
  intro written stored _
  cases written with
  | none => exact trivial
  | some path => exact Task.does_lift_bind trivial

end Inflate
