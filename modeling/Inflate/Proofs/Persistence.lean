/-
**What writing into a directory does.**

The stages of a writing are followed one by one. Up to the last one the only thing new is a temporary
file that nothing else is, and which holds the parts written so far. The last one moves it onto the
name, and a failure drops it.

* `lookup_freshName`: nothing has the name of a new temporary file;
* `landing_before_fill`, `landing_withFile`: other files do not change where a file lands;
* `Call.verdict`: what becomes of a writing, by the files before it;
* `Call.Holds`: what holds at each stage;
* `Call.holds_step`, `Call.holds_finish`: each stage keeps it, and so does the whole writing;
* `Call.finish_eq`: a whole writing leaves its output, or fails and changes nothing;
* `on_persist`, `persist_spec`: a whole writing as a task;
* `succeeds_persist`: it replaces what has its name.
-/

import Mathlib.Data.List.Nodup
import Mathlib.Data.List.Perm.Subperm
import Inflate.Persistence
import Inflate.Proofs.FileSystem.Join
import Inflate.Proofs.World

namespace Inflate

open FileSystem (Fills Gains Writes)

namespace Persistence

/-! ### Names of temporary files -/

theorem temporaryName_injective : Function.Injective temporaryName := by
  intro m n same
  have lengths := congrArg (fun name : String => name.toList.length) same
  simpa [temporaryName] using lengths

/-- Where an entry is, there is a key for it. -/
theorem mem_keys_of_lookup {files : FileSystem} {location : Location} (below : location ≠ [])
    (taken : files.lookup location ≠ none) : location ∈ files.entries.map Prod.fst := by
  unfold FileSystem.lookup at taken
  rw [if_neg below] at taken
  by_contra absent
  refine taken (List.lookup_eq_none_iff.mpr ?_)
  intro entry member
  rw [bne_iff_ne]
  rintro rfl
  exact absent (List.mem_map_of_mem member)

/-- **Nothing has a fresh name**: there are more candidates than entries. -/
theorem lookup_freshName (files : FileSystem) (directory : Location) :
    files.lookup (directory ++ [freshName files directory]) = none := by
  unfold freshName
  simp only
  cases found : ((List.range (files.entries.length + 1)).map temporaryName).find?
      fun name => (files.lookup (directory ++ [name])).isNone with
  | some name =>
    have free := List.find?_some found
    exact Option.isNone_iff_eq_none.mp free
  | none =>
    exfalso
    have taken := List.find?_eq_none.mp found
    have distinct : ((List.range (files.entries.length + 1)).map
        fun n => directory ++ [temporaryName n]).Nodup := by
      refine List.nodup_range.map fun m n same => ?_
      exact temporaryName_injective (List.singleton_inj.mp (List.append_cancel_left same))
    have among : ((List.range (files.entries.length + 1)).map
        fun n => directory ++ [temporaryName n]) ⊆ files.entries.map Prod.fst := by
      intro location member
      obtain ⟨n, inRange, rfl⟩ := List.mem_map.mp member
      have held := taken _ (List.mem_map_of_mem inRange)
      exact mem_keys_of_lookup (List.concat_ne_nil _ _)
        fun free => held (Option.isNone_iff_eq_none.mpr free)
    have count := (distinct.subperm among).length_le
    simp only [List.length_map, List.length_range] at count
    omega

/-! ### What holds at each stage -/

/-- A temporary file is where nothing was and holds some bytes, and all else is as before. -/
structure Kept (before files : FileSystem) (temporary : Location) (mode : Nat) (data : Bytes) :
    Prop where
  free : before.lookup temporary = none
  whole : files = before.withFile temporary mode data

namespace Kept

variable {before files : FileSystem} {temporary : Location} {mode : Nat} {data : Bytes}

theorem kindAt_ne (kept : Kept before files temporary mode data) (kind : Kind) :
    before.kindAt temporary ≠ some kind :=
  (FileSystem.kindAt_eq_none_iff.mpr kept.free).trans_ne nofun

/-- Without its temporary file, everything is as before. -/
theorem dropped (kept : Kept before files temporary mode data) : files.erase temporary = before := by
  rw [kept.whole]
  exact FileSystem.erase_put kept.free

/-- A temporary file that is moved leaves nothing behind. -/
theorem moved (kept : Kept before files temporary mode data) (location : Location) :
    files.move temporary location = before.withFile location mode data := by
  rw [kept.whole]
  exact FileSystem.move_withFile kept.free mode location

/-- Bytes are added to a temporary file. -/
theorem append (kept : Kept before files temporary mode data) (more : Bytes) :
    Kept before (files.appendAt temporary more) temporary mode (data ++ more) where
  free := kept.free
  whole := by
    rw [kept.whole]
    exact FileSystem.appendAt_withFile (kept.kindAt_ne .directory) mode more

/-- A temporary file gets another mode. -/
theorem grant (kept : Kept before files temporary mode data) (other : Nat) :
    Kept before (files.grantAt temporary other) temporary other data where
  free := kept.free
  whole := by
    rw [kept.whole]
    exact FileSystem.grantAt_withFile (kept.kindAt_ne .directory) mode other

end Kept

/-! ### Where a moved file lands -/

/-- The location that a file is moved to by its path. -/
def landing (files : FileSystem) (path : String) : Except Errno Location :=
  match files.resolve path .naming with
  | .error .nulInPath => .error .invalidArgument
  | .error errno => .error errno
  | .ok (.missing _ true) => .error .notDirectory
  | .ok (.missing location false) => .ok location
  | .ok (.entry location) => if files.isDirectoryAt location then .error .isDirectory else .ok location

theorem rename_eq (files : FileSystem) (source : Location) (path : String) :
    files.rename source path = (landing files path).map (files.move source) := by
  unfold FileSystem.rename landing
  rcases files.resolve path .naming with errno | location | ⟨location, slash⟩
  · cases errno <;> rfl
  · simp only
    split <;> rfl
  · cases slash <;> rfl

/-- A file lands where its path names an entry that is no directory, or where one would be. -/
theorem landing_eq_ok_iff {files : FileSystem} {path : String} {location : Location} :
    landing files path = .ok location ↔
      (files.resolve path .naming = .ok (.entry location) ∨
        files.resolve path .naming = .ok (.missing location false)) ∧
      files.kindAt location ≠ some .directory := by
  unfold landing
  constructor
  · intro landed
    split at landed
    · cases landed
    · cases landed
    · cases landed
    · next resolved =>
      cases landed
      have nothing := ((FileSystem.resolve_eq_ok_iff.mp resolved).2).kindAt_eq_none
      exact ⟨Or.inr resolved, nothing.trans_ne nofun⟩
    · next resolved =>
      split at landed
      · cases landed
      · next file =>
        cases landed
        exact ⟨Or.inl resolved, FileSystem.kindAt_ne_directory (Bool.not_eq_true _ ▸ file)⟩
  · rintro ⟨resolved | resolved, outside⟩
    · rw [resolved]
      exact if_neg fun directory => outside (FileSystem.isDirectoryAt_iff.mp directory)
    · rw [resolved]

/-- A file that is moved onto a name in a directory lands there. -/
theorem eq_of_landing_join {files : FileSystem} {directory name : String} {place location : Location}
    (found : files.directory? directory = some place) (proper : Path.Proper name)
    (landed : landing files (Path.join directory name) = .ok location) :
    location = place ++ [name] := by
  obtain ⟨names, -⟩ := landing_eq_ok_iff.mp landed
  rcases names with names | names <;>
    rcases FileSystem.resolve_join found proper names with same | same <;> cases same
  · rfl
  · rfl

/-- Where a file lands now it would have landed before files came to stand at some locations. -/
theorem landing_before_fill {before files : FileSystem} {path : String} {location : Location}
    (fills : Fills before files) (landed : landing files path = .ok location) :
    landing before path = .ok location := by
  obtain ⟨names, outside⟩ := landing_eq_ok_iff.mp landed
  have outside : before.kindAt location ≠ some .directory :=
    fun inside => outside ((fills.directory location).mpr inside)
  refine landing_eq_ok_iff.mpr ⟨?_, outside⟩
  rcases names with names | names
  · rcases FileSystem.resolve_before_fill fills names with earlier | ⟨reached, same, -, cause⟩
    · exact Or.inl earlier
    · cases same
      rcases cause with ⟨-, missed⟩ | other
      · exact Or.inr missed
      · exact absurd rfl other
  · rcases FileSystem.resolve_before_fill fills names with earlier | ⟨reached, same, -⟩
    · exact Or.inr earlier
    · cases same

/-- A temporary file in a directory does not change where a file lands in it. -/
theorem landing_withFile {before : FileSystem} {directory name : String} {place temporary : Location}
    (found : before.directory? directory = some place) (proper : Path.Proper name)
    (free : before.lookup temporary = none) (mode : Nat) (data : Bytes) :
    landing (before.withFile temporary mode data) (Path.join directory name) =
      landing before (Path.join directory name) := by
  have outside : before.kindAt temporary ≠ some .directory :=
    (FileSystem.kindAt_eq_none_iff.mpr free).trans_ne nofun
  have solid : ∀ text, before.kindAt temporary ≠ some (.link text) := fun _ =>
    (FileSystem.kindAt_eq_none_iff.mpr free).trans_ne nofun
  have gains := (FileSystem.writes_withFile outside mode data).gains
  have still : (before.withFile temporary mode data).directory? directory = some place := by
    obtain ⟨reads, inside⟩ :=
      FileSystem.status_eq_ok_iff.mp (FileSystem.directory?_eq_some_iff.mp found)
    refine FileSystem.directory?_eq_some_iff.mpr (FileSystem.status_eq_ok_iff.mpr ⟨?_, ?_⟩)
    · exact FileSystem.resolve_of_leads gains.home
        (fun _ _ leads => leads.of_gain gains outside solid) reads
    · rw [FileSystem.lookup_withFile outside, if_neg, inside]
      rintro rfl
      cases free.symm.trans inside
  unfold landing
  rw [FileSystem.resolve_join_eq found proper, FileSystem.resolve_join_eq still proper]
  by_cases nul : (Path.join directory name).toList.contains '\x00' = true
  · rw [if_pos nul, if_pos nul]
  rw [if_neg nul, if_neg nul]
  by_cases wide : FileSystem.maxPathSize < (Path.join directory name).utf8ByteSize
  · rw [if_pos wide, if_pos wide]
  rw [if_neg wide, if_neg wide]
  by_cases long : FileSystem.maxNameSize < name.utf8ByteSize
  · rw [if_pos long, if_pos long]
  rw [if_neg long, if_neg long]
  have same : (before.withFile temporary mode data).lookup (place ++ [name]) =
      if place ++ [name] = temporary then some (.file ⟨data, mode, before.clock⟩)
      else before.lookup (place ++ [name]) :=
    FileSystem.lookup_withFile outside mode _
  unfold FileSystem.named FileSystem.isDirectoryAt
  -- The name of the output may itself be that of the temporary file.
  by_cases here : place ++ [name] = temporary
  · subst here
    rw [if_pos rfl] at same
    simp [same, free]
  · rw [if_neg here] at same
    cases standing : before.lookup (place ++ [name]) with
    | none => simp [same, standing]
    | some entry => simp [same, standing]

namespace Call

/-- **What becomes of a writing**, by the files before it: the location of its output, or why there
is none. -/
def verdict (call : Call) (before : FileSystem) : Except Failure Location :=
  match before.status call.directory with
  | .ok (_, .directory) =>
    if Path.fileName? call.name = some call.name then
      (landing before call.path).mapError fun errno => .io errno.toIoError
    else .error (.invalidFileName call.name)
  | .ok _ => .error (.notADirectory call.directory)
  | .error errno => .error (unreachable call.directory errno)

/-- A writing that can begin: into a directory, under the name of a file. -/
structure Ready (call : Call) (before : FileSystem) : Prop where
  directory : before.isDirectory call.directory = true
  proper : Path.fileName? call.name = some call.name

/-- A writing that can be done: its path names an entry that is no directory, or where one would
be. -/
structure Accepts (call : Call) (before : FileSystem) (location : Location) : Prop extends
    Ready call before where
  names : before.resolve call.path .naming = .ok (.entry location) ∨
    before.resolve call.path .naming = .ok (.missing location false)
  outside : before.kindAt location ≠ some .directory

/-- The files that a writing leaves when it is done. -/
def output (call : Call) (before : FileSystem) (location : Location) : FileSystem :=
  before.withFile location FileSystem.newFileMode call.parts.flatten

section Holds

variable {call : Call} {before files : FileSystem} {location : Location}

/-- Once a writing can begin, it comes to where its file lands. -/
theorem Ready.verdict_eq (ready : call.Ready before) : call.verdict before =
    (landing before call.path).mapError fun errno => .io errno.toIoError := by
  obtain ⟨place, found⟩ := Option.isSome_iff_exists.mp ready.directory
  unfold verdict
  rw [FileSystem.directory?_eq_some_iff.mp found]
  exact if_pos ready.proper

/-- **The writings that can be done** are those with a location for their output. -/
theorem accepts_iff : call.Accepts before location ↔ call.verdict before = .ok location := by
  constructor
  · intro accepts
    rw [accepts.verdict_eq, landing_eq_ok_iff.mpr ⟨accepts.names, accepts.outside⟩]
    rfl
  · intro found
    have whole := found
    unfold verdict at found
    split at found
    · next status =>
      split at found
      · next proper =>
        have directory : before.isDirectory call.directory = true := by
          rw [FileSystem.isDirectory, FileSystem.directory?, status]
          rfl
        rw [Ready.verdict_eq ⟨directory, proper⟩] at whole
        cases landed : landing before call.path with
        | error errno =>
          rw [landed] at whole
          cases whole
        | ok place =>
          rw [landed] at whole
          cases whole
          obtain ⟨names, outside⟩ := landing_eq_ok_iff.mp landed
          exact ⟨⟨directory, proper⟩, names, outside⟩
      · cases found
    · cases found
    · cases found

/-- Where a writing can be done is where its directory has its name. -/
theorem Accepts.exists_place (accepts : call.Accepts before location) :
    ∃ place, before.directory? call.directory = some place ∧ location = place ++ [call.name] := by
  obtain ⟨place, found⟩ := Option.isSome_iff_exists.mp accepts.directory
  have proper := Path.fileName?_eq_self_iff.mp accepts.proper
  exact ⟨place, found,
    eq_of_landing_join found proper (landing_eq_ok_iff.mpr ⟨accepts.names, accepts.outside⟩)⟩

/-- What holds of the files at a stage of a writing that began with other files. -/
def Holds (call : Call) (before files : FileSystem) : Stage → Prop
  | .checkDirectory => files = before
  | .checkName => files = before ∧ before.isDirectory call.directory = true
  | .create => files = before ∧ call.Ready before
  | .fill temporary rest =>
    call.Ready before ∧ ∃ written, Kept before files temporary temporaryMode written ∧
      written ++ rest.flatten = call.parts.flatten
  | .synchronize temporary | .grant temporary =>
    call.Ready before ∧ Kept before files temporary temporaryMode call.parts.flatten
  | .rename temporary =>
    call.Ready before ∧ Kept before files temporary FileSystem.newFileMode call.parts.flatten
  | .done => ∃ location, call.verdict before = .ok location ∧ files = call.output before location
  | .failed failure => call.verdict before = .error failure ∧ files = before

/-- **Each stage** keeps what holds. -/
theorem holds_step {stage : Stage} (holds : call.Holds before files stage) :
    call.Holds before (call.step files stage).1 (call.step files stage).2 := by
  cases stage with
  | checkDirectory =>
    obtain rfl : files = before := holds
    unfold step
    simp only
    rcases status : files.status call.directory with errno | ⟨location, entry⟩
    · refine ⟨?_, rfl⟩
      unfold verdict
      rw [status]
    · cases entry with
      | directory =>
        refine ⟨rfl, ?_⟩
        rw [FileSystem.isDirectory, FileSystem.directory?, status]
        rfl
      | file | link | nullDevice =>
        refine ⟨?_, rfl⟩
        unfold verdict
        rw [status]
  | checkName =>
    obtain ⟨rfl, directory⟩ : files = before ∧ before.isDirectory call.directory = true := holds
    unfold step
    simp only
    split
    · next proper => exact ⟨rfl, directory, proper⟩
    · next improper =>
      refine ⟨?_, rfl⟩
      obtain ⟨place, found⟩ := Option.isSome_iff_exists.mp directory
      unfold verdict
      rw [FileSystem.directory?_eq_some_iff.mp found]
      exact if_neg improper
  | create =>
    obtain ⟨rfl, ready⟩ : files = before ∧ call.Ready before := holds
    obtain ⟨place, found⟩ := Option.isSome_iff_exists.mp ready.directory
    unfold step
    simp only [found]
    -- Nothing has a fresh name, so what is put there covers nothing.
    exact ⟨ready, [], ⟨lookup_freshName files place, rfl⟩, rfl⟩
  | fill temporary rest =>
    obtain ⟨ready, written, kept, whole⟩ := holds
    cases rest with
    | nil =>
      rw [List.flatten_nil, List.append_nil] at whole
      rw [whole] at kept
      exact ⟨ready, kept⟩
    | cons part rest =>
      rw [List.flatten_cons, ← List.append_assoc] at whole
      exact ⟨ready, written ++ part, kept.append part, whole⟩
  | synchronize temporary => exact holds
  | grant temporary =>
    obtain ⟨ready, kept⟩ : call.Ready before ∧
      Kept before files temporary temporaryMode call.parts.flatten := holds
    exact ⟨ready, kept.grant _⟩
  | rename temporary =>
    obtain ⟨ready, kept⟩ : call.Ready before ∧
      Kept before files temporary FileSystem.newFileMode call.parts.flatten := holds
    obtain ⟨place, found⟩ := Option.isSome_iff_exists.mp ready.directory
    have proper := Path.fileName?_eq_self_iff.mp ready.proper
    have same : landing files call.path = landing before call.path := by
      rw [kept.whole]
      exact landing_withFile found proper kept.free _ _
    have verdict := ready.verdict_eq
    unfold step
    simp only [rename_eq, same]
    cases landed : landing before call.path with
    | error errno =>
      rw [landed] at verdict
      exact ⟨verdict, kept.dropped⟩
    | ok location =>
      rw [landed] at verdict
      exact ⟨location, verdict, kept.moved location⟩
  | done => exact holds
  | failed failure => exact holds

/-- **The whole writing** keeps what holds, and comes to an end. -/
theorem holds_finish {stage : Stage} (holds : call.Holds before files stage) :
    call.Holds before (call.finish files stage).1 (call.finish files stage).2 ∧
      call.remaining (call.finish files stage).2 = 0 := by
  fun_induction finish call files stage with
  | case1 files stage ended => exact ⟨holds, ended⟩
  | case2 files stage unfinished next ih => exact ih (holds_step holds)

/-- **A whole writing** is done and leaves its output, or it fails and changes nothing. -/
theorem finish_eq (call : Call) (before : FileSystem) :
    call.finish before .checkDirectory =
      match call.verdict before with
      | .ok location => (call.output before location, .done)
      | .error failure => (before, .failed failure) := by
  have holds : call.Holds before before .checkDirectory := rfl
  obtain ⟨ended, final⟩ := holds_finish holds
  generalize call.finish before .checkDirectory = finished at ended final ⊢
  obtain ⟨files, stage⟩ := finished
  cases stage with
  | failed failure =>
    obtain ⟨verdict, rfl⟩ : call.verdict before = .error failure ∧ files = before := ended
    rw [verdict]
  | done =>
    obtain ⟨location, verdict, rfl⟩ : ∃ location, call.verdict before = .ok location ∧
      files = call.output before location := ended
    rw [verdict]
  | checkDirectory | checkName | create | fill | synchronize | grant | rename => cases final

end Holds

end Call

/-- An output stands at the location that its path named before, or where nothing was. -/
structure Placed (path : String) (data : Bytes) (before after : FileSystem) (location : Location) :
    Prop where
  whole : after = before.withFile location FileSystem.newFileMode data
  outside : before.kindAt location ≠ some .directory
  names : before.resolve path .naming = .ok (.entry location) ∨
    before.resolve path .naming = .ok (.missing location false)

theorem Placed.writes {path : String} {data : Bytes} {before after : FileSystem}
    {location : Location} (placed : Placed path data before after location) :
    Writes before after location data := by
  rw [placed.whole]
  exact FileSystem.writes_withFile placed.outside _ _

end Persistence

/-! ### Whole outputs -/

section Outputs

open Persistence

variable {directory name : String} {data : Bytes}

/-- **A whole writing** as a task: it puts the output at its location, or fails and changes
nothing. -/
theorem on_persist (directory name : String) (data : Bytes) (world : World) :
    ∃ remark, Task.on (persist directory name data) world =
      match Call.verdict ⟨directory, name, [data]⟩ world.files with
      | .ok location => (.ok (Path.join directory name), World.say 4 remark
          { world with files := world.files.withFile location FileSystem.newFileMode data })
      | .error failure => (.error failure, world) := by
  refine ⟨"persisted " ++ Text.decimal data.length ++ " bytes to " ++ Path.join directory name ++ "\n",
    ?_⟩
  unfold persist
  simp only [Task.on_bind, Task.on_lift, run_currentFiles, run_setFiles, Call.finish_eq]
  cases Call.verdict ⟨directory, name, [data]⟩ world.files with
  | ok location =>
    simp only [Call.output, List.flatten_singleton]
    rfl
  | error failure => rfl

/-- **What a whole writing does.** -/
theorem persist_spec (directory name : String) (data : Bytes) (world : World) :
    Task.Does (persist directory name data) world
      (fun path after => path = Path.join directory name ∧ world.files.isDirectory directory = true ∧
        ∃ location, Placed path data world.files after.files location)
      (fun _ after => after.files = world.files) := by
  obtain ⟨remark, ran⟩ := on_persist directory name data world
  unfold Task.Does
  rw [ran]
  cases verdict : Call.verdict ⟨directory, name, [data]⟩ world.files with
  | ok location =>
    have accepts := Call.accepts_iff.mpr verdict
    exact ⟨rfl, accepts.directory, location, World.files_say _ _ _, accepts.outside, accepts.names⟩
  | error failure => rfl

/-- **A file that has the name** of an output in its directory is replaced by it. -/
theorem succeeds_persist {files : FileSystem} {location : Location}
    (accepts : Call.Accepts ⟨directory, name, [data]⟩ files location) :
    Task.Succeeds (persist directory name data) files (Path.join directory name)
      (files.withFile location FileSystem.newFileMode data) := by
  intro console
  obtain ⟨remark, ran⟩ := on_persist directory name data ⟨files, console⟩
  rw [Call.accepts_iff.mp accepts] at ran
  obtain ⟨shown, said⟩ := run_say_files 4 remark (files.withFile location _ data) console
  exact ⟨shown, ran.trans (congrArg (_, ·) (congrArg Prod.snd said))⟩

end Outputs

end Inflate
