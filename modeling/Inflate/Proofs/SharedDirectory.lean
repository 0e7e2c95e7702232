/-
**Writing where others write.**

Any number of writings go on at once, one stage of one of them at a time, and each may fail at any of
its stages. A temporary file belongs to one writing and stands at no output's location, so what happens
to it is seen by nobody else. An output is seen only when its temporary file is moved onto its name,
and then as a whole; the last move onto a name is the one that stays.

* `Call.stepNaming`, `Call.step_eq_stepNaming`: a stage, with any name for the temporary file;
* `Scene`, `Scene.move`, `Scene.run`: writings side by side;
* `standing`: what stands at a location, by the writings that have landed;
* `Coherent`: what holds at every moment;
* `Coherent.put`: one writer comes to another stage;
* `Coherent.move`, `Coherent.run`: each move keeps what holds, and so does every run;
* `outputs_whole`: no part of an output is ever seen, and nothing of a failed writing is left;
* `Scene.allFresh_of_allFree`: when all temporary files of a run get names that nothing else has.
-/

import Mathlib
import Inflate.Proofs.Persistence

namespace Inflate

namespace Persistence

open FileSystem (Fills)

/-! ### Writings side by side -/

/-- What one stage of a writing does when its temporary file gets a given name. -/
def Call.stepNaming (call : Call) (name : String) (files : FileSystem) (stage : Stage) :
    FileSystem × Stage :=
  match stage with
  | .create =>
    match files.directory? call.directory with
    | some directory =>
      (files.withFile (directory ++ [name]) temporaryMode [], .fill (directory ++ [name]) call.parts)
    | none => Stage.create.abandon (.io Errno.noEntry.toIoError) files
  | stage => call.step files stage

/-- **A stage alone** is a stage with a name that begins as those of temporary files do, and that
nothing has. -/
theorem Call.step_eq_stepNaming (call : Call) (files : FileSystem) (stage : Stage) :
    ∃ ending, call.step files stage = call.stepNaming (temporaryMark ++ ending) files stage ∧
      ∀ directory ∈ files.directory? call.directory,
        files.lookup (directory ++ [temporaryMark ++ ending]) = none := by
  have marked : ∀ directory, ∃ ending, freshName files directory = temporaryMark ++ ending := by
    intro directory
    unfold freshName
    simp only
    cases found : ((List.range (files.entries.length + 1)).map temporaryName).find?
        fun name => (files.lookup (directory ++ [name])).isNone with
    | none => exact ⟨"", (String.append_empty).symm⟩
    | some name =>
      obtain ⟨n, -, rfl⟩ := List.mem_map.mp (List.mem_of_find?_eq_some found)
      exact ⟨_, rfl⟩
  cases found : files.directory? call.directory with
  | none =>
    refine ⟨"", ?_, nofun⟩
    cases stage with
    | create => simp only [step, stepNaming, found]
    | _ => rfl
  | some directory =>
    obtain ⟨ending, named⟩ := marked directory
    refine ⟨ending, ?_, ?_⟩
    · cases stage with
      | create =>
        simp only [step, stepNaming, found, named]
        rfl
      | _ => rfl
    · rintro _ ⟨⟩
      rw [← named]
      exact lookup_freshName files directory

/-- Where a writing is to land, by the files before all of them. -/
def Call.place (start : FileSystem) (call : Call) : Option Location :=
  (start.directory? call.directory).map (· ++ [call.name])

/-- What happens next: a writer goes on, and ends the name of its temporary file in some way if it
makes one now; or it fails. -/
inductive Move (ι : Type) where
  | advance (writer : ι) (ending : String)
  | fail (writer : ι) (failure : Failure)

/-- The files, how far each writer has come, and those that have landed, the last one first. -/
structure Scene (ι : Type) where
  files : FileSystem
  stage : ι → Stage
  landed : List ι

namespace Scene

variable {ι : Type} [DecidableEq ι]

/-- No writer has begun. -/
def initial (start : FileSystem) : Scene ι := ⟨start, fun _ => .checkDirectory, []⟩

/-- A writer has come to another stage. -/
def put (scene : Scene ι) (writer : ι) (next : FileSystem × Stage) : Scene ι where
  files := next.1
  stage := Function.update scene.stage writer next.2
  landed :=
    if next.2 = .done ∧ scene.stage writer ≠ .done then writer :: scene.landed else scene.landed

/-- A move of one writer. A writer that has ended does not fail. -/
def move (calls : ι → Call) (scene : Scene ι) : Move ι → Scene ι
  | .advance writer ending =>
    scene.put writer
      ((calls writer).stepNaming (temporaryMark ++ ending) scene.files (scene.stage writer))
  | .fail writer failure =>
    if (calls writer).remaining (scene.stage writer) = 0 then scene
    else scene.put writer ((scene.stage writer).abandon failure scene.files)

/-- The moves of a list, one after the other. -/
def run (calls : ι → Call) (scene : Scene ι) (moves : List (Move ι)) : Scene ι :=
  moves.foldl (move calls) scene

/-- A temporary file that is made now gets a name that nothing has, and that is no output's. -/
def Fresh (calls : ι → Call) (start : FileSystem) (scene : Scene ι) : Move ι → Prop
  | .advance writer ending =>
    scene.stage writer = .create →
      ∀ directory ∈ scene.files.directory? (calls writer).directory,
        scene.files.lookup (directory ++ [temporaryMark ++ ending]) = none ∧
          ∀ other, (calls other).place start ≠ some (directory ++ [temporaryMark ++ ending])
  | .fail _ _ => True

/-- All temporary files that a run makes get such names. -/
def AllFresh (calls : ι → Call) (start : FileSystem) : Scene ι → List (Move ι) → Prop
  | _, [] => True
  | scene, move :: rest =>
    scene.Fresh calls start move ∧ AllFresh calls start (scene.move calls move) rest

/-- **What stands at a location**: the whole output of the last writer that has landed there, or what
stood there before. -/
def standing (calls : ι → Call) (start : FileSystem) (landed : List ι) (location : Location) :
    Option Entry :=
  match landed.find? fun writer => (calls writer).place start = some location with
  | some writer =>
    some (.file ⟨(calls writer).parts.flatten, FileSystem.newFileMode, start.clock⟩)
  | none => start.lookup location

end Scene

/-! ### What holds at every moment -/

/-- What a writer has brought about at a stage: its temporary file holds the parts written so far. -/
def Call.Filled (call : Call) (clock : Int) (files : FileSystem) : Stage → Prop
  | .create => Path.Proper call.name
  | .fill temporary rest =>
    ∃ written, files.lookup temporary = some (.file ⟨written, temporaryMode, clock⟩) ∧
      written ++ rest.flatten = call.parts.flatten
  | .synchronize temporary | .grant temporary =>
    files.lookup temporary = some (.file ⟨call.parts.flatten, temporaryMode, clock⟩)
  | .rename temporary =>
    files.lookup temporary = some (.file ⟨call.parts.flatten, FileSystem.newFileMode, clock⟩)
  | _ => True

section Moments

variable {ι : Type} {calls : ι → Call} {start : FileSystem} {scene : Scene ι} {writer : ι}
  {temporary location : Location}

/-- A temporary file stands in the directory of its writer, where nothing was and where no output
lands. -/
structure Apart (calls : ι → Call) (start : FileSystem) (writer : ι) (temporary : Location) :
    Prop where
  proper : Path.Proper (calls writer).name
  inside : ∃ directory name, start.directory? (calls writer).directory = some directory ∧
    temporary = directory ++ [name]
  free : start.lookup temporary = none
  elsewhere : ∀ other, (calls other).place start ≠ some temporary

/-- What holds at every moment. -/
structure Coherent (calls : ι → Call) (start : FileSystem) (scene : Scene ι) : Prop where
  home : scene.files.home = start.home
  clock : scene.files.clock = start.clock
  settled : ∀ location, (∀ writer, (scene.stage writer).temporary? ≠ some location) →
    scene.files.lookup location = Scene.standing calls start scene.landed location
  apart : ∀ writer temporary, (scene.stage writer).temporary? = some temporary →
    Apart calls start writer temporary
  distinct : ∀ writer other temporary, (scene.stage writer).temporary? = some temporary →
    (scene.stage other).temporary? = some temporary → writer = other
  filled : ∀ writer, (calls writer).Filled start.clock scene.files (scene.stage writer)
  landed : ∀ writer, writer ∈ scene.landed ↔ scene.stage writer = .done
  once : scene.landed.Nodup
  placed : ∀ writer ∈ scene.landed, ∃ location, (calls writer).place start = some location ∧
    start.kindAt location ≠ some .directory

/-! #### What stands at a location -/

/-- Where nothing lands stands what stood there before. -/
theorem standing_of_apart (elsewhere : ∀ other, (calls other).place start ≠ some location)
    (landed : List ι) : Scene.standing calls start landed location = start.lookup location := by
  have none : landed.find? (fun writer => (calls writer).place start = some location) = none :=
    List.find?_eq_none.mpr fun other _ => by simpa using elsewhere other
  rw [Scene.standing, none]

/-- Where a writer has just landed stands its output. -/
theorem standing_cons_self (here : (calls writer).place start = some location) (landed : List ι) :
    Scene.standing calls start (writer :: landed) location =
      some (.file ⟨(calls writer).parts.flatten, FileSystem.newFileMode, start.clock⟩) := by
  have found : (writer :: landed).find? (fun writer => (calls writer).place start = some location) =
      some writer := List.find?_cons_of_pos (by simpa using here)
  rw [Scene.standing, found]

/-- Elsewhere it changes nothing. -/
theorem standing_cons_of_ne (other : (calls writer).place start ≠ some location) (landed : List ι) :
    Scene.standing calls start (writer :: landed) location =
      Scene.standing calls start landed location := by
  have skipped : (writer :: landed).find? (fun writer => (calls writer).place start = some location) =
      landed.find? fun writer => (calls writer).place start = some location :=
    List.find?_cons_of_neg (by simpa using other)
  rw [Scene.standing, skipped, Scene.standing]

theorem Apart.ne_nil (apart : Apart calls start writer temporary) : temporary ≠ [] := by
  rintro rfl
  cases apart.free

/-- What a writer has brought about depends on its temporary file only. -/
theorem Call.Filled.congr {call : Call} {clock : Int} {files later : FileSystem} {stage : Stage}
    (same : ∀ temporary, stage.temporary? = some temporary →
      later.lookup temporary = files.lookup temporary)
    (filled : call.Filled clock files stage) : call.Filled clock later stage := by
  cases stage with
  | checkDirectory | checkName | create | done | failed => exact filled
  | fill temporary rest =>
    obtain ⟨written, held, whole⟩ := filled
    exact ⟨written, (same temporary rfl).trans held, whole⟩
  | synchronize temporary | grant temporary | rename temporary =>
    exact (same temporary rfl).trans filled

/-- A temporary file that stands holds something. -/
theorem Call.Filled.exists_file {call : Call} {clock : Int} {files : FileSystem} {stage : Stage}
    (filled : call.Filled clock files stage) (own : stage.temporary? = some temporary) :
    ∃ file, files.lookup temporary = some (.file file) := by
  cases stage with
  | checkDirectory | checkName | create | done | failed => cases own
  | fill temporary rest =>
    cases own
    obtain ⟨written, held, -⟩ := filled
    exact ⟨_, held⟩
  | synchronize temporary | grant temporary | rename temporary =>
    cases own
    exact ⟨_, filled⟩

/-! #### The files as a whole -/

/-- Before the first move. -/
theorem coherent_initial (calls : ι → Call) (start : FileSystem) :
    Coherent calls start (Scene.initial start) where
  home := rfl
  clock := rfl
  settled := fun _ _ => rfl
  apart := nofun
  distinct := nofun
  filled := fun _ => trivial
  landed := fun _ => ⟨nofun, nofun⟩
  once := List.nodup_nil
  placed := nofun

/-- A writer that has ended does nothing. -/
theorem Scene.put_self [DecidableEq ι] (scene : Scene ι) (writer : ι) :
    scene.put writer (scene.files, scene.stage writer) = scene := by
  have landed : ¬(scene.stage writer = .done ∧ scene.stage writer ≠ .done) := fun both => both.2 both.1
  unfold Scene.put
  simp only [if_neg landed, Function.update_eq_self]

namespace Coherent

/-- At every moment there are more files than at the start, or others, and nothing else has changed. -/
theorem fills (coherent : Coherent calls start scene) : Fills start scene.files where
  home := coherent.home
  kind := by
    intro location
    by_cases settled : ∀ writer, (scene.stage writer).temporary? ≠ some location
    · have stands := coherent.settled location settled
      unfold Scene.standing at stands
      split at stands
      · next writer found =>
        have here : (calls writer).place start = some location := by
          simpa using List.find?_some found
        obtain ⟨place, same, outside⟩ := coherent.placed writer (List.mem_of_find?_eq_some found)
        cases here.symm.trans same
        exact Or.inr ⟨FileSystem.kindAt_of_lookup stands, outside⟩
      · exact Or.inl (FileSystem.kindAt_congr stands)
    · obtain ⟨writer, own⟩ := not_forall_not.mp settled
      obtain ⟨file, held⟩ := (coherent.filled writer).exists_file own
      have free := FileSystem.kindAt_eq_none_iff.mpr (coherent.apart writer location own).free
      exact Or.inr ⟨FileSystem.kindAt_of_lookup held, free.trans_ne nofun⟩

variable [DecidableEq ι]

/-- **One writer comes to another stage.** Its old temporary file and its new one are its own, other
temporary files are left alone, and all else is as it should be. -/
theorem put (coherent : Coherent calls start scene) {next : FileSystem × Stage}
    (home : next.1.home = scene.files.home) (clock : next.1.clock = scene.files.clock)
    (others : ∀ other ≠ writer, ∀ temporary, (scene.stage other).temporary? = some temporary →
      next.1.lookup temporary = scene.files.lookup temporary)
    (settled : ∀ location, next.2.temporary? ≠ some location →
      (∀ other ≠ writer, (scene.stage other).temporary? ≠ some location) →
        next.1.lookup location =
          Scene.standing calls start (scene.put writer next).landed location)
    (own : ∀ temporary, next.2.temporary? = some temporary →
      Apart calls start writer temporary ∧
        ∀ other ≠ writer, (scene.stage other).temporary? ≠ some temporary)
    (filled : (calls writer).Filled start.clock next.1 next.2)
    (unlanded : scene.stage writer ≠ .done)
    (placed : next.2 = .done → ∃ location, (calls writer).place start = some location ∧
      start.kindAt location ≠ some .directory) :
    Coherent calls start (scene.put writer next) := by
  have here : (scene.put writer next).stage writer = next.2 := Function.update_self _ _ _
  have there : ∀ other ≠ writer, (scene.put writer next).stage other = scene.stage other :=
    fun other different => Function.update_of_ne different _ _
  have absent : writer ∉ scene.landed := fun member => unlanded ((coherent.landed writer).mp member)
  have landed : (scene.put writer next).landed =
      if next.2 = .done then writer :: scene.landed else scene.landed := by
    simp [Scene.put, unlanded]
  constructor
  case home => exact home.trans coherent.home
  case clock => exact clock.trans coherent.clock
  case settled =>
    intro location apart
    refine settled location (here ▸ apart writer) fun other different => ?_
    exact there other different ▸ apart other
  case apart =>
    intro other temporary holds
    by_cases same : other = writer
    · subst same
      exact (own temporary (here ▸ holds)).1
    · exact coherent.apart other temporary (there other same ▸ holds)
  case distinct =>
    intro first second temporary left right
    by_cases isFirst : first = writer
    · subst isFirst
      by_contra different
      have different : second ≠ first := fun same => different same.symm
      exact (own temporary (here ▸ left)).2 second different (there second different ▸ right)
    · rw [there first isFirst] at left
      by_cases isSecond : second = writer
      · subst isSecond
        exact absurd left ((own temporary (here ▸ right)).2 first isFirst)
      · rw [there second isSecond] at right
        exact coherent.distinct first second temporary left right
  case filled =>
    intro other
    by_cases same : other = writer
    · subst same
      rw [here]
      exact filled
    · rw [there other same]
      exact (coherent.filled other).congr (others other same)
  case landed =>
    intro other
    by_cases same : other = writer
    · subst same
      rw [landed, here]
      by_cases done : next.2 = .done <;> simp [done, absent]
    · rw [there other same, ← coherent.landed other, landed]
      split <;> simp [same]
  case once =>
    rw [landed]
    split
    · exact List.nodup_cons.mpr ⟨absent, coherent.once⟩
    · exact coherent.once
  case placed =>
    intro other member
    rw [landed] at member
    split at member
    · next done =>
      rcases List.mem_cons.mp member with rfl | member
      · exact placed done
      · exact coherent.placed other member
    · exact coherent.placed other member

/-! #### Single moves -/

/-- A writer goes on without touching a file. -/
theorem keep (coherent : Coherent calls start scene) {stage : Stage}
    (same : stage.temporary? = (scene.stage writer).temporary?)
    (filled : (calls writer).Filled start.clock scene.files stage)
    (before : scene.stage writer ≠ .done) (after : stage ≠ .done) :
    Coherent calls start (scene.put writer (scene.files, stage)) := by
  refine coherent.put rfl rfl (fun _ _ _ _ => rfl) ?_ ?_ filled before (fun done => absurd done after)
  · intro location apart others
    simp only [Scene.put, after, false_and, if_false]
    refine coherent.settled location fun other => ?_
    by_cases own : other = writer
    · subst own
      exact same ▸ apart
    · exact others other own
  · intro temporary holds
    have holds : (scene.stage writer).temporary? = some temporary := same ▸ holds
    refine ⟨coherent.apart writer temporary holds, fun other different also => different ?_⟩
    exact coherent.distinct other writer temporary also holds

/-- A writer puts a file where it has its temporary file from now on. -/
theorem write (coherent : Coherent calls start scene) {stage : Stage} {file : RegularFile}
    (outside : scene.files.kindAt temporary ≠ some .directory)
    (apart : Apart calls start writer temporary)
    (others : ∀ other ≠ writer, (scene.stage other).temporary? ≠ some temporary)
    (old : ∀ location, (scene.stage writer).temporary? = some location → location = temporary)
    (holds : stage.temporary? = some temporary)
    (filled : ∀ later : FileSystem, later.lookup temporary = some (.file file) →
      (calls writer).Filled start.clock later stage) (before : scene.stage writer ≠ .done) :
    Coherent calls start (scene.put writer (scene.files.put temporary (.file file), stage)) := by
  have after : stage ≠ .done := by
    rintro rfl
    cases holds
  have found : ∀ other, (scene.files.put temporary (.file file)).lookup other =
      if other = temporary then some (.file file) else scene.files.lookup other :=
    fun other => FileSystem.lookup_put _ _ _ _ (FileSystem.ne_nil_of_kindAt outside)
  refine coherent.put rfl rfl ?_ ?_ ?_ ?_ before (fun done => absurd done after)
  · intro other different location also
    have elsewhere : location ≠ temporary := by
      rintro rfl
      exact others other different also
    rw [found, if_neg elsewhere]
  · intro location notOwn notOthers
    have elsewhere : location ≠ temporary := by
      rintro rfl
      exact notOwn holds
    simp only [Scene.put, after, false_and, if_false]
    rw [found, if_neg elsewhere]
    refine coherent.settled location fun other also => ?_
    by_cases own : other = writer
    · subst own
      exact elsewhere (old location also)
    · exact notOthers other own also
  · intro location also
    cases holds.symm.trans also
    exact ⟨apart, others⟩
  · exact filled _ ((found temporary).trans (if_pos rfl))

/-- A writer writes the temporary file that it has. -/
theorem rewrite (coherent : Coherent calls start scene) {stage : Stage} {file : RegularFile}
    (had : (scene.stage writer).temporary? = some temporary)
    (holds : stage.temporary? = some temporary)
    (filled : ∀ later : FileSystem, later.lookup temporary = some (.file file) →
      (calls writer).Filled start.clock later stage) :
    Coherent calls start (scene.put writer (scene.files.put temporary (.file file), stage)) := by
  obtain ⟨current, held⟩ := (coherent.filled writer).exists_file had
  have outside : scene.files.kindAt temporary ≠ some .directory :=
    (FileSystem.kindAt_of_lookup held).trans_ne nofun
  have others : ∀ other ≠ writer, (scene.stage other).temporary? ≠ some temporary :=
    fun other different also => different (coherent.distinct other writer temporary also had)
  have before : scene.stage writer ≠ .done := by
    intro done
    rw [done] at had
    cases had
  refine coherent.write outside (coherent.apart writer temporary had) others ?_ holds filled before
  exact fun location also => (Option.some.inj (had.symm.trans also)).symm

/-- A writer fails, and its temporary file is dropped. -/
theorem abandon (coherent : Coherent calls start scene) (failure : Failure)
    (before : scene.stage writer ≠ .done) :
    Coherent calls start
      (scene.put writer ((scene.stage writer).abandon failure scene.files)) := by
  unfold Stage.abandon
  cases holds : (scene.stage writer).temporary? with
  | none => exact coherent.keep holds.symm trivial before nofun
  | some temporary =>
    have apart := coherent.apart writer temporary holds
    refine coherent.put rfl rfl ?_ ?_ nofun trivial before nofun
    · intro other different location also
      have elsewhere : location ≠ temporary := by
        rintro rfl
        exact different (coherent.distinct other writer location also holds)
      rw [FileSystem.lookup_erase _ _ _ apart.ne_nil, if_neg elsewhere]
    · intro location _ others
      rw [FileSystem.lookup_erase _ _ _ apart.ne_nil]
      simp only [Scene.put, reduceCtorEq, false_and, if_false]
      split
      · next here => rw [here, standing_of_apart apart.elsewhere, apart.free]
      · next elsewhere =>
        refine coherent.settled location fun other also => ?_
        by_cases own : other = writer
        · subst own
          exact elsewhere (Option.some.inj (also.symm.trans holds))
        · exact others other own also

/-- A writer lands: its temporary file is moved onto its name. -/
theorem land (coherent : Coherent calls start scene) (stage : scene.stage writer = .rename temporary)
    (landed : landing scene.files (calls writer).path = .ok location) :
    Coherent calls start (scene.put writer (scene.files.move temporary location, .done)) := by
  have holds : (scene.stage writer).temporary? = some temporary := by rw [stage, Stage.temporary?]
  have unlanded : scene.stage writer ≠ .done := by
    rw [stage]
    nofun
  have apart := coherent.apart writer temporary holds
  have held : scene.files.lookup temporary =
      some (.file ⟨(calls writer).parts.flatten, FileSystem.newFileMode, start.clock⟩) := by
    have filled := coherent.filled writer
    rw [stage] at filled
    exact filled
  have before := landing_before_fill coherent.fills landed
  obtain ⟨-, outside⟩ := landing_eq_ok_iff.mp before
  have place : (calls writer).place start = some location := by
    obtain ⟨directory, name, found, -⟩ := apart.inside
    rw [Call.place, found, eq_of_landing_join found apart.proper before]
    rfl
  have moved : ∀ other, (scene.files.move temporary location).lookup other =
      if other = location then
        some (.file ⟨(calls writer).parts.flatten, FileSystem.newFileMode, start.clock⟩)
      else if other = temporary then none else scene.files.lookup other := by
    intro other
    rw [FileSystem.move, held]
    simp only
    rw [FileSystem.lookup_put _ _ _ _ (FileSystem.ne_nil_of_kindAt outside),
      FileSystem.lookup_erase _ _ _ apart.ne_nil]
  have placed : ∃ location, (calls writer).place start = some location ∧
      start.kindAt location ≠ some .directory := ⟨location, place, outside⟩
  refine coherent.put ?_ ?_ ?_ ?_ nofun trivial unlanded fun _ => placed
  · rw [FileSystem.move, held]
    rfl
  · rw [FileSystem.move, held]
    rfl
  · intro other different location' also
    have notPlace : location' ≠ location := by
      rintro rfl
      exact (coherent.apart other _ also).elsewhere writer place
    have notOwn : location' ≠ temporary := by
      rintro rfl
      exact different (coherent.distinct other writer _ also holds)
    rw [moved, if_neg notPlace, if_neg notOwn]
  · intro location' _ others
    have grown : (scene.put writer (scene.files.move temporary location, .done)).landed =
        writer :: scene.landed := if_pos ⟨rfl, unlanded⟩
    rw [grown, moved]
    by_cases here : location' = location
    · rw [if_pos here, here, standing_cons_self place]
    · have other : (calls writer).place start ≠ some location' := fun same =>
        here (Option.some.inj (same.symm.trans place))
      rw [if_neg here, standing_cons_of_ne other]
      split
      · next own => rw [own, standing_of_apart apart.elsewhere, apart.free]
      · next elsewhere =>
        refine coherent.settled location' fun other also => ?_
        by_cases own : other = writer
        · subst own
          exact elsewhere (Option.some.inj (also.symm.trans holds))
        · exact others other own also

/-- **Each stage** keeps what holds. -/
theorem advance (coherent : Coherent calls start scene) {ending : String}
    (fresh : scene.Fresh calls start (.advance writer ending)) :
    Coherent calls start (scene.move calls (.advance writer ending)) := by
  show Coherent calls start (scene.put writer
    ((calls writer).stepNaming (temporaryMark ++ ending) scene.files (scene.stage writer)))
  have filled := coherent.filled writer
  have abandoned : ∀ failure, scene.stage writer ≠ .done → Coherent calls start
      (scene.put writer ((scene.stage writer).abandon failure scene.files)) :=
    fun failure before => coherent.abandon failure before
  have unchanged := scene.put_self writer
  unfold Scene.Fresh at fresh
  cases stage : scene.stage writer with
  | checkDirectory =>
    rw [stage] at abandoned
    have before : scene.stage writer ≠ .done := stage.trans_ne Stage.noConfusion
    simp only [Call.stepNaming, Call.step]
    split
    · exact coherent.keep (by rw [stage]; rfl) trivial before Stage.noConfusion
    · exact abandoned _ Stage.noConfusion
    · exact abandoned _ Stage.noConfusion
  | checkName =>
    rw [stage] at abandoned
    have before : scene.stage writer ≠ .done := stage.trans_ne Stage.noConfusion
    simp only [Call.stepNaming, Call.step]
    split
    · next proper =>
      exact coherent.keep (by rw [stage]; rfl) (Path.fileName?_eq_self_iff.mp proper) before Stage.noConfusion
    · exact abandoned _ Stage.noConfusion
  | create =>
    rw [stage] at abandoned filled
    have before : scene.stage writer ≠ .done := stage.trans_ne Stage.noConfusion
    simp only [Call.stepNaming]
    split
    · next directory found =>
      obtain ⟨free, elsewhere⟩ := fresh stage directory found
      have unused : ∀ other, (scene.stage other).temporary? ≠
          some (directory ++ [temporaryMark ++ ending]) := by
        intro other also
        obtain ⟨file, held⟩ := (coherent.filled other).exists_file also
        cases free.symm.trans held
      have outside := FileSystem.kindAt_eq_none_iff.mpr free
      refine coherent.write (outside.trans_ne (Option.some_ne_none _).symm) ⟨filled, ?_, ?_, elsewhere⟩
        (fun other _ => unused other) ?_ rfl ?_ before
      · exact ⟨directory, _, FileSystem.directory?_before_fill coherent.fills found, rfl⟩
      · rw [← standing_of_apart elsewhere scene.landed, ← coherent.settled _ unused]
        exact free
      · intro location also
        rw [stage] at also
        cases also
      · intro later held
        exact ⟨[], coherent.clock ▸ held, rfl⟩
    · exact abandoned _ Stage.noConfusion
  | fill temporary rest =>
    have had : (scene.stage writer).temporary? = some temporary := by rw [stage, Stage.temporary?]
    rw [stage] at filled
    obtain ⟨written, held, whole⟩ := filled
    cases rest with
    | nil =>
      rw [List.flatten_nil, List.append_nil] at whole
      rw [whole] at held
      exact coherent.keep (by rw [stage]; rfl) held (stage.trans_ne Stage.noConfusion) Stage.noConfusion
    | cons part rest =>
      rw [List.flatten_cons, ← List.append_assoc] at whole
      simp only [Call.stepNaming, Call.step, FileSystem.appendAt, held]
      exact coherent.rewrite had rfl fun later held => ⟨written ++ part, coherent.clock ▸ held, whole⟩
  | synchronize temporary =>
    rw [stage] at filled
    exact coherent.keep (by rw [stage]; rfl) filled (stage.trans_ne Stage.noConfusion) Stage.noConfusion
  | grant temporary =>
    have had : (scene.stage writer).temporary? = some temporary := by rw [stage, Stage.temporary?]
    rw [stage] at filled
    have held : scene.files.lookup temporary = some (.file _) := filled
    simp only [Call.stepNaming, Call.step, FileSystem.grantAt, held]
    exact coherent.rewrite had rfl fun later held => held
  | rename temporary =>
    rw [stage] at abandoned
    simp only [Call.stepNaming, Call.step, rename_eq]
    cases landed : landing scene.files (calls writer).path with
    | ok location => exact coherent.land stage landed
    | error errno => exact abandoned _ Stage.noConfusion
  | done | failed =>
    rw [stage] at unchanged
    exact unchanged.symm ▸ coherent

/-- **Each move** keeps what holds. -/
theorem move (coherent : Coherent calls start scene) {move : Move ι}
    (fresh : scene.Fresh calls start move) : Coherent calls start (scene.move calls move) := by
  cases move with
  | advance writer ending => exact coherent.advance fresh
  | fail writer failure =>
    unfold Scene.move
    simp only
    split
    · exact coherent
    · next unfinished =>
      refine coherent.abandon failure fun done => unfinished ?_
      rw [done, Call.remaining]

/-- **A whole run** keeps what holds. -/
theorem run (coherent : Coherent calls start scene) {moves : List (Move ι)}
    (fresh : Scene.AllFresh calls start scene moves) :
    Coherent calls start (scene.run calls moves) := by
  induction moves generalizing scene with
  | nil => exact coherent
  | cons move rest ih => exact ih (coherent.move fresh.1) fresh.2

end Coherent

/-! ### What is seen -/

variable [DecidableEq ι]

/-- **No part of an output is ever seen.** Whatever the order of the stages of any number of writings,
and whichever of them fail: at every moment there stands at the location of an output, as at all others
that are no temporary file's, the whole output of the last writing that has landed there, or what
stood there before. The writings that have landed are those that are done. When all writings are over,
that holds everywhere; so writings that failed have changed nothing, and no temporary file is left. -/
theorem outputs_whole (calls : ι → Call) (start : FileSystem) (moves : List (Move ι))
    (fresh : Scene.AllFresh calls start (Scene.initial start) moves) :
    let scene := (Scene.initial start).run calls moves
    (∀ writer location, (calls writer).place start = some location →
      scene.files.lookup location = Scene.standing calls start scene.landed location) ∧
    (∀ location, (∀ writer, (scene.stage writer).temporary? ≠ some location) →
      scene.files.lookup location = Scene.standing calls start scene.landed location) ∧
    (∀ writer, writer ∈ scene.landed ↔ scene.stage writer = .done) ∧ scene.landed.Nodup ∧
    (∀ writer ∈ scene.landed, ∃ location, (calls writer).place start = some location) ∧
    ((∀ writer, (calls writer).remaining (scene.stage writer) = 0) →
      (∀ location,
        scene.files.lookup location = Scene.standing calls start scene.landed location) ∧
      ∀ location, (∀ writer, (calls writer).place start ≠ some location) →
        scene.files.lookup location = start.lookup location) := by
  intro scene
  have coherent : Coherent calls start scene := (coherent_initial calls start).run fresh
  refine ⟨?_, coherent.settled, coherent.landed, coherent.once, ?_, ?_⟩
  · intro writer location place
    refine coherent.settled location fun other own => ?_
    exact (coherent.apart other location own).elsewhere writer place
  · intro writer member
    obtain ⟨location, place, -⟩ := coherent.placed writer member
    exact ⟨location, place⟩
  · intro ended
    have unused : ∀ writer location, (scene.stage writer).temporary? ≠ some location := by
      intro writer location own
      have finished := ended writer
      cases stage : scene.stage writer <;> rw [stage] at own finished <;> cases own <;>
        cases finished
    have settled := fun location => coherent.settled location fun writer => unused writer location
    refine ⟨settled, fun location elsewhere => ?_⟩
    rw [settled location, standing_of_apart elsewhere]

end Moments

/-! ### Checking a run -/

namespace Scene

variable {ι : Type} [DecidableEq ι]

/-- Whether nothing has the name of a temporary file that a move makes. -/
def isFree (calls : ι → Call) (scene : Scene ι) : Move ι → Bool
  | .advance writer ending =>
    match scene.stage writer, scene.files.directory? (calls writer).directory with
    | .create, some directory =>
      (scene.files.lookup (directory ++ [temporaryMark ++ ending])).isNone
    | _, _ => true
  | .fail _ _ => true

/-- Whether this holds of all temporary files that a run makes. -/
def allFree (calls : ι → Call) : Scene ι → List (Move ι) → Bool
  | _, [] => true
  | scene, move :: rest => scene.isFree calls move && allFree calls (scene.move calls move) rest

/-- **If no output's name begins as those of temporary files do**, it suffices that nothing has the
names of these. -/
theorem allFresh_of_allFree {calls : ι → Call} {scene : Scene ι} {moves : List (Move ι)}
    (unmarked : ∀ writer ending, (calls writer).name ≠ temporaryMark ++ ending)
    (free : allFree calls scene moves = true) (start : FileSystem) :
    AllFresh calls start scene moves := by
  induction moves generalizing scene with
  | nil => trivial
  | cons move rest ih =>
    obtain ⟨now, later⟩ := Bool.and_eq_true_iff.mp free
    refine ⟨?_, ih later⟩
    cases move with
    | fail writer failure => trivial
    | advance writer ending =>
      intro stage directory found
      simp only [isFree, stage, Option.mem_def.mp found] at now
      refine ⟨Option.isNone_iff_eq_none.mp now, fun other place => ?_⟩
      obtain ⟨front, -, same⟩ := Option.map_eq_some_iff.mp place
      exact unmarked other ending (List.concat_inj.mp (by simpa using same)).2

end Scene

/-- Three writings into one directory, two of them under the same name. -/
def sharing : Fin 3 → Call
  | 0 => ⟨".", "x", [[1], [2]]⟩
  | 1 => ⟨".", "x", [[3]]⟩
  | 2 => ⟨".", "y", [[4]]⟩

/-- A directory with a file that two of them replace. -/
def shared : FileSystem := ⟨[(["x"], .file ⟨[0], FileSystem.newFileMode, 5⟩)], [], 7⟩

/-- The first one is overtaken by the second while it writes, and the third one fails. -/
def overtaking : List (Move (Fin 3)) :=
  [.advance 0 "", .advance 1 "", .advance 2 "", .advance 0 "", .advance 1 "", .advance 2 "",
    .advance 0 "a", .advance 1 "b", .advance 2 "c", .advance 0 "", .advance 1 "", .advance 2 "",
    .fail 2 (.io Errno.permissionDenied.toIoError), .advance 1 "", .advance 1 "", .advance 1 "",
    .advance 1 "", .advance 0 "", .advance 0 "", .advance 0 "", .advance 0 "", .advance 0 ""]

/-- Of the outputs under one name the one that was moved there last stays, and nothing else is left. -/
theorem outputs_whole_overtaking :
    Scene.AllFresh sharing shared (Scene.initial shared) overtaking ∧
    ((Scene.initial shared).run sharing overtaking).landed = [0, 1] ∧
    ∀ location, ((Scene.initial shared).run sharing overtaking).files.lookup location =
      Scene.standing sharing shared [0, 1] location := by
  have unmarked : ∀ writer ending, (sharing writer).name ≠ temporaryMark ++ ending := by
    have short : ∀ writer, (sharing writer).name.length = 1 := by decide +kernel
    have long : temporaryMark.length = 7 := by decide +kernel
    intro writer ending same
    have lengths := congrArg String.length same
    rw [short writer, String.length_append, long] at lengths
    omega
  have free : Scene.allFree sharing (Scene.initial shared) overtaking = true := by cbv
  have fresh := Scene.allFresh_of_allFree unmarked free shared
  have landed : ((Scene.initial shared).run sharing overtaking).landed = [0, 1] := by cbv
  have ended : ∀ writer, (sharing writer).remaining
      (((Scene.initial shared).run sharing overtaking).stage writer) = 0 := by
    intro writer
    fin_cases writer <;> cbv
  obtain ⟨-, -, -, -, -, settled⟩ := outputs_whole sharing shared overtaking fresh
  exact ⟨fresh, landed, landed ▸ (settled ended).1⟩

end Persistence

end Inflate
