/-
**The world that the program works in.**

The world is a file system and a console. The console gives standard input, which can be taken once,
takes standard output, and shows remarks, each from its own level of verbosity on. A task is an
action on the world that may fail; what it did before it failed stays done.

The console is made of pipes or files: neither standard input nor standard output is a terminal. Whatever
depends on a terminal, such as a question to the user, is left out.

* `files_say`, `files_emit`: speaking and writing to standard output leave the files alone;
* `Task.on_bind`: when a task is continued, and in which world.
-/

import Inflate.Decoded
import Inflate.FileSystem.Operations

namespace Inflate

/-- The level up to which remarks are shown unless another one is asked for. -/
def usualVerbosity : Nat := 2

/-- Standard input, standard output, the remarks shown so far, and up to which level they are. -/
structure Console where
  input : Bytes := []
  output : Bytes := []
  remarks : String := ""
  verbosity : Nat := usualVerbosity
deriving DecidableEq, Repr

/-- The file system and the console. -/
structure World where
  files : FileSystem
  console : Console
deriving DecidableEq, Repr

namespace World

/-- Shows a remark if the verbosity reaches its level. -/
def say (level : Nat) (remark : String) (world : World) : World :=
  if level ≤ world.console.verbosity then
    { world with console.remarks := world.console.remarks ++ remark }
  else world

/-- Shows remarks, each from its own level on. -/
def sayAll (remarks : List (Nat × String)) (world : World) : World :=
  remarks.foldl (fun world remark => world.say remark.1 remark.2) world

/-- Writes bytes to standard output. -/
def emit (data : Bytes) (world : World) : World :=
  { world with console.output := world.console.output ++ data }

/-- The world after its standard input was taken. -/
def withoutInput (world : World) : World := { world with console.input := [] }

@[simp] theorem files_say (level : Nat) (remark : String) (world : World) :
    (world.say level remark).files = world.files := by
  unfold say
  split <;> rfl

@[simp] theorem output_say (level : Nat) (remark : String) (world : World) :
    (world.say level remark).console.output = world.console.output := by
  unfold say
  split <;> rfl

@[simp] theorem files_sayAll (remarks : List (Nat × String)) (world : World) :
    (world.sayAll remarks).files = world.files := by
  induction remarks generalizing world with
  | nil => rfl
  | cons remark rest ih => simpa [sayAll] using ih (world.say remark.1 remark.2)

@[simp] theorem output_sayAll (remarks : List (Nat × String)) (world : World) :
    (world.sayAll remarks).console.output = world.console.output := by
  induction remarks generalizing world with
  | nil => rfl
  | cons remark rest ih => simpa [sayAll] using ih (world.say remark.1 remark.2)

@[simp] theorem files_emit (data : Bytes) (world : World) :
    (world.emit data).files = world.files := rfl

@[simp] theorem files_withoutInput (world : World) : world.withoutInput.files = world.files := rfl

end World

/-! ### Tasks -/

/-- An action on the world that may fail. -/
abbrev Task (ε : Type) : Type → Type := ExceptT ε (StateM World)

namespace Task

variable {ε ε' α β : Type}

/-- The result of a task and the world after it. -/
def on (task : Task ε α) (world : World) : Except ε α × World := task.run world

@[simp] theorem on_pure (value : α) (world : World) :
    on (pure value : Task ε α) world = (.ok value, world) := rfl

@[simp] theorem on_throw (failure : ε) (world : World) :
    on (throw failure : Task ε α) world = (.error failure, world) := rfl

/-- A task that succeeds is continued in the world that it leaves, and one that fails is not
continued. -/
theorem on_bind (task : Task ε α) (next : α → Task ε β) (world : World) :
    on (task >>= next) world =
      match on task world with
      | (.ok result, after) => on (next result) after
      | (.error failure, after) => (.error failure, after) := by
  simp only [on, ExceptT.run, bind, ExceptT.bind, ExceptT.mk, StateT.bind]
  rcases task world with ⟨_ | _, after⟩ <;> rfl

/-- An action that cannot fail gives its result. -/
@[simp] theorem on_lift (action : StateM World α) (world : World) :
    on (liftM action : Task ε α) world = (.ok (action.run world).1, (action.run world).2) := rfl

/-- Another view of the failure changes nothing else. -/
theorem on_adapt (view : ε → ε') (task : Task ε α) (world : World) :
    on (ExceptT.adapt view task) world = ((on task world).1.mapError view, (on task world).2) := rfl

/-- A result that is known does not depend on the world. -/
@[simp] theorem on_ofExcept (result : Except ε α) (world : World) :
    on (MonadExcept.ofExcept result) world = (result, world) := by
  cases result <;> rfl

end Task

/-! ### Actions -/

/-- Shows a remark if the verbosity reaches its level. -/
def say (level : Nat) (remark : String) : StateM World Unit := modify (World.say level remark)

/-- Shows remarks, each from its own level on. -/
def sayAll (remarks : List (Nat × String)) : StateM World Unit := modify (World.sayAll remarks)

/-- Writes bytes to standard output. -/
def emit (data : Bytes) : StateM World Unit := modify (World.emit data)

/-- Writes a text to standard output. -/
def emitText (text : String) : StateM World Unit := emit text.toUTF8.toList

/-- Takes what is left of standard input. -/
def takeInput : StateM World Bytes := modifyGet fun world =>
  (world.console.input, world.withoutInput)

/-- The file system as it is. -/
def currentFiles : StateM World FileSystem := do return (← get).files

/-- Puts another file system in place of the one there. -/
def setFiles (files : FileSystem) : StateM World Unit := modify fun world => { world with files }

/-- The level up to which remarks are shown. -/
def currentVerbosity : StateM World Nat := do return (← get).console.verbosity

/-- Sets the level up to which remarks are shown. -/
def setVerbosity (level : Nat) : StateM World Unit :=
  modify fun world => { world with console.verbosity := level }

@[simp] theorem run_say (level : Nat) (remark : String) (world : World) :
    (say level remark).run world = ((), world.say level remark) := rfl

@[simp] theorem run_sayAll (remarks : List (Nat × String)) (world : World) :
    (sayAll remarks).run world = ((), world.sayAll remarks) := rfl

@[simp] theorem run_emit (data : Bytes) (world : World) :
    (emit data).run world = ((), world.emit data) := rfl

@[simp] theorem run_takeInput (world : World) :
    takeInput.run world = (world.console.input, world.withoutInput) := rfl

@[simp] theorem run_currentFiles (world : World) :
    currentFiles.run world = (world.files, world) := rfl

@[simp] theorem run_setFiles (files : FileSystem) (world : World) :
    (setFiles files).run world = ((), { world with files }) := rfl

@[simp] theorem run_currentVerbosity (world : World) :
    currentVerbosity.run world = (world.console.verbosity, world) := rfl

@[simp] theorem run_setVerbosity (level : Nat) (world : World) :
    (setVerbosity level).run world = ((), { world with console.verbosity := level }) := rfl

/-- Shows the notes of an attempt and gives its result. -/
def perform (attempt : Attempt) : Task Failure Decoded := do
  sayAll (attempt.notes.map fun note => (note.level, note.text))
  MonadExcept.ofExcept attempt.result

/-- Decoding is done with standard output and the files left alone. -/
theorem on_perform (attempt : Attempt) (world : World) :
    Task.on (perform attempt) world =
      (attempt.result, world.sayAll (attempt.notes.map fun note => (note.level, note.text))) := by
  simp [perform, Task.on_bind]

end Inflate
