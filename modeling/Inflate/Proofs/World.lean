/-
**What tasks do.**

A task is described by what it does in a world, as far as its caller needs to know: one thing if it
succeeds, with its result, and one if it fails. Descriptions of tasks one after the other are put
together from those of the tasks.

* `Task.Does`: what a task does in a world;
* `Task.Does.bind`, `Task.does_lift_bind`: tasks one after the other;
* `Task.does_perform`: decoding as a task;
* `Task.Keeps`: a task that leaves a part of the console alone;
* `Task.Succeeds`: a task that succeeds, whatever the console is.
-/

import Inflate.World

namespace Inflate

/-! ### Actions that leave the files alone -/

/-- What follows a look at the files. -/
theorem run_currentFiles_bind {α : Type} (next : FileSystem → StateM World α) (world : World) :
    (currentFiles >>= next).run world = (next world.files).run world := rfl

/-- Speaking changes the console only. -/
theorem run_say_files (level : Nat) (remark : String) (files : FileSystem) (console : Console) :
    ∃ shown, (say level remark).run ⟨files, console⟩ = ((), ⟨files, shown⟩) := by
  have same : (World.say level remark ⟨files, console⟩).files = files := World.files_say _ _ _
  rw [run_say]
  generalize World.say level remark ⟨files, console⟩ = world at same ⊢
  subst same
  exact ⟨world.console, rfl⟩

/-! ### Tasks that succeed or fail -/

namespace Task

variable {ε ε' α β : Type}

/-- What a task does in a world, by how it ends. -/
def Does (task : Task ε α) (world : World) (done : α → World → Prop) (failed : ε → World → Prop) :
    Prop :=
  match task.on world with
  | (.ok result, after) => done result after
  | (.error failure, after) => failed failure after

variable {task : Task ε α} {world : World} {done : α → World → Prop} {failed : ε → World → Prop}

theorem Does.imp {other : α → World → Prop} {broken : ε → World → Prop}
    (does : Does task world done failed)
    (onResult : ∀ result after, done result after → other result after)
    (onFailure : ∀ failure after, failed failure after → broken failure after) :
    Does task world other broken := by
  unfold Does at does ⊢
  generalize on task world = outcome at does ⊢
  obtain ⟨_ | result, after⟩ := outcome
  · exact onFailure _ after does
  · exact onResult result after does

theorem Does.of_ok (does : Does task world done failed) {result : α} {after : World}
    (ran : task.on world = (.ok result, after)) : done result after := by
  unfold Does at does
  rwa [ran] at does

theorem Does.of_error (does : Does task world done failed) {failure : ε} {after : World}
    (ran : task.on world = (.error failure, after)) : failed failure after := by
  unfold Does at does
  rwa [ran] at does

/-- A task that cannot succeed fails. -/
theorem Does.exists_error (does : Does task world (fun _ _ => False) failed) :
    ∃ failure after, task.on world = (.error failure, after) ∧ failed failure after := by
  unfold Does at does
  generalize on task world = outcome at does ⊢
  obtain ⟨failure | _, after⟩ := outcome
  · exact ⟨failure, after, rfl, does⟩
  · exact does.elim

/-- What a task does, with its result and the world after it. -/
theorem Does.with_on (does : Does task world done failed) :
    Does task world (fun result after => task.on world = (.ok result, after) ∧ done result after)
      fun failure after => task.on world = (.error failure, after) ∧ failed failure after := by
  unfold Does at does ⊢
  generalize on task world = outcome at does ⊢
  obtain ⟨_ | result, after⟩ := outcome <;> exact ⟨rfl, does⟩

/-- Tasks one after the other. -/
theorem Does.bind {next : α → Task ε β} {last : β → World → Prop} {broken : ε → World → Prop}
    (does : Does task world done failed)
    (onFailure : ∀ failure after, failed failure after → broken failure after)
    (onResult : ∀ result after, done result after → Does (next result) after last broken) :
    Does (task >>= next) world last broken := by
  unfold Does at does ⊢
  rw [on_bind]
  generalize on task world = outcome at does ⊢
  obtain ⟨_ | result, after⟩ := outcome
  · exact onFailure _ after does
  · exact onResult result after does

/-- Another view of the failure. -/
theorem Does.adapt (does : Does task world done failed) (view : ε → ε') {broken : ε' → World → Prop}
    (onFailure : ∀ failure after, failed failure after → broken (view failure) after) :
    Does (ExceptT.adapt view task) world done broken := by
  unfold Does at does ⊢
  rw [on_adapt]
  generalize on task world = outcome at does ⊢
  obtain ⟨_ | result, after⟩ := outcome
  · exact onFailure _ after does
  · exact does

/-- A result that is known. -/
theorem does_ofExcept {result : Except ε α} (onResult : ∀ value, result = .ok value → done value world)
    (onFailure : ∀ failure, result = .error failure → failed failure world) :
    Does (MonadExcept.ofExcept result) world done failed := by
  unfold Does
  rw [on_ofExcept]
  cases result with
  | error failure => exact onFailure failure rfl
  | ok value => exact onResult value rfl

/-- What a known result leaves to be known. -/
theorem does_ofExcept_self (result : Except ε α) (world : World) :
    Does (MonadExcept.ofExcept result) world
      (fun value after => result = .ok value ∧ after = world)
      (fun failure after => result = .error failure ∧ after = world) :=
  does_ofExcept (fun _ same => ⟨same, rfl⟩) fun _ same => ⟨same, rfl⟩

/-- An action that cannot fail, and what follows it. -/
theorem does_lift_bind {action : StateM World α} {next : α → Task ε β} {last : β → World → Prop}
    {broken : ε → World → Prop}
    (does : Does (next (action.run world).1) (action.run world).2 last broken) :
    Does (liftM action >>= next) world last broken := by
  unfold Does at does ⊢
  rw [on_bind, on_lift]
  exact does

/-- **Decoding** changes no file. -/
theorem does_perform (attempt : Attempt) (world : World) :
    Does (perform attempt) world
      (fun decoded after => attempt.result = .ok decoded ∧ after.files = world.files)
      (fun failure after => attempt.result = .error failure ∧ after.files = world.files) := by
  refine does_lift_bind (does_ofExcept ?_ ?_)
  · exact fun decoded accepted => ⟨accepted, World.files_sayAll _ _⟩
  · exact fun failure refused => ⟨refused, World.files_sayAll _ _⟩

/-! ### Tasks that leave a part of the console alone -/

section Keeps

variable {γ : Type} {part : Console → γ}

/-- The task leaves a part of the console as it is. -/
def Keeps (part : Console → γ) (task : Task ε α) : Prop :=
  ∀ world, part (task.on world).2.console = part world.console

theorem keeps_pure (result : α) : Keeps part (pure result : Task ε α) := fun _ => rfl

theorem keeps_throw (failure : ε) : Keeps part (throw failure : Task ε α) := fun _ => rfl

theorem keeps_ofExcept (result : Except ε α) :
    Keeps part (MonadExcept.ofExcept result : Task ε α) := by
  intro world
  rw [on_ofExcept]

/-- What is continued by tasks that leave a part alone leaves of it what it left before. -/
theorem on_bind_of_keeps (task : Task ε α) {next : α → Task ε β}
    (second : ∀ value, Keeps part (next value)) (world : World) :
    part (on (task >>= next) world).2.console = part (on task world).2.console := by
  rw [on_bind]
  generalize on task world = outcome
  obtain ⟨_ | value, after⟩ := outcome
  · rfl
  · exact second value after

theorem Keeps.bind {next : α → Task ε β} (first : Keeps part task)
    (second : ∀ value, Keeps part (next value)) : Keeps part (task >>= next) :=
  fun world => (on_bind_of_keeps task second world).trans (first world)

theorem Keeps.adapt (keeps : Keeps part task) (view : ε → ε') :
    Keeps part (ExceptT.adapt view task) := fun world => keeps world

/-- What a task leaves alone is as before however it ends. -/
theorem Keeps.does (keeps : Keeps part task) (world : World) :
    Does task world (fun _ after => part after.console = part world.console)
      fun _ after => part after.console = part world.console := by
  have same := keeps world
  unfold Does
  generalize on task world = outcome at same ⊢
  obtain ⟨_ | result, after⟩ := outcome <;> exact same

/-- What a task does, with what it leaves alone. -/
theorem Keeps.with_does (keeps : Keeps part task) (does : Does task world done failed) :
    Does task world (fun result after => done result after ∧ part after.console = part world.console)
      fun failure after => failed failure after ∧ part after.console = part world.console := by
  have same := keeps world
  unfold Does at does ⊢
  generalize on task world = outcome at same does ⊢
  obtain ⟨_ | result, after⟩ := outcome <;> exact ⟨does, same⟩

theorem keeps_lift {action : StateM World α}
    (same : ∀ world, part (action.run world).2.console = part world.console) :
    Keeps part (liftM action : Task ε α) := same

theorem keeps_currentFiles : Keeps part (liftM currentFiles : Task ε FileSystem) := fun _ => rfl

theorem keeps_setFiles (files : FileSystem) :
    Keeps part (liftM (setFiles files) : Task ε Unit) := fun _ => rfl

/-- A remark is kept away from all other parts. -/
theorem console_say (plain : ∀ console remarks, part { console with remarks } = part console)
    (level : Nat) (remark : String) (world : World) :
    part (world.say level remark).console = part world.console := by
  unfold World.say
  split
  · exact plain _ _
  · rfl

theorem keeps_say (plain : ∀ console remarks, part { console with remarks } = part console)
    (level : Nat) (remark : String) : Keeps part (liftM (say level remark) : Task ε Unit) :=
  fun world => console_say plain level remark world

theorem console_sayAll (plain : ∀ console remarks, part { console with remarks } = part console)
    (remarks : List (Nat × String)) (world : World) :
    part (world.sayAll remarks).console = part world.console := by
  induction remarks generalizing world with
  | nil => rfl
  | cons remark rest ih => exact (ih _).trans (console_say plain remark.1 remark.2 world)

theorem keeps_perform (plain : ∀ console remarks, part { console with remarks } = part console)
    (attempt : Attempt) : Keeps part (perform attempt) := by
  intro world
  rw [on_perform]
  exact console_sayAll plain _ world

end Keeps

/-! ### Tasks that succeed -/

/-- The task succeeds on some files with some result, whatever the console is, and leaves some
files. -/
def Succeeds (task : Task ε α) (files : FileSystem) (result : α) (later : FileSystem) : Prop :=
  ∀ console, ∃ shown, task.on ⟨files, console⟩ = (.ok result, ⟨later, shown⟩)

theorem Succeeds.bind {next : α → Task ε β} {files between later : FileSystem} {value : α}
    {result : β} (first : Succeeds task files value between)
    (second : Succeeds (next value) between result later) :
    Succeeds (task >>= next) files result later := by
  intro console
  obtain ⟨shown, same⟩ := first console
  rw [on_bind, same]
  exact second shown

theorem succeeds_pure (files : FileSystem) (result : α) :
    Succeeds (pure result : Task ε α) files result files :=
  fun console => ⟨console, rfl⟩

theorem Succeeds.adapt {files later : FileSystem} {result : α}
    (succeeds : Succeeds task files result later) (view : ε → ε') :
    Succeeds (ExceptT.adapt view task) files result later := by
  intro console
  obtain ⟨shown, same⟩ := succeeds console
  refine ⟨shown, ?_⟩
  rw [on_adapt, same]
  rfl

/-- Of an action that cannot fail only what it does to the files matters. -/
theorem succeeds_lift {action : StateM World α} {files later : FileSystem} {result : α}
    (runs : ∀ console, ∃ shown, action.run ⟨files, console⟩ = (result, ⟨later, shown⟩)) :
    Succeeds (liftM action : Task ε α) files result later := by
  intro console
  obtain ⟨shown, same⟩ := runs console
  refine ⟨shown, ?_⟩
  rw [on_lift, same]

theorem succeeds_say (level : Nat) (remark : String) (files : FileSystem) :
    Succeeds (liftM (say level remark) : Task ε Unit) files () files :=
  succeeds_lift (run_say_files level remark files)

end Task

end Inflate
