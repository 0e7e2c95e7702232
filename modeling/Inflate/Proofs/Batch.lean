/-
**What a batch leaves alone.**

Where nothing may be replaced, a job opens no file that is there already. In an output directory that is
not kept to: what has the name of an output there is replaced by it, whether or not anything may be
replaced. Apart from that a file only goes when it is the source of a job that is done and that was to
remove it.

* `Lost`: the ways in which a job can lose what a location holds;
* `keeps_or_lost`: what one job does to what a location holds;
* `after_keeps`: what jobs one after the other do to it;
* `run_keeps`: what a batch does to it, between any two of its jobs;
* `run_replaces`: a file that is replaced in an output directory.
-/

import Inflate.Batch
import Inflate.Proofs.WrittenFile

namespace Inflate

open FileSystem (Writes Opened SameContents Removed)
open Persistence (Placed)

/-! ### One job -/

section Job

variable {source destination : String} {decoded : Decoded} {preferences : Preferences}
  {before stored : FileSystem} {location : Location} {content : Bytes} {written : Option String}

/-- **What storing leaves alone**: all content, but for what has the name of the output in an output
directory. -/
theorem Stored.keeps (stores : Stored decoded preferences before stored written)
    (careful : preferences.overwrite = false) (held : before.contentAt location = some content) :
    stored.contentAt location = some content ∨
      ∃ word directory name, preferences.outputDirectory = some word ∧
        word.text? = some directory ∧ Naming.outputName decoded = .ok name ∧
        before.resolve (Path.join directory name) .naming = .ok (.entry location) ∧
        stored.contentAt location = some decoded.data := by
  have kind := FileSystem.kindAt_of_contentAt held
  cases stores with
  | nothing same => exact Or.inl (same ▸ held)
  | device same plain allowed => cases allowed.symm.trans careful
  | @opened path place plain allowed opened =>
    have absent := allowed.resolve_left (by rw [careful]; nofun)
    have nothing := opened.kindAt_eq_none absent
    have other : location ≠ place := by
      rintro rfl
      cases nothing.symm.trans kind
    exact Or.inl ((FileSystem.contentAt_congr (opened.writes.elsewhere location other)).trans held)
  | @placed word directory name place under text named inside placed =>
    by_cases here : location = place
    · subst here
      rcases placed.names with names | names
      · exact Or.inr ⟨word, directory, name, under, text, named, names, placed.writes.held⟩
      · have nothing := ((FileSystem.resolve_eq_ok_iff.mp names).2).kindAt_eq_none
        cases nothing.symm.trans kind
    · exact Or.inl
        ((FileSystem.contentAt_congr (placed.writes.elsewhere location here)).trans held)

/-- What a path names when an output has been stored it named before, if something was there. -/
theorem Stored.names_before {path : String} (stores : Stored decoded preferences before stored written)
    (names : stored.resolve path .naming = .ok (.entry location))
    (there : before.kindAt location ≠ none) :
    before.resolve path .naming = .ok (.entry location) := by
  rcases stores.same_or_gains with same | ⟨place, gains, outside, -⟩
  · exact same ▸ names
  · refine (FileSystem.resolve_before_gain gains outside names).resolve_right ?_
    rintro ⟨same, nothing, -⟩
    cases same
    exact there nothing

/-- How a job can lose what a location holds: it was done and removed its source, which named the
location, or its output took the place of what had its name in an output directory. -/
inductive Lost (preferences : Preferences) (item : Batch.Item) (world : World)
    (location : Location) : Prop where
  | removed {report : Report}
    (succeeds : (Task.on (decompressFile item.source item.destination preferences) world).1 =
      .ok report)
    (asked : removes preferences item.source = true)
    (names : world.files.resolve item.source .naming = .ok (.entry location))
  | replaced {content : Bytes} {decoded : Decoded} {word : Word} {directory name : String}
    (under : preferences.outputDirectory = some word) (text : word.text? = some directory)
    (gives : Gives world item.source content)
    (decodes : decode preferences.format content preferences.options = .ok decoded)
    (named : Naming.outputName decoded = .ok name)
    (names : world.files.resolve (Path.join directory name) .naming = .ok (.entry location))
    (held : (Task.on (decompressFile item.source item.destination preferences)
      world).2.files.contentAt location = some decoded.data)

/-- A job that stored its output leaves alone what it then holds as before, or loses it. -/
theorem Stored.keeps_or_lost {item : Batch.Item} {world : World} {read : Bytes}
    (stores : Stored decoded preferences world.files stored written)
    (gives : Gives world item.source read)
    (decodes : decode preferences.format read preferences.options = .ok decoded)
    (careful : preferences.overwrite = false)
    (held : world.files.contentAt location = some content)
    (same : (Task.on (decompressFile item.source item.destination preferences)
      world).2.files.contentAt location = stored.contentAt location) :
    (Task.on (decompressFile item.source item.destination preferences)
      world).2.files.contentAt location = some content ∨ Lost preferences item world location := by
  refine (stores.keeps careful held).imp same.trans ?_
  rintro ⟨word, directory, name, under, text, named, names, replaced⟩
  exact .replaced under text gives decodes named names (same.trans replaced)

/-- **What a job leaves alone** where nothing may be replaced. -/
theorem keeps_or_lost (careful : preferences.overwrite = false) (item : Batch.Item) (world : World)
    (held : world.files.contentAt location = some content) :
    (Task.on (decompressFile item.source item.destination preferences)
      world).2.files.contentAt location = some content ∨ Lost preferences item world location := by
  have does := decompressFile_spec item.source item.destination preferences world
  unfold Task.Does at does
  generalize outcome : Task.on (decompressFile item.source item.destination preferences) world = ran
    at does
  obtain ⟨failure | report, after⟩ := ran
  · rcases does with same | processed
    · refine Or.inl ?_
      rw [same]
      exact held
    · rw [← outcome]
      refine processed.stores.keeps_or_lost processed.gives processed.decodes careful held ?_
      rw [outcome]
      exact processed.dresses.content location
  · obtain ⟨read, decoded, stored, dressed, course⟩ := does
    have there : world.files.kindAt location ≠ none :=
      (FileSystem.kindAt_of_contentAt held).trans_ne nofun
    by_cases gone : removes preferences item.source = true ∧
        dressed.resolve item.source .naming = .ok (.entry location)
    · obtain ⟨asked, names⟩ := gone
      have names := course.stores.names_before (course.dresses.symm.resolve names) there
      exact Or.inr (.removed (congrArg Prod.fst outcome) asked names)
    · -- What is removed is not at the location, so the location holds what it held before that.
      rw [← outcome]
      refine course.stores.keeps_or_lost course.gives course.decodes careful held ?_
      rw [outcome]
      refine Eq.trans ?_ (course.dresses.content location)
      have ends := course.ends
      by_cases asked : removes preferences item.source = true
      · rw [if_pos asked] at ends
        obtain ⟨place, removed⟩ := ends
        refine FileSystem.contentAt_congr (removed.elsewhere location ?_)
        rintro rfl
        exact gone ⟨asked, removed.names⟩
      · rw [if_neg asked] at ends
        rw [ends]

end Job

/-! ### Jobs one after the other -/

namespace Batch

variable {common : Option String} {preferences : Preferences} {location : Location} {content : Bytes}

/-- The world after jobs, one after the other. -/
def after (preferences : Preferences) (jobs : List Item) (world : World) : World :=
  ((runItems preferences jobs).run world).2

/-- Jobs run in the world that the jobs before them left. -/
theorem run_runItems_append (front back : List Item) (world : World) :
    (runItems preferences (front ++ back)).run world =
      (((runItems preferences front).run world).1 ++
          ((runItems preferences back).run (after preferences front world)).1,
        after preferences back (after preferences front world)) := by
  simp only [after, runItems, List.mapM_append, StateT.run_bind]
  rfl

theorem after_append (front back : List Item) (world : World) :
    after preferences (front ++ back) world =
      after preferences back (after preferences front world) := by
  rw [after, run_runItems_append]

/-- How many jobs failed. -/
theorem failures_eq (results : List (Except IoError Report)) :
    failures results = results.countP fun result => !result.isOk := by
  have succeed : (reports results).length = results.countP fun result => result.isOk := by
    rw [reports, List.length_filterMap_eq_countP]
    refine List.countP_congr fun result _ => ?_
    cases result <;> exact Iff.rfl
  have all := List.length_eq_countP_add_countP (fun result => result.isOk) (l := results)
  unfold failures
  simp only [Bool.not_eq_true, Bool.decide_eq_false] at all
  omega

/-- A job of a batch does what it does by itself, and a failure is remarked on. -/
theorem run_attemptItem (item : Item) (world : World) :
    (attemptItem preferences item).run world =
      match Task.on (decompressFile item.source item.destination preferences) world with
      | (.ok report, after) => (.ok report, after)
      | (.error error, after) => (.error error, after.say 1 (signed error.message)) := by
  have job : (decompressFile item.source item.destination preferences).run.run world =
      Task.on (decompressFile item.source item.destination preferences) world := rfl
  rw [attemptItem, StateT.run_bind, job]
  generalize Task.on (decompressFile item.source item.destination preferences) world = ran
  obtain ⟨_ | report, later⟩ := ran <;> rfl

/-- The first of several jobs is run first. -/
theorem run_runItems_cons (item : Item) (rest : List Item) (world : World) :
    (runItems preferences (item :: rest)).run world =
      (((attemptItem preferences item).run world).1 ::
          ((runItems preferences rest).run ((attemptItem preferences item).run world).2).1,
        ((runItems preferences rest).run ((attemptItem preferences item).run world).2).2) := by
  simp only [runItems, List.mapM_cons, StateT.run_bind]
  rfl

/-- A remark on a job that failed changes no file. -/
theorem files_after_singleton (item : Item) (world : World) :
    (after preferences [item] world).files =
      (Task.on (decompressFile item.source item.destination preferences) world).2.files := by
  have job : after preferences [item] world = ((attemptItem preferences item).run world).2 := by
    rw [after, run_runItems_cons]
    rfl
  rw [job, run_attemptItem]
  generalize Task.on (decompressFile item.source item.destination preferences) world = ran
  obtain ⟨_ | report, later⟩ := ran
  · exact World.files_say _ _ _
  · rfl

/-- **What jobs leave alone** where nothing may be replaced: what a location holds stays until one of
the jobs loses it. -/
theorem after_keeps (careful : preferences.overwrite = false) (jobs : List Item) (world : World)
    (held : world.files.contentAt location = some content) :
    (after preferences jobs world).files.contentAt location = some content ∨
      ∃ front item back, jobs = front ++ item :: back ∧
        (after preferences front world).files.contentAt location = some content ∧
        Lost preferences item (after preferences front world) location := by
  induction jobs generalizing world with
  | nil => exact Or.inl held
  | cons item rest ih =>
    have split : after preferences (item :: rest) world =
        after preferences rest (after preferences [item] world) := after_append [item] rest world
    -- The first job leaves the location alone, or is itself the one that loses it.
    rcases keeps_or_lost careful item world held with kept | lost
    · rw [← files_after_singleton] at kept
      rw [split]
      refine (ih _ kept).imp_right ?_
      rintro ⟨front, last, back, rfl, still, lost⟩
      rw [← after_append] at still lost
      exact ⟨item :: front, last, back, rfl, still, lost⟩
    · exact Or.inr ⟨[], item, rest, rfl, held, lost⟩

/-! ### Whole batches -/

/-- The world in which the jobs of a batch start: the sources that are skipped have been remarked on,
and that workers are used. -/
def begun (sources : List String) (common : Option String) (preferences : Preferences)
    (world : World) : World :=
  let remarked := world.sayAll
    ((skipped common preferences sources).map fun source => (1, skippedLine source))
  if isShared common preferences (items common preferences sources) then
    remarked.say 4 ("Using " ++ Text.decimal preferences.workers ++ " threads for decompression \n")
  else remarked

/-- All of the console but the remarks is as before. -/
theorem console_begun {γ : Type} {part : Console → γ}
    (plain : ∀ console remarks, part { console with remarks } = part console) (sources : List String)
    (world : World) :
    part (begun sources common preferences world).console = part world.console := by
  unfold begun
  split
  · exact (Task.console_say plain _ _ _).trans (Task.console_sayAll plain _ _)
  · exact Task.console_sayAll plain _ _

@[simp] theorem files_begun (sources : List String) (world : World) :
    (begun sources common preferences world).files = world.files := by
  unfold begun
  split <;> simp

/-- The world of a batch when some of its jobs are done. -/
def whenDone (sources : List String) (common : Option String) (preferences : Preferences)
    (world : World) (jobs : List Item) : World :=
  after preferences jobs (begun sources common preferences world)

/-- **A whole batch**: its jobs are run, and it succeeds if nothing was skipped and no job failed. -/
theorem on_run (sources : List String) (world : World) :
    Task.on (run sources common preferences) world =
      let jobs := items common preferences sources
      let left := skipped common preferences sources
      let ended := (runItems preferences jobs).run (begun sources common preferences world)
      (if 0 < failures ended.1 + left.length then .error (incomplete (failures ended.1) left.length)
        else .ok (),
        ended.2.say 3 (finishedLine ended.1)) := by
  have ending : ∀ (results : List (Except IoError Report)) (left : Nat) (world : World),
      Task.on (show Task IoError Unit from do
        say 3 (finishedLine results)
        if 0 < failures results + left then
          throw (incomplete (failures results) left)) world =
      (if 0 < failures results + left then .error (incomplete (failures results) left) else .ok (),
        world.say 3 (finishedLine results)) := by
    intro results left world
    rw [Task.on_bind, Task.on_lift, run_say]
    by_cases bad : 0 < failures results + left
    · rw [if_pos bad, if_pos bad]
      rfl
    · rw [if_neg bad, if_neg bad]
      rfl
  unfold run begun
  simp only [Task.on_bind, Task.on_lift, run_sayAll]
  by_cases shared : isShared common preferences (items common preferences sources) = true
  · simp only [if_pos shared]
    exact ending _ _ _
  · simp only [if_neg shared]
    exact ending _ _ _

/-- A batch leaves the files that its jobs leave. -/
theorem files_run (sources : List String) (world : World) :
    (Task.on (run sources common preferences) world).2.files =
      (whenDone sources common preferences world (items common preferences sources)).files := by
  rw [on_run]
  exact World.files_say _ _ _

/-- **What a batch leaves alone** where nothing may be replaced. What a location holds when some of
the jobs are done, be it from before the batch or from one of these jobs, it still holds when later
ones are done, unless one of the later ones was the first to lose it. -/
theorem run_keeps (sources : List String) (common : Option String)
    (careful : preferences.overwrite = false) (world : World) :
    (Task.on (run sources common preferences) world).2.files =
      (whenDone sources common preferences world (items common preferences sources)).files ∧
    (whenDone sources common preferences world []).files = world.files ∧
    ∀ earlier later rest, items common preferences sources = earlier ++ later ++ rest →
      ∀ location content,
        (whenDone sources common preferences world earlier).files.contentAt location = some content →
        (whenDone sources common preferences world (earlier ++ later)).files.contentAt location =
          some content ∨
        ∃ front item back, later = front ++ item :: back ∧
          (whenDone sources common preferences world (earlier ++ front)).files.contentAt location =
            some content ∧
          Lost preferences item
            (whenDone sources common preferences world (earlier ++ front)) location := by
  refine ⟨files_run sources world, files_begun sources world, ?_⟩
  intro earlier later rest _ location content held
  simp only [whenDone, after_append]
  exact after_keeps careful later _ held

/-- A file that is there already stays as it is. -/
theorem run_keeps_older : ∃ world,
    world.files.entries = [(["x.zz"], plainFile letterStream), (["x"], plainFile [0])] ∧
    ({} : Preferences).overwrite = false ∧
    items none {} ["x.zz"] = [⟨"x.zz", "x"⟩] ∧
    (Task.on (run ["x.zz"] none {}) world).2.files.contentAt ["x"] = some [0] := by
  obtain ⟨files, isFiles⟩ : ∃ files : FileSystem,
    files = ⟨[(["x.zz"], plainFile letterStream), (["x"], plainFile [0])], [], 0⟩ := ⟨_, rfl⟩
  have jobs : items none {} ["x.zz"] = [⟨"x.zz", "x"⟩] := by decide +kernel
  obtain ⟨leaves, starts, keeps⟩ := @run_keeps {} ["x.zz"] none rfl ⟨files, {}⟩
  have held : (whenDone ["x.zz"] none {} ⟨files, {}⟩ []).files.contentAt ["x"] = some [0] := by
    rw [starts, isFiles]
    cbv
  refine ⟨⟨files, {}⟩, congrArg FileSystem.entries isFiles, rfl, jobs, ?_⟩
  rw [leaves]
  refine (keeps [] _ [] (List.append_nil _).symm ["x"] [0] held).resolve_right ?_
  rintro ⟨_, _, _, -, -, ⟨-, asked, -⟩ | ⟨under, -, -, -, -, -, -⟩⟩
  · cases asked
  · cases under

/-- What a batch that persists into the directory it is run in is run with. -/
def here : Preferences := { outputDirectory := some ⟨['.'], []⟩ }

/-- A source, and a file that has the name of its output. -/
def taken : FileSystem :=
  ⟨[(["x.zz"], plainFile letterStream), (["00620062.out"], plainFile [0])], [], 0⟩

/-- The file that has the name of the output can be replaced. -/
theorem accepts_taken :
    Persistence.Call.Accepts ⟨".", "00620062.out", [letter.data]⟩ taken ["00620062.out"] := by
  have path : Path.join "." "00620062.out" = "./00620062.out" := by decide +kernel
  have proper : Path.fileName? "00620062.out" = some "00620062.out" := by decide +kernel
  have kind : taken.kindAt ["00620062.out"] = some .file := by cbv
  refine ⟨⟨by cbv, proper⟩, Or.inl ?_, kind.trans_ne (by decide)⟩
  show taken.resolve (Path.join "." "00620062.out") .naming = .ok (.entry ["00620062.out"])
  rw [path]
  have noNul : "./00620062.out".toList.contains '\x00' = false := by decide +kernel
  have nonempty : "./00620062.out" ≠ "" := by decide +kernel
  have short : ¬ FileSystem.maxPathSize < "./00620062.out".utf8ByteSize := by decide +kernel
  have relative : Path.isAbsolute "./00620062.out" = false := by decide +kernel
  have segments : Path.segments "./00620062.out" = [".", "00620062.out"] := by decide +kernel
  rw [FileSystem.resolve, noNul, if_neg nonempty, if_neg short, FileSystem.origin, relative, segments]
  cbv

/-- **A file that is replaced in an output directory**, where nothing may be replaced. -/
theorem run_replaces : here.overwrite = false ∧ here.removeSource = false ∧
    taken.contentAt ["00620062.out"] = some [0] ∧
    (Task.on (run ["x.zz"] none here) ⟨taken, {}⟩).2.files.contentAt ["00620062.out"] =
      some [0x61] := by
  have jobs : items none here ["x.zz"] = [⟨"x.zz", "/dev/null"⟩] := by decide +kernel
  have named : Naming.outputName letter = .ok "00620062.out" := by cbv
  have reading : Task.Succeeds (readSource "x.zz") taken letterStream taken :=
    fun console => ⟨console, by cbv⟩
  have text : (⟨['.'], []⟩ : Word).text? = some "." := by decide +kernel
  obtain ⟨report, later, held, succeeds⟩ : ∃ report later,
      later.contentAt ["00620062.out"] = some letter.data ∧
      Task.Succeeds (decompressFile "x.zz" "/dev/null" here) taken report later :=
    succeeds_replacing reading decode_letterStream rfl rfl rfl text named accepts_taken
  have starts : (begun ["x.zz"] none here ⟨taken, {}⟩).files = taken := files_begun _ _
  refine ⟨rfl, rfl, by cbv, ?_⟩
  rw [files_run, jobs, whenDone, files_after_singleton]
  generalize begun ["x.zz"] none here ⟨taken, {}⟩ = start at starts ⊢
  obtain ⟨_, console⟩ := start
  obtain rfl := starts
  obtain ⟨shown, ran⟩ := succeeds console
  rw [ran]
  exact held

end Batch

end Inflate
