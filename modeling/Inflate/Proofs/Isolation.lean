/-
**Jobs that fail do not affect the others.**

A job that fails leaves files and standard output as they were, so the jobs after it do what they would
do without it. It may have taken standard input, but then nothing is left there that a later job could
decode. A batch counts its failures and the sources that it skipped, and says both counts.

* `Mirrors`: two worlds in which the jobs that succeed do the same;
* `attemptItem_mirrors`: one job, run in one of the worlds, and in the other if it succeeds;
* `runItems_mirrors`: all jobs of a list, and those of them that succeed;
* `run_isolates`: **a batch**, and the batch of the sources that it did not skip and that did not fail.
-/

import Inflate.Proofs.Batch
import Inflate.Proofs.Footprint
import Inflate.Proofs.SideBySide

namespace Inflate

/-- No format has an empty stream. -/
theorem decode_nil (format : Option Format) (options : Options) (decoded : Decoded) :
    decode format [] options ≠ .ok decoded := by
  intro accepted
  unfold decode attempt at accepted
  cases format with
  | none => cases accepted
  | some format =>
    cases format with
    | zlib => cases accepted
    | gzip =>
      simp only [attemptAs, Gzip.attempt] at accepted
      split at accepted
      · cases accepted
      · next buffer reserved =>
        have walked : Gzip.walk options.limit [] buffer = ⟨[], .failed .truncated⟩ := by
          rw [Gzip.walk]
          rfl
        rw [walked] at accepted
        cases accepted

namespace Batch

open FileSystem (SameEntries)

variable {common : Option String} {preferences : Preferences} {world other : World}

/-! ### One job -/

/-- Two worlds in which the jobs that succeed do the same: the files are alike and the same was written
to standard output. Of standard input there is the same, or nothing in the first world. -/
structure Mirrors (world other : World) : Prop where
  files : SameEntries world.files other.files
  output : other.console.output = world.console.output
  input : other.console.input = world.console.input ∨ world.console.input = []

theorem Mirrors.say (mirrors : Mirrors world other) (level : Nat) (remark : String) :
    Mirrors (world.say level remark) other where
  files := by
    rw [World.files_say]
    exact mirrors.files
  output := mirrors.output.trans (World.output_say _ _ _).symm
  input := by
    rw [World.input_say]
    exact mirrors.input

/-- A job that read standard input to its end and succeeded finds the same there in both worlds, since
nothing could be decoded if it were empty. -/
theorem Mirrors.input_of_course {source destination : String} {after : World} {report : Report}
    {content : Bytes} {decoded : Decoded} {stored dressed : FileSystem} (mirrors : Mirrors world other)
    (course :
      Course source destination preferences world after report content decoded stored dressed)
    (standard : isStandardInput source = true) : other.console.input = world.console.input := by
  refine mirrors.input.resolve_right fun empty => ?_
  have gives := course.gives
  rw [Gives, if_pos standard, empty] at gives
  exact decode_nil _ _ _ (gives ▸ course.decodes)

/-- **One job**: if it succeeds it does the same in both worlds, and if it fails the second world
mirrors the first one still. -/
theorem attemptItem_mirrors (item : Item) (mirrors : Mirrors world other)
    (removable : Removable item.source item.destination preferences world) :
    match (attemptItem preferences item).run world with
    | (.ok report, after) => ∃ last,
        (attemptItem preferences item).run other = (.ok report, last) ∧ Mirrors after last
    | (.error _, after) => Mirrors after other := by
  have does := course_or_unchanged item.source item.destination preferences world removable
  have input := input_decompressFile item.source item.destination preferences
  unfold Task.Does at does
  rw [run_attemptItem]
  rcases ran : Task.on (decompressFile item.source item.destination preferences) world with
    ⟨_ | report, after⟩
  · rw [ran] at does
    obtain ⟨same, silent⟩ := does
    have left := input world
    rw [ran] at left
    refine Mirrors.say ⟨same ▸ mirrors.files, mirrors.output.trans silent.symm, ?_⟩ _ _
    rw [left]
    split
    · exact Or.inr rfl
    · exact mirrors.input
  · rw [ran] at does
    obtain ⟨content, decoded, stored, dressed, course⟩ := does
    have twin : Task.Twin (fun _ => True) (decompressFile item.source item.destination preferences)
        (decompressFile item.source item.destination preferences) world other :=
      twin_decompressFile mirrors.files (fun _ _ => trivial) (mirrors.input_of_course course)
    obtain ⟨result, step, data, left, right⟩ := twin
    have leftInput := input world
    have rightInput := input other
    rw [run_attemptItem]
    rcases again : Task.on (decompressFile item.source item.destination preferences) other with
      ⟨outcome, last⟩
    rw [ran] at result left step leftInput
    rw [again] at result right step rightInput
    obtain rfl : outcome = .ok report := result
    refine ⟨last, rfl, step.agree, ?_, ?_⟩
    · exact right.trans (mirrors.output ▸ left.symm)
    · rw [leftInput, rightInput]
      split
      · exact Or.inl rfl
      · exact mirrors.input

/-! ### Several jobs -/

/-- The jobs that succeeded, by the results of all. -/
def succeeded (jobs : List Item) (results : List (Except IoError Report)) : List Item :=
  ((jobs.zip results).filter fun entry => entry.2.isOk).map Prod.fst

/-- **Jobs one after the other**: those that succeed do the same without the others. -/
theorem runItems_mirrors (jobs : List Item) {last : World} {results : List (Except IoError Report)}
    (mirrors : Mirrors world other)
    (removable : ∀ front item back, jobs = front ++ item :: back →
      Removable item.source item.destination preferences (after preferences front world))
    (ran : (runItems preferences jobs).run world = (results, last)) :
    ∃ final, (runItems preferences (succeeded jobs results)).run other =
      (results.filter (·.isOk), final) ∧ Mirrors last final := by
  induction jobs generalizing world other results with
  | nil =>
    cases ran
    exact ⟨other, rfl, mirrors⟩
  | cons item rest ih =>
    have step := attemptItem_mirrors item mirrors (removable [] item rest rfl)
    have others : ∀ front next back, rest = front ++ next :: back →
        Removable next.source next.destination preferences
          (after preferences front ((attemptItem preferences item).run world).2) := by
      rintro front next back rfl
      have later := removable (item :: front) next back rfl
      rwa [after, run_runItems_cons] at later
    rw [run_runItems_cons] at ran
    rcases first : (attemptItem preferences item).run world with ⟨outcome, between⟩
    rcases more : (runItems preferences rest).run between with ⟨following, final⟩
    rw [first] at step others ran
    rw [more] at ran
    cases ran
    cases outcome with
    | error failure => exact ih step others more
    | ok report =>
      obtain ⟨next, again, mirrors⟩ := step
      obtain ⟨final, spared, mirrors⟩ := ih mirrors others more
      refine ⟨final, ?_, mirrors⟩
      show (runItems preferences (item :: succeeded rest following)).run other = _
      rw [run_runItems_cons, again, spared]
      rfl

/-! ### Whole batches -/

/-- A source that is skipped: it needs a destination, and none can be derived from its name. -/
def Skips (common : Option String) (preferences : Preferences) (source : String) : Prop :=
  common = none ∧ preferences.testMode = false ∧ preferences.outputDirectory = none ∧
    Naming.derivedName source = none

theorem destination?_eq_none_iff {source : String} :
    destination? common preferences source = none ↔ Skips common preferences source := by
  unfold destination? Skips
  cases common with
  | some name => exact ⟨nofun, nofun⟩
  | none =>
    cases testMode : preferences.testMode <;> cases under : preferences.outputDirectory <;> simp

instance (common : Option String) (preferences : Preferences) :
    DecidablePred (Skips common preferences) := fun _ =>
  decidable_of_iff _ destination?_eq_none_iff

theorem skipped_eq (sources : List String) :
    skipped common preferences sources =
      sources.filter fun source => Skips common preferences source := by
  refine List.filter_congr fun source _ => ?_
  rw [Bool.eq_iff_iff, decide_eq_true_iff, Option.isNone_iff_eq_none, destination?_eq_none_iff]

/-- The jobs have the other sources, in the order of the list. -/
theorem map_source_items (sources : List String) :
    (items common preferences sources).map Item.source =
      sources.filter fun source => ¬Skips common preferences source := by
  induction sources with
  | nil => rfl
  | cons source rest ih =>
    unfold items at ih ⊢
    cases found : destination? common preferences source with
    | none =>
      have skips := destination?_eq_none_iff.mp found
      rw [List.filterMap_cons_none (by rw [found]; rfl),
        List.filter_cons_of_neg (by simpa using skips)]
      exact ih
    | some destination =>
      have kept : ¬Skips common preferences source := by
        rw [← destination?_eq_none_iff, found]
        nofun
      rw [List.filterMap_cons_some (by rw [found]; rfl),
        List.filter_cons_of_pos (by simpa using kept)]
      exact congrArg (source :: ·) ih

/-- A job has the destination of its source. -/
theorem destination?_of_mem {item : Item} {sources : List String}
    (member : item ∈ items common preferences sources) :
    destination? common preferences item.source = some item.destination := by
  obtain ⟨source, -, isItem⟩ := List.mem_filterMap.mp member
  obtain ⟨destination, found, rfl⟩ := Option.map_eq_some_iff.mp isItem
  exact found

/-- The jobs of the sources of some jobs are these. -/
theorem items_map_source {jobs : List Item} {sources : List String}
    (among : ∀ item ∈ jobs, item ∈ items common preferences sources) :
    items common preferences (jobs.map Item.source) = jobs := by
  induction jobs with
  | nil => rfl
  | cons item rest ih =>
    obtain ⟨first, others⟩ := List.forall_mem_cons.mp among
    have found := destination?_of_mem first
    unfold items at ih ⊢
    rw [List.map_cons, List.filterMap_cons_some (by rw [found]; rfl), ih others]

/-- The results of the jobs of a batch, in the order of the list. -/
def results (sources : List String) (common : Option String) (preferences : Preferences)
    (world : World) : List (Except IoError Report) :=
  ((runItems preferences (items common preferences sources)).run
    (begun sources common preferences world)).1

/-- The sources that are left without those that were skipped and those whose jobs failed. -/
def survivors (sources : List String) (common : Option String) (preferences : Preferences)
    (world : World) : List String :=
  (succeeded (items common preferences sources)
    (results sources common preferences world)).map Item.source

theorem length_run_runItems (jobs : List Item) (world : World) :
    ((runItems preferences jobs).run world).1.length = jobs.length := by
  induction jobs generalizing world with
  | nil => rfl
  | cons item rest ih =>
    rw [run_runItems_cons]
    exact congrArg (· + 1) (ih _)

/-- The results are those of one job for each source that is not skipped, in the order of the list, and
each job is run in the world that the jobs before it left. -/
structure Attempts (sources : List String) (common : Option String) (preferences : Preferences)
    (world : World) (results : List (Except IoError Report)) : Prop where
  attempted : (items common preferences sources).map Item.source =
    sources.filter fun source => ¬Skips common preferences source
  once : results.length = (items common preferences sources).length
  each : ∀ front item back, items common preferences sources = front ++ item :: back →
    results[front.length]? = some (Task.on (decompressFile item.source item.destination preferences)
      (whenDone sources common preferences world front)).1

theorem attempts_results (sources : List String) (world : World) :
    Attempts sources common preferences world (results sources common preferences world) where
  attempted := map_source_items sources
  once := length_run_runItems _ _
  each := by
    intro front item back isList
    have position :
        ((runItems preferences front).run (begun sources common preferences world)).1.length =
          front.length := length_run_runItems _ _
    rw [results, isList, run_runItems_append, List.getElem?_append_right (by rw [position]), position,
      Nat.sub_self, run_runItems_cons, run_attemptItem, whenDone]
    generalize Task.on (decompressFile item.source item.destination preferences) _ = ran
    obtain ⟨_ | report, later⟩ := ran <;> rfl

/-- A batch begins in the world that it is run in, but for remarks. -/
theorem mirrors_begun (sources others : List String) (world : World) :
    Mirrors (begun sources common preferences world) (begun others common preferences world) where
  files := by
    rw [files_begun, files_begun]
    exact .refl _
  output := (console_begun output_plain others world).trans
    (console_begun output_plain sources world).symm
  input := Or.inl ((console_begun input_plain others world).trans
    (console_begun input_plain sources world).symm)

/-- What a batch comes to, by the counts of its failures and of the sources that it skipped. -/
theorem on_run_fst (sources : List String) (world : World) :
    (Task.on (run sources common preferences) world).1 =
      let failed := (results sources common preferences world).countP fun result => !result.isOk
      let left := sources.filter fun source => Skips common preferences source
      if 0 < failed + left.length then .error (incomplete failed left.length) else .ok () := by
  rw [on_run, ← skipped_eq, ← failures_eq]
  rfl

theorem on_run_eq_ok_iff (sources : List String) (world : World) :
    (Task.on (run sources common preferences) world).1 = .ok () ↔
      (sources.filter fun source => Skips common preferences source) = [] ∧
        ∀ result ∈ results sources common preferences world, result.isOk := by
  have all : (results sources common preferences world).countP (fun result => !result.isOk) = 0 ↔
      ∀ result ∈ results sources common preferences world, result.isOk := by
    simp [List.countP_eq_zero]
  rw [on_run_fst, ← all, ← List.length_eq_zero_iff]
  simp only
  split
  · refine ⟨nofun, fun none => ?_⟩
    omega
  · refine ⟨fun _ => ?_, fun _ => rfl⟩
    omega

/-- Jobs that succeeded are jobs. -/
theorem mem_of_mem_succeeded {jobs : List Item} {results : List (Except IoError Report)} {item : Item}
    (member : item ∈ succeeded jobs results) : item ∈ jobs := by
  obtain ⟨⟨job, result⟩, entry, rfl⟩ := List.mem_map.mp member
  exact (List.of_mem_zip (List.mem_of_mem_filter entry)).1

/-- The jobs of the sources that are left are those that succeeded. -/
theorem items_survivors (sources : List String) (world : World) :
    items common preferences (survivors sources common preferences world) =
      succeeded (items common preferences sources) (results sources common preferences world) :=
  items_map_source fun _ => mem_of_mem_succeeded

/-- None of the sources that are left is skipped. -/
theorem filter_survivors (sources : List String) (world : World) :
    ((survivors sources common preferences world).filter
      fun source => Skips common preferences source) = [] := by
  refine List.filter_eq_nil_iff.mpr fun source member => ?_
  obtain ⟨item, succeeds, rfl⟩ := List.mem_map.mp member
  have found := destination?_of_mem (mem_of_mem_succeeded succeeds)
  rw [decide_eq_true_iff, ← destination?_eq_none_iff, found]
  nofun

/-- **A batch**, if the sources that could be read can be removed: every source that is not skipped is
attempted once, in the order of the list. The batch succeeds if nothing was skipped and no job failed,
and otherwise its error says how many failed and how many were skipped. Without these sources the
others have the same results, and the files and standard output are the same. -/
theorem run_isolates (sources : List String) (common : Option String) (preferences : Preferences)
    (world : World)
    (removable : ∀ front item back, items common preferences sources = front ++ item :: back →
      Removable item.source item.destination preferences
        (whenDone sources common preferences world front)) :
    let ended := results sources common preferences world
    let left := sources.filter fun source => Skips common preferences source
    let whole := Task.on (run sources common preferences) world
    let spared := survivors sources common preferences world
    let reduced := Task.on (run spared common preferences) world
    Attempts sources common preferences world ended ∧
      (whole.1 = .ok () ↔ left = [] ∧ ∀ result ∈ ended, result.isOk) ∧
      (whole.1 ≠ .ok () →
        whole.1 = .error (incomplete (ended.countP fun result => !result.isOk) left.length)) ∧
      reduced.1 = .ok () ∧
      results spared common preferences world = ended.filter (·.isOk) ∧
      SameEntries whole.2.files reduced.2.files ∧
      reduced.2.console.output = whole.2.console.output := by
  intro ended left whole spared reduced
  obtain ⟨last, ran⟩ : ∃ last, (runItems preferences (items common preferences sources)).run
    (begun sources common preferences world) = (ended, last) := ⟨_, rfl⟩
  -- The jobs that succeeded, by themselves.
  obtain ⟨final, again, mirrors⟩ := runItems_mirrors (items common preferences sources)
    (mirrors_begun sources spared world) removable ran
  have jobs : items common preferences spared = succeeded (items common preferences sources) ended :=
    items_survivors sources world
  rw [← jobs] at again
  have same : results spared common preferences world = ended.filter (·.isOk) :=
    congrArg Prod.fst again
  refine ⟨attempts_results sources world, on_run_eq_ok_iff sources world, fun bad => ?_, ?_, same,
    ?_, ?_⟩
  · have verdict : whole.1 = _ := on_run_fst sources world
    simp only at verdict
    split at verdict
    · exact verdict
    · exact absurd verdict bad
  · refine (on_run_eq_ok_iff spared world).mpr ⟨filter_survivors sources world, ?_⟩
    rw [same]
    exact fun result member => (List.mem_filter.mp member).2
  · show SameEntries (Task.on (run sources common preferences) world).2.files
      (Task.on (run spared common preferences) world).2.files
    rw [on_run, on_run]
    simp only [ran, again, World.files_say]
    exact mirrors.files
  · show (Task.on (run spared common preferences) world).2.console.output =
      (Task.on (run sources common preferences) world).2.console.output
    rw [on_run, on_run]
    simp only [ran, again, World.output_say]
    exact mirrors.output

/-- A source that can be decoded, and one that cannot. -/
def goodAndBad : FileSystem :=
  ⟨[(["x.zz"], plainFile letterStream), (["y.zz"], plainFile [0])], [], 0⟩

theorem on_bad (console : Console) : ∃ failure shown,
    Task.on (decompressFile "y.zz" "y" {}) ⟨goodAndBad, console⟩ =
      (.error failure, ⟨goodAndBad, shown⟩) := by
  have reading : Task.on (readSource "y.zz") ⟨goodAndBad, console⟩ =
    (.ok [0], ⟨goodAndBad, console⟩) := by cbv
  have decoding : Task.on (decodeSource "y.zz" [0] {}) ⟨goodAndBad, console⟩ =
    (.error (Failure.truncated.about "y.zz"), ⟨goodAndBad, console⟩) := rfl
  rw [decompressFile, Task.on_bind, reading]
  simp only
  rw [Task.on_bind, decoding]
  exact ⟨_, _, rfl⟩

theorem on_good (console : Console) : ∃ report after,
    Task.on (decompressFile "x.zz" "x" {}) ⟨goodAndBad, console⟩ = (.ok report, after) := by
  have reading : Task.Succeeds (readSource "x.zz") goodAndBad letterStream goodAndBad :=
    fun console => ⟨console, by cbv⟩
  have storing : Task.Succeeds (store "x.zz" "x" letter {}) goodAndBad (some "x")
      ⟨[(["x"], plainFile [0x61]), (["x.zz"], plainFile letterStream), (["y.zz"], plainFile [0])],
        [], 0⟩ := by
    have own : Path.same "x" "x.zz" = false := by decide +kernel
    show Task.Succeeds (do
        if !isStandardInput "x.zz" && Path.same "x" "x.zz" then
          throw ⟨.invalidInput, "x.zz" ++ ": source and destination are the same file"⟩
        writeDestination (.file "x") false [0x61]
        return some "x") _ _ _
    rw [own]
    exact fun console => ⟨console, by cbv⟩
  obtain ⟨dressed, -, dressing⟩ := copyStatus_spec "x.zz" "x" letter {} _
  have kept : removes {} "x.zz" = false := by decide +kernel
  have ending : if removes {} "x.zz" then
      Task.Succeeds (removeSource "x.zz") dressed () dressed else dressed = dressed := by
    rw [kept]
    rfl
  obtain ⟨shown, ran⟩ := succeeds_decompressFile reading decode_letterStream storing dressing ending
    console
  exact ⟨_, _, ran⟩

/-- A batch with a source that cannot be decoded and one that is skipped, and the third by itself. -/
theorem run_isolates_third :
    ∃ console,
      (Task.on (run ["y.zz", "z", "x.zz"] none {}) ⟨goodAndBad, console⟩).1 =
        .error (incomplete 1 1) ∧
      (Task.on (run ["x.zz"] none {}) ⟨goodAndBad, console⟩).1 = .ok () ∧
      SameEntries (Task.on (run ["y.zz", "z", "x.zz"] none {}) ⟨goodAndBad, console⟩).2.files
        (Task.on (run ["x.zz"] none {}) ⟨goodAndBad, console⟩).2.files := by
  have jobs : items none {} ["y.zz", "z", "x.zz"] = [⟨"y.zz", "y"⟩, ⟨"x.zz", "x"⟩] := by
    decide +kernel
  obtain ⟨start, isStart⟩ : ∃ start,
    begun ["y.zz", "z", "x.zz"] none {} ⟨goodAndBad, {}⟩ = start := ⟨_, rfl⟩
  have starts : start.files = goodAndBad := isStart ▸ files_begun _ _
  obtain ⟨_, console⟩ := start
  obtain rfl : _ = goodAndBad := starts
  -- The results of the two jobs, one after the other.
  obtain ⟨failure, shown, bad⟩ := on_bad console
  obtain ⟨remarked, said⟩ := run_say_files 1 (signed failure.message) goodAndBad shown
  obtain ⟨report, after, good⟩ := on_good remarked
  have first : (attemptItem {} ⟨"y.zz", "y"⟩).run ⟨goodAndBad, console⟩ =
      (.error failure, ⟨goodAndBad, remarked⟩) := by
    rw [run_attemptItem, bad]
    exact congrArg (Except.error failure, ·) (congrArg Prod.snd said)
  have second : ((attemptItem {} ⟨"x.zz", "x"⟩).run ⟨goodAndBad, remarked⟩).1 = .ok report := by
    rw [run_attemptItem, good]
  have ended : results ["y.zz", "z", "x.zz"] none {} ⟨goodAndBad, {}⟩ =
      [.error failure, .ok report] := by
    rw [results, jobs, isStart, run_runItems_cons, first, run_runItems_cons, second]
    rfl
  have spared : survivors ["y.zz", "z", "x.zz"] none {} ⟨goodAndBad, {}⟩ = ["x.zz"] := by
    rw [survivors, jobs, ended]
    rfl
  have left : (["y.zz", "z", "x.zz"].filter fun source => Skips none {} source) = ["z"] := by
    decide +kernel
  obtain ⟨-, succeeds, fails, reduced, -, files, -⟩ := run_isolates ["y.zz", "z", "x.zz"] none {}
    ⟨goodAndBad, {}⟩ fun _ _ _ _ => removable_of_plain rfl _ _ _
  rw [ended, left] at succeeds fails
  rw [spared] at reduced files
  refine ⟨{}, fails fun all => ?_, reduced, files⟩
  cases (succeeds.mp all).1

end Batch

end Inflate
