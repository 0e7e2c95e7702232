/-
**Independent jobs in any order.**

Jobs that are independent of each other, run one after the other in some order, leave together what each
of them leaves by itself: a location that a job changes by itself is as that job leaves it, and all
others are as they were. So the order does not matter, and neither does the count of workers that share
the jobs out, as long as each job is one step.

* `Spread`: the world after some jobs, by what each of them does by itself;
* `GivesAmong`: what a job gives among others, by what it gives by itself;
* `spread_ran`: one more job;
* `spread_runItems`: jobs in some order, by induction;
* `run_anyOrder`: **a batch and its jobs in any other order**.
-/

import Inflate.Proofs.Interference

namespace Inflate

namespace Batch

open FileSystem (Agree SameEntries Leads)

variable {item : Item} {preferences : Preferences} {world now : World} {done : List Item}

/-! ### One more job -/

/-- The world after some jobs: each location is as the job leaves it by itself that changes it, and as
it was if none does. Standard input is there unless one of the jobs took it. -/
structure Spread (preferences : Preferences) (world : World) (done : List Item) (now : World) :
    Prop where
  home : now.files.home = world.files.home
  clock : now.files.clock = world.files.clock
  input : (∀ item ∈ done, isStandardInput item.source = false) →
    now.console.input = world.console.input
  touched : ∀ item ∈ done, ∀ location,
    (item.ran preferences world).2.files.lookup location ≠ world.files.lookup location →
      now.files.lookup location = (item.ran preferences world).2.files.lookup location
  untouched : ∀ location,
    (∀ item ∈ done,
      (item.ran preferences world).2.files.lookup location = world.files.lookup location) →
      now.files.lookup location = world.files.lookup location

namespace Spread

/-- Before any job. -/
theorem start (files : now.files = world.files) (input : now.console.input = world.console.input) :
    Spread preferences world [] now where
  home := congrArg _ files
  clock := congrArg _ files
  input := fun _ => input
  touched := nofun
  untouched := fun _ _ => congrArg (FileSystem.lookup · _) files

theorem say (spread : Spread preferences world done now) (level : Nat) (remark : String) :
    Spread preferences world done (now.say level remark) := by
  obtain ⟨home, clock, input, touched, untouched⟩ := spread
  have files := World.files_say level remark now
  refine ⟨?_, ?_, fun named => (World.input_say _ _ _).trans (input named), ?_, ?_⟩ <;> rw [files]
  · exact home
  · exact clock
  · exact touched
  · exact untouched

/-- What an independent job asks for is as it was, but sources of the jobs may be gone. -/
theorem thinned (spread : Spread preferences world done now)
    (independent : ∀ other ∈ done, Independent preferences world item other) :
    Thinned item preferences world now where
  home := spread.home
  input := fun standard => spread.input fun other member =>
    Bool.eq_false_iff.mpr fun also => (independent other member).input ⟨standard, also⟩
  gone := by
    intro place asks
    by_cases quiet : ∀ other ∈ done,
        (other.ran preferences world).2.files.lookup place = world.files.lookup place
    · exact Or.inl (spread.untouched place quiet)
    · obtain ⟨other, member, changed⟩ : ∃ other ∈ done,
          (other.ran preferences world).2.files.lookup place ≠ world.files.lookup place := by
        simpa using quiet
      rcases (touches_ran other preferences world).changed place changed with
        writes | ⟨⟨reached, takes⟩, empty⟩
      · exact absurd asks ((independent other member).clear place writes)
      · exact Or.inr ⟨(spread.touched other member place changed).trans empty, other, reached,
          independent other member, takes⟩

/-- One more job, if no other one changes what it changes. -/
theorem cons {after : World} (spread : Spread preferences world done now)
    (home : after.files.home = now.files.home) (clock : after.files.clock = now.files.clock)
    (input : isStandardInput item.source = false → after.console.input = now.console.input)
    (own : ∀ location,
      (item.ran preferences world).2.files.lookup location ≠ world.files.lookup location →
        after.files.lookup location = (item.ran preferences world).2.files.lookup location)
    (others : ∀ location,
      (item.ran preferences world).2.files.lookup location = world.files.lookup location →
        after.files.lookup location = now.files.lookup location)
    (apart : ∀ other ∈ done, ∀ location,
      (other.ran preferences world).2.files.lookup location ≠ world.files.lookup location →
        (item.ran preferences world).2.files.lookup location = world.files.lookup location) :
    Spread preferences world (item :: done) after where
  home := home.trans spread.home
  clock := clock.trans spread.clock
  input := fun named => by
    obtain ⟨first, rest⟩ := List.forall_mem_cons.mp named
    exact (input first).trans (spread.input rest)
  touched := by
    intro other member location changed
    rcases List.mem_cons.mp member with rfl | member
    · exact own location changed
    · exact (others location (apart other member location changed)).trans
        (spread.touched other member location changed)
  untouched := by
    intro location quiet
    obtain ⟨first, rest⟩ := List.forall_mem_cons.mp quiet
    exact (others location first).trans (spread.untouched location rest)

end Spread

/-- A job comes by a source that another one removes. -/
def Item.Meets (item other : Item) (preferences : Preferences) (world : World) : Prop :=
  other ≠ item ∧ ∃ location reached, item.Asks preferences world location ∧
    other.Takes world location reached ∧
    (other.ran preferences world).2.files.lookup location = none

/-- **What a job gives among others**, by what it gives by itself: the same report, or a failure. That
is the same too, unless the job comes by a source that one of the others removes: then it depends on
whether the source is gone already how the job fails. -/
structure GivesAmong (preferences : Preferences) (world : World) (jobs : List Item) (item : Item)
    (result : Except IoError Report) : Prop where
  report : result.toOption = (item.ran preferences world).1.toOption
  same : (∀ other ∈ jobs, ¬item.Meets other preferences world) →
    result = (item.ran preferences world).1

theorem GivesAmong.mono {jobs : List Item} {result : Except IoError Report}
    (gives : GivesAmong preferences world done item result) (among : ∀ other ∈ done, other ∈ jobs) :
    GivesAmong preferences world jobs item result :=
  ⟨gives.report, fun free => gives.same fun other member => free other (among other member)⟩

/-- A job that fails and changes nothing, before and after the others. -/
theorem spread_of_fails (spread : Spread preferences world done now)
    (alone : ∃ failure after, item.ran preferences world = (.error failure, after) ∧
      after.files = world.files)
    (later : ∃ failure after, item.ran preferences now = (.error failure, after) ∧
      after.files = now.files) :
    (item.ran preferences now).1.toOption = (item.ran preferences world).1.toOption ∧
      Spread preferences world (item :: done) (item.ran preferences now).2 := by
  obtain ⟨failure, kept, first, same⟩ := alone
  obtain ⟨error, after, second, still⟩ := later
  have input : (item.ran preferences now).2.console.input =
      if isStandardInput item.source then [] else now.console.input :=
    input_decompressFile item.source item.destination preferences now
  have quiet : ∀ location,
      (item.ran preferences world).2.files.lookup location = world.files.lookup location :=
    fun location => by rw [first, same]
  rw [second] at input ⊢
  refine ⟨by rw [first]; rfl, spread.cons (congrArg _ still) (congrArg _ still) ?_ ?_ ?_ ?_⟩
  · intro named
    rw [named] at input
    exact input
  · exact fun location changed => absurd (quiet location) changed
  · exact fun location _ => congrArg (FileSystem.lookup · location) still
  · exact fun _ _ location _ => quiet location

/-- A job that finds all that it asks for as it was. -/
theorem spread_of_clear (spread : Spread preferences world done now)
    (thinned : Thinned item preferences world now)
    (clear : ∀ other ∈ done, ∀ location, item.Asks preferences world location →
      (other.ran preferences world).2.files.lookup location = world.files.lookup location) :
    (item.ran preferences now).1 = (item.ran preferences world).1 ∧
      Spread preferences world (item :: done) (item.ran preferences now).2 := by
  have input := input_decompressFile item.source item.destination preferences now
  have agree : Agree (item.Asks preferences world) world.files now.files :=
    ⟨spread.home, spread.clock, fun place asks => spread.untouched place fun other member =>
      clear other member place asks⟩
  have twin := twin_decompressFile agree (fun _ asks => asks) thinned.input
  have asked : ∀ location, (item.ran preferences world).2.files.lookup location ≠
      world.files.lookup location → item.Asks preferences world location :=
    fun location => not_imp_comm.mp (twin.files.left location)
  refine ⟨twin.result, spread.cons ?_ ?_ ?_ ?_ ?_ ?_⟩
  · calc
      (item.ran preferences now).2.files.home = (item.ran preferences world).2.files.home :=
        twin.files.agree.home
      _ = world.files.home := (touches_ran item preferences world).home
      _ = now.files.home := spread.home.symm
  · calc
      (item.ran preferences now).2.files.clock = (item.ran preferences world).2.files.clock :=
        twin.files.agree.clock
      _ = world.files.clock := (touches_ran item preferences world).clock
      _ = now.files.clock := spread.clock.symm
  · intro named
    rw [named] at input
    exact input
  · exact fun location changed => twin.files.agree.lookup location (asked location changed)
  · intro location same
    by_cases asks : item.Asks preferences world location
    · calc
        (item.ran preferences now).2.files.lookup location
          = (item.ran preferences world).2.files.lookup location :=
            twin.files.agree.lookup location asks
        _ = world.files.lookup location := same
        _ = now.files.lookup location := (agree.lookup location asks).symm
    · exact twin.files.right location asks
  · intro other member location changed
    by_contra own
    exact changed (clear other member location (asked location own))

/-- **One more job** does what it does by itself, in success and failure. -/
theorem spread_ran (spread : Spread preferences world done now)
    (independent : ∀ other ∈ done, Independent preferences world item other) :
    GivesAmong preferences world done item (item.ran preferences now).1 ∧
      Spread preferences world (item :: done) (item.ran preferences now).2 := by
  have thinned : Thinned item preferences world now := spread.thinned independent
  by_cases meets : ∃ other ∈ done, ∃ location, item.Asks preferences world location ∧
      (other.ran preferences world).2.files.lookup location ≠ world.files.lookup location
  · -- The job comes by a source that is gone.
    obtain ⟨other, member, location, asks, changed⟩ := meets
    rcases (touches_ran other preferences world).changed location changed with
      writes | ⟨⟨reached, takes⟩, gone⟩
    · exact absurd asks ((independent other member).clear location writes)
    · have apart := independent other member
      obtain ⟨report, spread⟩ := spread_of_fails spread
        (fails_of_meets (.refl item preferences world) apart takes asks)
        (fails_of_meets thinned apart takes asks)
      refine ⟨⟨report, fun free => ?_⟩, spread⟩
      have different : other ≠ item := by
        rintro rfl
        exact takes.not_independent apart
      exact absurd ⟨different, location, reached, asks, takes, gone⟩ (free other member)
  · obtain ⟨result, spread⟩ := spread_of_clear spread thinned fun other member location asks =>
      not_not.mp fun changed => meets ⟨other, member, location, asks, changed⟩
    exact ⟨⟨congrArg Except.toOption result, fun _ => result⟩, spread⟩

/-! ### Several jobs -/

/-- **Jobs in some order**: each gives what it gives by itself. -/
theorem spread_runItems (jobs : List Item) (spread : Spread preferences world done now)
    (independent : ∀ item ∈ jobs, ∀ other ∈ done, Independent preferences world item other)
    (among : jobs.Pairwise (Independent preferences world)) :
    List.Forall₂ (GivesAmong preferences world (jobs ++ done)) jobs
        ((runItems preferences jobs).run now).1 ∧
      Spread preferences world (jobs.reverse ++ done) ((runItems preferences jobs).run now).2 := by
  induction jobs generalizing now done with
  | nil => exact ⟨.nil, spread⟩
  | cons item rest ih =>
    obtain ⟨first, others⟩ := List.forall_mem_cons.mp independent
    obtain ⟨ahead, among⟩ := List.pairwise_cons.mp among
    obtain ⟨gives, spread⟩ := spread_ran spread first
    -- A failure is remarked on, and nothing else happens between two jobs.
    obtain ⟨gives, spread⟩ :
        GivesAmong preferences world done item ((attemptItem preferences item).run now).1 ∧
        Spread preferences world (item :: done) ((attemptItem preferences item).run now).2 := by
      rw [run_attemptItem]
      unfold Item.ran at gives spread
      generalize Task.on (decompressFile item.source item.destination preferences) now = ran
        at gives spread ⊢
      obtain ⟨failure | report, after⟩ := ran
      · exact ⟨gives, spread.say 1 _⟩
      · exact ⟨gives, spread⟩
    have next : ∀ later ∈ rest, ∀ other ∈ item :: done, Independent preferences world later other :=
      fun later member => List.forall_mem_cons.mpr ⟨(ahead later member).symm, others later member⟩
    obtain ⟨results, spread⟩ := ih spread next among
    rw [run_runItems_cons]
    refine ⟨.cons (gives.mono fun _ member => List.mem_append_right _ member) ?_, ?_⟩
    · refine results.imp fun _ _ gives => gives.mono fun other member => ?_
      simpa [or_left_comm] using member
    · rw [List.reverse_cons, List.append_assoc]
      exact spread

/-- The files after some jobs do not depend on their order. -/
theorem Spread.sameEntries {others : List Item} {last : World}
    (spread : Spread preferences world done now) (again : Spread preferences world others last)
    (same : ∀ item, item ∈ done ↔ item ∈ others) : SameEntries now.files last.files where
  home := again.home.trans spread.home.symm
  clock := again.clock.trans spread.clock.symm
  lookup := by
    intro location _
    by_cases quiet : ∀ item ∈ done,
        (item.ran preferences world).2.files.lookup location = world.files.lookup location
    · have also := fun item member => quiet item ((same item).mpr member)
      exact (again.untouched location also).trans (spread.untouched location quiet).symm
    · obtain ⟨item, member, changed⟩ : ∃ item ∈ done,
          (item.ran preferences world).2.files.lookup location ≠ world.files.lookup location := by
        simpa using quiet
      exact (again.touched item ((same item).mp member) location changed).trans
        (spread.touched item member location changed).symm

/-- As many jobs fail among others as fail by themselves. -/
theorem failures_of_givesAmong {jobs among : List Item} {results : List (Except IoError Report)}
    (gives : List.Forall₂ (GivesAmong preferences world among) jobs results) :
    failures results = jobs.countP fun item => !(item.ran preferences world).1.isOk := by
  have isOk_eq : ∀ result : Except IoError Report, result.isOk = result.toOption.isSome :=
    fun result => by cases result <;> rfl
  rw [failures_eq]
  induction gives with
  | nil => rfl
  | cons first _ ih =>
    rw [List.countP_cons, List.countP_cons, ih, isOk_eq, isOk_eq, first.report]

/-- **A batch and its jobs in any other order**. If the jobs of a batch are independent of each other
in the world that it is run in, then run one after the other in any order they leave the same files as
the batch, each of them gives what it gives by itself, and the batch ends by the same count of
failures. -/
theorem run_anyOrder (sources : List String) (common : Option String) (preferences : Preferences)
    (world : World) (order : List Item)
    (permuted : order.Perm (items common preferences sources))
    (independent : (items common preferences sources).Pairwise (Independent preferences world)) :
    let jobs := items common preferences sources
    let left := skipped common preferences sources
    let listed := (runItems preferences jobs).run (begun sources common preferences world)
    let mixed := (runItems preferences order).run (begun sources common preferences world)
    let whole := Task.on (run sources common preferences) world
    List.Forall₂ (GivesAmong preferences world jobs) jobs listed.1 ∧
      List.Forall₂ (GivesAmong preferences world jobs) order mixed.1 ∧
      SameEntries whole.2.files mixed.2.files ∧
      failures mixed.1 = failures listed.1 ∧
      whole.1 = if 0 < failures mixed.1 + left.length then
        .error (incomplete (failures mixed.1) left.length) else .ok () := by
  intro jobs left listed mixed whole
  have start : Spread preferences world [] (begun sources common preferences world) :=
    .start (files_begun _ _) (console_begun input_plain _ _)
  obtain ⟨listedResults, first⟩ := spread_runItems jobs start (fun _ _ => nofun) independent
  obtain ⟨mixedResults, second⟩ := spread_runItems order start (fun _ _ => nofun)
    ((permuted.pairwise_iff fun apart => apart.symm).mpr independent)
  have counts : failures mixed.1 = failures listed.1 := by
    rw [failures_of_givesAmong listedResults, failures_of_givesAmong mixedResults]
    exact permuted.countP_eq _
  have inList : List.Forall₂ (GivesAmong preferences world jobs) jobs listed.1 :=
    listedResults.imp fun _ _ gives => gives.mono fun _ member => by simpa using member
  have inOrder : List.Forall₂ (GivesAmong preferences world jobs) order mixed.1 :=
    mixedResults.imp fun _ _ gives => gives.mono fun _ member =>
      permuted.mem_iff.mp (by simpa using member)
  refine ⟨inList, inOrder, ?_, counts, ?_⟩
  · have same := first.sameEntries second fun item => by
      simp only [List.append_nil, List.mem_reverse]
      exact permuted.mem_iff.symm
    show SameEntries (Task.on (run sources common preferences) world).2.files mixed.2.files
    rw [on_run]
    simp only [World.files_say]
    exact same
  · show (Task.on (run sources common preferences) world).1 = _
    rw [on_run, counts]

/-- Two sources beside each other. -/
def pair : FileSystem :=
  ⟨[(["x.zz"], plainFile letterStream), (["y.zz"], plainFile letterStream)], [], 0⟩

/-- There are no links. -/
theorem kindAt_pair {name : String} {kind : Kind} (found : pair.kindAt [name] = some kind) :
    kind = .file := by
  unfold FileSystem.kindAt FileSystem.lookup pair at found
  rw [if_neg (List.cons_ne_nil _ _)] at found
  simp only [List.lookup_cons, List.lookup_nil] at found
  split at found
  · cases found
    rfl
  · split at found <;> cases found
    rfl

/-- A name asks for nothing but the directory and itself. -/
theorem asks_pair {name : String} {purpose : Purpose} {place : Location} (proper : Path.Proper name)
    (asks : pair.Asks name purpose place) : place = [] ∨ place = [name] := by
  have origin : pair.origin name = [] := ite_self _
  unfold FileSystem.Asks at asks
  rw [origin, proper.segments_eq] at asks
  cases asks with
  | here => exact Or.inl rfl
  | stay _ idle => exact (idle.elim proper.nonempty proper.notDot).elim
  | up => exact absurd rfl proper.notDots
  | next => exact Or.inr rfl
  | follow _ _ found => cases kindAt_pair found
  | enter _ _ _ _ on =>
    cases on
    exact Or.inr rfl

/-- A name leads nowhere else. -/
theorem leads_pair {name : String} {purpose : Purpose} {target : Target} {links : Nat}
    (proper : Path.Proper name) (leads : Leads pair purpose links [] [name] target) :
    target.place = [name] := by
  cases leads with
  | stay _ idle => exact (idle.elim proper.nonempty proper.notDot).elim
  | up => exact absurd rfl proper.notDots
  | missing | stop => rfl
  | follow _ _ found => cases kindAt_pair found
  | enter _ _ _ _ on =>
    cases on
    rfl

/-- Without stored names and an output directory an output goes where the destination says. -/
theorem eq_of_goesTo {source destination path : String}
    (goes : GoesTo source destination {} world path) : path = destination := by
  obtain ⟨decoded, -, -, isPath⟩ := goes
  have chosen : chosenDestination source destination decoded {} = .ok destination := by
    unfold chosenDestination
    split <;> rfl
  have file : (Destination.ofName destination).path? = some path := by
    rw [← isPath, outputPath, if_neg Bool.false_ne_true]
    simp only [chosen]
    rfl
  unfold Destination.ofName at file
  split at file
  · cases file
  · split at file
    · cases file
    · exact (Option.some.inj file).symm

/-- A job from one name to another asks for the directory and these. -/
theorem Item.asks_pair {place : Location} (source : Path.Proper item.source)
    (destination : Path.Proper item.destination) (asks : item.Asks {} ⟨pair, {}⟩ place) :
    place = [] ∨ place = [item.source] ∨ place = [item.destination] := by
  rcases asks with ⟨-, on⟩ | ⟨-, under, -, -, -⟩ | ⟨goes, on⟩
  · exact (Batch.asks_pair source on).imp_right Or.inl
  · cases under
  · obtain rfl := eq_of_goesTo goes
    exact (Batch.asks_pair destination on).imp_right Or.inr

/-- It may write to the second one only. -/
theorem Item.writesTo_pair {location : Location} (destination : Path.Proper item.destination)
    (writes : item.WritesTo {} ⟨pair, {}⟩ location) : location = [item.destination] := by
  obtain ⟨path, goes, links, leads⟩ := writes
  obtain rfl := eq_of_goesTo goes
  have origin : pair.origin item.destination = [] := ite_self _
  rw [origin, destination.segments_eq] at leads
  rcases leads with leads | leads
  · exact leads_pair destination leads
  · exact leads_pair destination leads

/-- Two jobs on the two sources are independent. -/
theorem independent_pair : Independent {} ⟨pair, {}⟩ ⟨"x.zz", "x"⟩ ⟨"y.zz", "y"⟩ := by
  have proper : ∀ {name}, Path.fileName? name = some name → Path.Proper name :=
    Path.fileName?_eq_self_iff.mp
  have first : Path.Proper "x.zz" ∧ Path.Proper "x" :=
    ⟨proper (by decide +kernel), proper (by decide +kernel)⟩
  have second : Path.Proper "y.zz" ∧ Path.Proper "y" :=
    ⟨proper (by decide +kernel), proper (by decide +kernel)⟩
  have here : pair.status "x.zz" = .ok (["x.zz"], plainFile letterStream) := by cbv
  have there : pair.status "y.zz" = .ok (["y.zz"], plainFile letterStream) := by cbv
  refine ⟨by decide +kernel, ?_, ?_, ?_⟩
  · intro _ _ location entry other left right
    have places := congrArg (Except.map Prod.fst) (here.symm.trans left)
    have others := congrArg (Except.map Prod.fst) (there.symm.trans right)
    have same : (["x.zz"] : Location) = ["y.zz"] :=
      (Except.ok.inj places).trans (Except.ok.inj others).symm
    exact absurd same (by decide)
  · intro location writes asks
    obtain rfl := Item.writesTo_pair first.2 writes
    exact absurd (Item.asks_pair second.1 second.2 asks) (by decide)
  · intro location writes asks
    obtain rfl := Item.writesTo_pair second.2 writes
    exact absurd (Item.asks_pair first.1 first.2 asks) (by decide)

/-- A batch of two jobs, and the second of them before the first. -/
theorem run_anyOrder_pair :
    items none {} ["x.zz", "y.zz"] = [⟨"x.zz", "x"⟩, ⟨"y.zz", "y"⟩] ∧
    Independent {} ⟨pair, {}⟩ ⟨"x.zz", "x"⟩ ⟨"y.zz", "y"⟩ ∧
    SameEntries (Task.on (run ["x.zz", "y.zz"] none {}) ⟨pair, {}⟩).2.files
      ((runItems {} [⟨"y.zz", "y"⟩, ⟨"x.zz", "x"⟩]).run
        (begun ["x.zz", "y.zz"] none {} ⟨pair, {}⟩)).2.files := by
  have jobs : items none {} ["x.zz", "y.zz"] = [⟨"x.zz", "x"⟩, ⟨"y.zz", "y"⟩] := by decide +kernel
  obtain ⟨-, -, files, -⟩ := run_anyOrder ["x.zz", "y.zz"] none {} ⟨pair, {}⟩
    [⟨"y.zz", "y"⟩, ⟨"x.zz", "x"⟩] (jobs ▸ List.Perm.swap _ _ _)
    (jobs ▸ List.pairwise_pair.mpr independent_pair)
  exact ⟨jobs, independent_pair, files⟩

end Batch

end Inflate
