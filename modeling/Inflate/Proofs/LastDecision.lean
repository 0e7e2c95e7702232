/-
**The last decision about the source holds.**

Each of the two decisions about a source cancels the other one, so that the last one holds; but to give one
of them twice with no other one in between is a fault. A draft never knows more of the decisions than the
last one, and that is enough to tell both.

* `Stands`: what a draft knows of the decisions;
* `carries_act`, `carries_actAll`, `carries_readWords`: no act loses it, so that all words together do not;
* `Beside`, `Reader.Loses`: a reading beside another one without decisions;
* `beside_act`, `beside_actAll`, `beside_readWords`: decisions make no other fault than their own;
* `parse_lastDecision`: the last decision holds, and only a decision given twice in a row is refused.
-/

import Inflate.Proofs.CoherentCommands
import Inflate.Proofs.CommandLine.Decisions

namespace Inflate

namespace CommandLine

/-! ### Drafts -/

/-- What a draft knows of the decisions: the last one; no decision was given twice in a row. -/
structure Stands (flags past : List Flag) : Prop where
  last : flags.filter Flag.decides = past.getLast?.toList
  varied : ∀ flag, ¬[flag, flag] <:+: past

theorem stands_nil : Stands [] [] where
  last := rfl
  varied flag inside := by simp at inside

/-- Another flag changes nothing in what is known. -/
theorem Stands.concat {flags past : List Flag} {flag : Flag} (stands : Stands flags past)
    (harmless : flag.decides = false) : Stands (flags ++ [flag]) past where
  last := by
    rw [List.filter_append, List.filter_cons_of_neg (Bool.eq_false_iff.mp harmless), List.filter_nil,
      List.append_nil, stands.last]
  varied := stands.varied

/-- A decision is given twice in a row if it was before, or is given again. -/
theorem twice_concat {flag last : Flag} {past : List Flag} :
    [flag, flag] <:+: past ++ [last] ↔
      [flag, flag] <:+: past ∨ flag = last ∧ past.getLast? = some last := by
  rw [List.infix_concat_iff, or_comm]
  refine or_congr Iff.rfl ?_
  rw [List.suffix_concat_iff, List.getLast?_eq_some_iff]
  constructor
  · rintro (nothing | ⟨front, split, before, rfl⟩)
    · cases nothing
    · obtain ⟨rfl, same⟩ := List.append_inj' (show [flag] ++ [flag] = front ++ [last] from split) rfl
      cases same
      exact ⟨rfl, before, rfl⟩
  · rintro ⟨rfl, before, rfl⟩
    exact Or.inr ⟨[flag], rfl, before, rfl⟩

/-- Two decisions of which neither cancels the other are the same. -/
theorem Flag.eq_of_cancels {flag other : Flag} (decides : flag.decides = true)
    (otherDecides : other.decides = true) (kept : flag.cancels other = false) : other = flag := by
  cases flag <;> cases decides <;> cases other <;> cases otherDecides <;> first | rfl | cases kept

/-- Only decisions are cancelled. -/
theorem Flag.decides_of_cancels {flag other : Flag} (cancels : flag.cancels other = true) :
    other.decides = true := by
  cases flag <;> cases other <;> first | rfl | cases cancels

/-- Only decisions cancel. -/
theorem Flag.cancels_eq_false {flag : Flag} (harmless : flag.decides = false) (other : Flag) :
    flag.cancels other = false := by
  cases flag <;> first | rfl | cases harmless

section Drafts

variable {draft : Draft} {flag : Flag} {past : List Flag}

theorem Stands.mem_iff (stands : Stands draft.flags past) (decides : flag.decides = true) :
    flag ∈ draft.flags ↔ past.getLast? = some flag := by
  rw [← Option.mem_toList, ← stands.last, List.mem_filter, and_iff_left decides]

/-- A decision is refused if it is the last one, and otherwise it becomes the last one. -/
theorem stands_addFlag (stands : Stands draft.flags past) (decides : flag.decides = true) :
    draft.addFlag flag = .error (.repeated (.flag flag)) ∧ [flag, flag] <:+: past ++ [flag] ∨
      ∃ next, draft.addFlag flag = .ok next ∧ Stands next.flags (past ++ [flag]) := by
  by_cases given : flag ∈ draft.flags
  · exact Or.inl ⟨if_pos given, twice_concat.mpr (Or.inr ⟨rfl, (stands.mem_iff decides).mp given⟩)⟩
  · refine Or.inr ⟨_, if_neg given, ?_, ?_⟩
    · have gone : (draft.flags.filter fun other => !flag.cancels other).filter Flag.decides = [] := by
        refine List.filter_eq_nil_iff.mpr fun other among otherDecides => ?_
        obtain ⟨member, kept⟩ := List.mem_filter.mp among
        rw [Bool.not_eq_true'] at kept
        exact given (Flag.eq_of_cancels decides otherDecides kept ▸ member)
      rw [List.filter_append, gone, List.nil_append, List.getLast?_concat]
      exact List.filter_cons_of_pos decides
    · intro other twice
      rcases twice_concat.mp twice with before | ⟨rfl, last⟩
      · exact stands.varied other before
      · exact given ((stands.mem_iff decides).mpr last)

/-- Other flags are no decisions and cancel none. -/
theorem addFlag_of_harmless (harmless : flag.decides = false) :
    draft.addFlag flag = if flag ∈ draft.flags then .error (.repeated (.flag flag))
      else .ok { draft with flags := draft.flags ++ [flag] } := by
  unfold Draft.addFlag
  simp [Flag.cancels_eq_false harmless]

end Drafts

/-! ### What is pending -/

/-- A draft with other flags and another count of verbosity. -/
def Draft.withFlags (draft : Draft) (flags : List Flag) (verbose : Nat) : Draft :=
  { draft with flags, verbose }

section Pending

variable (draft : Draft) (flags : List Flag) (verbose : Nat)

/-- Values are read in the same way whatever flags were given. -/
theorem assign_withFlags (setting : Setting) (value : Word) :
    (draft.withFlags flags verbose).assign setting value =
      (draft.assign setting value).map (·.withFlags flags verbose) := by
  cases setting with
  | outputDirectory => unfold Draft.assign; dsimp only; split <;> rfl
  | format => unfold Draft.assign; dsimp only; split; rfl; split <;> rfl
  | maxOutput => unfold Draft.assign; dsimp only; split; rfl; split <;> rfl
  | threads => unfold Draft.assign; dsimp only; split; rfl; split <;> rfl

theorem give_withFlags (setting : Setting) (value : Option Word) :
    (draft.withFlags flags verbose).give setting value =
      (draft.give setting value).map (·.withFlags flags verbose) := by
  have known : (draft.withFlags flags verbose).hasSetting setting = draft.hasSetting setting := by
    cases setting <;> rfl
  cases value with
  | none => rfl
  | some word =>
    unfold Draft.give
    dsimp only
    rw [known, assign_withFlags]
    split <;> rfl

theorem addFiles_withFlags (words : List Word) :
    (draft.withFlags flags verbose).addFiles words =
      (draft.addFiles words).map (·.withFlags flags verbose) := by
  unfold Draft.addFiles
  split <;> rfl

/-- Modes exclude each other whatever the other flags are. -/
theorem checkConflicts_withFlags
    (same : flags.filter (fun flag => flag == .test || flag == .list) =
      draft.flags.filter fun flag => flag == .test || flag == .list) :
    draft.checkConflicts = .ok draft ∧
        (draft.withFlags flags verbose).checkConflicts = .ok (draft.withFlags flags verbose) ∨
      ∃ fault, (draft.withFlags flags verbose).checkConflicts = .error fault := by
  unfold Draft.checkConflicts
  rw [show (draft.withFlags flags verbose).flags = flags from rfl, same]
  split
  · exact Or.inr ⟨_, rfl⟩
  · exact Or.inl ⟨rfl, rfl⟩

/-- What is pending is taken in the same way whatever flags were given. -/
theorem settle_withFlags (pending : Pending) :
    (Reader.mk (draft.withFlags flags verbose) pending).settle =
      (Reader.mk draft pending).settle.map (·.withFlags flags verbose) := by
  have stops : ∀ outcome : Except WordFault Draft,
      Reader.orStop (outcome.map (·.withFlags flags verbose)) =
        (Reader.orStop outcome).map (·.withFlags flags verbose) := by
    intro outcome
    cases outcome <;> rfl
  cases pending with
  | nothing => rfl
  | setting setting value =>
    show Reader.orStop _ = (Reader.orStop _).map _
    rw [give_withFlags, stops]
  | files words =>
    show Reader.orStop _ = (Reader.orStop _).map _
    rw [addFiles_withFlags, stops]

end Pending

section Settled

variable {reader : Reader} {flag : Flag}

/-- What is pending leaves the flags alone. -/
theorem flags_of_settle {draft : Draft} (settled : reader.settle = .ok draft) :
    draft.flags = reader.draft.flags := by
  have same : reader.settle =
      reader.settle.map (·.withFlags reader.draft.flags reader.draft.verbose) :=
    settle_withFlags reader.draft reader.draft.flags reader.draft.verbose reader.pending
  rw [settled] at same
  have drafts : draft = draft.withFlags reader.draft.flags reader.draft.verbose := Except.ok.inj same
  rw [drafts]
  rfl

theorem assign_ne_repeated (draft : Draft) (setting : Setting) (value : Word) :
    draft.assign setting value ≠ .error (.repeated (.flag flag)) := by
  unfold Draft.assign
  cases setting with
  | outputDirectory =>
    dsimp only
    split <;> nofun
  | format | maxOutput | threads =>
    dsimp only
    split
    · nofun
    · split <;> nofun

theorem give_ne_repeated (draft : Draft) (setting : Setting) (value : Option Word) :
    draft.give setting value ≠ .error (.repeated (.flag flag)) := by
  unfold Draft.give
  split
  · nofun
  · split
    · nofun
    · exact assign_ne_repeated draft setting _

/-- What is pending repeats no flag. -/
theorem settle_ne_repeated : reader.settle ≠ .error (.fault (.repeated (.flag flag))) := by
  have stops {outcome : Except WordFault Draft} (other : outcome ≠ .error (.repeated (.flag flag))) :
      Reader.orStop outcome ≠ .error (.fault (.repeated (.flag flag))) := by
    intro same
    cases outcome with
    | ok draft => cases same
    | error fault =>
      cases same
      exact other rfl
  unfold Reader.settle
  split
  · nofun
  · exact stops (give_ne_repeated _ _ _)
  · refine stops ?_
    unfold Draft.addFiles
    split <;> nofun

end Settled

/-! ### Readers -/

/-- The flags that a reader has met. -/
def Reader.flags (reader : Reader) : List Flag := reader.draft.flags

/-- The outcome of reading knows the decisions, or it is a fault that is there for one of them. -/
def Carries {α : Type} (flagsOf : α → List Flag) (past : List Flag) (outcome : Except Stop α) : Prop :=
  match outcome with
  | .ok value => Stands (flagsOf value) past
  | .error stop => ∀ flag, flag.decides = true → stop = .fault (.repeated (.flag flag)) →
    [flag, flag] <:+: past

section Readers

variable {α : Type} {flagsOf : α → List Flag} {reader : Reader} {past : List Flag}

theorem carries_stop {stop : Stop} (other : ∀ flag, stop ≠ .fault (.repeated (.flag flag)))
    (past : List Flag) : Carries flagsOf past (.error stop) :=
  fun flag _ same => absurd same (other flag)

/-- To take in what is pending is no decision. -/
theorem carries_settle {next : Draft → Except Stop α}
    (onDraft : ∀ draft, draft.flags = reader.flags → Carries flagsOf past (next draft)) :
    Carries flagsOf past (reader.settle >>= next) := by
  cases settled : reader.settle with
  | ok draft => exact onDraft draft (flags_of_settle settled)
  | error stop => exact carries_stop (fun flag same => settle_ne_repeated (same ▸ settled)) past

theorem carries_takeSwitch (stands : Stands reader.flags past) (switch : Switch) (long : Bool) :
    Carries Reader.flags (past ++ (Act.switch switch long).decisions) (reader.takeSwitch switch long) := by
  refine carries_settle fun draft same => ?_
  rw [← same] at stands
  cases switch with
  | flag flag =>
    cases decides : flag.decides with
    | true =>
      have decided : (Act.switch (.flag flag) long).decisions = [flag] := if_pos decides
      rw [decided]
      rcases stands_addFlag stands decides with ⟨refused, twice⟩ | ⟨next, added, stands⟩
      · simp only [refused]
        intro other _ fault
        cases fault
        exact twice
      · simp only [added]
        exact stands
    | false =>
      have nothing : (Act.switch (.flag flag) long).decisions = [] :=
        if_neg (Bool.eq_false_iff.mp decides)
      rw [nothing, List.append_nil]
      simp only [addFlag_of_harmless decides]
      by_cases given : flag ∈ draft.flags
      · rw [if_pos given]
        intro other otherDecides repeats
        cases repeats
        exact absurd otherDecides (Bool.eq_false_iff.mp decides)
      · rw [if_neg given]
        exact stands.concat decides
  | counter counter =>
    show Stands (draft.addCount counter).flags (past ++ [])
    rw [List.append_nil]
    cases counter <;> exact stands
  | setting setting =>
    show Stands draft.flags (past ++ [])
    rwa [List.append_nil]
  | help => exact carries_stop (fun _ => by nofun) _
  | version => exact carries_stop (fun _ => by nofun) _

theorem carries_takeFile (stands : Stands reader.flags past) (word : Word) :
    Carries Reader.flags past (reader.takeFile word) := by
  unfold Reader.takeFile
  split
  · exact stands
  · refine carries_settle fun draft same => ?_
    show Stands draft.flags past
    rwa [same]

/-- **An act** keeps what is known of the decisions. -/
theorem carries_act (stands : Stands reader.flags past) (act : Act) :
    Carries Reader.flags (past ++ act.decisions) (reader.act act) := by
  cases act with
  | switch switch long => exact carries_takeSwitch stands switch long
  | unknown argument =>
    exact carries_stop (fun _ => by nofun) _
  | unexpected switch value =>
    exact carries_stop (fun _ => by nofun) _
  | attach setting value =>
    show Carries Reader.flags (past ++ []) (reader.takeAttached setting value)
    rw [List.append_nil]
    refine carries_settle fun draft same => ?_
    -- a value in the same word is taken in at once
    show Carries Reader.flags past ((Reader.mk draft (.setting setting (some value))).settle >>= _)
    refine carries_settle fun next nextSame => ?_
    show Stands next.flags past
    rw [nextSame]
    show Stands draft.flags past
    rwa [same]
  | plain word =>
    show Carries Reader.flags (past ++ []) (reader.takePlain word)
    rw [List.append_nil]
    unfold Reader.takePlain
    split
    · exact stands
    · exact carries_takeFile stands word
  | file word =>
    show Carries Reader.flags (past ++ []) (reader.takeFile word)
    rw [List.append_nil]
    exact carries_takeFile stands word

/-- **All acts** of a command line keep what is known of the decisions. -/
theorem carries_actAll (stands : Stands reader.flags past) (acts : List Act) :
    Carries Reader.flags (past ++ acts.flatMap Act.decisions) (reader.actAll acts) := by
  induction acts generalizing reader past with
  | nil =>
    show Stands reader.flags (past ++ [])
    rwa [List.append_nil]
  | cons act rest ih =>
    rw [Reader.actAll_cons, List.flatMap_cons, ← List.append_assoc]
    have first := carries_act stands act
    cases outcome : reader.act act with
    | ok next =>
      rw [outcome] at first
      exact ih first
    | error stop =>
      rw [outcome] at first
      intro flag decides same
      exact (first flag decides same).trans (List.prefix_append _ _).isInfix

/-- Modes that exclude each other are no decisions. -/
theorem carries_checkConflicts {draft : Draft} (stands : Stands draft.flags past) :
    Carries Draft.flags past (Reader.orStop draft.checkConflicts) := by
  unfold Draft.checkConflicts
  split
  · exact carries_stop (fun _ => by nofun) past
  · exact stands

/-- **Reading** knows the last decision, and refuses one only if it is given twice in a row. -/
theorem carries_readWords (words : List Word) :
    Carries Draft.flags (decisions words) (readWords words) := by
  have carries : Carries Reader.flags (decisions words) (Reader.takeWords {} words) := by
    have begins : Stands (Reader.flags {}) [] := stands_nil
    have all := carries_actAll begins (actsOf words)
    rwa [List.nil_append, decisions_actsOf, ← Reader.takeWords_eq] at all
  unfold readWords
  cases read : Reader.takeWords {} words with
  | error stop =>
    rw [read] at carries
    exact carries
  | ok reader =>
    rw [read] at carries
    refine carries_settle fun draft same => carries_checkConflicts ?_
    rw [same]
    exact carries

end Readers

/-! ### Without decisions -/

/-- Two readings, the second one of a command line without decisions: they come to related results, or
the second one stops, or the first one stops at a decision. -/
inductive Beside {α β : Type} (related : α → β → Prop) :
    Except Stop α → Except Stop β → Prop where
  | both {value : α} {other : β} (alike : related value other) :
    Beside related (.ok value) (.ok other)
  | stopped (outcome : Except Stop α) (stop : Stop) : Beside related outcome (.error stop)
  | repeated {flag : Flag} (decides : flag.decides = true) (outcome : Except Stop β) :
    Beside related (.error (.fault (.repeated (.flag flag)))) outcome

theorem Beside.bind {α β γ δ : Type} {related : α → β → Prop} {further : γ → δ → Prop}
    {first : Except Stop α} {second : Except Stop β} (beside : Beside related first second)
    {next : α → Except Stop γ} {nextSecond : β → Except Stop δ}
    (onValues : ∀ value other, related value other → Beside further (next value) (nextSecond other)) :
    Beside further (first >>= next) (second >>= nextSecond) := by
  cases beside with
  | both alike => exact onValues _ _ alike
  | stopped outcome stop => exact .stopped _ stop
  | repeated decides outcome => exact .repeated decides _

/-- The second draft is the first one without decisions, whatever it has counted. -/
def Draft.Loses (draft plain : Draft) : Prop :=
  ∃ verbose, plain = draft.withFlags (draft.flags.filter fun flag => !flag.decides) verbose

/-- The second reader is the first one without decisions. -/
structure Reader.Loses (reader plain : Reader) : Prop where
  draft : reader.draft.Loses plain.draft
  pending : reader.pending = plain.pending

section Without

variable {reader plain : Reader} {draft plainDraft : Draft}

theorem beside_settle (loses : reader.Loses plain) :
    Beside Draft.Loses reader.settle plain.settle := by
  obtain ⟨draft, pending⟩ := reader
  obtain ⟨_, _⟩ := plain
  obtain ⟨⟨verbose, rfl⟩, rfl⟩ := loses
  rw [settle_withFlags]
  cases settled : (Reader.mk draft pending).settle with
  | error stop => exact .stopped _ stop
  | ok next =>
    refine .both ⟨verbose, ?_⟩
    rw [flags_of_settle settled]

/-- Where one draft takes a decision, the other one counts. -/
theorem beside_decision (loses : draft.Loses plainDraft) {flag : Flag} (decides : flag.decides = true) :
    Beside Draft.Loses (Reader.orStop (draft.addFlag flag)) (.ok (plainDraft.addCount .verbose)) := by
  obtain ⟨verbose, rfl⟩ := loses
  by_cases given : flag ∈ draft.flags
  · rw [Draft.addFlag, if_pos given]
    exact .repeated decides _
  · rw [Draft.addFlag, if_neg given]
    refine .both ⟨min (verbose + 1) Draft.maxCount, ?_⟩
    have others : (draft.flags.filter (fun other => !flag.cancels other) ++ [flag]).filter
        (fun other => !other.decides) = draft.flags.filter fun other => !other.decides := by
      rw [List.filter_append, List.filter_filter, List.filter_cons_of_neg (by rw [decides]; decide),
        List.filter_nil, List.append_nil]
      refine List.filter_congr fun other _ => ?_
      cases cancels : flag.cancels other with
      | true => rw [Flag.decides_of_cancels cancels]; rfl
      | false => exact Bool.and_true _
    simp only [others]
    rfl

/-- Both drafts take the other flags. -/
theorem beside_harmless (loses : draft.Loses plainDraft) {flag : Flag}
    (harmless : flag.decides = false) :
    Beside Draft.Loses (Reader.orStop (draft.addFlag flag)) (Reader.orStop (plainDraft.addFlag flag)) := by
  obtain ⟨verbose, rfl⟩ := loses
  have same : flag ∈ (draft.withFlags (draft.flags.filter fun other => !other.decides) verbose).flags ↔
      flag ∈ draft.flags := by
    refine List.mem_filter.trans (and_iff_left ?_)
    rw [harmless]
    rfl
  rw [addFlag_of_harmless harmless, addFlag_of_harmless harmless]
  by_cases given : flag ∈ draft.flags
  · rw [if_pos given, if_pos (same.mpr given)]
    exact .stopped _ _
  · rw [if_neg given, if_neg fun plain => given (same.mp plain)]
    refine .both ⟨verbose, ?_⟩
    rw [List.filter_append, List.filter_cons_of_pos (by rw [harmless]; rfl)]
    rfl

theorem beside_takeSwitch (loses : reader.Loses plain) (switch : Switch) (long : Bool) :
    Beside Reader.Loses (reader.takeSwitch switch long)
      (plain.act (Act.switch switch long).undecided) := by
  cases switch with
  | flag flag =>
    cases decides : flag.decides with
    | true =>
      have counts : (Act.switch (.flag flag) long).undecided = .switch (.counter .verbose) long := by
        rw [Act.undecided, if_pos decides]
      rw [counts]
      refine (beside_settle loses).bind fun draft plainDraft loses => ?_
      show Beside _ (_ >>= _) (Except.ok (plainDraft.addCount .verbose) >>= fun next =>
        (pure (Reader.mk next .nothing) : Except Stop Reader))
      exact (beside_decision loses decides).bind fun next nextPlain loses => .both ⟨loses, rfl⟩
    | false =>
      have nothing : (Act.switch (.flag flag) long).decisions = [] :=
        if_neg (Bool.eq_false_iff.mp decides)
      rw [Act.undecided_eq nothing]
      refine (beside_settle loses).bind fun draft plainDraft loses => ?_
      exact (beside_harmless loses decides).bind fun next nextPlain loses => .both ⟨loses, rfl⟩
  | counter counter =>
    refine (beside_settle loses).bind fun draft plainDraft loses => .both ⟨?_, rfl⟩
    obtain ⟨verbose, rfl⟩ := loses
    cases counter
    · exact ⟨min (verbose + 1) Draft.maxCount, rfl⟩
    · exact ⟨verbose, rfl⟩
  | setting setting =>
    exact (beside_settle loses).bind fun draft plainDraft loses => .both ⟨loses, rfl⟩
  | help => exact (beside_settle loses).bind fun draft plainDraft loses => .stopped _ (.help long)
  | version => exact (beside_settle loses).bind fun draft plainDraft loses => .stopped _ .version

theorem beside_takeFile (loses : reader.Loses plain) (word : Word) :
    Beside Reader.Loses (reader.takeFile word) (plain.takeFile word) := by
  unfold Reader.takeFile
  rw [← loses.pending]
  split
  · exact .both ⟨loses.draft, rfl⟩
  · exact (beside_settle loses).bind fun draft plainDraft loses => .both ⟨loses, rfl⟩

theorem beside_act (loses : reader.Loses plain) (act : Act) :
    Beside Reader.Loses (reader.act act) (plain.act act.undecided) := by
  cases act with
  | unknown argument => exact .stopped _ _
  | unexpected switch value => exact .stopped _ _
  | switch switch long => exact beside_takeSwitch loses switch long
  | attach setting value =>
    refine (beside_settle loses).bind fun draft plainDraft loses => ?_
    -- a value in the same word is taken in at once
    have pending : (Reader.mk draft (.setting setting (some value))).Loses
        ⟨plainDraft, .setting setting (some value)⟩ := ⟨loses, rfl⟩
    exact (beside_settle pending).bind fun next nextPlain loses => .both ⟨loses, rfl⟩
  | plain word =>
    show Beside _ (reader.takePlain word) (plain.takePlain word)
    unfold Reader.takePlain
    rw [← loses.pending]
    split
    · exact .both ⟨loses.draft, rfl⟩
    · exact beside_takeFile loses word
  | file word => exact beside_takeFile loses word

theorem beside_actAll (loses : reader.Loses plain) (acts : List Act) :
    Beside Reader.Loses (reader.actAll acts) (plain.actAll (acts.map Act.undecided)) := by
  induction acts generalizing reader plain with
  | nil => exact .both loses
  | cons act rest ih =>
    rw [List.map_cons, Reader.actAll_cons, Reader.actAll_cons]
    exact (beside_act loses act).bind fun next nextPlain loses => ih loses

/-- Decisions exclude no mode. -/
theorem beside_checkConflicts (loses : draft.Loses plainDraft) :
    Beside Draft.Loses (Reader.orStop draft.checkConflicts) (Reader.orStop plainDraft.checkConflicts) := by
  obtain ⟨verbose, rfl⟩ := loses
  have same : (draft.flags.filter fun flag => !flag.decides).filter
      (fun flag => flag == .test || flag == .list) =
        draft.flags.filter fun flag => flag == .test || flag == .list := by
    rw [List.filter_filter]
    refine List.filter_congr fun flag _ => ?_
    cases flag <;> rfl
  rcases checkConflicts_withFlags draft _ verbose same with ⟨accepted, plain⟩ | ⟨fault, refused⟩
  · rw [accepted, plain]
    exact .both ⟨verbose, rfl⟩
  · rw [refused]
    exact .stopped _ _

/-- **Reading without decisions** comes to the same draft without decisions, if it does not stop. -/
theorem beside_readWords (words : List Word) :
    Beside Draft.Loses (readWords words) (readWords (undecided words)) := by
  have empty : (Reader.mk {} .nothing).Loses {} := ⟨⟨0, rfl⟩, rfl⟩
  unfold readWords
  rw [Reader.takeWords_eq, Reader.takeWords_eq, actsOf_undecided]
  refine (beside_actAll empty (actsOf words)).bind fun reader plain loses => ?_
  exact (beside_settle loses).bind fun draft plainDraft loses => beside_checkConflicts loses

/-- Every other flag is given in both drafts or in neither. -/
theorem has_of_loses (loses : draft.Loses plainDraft) {flag : Flag} (harmless : flag.decides = false) :
    plainDraft.has flag = draft.has flag := by
  obtain ⟨verbose, rfl⟩ := loses
  rw [Bool.eq_iff_iff]
  simp only [Draft.has, Draft.withFlags, List.contains_iff_mem, List.mem_filter, harmless, Bool.not_false,
    and_true]

theorem several_of_loses (loses : draft.Loses plainDraft) : plainDraft.several = draft.several := by
  have mode : plainDraft.mode = draft.mode := by
    simp only [Draft.mode, has_of_loses loses (rfl : Flag.decides .list = false),
      has_of_loses loses (rfl : Flag.decides .test = false)]
  rw [Draft.several, Draft.several, mode, has_of_loses loses rfl]
  obtain ⟨verbose, rfl⟩ := loses
  rfl

/-- What does not fit in a draft does not fit without its decisions either. -/
theorem misuse_of_loses (loses : draft.Loses plainDraft) {fault : UsageFault}
    (misuse : draft.Misuse fault) : plainDraft.Misuse fault := by
  have several := several_of_loses loses
  have standardOutput : plainDraft.has .standardOutput = draft.has .standardOutput :=
    has_of_loses loses rfl
  have recursive : plainDraft.has .recursive = draft.has .recursive := has_of_loses loses rfl
  obtain ⟨verbose, rfl⟩ := loses
  cases misuse with
  | recursion asked => exact .recursion (recursive.trans asked)
  | directory asked named => exact .directory (standardOutput.trans asked) named
  | name asked single given => exact .name (standardOutput.trans asked) (several.trans single) given
  | file single given => exact .file (several.trans single) given

end Without

/-! ### Commands -/

section Commands

variable {environment : Environment} {words : List Word} {draft : Draft} {command : Command}
  {world after : World}

theorem removeSource_preferencesOf (environment : Environment) (draft : Draft) (world : World) :
    ((Command.preferencesOf environment draft).run world).1.removeSource =
      (draft.has .remove && !draft.has .keep) := by
  have kept (preferences : Preferences) (host requested : Nat) (world : World) :
      ((preferences.withWorkers host requested).run world).1.removeSource =
        preferences.removeSource := by
    rw [fst_withWorkers]
  unfold Command.preferencesOf
  split <;> split <;> exact kept _ _ _ _

/-- A command removes the source if its draft says so and does not say to keep it. -/
theorem does_ofDraft_removeSource (environment : Environment) (draft : Draft) (world : World) :
    Task.Does (Command.ofDraft environment draft) world
      (fun command _ => command.preferences.removeSource = (draft.has .remove && !draft.has .keep))
      fun _ _ => True := by
  unfold Command.ofDraft
  by_cases recursive : draft.has .recursive = true
  · simp only [if_pos recursive]
    trivial
  by_cases contradicts : (draft.has .standardOutput && draft.outputDirectory.isSome) = true
  · simp only [if_neg recursive, if_pos contradicts]
    trivial
  simp only [if_neg recursive, if_neg contradicts]
  refine Task.does_lift_bind (Task.does_ofExcept (fun command filed => ?_) fun _ _ => trivial)
  have decided := removeSource_preferencesOf environment draft world
  rcases withFiles_cases draft ((Command.preferencesOf environment draft).run world).1 with
    ⟨_, done, found⟩ | ⟨fault, done, -⟩
  · cases done.symm.trans filed
    cases found <;> exact decided
  · cases done.symm.trans filed

/-- Words that are read are put together. -/
theorem on_parse (reads : readWords words = .ok draft) :
    (parse environment words).on world =
      match (Command.ofDraft environment draft).on world with
      | (.ok command, after) => (.ok (some command), after)
      | (.error fault, after) => (.error fault, after) := by
  unfold parse
  rw [reads]
  show (Command.ofDraft environment draft >>= fun command => pure (some command)).on world = _
  rw [Task.on_bind]
  generalize (Command.ofDraft environment draft).on world = outcome
  obtain ⟨_ | _, _⟩ := outcome <;> rfl

/-- What is understood is a command of what is read. -/
theorem exists_draft_of_parse
    (ran : (parse environment words).on world = (.ok (some command), after)) :
    ∃ draft, readWords words = .ok draft ∧
      (Command.ofDraft environment draft).on world = (.ok command, after) := by
  rcases parse_cases environment words with ⟨draft, reads, -⟩ | ⟨fault, stops, same⟩ |
    ⟨stop, text, stops, -, same⟩
  · refine ⟨draft, reads, ?_⟩
    rw [on_parse reads] at ran
    generalize (Command.ofDraft environment draft).on world = outcome at ran ⊢
    obtain ⟨_ | _, _⟩ := outcome <;> cases ran
    rfl
  · rw [same] at ran
    cases ran
  · rw [same] at ran
    cases ran

/-- A fault of words is met while they are read. -/
theorem stops_of_parse {fault : WordFault}
    (ran : (parse environment words).on world = (.error (.words fault), after)) :
    readWords words = .error (.fault fault) := by
  rcases parse_cases environment words with ⟨draft, reads, -⟩ | ⟨other, stops, same⟩ |
    ⟨stop, text, stops, -, same⟩
  · have does := ofDraft_spec environment draft world
    rw [on_parse reads] at ran
    unfold Task.Does at does
    generalize (Command.ofDraft environment draft).on world = outcome at does ran
    obtain ⟨_ | _, _⟩ := outcome <;> cases ran
    cases does.1
  · rw [same] at ran
    cases ran
    exact stops
  · rw [same] at ran
    cases ran

/-- A draft in which everything fits is put together. -/
theorem accepted_of_fits (reads : readWords words = .ok draft) (fits : ∀ fault, ¬draft.Misuse fault)
    (environment : Environment) (world : World) :
    ∃ command after, (parse environment words).on world = (.ok (some command), after) := by
  have does := ofDraft_spec environment draft world
  rw [on_parse reads]
  unfold Task.Does at does
  generalize (Command.ofDraft environment draft).on world = outcome at does ⊢
  obtain ⟨fault | command, after⟩ := outcome
  · exact absurd does.1 (fits fault)
  · exact ⟨command, after, rfl⟩

/-- A decision is given twice with no other one in between. -/
def Repeats (words : List Word) : Prop := ∃ flag, [flag, flag] <:+: decisions words

/-- **What is understood** removes the source if that is the last decision, and none is given twice. -/
theorem decided_of_parse (ran : (parse environment words).on world = (.ok (some command), after)) :
    (command.preferences.removeSource = true ↔ (decisions words).getLast? = some .remove) ∧
      ¬Repeats words := by
  obtain ⟨draft, reads, put⟩ := exists_draft_of_parse ran
  have stands : Stands draft.flags (decisions words) := by
    have carries := carries_readWords words
    rwa [reads] at carries
  have removes := (does_ofDraft_removeSource environment draft world).of_ok put
  refine ⟨?_, fun ⟨flag, twice⟩ => stands.varied flag twice⟩
  rw [removes, Bool.and_eq_true, Bool.not_eq_true', ← Bool.not_eq_true, Draft.has, Draft.has,
    List.contains_iff_mem, List.contains_iff_mem, stands.mem_iff rfl, stands.mem_iff rfl]
  refine and_iff_left_of_imp fun last keeps => ?_
  cases last.symm.trans keeps

/-- **What is refused for a decision** has it twice with no other one in between. -/
theorem repeats_of_parse {flag : Flag} (decides : flag.decides = true)
    (ran : (parse environment words).on world =
      (.error (.words (.repeated (.flag flag))), after)) :
    [flag, flag] <:+: decisions words := by
  have carries := carries_readWords words
  rw [stops_of_parse ran] at carries
  exact carries flag decides rfl

/-- **What becomes of a command line that is understood without its decisions**: it is understood, or one of
them is refused. -/
theorem parse_cases_of_undecided {plain : Command} {later : World}
    (ran : (parse environment (undecided words)).on world = (.ok (some plain), later)) :
    (∃ command after, (parse environment words).on world = (.ok (some command), after)) ∨
      ∃ flag, flag.decides = true ∧
        (parse environment words).on world = (.error (.words (.repeated (.flag flag))), world) := by
  obtain ⟨plainDraft, plainReads, put⟩ := exists_draft_of_parse ran
  have fits := ((ofDraft_spec environment plainDraft world).of_ok put).1.fits
  have beside := beside_readWords words
  rw [plainReads] at beside
  generalize outcome : readWords words = first at beside
  cases beside with
  | both loses =>
    left
    exact accepted_of_fits outcome (fun fault misuse => fits fault (misuse_of_loses loses misuse))
      environment world
  | @repeated flag decides =>
    refine Or.inr ⟨flag, decides, ?_⟩
    unfold parse
    rw [outcome]
    rfl

end Commands

/-- **The last decision holds.** What is understood of a command line removes the source if and only if that
is the last decision on it. Only a decision that is given twice with no other one in between is refused as
such; and a command line that is understood when there is something harmless in place of every decision is
refused for a decision if and only if there is such a one, and otherwise understood. -/
theorem parse_lastDecision (environment : Environment) (words : List Word) (world : World) :
    (∀ command after, (parse environment words).on world = (.ok (some command), after) →
      ((command.preferences.removeSource = true ↔ (decisions words).getLast? = some .remove) ∧
        ¬Repeats words)) ∧
    (∀ flag after, flag.decides = true →
      (parse environment words).on world = (.error (.words (.repeated (.flag flag))), after) →
        [flag, flag] <:+: decisions words) ∧
    (∀ plain later, (parse environment (undecided words)).on world = (.ok (some plain), later) →
      ((∃ flag after, flag.decides = true ∧
        (parse environment words).on world = (.error (.words (.repeated (.flag flag))), after)) ↔
          Repeats words) ∧
      ((∃ command after, (parse environment words).on world = (.ok (some command), after)) ↔
        ¬Repeats words)) := by
  refine ⟨fun command after ran => decided_of_parse ran,
    fun flag after decides ran => repeats_of_parse decides ran, fun plain later ran => ?_⟩
  rcases parse_cases_of_undecided ran with ⟨command, after, understood⟩ | ⟨flag, decides, refused⟩
  · have varied : ¬Repeats words := (decided_of_parse understood).2
    refine ⟨⟨fun ⟨flag, later, decides, refused⟩ => ?_, fun repeats => absurd repeats varied⟩,
      fun _ => varied, fun _ => ⟨command, after, understood⟩⟩
    exact ⟨flag, repeats_of_parse decides refused⟩
  · have repeats : Repeats words := ⟨flag, repeats_of_parse decides refused⟩
    refine ⟨⟨fun _ => repeats, fun _ => ⟨flag, world, decides, refused⟩⟩,
      fun ⟨command, after, understood⟩ => (decided_of_parse understood).2,
      fun varied => absurd repeats varied⟩

/-- A cluster that keeps the source before a name that removes it, and two clusters that keep it. -/
theorem parse_lastDecision_clusters :
    let world : World := ⟨⟨[], [], 0⟩, {}⟩
    let removing := ["-fk", "--rm", "a"].map Word.ofString
    let keeping := ["-k", "a", "-vk"].map Word.ofString
    let counting : Command := { input := some "a", verbosity := 5 }
    (∃ command after, (parse {} removing).on world = (.ok (some command), after) ∧
        command.preferences.removeSource = true ∧ decisions removing = [.keep, .remove] ∧
        ¬Repeats removing) ∧
      (parse {} (undecided keeping)).on world = (.ok (some counting), world) ∧
      (parse {} keeping).on world = (.error (.words (.repeated (.flag .keep))), world) ∧
      Flag.decides .keep = true ∧ [Flag.keep, Flag.keep] <:+: decisions keeping ∧
      ¬∃ command after, (parse {} keeping).on world = (.ok (some command), after) := by
  intro world removing keeping counting
  have removes : (parse {} removing).on world = (.ok (some
      { preferences := { overwrite := true, removeSource := true }, input := some "a", verbosity := 2 }),
        world) := by cbv
  have same : undecided keeping = ["-v", "a", "-vv"].map Word.ofString := by decide
  have counts : (parse {} (undecided keeping)).on world = (.ok (some counting), world) := by
    rw [same]
    cbv
  have refused : (parse {} keeping).on world =
      (.error (.words (.repeated (.flag .keep))), world) := by cbv
  have last := (parse_lastDecision {} removing world).1 _ world removes
  have accepts := (parse_lastDecision {} keeping world).2.2 counting world counts
  have twice := (parse_lastDecision {} keeping world).2.1 .keep world (by decide) refused
  have repeats : Repeats keeping := ⟨.keep, twice⟩
  have given : decisions removing = [.keep, .remove] := by decide
  have ends : (decisions removing).getLast? = some .remove := by rw [given]; rfl
  refine ⟨⟨_, world, removes, last.1.mpr ends, given, last.2⟩, counts, refused, by decide, twice, ?_⟩
  rw [accepts.2]
  exact not_not_intro repeats

end CommandLine

end Inflate
