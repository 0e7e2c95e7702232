/-
**The decisions on a command line.**

Two flags decide what becomes of a source: it is removed or it is kept. They may be given anywhere on a
command line, by name or in a cluster of letters, among other options, values and files.

* `decisions`: the decisions on a command line, in the order in which they are given;
* `undecided`: the same command line with a counter in place of every decision;
* `decisions_actsOf`: the decisions are those that the acts of the words make;
* `actsOf_undecided`: without decisions the acts are the same but for a counter in place of every decision.
-/

import Inflate.Proofs.CommandLine.Acts

namespace Inflate

namespace CommandLine

open Reader (filesOnly)

/-! ### Decisions -/

/-- The flag decides what becomes of the source. -/
def Flag.decides : Flag → Bool
  | .remove | .keep => true
  | _ => false

/-- The letter takes the rest of its cluster for a value. -/
def takesValue (letter : Char) : Bool := letter == 'D' || letter == 'T'

/-- The decisions in a cluster of letters. -/
def clusterDecisions (letters : List Char) : List Flag :=
  ((letters.takeWhile (!takesValue ·)).filter (· == 'k')).map fun _ => .keep

/-- The decisions of a word: one that is given by its name, or those in a cluster. -/
def wordDecisions (word : Word) : List Flag :=
  if word = .ofString "--rm" then [.remove]
  else if word = .ofString "--keep" then [.keep]
  else match word.chars with
    | '-' :: '-' :: _ => []
    | '-' :: letters => clusterDecisions letters
    | _ => []

/-- The decisions on a command line, in the order in which they are given. -/
def decisions (words : List Word) : List Flag :=
  (words.takeWhile (· != filesOnly)).flatMap wordDecisions

/-- A cluster of letters with the counter of verbosity in place of every decision. -/
def undecidedCluster (letters : List Char) : List Char :=
  (letters.takeWhile (!takesValue ·)).map (fun c => if c = 'k' then 'v' else c) ++
    letters.dropWhile (!takesValue ·)

/-- A word with the counter of verbosity in place of every decision. -/
def undecidedWord (word : Word) : Word :=
  if word = .ofString "--rm" ∨ word = .ofString "--keep" then .ofString "--verbose"
  else match word.chars with
    | '-' :: '-' :: _ => word
    | '-' :: letters => ⟨'-' :: undecidedCluster letters, word.tail⟩
    | _ => word

/-- A command line with the counter of verbosity, which may be given any number of times, in place of every
decision. -/
def undecided (words : List Word) : List Word :=
  (words.takeWhile (· != filesOnly)).map undecidedWord ++ words.dropWhile (· != filesOnly)

/-! ### Decisions by acts -/

/-- The decisions that an act makes. -/
def Act.decisions : Act → List Flag
  | .switch (.flag flag) _ => if flag.decides then [flag] else []
  | _ => []

/-- An act, with the counter of verbosity in place of a decision. -/
def Act.undecided : Act → Act
  | .switch (.flag flag) long => .switch (if flag.decides then .counter .verbose else .flag flag) long
  | act => act

/-- An act that decides nothing. -/
theorem Act.undecided_eq {act : Act} (nothing : act.decisions = []) : act.undecided = act := by
  cases act with
  | switch switch long =>
    cases switch with
    | flag flag =>
      have other : ¬flag.decides = true := by
        intro decides
        rw [Act.decisions, if_pos decides] at nothing
        cases nothing
      rw [Act.undecided, if_neg other]
    | counter | setting | help | version => rfl
  | unknown | unexpected | attach | plain | file => rfl

section Clusters

variable (tail : Bytes)

theorem clusterActs_value {letter : Char} (takes : takesValue letter = true) (rest : List Char) :
    ∃ act : Act, act.decisions = [] ∧ clusterActs tail (letter :: rest) = [act] := by
  have either : letter = 'D' ∨ letter = 'T' := by simpa [takesValue] using takes
  have given (setting : Setting) (found : Switch.ofLetter? letter = some (.setting setting)) :
      ∃ act : Act, act.decisions = [] ∧ clusterActs tail (letter :: rest) = [act] := by
    cases attached : Reader.attachedValue rest tail with
    | some value => exact ⟨.attach setting value, rfl, by simp only [clusterActs, found, attached]⟩
    | none => exact ⟨.switch (.setting setting) false, rfl, by simp only [clusterActs, found, attached]⟩
  rcases either with rfl | rfl
  · exact given .outputDirectory rfl
  · exact given .threads rfl

/-- The other letters decide nothing. -/
theorem clusterActs_other {letter : Char} (other : letter ≠ 'k') (plain : takesValue letter = false) :
    ∃ act : Act, act.decisions = [] ∧
      ∀ rest, clusterActs tail (letter :: rest) = act :: clusterActs tail rest := by
  cases found : Switch.ofLetter? letter with
  | none => exact ⟨_, rfl, fun rest => by rw [clusterActs, found]⟩
  | some switch =>
    have letter? := Switch.letter?_of_ofLetter? found
    cases switch with
    | setting setting =>
      cases setting <;> cases letter? <;> cases plain
    | flag flag =>
      refine ⟨.switch (.flag flag) false, if_neg ?_, fun rest => by rw [clusterActs, found]⟩
      cases flag <;> cases letter? <;> first | decide | exact absurd rfl other
    | counter | help | version => exact ⟨_, rfl, fun rest => by rw [clusterActs, found]⟩

theorem decisions_clusterActs (letters : List Char) :
    (clusterActs tail letters).flatMap Act.decisions = clusterDecisions letters := by
  induction letters with
  | nil =>
    unfold clusterActs
    split <;> rfl
  | cons letter rest ih =>
    by_cases keeps : letter = 'k'
    · subst keeps
      show Flag.keep :: (clusterActs tail rest).flatMap Act.decisions = _
      rw [ih]
      rfl
    cases takes : takesValue letter with
    | true =>
      obtain ⟨act, nothing, acts⟩ := clusterActs_value tail takes rest
      rw [acts, List.flatMap_singleton, nothing]
      simp [clusterDecisions, takes]
    | false =>
      obtain ⟨act, nothing, acts⟩ := clusterActs_other tail keeps takes
      rw [acts, List.flatMap_cons, nothing, List.nil_append, ih]
      simp [clusterDecisions, takes, keeps]

theorem clusterActs_undecided (letters : List Char) :
    clusterActs tail (undecidedCluster letters) = (clusterActs tail letters).map Act.undecided := by
  induction letters with
  | nil =>
    show clusterActs tail [] = _
    unfold clusterActs
    split <;> rfl
  | cons letter rest ih =>
    by_cases keeps : letter = 'k'
    · subst keeps
      show Act.switch (.counter .verbose) false :: clusterActs tail (undecidedCluster rest) = _
      rw [ih]
      rfl
    cases takes : takesValue letter with
    | true =>
      obtain ⟨act, nothing, acts⟩ := clusterActs_value tail takes rest
      rw [acts, List.map_singleton, Act.undecided_eq nothing]
      simp [undecidedCluster, takes, acts]
    | false =>
      obtain ⟨act, nothing, acts⟩ := clusterActs_other tail keeps takes
      rw [acts, List.map_cons, Act.undecided_eq nothing, ← ih]
      simp [undecidedCluster, takes, keeps, acts]

end Clusters

section Words

variable {word : Word}

/-- A word that gives a decision by its name. -/
def Named (word : Word) : Prop := word = .ofString "--rm" ∨ word = .ofString "--keep"

theorem decisions_longAct {name : List Char} {tail : Bytes}
    (unnamed : ¬Named ⟨'-' :: '-' :: name, tail⟩) :
    (longAct (Reader.splitValue ⟨name, tail⟩).1 (Reader.splitValue ⟨name, tail⟩).2).decisions = [] := by
  generalize given : longAct _ _ = act
  cases act with
  | switch switch long =>
    obtain ⟨rfl, rfl⟩ := eq_of_longAct given
    cases switch with
    | flag flag =>
      refine if_neg fun decides => unnamed ?_
      cases flag <;> cases decides
      · exact Or.inl rfl
      · exact Or.inr rfl
    | counter | setting | help | version => rfl
  | unknown | unexpected | attach | plain | file => rfl

theorem decisions_wordActs (word : Word) : (wordActs word).flatMap Act.decisions = wordDecisions word := by
  by_cases removes : word = .ofString "--rm"
  · subst removes
    rfl
  by_cases keeps : word = .ofString "--keep"
  · subst keeps
    rfl
  obtain ⟨chars, tail⟩ := word
  rw [wordDecisions, if_neg removes, if_neg keeps]
  cases shape_of chars with
  | long name =>
    show [longAct _ _].flatMap Act.decisions = []
    rw [List.flatMap_singleton]
    exact decisions_longAct (not_or.mpr ⟨removes, keeps⟩)
  | dash =>
    show (if tail.isEmpty then _ else _ : List Act).flatMap Act.decisions = []
    split
    · rfl
    · exact decisions_clusterActs tail []
  | cluster rest other =>
    rw [wordActs_cluster other, decisions_clusterActs]
    simp [other]
  | plain other =>
    rw [wordActs_plain other]
    split
    · rfl
    · next dashed => exact absurd (congrArg List.head? dashed) other
    · rfl

/-- A cluster remains a cluster. -/
theorem undecidedCluster_cons {letter : Char} (other : letter ≠ '-') (rest : List Char) :
    ∃ first others, undecidedCluster (letter :: rest) = first :: others ∧ first ≠ '-' := by
  cases takes : takesValue letter with
  | true => exact ⟨letter, rest, by simp [undecidedCluster, takes], other⟩
  | false =>
    refine ⟨if letter = 'k' then 'v' else letter, undecidedCluster rest, ?_, ?_⟩
    · simp [undecidedCluster, takes]
    · split
      · decide
      · exact other

/-- Only clusters and the names of decisions are changed. -/
theorem undecidedWord_cases (unnamed : ¬Named word) :
    undecidedWord word = word ∧ wordDecisions word = [] ∨
      ∃ letter rest, letter ≠ '-' ∧ word = ⟨'-' :: letter :: rest, word.tail⟩ ∧
        undecidedWord word = ⟨'-' :: undecidedCluster (letter :: rest), word.tail⟩ := by
  obtain ⟨removes, keeps⟩ := not_or.mp unnamed
  obtain ⟨chars, tail⟩ := word
  rw [undecidedWord, if_neg (show ¬(_ = _ ∨ _ = _) from unnamed), wordDecisions, if_neg removes,
    if_neg keeps]
  cases shape_of chars with
  | long name => exact Or.inl ⟨rfl, rfl⟩
  | dash => exact Or.inl ⟨rfl, rfl⟩
  | @cluster letter rest other =>
    refine Or.inr ⟨letter, rest, other, rfl, ?_⟩
    simp [other]
  | plain other =>
    left
    split
    · next dashed => exact absurd (congrArg List.head? dashed) other
    · next dashed => exact absurd (congrArg List.head? dashed) other
    · exact ⟨rfl, rfl⟩

theorem wordActs_undecided (word : Word) :
    wordActs (undecidedWord word) = (wordActs word).map Act.undecided := by
  by_cases named : Named word
  · rcases named with rfl | rfl <;> rfl
  rcases undecidedWord_cases named with ⟨same, nothing⟩ | ⟨letter, rest, other, cluster, same⟩
  · rw [← decisions_wordActs, List.flatMap_eq_nil_iff] at nothing
    have unchanged : (wordActs word).map Act.undecided = (wordActs word).map id :=
      List.map_congr_left fun act among => Act.undecided_eq (nothing act among)
    rw [same, unchanged, List.map_id]
  · obtain ⟨first, others, still, letters⟩ := undecidedCluster_cons other rest
    rw [same, cluster, wordActs_cluster other, ← clusterActs_undecided, still, wordActs_cluster letters]

theorem undecidedWord_ne (unending : word ≠ filesOnly) : undecidedWord word ≠ filesOnly := by
  by_cases named : Named word
  · rcases named with rfl | rfl <;> decide
  rcases undecidedWord_cases named with ⟨same, -⟩ | ⟨letter, rest, other, -, same⟩
  · rwa [same]
  · obtain ⟨first, others, still, letters⟩ := undecidedCluster_cons other rest
    rw [same, still]
    intro ends
    have chars : '-' :: first :: others = ['-', '-'] := congrArg Word.chars ends
    cases chars
    exact letters rfl

end Words

/-- **The decisions on a command line** are those of its acts. -/
theorem decisions_actsOf (words : List Word) :
    (actsOf words).flatMap Act.decisions = decisions words := by
  induction words with
  | nil => rfl
  | cons word rest ih =>
    unfold actsOf
    by_cases ends : word = filesOnly
    · have nothing : (rest.map Act.file).flatMap Act.decisions = [] := by
        rw [List.flatMap_map]
        exact List.flatMap_eq_nil_iff.mpr fun _ _ => rfl
      rw [if_pos ends, nothing]
      simp [decisions, ends]
    · rw [if_neg ends, List.flatMap_append, decisions_wordActs, ih]
      simp [decisions, ends]

/-- **Without its decisions** a command line asks for the same, and counts instead of deciding. -/
theorem actsOf_undecided (words : List Word) :
    actsOf (undecided words) = (actsOf words).map Act.undecided := by
  induction words with
  | nil => rfl
  | cons word rest ih =>
    by_cases ends : word = filesOnly
    · have same : undecided (word :: rest) = word :: rest := by simp [undecided, ends]
      rw [same, actsOf, if_pos ends, List.map_map]
      rfl
    · have next : undecided (word :: rest) = undecidedWord word :: undecided rest := by
        simp [undecided, ends]
      rw [next, actsOf, if_neg (undecidedWord_ne ends), actsOf, if_neg ends, List.map_append, ih,
        wordActs_undecided]

end CommandLine

end Inflate
