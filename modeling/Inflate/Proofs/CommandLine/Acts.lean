/-
**What the words of a command line ask for.**

A word asks for the same whatever stands before it: which options it gives and whether a value stands in it
is a matter of its characters alone. Only what is then done depends on the words before, by what they left
pending. So to read words is to carry out, one after the other, the acts that they ask for, up to the first
one that cannot be carried out.

* `Act`, `Reader.act`: what a word can ask for, and how a reader does it;
* `actsOf`: the acts of a command line, those behind one that will be refused among them;
* `takeWords_eq`: reading words is carrying out their acts;
* `eq_of_longAct`, `Switch.letter?_of_ofLetter?`: which words and letters give an option.
-/

import Mathlib.Data.List.TakeDrop
import Inflate.CommandLine.Reading

namespace Inflate

namespace CommandLine

open Reader (splitValue attachedValue filesOnly)

/-! ### Acts -/

/-- What a word can ask for. -/
inductive Act where
  | unknown (argument : String)
  | unexpected (switch : Switch) (value : String)
  | switch (switch : Switch) (long : Bool)
  | attach (setting : Setting) (value : Word)
  | plain (word : Word)
  | file (word : Word)

/-- Does what a word asks for. -/
def Reader.act (reader : Reader) : Act → Except Stop Reader
  | .unknown argument => .error (.fault (.unknownArgument argument))
  | .unexpected switch value => .error (.fault (.unexpectedValue switch value))
  | .switch switch long => reader.takeSwitch switch long
  | .attach setting value => reader.takeAttached setting value
  | .plain word => reader.takePlain word
  | .file word => reader.takeFile word

/-- Does what words ask for, up to the first act that fails. -/
def Reader.actAll (reader : Reader) (acts : List Act) : Except Stop Reader := acts.foldlM act reader

theorem Reader.actAll_cons (reader : Reader) (act : Act) (rest : List Act) :
    reader.actAll (act :: rest) = reader.act act >>= fun next => next.actAll rest :=
  List.foldlM_cons

theorem Reader.actAll_singleton (reader : Reader) (act : Act) :
    reader.actAll [act] = reader.act act :=
  (reader.actAll_cons act []).trans (bind_pure _)

theorem Reader.actAll_append (reader : Reader) (acts rest : List Act) :
    reader.actAll (acts ++ rest) = reader.actAll acts >>= fun next => next.actAll rest :=
  List.foldlM_append

/-! ### The acts of words -/

/-- The act of a long option, by its name and its value if it has one. -/
def longAct (name : Word) (value : Option Word) : Act :=
  match name.text?.bind Switch.ofName?, value with
  | none, _ => .unknown ("--" ++ name.lossy)
  | some (.setting setting), some word => .attach setting word
  | some switch, some word => .unexpected switch word.lossy
  | some switch, none => .switch switch true

/-- The acts of a cluster of letters. -/
def clusterActs (tail : Bytes) : List Char → List Act
  | [] =>
    if tail.isEmpty then []
    else [.unknown ("-" ++ (Word.mk [] tail).lossy)]
  | letter :: rest =>
    match Switch.ofLetter? letter with
    | none => .unknown ("-" ++ letter.toString) :: clusterActs tail rest
    | some (.setting setting) =>
      match attachedValue rest tail with
      | some value => [.attach setting value]
      | none => [.switch (.setting setting) false]
    | some switch => .switch switch false :: clusterActs tail rest

/-- The acts of a word before two dashes alone. -/
def wordActs (word : Word) : List Act :=
  match word.chars with
  | '-' :: '-' :: name => [longAct (splitValue ⟨name, word.tail⟩).1 (splitValue ⟨name, word.tail⟩).2]
  | ['-'] => if word.tail.isEmpty then [.plain word] else clusterActs word.tail []
  | '-' :: letters => clusterActs word.tail letters
  | _ => [.plain word]

/-- The acts of a command line. -/
def actsOf : List Word → List Act
  | [] => []
  | word :: rest => if word = filesOnly then rest.map .file else wordActs word ++ actsOf rest

/-- What a word looks like: a long option, a dash alone, a cluster of letters, or neither of them. -/
inductive Shape : List Char → Prop where
  | long (name : List Char) : Shape ('-' :: '-' :: name)
  | dash : Shape ['-']
  | cluster {letter : Char} (rest : List Char) (other : letter ≠ '-') : Shape ('-' :: letter :: rest)
  | plain {chars : List Char} (other : chars.head? ≠ some '-') : Shape chars

theorem shape_of (chars : List Char) : Shape chars := by
  rcases chars with _ | ⟨first, rest⟩
  · exact .plain nofun
  by_cases dash : first = '-'
  · subst dash
    rcases rest with _ | ⟨letter, rest⟩
    · exact .dash
    by_cases second : letter = '-'
    · exact second ▸ .long rest
    · exact .cluster rest second
  · exact .plain fun same => dash (Option.some_inj.mp same)

section Words

variable {letter : Char} {chars : List Char}

theorem wordActs_cluster (other : letter ≠ '-') (rest : List Char) (tail : Bytes) :
    wordActs ⟨'-' :: letter :: rest, tail⟩ = clusterActs tail (letter :: rest) := by
  simp [wordActs, other]

theorem wordActs_plain (other : chars.head? ≠ some '-') (tail : Bytes) :
    wordActs ⟨chars, tail⟩ = [.plain ⟨chars, tail⟩] := by
  unfold wordActs
  split <;> simp_all

theorem takeWord_cluster (reader : Reader) (other : letter ≠ '-') (rest : List Char) (tail : Bytes) :
    reader.takeWord ⟨'-' :: letter :: rest, tail⟩ = reader.takeCluster tail (letter :: rest) := by
  simp [Reader.takeWord, other]

theorem takeWord_plain (reader : Reader) (other : chars.head? ≠ some '-') (tail : Bytes) :
    reader.takeWord ⟨chars, tail⟩ = reader.takePlain ⟨chars, tail⟩ := by
  unfold Reader.takeWord
  split <;> simp_all

end Words

namespace Reader

theorem takeLong_eq (reader : Reader) (name : Word) (value : Option Word) :
    reader.takeLong name value = reader.act (longAct name value) := by
  unfold takeLong longAct
  cases name.text?.bind Switch.ofName? with
  | none => rfl
  | some switch => cases switch <;> cases value <;> rfl

theorem takeCluster_eq (reader : Reader) (tail : Bytes) (letters : List Char) :
    reader.takeCluster tail letters = reader.actAll (clusterActs tail letters) := by
  induction letters generalizing reader with
  | nil =>
    unfold takeCluster clusterActs
    split <;> rfl
  | cons letter rest ih =>
    have onward (switch : Switch) :
        (do takeCluster (← reader.takeSwitch switch false) tail rest) =
          reader.actAll (.switch switch false :: clusterActs tail rest) := by
      simp only [actAll_cons, ih]
      rfl
    unfold takeCluster clusterActs
    cases Switch.ofLetter? letter with
    | none => rfl
    | some switch =>
      cases switch with
      | setting setting =>
        -- the rest of the cluster is the value
        simp only
        cases attachedValue rest tail with
        | none => exact (reader.actAll_singleton (.switch (.setting setting) false)).symm
        | some value => exact (reader.actAll_singleton (.attach setting value)).symm
      | flag | counter | help | version => exact onward _

theorem takeWord_eq (reader : Reader) (word : Word) :
    reader.takeWord word = reader.actAll (wordActs word) := by
  obtain ⟨chars, tail⟩ := word
  cases shape_of chars with
  | long name =>
    show reader.takeLong _ _ = reader.actAll [longAct _ _]
    rw [actAll_singleton, takeLong_eq]
  | dash =>
    show (if tail.isEmpty then _ else _) = reader.actAll (if tail.isEmpty then _ else _)
    split
    · exact (reader.actAll_singleton (.plain ⟨['-'], tail⟩)).symm
    · exact reader.takeCluster_eq tail []
  | cluster rest other => rw [takeWord_cluster reader other, wordActs_cluster other, takeCluster_eq]
  | plain other =>
    rw [takeWord_plain reader other, wordActs_plain other, actAll_singleton]
    rfl

/-- **Reading words** is carrying out their acts. -/
theorem takeWords_eq (reader : Reader) (words : List Word) :
    reader.takeWords words = reader.actAll (actsOf words) := by
  induction words generalizing reader with
  | nil => rfl
  | cons word rest ih =>
    unfold takeWords actsOf
    split
    · rw [actAll, List.foldlM_map]
      rfl
    · simp only [actAll_append, takeWord_eq, ih]

end Reader

/-! ### Words that give an option -/

theorem Switch.letter?_of_ofLetter? {letter : Char} {switch : Switch}
    (found : Switch.ofLetter? letter = some switch) : switch.letter? = some letter := by
  simpa using List.find?_some found

theorem Switch.name_of_ofName? {name : String} {switch : Switch}
    (found : Switch.ofName? name = some switch) : switch.name = name := by
  simpa using List.find?_some found

/-- A word without an equality sign is not split. -/
theorem eq_of_splitValue {word : Word} (whole : (splitValue word).2 = none) :
    (splitValue word).1 = word := by
  obtain ⟨chars, tail⟩ := word
  have front : (chars.span (· != '=')).1 ++ (chars.span (· != '=')).2 = chars := by
    rw [List.span_eq_takeWhile_dropWhile, List.takeWhile_append_dropWhile]
  have back : (tail.span (· != '='.toUInt8)).1 ++ (tail.span (· != '='.toUInt8)).2 = tail := by
    rw [List.span_eq_takeWhile_dropWhile, List.takeWhile_append_dropWhile]
  unfold splitValue at whole ⊢
  simp only at whole ⊢
  generalize chars.span (· != '=') = split at *
  generalize tail.span (· != '='.toUInt8) = splitTail at *
  obtain ⟨name, _ | ⟨first, rest⟩⟩ := split
  · obtain ⟨bytes, _ | ⟨first, rest⟩⟩ := splitTail
    · rw [List.append_nil] at front back
      rw [← front, ← back]
    · cases whole
  · cases whole

/-- An option is given in a word of its own by its name, and by nothing else. -/
theorem eq_of_longAct {name : List Char} {tail : Bytes} {switch : Switch} {long : Bool}
    (gives : longAct (splitValue ⟨name, tail⟩).1 (splitValue ⟨name, tail⟩).2 = .switch switch long) :
    name = switch.name.toList ∧ tail = [] := by
  unfold longAct at gives
  split at gives
  · cases gives
  · cases gives
  · cases gives
  · next given found whole =>
    cases gives
    rw [eq_of_splitValue whole] at found
    obtain ⟨text, decoded, found⟩ := Option.bind_eq_some_iff.mp found
    rw [Word.text?] at decoded
    split at decoded
    · next ends =>
      cases decoded
      rw [Switch.name_of_ofName? found, String.toList_ofList]
      exact ⟨rfl, List.isEmpty_iff.mp ends⟩
    · cases decoded

end CommandLine

end Inflate
