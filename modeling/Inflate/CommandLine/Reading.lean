/-
**Reading the words of the command line.**

A word that begins with two dashes is a long option, and one that begins with one dash and goes on is
a cluster of letters. After two dashes alone all words are files. The value of an option is what
follows an equality sign or the letter, or else the next word. A value that stands in a word of its
own, and files, are kept pending and taken into the draft when the next option is known to be one or
when the words end.

* `readWords`: the draft that a list of words gives, or why reading stopped.
-/

import Inflate.CommandLine.Draft

namespace Inflate

namespace CommandLine

/-- Why reading stopped before the end of the words. -/
inductive Stop where
  | fault (fault : WordFault)
  | help (long : Bool)
  | version
deriving DecidableEq, Repr

/-- What was read but not yet taken into the draft. -/
inductive Pending where
  | nothing
  | setting (setting : Setting) (value : Option Word)
  | files (words : List Word)
deriving DecidableEq, Repr

/-- The draft and what is pending. -/
structure Reader where
  draft : Draft := {}
  pending : Pending := .nothing
deriving DecidableEq, Repr

namespace Reader

/-- A result that stops reading if it is a fault. -/
def orStop {α : Type} : Except WordFault α → Except Stop α
  | .ok value => .ok value
  | .error fault => .error (.fault fault)

/-- The draft with what was pending. -/
def settle (reader : Reader) : Except Stop Draft :=
  match reader.pending with
  | .nothing => .ok reader.draft
  | .setting setting value => orStop (reader.draft.give setting value)
  | .files words => orStop (reader.draft.addFiles words)

/-- An option that stands without a value. -/
def takeSwitch (reader : Reader) (switch : Switch) (long : Bool) : Except Stop Reader := do
  let draft ← reader.settle
  match switch with
  | .flag flag => return ⟨← orStop (draft.addFlag flag), .nothing⟩
  | .counter counter => return ⟨draft.addCount counter, .nothing⟩
  | .setting setting => return ⟨draft, .setting setting none⟩
  | .help => .error (.help long)
  | .version => .error .version

/-- A setting with a value in the same word. -/
def takeAttached (reader : Reader) (setting : Setting) (value : Word) : Except Stop Reader := do
  return ⟨← orStop ((← reader.settle).give setting (some value)), .nothing⟩

/-- Reads a long option, given without its dashes: its name, and its value if it has one. -/
def takeLong (reader : Reader) (name : Word) (value : Option Word) : Except Stop Reader :=
  match name.text?.bind Switch.ofName?, value with
  | none, _ => .error (.fault (.unknownArgument ("--" ++ name.lossy)))
  | some (.setting setting), some word => reader.takeAttached setting word
  | some switch, some word => .error (.fault (.unexpectedValue switch word.lossy))
  | some switch, none => reader.takeSwitch switch true

/-- Splits a word without its dashes at its first equality sign. -/
def splitValue (word : Word) : Word × Option Word :=
  match word.chars.span (· != '=') with
  | (name, _ :: value) => (⟨name, []⟩, some ⟨value, word.tail⟩)
  | (name, []) =>
    match word.tail.span (· != '='.toUInt8) with
    | (bytes, _ :: value) => (⟨name, bytes⟩, some (Word.ofBytes value))
    | (bytes, []) => (⟨name, bytes⟩, none)

/-- The value that follows a letter, if any does. An equality sign in front of it is left out. -/
def attachedValue : List Char → Bytes → Option Word
  | [], [] => none
  | '=' :: chars, tail => some ⟨chars, tail⟩
  | chars, tail => some ⟨chars, tail⟩

/-- Reads a cluster of letters. -/
def takeCluster (reader : Reader) (tail : Bytes) : List Char → Except Stop Reader
  | [] =>
    if tail.isEmpty then .ok reader
    else .error (.fault (.unknownArgument ("-" ++ (Word.mk [] tail).lossy)))
  | letter :: rest =>
    match Switch.ofLetter? letter with
    | none => .error (.fault (.unknownArgument ("-" ++ letter.toString)))
    | some (.setting setting) =>
      match attachedValue rest tail with
      | some value => reader.takeAttached setting value
      | none => reader.takeSwitch (.setting setting) false
    | some switch => do takeCluster (← reader.takeSwitch switch false) tail rest

/-- Takes a word as a file. -/
def takeFile (reader : Reader) (word : Word) : Except Stop Reader :=
  match reader.pending with
  | .files words => .ok { reader with pending := .files (words ++ [word]) }
  | _ => do return ⟨← reader.settle, .files [word]⟩

/-- Takes a word that is no option: as a value if one is awaited, and else as a file. -/
def takePlain (reader : Reader) (word : Word) : Except Stop Reader :=
  match reader.pending with
  | .setting setting none => .ok { reader with pending := .setting setting (some word) }
  | _ => reader.takeFile word

/-- Reads a word before two dashes alone. -/
def takeWord (reader : Reader) (word : Word) : Except Stop Reader :=
  match word.chars with
  | '-' :: '-' :: name =>
    let split := splitValue ⟨name, word.tail⟩
    reader.takeLong split.1 split.2
  | ['-'] =>
    if word.tail.isEmpty then reader.takePlain word else reader.takeCluster word.tail []
  | '-' :: letters => reader.takeCluster word.tail letters
  | _ => reader.takePlain word

/-- The word after which all words are files. -/
def filesOnly : Word := .ofString "--"

/-- Reads words. -/
def takeWords (reader : Reader) : List Word → Except Stop Reader
  | [] => .ok reader
  | word :: rest =>
    if word = filesOnly then rest.foldlM takeFile reader
    else do takeWords (← reader.takeWord word) rest

end Reader

/-- The draft that a list of words gives, or why reading stopped. -/
def readWords (words : List Word) : Except Stop Draft := do
  let reader ← Reader.takeWords {} words
  Reader.orStop (← reader.settle).checkConflicts

end CommandLine

end Inflate
