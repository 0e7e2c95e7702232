/-
**Words that may hold undecodable bytes.**

The command line and the environment give byte strings. A word keeps the characters of the longest
prefix that is UTF-8 and, undecoded, the bytes after it.

* `Word.ofBytes`: splits a byte string at its first undecodable byte;
* `Word.lossy`: the text in which every undecodable part is shown as one U+FFFD.
-/

import Inflate.Bytes

namespace Inflate

namespace Text

/-! ### One character of UTF-8 -/

/-- The least and greatest second byte that may follow a first byte of a longer sequence, and the
count of bytes after the second one. -/
def sequenceShape (first : UInt8) : Option (UInt8 × UInt8 × Nat) :=
  if first < 0xC2 then none
  else if first < 0xE0 then some (0x80, 0xBF, 0)
  else if first = 0xE0 then some (0xA0, 0xBF, 1)
  else if first = 0xED then some (0x80, 0x9F, 1)
  else if first < 0xF0 then some (0x80, 0xBF, 1)
  else if first = 0xF0 then some (0x90, 0xBF, 2)
  else if first < 0xF4 then some (0x80, 0xBF, 2)
  else if first = 0xF4 then some (0x80, 0x8F, 2)
  else none

/-- How many of the given count of continuation bytes stand at the front. -/
def continuationCount : Nat → Bytes → Nat
  | 0, _ => 0
  | _ + 1, [] => 0
  | count + 1, byte :: rest =>
    if byte &&& 0xC0 = 0x80 then continuationCount count rest + 1 else 0

/-- What stands at the front of a byte string that is not empty: a character or the longest part
that no character begins with. Both come with their count of bytes after the first. -/
def frontOf (first : UInt8) (rest : Bytes) : Option Char × Nat :=
  if first < 0x80 then (some (Char.ofNat first.toNat), 0)
  else match sequenceShape first, rest with
    | some (low, high, more), second :: others =>
      if low ≤ second ∧ second ≤ high then
        let found := continuationCount more others
        if found = more then
          let payload := (second :: others.take more).foldl
            (fun n byte => 64 * n + byte.toNat % 64) (first.toNat % 2 ^ (5 - more))
          (some (Char.ofNat payload), more + 1)
        else (none, found + 1)
      else (none, 0)
    | _, _ => (none, 0)

/-- The pieces of a byte string: characters and undecodable parts. -/
def pieces : Bytes → List (Option Char × Bytes)
  | [] => []
  | first :: rest =>
    let front := frontOf first rest
    (front.1, first :: rest.take front.2) :: pieces (rest.drop front.2)
termination_by bytes => bytes.length
decreasing_by simp only [List.length_drop, List.length_cons]; omega

end Text

/-! ### Words -/

/-- A word of the command line: decoded characters, then what could not be decoded. -/
structure Word where
  chars : List Char
  tail : Bytes := []
deriving DecidableEq, Repr

namespace Word

/-- The word of a text. -/
def ofString (text : String) : Word := ⟨text.toList, []⟩

/-- Splits a byte string at its first undecodable byte. -/
def ofBytes (bytes : Bytes) : Word :=
  let split := (Text.pieces bytes).span (fun piece => piece.1.isSome)
  ⟨split.1.filterMap Prod.fst, split.2.flatMap Prod.snd⟩

/-- The text of a word, if all of it is decodable. -/
def text? (word : Word) : Option String :=
  if word.tail.isEmpty then some (String.ofList word.chars) else none

/-- The text of a word, with U+FFFD for every undecodable part. -/
def lossy (word : Word) : String :=
  String.ofList (word.chars ++ (Text.pieces word.tail).map fun piece => piece.1.getD '\uFFFD')

/-- Neither characters nor bytes. -/
def isEmpty (word : Word) : Bool := word.chars.isEmpty && word.tail.isEmpty

theorem text?_ofString (text : String) : (ofString text).text? = some text := by
  simp [ofString, text?]

end Word

end Inflate
