/-
**Quoted text.**

A quoted text stands between double quotes. Quotes, backslashes and the usual controls are escaped
by a backslash and a letter, and characters that cannot be shown by their code point in braces.

* `quoted`: a text;
* `quotedWord`: a word, in which undecodable bytes are written as two hexadecimal digits;
* `quotedWord_ofString`: a word that is a text is quoted as that text.
-/

import Inflate.Text.Digits
import Inflate.Text.Hidden
import Inflate.Text.Word

namespace Inflate

namespace Text

/-- The letter that stands after a backslash for a character. -/
def escapeLetter (c : Char) : Option Char :=
  match c with
  | '\x00' => some '0'
  | '\t' => some 't'
  | '\n' => some 'n'
  | '\r' => some 'r'
  | '\\' => some '\\'
  | '"' => some '"'
  | _ => none

/-- A character inside a quoted text. -/
def escape (c : Char) : List Char :=
  match escapeLetter c with
  | some letter => ['\\', letter]
  | none =>
    if isHidden c then ['\\', 'u', '\x7b'] ++ Nat.toDigits 16 c.toNat ++ ['\x7d']
    else [c]

/-- A text between double quotes. -/
def quoted (text : String) : String :=
  String.ofList ('"' :: text.toList.flatMap escape ++ ['"'])

/-- A byte as a backslash, an `x` and two upper case hexadecimal digits. -/
def escapeByte (byte : UInt8) : List Char :=
  '\\' :: 'x' :: (hex 2 byte.toNat).toList.map Char.toUpper

/-- A word between double quotes. -/
def quotedWord (word : Word) : String :=
  let part (piece : Option Char × Bytes) : List Char :=
    match piece with
    | (some c, _) => escape c
    | (none, bytes) => bytes.flatMap escapeByte
  String.ofList ('"' :: word.chars.flatMap escape ++ (pieces word.tail).flatMap part ++ ['"'])

/-- A word that is a text is quoted as that text. -/
theorem quotedWord_ofString (text : String) : quotedWord (Word.ofString text) = quoted text := by
  simp [quotedWord, quoted, Word.ofString, pieces]

end Text

end Inflate
