/-
**Sizes on the command line.**

A size is a decimal number below 2 ^ 64 that may be followed by `K`, `M` or `G` for a power of 1024,
and then by `i` and by `B`, each of them or neither.

* `readSize`: the size at the front of a text, and what follows it;
* `parseSize`: a whole text as a size.
-/

import Inflate.Text.Quoted

namespace Inflate

namespace CommandLine

/-- The number written by a list of decimal digits. -/
def decimalValue (digits : List Char) : Nat :=
  digits.foldl (fun n c => 10 * n + (c.toNat - '0'.toNat)) 0

/-- The power of 1024 that a letter stands for. -/
def unitPower : Char → Option Nat
  | 'K' => some 1
  | 'M' => some 2
  | 'G' => some 3
  | _ => none

/-- The list without a given first character. -/
def dropChar (c : Char) : List Char → List Char
  | [] => []
  | first :: rest => if first = c then rest else first :: rest

/-- A number of 64 bits, if it is one. -/
def fits (n : Nat) : Option Nat := if n < 2 ^ 64 then some n else none

/-- The size at the front of a list of characters, and what follows it. -/
def readSizeChars (chars : List Char) : Option (Nat × List Char) :=
  let digits := chars.takeWhile Char.isDigit
  let rest := chars.dropWhile Char.isDigit
  if digits.isEmpty then none
  else do
    let value ← fits (decimalValue digits)
    match rest with
    | [] => some (value, [])
    | letter :: others =>
      match unitPower letter with
      | none => some (value, rest)
      | some power =>
        let scaled ← fits (value * 1024 ^ power)
        some (scaled, dropChar 'B' (dropChar 'i' others))

/-- The size at the front of a text, and what follows it. -/
def readSize (text : String) : Option (Nat × String) :=
  (readSizeChars text.toList).map fun found => (found.1, String.ofList found.2)

/-- Why a text is not a size. -/
inductive SizeError where
  | followed (text rest : String)
  | missing (text : String)
deriving DecidableEq, Repr

/-- The text of an error. -/
def SizeError.message : SizeError → String
  | followed text rest =>
    text ++ ": unexpected characters " ++ Text.quoted rest ++ " after size"
  | missing text => text ++ ": expected a size such as 512K, 64M or 2G"

/-- A whole text as a size. -/
def parseSize (text : String) : Except SizeError Nat :=
  match readSize text with
  | some (value, rest) => if rest = "" then .ok value else .error (.followed text rest)
  | none => .error (.missing text)

end CommandLine

end Inflate
