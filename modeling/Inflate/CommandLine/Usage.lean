/-
**Faults in the use of the command line.**

A fault is met either while the words are read or when the options are put together. The message of a
fault of the first kind is one line of plain text, whatever the words hold.

* `WordFault.message`, `UsageFault.message`: the texts of faults;
* `newline_not_mem_headline`: a headline is one line.
-/

import Inflate.CommandLine.Switch
import Inflate.Text.Plain

namespace Inflate

namespace CommandLine

/-! ### Faults of words -/

/-- What is wrong with a word of the command line. -/
inductive WordFault where
  | unknownArgument (argument : String)
  | unexpectedValue (switch : Switch) (value : String)
  | missingValue (setting : Setting)
  | invalidValue (setting : Setting) (value : String) (reason : Option String)
  | repeated (switch : Switch)
  | conflict (first second : Flag)
  | undecodable
deriving DecidableEq, Repr

/-- The first line of a list of characters. A carriage return before the end of the line belongs to
that end. -/
def firstLine (chars : List Char) : List Char :=
  let line := chars.takeWhile (· != '\n')
  if line.length < chars.length ∧ line.getLast? = some '\r' then line.dropLast else line

/-- The first line of a text that is given in segments, as plain text. The segments differ in style,
and a change of style ends every sequence that a segment leaves open. -/
def headline (segments : List String) : String :=
  String.ofList (firstLine (segments.flatMap fun segment => (Text.plain segment).toList))

/-- A headline is one line. -/
theorem newline_not_mem_headline (segments : List String) : '\n' ∉ (headline segments).toList := by
  intro member
  have within : ∀ chars : List Char, '\n' ∉ chars.takeWhile (· != '\n') := by
    intro chars inside
    simpa using List.all_eq_true.mp List.all_takeWhile _ inside
  rw [headline, String.toList_ofList, firstLine] at member
  split at member
  · exact within _ ((List.dropLast_subset _) member)
  · exact within _ member

/-- The hint that ends a text on a fault, up to the name of the switch that it recommends. -/
def helpHint : String := "\n\nFor more information, try '"

/-- The text of a fault of words in segments, as far as it can reach the first line. The reason for
which a value was refused holds the value itself and may run into the hint. -/
def WordFault.segments : WordFault → List String
  | unknownArgument argument => ["unexpected argument '", argument, "' found"]
  | unexpectedValue switch value =>
    ["unexpected value '", value, "' for '", switch.label, "' found; no more were expected"]
  | missingValue setting =>
    ["a value is required for '", (Switch.setting setting).label, "' but none was supplied"]
  | invalidValue setting value none =>
    ["invalid value '", value, "' for '", (Switch.setting setting).label, "'"]
  | invalidValue setting value (some reason) =>
    ["invalid value '", value, "' for '", (Switch.setting setting).label,
      "': " ++ reason ++ helpHint, "--help", "'."]
  | repeated switch => ["the argument '", switch.label, "' cannot be used multiple times"]
  | conflict first second =>
    ["the argument '", (Switch.flag first).label, "' cannot be used with '",
      (Switch.flag second).label, "'"]
  | undecodable => ["invalid UTF-8 was detected in one or more arguments"]

/-- The line that is shown for a fault of words. -/
def WordFault.message (fault : WordFault) : String := "error: " ++ headline fault.segments

/-! ### Faults of usage -/

/-- What is wrong with a command line. -/
inductive UsageFault where
  | words (fault : WordFault)
  | recursionUnsupported
  | standardOutputAndDirectory
  | standardOutputAndName
  | unexpectedFile (name : String)
deriving DecidableEq, Repr

/-- The text of a fault. -/
def UsageFault.message : UsageFault → String
  | words fault => "bad usage: " ++ fault.message
  | recursionUnsupported =>
    "bad usage: -r: this executable was built without recursive directory support"
  | standardOutputAndDirectory => "bad usage: -c and -D are mutually exclusive"
  | standardOutputAndName => "bad usage: -c conflicts with an output file name"
  | unexpectedFile name =>
    "bad usage: unexpected file name " ++ name ++ " (use -m for several inputs)"

end CommandLine

end Inflate
