/-
**The options of the command line.**

An option is a flag, a counter, a setting that takes a value, or it asks for help or for the version.
Every option has a long name, and most of them have a letter.

* `Switch.ofName?`, `Switch.ofLetter?`: the option of a name or a letter;
* `ofName?_name`, `ofLetter?_of_letter?`: no two options share a name or a letter.
-/

namespace Inflate

namespace CommandLine

/-- An option that is given or not. -/
inductive Flag where
  | decompress
  | test
  | list
  | standardOutput
  | force
  | remove
  | keep
  | multiple
  | storedName
  | allowTrailing
  | recursive
deriving DecidableEq, Repr

/-- An option whose occurrences are counted. -/
inductive Counter where
  | verbose
  | quiet
deriving DecidableEq, Repr

/-- An option with a value. -/
inductive Setting where
  | outputDirectory
  | format
  | maxOutput
  | threads
deriving DecidableEq, Repr

/-- An option. -/
inductive Switch where
  | flag (flag : Flag)
  | counter (counter : Counter)
  | setting (setting : Setting)
  | help
  | version
deriving DecidableEq, Repr

/-! ### Names -/

/-- The long name of a flag. -/
def Flag.name : Flag → String
  | decompress => "decompress"
  | test => "test"
  | list => "list"
  | standardOutput => "stdout"
  | force => "force"
  | remove => "rm"
  | keep => "keep"
  | multiple => "multiple"
  | storedName => "name"
  | allowTrailing => "allow-trailing"
  | recursive => "recursive"

/-- The letter of a flag. -/
def Flag.letter? : Flag → Option Char
  | decompress => some 'd'
  | test => some 't'
  | list => some 'l'
  | standardOutput => some 'c'
  | force => some 'f'
  | remove => none
  | keep => some 'k'
  | multiple => some 'm'
  | storedName => some 'N'
  | allowTrailing => none
  | recursive => some 'r'

/-- Whether giving one flag takes back another one that was given before. -/
def Flag.cancels : Flag → Flag → Bool
  | remove, keep => true
  | keep, remove => true
  | _, _ => false

/-- The long name of a counter. -/
def Counter.name : Counter → String
  | verbose => "verbose"
  | quiet => "quiet"

/-- The letter of a counter. -/
def Counter.letter : Counter → Char
  | verbose => 'v'
  | quiet => 'q'

/-- The long name of a setting. -/
def Setting.name : Setting → String
  | outputDirectory => "output-dir"
  | format => "format"
  | maxOutput => "max-output"
  | threads => "threads"

/-- The letter of a setting. -/
def Setting.letter? : Setting → Option Char
  | outputDirectory => some 'D'
  | threads => some 'T'
  | format | maxOutput => none

/-- What the value of a setting is called. -/
def Setting.valueName : Setting → String
  | outputDirectory => "DIR"
  | format => "FORMAT"
  | maxOutput => "SIZE"
  | threads => "N"

namespace Switch

/-- The long name of an option. -/
def name : Switch → String
  | flag f => f.name
  | counter c => c.name
  | setting s => s.name
  | help => "help"
  | version => "version"

/-- The letter of an option. -/
def letter? : Switch → Option Char
  | flag f => f.letter?
  | counter c => some c.letter
  | setting s => s.letter?
  | help => some 'h'
  | version => some 'V'

/-- An option as it is written in messages: its long name, with dots if it is counted, and with the
name of its value if it takes one. -/
def label : Switch → String
  | counter c => "--" ++ c.name ++ "..."
  | setting s => "--" ++ s.name ++ " <" ++ s.valueName ++ ">"
  | other => "--" ++ other.name

/-- All options, in the order of the help text. -/
def all : List Switch :=
  [flag .decompress, flag .test, flag .list, flag .standardOutput, flag .force, flag .remove,
    flag .keep, flag .multiple, setting .outputDirectory, flag .storedName, setting .format,
    setting .maxOutput, flag .allowTrailing, setting .threads, flag .recursive, counter .verbose,
    counter .quiet, help, version]

theorem mem_all (switch : Switch) : switch ∈ all := by
  rcases switch with (_ | _) | (_ | _) | (_ | _) | _ | _ <;> decide

/-- The option of a long name. -/
def ofName? (name : String) : Option Switch := all.find? fun switch => switch.name == name

/-- The option of a letter. -/
def ofLetter? (letter : Char) : Option Switch :=
  all.find? fun switch => switch.letter? == some letter

/-- No two options share a name. -/
theorem ofName?_name (switch : Switch) : ofName? switch.name = some switch := by
  have each : ∀ s ∈ all, ofName? s.name = some s := by decide
  exact each switch switch.mem_all

/-- No two options share a letter. -/
theorem ofLetter?_of_letter? {switch : Switch} {letter : Char}
    (named : switch.letter? = some letter) : ofLetter? letter = some switch := by
  have each : ∀ s ∈ all, s.letter?.bind ofLetter? = s.letter?.map fun _ => s := by decide
  have found := each switch switch.mem_all
  simpa [named] using found

end Switch

end CommandLine

end Inflate
