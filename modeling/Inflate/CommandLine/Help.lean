/-
**The help texts.**

The short text gives every option one line, with the descriptions in a column. The long text gives
every option a paragraph, and explains the values of an option that has a fixed set of them.
-/

import Inflate.CommandLine.Switch
import Inflate.Identity
import Inflate.Text.Digits

namespace Inflate

namespace CommandLine

namespace Help

/-- What the program is for. -/
def about : String := "Decompress zlib (RFC 1950) and gzip (RFC 1952) files"

/-- How the program is called. -/
def usage : String := "Usage: " ++ programName ++ " [OPTIONS] [FILE]..."

/-- The name of the files on the command line. -/
def files : String := "[FILE]..."

/-- What the files on the command line are. -/
def filesText : String := "INPUT [OUTPUT], or several inputs with -m"

/-- The closing words. -/
def closing : String :=
  "With no INPUT, or when INPUT is '-', read standard input.\n" ++
    "Without OUTPUT the name is derived by stripping .zz, .z, .zlib or .gz.\n"

/-- The values of the container format, each with its explanation. -/
def formatValues : List (String × String) :=
  [("auto", "Detect from the magic bytes"), ("zlib", ""), ("gzip", "")]

/-- The container format that holds when none is given. -/
def defaultFormat : String := "auto"

/-- What an option does. The help option says where the other text is. -/
def description (long : Bool) : Switch → String
  | .flag .decompress => "Decompress (the default; accepted for symmetry with other tools)"
  | .flag .test => "Test integrity: decode and discard"
  | .flag .list => "List format, sizes and ratio of compressed files"
  | .flag .standardOutput => "Write to standard output"
  | .flag .force => "Overwrite existing output files"
  | .flag .remove => "Remove source files after successful decompression"
  | .flag .keep => "Keep source files (default)"
  | .flag .multiple => "Treat every positional argument as an input file"
  | .setting .outputDirectory => "Write outputs into DIR, named by stored name or checksum"
  | .flag .storedName => "Use the gzip stored file name and timestamp"
  | .setting .format => "Container format"
  | .setting .maxOutput => "Refuse to produce more than SIZE bytes per file (K, M, G suffixes)"
  | .flag .allowTrailing => "Ignore bytes following the compressed stream"
  | .setting .threads => "Number of files decoded in parallel (0 = all cores)"
  | .flag .recursive => "Recurse into directories (requires the \x60recursive\x60 feature)"
  | .counter .verbose => "Increase verbosity"
  | .counter .quiet => "Decrease verbosity"
  | .help =>
    if long then "Print help (see a summary with '-h')" else "Print help (see more with '--help')"
  | .version => "Print version"

/-- An option with its letter. -/
def term (switch : Switch) : String :=
  match switch.letter? with
  | some letter => "  -" ++ letter.toString ++ ", " ++ switch.label
  | none => "      " ++ switch.label

/-! ### The short text -/

/-- The width of the column of options. -/
def termWidth : Nat := (Switch.all.map fun switch => (term switch).length).foldl max 0

/-- The values of an option and the one that holds when none is given, after its description. -/
def valueHints : Switch → String
  | .setting .format =>
    " [default: " ++ defaultFormat ++ "] [possible values: " ++
      String.intercalate ", " (formatValues.map Prod.fst) ++ "]"
  | _ => ""

/-- The line of an option. -/
def line (switch : Switch) : String :=
  Text.alignLeft termWidth (term switch) ++ "  " ++ description false switch ++
    valueHints switch ++ "\n"

/-- The short text. -/
def short : String :=
  about ++ "\n\n" ++ usage ++ "\n\nArguments:\n  " ++ files ++ "  " ++ filesText ++
    "\n\nOptions:\n" ++ String.join (Switch.all.map line) ++ "\n" ++ closing

/-! ### The long text -/

/-- The margin of a paragraph. -/
def margin : String := "          "

/-- One value of an option with its explanation. -/
def valueLine (value : String × String) : String :=
  margin ++ "- " ++ value.1 ++ (if value.2 = "" then "" else ": " ++ value.2) ++ "\n"

/-- The values of an option and the one that holds when none is given, below its description. -/
def valueParagraphs : Switch → String
  | .setting .format =>
    "\n" ++ margin ++ "Possible values:\n" ++ String.join (formatValues.map valueLine) ++ margin ++
      "\n" ++ margin ++ "[default: " ++ defaultFormat ++ "]\n"
  | _ => ""

/-- The paragraph of an option. -/
def paragraph (switch : Switch) : String :=
  term switch ++ "\n" ++ margin ++ description true switch ++ "\n" ++ valueParagraphs switch ++ "\n"

/-- The long text. -/
def long : String :=
  about ++ "\n\n" ++ usage ++ "\n\nArguments:\n  " ++ files ++ "\n" ++ margin ++ filesText ++
    "\n\nOptions:\n" ++ String.join (Switch.all.map paragraph) ++ closing

/-- The text of the version. -/
def versionLine : String := programName ++ " " ++ versionText ++ "\n"

end Help

end CommandLine

end Inflate
