/-
**The name and the version of the program.**
-/

namespace Inflate

/-- The name of the program. -/
def programName : String := "rzlib"

/-- The version of the program and of the library. -/
def versionText : String := "0.2.0"

/-- A line in which the program names itself. -/
def signed (remark : String) : String := programName ++ ": " ++ remark ++ "\n"

/-- The line that is shown first at high verbosity. -/
def welcome : String :=
  "*** " ++ programName ++ " v" ++ versionText ++ " 64-bit, zlib/gzip decoder ***\n"

end Inflate
