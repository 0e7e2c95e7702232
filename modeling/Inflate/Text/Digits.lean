/-
**Numbers and columns in text.**

Decimal numbers are printed without leading zeros; hexadecimal ones in lower case, filled with zeros
to a width. A table cell is filled with blanks on one side up to a count of characters and is never
cut.
-/

namespace Inflate.Text

/-- A list of characters filled on the left up to a length. -/
def fillLeft (fill : Char) (width : Nat) (cell : List Char) : List Char :=
  List.replicate (width - cell.length) fill ++ cell

theorem length_fillLeft (fill : Char) (width : Nat) (cell : List Char) :
    (fillLeft fill width cell).length = max width cell.length := by
  simp only [fillLeft, List.length_append, List.length_replicate]
  omega

/-- A cell set against the right edge of its column. -/
def alignRight (width : Nat) (cell : String) : String :=
  String.ofList (fillLeft ' ' width cell.toList)

/-- A cell set against the left edge of its column. -/
def alignLeft (width : Nat) (cell : String) : String :=
  cell ++ String.ofList (List.replicate (width - cell.length) ' ')

/-- The decimal digits of a number. -/
def decimal (n : Nat) : String :=
  String.ofList (Nat.toDigits 10 n)

/-- The hexadecimal digits of a number, at least `width` of them. -/
def hex (width n : Nat) : String :=
  String.ofList (fillLeft '0' width (Nat.toDigits 16 n))

/-- The decimal digits of a number that may be negative. -/
def signedDecimal : Int → String
  | .ofNat n => decimal n
  | .negSucc n => "-" ++ decimal (n + 1)

end Inflate.Text
