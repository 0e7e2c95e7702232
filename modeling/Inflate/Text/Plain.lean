/-
**Plain text.**

A terminal takes some characters as orders and not as text: the controls, and the sequences that begin
with an escape character. The plain text of a text is what is left without them. Controls that are
blanks stay, and they end a sequence of marks and numbers that is still open. A sequence that holds a
string goes on until another escape character, a cancelling control or the terminator of strings, which
is a byte that may also stand within a character beyond ASCII.

* `plain`: the plain text of a text;
* `plain_of_forall`: a text without controls is its own plain text.
-/

namespace Inflate

namespace Text

/-! ### Characters -/

/-- Whether a character is a control that is a blank. -/
def isBlankControl (c : Char) : Bool :=
  c == '\t' || c == '\n' || c == '\x0c' || c == '\r'

/-- Whether a character is text outside of every sequence: all but controls that are not blanks. -/
def isPlain (c : Char) : Bool := (' ' ≤ c && c != '\x7f') || isBlankControl c

/-- Whether a character cancels the sequence that it stands in. -/
def isCancelling (c : Char) : Bool := c == '\x18' || c == '\x1a'

/-- Whether a character is beyond ASCII. -/
def isBeyondAscii (c : Char) : Bool := 0x7f < c.toNat

/-- The byte that ends a string. -/
def stringTerminator : UInt8 := 0x9C

/-- Whether the byte that ends a string is one of the bytes of a character. -/
def endsString (c : Char) : Bool := (String.utf8EncodeChar c).contains stringTerminator

/-! ### Sequences -/

/-- Where a character stands: in the text, after an escape character, after some marks that follow one,
among the numbers of a control sequence, in the three parts before the string of a device, in a string,
or in the string of a command, which a bell ends and the terminator does not. -/
inductive Place where
  | text
  | escape
  | marks
  | numbers
  | device
  | deviceNumbers
  | deviceMarks
  | string
  | command
deriving DecidableEq, Repr

namespace Place

/-- Whether a character is a control or the deletion character, which only end a sequence if they are
blanks. -/
def isControl (c : Char) : Bool := c < ' ' || c == '\x7f'

/-- The place after a character that follows an escape character and is no control. -/
def introduced (c : Char) : Place :=
  if c < '0' then marks
  else if c == '[' then numbers
  else if c == ']' then command
  else if c == 'P' then device
  else if c == 'X' || c == '^' || c == '_' then string
  else text

/-- The place after an ASCII character that is neither an escape character nor cancelling. -/
def nextAscii (place : Place) (c : Char) : Place :=
  match place with
  | text => text
  | escape => if isBlankControl c then text else if isControl c then escape else introduced c
  | marks => if isBlankControl c then text else if isControl c || c < '0' then marks else text
  | numbers => if isBlankControl c then text else if isControl c || c < '@' then numbers else text
  | device =>
    if isControl c then device
    else if c < '0' then deviceMarks
    else if c < '@' then deviceNumbers
    else string
  | deviceNumbers =>
    if isControl c then deviceNumbers
    else if c < '0' then deviceMarks
    else if c < '<' then deviceNumbers
    else string
  | deviceMarks => if isControl c || c < '0' then deviceMarks else string
  | string => string
  | command => if c == '\x07' then text else command

/-- The place after a character. -/
def next (place : Place) (c : Char) : Place :=
  if c == '\x1b' then escape
  else if isCancelling c then text
  else if isBeyondAscii c then if place == string && endsString c then text else place
  else place.nextAscii c

/-- Whether a character is left in the plain text. -/
def shows (place : Place) (c : Char) : Bool :=
  match place with
  | text => isPlain c
  | escape | marks | numbers => isBlankControl c
  | _ => false

theorem next_text_of_isPlain {c : Char} (plain : isPlain c = true) : text.next c = text := by
  unfold next
  split
  · next escaping =>
    have same : c = '\x1b' := by simpa using escaping
    subst same
    exact absurd plain (by decide)
  · simp [nextAscii]

end Place

/-! ### Texts -/

/-- What is left of a list of characters, the first of which stands at a place. -/
def plainFrom (place : Place) : List Char → List Char
  | [] => []
  | c :: rest =>
    if place.shows c then c :: plainFrom (place.next c) rest else plainFrom (place.next c) rest

/-- The plain text of a text. -/
def plain (text : String) : String := String.ofList (plainFrom .text text.toList)

theorem plainFrom_of_forall {chars : List Char} (plain : ∀ c ∈ chars, isPlain c = true) :
    plainFrom .text chars = chars := by
  induction chars with
  | nil => rfl
  | cons c rest ih =>
    simp only [List.mem_cons, forall_eq_or_imp] at plain
    simp [plainFrom, Place.next_text_of_isPlain plain.1, Place.shows, plain.1, ih plain.2]

/-- A text without controls is its own plain text. -/
theorem plain_of_forall {text : String} (shown : ∀ c ∈ text.toList, isPlain c = true) :
    plain text = text := by
  rw [plain, plainFrom_of_forall shown, String.ofList_toList]

end Text

end Inflate
