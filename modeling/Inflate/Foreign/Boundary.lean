/-
**Calls from foreign code.**

Foreign code passes a region of memory and gets a new block. Lengths are numbers of 32 bits with a
sign. Every thread has a record of how its last call ended: after a success there is no error, and
after a failure its code and its text. A failed call gives no block and sets the length to zero.

Decoding is a total function here and cannot panic. The part of the boundary that catches a panic and
reports it as corrupt data is left out.

* `Boundary.callZlib`, `Boundary.callGzip`: the two calls;
* `Library.call`: a call on a thread, which leaves the records of all other threads alone;
* `lastError_call_of_ne`: that last fact.
-/

import Inflate.Foreign.Block
import Inflate.Persistence

namespace Inflate

namespace Foreign

/-! ### Arguments and records -/

/-- A region of memory: its bytes, unless its address is null, and its length as it was passed. -/
structure Region where
  memory : Option Bytes
  length : Int32
deriving DecidableEq

/-- The bytes of a region. -/
def Region.bytes (region : Region) : Except Failure Bytes :=
  if region.length < 0 then .error (.negativeLength region.length.toInt)
  else if region.length = 0 then .ok []
  else match region.memory with
    | some bytes => .ok (bytes.take region.length.toInt.toNat)
    | none => .error .nullInput

/-- How the last call of a thread ended. -/
structure LastError where
  code : Int := 0
  message : String := ""
deriving DecidableEq, Repr

/-- A text that foreign code can read to its end. -/
def withoutNul (text : String) : String :=
  String.ofList (text.toList.map fun c => if c = '\x00' then ' ' else c)

/-- The record of a failure. -/
def LastError.ofFailure (failure : Failure) : LastError :=
  ⟨failure.code, withoutNul failure.message⟩

/-- What a status code means. -/
def codeText (code : Int) : String :=
  if code = 0 then "success"
  else if code = FailureKind.invalidInput.code then "invalid input"
  else if code = FailureKind.allocationFailure.code then "allocation failure"
  else if code = FailureKind.ioFailure.code then "I/O failure"
  else "unknown error"

/-! ### Calls -/

/-- The greatest length that a call can give back. -/
def maxLength : Nat := 2 ^ 31 - 1

/-- How streams are decoded for foreign code. -/
def options : Options := { maxOutput := some maxLength }

/-- Directories are mostly named by texts. -/
instance : CoeOut (Option String) (Option Word) := ⟨Option.map Word.ofString⟩

namespace Boundary

/-- Decodes a region as a zlib stream. With a directory the output is also written there, once it has
a name and a block. -/
def decodeZlib (region : Region) (directory : Option Word) (grants : Nat → Bool) :
    Task Failure Block := do
  let input ← MonadExcept.ofExcept region.bytes
  let decoded ← perform (Zlib.attempt input options)
  match directory with
  | some directory =>
    let name ← MonadExcept.ofExcept (Naming.outputName decoded)
    let block ← MonadExcept.ofExcept (Block.allocate grants decoded.data)
    let _ ← persistAt directory name block.content
    return block
  | none => MonadExcept.ofExcept (Block.allocate grants decoded.data)

/-- Decodes a region as a gzip file. -/
def decodeGzip (region : Region) (grants : Nat → Bool) : Task Failure Block := do
  let input ← MonadExcept.ofExcept region.bytes
  let decoded ← perform (Gzip.attempt input options)
  MonadExcept.ofExcept (Block.allocate grants decoded.data)

/-- What a call gives back: the block, if there is one, the length that was set, if there is a place
for it, and the record of how the call ended. -/
structure Answer where
  block : Option Block
  length : Option Int32
  record : LastError
deriving DecidableEq

/-- The answer to a call that failed. -/
def Answer.failed (hasLength : Bool) (failure : Failure) : Answer :=
  ⟨none, if hasLength then some 0 else none, .ofFailure failure⟩

/-- Carries out a call. Without a place for the length nothing is done. -/
def answer (hasLength : Bool) (body : Task Failure Block) : StateM World Answer := do
  if hasLength then
    match ← body.run with
    | .ok block => return ⟨some block, some (Int32.ofNat block.length), {}⟩
    | .error failure => return .failed true failure
  else return .failed false .nullOutputLength

end Boundary

/-! ### Threads -/

/-- The call of a thread, and the sizes for which memory is granted to it. -/
inductive Call where
  | zlib (region : Region) (directory : Option Word) (hasLength : Bool)
    (grants : Nat → Bool := fun _ => true)
  | gzip (region : Region) (hasLength : Bool) (grants : Nat → Bool := fun _ => true)

/-- Carries out a call. -/
def Call.answer : Call → StateM World Boundary.Answer
  | zlib region directory hasLength grants =>
    Boundary.answer hasLength (Boundary.decodeZlib region directory grants)
  | gzip region hasLength grants => Boundary.answer hasLength (Boundary.decodeGzip region grants)

/-- The world and how the last call of each thread ended. -/
structure Library where
  world : World
  lastError : Nat → LastError := fun _ => {}

/-- A call on a thread. -/
def Library.call (library : Library) (thread : Nat) (call : Call) :
    Boundary.Answer × Library :=
  let finished := call.answer.run library.world
  (finished.1, {
    world := finished.2
    lastError := fun other =>
      if other = thread then finished.1.record else library.lastError other })

/-- A call leaves the records of all other threads alone. -/
theorem lastError_call_of_ne (library : Library) (thread other : Nat) (call : Call)
    (different : other ≠ thread) :
    (library.call thread call).2.lastError other = library.lastError other := by
  simp [Library.call, different]

end Foreign

end Inflate
