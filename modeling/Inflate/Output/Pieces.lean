/-
**Decoding into a limited buffer, piece by piece.**

The decoder works ahead of the buffer by one piece: it decodes until a byte past the next multiple of
the piece size has to be written, or until the stream or the input ends, and only then is the piece
moved into the buffer. After a piece that leaves room in the buffer it goes on at once, as long as there
is input; otherwise the limit is looked at. So a fault within a piece is reported before the limit, the
limit before the end of the input, and a fault after the piece that fills the buffer is never met if
the limit was passed.

* `decodeInto`: decodes one stream into a buffer;
* `goesOn`: whether the decoder goes on without a look at the limit;
* `Frame`: a bare stream, or one that is followed by the Adler-32 checksum of its output.
-/

import Inflate.Checksum.Adler32
import Inflate.Deflate.Decoder
import Inflate.Output.Buffer

namespace Inflate

open Deflate (Decoder Halt)

/-- What follows a stream and belongs to it: nothing, or the Adler-32 checksum of the output with the
most significant byte first. -/
inductive Frame where
  | bare
  | checked
deriving DecidableEq, Repr

/-- The verdict on a stream, with what follows it taken into account. -/
def Frame.close (frame : Frame) (output : Array UInt8) (halt : Halt) : Halt :=
  match frame, halt with
  | .checked, .complete rest =>
    if rest.length < 4 then .short
    else if Bytes.bigEndian (rest.take 4) = (adler32 output.toList).toNat then
      .complete (rest.drop 4)
    else .fault
  | _, halt => halt

theorem Frame.eq_full_of_close {frame : Frame} {output : Array UInt8} {halt : Halt}
    (closed : frame.close output halt = .full) : halt = .full := by
  unfold Frame.close at closed
  split at closed
  · split at closed
    · cases closed
    · split at closed <;> cases closed
  · exact closed

theorem Frame.rest_le_of_close {frame : Frame} {output : Array UInt8} {halt : Halt} {rest : Bytes}
    (closed : frame.close output halt = .complete rest) :
    ∃ whole, halt = .complete whole ∧ rest.length ≤ whole.length := by
  unfold Frame.close at closed
  split at closed
  · next whole =>
    split at closed
    · cases closed
    · split at closed
      · cases closed
        exact ⟨whole, rfl, by simp⟩
      · cases closed
  · exact ⟨rest, closed, Nat.le_refl _⟩

/-! ### Pieces -/

/-- The room up to the next multiple of the piece size. -/
def nextRoom (size : Nat) : Nat := pieceSize * (size / pieceSize + 1)

/-- Runs the machine for one piece. -/
def decodePiece (frame : Frame) (decoder : Decoder) : Decoder × Halt :=
  let stopped := decoder.run (some (nextRoom decoder.output.size))
  (stopped.1, frame.close stopped.1.output stopped.2)

/-- A machine that stops after a piece for want of room has made progress. -/
theorem before_of_decodePiece {frame : Frame} {decoder last : Decoder}
    (decoded : decodePiece frame decoder = (last, .full)) : last.Before decoder := by
  simp only [decodePiece, Prod.mk.injEq] at decoded
  obtain ⟨rfl, closed⟩ := decoded
  have halted := Frame.eq_full_of_close closed
  rcases Decoder.run_before_or_eq (Prod.ext rfl halted) with before | ⟨_, full⟩
  · exact before
  · have used : nextRoom decoder.output.size ≤ decoder.output.size := by
      simpa using (Bool.and_eq_true_iff.mp full).2
    simp only [nextRoom, pieceSize] at used
    omega

/-- A machine that completes the stream in a piece leaves no more bytes than there were. -/
theorem rest_le_of_decodePiece {frame : Frame} {decoder last : Decoder} {rest : Bytes}
    (decoded : decodePiece frame decoder = (last, .complete rest)) :
    8 * rest.length ≤ decoder.reader.size := by
  simp only [decodePiece, Prod.mk.injEq] at decoded
  obtain ⟨rfl, closed⟩ := decoded
  obtain ⟨whole, halted, le⟩ := Frame.rest_le_of_close closed
  have left := Decoder.rest_le_of_run (Prod.ext rfl halted)
  omega

/-- What the machine has written since the output had a given size. -/
def writtenSince (before : Nat) (decoder : Decoder) : Bytes :=
  (decoder.output.extract before decoder.output.size).toList

/-- Whether the decoder goes on after a piece without a look at the limit: the piece leaves room in the
buffer, and there are bytes to be read. -/
def goesOn (buffer : Buffer) (piece : Bytes) (decoder : Decoder) : Bool :=
  decide (piece.length < buffer.room) && !decoder.reader.bytes.isEmpty

section Decoding

variable [Memory]

/-- The buffer after a piece at whose end the machine stopped for want of room. -/
def takePiece (limit : Nat) (buffer : Buffer) (piece : Bytes) (decoder : Decoder) :
    Except Failure Buffer :=
  if goesOn buffer piece decoder then .ok (buffer.append piece) else buffer.deliver limit piece

/-! ### Streams -/

/-- Goes on decoding into a buffer. -/
def decodeOn (frame : Frame) (limit : Nat) (decoder : Decoder) (buffer : Buffer) :
    Except Failure (Bytes × Buffer) := do
  let roomy ← buffer.makeRoom limit
  let written := writtenSince decoder.output.size
  match decoded : decodePiece frame decoder with
  | (_, .fault) => .error (.corrupt Failure.deflateDetail)
  | (last, .short) =>
    let _ ← roomy.deliver limit (written last)
    .error .truncated
  | (last, .complete rest) =>
    let filled ← roomy.deliver limit (written last)
    .ok (rest, filled)
  | (last, .full) =>
    have : last.Before decoder := before_of_decodePiece decoded
    let filled ← takePiece limit roomy (written last) last
    decodeOn frame limit last filled
termination_by (decoder.reader.size, decoder.phase.weight)
decreasing_by exact Decoder.Before.lex this

/-- Decodes the stream at the front of the input into a buffer. Gives the bytes after the stream and
the buffer. -/
def decodeInto (frame : Frame) (limit : Nat) (input : Bytes) (buffer : Buffer) :
    Except Failure (Bytes × Buffer) :=
  decodeOn frame limit (Decoder.start input) buffer

theorem length_le_of_decodeOn {frame : Frame} {limit : Nat} {decoder : Decoder}
    {buffer filled : Buffer} {rest : Bytes}
    (decoded : decodeOn frame limit decoder buffer = .ok (rest, filled)) :
    8 * rest.length ≤ decoder.reader.size := by
  rw [decodeOn] at decoded
  cases made : buffer.makeRoom limit with
  | error failure => simp [made, bind, Except.bind] at decoded
  | ok roomy =>
    simp only [made, bind, Except.bind] at decoded
    split at decoded
    · cases decoded
    · split at decoded <;> cases decoded
    · next piece =>
      split at decoded
      · cases decoded
      · cases decoded
        exact rest_le_of_decodePiece piece
    · next last piece =>
      split at decoded
      · cases decoded
      · have before := before_of_decodePiece piece
        have left := length_le_of_decodeOn decoded
        have fewer := before.size_le
        omega
termination_by (decoder.reader.size, decoder.phase.weight)
decreasing_by apply Decoder.Before.lex; assumption

/-- A stream leaves no more bytes than there were. -/
theorem length_le_of_decodeInto {frame : Frame} {limit : Nat} {input rest : Bytes}
    {buffer filled : Buffer}
    (decoded : decodeInto frame limit input buffer = .ok (rest, filled)) :
    rest.length ≤ input.length := by
  have left := length_le_of_decodeOn decoded
  simp only [Decoder.start, Deflate.BitReader.ofBytes, Deflate.BitReader.size,
    List.length_nil] at left
  omega

end Decoding

end Inflate
