/-
**How large a piece is.**

A machine that runs within a room never writes past it, and when it stops for want of room it has used
all of it. The room of a piece reaches to the next multiple of the piece size. So every piece but the last
one ends at such a multiple, and the output tells how many pieces there are.

* `size_run_le`, `room_le_of_full`: what a run within a room has written;
* `length_writtenSince_le`: a piece has at most the piece size;
* `size_le_of_final`: the last piece keeps to the next multiple of the piece size;
* `final_of_lt_nextRoom`: an output that keeps below it is decoded in one piece;
* `pieces`, `pieces_lt_of_full`: how many pieces a machine still decodes.
-/

import Inflate.Proofs.Output.Delivery

namespace Inflate

open Deflate (Decoder Halt inflate)

/-! ### Runs within their room -/

namespace Deflate

namespace Decoder

open Reading (read_of_map)

/-- A step adds one byte to the output if it is one that writes, and else nothing. -/
theorem size_of_step {decoder later : Decoder} (steps : decoder.step = .next later) :
    later.output.size = decoder.output.size + decoder.writes.toNat := by
  cases moved : reading decoder.output decoder.phase decoder.reader with
  | short => cases (step_of_short moved).symm.trans steps
  | fault => cases (step_of_fault moved).symm.trans steps
  | read move rest =>
    rw [step_of_read moved] at steps
    obtain ⟨reader, output, phase⟩ := decoder
    cases phase with
    | header =>
      obtain ⟨header, -, rfl⟩ := read_of_map moved
      cases steps
      rfl
    | stored final left =>
      cases left with
      | zero =>
        cases moved
        cases final <;> cases steps
        rfl
      | succ left =>
        obtain ⟨byte, -, rfl⟩ := read_of_map moved
        cases steps
        exact Array.size_push _
    | items final codes =>
      obtain ⟨item, -, rfl⟩ := read_of_map moved
      cases item with
      | literal byte | copy length distance =>
        cases steps
        rfl
      | endOfBlock =>
        cases final <;> cases steps
        rfl
    | literal final codes byte =>
      cases moved
      cases steps
      exact Array.size_push _
    | copy final codes left distance =>
      cases left <;> cases moved <;> cases steps
      · rfl
      · exact Array.size_push _

/-- A run never writes past its room. -/
theorem size_run_le (decoder : Decoder) {room : Nat} (fits : decoder.output.size ≤ room) :
    (decoder.run (some room)).1.output.size ≤ room := by
  induction decoder using run_induction with
  | next decoder later steps ih =>
    by_cases full : decoder.isFull (some room) = true
    · rw [run_room_of_full full]
      exact fits
    · have free := Bool.eq_false_iff.mpr full
      rw [run_room_of_next free steps]
      apply ih
      -- only a step that writes adds to the output, and then there is room for it
      rw [size_of_step steps]
      cases writes : decoder.writes with
      | false => exact fits
      | true =>
        have left : decoder.output.size < room := by
          simpa [isFull, writes] using free
        exact left
  | halt decoder last stop steps =>
    by_cases full : decoder.isFull (some room) = true
    · rw [run_room_of_full full]
      exact fits
    · rw [run_room_of_halt (Bool.eq_false_iff.mpr full) steps, output_of_halt steps]
      exact fits

/-- A run that stops for want of room has used up its room. -/
theorem room_le_of_full {decoder : Decoder} {room : Nat}
    (full : (decoder.run (some room)).2 = .full) :
    room ≤ (decoder.run (some room)).1.output.size := by
  induction decoder using run_induction with
  | next decoder later steps ih =>
    by_cases stops : decoder.isFull (some room) = true
    · rw [run_room_of_full stops]
      simpa using (Bool.and_eq_true_iff.mp stops).2
    · rw [run_room_of_next (Bool.eq_false_iff.mpr stops) steps] at full ⊢
      exact ih full
  | halt decoder last stop steps =>
    by_cases stops : decoder.isFull (some room) = true
    · rw [run_room_of_full stops]
      simpa using (Bool.and_eq_true_iff.mp stops).2
    · rw [run_room_of_halt (Bool.eq_false_iff.mpr stops) steps] at full
      exact absurd full (ne_full_of_step steps)

end Decoder

end Deflate

/-! ### Pieces -/

theorem le_nextRoom (size : Nat) : size ≤ nextRoom size := by
  have parts := Nat.div_add_mod size pieceSize
  have small : size % pieceSize < pieceSize := Nat.mod_lt _ (by decide)
  rw [nextRoom, Nat.mul_add]
  omega

theorem nextRoom_le (size : Nat) : nextRoom size ≤ size + pieceSize := by
  rw [nextRoom, Nat.mul_succ]
  exact Nat.add_le_add_right (Nat.mul_div_le size pieceSize) pieceSize

theorem nextRoom_mono {size more : Nat} (le : size ≤ more) : nextRoom size ≤ nextRoom more :=
  Nat.mul_le_mul_left _ (Nat.add_le_add_right (Nat.div_le_div_right le) 1)

/-- A piece that is the last one keeps to the next multiple of the piece size. -/
theorem size_le_of_final {frame : Frame} {decoder : Decoder} {halt : Halt}
    (piece : decodePiece frame decoder = ((decoder.run none).1, halt)) :
    (decoder.run none).1.output.size ≤ nextRoom decoder.output.size := by
  have same : (decoder.run (some (nextRoom decoder.output.size))).1 = (decoder.run none).1 :=
    (Prod.ext_iff.mp piece).1
  rw [← same]
  exact decoder.size_run_le (le_nextRoom decoder.output.size)

/-- A machine whose whole output keeps below the next multiple of the piece size decodes one piece. -/
theorem final_of_lt_nextRoom (frame : Frame) {decoder : Decoder}
    (few : (decoder.run none).1.output.size < nextRoom decoder.output.size) :
    decodePiece frame decoder =
      ((decoder.run none).1, frame.close (decoder.run none).1.output (decoder.run none).2) ∧
    frame.close (decoder.run none).1.output (decoder.run none).2 ≠ .full := by
  rcases decodePiece_cases frame decoder with ⟨last, piece, whole, -⟩ | final
  · simp only [decodePiece, Prod.mk.injEq] at piece
    obtain ⟨rfl, closed⟩ := piece
    have used := Deflate.Decoder.room_le_of_full (Frame.eq_full_of_close closed)
    have kept := ((decoder.run (some (nextRoom decoder.output.size))).1.prefix_of_run none).length_le
    rw [← whole, Array.length_toList, Array.length_toList] at kept
    omega
  · exact final

/-- A piece has at most the piece size. -/
theorem length_writtenSince_le (frame : Frame) (decoder : Decoder) :
    (writtenSince decoder.output.size (decodePiece frame decoder).1).length ≤ pieceSize := by
  have within := decoder.size_run_le (le_nextRoom decoder.output.size)
  have room := nextRoom_le decoder.output.size
  rw [writtenSince_eq, List.length_drop, Array.length_toList]
  simp only [decodePiece]
  omega

/-- How many pieces a machine still decodes. -/
def pieces (decoder : Decoder) : Nat :=
  (decoder.run none).1.output.size / pieceSize - decoder.output.size / pieceSize + 1

/-- A piece at whose end the machine stops for want of room is one of those counted. -/
theorem pieces_lt_of_full {frame : Frame} {decoder last : Decoder}
    (piece : decodePiece frame decoder = (last, .full)) : pieces last < pieces decoder := by
  simp only [decodePiece, Prod.mk.injEq] at piece
  obtain ⟨rfl, closed⟩ := piece
  have full := Frame.eq_full_of_close closed
  have whole := decoder.run_none_eq (some (nextRoom decoder.output.size))
  rw [if_pos full] at whole
  have used := Deflate.Decoder.room_le_of_full full
  generalize (decoder.run (some (nextRoom decoder.output.size))).1 = last at used whole
  have kept := (last.prefix_of_run none).length_le
  rw [Array.length_toList, Array.length_toList] at kept
  -- the piece fills its room, which ends at the next multiple of the piece size
  have next : decoder.output.size / pieceSize + 1 ≤ last.output.size / pieceSize := by
    rw [Nat.le_div_iff_mul_le (by decide), Nat.mul_comm]
    exact used
  have others : last.output.size / pieceSize ≤ (last.run none).1.output.size / pieceSize :=
    Nat.div_le_div_right kept
  rw [pieces, pieces, whole]
  omega

end Inflate
