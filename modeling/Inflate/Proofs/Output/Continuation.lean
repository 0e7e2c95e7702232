/-
**Decoding an input that goes on.**

A decoder at the end of its input cannot know whether more bytes follow. What it has said by then holds
with any bytes behind the input: a stream that was complete is complete at the same place and fills the
buffer in the same way, and a fault stays a fault. Only of an input that was too short it may say
something else later, and then the stream ends in the new bytes. This holds of the buffer as it grows,
too: with more bytes behind it the decoder looks at the limit less often, and at no other time.

* `Continues`: how decoding ends with more bytes behind the input, beside how it ends without them;
* `takePiece_extend`: more bytes leave a piece to the same buffer, if the limit is kept;
* `continues_decodeOn`, `continues_decodeInto`: decoding, with more bytes and without.
-/

import Inflate.Proofs.Gzip.HeaderText
import Inflate.Proofs.Output.Limit

namespace Inflate

open Deflate (Decoder Halt inflate)

/-! ### Runs with more bytes behind them -/

/-- A verdict that is not short is the same with more bytes behind the stream. -/
theorem Frame.close_extend {frame : Frame} {output : Array UInt8} {halt : Halt}
    (enough : frame.close output halt ≠ .short) (more : Bytes) :
    frame.close output (halt.extend more) = (frame.close output halt).extend more := by
  cases frame with
  | bare => rfl
  | checked =>
    cases halt with
    | short | fault | full => rfl
    | complete rest =>
      simp only [Frame.close] at enough
      by_cases few : rest.length < 4
      · rw [if_pos few] at enough
        exact absurd rfl enough
      have still : ¬(rest ++ more).length < 4 := by
        rw [List.length_append]
        omega
      have front : (rest ++ more).take 4 = rest.take 4 :=
        List.take_append_of_le_length (Nat.not_lt.mp few)
      have back : (rest ++ more).drop 4 = rest.drop 4 ++ more :=
        List.drop_append_of_le_length (Nat.not_lt.mp few)
      simp only [Halt.extend, Frame.close, if_neg few, if_neg still, front, back]
      split <;> rfl

namespace Deflate

namespace Decoder

/-- More bytes behind the input only add to the output. -/
theorem prefix_run_extend (decoder : Decoder) (room : Option Nat) (more : Bytes) :
    (decoder.run room).1.output.toList <+: ((decoder.extend more).run room).1.output.toList := by
  induction decoder using run_induction with
  | next decoder later steps ih =>
    by_cases full : decoder.isFull room = true
    · rw [run_room_of_full full, run_room_of_full ((decoder.isFull_extend room more).trans full)]
      exact List.prefix_refl _
    have free := Bool.eq_false_iff.mpr full
    have extended := step_extend (fun last stops => by cases steps.symm.trans stops) more
    rw [steps] at extended
    rw [run_room_of_next free steps,
      run_room_of_next ((decoder.isFull_extend room more).trans free) extended]
    exact ih
  | halt decoder last stop steps =>
    have kept := prefix_of_run (decoder.extend more) room
    by_cases full : decoder.isFull room = true
    · rw [run_room_of_full full]
      exact kept
    rw [run_room_of_halt (Bool.eq_false_iff.mpr full) steps, output_of_halt steps]
    exact kept

end Decoder

end Deflate

section Pieces

variable {frame : Frame} {decoder last : Decoder} {more : Bytes}

/-- A piece that is not short is the same with more bytes behind the input. -/
theorem decodePiece_extend {halt : Halt} (piece : decodePiece frame decoder = (last, halt))
    (enough : halt ≠ .short) (more : Bytes) :
    decodePiece frame (decoder.extend more) = (last.extend more, halt.extend more) := by
  simp only [decodePiece, Prod.mk.injEq] at piece
  obtain ⟨rfl, rfl⟩ := piece
  have running : (decoder.run (some (nextRoom decoder.output.size))).2 ≠ .short := by
    intro short
    rw [short] at enough
    cases frame <;> exact enough rfl
  have extended := decoder.run_extend (some (nextRoom decoder.output.size)) running more
  have room : (decoder.extend more).output.size = decoder.output.size := rfl
  simp only [decodePiece, room, extended]
  exact Prod.ext rfl (Frame.close_extend enough more)

/-- What a piece writes is the beginning of what it writes with more bytes behind the input. -/
theorem writtenSince_prefix_extend (frame : Frame) (decoder : Decoder) (more : Bytes) :
    writtenSince decoder.output.size (decodePiece frame decoder).1 <+:
      writtenSince (decoder.extend more).output.size (decodePiece frame (decoder.extend more)).1 := by
  rw [writtenSince_eq, writtenSince_eq]
  obtain ⟨added, grown⟩ := decoder.prefix_run_extend (some (nextRoom decoder.output.size)) more
  show (decoder.run (some (nextRoom decoder.output.size))).1.output.toList.drop decoder.output.size <+:
    ((decoder.extend more).run (some (nextRoom decoder.output.size))).1.output.toList.drop
      decoder.output.size
  rw [← grown, List.drop_append]
  exact List.prefix_append _ _

/-- A short stream that more bytes complete ends in them. -/
theorem length_rest_lt_of_close {rest : Bytes}
    (short : frame.close (decoder.run none).1.output (decoder.run none).2 = .short)
    (completes : frame.close ((decoder.extend more).run none).1.output
      ((decoder.extend more).run none).2 = .complete rest) : rest.length < more.length := by
  by_cases running : (decoder.run none).2 = .short
  · obtain ⟨whole, halted, le⟩ := Frame.rest_le_of_close completes
    have less := Decoder.length_rest_lt decoder running more halted
    omega
  · -- the body is complete, and what is missing is a part of the checksum
    rw [decoder.run_extend none running more] at completes
    cases frame with
    | bare => exact absurd short running
    | checked =>
      cases halted : (decoder.run none).2 with
      | short => exact absurd halted running
      | fault | full => rw [halted] at completes; cases completes
      | complete left =>
        rw [halted] at short completes
        simp only [Frame.close] at short
        by_cases few : left.length < 4
        · simp only [Halt.extend, Frame.close] at completes
          by_cases still : (left ++ more).length < 4
          · rw [if_pos still] at completes
            cases completes
          rw [if_neg still] at completes
          split at completes
          · cases completes
            rw [List.length_append] at still
            rw [List.length_drop, List.length_append]
            omega
          · cases completes
        · rw [if_neg few] at short
          split at short <;> cases short

end Pieces

/-! ### Pieces in the buffer -/

namespace Buffer

variable {limit : Nat} {buffer : Buffer}

theorem append_nil (buffer : Buffer) : buffer.append [] = buffer := by
  simp [append]

theorem checkLimit_of_le (under : buffer.size ≤ limit) : buffer.checkLimit limit = .ok buffer :=
  if_neg (Nat.not_lt.mpr under)

theorem size_append (buffer : Buffer) (piece : Bytes) :
    (buffer.append piece).size = buffer.size + piece.length := by
  simp [append, size]

/-- A piece that leaves room is appended, and the limit is looked at. -/
theorem deliver_of_fits {piece : Bytes} (fits : piece.length < buffer.room) :
    buffer.deliver limit piece = (buffer.append piece).checkLimit limit := by
  by_cases empty : piece = []
  · rw [empty, deliver_nil, append_nil]
  have free : ¬buffer.capacity ≤ buffer.size := by
    simp only [room] at fits
    omega
  have made : buffer.makeRoom limit = .ok buffer := if_neg free
  have whole := Nat.le_of_lt fits
  rw [deliver_of_ne_nil limit buffer empty, bind_of_ok made, List.take_of_length_le whole,
    List.drop_of_length_le whole]
  by_cases beyond : limit < (buffer.append piece).size
  · have refused : (buffer.append piece).checkLimit limit = .error (.outputLimitExceeded limit) :=
      if_pos beyond
    rw [refused]
    rfl
  · rw [checkLimit_of_le (Nat.not_lt.mp beyond), bind_of_ok rfl, deliver_nil,
      checkLimit_of_le (Nat.not_lt.mp beyond)]

/-- If a piece can be delivered, so can its beginning. -/
theorem deliver_front {buffer : Buffer} (sound : buffer.Sound) {front back : Bytes} {filled : Buffer}
    (delivered : buffer.deliver limit (front ++ back) = .ok filled) :
    ∃ part, buffer.deliver limit front = .ok part := by
  by_cases empty : front = []
  · have holds := (deliver_spec limit sound (front ++ back)).of_ok delivered
    have total : filled.size = buffer.size + (front ++ back).length := by
      rw [holds.size_eq, List.length_append, Array.length_toList, size]
    have under := holds.under
    rw [empty, deliver_nil]
    exact ⟨buffer, checkLimit_of_le (by omega)⟩
  have nonempty : front ++ back ≠ [] := fun nothing => empty (List.append_eq_nil_iff.mp nothing).1
  rw [deliver_of_ne_nil limit buffer nonempty] at delivered
  obtain ⟨roomy, made, delivered⟩ := ok_of_bind delivered
  obtain ⟨filledPart, passed, delivered⟩ := ok_of_bind delivered
  rw [deliver_of_ne_nil limit buffer empty, bind_of_ok made]
  have positive := room_pos_of_makeRoom made
  have roomySound := ((makeRoom_spec limit sound).of_ok made).2
  have partSound := sound_append roomySound
    (List.length_take_le roomy.room (front ++ back))
  obtain ⟨rfl, under⟩ := (checkLimit_spec limit partSound).of_ok passed
  by_cases fits : front.length ≤ roomy.room
  · -- the beginning ends within the first part, which kept to the limit as a whole
    have within : (roomy.append front).size ≤ limit := by
      rw [size_append] at under ⊢
      rw [List.length_take, List.length_append] at under
      omega
    rw [List.take_of_length_le fits, List.drop_of_length_le fits, checkLimit_of_le within,
      bind_of_ok rfl, deliver_nil, checkLimit_of_le within]
    exact ⟨_, rfl⟩
  · have enough := Nat.le_of_not_le fits
    rw [List.take_append_of_le_length enough] at passed delivered partSound
    rw [List.drop_append_of_le_length enough] at delivered
    rw [passed, bind_of_ok rfl]
    have fewer : (front.drop roomy.room).length < front.length := by
      rw [List.length_drop]
      omega
    exact deliver_front partSound delivered
termination_by front.length

end Buffer

/-- **A piece with more bytes behind the input** is left to the same buffer, unless it goes beyond the
limit and only then without a look at it. -/
theorem takePiece_extend (limit : Nat) (buffer : Buffer) (piece : Bytes) (last : Decoder)
    (more : Bytes) :
    takePiece limit buffer piece (last.extend more) = takePiece limit buffer piece last ∨
      takePiece limit buffer piece last = .error (.outputLimitExceeded limit) ∧
        takePiece limit buffer piece (last.extend more) = .ok (buffer.append piece) ∧
          limit < (buffer.append piece).size := by
  by_cases on : goesOn buffer piece last = true
  · have still : goesOn buffer piece (last.extend more) = true := by
      simp only [goesOn, Bool.and_eq_true, Bool.not_eq_true', List.isEmpty_eq_false_iff] at on ⊢
      exact ⟨on.1, List.append_ne_nil_of_left_ne_nil on.2 more⟩
    left
    rw [takePiece, if_pos still, takePiece, if_pos on]
  · rw [takePiece.eq_def limit buffer piece last, if_neg on]
    by_cases further : goesOn buffer piece (last.extend more) = true
    · have fits : piece.length < buffer.room := by
        simp only [goesOn, Bool.and_eq_true, decide_eq_true_eq] at further
        exact further.1
      rw [takePiece, if_pos further, Buffer.deliver_of_fits fits]
      by_cases beyond : limit < (buffer.append piece).size
      · exact Or.inr ⟨if_pos beyond, rfl, beyond⟩
      · exact Or.inl (Buffer.checkLimit_of_le (Nat.not_lt.mp beyond)).symm
    · left
      rw [takePiece, if_neg further]

/-! ### Decoding -/

/-- How decoding ends with more bytes behind the input, beside how it ends without them: it completes
the same stream, or meets the same fault, or fails for a limit or for want of memory in both, or
completes a stream that was short and ends in the new bytes. -/
inductive Continues (more : Bytes) :
    Except Failure (Bytes × Buffer) → Except Failure (Bytes × Buffer) → Prop where
  | complete (rest : Bytes) (filled : Buffer) :
    Continues more (.ok (rest, filled)) (.ok (rest ++ more, filled))
  | truncated {whole : Except Failure (Bytes × Buffer)}
    (crossed : ∀ rest filled, whole = .ok (rest, filled) → rest.length < more.length) :
    Continues more (.error .truncated) whole
  | failed {failure other : Failure} (same : ∀ detail, failure = .corrupt detail → other = failure) :
    Continues more (.error failure) (.error other)

/-- An operation that does not look at the input stands before both. -/
theorem Continues.bind {α : Type} {more : Bytes} {first : Except Failure α}
    {next whole : α → Except Failure (Bytes × Buffer)}
    (onValue : ∀ value, first = .ok value → Continues more (next value) (whole value)) :
    Continues more (first >>= next) (first >>= whole) := by
  cases first with
  | ok value => exact onValue value rfl
  | error failure => exact .failed fun _ _ => rfl

/-- A failure that is no fault, and that more bytes do not mend. -/
theorem Continues.of_fails {more : Bytes} {failure : Failure}
    {whole : Except Failure (Bytes × Buffer)} (faultless : ∀ detail, failure ≠ .corrupt detail)
    (fails : ∀ result, whole ≠ .ok result) : Continues more (.error failure) whole := by
  cases whole with
  | ok result => exact absurd rfl (fails result)
  | error other => exact .failed fun detail corrupt => absurd corrupt (faultless detail)

/-- What is completed without more bytes is completed with them. -/
theorem Continues.of_complete {more rest : Bytes} {filled : Buffer}
    {whole : Except Failure (Bytes × Buffer)} (continues : Continues more (.ok (rest, filled)) whole) :
    whole = .ok (rest ++ more, filled) := by
  cases continues with
  | complete rest filled => rfl

/-- What is completed with more bytes is completed without them, or is too short without them. -/
theorem Continues.of_whole {more rest : Bytes} {filled : Buffer}
    {outcome : Except Failure (Bytes × Buffer)}
    (continues : Continues more outcome (.ok (rest, filled))) :
    (∃ left, rest = left ++ more ∧ outcome = .ok (left, filled)) ∨
      rest.length < more.length ∧ outcome = .error .truncated := by
  cases continues with
  | complete left filled => exact Or.inl ⟨left, rfl, rfl⟩
  | truncated crossed => exact Or.inr ⟨crossed rest filled rfl, rfl⟩

/-- A fault without more bytes is a fault with them. -/
theorem Continues.of_corrupt {more : Bytes} {detail : String}
    {whole : Except Failure (Bytes × Buffer)}
    (continues : Continues more (.error (.corrupt detail)) whole) :
    whole = .error (.corrupt detail) := by
  cases continues with
  | failed same => rw [same detail rfl]

section Decoding

variable {frame : Frame} {limit : Nat} {decoder : Decoder} {buffer : Buffer}

/-- Decoding that succeeds has kept to the limit from the beginning. -/
theorem size_le_of_decodeOn (sound : buffer.Sound) {result : Bytes × Buffer}
    (decoded : decodeOn frame limit decoder buffer = .ok result) : buffer.size ≤ limit := by
  have delivered := decodeOn_spec frame limit decoder sound
  rw [decoded] at delivered
  have holds := delivered.of_ok.2
  have under := holds.under
  rw [holds.size_eq, List.length_append, Array.length_toList] at under
  exact Nat.le_trans (Nat.le_add_right _ _) under

/-- Decoding that succeeds could have stopped anywhere in its first piece. -/
theorem deliver_of_decodeOn (sound : buffer.Sound) {result : Bytes × Buffer}
    (decoded : decodeOn frame limit decoder buffer = .ok result) {front : Bytes}
    (begins : front <+: writtenSince decoder.output.size (decodePiece frame decoder).1) {roomy : Buffer}
    (made : buffer.makeRoom limit = .ok roomy) : ∃ part, roomy.deliver limit front = .ok part := by
  have roomySound := ((buffer.makeRoom_spec limit sound).of_ok made).2
  rcases decodePiece_cases frame decoder with ⟨last, piece, -, -⟩ | ⟨piece, final⟩
  · obtain ⟨back, split⟩ := begins
    rw [piece] at split
    rw [decodeOn_of_full piece, bind_of_ok made, ← split] at decoded
    obtain ⟨filled, taken, decoded⟩ := ok_of_bind decoded
    have filledSound := ((takePiece_spec limit roomySound _ last).of_ok taken).2
    unfold takePiece at taken
    by_cases on : goesOn roomy (front ++ back) last = true
    · rw [if_pos on] at taken
      cases taken
      have under := size_le_of_decodeOn filledSound decoded
      simp only [goesOn, Bool.and_eq_true, decide_eq_true_eq, List.length_append] at on
      have fits : front.length < roomy.room := by omega
      rw [Buffer.size_append, List.length_append] at under
      rw [Buffer.deliver_of_fits fits]
      exact ⟨_, Buffer.checkLimit_of_le (by rw [Buffer.size_append]; omega)⟩
    · rw [if_neg on] at taken
      exact Buffer.deliver_front roomySound taken
  · obtain ⟨back, split⟩ := begins
    rw [piece] at split
    rw [decodeOn_of_final piece final, bind_of_ok made, ← split] at decoded
    unfold finish at decoded
    split at decoded
    · cases decoded
    · obtain ⟨filled, taken, -⟩ := ok_of_bind decoded
      exact Buffer.deliver_front roomySound taken
    · obtain ⟨filled, -, decoded⟩ := ok_of_bind decoded
      cases decoded

/-- Decoding fails where there is no room to begin with. -/
theorem decodeOn_of_error {failure : Failure} (refused : buffer.makeRoom limit = .error failure) :
    decodeOn frame limit decoder buffer = .error failure := by
  rw [decodeOn, refused]
  rfl

/-- Decoding an input that is too short fails, and what more bytes complete ends in them. -/
theorem continues_of_short (sound : buffer.Sound) {last : Decoder}
    (piece : decodePiece frame decoder = (last, .short))
    (short : frame.close (decoder.run none).1.output (decoder.run none).2 = .short) (more : Bytes) :
    Continues more (decodeOn frame limit decoder buffer)
      (decodeOn frame limit (decoder.extend more) buffer) := by
  have begins := writtenSince_prefix_extend frame decoder more
  have verdict := decodeOn_spec frame limit (decoder.extend more) sound
  rw [decodeOn_of_final piece Halt.noConfusion]
  rw [piece] at begins
  cases made : buffer.makeRoom limit with
  | error failure =>
    rw [decodeOn_of_error made]
    exact .failed fun _ _ => rfl
  | ok roomy =>
    have roomySound := ((buffer.makeRoom_spec limit sound).of_ok made).2
    rw [bind_of_ok rfl]
    show Continues more (roomy.deliver limit (writtenSince decoder.output.size last) >>=
      fun _ => .error .truncated) _
    cases delivered : roomy.deliver limit (writtenSince decoder.output.size last) with
    | error failure =>
      refine .of_fails ?_ ?_
      · rintro detail rfl
        have refused := roomy.deliver_spec limit roomySound (writtenSince decoder.output.size last)
        rw [delivered] at refused
        cases refused
      · intro result decoded
        obtain ⟨part, passed⟩ := deliver_of_decodeOn sound decoded begins made
        cases delivered.symm.trans passed
    | ok part =>
      refine .truncated fun rest filled decoded => ?_
      rw [decoded] at verdict
      exact length_rest_lt_of_close short verdict.of_ok.1

/-- **Decoding on, with more bytes behind the input and without.** -/
theorem continues_decodeOn (frame : Frame) (limit : Nat) (decoder : Decoder) {buffer : Buffer}
    (sound : buffer.Sound) (more : Bytes) :
    Continues more (decodeOn frame limit decoder buffer)
      (decodeOn frame limit (decoder.extend more) buffer) := by
  induction decoder using decodePiece_induction frame generalizing buffer with
  | onward decoder last piece whole kept ih =>
    have extended := decodePiece_extend piece Halt.noConfusion more
    rw [decodeOn_of_full piece, decodeOn_of_full extended]
    refine Continues.bind fun roomy made => ?_
    have roomySound := ((buffer.makeRoom_spec limit sound).of_ok made).2
    have written : writtenSince (decoder.extend more).output.size (last.extend more) =
      writtenSince decoder.output.size last := rfl
    rw [written]
    rcases takePiece_extend limit roomy (writtenSince decoder.output.size last) last more with
      same | ⟨refused, taken, beyond⟩
    · rw [same]
      refine Continues.bind fun filled taken => ?_
      exact ih ((takePiece_spec limit roomySound _ last).of_ok taken).2
    · -- only the input without more bytes is held against the limit here, but the other one will be
      have filledSound := ((takePiece_spec limit roomySound _ (last.extend more)).of_ok taken).2
      rw [refused, taken]
      refine .of_fails (fun _ => Failure.noConfusion) fun result decoded => ?_
      exact absurd (size_le_of_decodeOn filledSound decoded) (Nat.not_le.mpr beyond)
  | final decoder piece stops =>
    by_cases short : frame.close (decoder.run none).1.output (decoder.run none).2 = .short
    · rw [short] at piece
      exact continues_of_short sound piece short more
    have extended := decodePiece_extend piece short more
    generalize frame.close (decoder.run none).1.output (decoder.run none).2 = halt at *
    cases halt with
    | short => exact absurd rfl short
    | full => exact absurd rfl stops
    | fault =>
      rw [decodeOn_of_final piece stops, decodeOn_of_final extended stops]
      exact Continues.bind fun roomy _ => .failed fun _ _ => rfl
    | complete rest =>
      rw [decodeOn_of_final piece stops, decodeOn_of_final extended Halt.noConfusion]
      refine Continues.bind fun roomy _ => ?_
      exact Continues.bind fun filled _ => .complete rest filled

/-- **Decoding a stream, with more bytes behind the input and without.** -/
theorem continues_decodeInto (frame : Frame) (limit : Nat) (input : Bytes) {buffer : Buffer}
    (sound : buffer.Sound) (more : Bytes) :
    Continues more (decodeInto frame limit input buffer)
      (decodeInto frame limit (input ++ more) buffer) :=
  continues_decodeOn frame limit (Decoder.start input) sound more

end Decoding

end Inflate
