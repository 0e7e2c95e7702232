/-
**The turns of decoding.**

Decoding goes round in turns. A turn begins with more capacity for a buffer that is full. Then either the
next piece is decoded, or as much of the piece at hand as fits is moved into the buffer and the limit is
looked at. A turn that only gives the rest of a piece more room reads nothing, so what ends the rounds
cannot be the input alone: it is the count of pieces that are still to come, and of the turns that the
piece at hand can take in a buffer that at least doubles.

* `Progress.turn`: one turn; `Progress.after`: some turns;
* `outcome_turn`: a turn changes nothing in what decoding comes to;
* `kept_turn`: what the buffer holds has been decoded, and no more than a piece waits to be moved;
* `remaining_turn_lt`: every turn brings decoding closer to its end;
* `allowance_turn_le`: a turn keeps within the allowance of the machine;
* `exists_ended`, `exists_ended_decodeInto`: decoding ends, and soon.
-/

import Mathlib.Logic.Function.Iterate
import Inflate.Proofs.Deflate.Expansion
import Inflate.Proofs.Output.PieceSize

namespace Inflate

open Deflate (Decoder Halt inflate ratio)

/-! ### Turns -/

/-- Where the decoding of a stream stands: before a piece, with the rest of a piece to be moved into the
buffer, or at its end. -/
inductive Progress where
  | decoding (decoder : Decoder) (buffer : Buffer)
  | delivering (decoder : Decoder) (halt : Halt) (piece : Bytes) (buffer : Buffer)
  | ended (decoder : Decoder) (outcome : Except Failure (Bytes × Buffer))

namespace Progress

/-- The machine, with all that it has decoded of the stream. -/
def decoder : Progress → Decoder
  | decoding decoder _ | delivering decoder _ _ _ | ended decoder _ => decoder

/-- The buffer of a decoding that has not ended. -/
def buffer? : Progress → Option Buffer
  | decoding _ buffer | delivering _ _ _ buffer => some buffer
  | ended _ _ => none

/-- What has been decoded and not yet been moved into the buffer. -/
def waiting : Progress → Bytes
  | delivering _ _ piece _ => piece
  | decoding _ _ | ended _ _ => []

/-- A failure ends the decoding. -/
def orEnd {α : Type} (decoder : Decoder) (outcome : Except Failure α) (next : α → Progress) :
    Progress :=
  match outcome with
  | .ok value => next value
  | .error failure => ended decoder (.error failure)

/-- What follows when the machine has stopped after a piece: a fault ends the decoding at once. -/
def afterPiece (roomy : Buffer) (before : Nat) : Decoder × Halt → Progress
  | (last, .fault) => ended last (.error (.corrupt Failure.deflateDetail))
  | (last, .full) =>
    if goesOn roomy (writtenSince before last) last then
      decoding last (roomy.append (writtenSince before last))
    else delivering last .full (writtenSince before last) roomy
  | (last, halt) => delivering last halt (writtenSince before last) roomy

/-- What follows when the whole of a piece is in the buffer. -/
def afterDelivery (decoder : Decoder) (filled : Buffer) : Halt → Progress
  | .complete rest => ended decoder (.ok (rest, filled))
  | .full => decoding decoder filled
  | _ => ended decoder (.error .truncated)

/-- **One turn.** -/
def turn (frame : Frame) (limit : Nat) : Progress → Progress
  | decoding decoder buffer =>
    orEnd decoder (buffer.makeRoom limit) fun roomy =>
      afterPiece roomy decoder.output.size (decodePiece frame decoder)
  | delivering decoder halt [] buffer =>
    orEnd decoder (buffer.checkLimit limit) fun filled => afterDelivery decoder filled halt
  | delivering decoder halt piece buffer =>
    orEnd decoder (buffer.makeRoom limit) fun roomy =>
      orEnd decoder ((roomy.append (piece.take roomy.room)).checkLimit limit) fun filled =>
        delivering decoder halt (piece.drop roomy.room) filled
  | ended decoder outcome => ended decoder outcome

/-- Some turns. -/
def after (frame : Frame) (limit turns : Nat) (progress : Progress) : Progress :=
  (turn frame limit)^[turns] progress

theorem after_succ (frame : Frame) (limit turns : Nat) (progress : Progress) :
    progress.after frame limit (turns + 1) = (progress.turn frame limit).after frame limit turns :=
  Function.iterate_succ_apply _ _ _

/-- What a turn keeps, all turns keep. -/
theorem after_induction {frame : Frame} {limit : Nat} {holds : Progress → Prop}
    (step : ∀ progress, holds progress → holds (progress.turn frame limit)) {progress : Progress}
    (start : holds progress) (turns : Nat) : holds (progress.after frame limit turns) := by
  induction turns generalizing progress with
  | zero => exact start
  | succ turns ih =>
    rw [after_succ]
    exact ih (step progress start)

section Turns

variable {frame : Frame} {limit : Nat}

/-! ### The outcome -/

/-- What decoding comes to when a piece has still to be moved into the buffer. -/
def onward (frame : Frame) (limit : Nat) (decoder : Decoder) (halt : Halt) (filled : Buffer) :
    Except Failure (Bytes × Buffer) :=
  match halt with
  | .complete rest => .ok (rest, filled)
  | .full => decodeOn frame limit decoder filled
  | _ => .error .truncated

/-- What decoding comes to. -/
def outcome (frame : Frame) (limit : Nat) : Progress → Except Failure (Bytes × Buffer)
  | decoding decoder buffer => decodeOn frame limit decoder buffer
  | delivering decoder halt piece buffer =>
    buffer.deliver limit piece >>= onward frame limit decoder halt
  | ended _ outcome => outcome

theorem outcome_orEnd {α : Type} (decoder : Decoder) (result : Except Failure α)
    (next : α → Progress) :
    (orEnd decoder result next).outcome frame limit =
      result >>= fun value => (next value).outcome frame limit := by
  cases result <;> rfl

/-- After a piece, decoding comes to what it came to before. -/
theorem outcome_afterPiece {decoder last : Decoder} {halt : Halt}
    (piece : decodePiece frame decoder = (last, halt)) (buffer : Buffer) :
    (buffer.makeRoom limit >>= fun roomy =>
      (afterPiece roomy decoder.output.size (last, halt)).outcome frame limit) =
        decodeOn frame limit decoder buffer := by
  by_cases full : halt = .full
  · subst full
    rw [decodeOn_of_full piece]
    congr 1
    funext roomy
    simp only [afterPiece, takePiece]
    split <;> rfl
  · rw [decodeOn_of_final piece full]
    cases halt with
    | full => exact absurd rfl full
    | complete rest | short | fault => rfl

/-- **A turn changes nothing in what decoding comes to.** -/
theorem outcome_turn (progress : Progress) :
    (progress.turn frame limit).outcome frame limit = progress.outcome frame limit := by
  cases progress with
  | decoding decoder buffer =>
    rw [turn, outcome_orEnd]
    exact outcome_afterPiece rfl buffer
  | delivering decoder halt piece buffer =>
    cases piece with
    | nil =>
      rw [turn, outcome_orEnd, outcome, Buffer.deliver_nil]
      congr 1
      funext filled
      cases halt <;> rfl
    | cons byte rest =>
      rw [outcome, Buffer.deliver_of_ne_nil limit buffer (List.cons_ne_nil _ _), bind_assoc]
      show (orEnd _ _ _).outcome frame limit = _
      rw [outcome_orEnd]
      congr 1
      funext roomy
      rw [outcome_orEnd, bind_assoc]
      rfl
  | ended decoder result => rfl

/-! ### What a turn keeps -/

/-- What holds throughout the decoding of a stream into a buffer that held some bytes before: a buffer
that could be reserved, what it holds and what waits to be moved into it has been decoded, and no more
than a piece is waiting. -/
structure Kept (held : Bytes) (progress : Progress) : Prop where
  sound : ∀ buffer ∈ progress.buffer?, buffer.Sound
  carries : ∀ buffer ∈ progress.buffer?,
    buffer.bytes.toList ++ progress.waiting = held ++ progress.decoder.output.toList
  small : progress.waiting.length ≤ pieceSize

variable {held : Bytes}

theorem kept_ended (held : Bytes) (decoder : Decoder) (result : Except Failure (Bytes × Buffer)) :
    (ended decoder result).Kept held where
  sound := nofun
  carries := nofun
  small := Nat.zero_le _

theorem kept_decoding {decoder : Decoder} {buffer : Buffer} (sound : buffer.Sound)
    (carries : buffer.bytes.toList = held ++ decoder.output.toList) :
    (decoding decoder buffer).Kept held where
  sound := by rintro _ ⟨rfl⟩; exact sound
  carries := by rintro _ ⟨rfl⟩; rw [waiting, List.append_nil]; exact carries
  small := Nat.zero_le _

theorem kept_delivering {decoder : Decoder} {piece : Bytes} {buffer : Buffer} (sound : buffer.Sound)
    (carries : buffer.bytes.toList ++ piece = held ++ decoder.output.toList)
    (small : piece.length ≤ pieceSize) (halt : Halt) :
    (delivering decoder halt piece buffer).Kept held where
  sound := by rintro _ ⟨rfl⟩; exact sound
  carries := by rintro _ ⟨rfl⟩; exact carries
  small := small

/-- A result that may be missing keeps what holds if its value does. -/
theorem kept_orEnd {α : Type} {decoder : Decoder} {result : Except Failure α} {value : α → Prop}
    {failure : Failure → Prop} {next : α → Progress} (ends : Ends result value failure)
    (onValue : ∀ result, value result → (next result).Kept held) :
    (orEnd decoder result next).Kept held := by
  cases result with
  | ok result => exact onValue result ends
  | error failure => exact kept_ended held _ _

/-- **A turn keeps what holds throughout.** -/
theorem kept_turn (progress : Progress) (kept : progress.Kept held) :
    (progress.turn frame limit).Kept held := by
  cases progress with
  | decoding decoder buffer =>
    have sound := kept.sound buffer rfl
    have carries := kept.carries buffer rfl
    refine kept_orEnd (buffer.makeRoom_spec limit sound) ?_
    rintro roomy ⟨same, roomySound⟩
    have small := length_writtenSince_le frame decoder
    have begins : decoder.output.toList <+: (decodePiece frame decoder).1.output.toList :=
      decoder.prefix_of_run _
    generalize decodePiece frame decoder = stopped at small begins ⊢
    obtain ⟨last, halt⟩ := stopped
    obtain ⟨written, split⟩ := begins
    rw [writtenSince_of_append split] at small
    have whole : roomy.bytes.toList ++ written = held ++ last.output.toList := by
      rw [waiting, List.append_nil] at carries
      rw [same, carries, ← split, ← List.append_assoc]
      rfl
    cases halt with
    | fault => exact kept_ended held _ _
    | short | complete rest =>
      refine kept_delivering roomySound ?_ ?_ _ <;> rwa [writtenSince_of_append split]
    | full =>
      simp only [afterPiece, writtenSince_of_append split]
      split
      · next on =>
        simp only [goesOn, Bool.and_eq_true, decide_eq_true_eq] at on
        refine kept_decoding (roomy.sound_append roomySound (by omega)) ?_
        rw [roomy.toList_append, whole]
      · exact kept_delivering roomySound whole small _
  | delivering decoder halt piece buffer =>
    have sound := kept.sound buffer rfl
    have carries := kept.carries buffer rfl
    cases piece with
    | nil =>
      refine kept_orEnd (buffer.checkLimit_spec limit sound) ?_
      rintro filled ⟨rfl, -⟩
      rw [waiting, List.append_nil] at carries
      cases halt with
      | full => exact kept_decoding sound carries
      | complete rest | short | fault => exact kept_ended held _ _
    | cons byte rest =>
      refine kept_orEnd (buffer.makeRoom_spec limit sound) ?_
      rintro roomy ⟨same, roomySound⟩
      have partSound := roomy.sound_append roomySound
        (show ((byte :: rest).take roomy.room).length ≤ roomy.room by
          rw [List.length_take]
          exact Nat.min_le_left _ _)
      refine kept_orEnd (Buffer.checkLimit_spec limit partSound) ?_
      rintro filled ⟨rfl, -⟩
      refine kept_delivering partSound ?_ ?_ halt
      · rw [roomy.toList_append, same, List.append_assoc, List.take_append_drop]
        exact carries
      · have small := kept.small
        simp only [waiting, List.length_drop] at small ⊢
        omega
  | ended decoder result => exact kept

/-- A turn keeps within the allowance of the machine. -/
theorem allowance_turn_le (progress : Progress) :
    (progress.turn frame limit).decoder.allowance ≤ progress.decoder.allowance := by
  have ended_le : ∀ {α : Type} (decoder : Decoder) (result : Except Failure α) (next : α → Progress)
      (allowed : Nat), decoder.allowance ≤ allowed →
      (∀ value, (next value).decoder.allowance ≤ allowed) →
        (orEnd decoder result next).decoder.allowance ≤ allowed := by
    intro α decoder result next allowed le onValue
    cases result with
    | ok value => exact onValue value
    | error failure => exact le
  cases progress with
  | decoding decoder buffer =>
    refine ended_le _ _ _ _ (Nat.le_refl _) fun roomy => ?_
    have within : (decodePiece frame decoder).1.allowance ≤ decoder.allowance :=
      (decoder.within_run _).1
    generalize decodePiece frame decoder = stopped at within ⊢
    obtain ⟨last, halt⟩ := stopped
    cases halt with
    | fault | short | complete rest => exact within
    | full =>
      simp only [afterPiece]
      split <;> exact within
  | delivering decoder halt piece buffer =>
    cases piece with
    | nil =>
      refine ended_le _ _ _ _ (Nat.le_refl _) fun filled => ?_
      cases halt <;> exact Nat.le_refl _
    | cons byte rest =>
      refine ended_le _ _ _ _ (Nat.le_refl _) fun roomy => ?_
      exact ended_le _ _ _ _ (Nat.le_refl _) fun filled => Nat.le_refl _
  | ended decoder result => exact Nat.le_refl _

/-! ### How many turns are left -/

/-- How many turns the rest of a piece can take in a buffer: the last one only looks at the limit, and
before it the buffer is filled at most twice. -/
def parts (piece : Bytes) (buffer : Buffer) : Nat :=
  if piece = [] then 1
  else if buffer.room = 0 ∨ piece.length ≤ buffer.room then 2
  else 3

/-- How many turns decoding can still take. -/
def remaining : Progress → Nat
  | decoding decoder _ => 4 * pieces decoder
  | delivering decoder halt piece buffer =>
    parts piece buffer + if halt = .full then 4 * pieces decoder else 0
  | ended _ _ => 0

theorem parts_pos (piece : Bytes) (buffer : Buffer) : 0 < parts piece buffer := by
  unfold parts
  split
  · decide
  · split <;> decide

theorem parts_le (piece : Bytes) (buffer : Buffer) : parts piece buffer ≤ 3 := by
  unfold parts
  split
  · decide
  · split <;> decide

/-- A full buffer that grows has room for a piece, or for all that the limit allows and a byte more. -/
theorem room_of_full {buffer roomy : Buffer} (full : buffer.room = 0) (sound : buffer.Sound)
    (made : buffer.makeRoom limit = .ok roomy) :
    pieceSize ≤ roomy.room ∨ limit < roomy.size + roomy.room := by
  have within := sound.fits
  simp only [Buffer.room] at full
  unfold Buffer.makeRoom at made
  rw [if_pos (by omega)] at made
  unfold Buffer.grow at made
  split at made
  · cases made
  · next under =>
    have enough := le_enlarged buffer.capacity (buffer.size + growth limit buffer.size)
    simp only at made
    split at made
    · next reservable =>
      cases made
      simp only [Buffer.room, Buffer.size, growth, saturatingAdd, maxSize, pieceSize,
        unreservable] at *
      omega
    · cases made

/-- A buffer that is not full makes no room. -/
theorem makeRoom_of_room {buffer : Buffer} (room : buffer.room ≠ 0) :
    buffer.makeRoom limit = .ok buffer := by
  unfold Buffer.makeRoom
  rw [if_neg]
  simp only [Buffer.room] at room
  omega

/-- A turn that moves a part of a piece brings the piece closer to its end. -/
theorem parts_lt {buffer roomy : Buffer} {piece : Bytes} (sound : buffer.Sound)
    (nonempty : piece ≠ []) (small : piece.length ≤ pieceSize)
    (made : buffer.makeRoom limit = .ok roomy)
    (under : (roomy.append (piece.take roomy.room)).size ≤ limit) :
    parts (piece.drop roomy.room) (roomy.append (piece.take roomy.room)) < parts piece buffer := by
  by_cases fits : piece.length ≤ roomy.room
  · rw [List.drop_eq_nil_of_le fits, parts, if_pos rfl, parts, if_neg nonempty]
    split <;> decide
  -- the part fills the buffer
  have filled : (roomy.append (piece.take roomy.room)).size = roomy.size + roomy.room := by
    simp only [Buffer.append, Buffer.size, Array.size_append, List.size_toArray, List.length_take]
    omega
  by_cases full : buffer.room = 0
  · -- it has grown for it, so by less than a piece, and then the limit is passed
    rcases room_of_full full sound made with wide | beyond
    · omega
    · omega
  · rw [makeRoom_of_room full] at made
    cases made
    have used : (buffer.append (piece.take buffer.room)).room = 0 := by
      have within := sound.fits
      rw [Buffer.room, filled]
      simp only [Buffer.append, Buffer.room]
      omega
    have left : piece.drop buffer.room ≠ [] := by
      rw [Ne, List.drop_eq_nil_iff]
      exact fits
    rw [parts, if_neg left, if_pos (Or.inl used), parts, if_neg nonempty, if_neg]
    · decide
    · omega

theorem remaining_orEnd_lt {α : Type} {decoder : Decoder} {result : Except Failure α}
    {next : α → Progress} {bound : Nat} (positive : 0 < bound)
    (onValue : ∀ value, result = .ok value → (next value).remaining < bound) :
    (orEnd decoder result next).remaining < bound := by
  cases result with
  | ok value => exact onValue value rfl
  | error failure => exact positive

/-- **Every turn brings decoding closer to its end.** -/
theorem remaining_turn_lt {progress : Progress} (kept : progress.Kept held)
    (goes : progress.buffer? ≠ none) :
    (progress.turn frame limit).remaining < progress.remaining := by
  cases progress with
  | decoding decoder buffer =>
    have positive : 0 < pieces decoder := Nat.succ_pos _
    refine remaining_orEnd_lt (Nat.mul_pos (by decide) positive) fun roomy made => ?_
    rw [remaining]
    rcases piece : decodePiece frame decoder with ⟨last, halt⟩
    have few := parts_le (writtenSince decoder.output.size last) roomy
    cases halt with
    | fault =>
      show 0 < _
      omega
    | short | complete rest =>
      show parts _ _ + 0 < _
      omega
    | full =>
      have fewer := pieces_lt_of_full piece
      simp only [afterPiece]
      split
      · simp only [remaining]
        omega
      · show parts _ _ + 4 * pieces last < _
        omega
  | delivering decoder halt piece buffer =>
    have sound := kept.sound buffer rfl
    have positive := parts_pos piece buffer
    cases piece with
    | nil =>
      refine remaining_orEnd_lt (Nat.add_pos_left positive _) fun filled checked => ?_
      cases halt with
      | full =>
        show 4 * pieces decoder < parts [] buffer + 4 * pieces decoder
        omega
      | complete rest | short | fault => exact Nat.add_pos_left positive _
    | cons byte rest =>
      refine remaining_orEnd_lt (Nat.add_pos_left positive _) fun roomy made => ?_
      refine remaining_orEnd_lt (Nat.add_pos_left positive _) fun filled checked => ?_
      have roomySound := ((buffer.makeRoom_spec limit sound).of_ok made).2
      have partSound := roomy.sound_append roomySound
        (show ((byte :: rest).take roomy.room).length ≤ roomy.room by
          rw [List.length_take]
          exact Nat.min_le_left _ _)
      obtain ⟨rfl, under⟩ := (Buffer.checkLimit_spec limit partSound).of_ok checked
      exact Nat.add_lt_add_right
        (parts_lt sound (List.cons_ne_nil _ _) kept.small made under) _
  | ended decoder result => exact absurd rfl goes

/-- **Decoding ends**, with what it comes to, in as many turns as are left at most. -/
theorem exists_ended {progress : Progress} (kept : progress.Kept held) :
    ∃ turns ≤ progress.remaining, ∃ last,
      progress.after frame limit turns = ended last (progress.outcome frame limit) := by
  by_cases goes : progress.buffer? = none
  · cases progress with
    | ended decoder result => exact ⟨0, Nat.zero_le _, decoder, rfl⟩
    | decoding | delivering => cases goes
  · have fewer : (progress.turn frame limit).remaining < progress.remaining :=
      remaining_turn_lt kept goes
    have next : (progress.turn frame limit).Kept held := kept_turn progress kept
    obtain ⟨turns, le, last, ends⟩ : ∃ turns ≤ (progress.turn frame limit).remaining, ∃ last,
        (progress.turn frame limit).after frame limit turns =
          ended last ((progress.turn frame limit).outcome frame limit) := exists_ended next
    refine ⟨turns + 1, Nat.succ_le_of_lt (Nat.lt_of_le_of_lt le fewer), last, ?_⟩
    rw [after_succ, ends, outcome_turn]
termination_by progress.remaining

/-! ### Whole streams -/

/-- How many turns the stream at the front of an input can take, by the size of the input. -/
def most (size : Nat) : Nat := 4 * (ratio * size / pieceSize + 1)

/-- Before the first piece of a stream. -/
def start (input : Bytes) (buffer : Buffer) : Progress := decoding (Decoder.start input) buffer

theorem kept_start (input : Bytes) {buffer : Buffer} (sound : buffer.Sound) :
    (start input buffer).Kept buffer.bytes.toList :=
  kept_decoding sound (List.append_nil _).symm

theorem remaining_start_le (input : Bytes) (buffer : Buffer) :
    (start input buffer).remaining ≤ most input.length := by
  have most := Deflate.output_add_unread_le input
  have few : ((Decoder.start input).run none).1.output.size ≤ ratio * input.length :=
    Nat.le_trans (Nat.le_add_right _ _) most
  refine Nat.mul_le_mul_left 4 (Nat.succ_le_succ ?_)
  exact Nat.le_trans (Nat.sub_le _ _) (Nat.div_le_div_right few)

/-- At every turn holds what holds throughout. -/
theorem kept_after (frame : Frame) (limit : Nat) (input : Bytes) {buffer : Buffer} (sound : buffer.Sound)
    (turns : Nat) : ((start input buffer).after frame limit turns).Kept buffer.bytes.toList :=
  after_induction kept_turn (kept_start input sound) turns

/-- **The stream at the front of an input** is decoded in few turns. -/
theorem exists_ended_decodeInto (frame : Frame) (limit : Nat) (input : Bytes) {buffer : Buffer}
    (sound : buffer.Sound) :
    ∃ turns ≤ most input.length, ∃ last,
      (start input buffer).after frame limit turns =
        ended last (decodeInto frame limit input buffer) := by
  obtain ⟨turns, le, ends⟩ : ∃ turns ≤ (start input buffer).remaining, ∃ last,
      (start input buffer).after frame limit turns =
        ended last (decodeInto frame limit input buffer) := exists_ended (kept_start input sound)
  exact ⟨turns, Nat.le_trans le (remaining_start_le input buffer), ends⟩

/-- What has been decoded so far, at any turn, is paid for by the input. -/
theorem size_after_le (frame : Frame) (limit : Nat) (input : Bytes) (buffer : Buffer) (turns : Nat) :
    ((start input buffer).after frame limit turns).decoder.output.size ≤ ratio * input.length := by
  have within : ((start input buffer).after frame limit turns).decoder.allowance ≤
      (Decoder.start input).allowance :=
    after_induction (fun progress le => Nat.le_trans (allowance_turn_le progress) le)
      (Nat.le_refl _) turns
  rw [Decoder.allowance_start] at within
  exact Nat.le_trans (Decoder.size_le_allowance _) within

end Turns

end Progress

end Inflate
