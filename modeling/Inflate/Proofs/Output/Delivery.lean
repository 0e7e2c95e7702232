/-
**What arrives in the buffer.**

The decoder hands its output over piece by piece, and the buffer grows on the way. Neither shows in
the result: what arrives is the output of one run without any limit, and the verdict is the one of
that run, unless the limit or the memory does not allow for all of it.

* `Buffer.Sound`: what a buffer holds fits in a capacity that could be reserved;
* `Refusal`: why a buffer that is to hold a given count of bytes can be refused;
* `Yields`: the outcome is an expected one, unless memory has run out;
* `Delivers`: the outcomes that a decoder can have, by what it is to deliver;
* `deliver_spec`, `decodeInto_spec`: the outcome of one piece, and of a whole stream.
-/

import Inflate.Output.Pieces
import Inflate.Proofs.Deflate.Extension

namespace Inflate

open Deflate (Decoder Halt inflate)

/-! ### Refusals -/

section Refusals

variable [Memory]

/-- Why a buffer that is to hold `total` bytes can be refused: they are more than the limit, or
memory has run out, which the limit has to allow. -/
inductive Refusal (limit total : Nat) : Failure → Prop where
  | limit (beyond : limit < total) (small : limit < unreservable) :
    Refusal limit total (.outputLimitExceeded limit)
  | memory (asked : Nat) (large : exhausting ≤ total) (allowed : exhausting ≤ limit) :
    Refusal limit total (.allocation asked)

theorem Refusal.mono {limit total more : Nat} {failure : Failure}
    (refused : Refusal limit total failure) (le : total ≤ more) : Refusal limit more failure := by
  cases refused with
  | limit beyond small => exact .limit (by omega) small
  | memory asked large allowed => exact .memory asked (by omega) allowed

/-- The limit does not stand in the way of an output: the output keeps to it, or memory runs out
first. -/
def Permits (limit size : Nat) : Prop := size ≤ limit ∨ unreservable ≤ limit

theorem permits_default (size : Nat) : Permits ({} : Options).limit size :=
  Or.inr Memory.unreservable_le

/-- An output that the limit permits is refused only when memory has run out. -/
theorem Refusal.exhausts {limit total : Nat} {failure : Failure}
    (refused : Refusal limit total failure) (permits : Permits limit total) :
    exhausting ≤ total ∧ ∃ asked, failure = .allocation asked := by
  cases refused with
  | limit beyond small =>
    rcases permits with under | large
    · exact absurd under (Nat.not_le.mpr beyond)
    · exact absurd large (Nat.not_le.mpr small)
  | memory asked large allowed => exact ⟨large, asked, rfl⟩

/-- The outcome is the expected one, unless an output of `exhausting` bytes or more has taken all
memory: then a reservation fails or, where a fault is looked at once more to name a mismatch of
checksums, the fault stays without that name. -/
inductive Yields {α : Type} (size : Nat) (expected : Except Failure α) :
    Except Failure α → Prop where
  | expected : Yields size expected expected
  | outOfMemory (asked : Nat) (large : exhausting ≤ size) :
    Yields size expected (.error (.allocation asked))
  | unnamed (large : exhausting ≤ size) {stored actual : UInt32}
    (mismatch : expected = .error (.checksumMismatch stored actual)) :
    Yields size expected (.error (.corrupt Failure.deflateDetail))

theorem Yields.eq {α : Type} {size : Nat} {expected outcome : Except Failure α}
    (yields : Yields size expected outcome) (small : size < exhausting) : outcome = expected := by
  cases yields with
  | expected => rfl
  | outOfMemory asked large => omega
  | unnamed large mismatch => omega

end Refusals

/-- The operation gives a value as stated, or fails as stated. -/
def Ends {α : Type} (outcome : Except Failure α) (value : α → Prop) (failure : Failure → Prop) :
    Prop :=
  match outcome with
  | .ok result => value result
  | .error cause => failure cause

/-- What a value or a failure is known to be carries over to weaker statements. -/
theorem Ends.imp {α : Type} {outcome : Except Failure α} {value weaker : α → Prop}
    {failure other : Failure → Prop} (ends : Ends outcome value failure)
    (onValue : ∀ result, value result → weaker result)
    (onFailure : ∀ cause, failure cause → other cause) : Ends outcome weaker other := by
  cases outcome with
  | ok result => exact onValue result ends
  | error cause => exact onFailure cause ends

/-- What a value is known to be. -/
theorem Ends.of_ok {α : Type} {outcome : Except Failure α} {value : α → Prop}
    {failure : Failure → Prop} {result : α} (ends : Ends outcome value failure)
    (succeeds : outcome = .ok result) : value result := by
  rw [succeeds] at ends
  exact ends

/-- Two operations in turn end as the second one does, unless the first one fails. -/
theorem Ends.bind {α β : Type} {outcome : Except Failure α} {next : α → Except Failure β}
    {value : α → Prop} {weaker : β → Prop} {failure other : Failure → Prop}
    (ends : Ends outcome value failure) (onFailure : ∀ cause, failure cause → other cause)
    (onValue : ∀ result, outcome = .ok result → value result → Ends (next result) weaker other) :
    Ends (outcome >>= next) weaker other := by
  cases outcome with
  | ok result => exact onValue result rfl ends
  | error cause => exact onFailure cause ends

/-! ### Buffers -/

namespace Buffer

@[simp] theorem toList_append (buffer : Buffer) (piece : Bytes) :
    (buffer.append piece).bytes.toList = buffer.bytes.toList ++ piece := by
  simp [append]

section Growing

variable [Memory]

/-- What the buffer holds fits in a capacity that could be reserved. -/
structure Sound (buffer : Buffer) : Prop where
  fits : buffer.size ≤ buffer.capacity
  reservable : buffer.capacity < unreservable

theorem reserve_of_lt {capacity : Nat} (small : capacity < unreservable) :
    reserve capacity = .ok { capacity } :=
  if_pos small

theorem sound_of_reserve {capacity : Nat} {buffer : Buffer}
    (reserved : reserve capacity = .ok buffer) : buffer.Sound ∧ buffer.bytes = #[] := by
  unfold reserve at reserved
  by_cases small : capacity < unreservable
  · rw [if_pos small] at reserved
    cases reserved
    exact ⟨⟨Nat.zero_le _, small⟩, rfl⟩
  · rw [if_neg small] at reserved
    cases reserved

theorem sound_append {buffer : Buffer} (sound : buffer.Sound) {piece : Bytes}
    (fits : piece.length ≤ buffer.room) : (buffer.append piece).Sound := by
  have within := sound.fits
  refine ⟨?_, sound.reservable⟩
  simp only [room, size] at fits within
  simp only [append, size, Array.size_append, List.size_toArray]
  omega

/-- Making room keeps the contents, or is refused for what the buffer holds. -/
theorem makeRoom_spec (limit : Nat) {buffer : Buffer} (sound : buffer.Sound) :
    Ends (buffer.makeRoom limit) (fun roomy => roomy.bytes = buffer.bytes ∧ roomy.Sound)
      (Refusal limit buffer.size) := by
  have within := sound.fits
  have reservable := sound.reservable
  unfold makeRoom
  split
  · next full =>
    unfold grow
    split
    · next beyond => exact .limit beyond (by omega)
    · have enough := le_enlarged buffer.capacity (buffer.size + growth limit buffer.size)
      simp only
      split
      · next small => exact ⟨rfl, ⟨by simp only [size] at enough ⊢; omega, small⟩⟩
      · next large =>
        have held : exhausting ≤ buffer.size :=
          Memory.exhausting_le (Nat.le_antisymm full within ▸ Nat.not_lt.mp large)
        exact .memory _ held (by omega)
  · exact ⟨rfl, sound⟩

theorem checkLimit_spec (limit : Nat) {buffer : Buffer} (sound : buffer.Sound) :
    Ends (buffer.checkLimit limit) (fun checked => checked = buffer ∧ buffer.size ≤ limit)
      (Refusal limit buffer.size) := by
  have within := sound.fits
  have reservable := sound.reservable
  unfold checkLimit
  by_cases beyond : limit < buffer.size
  · rw [if_pos beyond]
    exact .limit beyond (by omega)
  · rw [if_neg beyond]
    exact ⟨rfl, by omega⟩

/-- The buffer holds what another one holds and a piece, and keeps to the limit. -/
structure Holds (limit : Nat) (contents : Bytes) (buffer : Buffer) : Prop where
  contents : buffer.bytes.toList = contents
  sound : buffer.Sound
  under : buffer.size ≤ limit

theorem Holds.size_eq {limit : Nat} {contents : Bytes} {buffer : Buffer}
    (holds : buffer.Holds limit contents) : buffer.size = contents.length := by
  rw [size, ← Array.length_toList, holds.contents]

theorem deliver_nil (limit : Nat) (buffer : Buffer) :
    buffer.deliver limit [] = buffer.checkLimit limit := by
  rw [deliver]
  rfl

theorem deliver_of_ne_nil (limit : Nat) (buffer : Buffer) {piece : Bytes} (nonempty : piece ≠ []) :
    buffer.deliver limit piece = (do
      let roomy ← buffer.makeRoom limit
      let filled ← (roomy.append (piece.take roomy.room)).checkLimit limit
      filled.deliver limit (piece.drop roomy.room)) := by
  rw [deliver, if_neg (by simpa using nonempty)]
  split
  · next failure refused => simp only [refused, bind, Except.bind]
  · next roomy made =>
    simp only [made, bind, Except.bind]
    cases checkLimit limit (roomy.append (piece.take roomy.room)) with
    | ok filled => rfl
    | error failure => rfl

/-- **A piece that is delivered** is appended as a whole and keeps to the limit, or is refused. -/
theorem deliver_spec (limit : Nat) {buffer : Buffer} (sound : buffer.Sound) (piece : Bytes) :
    Ends (buffer.deliver limit piece) (Holds limit (buffer.bytes.toList ++ piece))
      (Refusal limit (buffer.size + piece.length)) := by
  by_cases empty : piece = []
  · subst empty
    rw [deliver_nil]
    refine (checkLimit_spec limit sound).imp ?_ fun cause refused => refused
    rintro filled ⟨rfl, under⟩
    exact ⟨by simp, sound, under⟩
  rw [deliver_of_ne_nil limit buffer empty]
  refine (makeRoom_spec limit sound).bind
    (fun cause refused => refused.mono (Nat.le_add_right _ _)) ?_
  rintro roomy made ⟨same, roomySound⟩
  have positive := room_pos_of_makeRoom made
  have partFits : (piece.take roomy.room).length ≤ roomy.room := by
    rw [List.length_take]
    exact Nat.min_le_left _ _
  have partSound := sound_append roomySound partFits
  have partSize : (roomy.append (piece.take roomy.room)).size =
      buffer.size + (piece.take roomy.room).length := by
    simp only [append, size, Array.size_append, List.size_toArray, same]
  have whole : (piece.take roomy.room).length + (piece.drop roomy.room).length = piece.length := by
    rw [← List.length_append, List.take_append_drop]
  refine (checkLimit_spec limit partSound).bind (fun cause refused => refused.mono (by omega)) ?_
  rintro filled passed ⟨rfl, under⟩
  have fewer : (piece.drop roomy.room).length < piece.length := by
    have some := List.length_pos_iff.mpr empty
    rw [List.length_drop]
    omega
  refine (deliver_spec limit partSound (piece.drop roomy.room)).imp (fun last holds => ?_)
    fun cause refused => refused.mono (by omega)
  refine ⟨?_, holds.sound, holds.under⟩
  rw [holds.contents, toList_append, same, List.append_assoc, List.take_append_drop]
termination_by piece.length

end Growing

/-- In the program, the capacity at the start can be reserved unless another one is asked for. -/
theorem sound_seed {options : Options} (unset : options.initialCapacity = none) (size : Nat) :
    ∃ buffer : Buffer, reserve (seedCapacity size options) = .ok buffer ∧ buffer.Sound ∧
      buffer.bytes = #[] := by
  have small : seedCapacity size options < unreservable := by
    simp only [seedCapacity, wantedCapacity, unset, Option.getD_none, pieceSize, maxSeed,
      unreservable]
    omega
  exact ⟨_, reserve_of_lt small, sound_of_reserve (reserve_of_lt small)⟩

theorem sound_empty : ({} : Buffer).Sound := ⟨Nat.le_refl 0, by decide⟩

end Buffer

/-! ### Runs in pieces -/

namespace Deflate

namespace Decoder

/-- The step keeps what was written, and writes nothing if it stops. -/
def Step.Keeps (step : Step) (output : Array UInt8) : Prop :=
  match step with
  | .next later => output.toList <+: later.output.toList
  | .halt last _ => last.output = output

theorem keeps_endBlock (final : Bool) (reader : BitReader) (output : Array UInt8) :
    (endBlock final reader output).Keeps output := by
  cases final with
  | false => exact List.prefix_refl _
  | true => rfl

theorem keeps_push (output : Array UInt8) (byte : UInt8) :
    output.toList <+: (output.push byte).toList := by
  rw [Array.toList_push]
  exact List.prefix_append _ _

theorem keeps_step (decoder : Decoder) : decoder.step.Keeps decoder.output := by
  obtain ⟨reader, output, phase⟩ := decoder
  cases phase with
  | header =>
    simp only [step]
    cases readBlockHeader reader with
    | read header rest => exact List.prefix_refl _
    | short => rfl
    | fault => rfl
  | stored final left =>
    cases left with
    | zero => exact keeps_endBlock final reader output
    | succ left =>
      simp only [step]
      cases Reading.bits 8 reader with
      | read byte rest => exact keeps_push output _
      | short => rfl
      | fault => rfl
  | items final codes =>
    simp only [step]
    cases readItem codes reader with
    | read item rest =>
      cases item with
      | literal byte => exact List.prefix_refl _
      | copy length distance => exact List.prefix_refl _
      | endOfBlock => exact keeps_endBlock final rest output
    | short => rfl
    | fault => rfl
  | literal final codes byte => exact keeps_push output byte
  | copy final codes left distance =>
    cases left with
    | zero => exact List.prefix_refl _
    | succ left => exact keeps_push output _

/-- A step that stops writes nothing. -/
theorem output_of_halt {decoder last : Decoder} {stop : Halt}
    (steps : decoder.step = .halt last stop) : last.output = decoder.output := by
  have kept := keeps_step decoder
  rw [steps] at kept
  exact kept

/-- A run keeps what was written before. -/
theorem prefix_of_run (decoder : Decoder) (room : Option Nat) :
    decoder.output.toList <+: (decoder.run room).1.output.toList := by
  induction decoder using run_induction with
  | next decoder later steps ih =>
    by_cases full : decoder.isFull room = true
    · simp only [run_room_of_full full, List.prefix_refl]
    · have kept := keeps_step decoder
      rw [steps] at kept
      rw [run_room_of_next (Bool.eq_false_iff.mpr full) steps]
      exact List.IsPrefix.trans kept ih
  | halt decoder last stop steps =>
    by_cases full : decoder.isFull room = true
    · simp only [run_room_of_full full, List.prefix_refl]
    · simp only [run_room_of_halt (Bool.eq_false_iff.mpr full) steps, output_of_halt steps,
        List.prefix_refl]

/-- **Runs in pieces**: a run that stops for want of room goes on as the whole run does, and any
other run within its room is the whole run. -/
theorem run_none_eq (decoder : Decoder) (room : Option Nat) :
    decoder.run none =
      if (decoder.run room).2 = .full then (decoder.run room).1.run none else decoder.run room := by
  induction decoder using run_induction with
  | next decoder later steps ih =>
    by_cases full : decoder.isFull room = true
    · rw [run_room_of_full full, if_pos rfl]
    · rw [run_of_next steps, run_room_of_next (Bool.eq_false_iff.mpr full) steps]
      exact ih
  | halt decoder last stop steps =>
    by_cases full : decoder.isFull room = true
    · rw [run_room_of_full full, if_pos rfl]
    · rw [run_of_halt steps, run_room_of_halt (Bool.eq_false_iff.mpr full) steps,
        if_neg (ne_full_of_step steps)]

/-- A run without a limit never stops for want of room. -/
theorem run_none_ne_full (decoder : Decoder) : (decoder.run none).2 ≠ .full := by
  induction decoder using run_induction with
  | next decoder later steps ih =>
    rw [run_of_next steps]
    exact ih
  | halt decoder last stop steps =>
    rw [run_of_halt steps]
    exact ne_full_of_step steps

end Decoder

end Deflate

/-! ### Pieces of a stream -/

theorem writtenSince_eq (before : Nat) (decoder : Decoder) :
    writtenSince before decoder = decoder.output.toList.drop before := by
  simp only [writtenSince, Array.toList_extract, List.extract_eq_take_drop]
  exact List.take_of_length_le (by simp)

/-- A piece ends with the whole run, or for want of room where the whole run goes on. -/
theorem decodePiece_cases (frame : Frame) (decoder : Decoder) :
    (∃ last, decodePiece frame decoder = (last, .full) ∧ decoder.run none = last.run none ∧
      decoder.output.toList <+: last.output.toList) ∨
    (decodePiece frame decoder =
        ((decoder.run none).1, frame.close (decoder.run none).1.output (decoder.run none).2) ∧
      frame.close (decoder.run none).1.output (decoder.run none).2 ≠ .full) := by
  have whole := decoder.run_none_eq (some (nextRoom decoder.output.size))
  have kept := decoder.prefix_of_run (some (nextRoom decoder.output.size))
  by_cases full : (decoder.run (some (nextRoom decoder.output.size))).2 = .full
  · rw [if_pos full] at whole
    refine Or.inl ⟨_, Prod.ext rfl ?_, whole, kept⟩
    simp only [decodePiece, full]
    cases frame <;> rfl
  · rw [if_neg full] at whole
    refine Or.inr ⟨?_, ?_⟩
    · rw [whole]
      rfl
    · intro closed
      exact decoder.run_none_ne_full (Frame.eq_full_of_close closed)

theorem writtenSince_of_append {decoder last : Decoder} {written : Bytes}
    (split : decoder.output.toList ++ written = last.output.toList) :
    writtenSince decoder.output.size last = written := by
  rw [writtenSince_eq, ← split]
  simp

/-- What a piece writes, and what the run writes that goes on after it. -/
theorem writtenSince_onward {decoder last : Decoder} (whole : decoder.run none = last.run none)
    (kept : decoder.output.toList <+: last.output.toList) :
    writtenSince decoder.output.size (decoder.run none).1 =
      writtenSince decoder.output.size last ++ writtenSince last.output.size (last.run none).1 := by
  obtain ⟨written, split⟩ := kept
  obtain ⟨others, lastSplit⟩ := last.prefix_of_run none
  rw [writtenSince_of_append split, writtenSince_of_append lastSplit, whole]
  exact writtenSince_of_append (by rw [← List.append_assoc, split, lastSplit])

/-- Induction over the pieces of a stream. -/
theorem decodePiece_induction (frame : Frame) {motive : Decoder → Prop}
    (onward : ∀ decoder last, decodePiece frame decoder = (last, .full) →
      decoder.run none = last.run none → decoder.output.toList <+: last.output.toList →
        motive last → motive decoder)
    (final : ∀ decoder, decodePiece frame decoder =
        ((decoder.run none).1, frame.close (decoder.run none).1.output (decoder.run none).2) →
      frame.close (decoder.run none).1.output (decoder.run none).2 ≠ .full → motive decoder)
    (decoder : Decoder) : motive decoder := by
  rcases decodePiece_cases frame decoder with ⟨last, piece, whole, kept⟩ | ⟨piece, stops⟩
  · have before := before_of_decodePiece piece
    exact onward decoder last piece whole kept (decodePiece_induction frame onward final last)
  · exact final decoder piece stops
termination_by (decoder.reader.size, decoder.phase.weight)
decreasing_by exact Decoder.Before.lex before

/-- The verdict on the stream at the front of the input, with its frame taken into account. -/
def Frame.verdict (frame : Frame) (input : Bytes) : Halt :=
  frame.close (inflate input).1.toArray (inflate input).2

/-! ### Streams -/

section Streams

variable [Memory]

/-- The outcomes of decoding, by the contents that the buffer is to have in the end and the verdict
on the stream. -/
inductive Delivers (limit : Nat) (contents : Bytes) (halt : Halt) :
    Except Failure (Bytes × Buffer) → Prop where
  | filled {rest : Bytes} {filled : Buffer} (complete : halt = .complete rest)
    (holds : filled.Holds limit contents) : Delivers limit contents halt (.ok (rest, filled))
  | truncated (short : halt = .short) (under : contents.length ≤ limit) :
    Delivers limit contents halt (.error .truncated)
  | corrupt (fault : halt = .fault) :
    Delivers limit contents halt (.error (.corrupt Failure.deflateDetail))
  | refused {failure : Failure} (refused : Refusal limit contents.length failure) :
    Delivers limit contents halt (.error failure)

/-- An operation that may be refused stands before one that delivers. -/
theorem Delivers.bind {α : Type} {limit total : Nat} {contents : Bytes} {halt : Halt}
    {outcome : Except Failure α} {next : α → Except Failure (Bytes × Buffer)} {value : α → Prop}
    (ends : Ends outcome value (Refusal limit total)) (le : total ≤ contents.length)
    (onValue : ∀ result, value result → Delivers limit contents halt (next result)) :
    Delivers limit contents halt (outcome >>= next) := by
  cases outcome with
  | ok result => exact onValue result ends
  | error cause => exact .refused (Refusal.mono ends le)

theorem Delivers.of_ok {limit : Nat} {contents rest : Bytes} {halt : Halt} {filled : Buffer}
    (delivers : Delivers limit contents halt (.ok (rest, filled))) :
    halt = .complete rest ∧ filled.Holds limit contents := by
  cases delivers with
  | filled complete holds => exact ⟨complete, holds⟩

theorem Delivers.of_error {limit : Nat} {contents : Bytes} {halt : Halt} {failure : Failure}
    (delivers : Delivers limit contents halt (.error failure)) :
    (halt = .short ∧ failure = .truncated) ∨
      (halt = .fault ∧ failure = .corrupt Failure.deflateDetail) ∨
      Refusal limit contents.length failure := by
  cases delivers with
  | truncated short under => exact Or.inl ⟨short, rfl⟩
  | corrupt fault => exact Or.inr (Or.inl ⟨fault, rfl⟩)
  | refused refused => exact Or.inr (Or.inr refused)

/-- A stream that is complete is delivered, or refused. -/
theorem Delivers.ends {limit : Nat} {contents rest : Bytes}
    {outcome : Except Failure (Bytes × Buffer)}
    (delivers : Delivers limit contents (.complete rest) outcome) :
    Ends outcome (fun decoded => decoded.1 = rest ∧ decoded.2.Holds limit contents)
      (Refusal limit contents.length) := by
  cases outcome with
  | ok decoded =>
    obtain ⟨complete, holds⟩ := delivers.of_ok
    exact ⟨(Halt.complete.inj complete).symm, holds⟩
  | error failure =>
    rcases delivers.of_error with ⟨short, _⟩ | ⟨fault, _⟩ | refused
    · cases short
    · cases fault
    · exact refused

theorem takePiece_spec (limit : Nat) {buffer : Buffer} (sound : buffer.Sound) (piece : Bytes)
    (decoder : Decoder) :
    Ends (takePiece limit buffer piece decoder)
      (fun filled => filled.bytes.toList = buffer.bytes.toList ++ piece ∧ filled.Sound)
      (Refusal limit (buffer.size + piece.length)) := by
  unfold takePiece
  split
  · next on =>
    simp only [goesOn, Bool.and_eq_true, decide_eq_true_eq] at on
    exact ⟨buffer.toList_append piece, buffer.sound_append sound (by omega)⟩
  · exact (buffer.deliver_spec limit sound piece).imp
      (fun filled holds => ⟨holds.contents, holds.sound⟩) fun cause refused => refused

/-- How decoding ends after the last piece. -/
def finish (limit : Nat) (roomy : Buffer) (piece : Bytes) : Halt →
    Except Failure (Bytes × Buffer)
  | .fault => .error (.corrupt Failure.deflateDetail)
  | .complete rest => do
    let filled ← roomy.deliver limit piece
    .ok (rest, filled)
  | _ => do
    let _ ← roomy.deliver limit piece
    .error .truncated

theorem decodeOn_of_full {frame : Frame} {decoder last : Decoder}
    (piece : decodePiece frame decoder = (last, .full)) (limit : Nat) (buffer : Buffer) :
    decodeOn frame limit decoder buffer = (do
      let roomy ← buffer.makeRoom limit
      let filled ← takePiece limit roomy (writtenSince decoder.output.size last) last
      decodeOn frame limit last filled) := by
  rw [decodeOn]
  congr 1
  funext roomy
  simp only
  split <;> rename_i found <;> cases piece.symm.trans found
  rfl

theorem decodeOn_of_final {frame : Frame} {decoder last : Decoder} {halt : Halt}
    (piece : decodePiece frame decoder = (last, halt)) (final : halt ≠ .full) (limit : Nat)
    (buffer : Buffer) :
    decodeOn frame limit decoder buffer = (do
      let roomy ← buffer.makeRoom limit
      finish limit roomy (writtenSince decoder.output.size last) halt) := by
  rw [decodeOn]
  congr 1
  funext roomy
  simp only
  split <;> rename_i found <;> cases piece.symm.trans found
  · rfl
  · rfl
  · rfl
  · exact absurd rfl final

theorem finish_spec (limit : Nat) {roomy : Buffer} (sound : roomy.Sound) (piece : Bytes)
    {halt : Halt} (final : halt ≠ .full) :
    Delivers limit (roomy.bytes.toList ++ piece) halt (finish limit roomy piece halt) := by
  have delivered := roomy.deliver_spec limit sound piece
  have total : roomy.size + piece.length ≤ (roomy.bytes.toList ++ piece).length := by
    simp [Buffer.size]
  cases halt with
  | fault => exact .corrupt rfl
  | complete rest => exact Delivers.bind delivered total fun filled holds => .filled rfl holds
  | short =>
    refine Delivers.bind delivered total fun filled holds => .truncated rfl ?_
    rw [← holds.contents]
    exact holds.under
  | full => exact absurd rfl final

/-- **Decoding piece by piece** delivers the output of the whole run, with its verdict. -/
theorem decodeOn_spec (frame : Frame) (limit : Nat) (decoder : Decoder) {buffer : Buffer}
    (sound : buffer.Sound) :
    Delivers limit
      (buffer.bytes.toList ++ writtenSince decoder.output.size (decoder.run none).1)
      (frame.close (decoder.run none).1.output (decoder.run none).2)
      (decodeOn frame limit decoder buffer) := by
  induction decoder using decodePiece_induction frame generalizing buffer with
  | onward decoder last piece whole kept ih =>
    rw [decodeOn_of_full piece, writtenSince_onward whole kept, whole]
    refine Delivers.bind (buffer.makeRoom_spec limit sound) (by simp [Buffer.size]) ?_
    rintro roomy ⟨same, roomySound⟩
    refine Delivers.bind (takePiece_spec limit roomySound _ last) (by simp [Buffer.size, same]) ?_
    rintro filled ⟨contents, filledSound⟩
    have rest := ih filledSound
    rwa [contents, same, List.append_assoc] at rest
  | final decoder piece stops =>
    rw [decodeOn_of_final piece stops]
    refine Delivers.bind (buffer.makeRoom_spec limit sound) (by simp [Buffer.size]) ?_
    rintro roomy ⟨same, roomySound⟩
    rw [← same]
    exact finish_spec limit roomySound _ stops

/-- **Decoding into a buffer** appends the output of the stream, with the verdict on it. -/
theorem decodeInto_spec (frame : Frame) (limit : Nat) (input : Bytes) {buffer : Buffer}
    (sound : buffer.Sound) :
    Delivers limit (buffer.bytes.toList ++ (inflate input).1) (frame.verdict input)
      (decodeInto frame limit input buffer) := by
  have delivered := decodeOn_spec frame limit (Decoder.start input) sound
  rw [writtenSince_eq] at delivered
  exact delivered

end Streams

end Inflate
