/-
**How much a stream can give.**

A literal takes at least one bit, and a copy at least two, one for each of its symbols, however short the
words of the codes are; a stored byte takes eight bits. A copy gives at most 258 bytes. So a machine has
an allowance: what it has written, what it still owes of the item at hand, and 129 bytes for each bit that
is unread. No step adds to it, and what is unread after a complete stream is left of it.

* `payment_of_readItem`: the bits of an item pay for its bytes;
* `within_step`, `within_run`: a step, and a run within any room, keep within the allowance;
* `output_add_unread_le`: the output of a stream, and what the bytes after it could still give, are at
  most `ratio` times its bytes;
* `output_add_rest_le`: the same with the coarser `expansion`.
-/

import Inflate.Proofs.Deflate.Extension

namespace Inflate

namespace Deflate

/-! ### Items -/

/-- The greatest length of a copy. -/
def greatestCopy : Nat := 258

/-- How many bytes one byte of a stream could give if a copy took a single bit. -/
def expansion : Nat := 8 * greatestCopy

/-- How many bytes one bit of a stream can give at most: a copy takes two. -/
def perBit : Nat := greatestCopy / 2

/-- How many bytes one byte of a stream can give at most. -/
def ratio : Nat := 8 * perBit

theorem lt_of_bits {width n : Nat} {reader rest : BitReader}
    (read : Reading.bits width reader = .read n rest) : n < 2 ^ width := by
  induction width generalizing n reader with
  | zero =>
    cases read
    decide
  | succ width ih =>
    obtain ⟨low, between, -, read⟩ := Reading.read_of_bind read
    obtain ⟨high, after, highRead, read⟩ := Reading.read_of_bind read
    cases read
    have small := ih highRead
    have bit := low.toNat_le
    rw [Nat.pow_succ]
    omega

/-- No class of copy lengths goes beyond the greatest length. -/
theorem lengthClass_le {symbol : Nat} {valueClass : ValueClass}
    (found : lengthClass? symbol = some valueClass) :
    valueClass.least + 2 ^ valueClass.extraBits ≤ greatestCopy + 1 := by
  have all : ∀ entry ∈ lengthClasses, entry.least + 2 ^ entry.extraBits ≤ greatestCopy + 1 := by
    decide
  unfold lengthClass? at found
  by_cases coded : 257 ≤ symbol
  · rw [if_pos coded] at found
    exact all _ (Array.mem_of_getElem? found)
  · rw [if_neg coded] at found
    cases found

/-- How many bytes an item gives. -/
def Item.size : Item → Nat
  | .literal _ => 1
  | .copy length _ => length
  | .endOfBlock => 0

/-- What a length symbol and its extra bits stand for. -/
theorem le_greatestCopy_of_readClass {symbol length : Nat} {reader rest : BitReader}
    (read : readClass (lengthClass? symbol) reader = .read length rest) : length ≤ greatestCopy := by
  cases found : lengthClass? symbol with
  | none =>
    rw [found] at read
    cases read
  | some valueClass =>
    rw [found] at read
    obtain ⟨extra, between, extraRead, read⟩ := Reading.read_of_bind read
    cases read
    have within := lengthClass_le found
    have small := lt_of_bits extraRead
    show valueClass.least + extra ≤ greatestCopy
    omega

/-- **The bits of an item pay for its bytes.** -/
theorem payment_of_readItem {codes : Codes} {reader rest : BitReader} {item : Item}
    (read : readItem codes reader = .read item rest) :
    item.size + perBit * rest.size ≤ perBit * reader.size := by
  unfold readItem at read
  obtain ⟨symbol, between, symbolRead, read⟩ := Reading.read_of_bind read
  have first := codes.literals.consumes_read _ _ _ symbolRead
  simp only [perBit, greatestCopy]
  split at read
  · cases read
    simp only [Item.size]
    omega
  split at read
  · cases read
    simp only [Item.size]
    omega
  · -- a copy has a second symbol, which takes another bit
    obtain ⟨length, after, lengthRead, read⟩ := Reading.read_of_bind read
    obtain ⟨distanceSymbol, last, distanceRead, read⟩ := Reading.read_of_bind read
    obtain ⟨distance, final, classRead, read⟩ := Reading.read_of_bind read
    cases read
    have small := le_greatestCopy_of_readClass lengthRead
    have extra := consumes_readClass _ _ _ _ lengthRead
    have second := codes.distances.consumes_read _ _ _ distanceRead
    have others := consumes_readClass _ _ _ _ classRead
    simp only [Item.size, greatestCopy] at small ⊢
    omega

/-! ### The allowance of a machine -/

/-- How many bytes of the item at hand are still to be written. -/
def Phase.owed : Phase → Nat
  | .literal _ _ _ => 1
  | .copy _ _ left _ => left
  | _ => 0

/-- The bytes after a stream, if it is complete. -/
def Halt.rest : Halt → Bytes
  | .complete rest => rest
  | _ => []

namespace Decoder

/-- What the machine has written, what it owes, and what its unread bits can give. -/
def allowance (decoder : Decoder) : Nat :=
  decoder.output.size + decoder.phase.owed + perBit * decoder.reader.size

/-- The step keeps within an allowance, and the bytes after a stream that it completes are unread. -/
def Step.Within (step : Step) (allowance : Nat) : Prop :=
  match step with
  | .next later => later.allowance ≤ allowance
  | .halt last stop => last.allowance ≤ allowance ∧ 8 * stop.rest.length ≤ last.reader.size

/-- A machine that stops without completing the stream keeps within its allowance. -/
theorem within_stop (decoder : Decoder) {stop : Halt} (incomplete : stop.rest = []) :
    (Step.halt decoder stop).Within decoder.allowance := by
  refine ⟨Nat.le_refl _, ?_⟩
  rw [incomplete]
  exact Nat.zero_le _

/-- What has been written after a move, and what is owed then. -/
def Move.pledge (output : Array UInt8) : Move → Nat
  | goOn longer phase => longer.size + phase.owed
  | endBlock _ => output.size

/-- A move keeps within what is owed after it and what the unread bits can give. -/
theorem Move.within_step (move : Move) (output : Array UInt8) (rest : BitReader) :
    (move.step output rest).Within (move.pledge output + perBit * rest.size) := by
  cases move with
  | goOn longer phase => exact Nat.le_refl _
  | endBlock final =>
    cases final with
    | false => exact Nat.le_refl _
    | true => exact ⟨Nat.le_refl _, Nat.le_add_left _ _⟩

/-- The move that starts on an item pledges its bytes. -/
theorem Move.pledge_ofItem (output : Array UInt8) (final : Bool) (codes : Codes) (item : Item) :
    (ofItem output final codes item).pledge output = output.size + item.size := by
  cases item <;> rfl

/-- The bits that a step reads pay for what it pledges. -/
theorem pledge_le_of_read {output : Array UInt8} {phase : Phase} {reader rest : BitReader}
    {move : Move} (moved : reading output phase reader = .read move rest) :
    move.pledge output + perBit * rest.size ≤
      output.size + phase.owed + perBit * reader.size := by
  cases phase with
  | header =>
    obtain ⟨header, read, rfl⟩ := Reading.read_of_map moved
    have taken := consumes_readBlockHeader _ _ _ read
    have nothing : header.phase.owed = 0 := by
      unfold BlockHeader.phase
      split <;> rfl
    rw [Move.pledge, nothing]
    simp only [Phase.owed, perBit, greatestCopy]
    omega
  | stored final left =>
    cases left with
    | zero =>
      cases moved
      exact Nat.le_refl _
    | succ left =>
      obtain ⟨byte, read, rfl⟩ := Reading.read_of_map moved
      have taken := Reading.consumes_bits 8 _ _ _ read
      simp only [Move.pledge, Array.size_push, Phase.owed, perBit, greatestCopy]
      omega
  | items final codes =>
    obtain ⟨item, read, rfl⟩ := Reading.read_of_map moved
    have paid := payment_of_readItem read
    simp only [Move.pledge_ofItem, Phase.owed]
    omega
  | literal final codes byte =>
    cases moved
    simp only [Move.pledge, Array.size_push, Phase.owed]
    omega
  | copy final codes left distance =>
    cases left with
    | zero =>
      cases moved
      exact Nat.le_refl _
    | succ left =>
      cases moved
      simp only [Move.pledge, Array.size_push, Phase.owed]
      omega

theorem Step.Within.mono {step : Step} {less more : Nat} (within : step.Within less)
    (le : less ≤ more) : step.Within more := by
  cases step with
  | next later => exact Nat.le_trans within le
  | halt last stop => exact ⟨Nat.le_trans within.1 le, within.2⟩

/-- **A step** keeps within the allowance. -/
theorem within_step (decoder : Decoder) : decoder.step.Within decoder.allowance := by
  cases moved : reading decoder.output decoder.phase decoder.reader with
  | short =>
    rw [step_of_short moved]
    exact decoder.within_stop rfl
  | fault =>
    rw [step_of_fault moved]
    exact decoder.within_stop rfl
  | read move rest =>
    rw [step_of_read moved]
    exact (move.within_step decoder.output rest).mono (pledge_le_of_read moved)

/-- **A run** keeps within the allowance, in whatever room. -/
theorem within_run (decoder : Decoder) (room : Option Nat) :
    (Step.halt (decoder.run room).1 (decoder.run room).2).Within decoder.allowance := by
  induction decoder using run_induction with
  | next decoder later steps ih =>
    by_cases full : decoder.isFull room = true
    · rw [run_room_of_full full]
      exact decoder.within_stop rfl
    · have within := decoder.within_step
      rw [steps] at within
      rw [run_room_of_next (Bool.eq_false_iff.mpr full) steps]
      exact ih.mono within
  | halt decoder last stop steps =>
    by_cases full : decoder.isFull room = true
    · rw [run_room_of_full full]
      exact decoder.within_stop rfl
    · have within := decoder.within_step
      rw [steps] at within
      rw [run_room_of_halt (Bool.eq_false_iff.mpr full) steps]
      exact within

theorem allowance_start (input : Bytes) : (start input).allowance = ratio * input.length := by
  simp only [allowance, start, BitReader.ofBytes, BitReader.size, Phase.owed, List.length_nil,
    List.size_toArray, ratio, perBit, greatestCopy]
  omega

/-- What has been written keeps within the allowance. -/
theorem size_le_allowance (decoder : Decoder) : decoder.output.size ≤ decoder.allowance :=
  Nat.le_add_right_of_le (Nat.le_add_right _ _)

end Decoder

/-- **A stream gives at most `ratio` bytes for each of its own**, and what follows it is left. -/
theorem output_add_unread_le (input : Bytes) :
    (inflate input).1.length + ratio * (inflate input).2.rest.length ≤ ratio * input.length := by
  obtain ⟨within, unread⟩ := (Decoder.start input).within_run none
  rw [Decoder.allowance_start] at within
  refine Nat.le_trans ?_ within
  show ((Decoder.start input).run none).1.output.size + ratio * _ ≤ _
  have paid := Nat.mul_le_mul_left perBit unread
  rw [← Nat.mul_assoc, Nat.mul_comm perBit 8] at paid
  exact Nat.add_le_add (Nat.le_add_right _ _) paid

/-- A stream gives at most `expansion` bytes for each of its own, and what follows it is left. -/
theorem output_add_rest_le (input : Bytes) :
    (inflate input).1.length + expansion * (inflate input).2.rest.length ≤
      expansion * input.length := by
  have sharp := output_add_unread_le input
  simp only [ratio, perBit, expansion, greatestCopy] at sharp ⊢
  omega

end Deflate

end Inflate
