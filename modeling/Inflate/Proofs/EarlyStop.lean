/-
**Stopping early on too much output.**

A short input can stand for very much output. The decoder stops at a piece that brings the output past
the limit and does not leave room in the buffer, and from the capacity of the buffer follows which piece
that is at the latest. The pieces before it were decoded without a look at what comes after them. So once
the beginning of a body gives enough output, nothing that follows it matters.

* `exceeds_decodeOn`: a long output is refused, by the greatest capacity of the buffer;
* `decode_exceeds`, `decode_exceeds_piece`: the same for a zlib stream, and for one whose buffer never goes
  beyond the limit by more than one byte;
* `decode_stops_early`: a beginning that gives too much output decides the outcome.
-/

import Inflate.Proofs.Deflate.BlockStream
import Inflate.Proofs.Deflate.Expansion
import Inflate.Proofs.Output.Capacity
import Inflate.Proofs.Output.PieceSize
import Inflate.Proofs.Zlib.Verdict

namespace Inflate

open Deflate (Decoder Halt inflate)

/-! ### Decoding -/

/-- **An output that goes on beyond the piece that fills the greatest capacity** is refused, and what is
to be decoded after that piece is never looked at. -/
theorem exceeds_decodeOn [Memory] {limit seed top : Nat} (capped : Capped limit seed limit top)
    (above : limit < top) (frame : Frame) (decoder : Decoder) {buffer : Buffer}
    (kept : buffer.Kept limit seed top) (level : buffer.size = decoder.output.size)
    (small : buffer.size < top)
    (long : nextRoom (top - 1) < (decoder.run none).1.output.size) :
    decodeOn frame limit decoder buffer = .error (.outputLimitExceeded limit) := by
  induction decoder using decodePiece_induction frame generalizing buffer with
  | onward decoder last piece whole begins ih =>
    rw [decodeOn_of_full piece]
    refine PastLimit.bind_eq (buffer.makeRoom_kept capped kept (Nat.min_le_left _ _)) ?_
    rintro roomy ⟨same, roomyKept⟩
    have held : roomy.size = buffer.size := congrArg Array.size same
    refine PastLimit.bind_eq (takePiece_kept capped above roomyKept _ (Nat.min_le_left _ _) last) ?_
    intro filled appended
    refine ih appended.kept ?_ appended.below (whole ▸ long)
    obtain ⟨written, split⟩ := begins
    calc filled.size = roomy.size + written.length := by
          rw [appended.size_eq, writtenSince_of_append split]
      _ = decoder.output.toList.length + written.length := by
          rw [held, level]
          rfl
      _ = last.output.size := by rw [← List.length_append, split, Array.length_toList]
  | final decoder piece stops =>
    -- the last piece ends before the output that is still to come
    have ends : nextRoom decoder.output.size ≤ nextRoom (top - 1) := nextRoom_mono (by omega)
    exact absurd long (Nat.not_lt.mpr (Nat.le_trans (size_le_of_final piece) ends))

namespace Zlib

section Streams

variable {cmf flg : UInt8} {top : Nat} {options : Options}

/-- A zlib stream whose body begins with too much output, by the greatest capacity of the buffer. -/
theorem decode_exceeds [Memory] (valid : Header.Valid cmf flg) {front : Bytes}
    (long : nextRoom (top - 1) < (inflate front).1.length) (above : options.limit < top) (rest : Bytes)
    (capped : Capped options.limit (seedCapacity (cmf :: flg :: (front ++ rest)).length options)
      options.limit top) :
    decode (cmf :: flg :: (front ++ rest)) options =
      .error (.outputLimitExceeded options.limit) := by
  have enough : minLength ≤ (cmf :: flg :: (front ++ rest)).length := by
    have most := Deflate.output_add_rest_le front
    have piece : pieceSize ≤ nextRoom (top - 1) := Nat.le_mul_of_pos_right _ (Nat.succ_pos _)
    simp only [Deflate.expansion, Deflate.greatestCopy] at most
    simp only [pieceSize] at piece
    simp only [minLength, List.length_cons, List.length_append]
    omega
  have whole : nextRoom (top - 1) <
      ((Decoder.start (front ++ rest)).run none).1.output.size :=
    Nat.lt_of_lt_of_le long ((Decoder.start front).prefix_run_extend none rest).length_le
  have exceeds := exceeds_decodeOn capped above .checked (Decoder.start (front ++ rest))
    (Buffer.kept_of_reserve capped) rfl (Nat.lt_of_le_of_lt (Nat.zero_le _) above) whole
  exact decode_of_error valid enough capped.begins exceeds

/-- The same where the buffer never goes beyond the limit by more than one byte. -/
theorem decode_exceeds_piece [Memory] (valid : Header.Valid cmf flg) {front : Bytes}
    (long : (options.limit / pieceSize + 1) * pieceSize < (inflate front).1.length) (rest : Bytes)
    (capped : Capped options.limit (seedCapacity (cmf :: flg :: (front ++ rest)).length options)
      options.limit (options.limit + 1)) :
    decode (cmf :: flg :: (front ++ rest)) options =
      .error (.outputLimitExceeded options.limit) := by
  refine decode_exceeds valid ?_ (Nat.lt_add_one _) rest capped
  rwa [Nat.add_sub_cancel, nextRoom, Nat.mul_comm]

/-- **A decoder stops early on too much output.** When the beginning of the body of a zlib stream gives,
on its own, more output than fits up to the first multiple of the piece size beyond the limit, the
limit is passed, whatever follows that beginning, provided that every reservation gives exactly the
capacity that is asked for. The program, whose reservations give more, stops there too if its buffer
begins beyond the limit, and otherwise at twice the limit. -/
theorem decode_stops_early (valid : Header.Valid cmf flg) (front rest : Bytes) (options : Options)
    (limit : Nat) (limited : options.maxOutput = some limit) :
    (∀ [Memory], Memory.Exact (limit + 1) →
      (limit / pieceSize + 1) * pieceSize < (inflate front).1.length →
      decode (cmf :: flg :: (front ++ rest)) options = .error (.outputLimitExceeded limit)) ∧
    (limit < seedCapacity (cmf :: flg :: (front ++ rest)).length options → limit < exhausting →
      (limit / pieceSize + 1) * pieceSize < (inflate front).1.length →
      decode (cmf :: flg :: (front ++ rest)) options = .error (.outputLimitExceeded limit)) ∧
    (limit < exhausting →
      (2 * limit / pieceSize + 1) * pieceSize < (inflate front).1.length →
      decode (cmf :: flg :: (front ++ rest)) options = .error (.outputLimitExceeded limit)) := by
  obtain rfl : options.limit = limit := by rw [Options.limit, limited, Option.getD_some]
  have seeded := seedCapacity_le (cmf :: flg :: (front ++ rest)).length options
  refine ⟨?_, ?_, ?_⟩
  · intro memory exact long
    exact decode_exceeds_piece valid long rest ((exact.mono (Nat.min_le_left _ _)).capped
      (Nat.lt_of_le_of_lt seeded exact.reservable) seeded)
  · intro beyond small long
    have reservable : seedCapacity (cmf :: flg :: (front ++ rest)).length options < unreservable := by
      simp only [exhausting, unreservable] at small ⊢
      omega
    exact decode_exceeds_piece valid long rest (capped_of_seed reservable beyond seeded)
  · intro small long
    have above : options.limit < max leastCapacity (2 * options.limit) := by
      simp only [leastCapacity]
      omega
    refine decode_exceeds valid (Nat.lt_of_le_of_lt ?_ long) above rest (capped_of_lt small seeded)
    simp only [nextRoom, leastCapacity, pieceSize]
    omega

end Streams

/-- The header of a stored block of 40000 bytes. -/
def storedHeader (final : Bool) : Bytes := [if final then 1 else 0, 0x40, 0x9c, 0xbf, 0x63]

/-- Two stored blocks of 40000 zeros. -/
def manyZeros : Bytes :=
  (storedHeader false ++ List.replicate 40000 0) ++ (storedHeader true ++ List.replicate 40000 0)

/-- Two stored blocks of 40000 bytes. What they hold is left open, so that it is never computed. -/
theorem inflate_stored {content : Bytes} (count : content.length = 40000) :
    inflate ((storedHeader false ++ content) ++ (storedHeader true ++ content)) =
      (content ++ content, .complete []) := by
  let block : Deflate.Block := .stored (List.replicate 5 false) content
  have packs (final : Bool) : Deflate.packed (storedHeader final ++ content) = block.bits final := by
    rw [Deflate.packed_append, Deflate.Block.bits, count]
    simp only [← List.append_assoc]
    congr 1
    cases final <;> decide
  have aligned : (block.bits false).length % 8 = 0 := by
    rw [← packs, Deflate.length_packed, Nat.mul_mod_right]
  have blocks : Deflate.Block.AllValid 0 [] [block, block] := by
    refine ⟨⟨by omega, by decide, by decide⟩, ⟨by omega, by decide, ?_⟩, trivial⟩
    simp only [List.length_replicate]
    omega
  have stream : Deflate.IsStream [block, block] (content ++ content)
      ((storedHeader false ++ content) ++ (storedHeader true ++ content)) := by
    refine ⟨List.cons_ne_nil _ _, blocks, rfl, [], by decide, ?_⟩
    rw [Deflate.packed_append, packs, packs, List.append_nil]
    rfl
  have inflated := Deflate.inflate_of_isStream stream []
  rwa [List.append_nil] at inflated

theorem length_manyZeros : (inflate manyZeros).1.length = 80000 := by
  rw [manyZeros, inflate_stored List.length_replicate, List.length_append, List.length_replicate]

/-- The beginning of a stream, cut short in one case and with a fault behind it in the others. Where
reservations are exact, the buffer grows from one byte to one byte beyond a limit of one piece. In the
program it begins beyond the limit, or gets more than it asks for. -/
theorem decode_stops_early_zeros :
    let tight : Options := { maxOutput := some 32768, initialCapacity := some 1 }
    let narrow : Options := { maxOutput := some 100 }
    let wide : Options := { maxOutput := some 16000, initialCapacity := some 16000 }
    Header.Valid 0x78 0x9c ∧
      seedCapacity (0x78 :: 0x9c :: (manyZeros ++ [0xff])).length tight = 1 ∧
      @Buffer.grow Memory.exact 32768 ⟨#[0], 1⟩ = .ok ⟨#[0], 32768 + 1⟩ ∧
      @Memory.Exact Memory.exact (32768 + 1) ∧
      (32768 / pieceSize + 1) * pieceSize < (inflate manyZeros).1.length ∧
      @decode Memory.exact (0x78 :: 0x9c :: (manyZeros ++ [0xff])) tight =
        .error (.outputLimitExceeded 32768) ∧
      100 < seedCapacity (0x78 :: 0x9c :: (manyZeros ++ [])).length narrow ∧
      100 < exhausting ∧
      (100 / pieceSize + 1) * pieceSize < (inflate manyZeros).1.length ∧
      decode (0x78 :: 0x9c :: (manyZeros ++ [])) narrow = .error (.outputLimitExceeded 100) ∧
      16000 < exhausting ∧
      (2 * 16000 / pieceSize + 1) * pieceSize < (inflate manyZeros).1.length ∧
      decode (0x78 :: 0x9c :: (manyZeros ++ [0xff])) wide = .error (.outputLimitExceeded 16000) := by
  intro tight narrow wide
  have valid : Header.Valid 0x78 0x9c := ⟨by decide, by decide, by decide, by decide⟩
  have exact : @Memory.Exact Memory.exact (32768 + 1) := Memory.exact_of_lt (by decide)
  have seed (size : Nat) : 100 < seedCapacity size narrow := by
    simp only [narrow, seedCapacity, wantedCapacity, Options.limit, Option.getD_none, Option.getD_some,
      saturatingAdd, maxSize, pieceSize]
    omega
  have long {count : Nat} (less : count < 80000) : count < (inflate manyZeros).1.length := by
    rwa [length_manyZeros]
  obtain ⟨onExact, -⟩ := decode_stops_early valid manyZeros [0xff] tight 32768 rfl
  obtain ⟨-, onSeed, -⟩ := decode_stops_early valid manyZeros [] narrow 100 rfl
  obtain ⟨-, -, onTwice⟩ := decode_stops_early valid manyZeros [0xff] wide 16000 rfl
  exact ⟨valid, rfl, rfl, exact, long (by decide), @onExact Memory.exact exact (long (by decide)), seed _,
    by decide, long (by decide), onSeed (seed _) (by decide) (long (by decide)), by decide,
    long (by decide), onTwice (by decide) (long (by decide))⟩

end Zlib

end Inflate
