/-
**The least length of a stream.**

A block header takes three bits and, unless it names the fixed codes, at least six more. Under the
fixed codes every item takes at least seven bits, the end of the block included. So no complete
stream fits in one byte.

* `fits_of_readBlockHeader`: a header of fewer than nine bits names the fixed codes;
* `two_le_length_of_inflate`: a complete stream takes at least two bytes.
-/

import Inflate.Proofs.Deflate.Extension

namespace Inflate

namespace Deflate

open Reading (bit bits composed_bits composed_map composed_many)

/-! ### Words of the fixed codes -/

/-- Where the first rows are empty, a word is longer than their count. -/
theorem PrefixCode.consumes_readFrom_replicate (count : Nat) (rows : List (Array Nat))
    (number : Nat) :
    (readFrom (List.replicate count #[] ++ rows) number).Consumes (count + 1) := by
  induction count generalizing number with
  | zero => exact consumes_readFrom rows number
  | succ count ih =>
    have taken : (readFrom (#[] :: (List.replicate count #[] ++ rows)) number).Consumes
        (1 + (count + 1)) := by
      refine Reading.consumes_bit.bind fun low => ?_
      simp only
      split
      · next found => cases found
      · exact ih _
    exact taken.mono (by omega)

theorem consumes_read_fixed : fixedCodes.literals.read.Consumes 7 := by
  have front : fixedCodes.literals.rows.take 6 = List.replicate 6 #[] := by decide +kernel
  unfold PrefixCode.read
  rw [← List.take_append_drop 6 fixedCodes.literals.rows, front]
  exact PrefixCode.consumes_readFrom_replicate 6 _ 0

theorem consumes_readItem_fixed : (readItem fixedCodes).Consumes 7 := by
  unfold readItem
  refine consumes_read_fixed.bind (n := 0) fun symbol => ?_
  split
  · exact Reading.consumes_pure _
  · split
    · exact Reading.consumes_pure _
    · refine (consumes_readClass _).bind (n := 0) fun length => ?_
      refine (fixedCodes.distances.consumes_read.mono (Nat.zero_le 1)).bind (n := 0) fun symbol => ?_
      exact (consumes_readClass _).bind (n := 0) fun distance => Reading.consumes_pure _

/-! ### Block headers -/

theorem consumes_readCodes_counts : readCodes.Consumes 14 := by
  have number : ∀ least width : Nat,
      Reading.Consumes ((least + ·) <$> bits width) width := fun least width =>
    (Reading.consumes_bits width).bind fun _ => Reading.consumes_pure _
  unfold readCodes
  refine (number 257 5).bind (n := 9) fun literalCount => ?_
  refine (number 1 5).bind (n := 4) fun distanceCount => ?_
  refine (number 4 4).bind (n := 0) fun lengthCount => ?_
  split
  · exact Reading.consumes_fault 0
  · refine (composed_many _ (composed_bits 3)).extends.consumes.bind (n := 0) fun written => ?_
    simp only
    split
    · refine (consumes_readLengths _ _ _).bind (n := 0) fun lengths => ?_
      split
      · exact Reading.consumes_pure _
      · exact Reading.consumes_fault 0
    · exact Reading.consumes_fault 0

/-- A header takes nine bits or more, unless it names the fixed codes. -/
theorem fits_of_readBlockHeader {reader rest : BitReader} {header : BlockHeader}
    (read : readBlockHeader reader = .read header rest) :
    rest.size + 9 ≤ reader.size ∨
      (header.body = .compressed fixedCodes ∧ rest.size + 3 ≤ reader.size) := by
  have whole := consumes_readBlockHeader _ _ _ read
  unfold readBlockHeader at read
  obtain ⟨final, first, firstRead, read⟩ := Reading.read_of_bind read
  obtain ⟨kind, second, secondRead, read⟩ := Reading.read_of_bind read
  have firstTaken := Reading.consumes_bit _ _ _ firstRead
  have secondTaken := Reading.consumes_bits 2 _ _ _ secondRead
  split at read
  · obtain ⟨count, third, thirdRead, read⟩ := Reading.read_of_bind read
    have thirdTaken := consumes_readStoredCount _ _ _ thirdRead
    cases read
    exact Or.inl (by omega)
  split at read
  · cases read
    exact Or.inr ⟨rfl, whole⟩
  split at read
  · obtain ⟨codes, third, thirdRead, read⟩ := Reading.read_of_bind read
    have thirdTaken := consumes_readCodes_counts _ _ _ thirdRead
    cases read
    exact Or.inl (by omega)
  · cases read

/-! ### Whole streams -/

/-- **A complete stream takes at least two bytes.** -/
theorem two_le_length_of_inflate {body output : Bytes}
    (completes : inflate body = (output, .complete [])) : 2 ≤ body.length := by
  have stops : ((Decoder.start body).run none).2 = .complete [] := congrArg Prod.snd completes
  have size : (BitReader.ofBytes body).size = 8 * body.length := by
    simp [BitReader.ofBytes, BitReader.size]
  obtain ⟨move, rest, moved, steps⟩ := Decoder.read_of_run stops
  obtain ⟨header, read, rfl⟩ := Reading.read_of_map moved
  have begun : readBlockHeader (BitReader.ofBytes body) = .read header rest := read
  rcases fits_of_readBlockHeader begun with fits | ⟨fixed, fits⟩
  · omega
  · -- under the fixed codes at least one item follows the header
    have phase : header.phase = .items header.final fixedCodes := by
      simp only [BlockHeader.phase, fixed]
    rw [phase] at steps
    rw [Decoder.run_of_next steps] at stops
    obtain ⟨itemMove, after, itemMoved, _⟩ := Decoder.read_of_run stops
    obtain ⟨item, itemRead, _⟩ := Reading.read_of_map itemMoved
    have begunItem : readItem fixedCodes rest = .read item after := itemRead
    have taken := consumes_readItem_fixed _ _ _ begunItem
    omega

end Deflate

end Inflate
