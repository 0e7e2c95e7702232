/-
**The buffer grows safely.**

Sizes are words of 64 bits, and the limit, the size of the input and the capacity at the start are independent
of each other. The sizes of a buffer are computed with additions and products that stop at the greatest word
and with one difference that may wrap around. It never does: what is computed on words is what is computed on
numbers. So a full buffer that keeps to the limit always asks for at least one byte more, for as much again
unless that leads beyond the limit, and never for more than reaches one byte past it.

* `Wrapping.toNat_seedCapacity`, `Wrapping.toNat_growth`: the capacities on words are those on numbers;
* `growth_pos`, `add_growth_le_ceiling`, `min_le_growth`: for how much more a buffer asks;
* `Buffer.grow_cases`: how a request can end; `Buffer.keeps_of_grow`, `Buffer.eq_allocation_of_grow`: and with
  what;
* `Progress.Turned`: what can become of a decoding in one turn; `turned_turn`: the machine gets a buffer that
  has room, or none at all;
* `growth_safe`: all of it, and decoding ends.
-/

import Mathlib
import Inflate.Proofs.Output.StreamEnd
import Inflate.Proofs.Output.Turns

namespace Inflate

open Deflate (Decoder Halt)

/-! ### Sizes as words -/

namespace Wrapping

/-- The greatest word. -/
def greatest : UInt64 := UInt64.ofNat maxSize

/-- The sum of two words, or the greatest word where the sum wraps around. -/
def saturatingAdd (m n : UInt64) : UInt64 := if m + n < m then greatest else m + n

/-- The product of two words, or the greatest word where the product wraps around. -/
def saturatingMul (m n : UInt64) : UInt64 := if n ≠ 0 ∧ m * n / n ≠ m then greatest else m * n

/-- The capacity at the start, on words. -/
def seedCapacity (inputSize limit : UInt64) (initialCapacity : Option UInt64) : UInt64 :=
  let scaled := saturatingMul inputSize (.ofNat seedFactor)
  min (initialCapacity.getD (max (.ofNat pieceSize) (min scaled (.ofNat maxSeed))))
    (saturatingAdd limit 1)

/-- For how much more a full buffer asks, on words. The difference may wrap around. -/
def growth (limit size : UInt64) : UInt64 :=
  min (max size (.ofNat pieceSize)) (saturatingAdd limit 1 - size)

theorem toNat_greatest : greatest.toNat = maxSize := by decide

theorem toNat_saturatingAdd (m n : UInt64) :
    (saturatingAdd m n).toNat = Inflate.saturatingAdd m.toNat n.toNat := by
  have small := m.toNat_lt
  have smallToo := n.toNat_lt
  have wraps_iff : m + n < m ↔ 2 ^ 64 ≤ m.toNat + n.toNat := by
    rw [UInt64.lt_iff_toNat_lt, UInt64.toNat_add]
    omega
  unfold saturatingAdd Inflate.saturatingAdd
  split
  · next wraps =>
    have beyond := wraps_iff.mp wraps
    rw [toNat_greatest, maxSize]
    omega
  · next fits =>
    have within := wraps_iff.not.mp fits
    rw [UInt64.toNat_add, maxSize]
    omega

/-- A product wraps around if and only if it cannot be divided back. -/
theorem mod_div_eq_iff {m n word : Nat} (positive : 0 < n) (small : 0 < word) :
    m * n % word / n = m ↔ m * n < word := by
  constructor
  · intro back
    by_contra beyond
    have less : m * n % word < m * n :=
      Nat.lt_of_lt_of_le (Nat.mod_lt _ small) (Nat.not_lt.mp beyond)
    have wrong : m * n % word / n < m := (Nat.div_lt_iff_lt_mul positive).mpr less
    omega
  · intro fits
    rw [Nat.mod_eq_of_lt fits, Nat.mul_div_cancel _ positive]

theorem toNat_saturatingMul (m n : UInt64) :
    (saturatingMul m n).toNat = min (m.toNat * n.toNat) maxSize := by
  have back : n ≠ 0 → (m * n / n = m ↔ m.toNat * n.toNat < 2 ^ 64) := by
    intro nonzero
    have positive : 0 < n.toNat := by
      rw [Nat.pos_iff_ne_zero, Ne, ← UInt64.toNat_zero, UInt64.toNat_inj]
      exact nonzero
    rw [← UInt64.toNat_inj, UInt64.toNat_div, UInt64.toNat_mul]
    exact mod_div_eq_iff positive (by decide)
  unfold saturatingMul
  split
  · next wraps =>
    have beyond := (back wraps.1).not.mp wraps.2
    rw [toNat_greatest, maxSize]
    omega
  · next fits =>
    have within : m.toNat * n.toNat < 2 ^ 64 := by
      by_cases zero : n = 0
      · rw [zero, UInt64.toNat_zero, Nat.mul_zero]
        decide
      · exact (back zero).mp (not_not.mp fun other => fits ⟨zero, other⟩)
    rw [UInt64.toNat_mul, Nat.mod_eq_of_lt within, maxSize]
    omega

end Wrapping

/-- Options whose sizes are words. -/
def Options.ofWords (maxOutput initialCapacity : Option UInt64) (allowTrailing : Bool) : Options where
  maxOutput := maxOutput.map (·.toNat)
  allowTrailing := allowTrailing
  initialCapacity := initialCapacity.map (·.toNat)

theorem Options.limit_ofWords (maxOutput initialCapacity : Option UInt64) (allowTrailing : Bool) :
    (Options.ofWords maxOutput initialCapacity allowTrailing).limit =
      (maxOutput.getD Wrapping.greatest).toNat := by
  cases maxOutput with
  | none => exact Wrapping.toNat_greatest.symm
  | some limit => rfl

namespace Wrapping

/-- **The capacity at the start** is the same on words as on numbers. -/
theorem toNat_seedCapacity (inputSize : UInt64) (maxOutput initialCapacity : Option UInt64)
    (allowTrailing : Bool) :
    (seedCapacity inputSize (maxOutput.getD greatest) initialCapacity).toNat =
      Inflate.seedCapacity inputSize.toNat
        (.ofWords maxOutput initialCapacity allowTrailing) := by
  have ceiling := toNat_saturatingAdd (maxOutput.getD greatest) 1
  rw [← Options.limit_ofWords maxOutput initialCapacity allowTrailing] at ceiling
  unfold seedCapacity Inflate.seedCapacity wantedCapacity
  rw [UInt64.toNat_min, ceiling]
  congr 1
  cases initialCapacity with
  | some capacity => rfl
  | none =>
    show UInt64.toNat (max _ (min _ _)) = max _ (min _ _)
    rw [UInt64.toNat_max, UInt64.toNat_min, toNat_saturatingMul]
    rfl

/-- **What a full buffer asks for** is the same on words as on numbers, since the difference does not wrap
around. -/
theorem toNat_growth {limit size : UInt64} (within : size ≤ saturatingAdd limit 1) :
    (growth limit size).toNat = Inflate.growth limit.toNat size.toNat := by
  unfold growth Inflate.growth
  rw [UInt64.toNat_min, UInt64.toNat_max, UInt64.toNat_sub_of_le _ _ within, toNat_saturatingAdd]
  rfl

end Wrapping

/-! ### Requests -/

section Requests

variable {limit size : Nat}

/-- A buffer that keeps to the limit, and is not of the greatest size itself, asks for something. -/
theorem growth_pos (under : size ≤ limit) (small : size < 2 ^ 63) : 1 ≤ growth limit size := by
  simp only [growth, saturatingAdd, maxSize, pieceSize]
  omega

/-- The difference between the ceiling and the size of a buffer that keeps to the limit is exact. -/
theorem le_ceiling (under : size ≤ limit) (small : size < 2 ^ 63) : size ≤ saturatingAdd limit 1 := by
  simp only [saturatingAdd, maxSize]
  omega

theorem add_growth_le_ceiling (under : size ≤ limit) (small : size < 2 ^ 63) :
    size + growth limit size ≤ saturatingAdd limit 1 := by
  have exact := le_ceiling under small
  unfold growth
  omega

/-- A buffer asks for as much again, or for all that the limit allows. -/
theorem min_le_growth (limit size : Nat) : min size (saturatingAdd limit 1 - size) ≤ growth limit size := by
  unfold growth
  omega

/-- What is asked for reaches twice the size, or the ceiling. -/
theorem min_le_add_growth (limit size : Nat) :
    min (2 * size) (saturatingAdd limit 1) ≤ size + growth limit size := by
  unfold growth
  omega

end Requests

namespace Buffer

/-- How a request for more can end. -/
theorem grow_cases (limit : Nat) (buffer : Buffer) :
    (limit < buffer.size ∧ buffer.grow limit = .error (.outputLimitExceeded limit)) ∨
      buffer.size ≤ limit ∧
        (buffer.grow limit =
            .error (.allocation (min (buffer.size + growth limit buffer.size) maxSize)) ∨
          ∃ larger, buffer.grow limit = .ok larger ∧ larger.bytes = buffer.bytes ∧
            buffer.size + growth limit buffer.size ≤ larger.capacity) := by
  unfold grow
  split
  · next beyond => exact Or.inl ⟨beyond, rfl⟩
  · next within =>
    refine Or.inr ⟨Nat.not_lt.mp within, ?_⟩
    simp only
    split
    · exact Or.inr ⟨_, rfl, rfl, le_enlarged _ _⟩
    · exact Or.inl rfl

/-- Only a buffer beyond the limit is refused for that. -/
theorem grow_exceeds_iff (limit other : Nat) (buffer : Buffer) :
    buffer.grow limit = .error (.outputLimitExceeded other) ↔ other = limit ∧ limit < buffer.size := by
  rcases buffer.grow_cases limit with ⟨beyond, refused⟩ | ⟨within, refused | ⟨larger, grown, -⟩⟩
  · rw [refused, Except.error.injEq, Failure.outputLimitExceeded.injEq, and_iff_left beyond, eq_comm]
  · rw [refused]
    exact ⟨nofun, fun past => absurd past.2 (Nat.not_lt.mpr within)⟩
  · rw [grown]
    exact ⟨nofun, fun past => absurd past.2 (Nat.not_lt.mpr within)⟩

/-- A buffer that keeps to the limit is refused only for want of memory, with all that it asked for. -/
theorem eq_allocation_of_grow {limit : Nat} {buffer : Buffer} {failure : Failure}
    (under : buffer.size ≤ limit) (refused : buffer.grow limit = .error failure) :
    failure = .allocation (min (buffer.size + growth limit buffer.size) maxSize) := by
  rcases buffer.grow_cases limit with ⟨beyond, -⟩ | ⟨-, same | ⟨larger, grown, -⟩⟩
  · exact absurd under (Nat.not_le.mpr beyond)
  · exact Except.error.inj (refused.symm.trans same)
  · cases grown.symm.trans refused

/-- A buffer that is extended keeps its bytes and gets what it asked for. -/
theorem keeps_of_grow {limit : Nat} {buffer larger : Buffer} (grown : buffer.grow limit = .ok larger) :
    larger.bytes = buffer.bytes ∧ buffer.size + growth limit buffer.size ≤ larger.capacity := by
  rcases buffer.grow_cases limit with ⟨-, refused⟩ | ⟨-, refused | ⟨other, same, keeps⟩⟩
  · cases refused.symm.trans grown
  · cases refused.symm.trans grown
  · cases same.symm.trans grown
    exact keeps

/-- A buffer is left alone unless it is full. -/
theorem makeRoom_error {limit : Nat} {buffer : Buffer} {failure : Failure}
    (refused : buffer.makeRoom limit = .error failure) :
    buffer.room = 0 ∧ buffer.grow limit = .error failure := by
  unfold makeRoom at refused
  split at refused
  · next full => exact ⟨Nat.sub_eq_zero_of_le full, refused⟩
  · cases refused

end Buffer

/-! ### Turns -/

namespace Progress

/-- What can become of a decoding in one turn: the machine decodes, or bytes are moved, with a buffer that has
room; or the whole of a piece has been moved and the limit is looked at; or the buffer is full, cannot be
extended, and that ends the decoding. -/
inductive Turned (frame : Frame) (limit : Nat) : Progress → Progress → Prop where
  | decoded {decoder : Decoder} {buffer roomy : Buffer} (made : buffer.makeRoom limit = .ok roomy)
    (room : 0 < roomy.room) :
    Turned frame limit (decoding decoder buffer)
      (afterPiece roomy decoder.output.size (decodePiece frame decoder))
  | moved {decoder : Decoder} {halt : Halt} {piece : Bytes} {buffer roomy : Buffer} (waits : piece ≠ [])
    (made : buffer.makeRoom limit = .ok roomy) (room : 0 < roomy.room) :
    Turned frame limit (delivering decoder halt piece buffer)
      (orEnd decoder ((roomy.append (piece.take roomy.room)).checkLimit limit) fun filled =>
        delivering decoder halt (piece.drop roomy.room) filled)
  | whole {decoder : Decoder} {halt : Halt} {buffer : Buffer} :
    Turned frame limit (delivering decoder halt [] buffer)
      (orEnd decoder (buffer.checkLimit limit) fun filled => afterDelivery decoder filled halt)
  | refused {progress : Progress} {buffer : Buffer} {failure : Failure}
    (holds : progress.buffer? = some buffer) (full : buffer.room = 0)
    (refused : buffer.grow limit = .error failure) :
    Turned frame limit progress (ended progress.decoder (.error failure))
  | over {decoder : Decoder} {outcome : Except Failure (Bytes × Buffer)} :
    Turned frame limit (ended decoder outcome) (ended decoder outcome)

/-- **A turn** calls the machine with a buffer that has room, or not at all. -/
theorem turned_turn (frame : Frame) (limit : Nat) (progress : Progress) :
    Turned frame limit progress (progress.turn frame limit) := by
  cases progress with
  | decoding decoder buffer =>
    rw [turn]
    cases made : buffer.makeRoom limit with
    | error failure =>
      obtain ⟨full, refused⟩ := Buffer.makeRoom_error made
      exact .refused rfl full refused
    | ok roomy => exact .decoded made (Buffer.room_pos_of_makeRoom made)
  | delivering decoder halt piece buffer =>
    cases piece with
    | nil => exact .whole
    | cons byte rest =>
      show Turned frame limit _ (orEnd decoder (buffer.makeRoom limit) _)
      cases made : buffer.makeRoom limit with
      | error failure =>
        obtain ⟨full, refused⟩ := Buffer.makeRoom_error made
        exact .refused rfl full refused
      | ok roomy => exact .moved (List.cons_ne_nil _ _) made (Buffer.room_pos_of_makeRoom made)
  | ended decoder outcome => exact .over

end Progress

/-- A decoder that cannot get room for its first byte fails for that, before it looks at the input. -/
theorem inflateInto_of_refused {limit : Nat} {buffer : Buffer} {failure : Failure}
    (refused : buffer.makeRoom limit = .error failure) (inflater : Inflater) (input : Bytes) :
    inflater.inflateInto limit input buffer = .error failure := by
  have stops (frame : Frame) (rest : Bytes) : decodeInto frame limit rest buffer = .error failure := by
    unfold decodeInto
    rw [decodeOn, refused]
    rfl
  unfold Inflater.inflateInto
  cases inflater with
  | raw => exact congrArg (counted input) (stops .bare input)
  | zlib =>
    simp only
    split
    · exact congrArg (counted input) (stops .checked _)
    · rw [refused]
      rfl
    · rw [refused]
      rfl

/-- **The buffer grows safely.** On words the capacity at the start and what a full buffer asks for are
what they are on numbers, and the capacity at the start keeps to the ceiling, which is one byte past the
limit or the greatest size. A buffer of fewer than `2 ^ 63` bytes that keeps to the limit asks for
something, for nothing beyond the ceiling, and for as much again or all that the ceiling leaves. Only a
buffer beyond the limit is refused for that; and one that is extended keeps its bytes and gets what it
asked for. So a buffer that is full and cannot be extended is refused before the input is looked at; and at
every turn of decoding the machine is called with a buffer that has room or not at all, a buffer that
cannot be extended ends the decoding, every turn brings it closer to its end, and it ends. -/
theorem growth_safe :
    (∀ (inputSize : UInt64) (maxOutput initialCapacity : Option UInt64) (allowTrailing : Bool),
      let options : Options := .ofWords maxOutput initialCapacity allowTrailing
      (Wrapping.seedCapacity inputSize (maxOutput.getD Wrapping.greatest) initialCapacity).toNat =
          seedCapacity inputSize.toNat options ∧
        seedCapacity inputSize.toNat options ≤ saturatingAdd options.limit 1) ∧
    (∀ limit size : UInt64, size ≤ limit → size.toNat < 2 ^ 63 →
      size ≤ Wrapping.saturatingAdd limit 1 ∧
        (Wrapping.growth limit size).toNat = growth limit.toNat size.toNat ∧
        1 ≤ growth limit.toNat size.toNat ∧
        size.toNat + growth limit.toNat size.toNat ≤ saturatingAdd limit.toNat 1 ∧
        min size.toNat (saturatingAdd limit.toNat 1 - size.toNat) ≤ growth limit.toNat size.toNat ∧
        min (2 * size.toNat) (saturatingAdd limit.toNat 1) ≤
          size.toNat + growth limit.toNat size.toNat) ∧
    (∀ (limit : Nat) (buffer : Buffer),
      (∀ other, buffer.grow limit = .error (.outputLimitExceeded other) ↔
        other = limit ∧ limit < buffer.size) ∧
      (∀ failure, buffer.size ≤ limit → buffer.grow limit = .error failure →
        failure = .allocation (min (buffer.size + growth limit buffer.size) maxSize)) ∧
      ∀ larger, buffer.grow limit = .ok larger → larger.bytes = buffer.bytes ∧
        buffer.size + growth limit buffer.size ≤ larger.capacity) ∧
    (∀ (inflater : Inflater) (limit : Nat) (input : Bytes) (buffer : Buffer) (failure : Failure),
      buffer.makeRoom limit = .error failure →
        inflater.inflateInto limit input buffer = .error failure) ∧
    ∀ (frame : Frame) (limit : Nat) (input : Bytes) (buffer : Buffer), buffer.Sound →
      (∀ turns, let progress := (Progress.start input buffer).after frame limit turns
        Progress.Turned frame limit progress (progress.turn frame limit) ∧
          (progress.buffer? ≠ none →
            (progress.turn frame limit).remaining < progress.remaining)) ∧
      ∃ turns ≤ Progress.most input.length, ∃ last,
        (Progress.start input buffer).after frame limit turns =
          .ended last (decodeInto frame limit input buffer) := by
  refine ⟨?_, ?_, ?_, ?_, ?_⟩
  · intro inputSize maxOutput initialCapacity allowTrailing options
    exact ⟨Wrapping.toNat_seedCapacity inputSize maxOutput initialCapacity allowTrailing,
      Nat.min_le_right _ _⟩
  · intro limit size within small
    rw [UInt64.le_iff_toNat_le] at within
    have exact : size ≤ Wrapping.saturatingAdd limit 1 := by
      rw [UInt64.le_iff_toNat_le, Wrapping.toNat_saturatingAdd]
      exact le_ceiling within small
    exact ⟨exact, Wrapping.toNat_growth exact, growth_pos within small,
      add_growth_le_ceiling within small, min_le_growth _ _, min_le_add_growth _ _⟩
  · intro limit buffer
    exact ⟨fun other => buffer.grow_exceeds_iff limit other,
      fun failure under refused => Buffer.eq_allocation_of_grow under refused,
      fun larger grown => Buffer.keeps_of_grow grown⟩
  · intro inflater limit input buffer failure refused
    exact inflateInto_of_refused refused inflater input
  · intro frame limit input buffer sound
    refine ⟨fun turns => ⟨Progress.turned_turn frame limit _, ?_⟩, ?_⟩
    · exact Progress.remaining_turn_lt (Progress.kept_after frame limit input sound turns)
    · exact Progress.exists_ended_decodeInto frame limit input sound

/-- The greatest input under the greatest limit, and a capacity of nothing under a limit of nothing; a full
buffer under either limit; a buffer beyond its limit, and one whose capacity cannot be doubled; and an empty
stream. -/
theorem growth_safe_extremes :
    (Wrapping.seedCapacity Wrapping.greatest Wrapping.greatest none).toNat =
        seedCapacity maxSize (.ofWords none none false) ∧
      seedCapacity maxSize (.ofWords none none false) = maxSeed ∧
      seedCapacity 0 (.ofWords (some 0) (some 0) false) ≤ 1 ∧
      (0 : UInt64) ≤ 0 ∧ (0 : UInt64).toNat < 2 ^ 63 ∧ growth 0 0 = 1 ∧
      UInt64.ofNat (2 ^ 63 - 1) ≤ Wrapping.greatest ∧ (UInt64.ofNat (2 ^ 63 - 1)).toNat < 2 ^ 63 ∧
      (Wrapping.growth Wrapping.greatest (.ofNat (2 ^ 63 - 1))).toNat = 2 ^ 63 - 1 ∧
      Buffer.grow 1 ⟨#[0, 0], 2⟩ = .error (.outputLimitExceeded 1) ∧
      Buffer.grow maxSize ⟨#[], 2 ^ 61⟩ = .error (.allocation (min (0 + growth maxSize 0) maxSize)) ∧
      (∃ larger, Buffer.grow 0 {} = .ok larger ∧ 0 + 1 ≤ larger.capacity) ∧
      Buffer.makeRoom 1 ⟨#[0, 0], 2⟩ = .error (.outputLimitExceeded 1) ∧
      Inflater.zlib.inflateInto 1 [0] ⟨#[0, 0], 2⟩ = .error (.outputLimitExceeded 1) ∧
      Buffer.Sound {} ∧
      Progress.Turned .bare 0 (Progress.start [3, 0] {}) ((Progress.start [3, 0] {}).turn .bare 0) ∧
      ((Progress.start [3, 0] {}).turn .bare 0).remaining < (Progress.start [3, 0] {}).remaining ∧
      ∃ turns ≤ Progress.most 2, ∃ last, (Progress.start [3, 0] {}).after .bare 0 turns =
        .ended last (decodeInto .bare 0 [3, 0] {}) := by
  obtain ⟨seeds, asks, ends, stops, runs⟩ := growth_safe
  have greatest := seeds Wrapping.greatest none none false
  have nothing := seeds 0 (some 0) (some 0) false
  have least := asks 0 0 (by decide) (by decide)
  have half := asks Wrapping.greatest (.ofNat (2 ^ 63 - 1)) (by decide) (by decide)
  have one : growth 0 0 = 1 := Nat.le_antisymm (by decide) least.2.2.1
  have rest : (Wrapping.growth Wrapping.greatest (.ofNat (2 ^ 63 - 1))).toNat = 2 ^ 63 - 1 := by
    rw [half.2.1]
    decide
  have beyond : Buffer.grow 1 ⟨#[0, 0], 2⟩ = .error (.outputLimitExceeded 1) :=
    ((ends 1 ⟨#[0, 0], 2⟩).1 1).mpr ⟨rfl, by decide⟩
  have refused : Buffer.grow maxSize ⟨#[], 2 ^ 61⟩ = .error (.allocation 32768) := rfl
  have grown : Buffer.grow 0 {} = .ok { capacity := 8 } := rfl
  have sound : Buffer.Sound {} := ⟨Nat.le_refl _, by decide⟩
  have run := runs .bare 0 [3, 0] {} sound
  refine ⟨greatest.1, by decide, nothing.2, by decide, by decide, one, by decide, by decide, rest, beyond,
    ?_, ⟨_, grown, ?_⟩, beyond, stops .zlib 1 [0] _ _ beyond, sound, (run.1 0).1,
    (run.1 0).2 (by decide), run.2⟩
  · exact refused.trans (congrArg Except.error ((ends maxSize ⟨#[], 2 ^ 61⟩).2.1 _ (by decide) refused))
  · rw [← one]
    exact ((ends 0 {}).2.2 _ grown).2

end Inflate
