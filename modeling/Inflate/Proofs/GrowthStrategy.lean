/-
**The growth of the buffer does not show.**

How much is reserved at the start decides how often the buffer grows, how much room a piece finds and
when the limit is looked at. As long as no capacity goes beyond the limit by more than one byte, as where
memory gives exactly what is asked for, none of this shows: a piece that leaves room in the buffer keeps to
the limit, so a look at the limit that one run makes and the other one leaves out would have found
nothing. Two runs that begin with different capacities then give the same, errors included.

* `Concur`: two operations give related values, or fail alike;
* `Level`: the buffers of the two runs;
* `concur_decodeInto`: a stream is decoded into both buffers alike;
* `Zlib.decode_capacity`, `Gzip.decode_capacity`: two runs with different capacities at the start;
* `Zlib.decode_of_unreserved`, `Gzip.decode_of_unreserved`: a capacity that cannot be reserved;
* `Zlib.decode_of_accepted`, `Gzip.decode_of_accepted`: whatever is reserved, what is accepted is;
* `decode_growth`: all of this for both containers.
-/

import Inflate.Proofs.Outcomes
import Inflate.Proofs.Output.Capacity
import Inflate.Proofs.Output.Reservation

namespace Inflate

open Deflate (Decoder Halt expansion inflate)

/-! ### Operations that concur -/

/-- Two operations give related values, or fail with the same failure. -/
inductive Concur {α β : Type} (related : α → β → Prop) :
    Except Failure α → Except Failure β → Prop where
  | both {value : α} {other : β} (alike : related value other) :
    Concur related (.ok value) (.ok other)
  | neither (failure : Failure) : Concur related (.error failure) (.error failure)

section Outcomes

variable {α β γ δ : Type} {related : α → β → Prop} {further : γ → δ → Prop}
  {first : Except Failure α} {second : Except Failure β}

/-- Operations that concur, one after the other, concur. -/
theorem Concur.bind (concur : Concur related first second) {next : α → Except Failure γ}
    {nextSecond : β → Except Failure δ}
    (onValues : ∀ value other, first = .ok value → second = .ok other → related value other →
      Concur further (next value) (nextSecond other)) :
    Concur further (first >>= next) (second >>= nextSecond) := by
  cases concur with
  | both alike => exact onValues _ _ rfl rfl alike
  | neither failure => exact .neither failure

/-- A check that both runs make. -/
theorem Concur.guard {refused : Prop} [Decidable refused] {failure : Failure}
    (passed : ¬refused → Concur related first second) :
    Concur related (if refused then .error failure else first)
      (if refused then .error failure else second) := by
  by_cases stop : refused
  · rw [if_pos stop, if_pos stop]
    exact .neither failure
  · rw [if_neg stop, if_neg stop]
    exact passed stop

theorem Concur.same {outcome : Except Failure α} {related : α → α → Prop}
    (onValue : ∀ value, related value value) : Concur related outcome outcome := by
  cases outcome with
  | ok value => exact .both (onValue value)
  | error failure => exact .neither failure

theorem Concur.imp {weaker : α → β → Prop} (concur : Concur related first second)
    (onValues : ∀ value other, first = .ok value → related value other → weaker value other) :
    Concur weaker first second := by
  cases concur with
  | both alike => exact .both (onValues _ _ rfl alike)
  | neither failure => exact .neither failure

theorem Concur.eq {outcome other : Except Failure α} (concur : Concur (· = ·) outcome other) :
    outcome = other := by
  cases concur with
  | both alike => rw [alike]
  | neither failure => rfl

/-- Two operations concur if both succeed within the limit, and otherwise name it. -/
theorem Concur.of_ends {limit total : Nat} {value : α → Prop} {otherValue : β → Prop}
    (ends : Ends first value (PastLimit limit total))
    (secondEnds : Ends second otherValue (PastLimit limit total))
    (under : ∀ result, value result → total ≤ limit)
    (secondUnder : ∀ result, otherValue result → total ≤ limit)
    (onValues : ∀ result other, value result → otherValue other → related result other) :
    Concur related first second := by
  cases first with
  | ok result =>
    cases second with
    | ok other => exact .both (onValues result other ends secondEnds)
    | error failure => exact absurd secondEnds.2 (Nat.not_lt.mpr (under result ends))
  | error failure =>
    cases second with
    | ok other => exact absurd ends.2 (Nat.not_lt.mpr (secondUnder other secondEnds))
    | error other =>
      obtain ⟨rfl, -⟩ := ends
      obtain ⟨rfl, -⟩ := secondEnds
      exact .neither _

end Outcomes

/-- The options with another capacity at the start. -/
def Options.reserving (options : Options) (capacity : Option Nat) : Options :=
  { options with initialCapacity := capacity }

@[simp] theorem Options.limit_reserving (options : Options) (capacity : Option Nat) :
    (options.reserving capacity).limit = options.limit := rfl

/-! ### Two buffers -/

section Reservations

variable [Memory]

/-- The buffers of two runs, one of which began with the capacity `seed` and one with `other`: they hold
the same, within the limit, and neither goes beyond it by more than one byte. -/
structure Level (limit seed other : Nat) (buffer second : Buffer) : Prop where
  bytes : buffer.bytes = second.bytes
  under : buffer.size ≤ limit
  kept : buffer.Kept limit seed (limit + 1)
  secondKept : second.Kept limit other (limit + 1)

section Levels

variable {limit seed other : Nat} {buffer second : Buffer}

theorem Level.size_eq (level : Level limit seed other buffer second) : buffer.size = second.size :=
  congrArg Array.size level.bytes

/-- Two operations that append a piece, or find that the limit has been passed. -/
theorem Level.concur_append {outcome secondOutcome : Except Failure Buffer} {piece : Bytes}
    (level : Level limit seed other buffer second)
    (ends : Ends outcome (buffer.Appended limit seed (limit + 1) piece)
      (PastLimit limit (buffer.size + piece.length)))
    (secondEnds : Ends secondOutcome (second.Appended limit other (limit + 1) piece)
      (PastLimit limit (second.size + piece.length))) :
    Concur (fun filled secondFilled => Level limit seed other filled secondFilled ∧
      filled.size = buffer.size + piece.length) outcome secondOutcome := by
  rw [← level.size_eq] at secondEnds
  refine .of_ends ends secondEnds (fun filled appended => ?_) (fun filled appended => ?_) ?_
  · rw [← appended.size_eq]
    exact Nat.le_of_lt_succ appended.below
  · rw [level.size_eq, ← appended.size_eq]
    exact Nat.le_of_lt_succ appended.below
  · intro filled secondFilled appended secondAppended
    refine ⟨⟨?_, Nat.le_of_lt_succ appended.below, appended.kept, secondAppended.kept⟩,
      appended.size_eq⟩
    apply Array.toList_inj.mp
    rw [appended.contents, secondAppended.contents, level.bytes]

end Levels

section Streams

variable {limit seed other most : Nat} (capped : Capped limit seed most (limit + 1))
  (otherCapped : Capped limit other most (limit + 1)) {buffer second : Buffer}

include capped otherCapped

theorem level_of_reserve :
    Level limit seed other ({ capacity := seed } : Buffer) { capacity := other } :=
  ⟨rfl, Nat.zero_le _, Buffer.kept_of_reserve capped, Buffer.kept_of_reserve otherCapped⟩

theorem Level.concur_makeRoom (level : Level limit seed other buffer second)
    (few : buffer.size ≤ most) :
    Concur (fun roomy secondRoomy => Level limit seed other roomy secondRoomy ∧
      roomy.size = buffer.size) (buffer.makeRoom limit) (second.makeRoom limit) := by
  have size := level.size_eq
  have ends := buffer.makeRoom_kept capped level.kept (by omega)
  have secondEnds := second.makeRoom_kept otherCapped level.secondKept (by omega)
  rw [← size] at secondEnds
  refine .of_ends ends secondEnds (fun _ _ => level.under) (fun _ _ => level.under) ?_
  rintro roomy secondRoomy ⟨same, kept⟩ ⟨secondSame, secondKept⟩
  have held : roomy.size = buffer.size := congrArg Array.size same
  refine ⟨⟨?_, held ▸ level.under, kept, secondKept⟩, held⟩
  rw [same, secondSame, level.bytes]

/-- How decoding ends after the last piece. -/
theorem Level.concur_finish (level : Level limit seed other buffer second) (piece : Bytes)
    (few : buffer.size + piece.length ≤ most) (halt : Halt) :
    Concur (fun decoded same => decoded.1 = same.1 ∧ Level limit seed other decoded.2 same.2)
      (finish limit buffer piece halt) (finish limit second piece halt) := by
  have size := level.size_eq
  have delivered := level.concur_append
    (buffer.deliver_kept capped (Nat.lt_add_one _) level.kept piece (by omega))
    (second.deliver_kept otherCapped (Nat.lt_add_one _) level.secondKept piece (by omega))
  cases halt with
  | fault => exact .neither _
  | complete rest =>
    refine delivered.bind ?_
    rintro filled secondFilled - - ⟨filledLevel, -⟩
    exact .both ⟨rfl, filledLevel⟩
  | short | full => exact delivered.bind fun _ _ _ _ _ => .neither _

/-- **Decoding on** gives the same in both buffers. -/
theorem concur_decodeOn (frame : Frame) (decoder : Decoder) {buffer second : Buffer}
    (level : Level limit seed other buffer second)
    (few : buffer.size + (writtenSince decoder.output.size (decoder.run none).1).length ≤ most) :
    Concur (fun decoded same => decoded.1 = same.1 ∧ Level limit seed other decoded.2 same.2)
      (decodeOn frame limit decoder buffer) (decodeOn frame limit decoder second) := by
  induction decoder using decodePiece_induction frame generalizing buffer second with
  | onward decoder last piece whole kept ih =>
    rw [writtenSince_onward whole kept, List.length_append] at few
    rw [decodeOn_of_full piece, decodeOn_of_full piece]
    refine (level.concur_makeRoom capped otherCapped (by omega)).bind ?_
    rintro roomy secondRoomy - - ⟨roomyLevel, held⟩
    have size := roomyLevel.size_eq
    have taken := roomyLevel.concur_append
      (takePiece_kept capped (Nat.lt_add_one _) roomyLevel.kept
        (writtenSince decoder.output.size last) (by omega) last)
      (takePiece_kept otherCapped (Nat.lt_add_one _) roomyLevel.secondKept
        (writtenSince decoder.output.size last) (by omega) last)
    refine taken.bind ?_
    rintro filled secondFilled - - ⟨filledLevel, filledSize⟩
    exact ih filledLevel (by omega)
  | final decoder piece stops =>
    rw [decodeOn_of_final piece stops, decodeOn_of_final piece stops]
    refine (level.concur_makeRoom capped otherCapped (by omega)).bind ?_
    rintro roomy secondRoomy - - ⟨roomyLevel, held⟩
    exact roomyLevel.concur_finish capped otherCapped _ (by omega) _

/-- **A stream is decoded into both buffers alike**, and what follows it can give no more than what is
left. -/
theorem concur_decodeInto (frame : Frame) (level : Level limit seed other buffer second)
    (input : Bytes) (few : buffer.size + expansion * input.length ≤ most) :
    Concur (fun decoded same => decoded.1 = same.1 ∧ Level limit seed other decoded.2 same.2 ∧
        decoded.2.size + expansion * decoded.1.length ≤ most)
      (decodeInto frame limit input buffer) (decodeInto frame limit input second) := by
  have output := Deflate.output_add_rest_le input
  have written : writtenSince (Decoder.start input).output.size
      ((Decoder.start input).run none).1 = (inflate input).1 := by
    rw [writtenSince_eq]
    rfl
  have concur : Concur _ (decodeInto frame limit input buffer) (decodeInto frame limit input second) :=
    concur_decodeOn capped otherCapped frame (Decoder.start input) level
      (by rw [written]; omega)
  refine concur.imp ?_
  rintro ⟨rest, filled⟩ ⟨_, secondFilled⟩ decoded ⟨rfl, filledLevel⟩
  have delivered := decodeInto_spec frame limit input level.kept.sound
  rw [decoded] at delivered
  obtain ⟨complete, holds⟩ := delivered.of_ok
  have left := size_add_rest_le complete holds
  exact ⟨rfl, filledLevel, Nat.le_trans left few⟩

end Streams

/-! ### Containers -/

namespace Gzip

section Members

variable {limit seed other most : Nat} (capped : Capped limit seed most (limit + 1))
  (otherCapped : Capped limit other most (limit + 1))

include capped otherCapped

/-- **A member is decoded into both buffers alike.** -/
theorem concur_decodeMember {buffer second : Buffer}
    (level : Level limit seed other buffer second) (input : Bytes)
    (few : buffer.size + expansion * input.length ≤ most) :
    Concur (fun decoded same => decoded.1 = same.1 ∧ decoded.2.1 = same.2.1 ∧
        Level limit seed other decoded.2.2 same.2.2 ∧
        decoded.2.2.size + expansion * decoded.2.1.length ≤ most)
      (decodeMember limit input buffer) (decodeMember limit input second) := by
  have size := level.size_eq
  unfold decodeMember
  cases Header.parse input with
  | error failure => exact .neither failure
  | ok header =>
    rw [bind_of_ok rfl, bind_of_ok rfl]
    have shorter : expansion * (input.drop header.length).length ≤ expansion * input.length :=
      Nat.mul_le_mul_left _ (by simp)
    refine Concur.guard fun long => (concur_decodeInto capped otherCapped .bare level
      (input.drop header.length) (by omega)).bind ?_
    rintro ⟨rest, filled⟩ ⟨_, secondFilled⟩ - - ⟨rfl, filledLevel, left⟩
    have bytes : filled.bytes = secondFilled.bytes := filledLevel.bytes
    have filledSize : filled.size = secondFilled.size := filledLevel.size_eq
    simp only [bytes, size, filledSize]
    refine Concur.guard fun enough => ?_
    refine (Concur.same fun checksum => Eq.refl checksum).bind ?_
    rintro checksum _ - - rfl
    have fewer : expansion * (rest.drop trailerLength).length ≤ expansion * rest.length :=
      Nat.mul_le_mul_left _ (by simp)
    refine .both ⟨rfl, rfl, filledLevel, ?_⟩
    simp only at left ⊢
    omega

/-- **All members are decoded into both buffers alike.** -/
theorem concur_walk {buffer second : Buffer}
    (level : Level limit seed other buffer second) (input : Bytes)
    (few : buffer.size + expansion * input.length ≤ most) :
    Concur (fun decoded same => decoded.1 = same.1 ∧ decoded.2.1 = same.2.1 ∧
        decoded.2.2.bytes = same.2.2.bytes)
      (walk limit input buffer).outcome (walk limit input second).outcome := by
  rw [outcome_walk, outcome_walk]
  refine (concur_decodeMember capped otherCapped level input few).bind ?_
  rintro ⟨member, rest, filled⟩ ⟨_, _, secondFilled⟩ decoded - ⟨rfl, rfl, filledLevel, left⟩
  have fewer : rest.length < input.length := length_lt_of_decodeMember decoded
  by_cases more : magic <+: rest
  · simp only [if_pos more]
    refine (concur_walk filledLevel rest left).bind ?_
    rintro ⟨members, trailing, last⟩ ⟨_, _, secondLast⟩ - - ⟨rfl, rfl, bytes⟩
    exact .both ⟨rfl, rfl, bytes⟩
  · simp only [if_neg more]
    exact .both ⟨rfl, rfl, filledLevel.bytes⟩
termination_by input.length

end Members

end Gzip

section Capacities

variable {options : Options} {first second : Option Nat} {input : Bytes}
  (capped : Capped options.limit (seedCapacity input.length (options.reserving first))
    (expansion * input.length) (options.limit + 1))
  (secondCapped : Capped options.limit (seedCapacity input.length (options.reserving second))
    (expansion * input.length) (options.limit + 1))

include capped secondCapped

/-- **A file** is decoded in the same way from both capacities. -/
theorem Gzip.decode_capacity :
    decode input (options.reserving first) = decode input (options.reserving second) := by
  rw [decode_eq_conclude, decode_eq_conclude, bind_of_ok capped.begins,
    bind_of_ok secondCapped.begins]
  have walked := concur_walk capped secondCapped (level_of_reserve capped secondCapped) input
    (Nat.le_of_eq (Nat.zero_add _))
  apply Concur.eq
  refine walked.bind ?_
  rintro ⟨members, trailing, filled⟩ ⟨_, _, secondFilled⟩ - - ⟨rfl, rfl, bytes⟩
  simp only at bytes
  simp only [bytes]
  exact Concur.same fun _ => rfl

/-- **A stream** is decoded in the same way from both capacities. -/
theorem Zlib.decode_capacity :
    decode input (options.reserving first) = decode input (options.reserving second) := by
  have body : decodeBody input (options.reserving first) =
      decodeBody input (options.reserving second) := by
    have shorter : expansion * (input.drop Header.length).length ≤ expansion * input.length :=
      Nat.mul_le_mul_left _ (by simp)
    have concur := concur_decodeInto capped secondCapped .checked
      (level_of_reserve capped secondCapped) (input.drop Header.length)
      (Nat.le_trans (Nat.le_of_eq (Nat.zero_add _)) shorter)
    unfold decodeBody
    rw [bind_of_ok capped.begins, bind_of_ok secondCapped.begins]
    simp only [Options.limit_reserving]
    generalize decodeInto .checked options.limit (input.drop Header.length)
      { capacity := seedCapacity input.length (options.reserving first) } = outcome at concur ⊢
    generalize decodeInto .checked options.limit (input.drop Header.length)
      { capacity := seedCapacity input.length (options.reserving second) } = secondOutcome at concur ⊢
    cases concur with
    | @both decoded other alike =>
      obtain ⟨rest, filled⟩ := decoded
      obtain ⟨_, secondFilled⟩ := other
      obtain ⟨rfl, level, -⟩ := alike
      have bytes : filled.bytes = secondFilled.bytes := level.bytes
      simp only [bytes]
    | neither failure => cases failure <;> rfl
  rw [decode_eq_conclude, decode_eq_conclude, body]
  rfl

end Capacities

/-! ### Capacities that cannot be reserved -/

section Unreserved

variable {options : Options} {input : Bytes}
  (refused : ∀ buffer, Buffer.reserve (seedCapacity input.length options) ≠ .ok buffer)

include refused

theorem reserve_of_refused : Buffer.reserve (seedCapacity input.length options) =
    .error (.allocation (seedCapacity input.length options)) :=
  if_neg fun small => refused _ (Buffer.reserve_of_lt small)

/-- For a file, the first thing that is done is to reserve the buffer. -/
theorem Gzip.decode_of_unreserved :
    decode input options = .error (.allocation (seedCapacity input.length options)) := by
  rw [decode_eq_conclude, reserve_of_refused refused]
  rfl

/-- For a stream, the header and the size of the input are looked at before. -/
theorem Zlib.decode_of_unreserved :
    decode input options = (do
      let _ ← Header.parse input
      if input.length < minLength then .error .truncated
      else .error (.allocation (seedCapacity input.length options))) := by
  have body : decodeBody input options =
      .error (.allocation (seedCapacity input.length options)) := by
    rw [decodeBody, reserve_of_refused refused]
    rfl
  rw [decode_eq_conclude, body]
  rfl

end Unreserved

/-! ### Whatever is reserved -/

section Accepted

variable {options : Options} {first second : Option Nat} {input : Bytes} {decoded : Decoded}

/-- An output that was delivered into one buffer is delivered into any other one, if it cannot exhaust
memory. -/
theorem decodeInto_of_ok {frame : Frame} {limit : Nat} {rest : Bytes} {buffer other filled : Buffer}
    (sound : buffer.Sound) (otherSound : other.Sound) (same : buffer.bytes = other.bytes)
    (delivered : decodeInto frame limit input buffer = .ok (rest, filled))
    (small : filled.size < exhausting) :
    ∃ otherFilled, decodeInto frame limit input other = .ok (rest, otherFilled) ∧
      otherFilled.bytes = filled.bytes := by
  have delivers := decodeInto_spec frame limit input sound
  rw [delivered] at delivers
  obtain ⟨complete, holds⟩ := delivers.of_ok
  have size := holds.size_eq
  have under := holds.under
  rw [size, same] at under
  rw [size, same] at small
  obtain ⟨otherFilled, outcome, otherHolds⟩ := exists_decodeInto otherSound complete under small
  refine ⟨otherFilled, outcome, ?_⟩
  rw [← same] at otherHolds
  exact Array.toList_inj.mp (otherHolds.contents.trans holds.contents.symm)

namespace Zlib

/-- A body that is decoded from one capacity is decoded from every one that can be reserved. -/
theorem decodeBody_of_ok {data : Bytes} {checksum : UInt32} {trailing : Nat}
    (found : decodeBody input (options.reserving first) = .ok (data, checksum, trailing))
    (small : data.length < exhausting)
    (reservable : seedCapacity input.length (options.reserving second) < unreservable) :
    decodeBody input (options.reserving second) = .ok (data, checksum, trailing) := by
  obtain ⟨buffer, rest, filled, reserved, delivered, stored, rfl, rfl⟩ := stream_of_decodeBody found
  obtain ⟨sound, empty⟩ := Buffer.sound_of_reserve reserved
  have again := Buffer.reserve_of_lt reservable
  obtain ⟨otherFilled, otherDelivered, same⟩ :=
    decodeInto_of_ok sound (Buffer.sound_of_reserve again).1 empty delivered small
  rw [← same]
  exact decodeBody_of_stream again otherDelivered stored

/-- **A stream that is accepted** from one capacity is accepted from every one that can be reserved. -/
theorem decode_of_accepted (accepted : decode input (options.reserving first) = .ok decoded)
    (small : decoded.data.length < exhausting)
    (reservable : seedCapacity input.length (options.reserving second) < unreservable) :
    decode input (options.reserving second) = .ok decoded := by
  rw [decode_eq_conclude] at accepted ⊢
  obtain ⟨header, parsed, accepted⟩ := ok_of_bind accepted
  rw [bind_of_ok parsed]
  by_cases few : input.length < minLength
  · rw [if_pos few] at accepted
    cases accepted
  rw [if_neg few] at accepted ⊢
  obtain ⟨⟨data, checksum, trailing⟩, found, concluded⟩ := ok_of_bind accepted
  have output : decoded.data = data := by
    unfold conclude at concluded
    split at concluded <;> cases concluded
    rfl
  rw [bind_of_ok (decodeBody_of_ok found (output ▸ small) reservable)]
  exact concluded

end Zlib

namespace Gzip

/-- Members that are decoded into one buffer are decoded into any other one, if their output cannot
exhaust memory. -/
theorem outcome_walk_of_ok {limit trailing : Nat} {members : List Member} {buffer other filled : Buffer}
    (sound : buffer.Sound) (otherSound : other.Sound) (same : buffer.bytes = other.bytes)
    (walked : (walk limit input buffer).outcome = .ok (members, trailing, filled))
    (small : filled.size < exhausting) :
    ∃ otherFilled, (walk limit input other).outcome = .ok (members, trailing, otherFilled) ∧
      otherFilled.bytes = filled.bytes := by
  obtain ⟨found, holds⟩ := (walk_survey limit sound input).of_ok walked
  have size := holds.size_eq
  have ends := walk_survey limit otherSound input
  rw [found, ← same] at ends
  cases outcome : (walk limit input other).outcome with
  | error failure =>
    rw [outcome] at ends
    rcases ends with failed | refused
    · cases failed
    · have large := refused.exhausting_le_of_under (size ▸ holds.under)
      exact absurd small (Nat.not_lt.mpr (size ▸ large))
  | ok result =>
    obtain ⟨otherMembers, otherTrailing, otherFilled⟩ := result
    obtain ⟨alike, otherHolds⟩ := ends.of_ok outcome
    obtain ⟨rfl, rfl⟩ := Prod.mk.inj (Except.ok.inj alike)
    exact ⟨otherFilled, rfl, Array.toList_inj.mp (otherHolds.contents.trans holds.contents.symm)⟩

/-- **A file that is accepted** from one capacity is accepted from every one that can be reserved. -/
theorem decode_of_accepted (accepted : decode input (options.reserving first) = .ok decoded)
    (small : decoded.data.length < exhausting)
    (reservable : seedCapacity input.length (options.reserving second) < unreservable) :
    decode input (options.reserving second) = .ok decoded := by
  rw [decode_eq_conclude, Options.limit_reserving] at accepted ⊢
  obtain ⟨buffer, reserved, accepted⟩ := ok_of_bind accepted
  obtain ⟨⟨members, trailing, filled⟩, walked, concluded⟩ := ok_of_bind accepted
  obtain ⟨sound, empty⟩ := Buffer.sound_of_reserve reserved
  have again := Buffer.reserve_of_lt reservable
  have output : decoded.data = filled.bytes.toList := by
    simp only [conclude] at concluded
    split at concluded <;> cases concluded
    rfl
  obtain ⟨otherFilled, otherWalked, same⟩ := outcome_walk_of_ok sound
    (Buffer.sound_of_reserve again).1 empty walked (by rwa [Buffer.size, ← Array.length_toList, ← output])
  rw [bind_of_ok again, bind_of_ok otherWalked]
  simp only [same]
  exact concluded

end Gzip

end Accepted

end Reservations

/-! ### Both containers -/

/-- **The growth strategy does not show.** Where every reservation that can be asked for gives exactly the
capacity that is asked for, no two capacities at the start tell apart what is decoded, errors included. A
capacity at the start that cannot be reserved is an error of its own, which for zlib streams stands behind
a header at fault and behind an input that is too short. Whatever the reservations give, what is accepted
from one capacity is accepted from every other one that can be reserved. In the program, whose
reservations give more, no capacity at the start shows if the limit is far away. -/
theorem decode_growth (input : Bytes) (options : Options) :
    (∀ [Memory],
      (Memory.Exact (greatestAsked options.limit (expansion * input.length)) →
        ∀ first second : Option Nat,
        seedCapacity input.length (options.reserving first) < unreservable →
        seedCapacity input.length (options.reserving second) < unreservable →
        Zlib.decode input (options.reserving first) = Zlib.decode input (options.reserving second) ∧
          Gzip.decode input (options.reserving first) = Gzip.decode input (options.reserving second)) ∧
      ((∀ buffer, Buffer.reserve (seedCapacity input.length options) ≠ .ok buffer) →
        Gzip.decode input options = .error (.allocation (seedCapacity input.length options)) ∧
          Zlib.decode input options = (do
            let _ ← Zlib.Header.parse input
            if input.length < Zlib.minLength then .error .truncated
            else .error (.allocation (seedCapacity input.length options)))) ∧
      ∀ (first second : Option Nat) (decoded : Decoded),
        seedCapacity input.length (options.reserving second) < unreservable →
        decoded.data.length < exhausting →
        (Zlib.decode input (options.reserving first) = .ok decoded →
          Zlib.decode input (options.reserving second) = .ok decoded) ∧
        (Gzip.decode input (options.reserving first) = .ok decoded →
          Gzip.decode input (options.reserving second) = .ok decoded)) ∧
    (2 * max (expansion * input.length) pieceSize ≤ options.limit + 1 →
      2 * max (expansion * input.length) pieceSize < unreservable →
      ∀ first second : Option Nat,
        seedCapacity input.length (options.reserving first) < unreservable →
        seedCapacity input.length (options.reserving second) < unreservable →
        Zlib.decode input (options.reserving first) = Zlib.decode input (options.reserving second) ∧
          Gzip.decode input (options.reserving first) = Gzip.decode input (options.reserving second)) := by
  have seeded (capacity : Option Nat) := seedCapacity_le input.length (options.reserving capacity)
  refine ⟨fun {memory} => ⟨?_, ?_, ?_⟩, ?_⟩
  · intro exact first second reservable secondReservable
    have capped := exact.capped reservable (seeded first)
    have secondCapped := exact.capped secondReservable (seeded second)
    exact ⟨Zlib.decode_capacity capped secondCapped, Gzip.decode_capacity capped secondCapped⟩
  · exact fun refused => ⟨Gzip.decode_of_unreserved refused, Zlib.decode_of_unreserved refused⟩
  · intro first second decoded reservable small
    exact ⟨fun accepted => Zlib.decode_of_accepted accepted small reservable,
      fun accepted => Gzip.decode_of_accepted accepted small reservable⟩
  · intro wide small first second reservable secondReservable
    have capped := capped_of_wide reservable (seeded first) wide small
    have secondCapped := capped_of_wide secondReservable (seeded second) wide small
    exact ⟨Zlib.decode_capacity capped secondCapped, Gzip.decode_capacity capped secondCapped⟩

/-- The body of a stream of two stored letters. -/
def lettersBody : Bytes := [1, 2, 0, 0xfd, 0xff, 0x61, 0x62, 1, 0x26, 0, 0xc4]

theorem inflate_lettersBody :
    inflate lettersBody = ([0x61, 0x62], .complete [1, 0x26, 0, 0xc4]) := by
  cbv

/-- On an exact memory, a buffer of one byte grows to one byte beyond a limit of one byte. -/
theorem decode_letters_of_lt {options : Options} (limited : options.maxOutput = some 1)
    (capacity : options.initialCapacity = some 1) :
    @Zlib.decode Memory.exact (0x78 :: 0x9c :: lettersBody) options =
      .error (.outputLimitExceeded 1) := by
  let memory : Memory := Memory.exact
  have valid : Zlib.Header.Valid 0x78 0x9c := ⟨by decide, by decide, by decide, by decide⟩
  have limit : options.limit = 1 := by rw [Options.limit, limited, Option.getD_some]
  have seed : seedCapacity (0x78 :: 0x9c :: lettersBody).length options = 1 := by
    rw [seedCapacity, wantedCapacity, capacity, limit]
    rfl
  have reserved : Buffer.reserve (seedCapacity (0x78 :: 0x9c :: lettersBody).length options) =
      .ok { capacity := 1 } := by
    rw [seed]
    rfl
  have complete : Frame.checked.verdict lettersBody = .complete [] := by cbv
  have exceeds : decodeInto .checked options.limit lettersBody { capacity := 1 } =
      .error (.outputLimitExceeded options.limit) := by
    refine decodeInto_of_lt (Buffer.sound_of_reserve reserved).1 complete ?_ ?_
    · rw [limit, inflate_lettersBody]
      decide
    · rw [inflate_lettersBody]
      decide
  have decoded : Zlib.decode (0x78 :: 0x9c :: lettersBody) options =
      .error (.outputLimitExceeded options.limit) :=
    Zlib.decode_of_error valid (by decide) reserved exceeds
  rwa [limit] at decoded

/-- Two stored letters. From one byte and under a limit of one byte, an exact memory lets the buffer grow to
two bytes, and the limit is passed as it is from two bytes. Under a limit of two bytes the letters are
accepted. Without a limit no capacity shows in the program, either. -/
theorem decode_growth_letters :
    let stream : Bytes := 0x78 :: 0x9c :: lettersBody
    let letters : Decoded := ⟨[0x61, 0x62], .zlib, 0x012600c4, none, 13⟩
    let greedy : Options := { initialCapacity := some unreservable }
    let tight : Options := { maxOutput := some 1 }
    let fitting : Options := { maxOutput := some 2 }
    @Memory.Exact Memory.exact (greatestAsked tight.limit (expansion * stream.length)) ∧
      seedCapacity stream.length (tight.reserving none) = 2 ∧
      seedCapacity stream.length (tight.reserving (some 1)) = 1 ∧
      @Buffer.grow Memory.exact 1 ⟨#[0x61], 1⟩ = .ok ⟨#[0x61], 2⟩ ∧
      @Zlib.decode Memory.exact stream (tight.reserving (some 1)) = .error (.outputLimitExceeded 1) ∧
      @Zlib.decode Memory.exact stream (tight.reserving none) = .error (.outputLimitExceeded 1) ∧
      (∀ buffer, Buffer.reserve (seedCapacity stream.length greedy) ≠ .ok buffer) ∧
      Gzip.decode stream greedy = .error (.allocation unreservable) ∧
      Zlib.decode stream greedy = .error (.allocation unreservable) ∧
      seedCapacity stream.length (fitting.reserving (some 1)) = 1 ∧
      letters.data.length < exhausting ∧
      Zlib.decode stream (fitting.reserving none) = .ok letters ∧
      Zlib.decode stream (fitting.reserving (some 1)) = .ok letters ∧
      2 * max (expansion * stream.length) pieceSize ≤ ({} : Options).limit + 1 ∧
      Zlib.decode stream (Options.reserving {} none) =
        Zlib.decode stream (Options.reserving {} (some 1)) := by
  intro stream letters greedy tight fitting
  have exact : @Memory.Exact Memory.exact (greatestAsked tight.limit (expansion * stream.length)) :=
    Memory.exact_of_lt (by decide)
  have large : seedCapacity stream.length greedy = unreservable := by decide
  have refused : ∀ buffer, Buffer.reserve (seedCapacity stream.length greedy) ≠ .ok buffer := by
    intro buffer reserved
    rw [large] at reserved
    cases reserved
  have valid : Zlib.Header.Valid 0x78 0x9c := ⟨by decide, by decide, by decide, by decide⟩
  have accepted : Zlib.decode stream (fitting.reserving none) = .ok letters :=
    (Zlib.yields_conclusion valid rfl inflate_lettersBody (Or.inl (by decide))).eq (by decide)
  obtain ⟨onTight, -⟩ := decode_growth stream tight
  obtain ⟨onGreedy, -⟩ := decode_growth stream greedy
  obtain ⟨onFitting, -⟩ := decode_growth stream fitting
  obtain ⟨-, wide⟩ := decode_growth stream {}
  have exceeds : @Zlib.decode Memory.exact stream (tight.reserving (some 1)) =
      .error (.outputLimitExceeded 1) := decode_letters_of_lt rfl rfl
  obtain ⟨same, -⟩ := (@onTight Memory.exact).1 exact none (some 1) (by decide) (by decide)
  obtain ⟨gzip, zlib⟩ := onGreedy.2.1 refused
  rw [large] at gzip zlib
  rw [bind_of_ok (Zlib.Header.parse_of_valid valid _), if_neg (by decide)] at zlib
  exact ⟨exact, by decide, by decide, rfl, exceeds, same.trans exceeds, refused, gzip, zlib, by decide,
    by decide, accepted, (onFitting.2.2 none (some 1) letters (by decide) (by decide)).1 accepted,
    by decide, (wide (by decide) (by decide) none (some 1) (by decide) (by decide)).1⟩

end Inflate
