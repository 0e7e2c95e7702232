/-
**What is reported as corrupt.**

A wrong checksum behind a body is met as a fault, and a second look at the body tells it from a fault in the
body itself. The second look keeps to the limit too. So it can be refused although the body is sound, and
then the stream is reported as corrupt: that happens where the output is larger than the limit and the wrong
checksum is met before the limit is.

* `WrongTrailer`: four bytes behind a body that do not hold the checksum of its output;
* `decode_of_few`: an output of less than a piece, larger than the limit, is corrupt;
* `decode_of_much`: an output of more than the buffer comes to hold has passed the limit before;
* `decode_corrupt`: what a corrupt stream has, and what a stream with a wrong trailer comes to.
-/

import Inflate.Proofs.EarlyStop
import Inflate.Proofs.Outcomes

namespace Inflate

namespace Zlib

open Deflate (Decoder Halt inflate)

/-- The checksum in the trailer that begins a byte string. -/
def storedChecksum (rest : Bytes) : UInt32 :=
  UInt32.ofNat (Bytes.bigEndian (rest.take trailerLength))

/-- The trailer behind a body is there and holds another checksum than that of the output. -/
structure WrongTrailer (output rest : Bytes) : Prop where
  enough : trailerLength ≤ rest.length
  differs : storedChecksum rest ≠ adler32 output

section Streams

variable {cmf flg : UInt8} {body output rest : Bytes} {options : Options} {buffer : Buffer}

/-! ### The two looks at a body -/

theorem WrongTrailer.fault (wrong : WrongTrailer output rest)
    (complete : inflate body = (output, .complete rest)) : Frame.checked.verdict body = .fault := by
  rw [verdict_checked complete, if_neg (Nat.not_lt.mpr wrong.enough), if_neg]
  intro same
  exact wrong.differs
    ((ofNat_bigEndian_eq_iff (length_take_trailer wrong.enough) _).mpr same)

/-- A stream with a trailer is never too short. -/
theorem WrongTrailer.minLength_le (wrong : WrongTrailer output rest)
    (complete : inflate body = (output, .complete rest)) (cmf flg : UInt8) :
    minLength ≤ (cmf :: flg :: body).length := by
  have enough := wrong.enough
  obtain ⟨front, rfl⟩ := Deflate.suffix_of_inflate (congrArg Prod.snd complete)
  have two := Deflate.two_le_length_of_inflate (Deflate.inflate_complete_of_append complete)
  simp only [List.length_cons, List.length_append, minLength, trailerLength] at enough ⊢
  omega

/-- The second look at a sound body is refused if its output is larger than the limit. -/
theorem classifyFault_of_lt (complete : inflate body = (output, .complete rest))
    (beyond : options.limit < output.length) (detail : String) :
    classifyFault (cmf :: flg :: body) options detail = .corrupt detail := by
  have bare := delivers_bare options.limit body
  cases outcome : decodeInto .bare options.limit body {} with
  | error failure => exact classifyFault_of_error detail outcome
  | ok decoded =>
    rw [outcome, complete] at bare
    have under := bare.of_ok.2.under
    rw [bare.of_ok.2.size_eq] at under
    exact absurd beyond (Nat.not_lt.mpr under)

/-- The second look at a sound body gives no name only if it was refused. -/
theorem refused_of_classifyFault (wrong : WrongTrailer output rest)
    (complete : inflate body = (output, .complete rest)) {detail other : String}
    (unnamed : classifyFault (cmf :: flg :: body) options detail = .corrupt other) :
    options.limit < output.length ∨ exhausting ≤ output.length := by
  have bare := delivers_bare options.limit body
  rw [complete] at bare
  cases outcome : decodeInto .bare options.limit body {} with
  | ok decoded =>
    rw [outcome] at bare
    obtain ⟨same, -⟩ := bare.of_ok
    cases same
    rw [classifyFault_of_ok _ complete wrong.enough outcome] at unnamed
    cases unnamed
  | error failure =>
    rw [outcome] at bare
    have refused : Refusal options.limit output.length failure := bare.ends
    cases refused with
    | limit beyond => exact Or.inl beyond
    | memory asked large => exact Or.inr large

theorem decode_of_refused_reserve (valid : Header.Valid cmf flg)
    (long : minLength ≤ (cmf :: flg :: body).length) {failure : Failure}
    (refused : Buffer.reserve (seedCapacity (cmf :: flg :: body).length options) = .error failure) :
    decode (cmf :: flg :: body) options = .error failure := by
  rw [decode_eq_conclude, Header.parse_of_valid valid, bind_of_ok rfl,
    if_neg (Nat.not_lt.mpr long), decodeBody, refused]
  rfl

/-! ### Corrupt streams -/

/-- **A corrupt stream** has a body at fault, or a wrong trailer behind an output that was refused. -/
theorem causes_of_corrupt (valid : Header.Valid cmf flg) {detail : String}
    (failed : decode (cmf :: flg :: body) options = .error (.corrupt detail)) :
    (inflate body).2 = .fault ∨
      ∃ output rest, inflate body = (output, .complete rest) ∧ WrongTrailer output rest ∧
        (options.limit < output.length ∨ exhausting ≤ output.length) := by
  by_cases few : (cmf :: flg :: body).length < minLength
  · rw [decode_of_length_lt valid few] at failed
    cases failed
  have long := Nat.not_lt.mp few
  cases reserved : Buffer.reserve (seedCapacity (cmf :: flg :: body).length options) with
  | error failure =>
    rw [decode_of_refused_reserve valid long reserved] at failed
    cases failed
    unfold Buffer.reserve at reserved
    split at reserved <;> cases reserved
  | ok buffer =>
    rcases decode_judged valid long reserved with judgement | ⟨failure, refusal, refused⟩
    · rw [judgement] at failed
      cases verdict : Frame.checked.verdict body with
      | complete rest =>
        rw [verdict, judged] at failed
        split at failed <;> cases failed
      | short | full =>
        rw [verdict] at failed
        cases failed
      | fault =>
        rw [verdict, judged, Except.error.injEq] at failed
        rcases inflated : inflate body with ⟨output, halt⟩
        cases halt with
        | fault => exact Or.inl rfl
        | short | full =>
          rw [verdict_checked_of_stopped inflated (fun _ same => by cases same)] at verdict
          cases verdict
        | complete rest =>
          obtain ⟨enough, differs⟩ := mismatch_of_fault inflated verdict
          have wrong : WrongTrailer output rest := ⟨enough, differs⟩
          exact Or.inr ⟨output, rest, rfl, wrong, refused_of_classifyFault wrong inflated failed⟩
    · rw [refusal] at failed
      cases failed
      cases refused

/-! ### Wrong trailers -/

section Wrong

variable (valid : Header.Valid cmf flg) (complete : inflate body = (output, .complete rest))
  (wrong : WrongTrailer output rest)

include valid complete wrong

/-- An output within the limit has its mismatch named. -/
theorem yields_mismatch
    (reserved : Buffer.reserve (seedCapacity (cmf :: flg :: body).length options) = .ok buffer)
    (under : output.length ≤ options.limit) :
    Yields output.length (.error (.checksumMismatch (storedChecksum rest) (adler32 output)))
      (decode (cmf :: flg :: body) options) := by
  have judgement := decode_judged valid (wrong.minLength_le complete cmf flg) reserved
  rw [wrong.fault complete, complete] at judgement
  rcases judgement with same | refused
  · have named : Yields output.length (conclusion options (cmf :: flg :: body) output rest) _ :=
      yields_classifyFault complete (Or.inl under) (wrong.fault complete)
    rw [conclusion_of_mismatch options _ wrong.enough wrong.differs] at named
    rw [same]
    exact named
  · exact yields_of_refused (Or.inl under) refused

/-- An output beyond the limit is refused for its size, or not named. -/
theorem decode_of_lt
    (reserved : Buffer.reserve (seedCapacity (cmf :: flg :: body).length options) = .ok buffer)
    (beyond : options.limit < output.length) (small : output.length < exhausting) :
    decode (cmf :: flg :: body) options = .error (.outputLimitExceeded options.limit) ∨
      decode (cmf :: flg :: body) options = .error (.corrupt Failure.deflateDetail) := by
  have judgement := decode_judged valid (wrong.minLength_le complete cmf flg) reserved
  rw [wrong.fault complete, complete] at judgement
  rcases judgement with same | ⟨failure, failed, refused⟩
  · right
    rw [same, judged, classifyFault_of_lt complete beyond]
  · left
    cases refused with
    | limit => exact failed
    | memory asked large => exact absurd small (Nat.not_lt.mpr large)

/-- **An output of less than a piece** that is larger than the limit is not named: the wrong trailer is
met before the limit. -/
theorem decode_of_few
    (reserved : Buffer.reserve (seedCapacity (cmf :: flg :: body).length options) = .ok buffer)
    (beyond : options.limit < output.length) (few : output.length < pieceSize) :
    decode (cmf :: flg :: body) options = .error (.corrupt Failure.deflateDetail) := by
  obtain ⟨sound, empty⟩ := Buffer.sound_of_reserve reserved
  have whole : ((Decoder.start body).run none).1.output.size = output.length := by
    have same : (inflate body).1.length = output.length := by rw [complete]
    exact same
  have one : ((Decoder.start body).run none).1.output.size < nextRoom 0 := whole ▸ few
  obtain ⟨piece, stops⟩ := final_of_lt_nextRoom .checked one
  have fault : Frame.checked.close ((Decoder.start body).run none).1.output
      ((Decoder.start body).run none).2 = .fault := wrong.fault complete
  rw [fault] at piece stops
  have room : ∃ roomy, buffer.makeRoom options.limit = .ok roomy := by
    have ends := buffer.makeRoom_spec options.limit sound
    cases made : buffer.makeRoom options.limit with
    | ok roomy => exact ⟨roomy, rfl⟩
    | error failure =>
      rw [made, Buffer.size, empty] at ends
      have refused : Refusal options.limit 0 failure := ends
      cases refused with
      | limit beyond => exact absurd beyond (Nat.not_lt_zero _)
      | memory asked large => exact absurd large (by decide)
  obtain ⟨roomy, made⟩ := room
  have first : decodeInto .checked options.limit body buffer =
      .error (.corrupt Failure.deflateDetail) := by
    unfold decodeInto
    rw [decodeOn_of_final piece stops, bind_of_ok made]
    rfl
  rw [decode_of_error valid (wrong.minLength_le complete cmf flg) reserved first]
  simp only
  rw [classifyFault_of_lt complete beyond]

end Wrong

/-- **An output of more than the buffer comes to hold** passes the limit before its trailer is met. -/
theorem decode_of_much (valid : Header.Valid cmf flg)
    (complete : inflate body = (output, .complete rest)) (small : options.limit < exhausting)
    (much : (2 * options.limit / pieceSize + 1) * pieceSize < output.length) :
    decode (cmf :: flg :: body) options = .error (.outputLimitExceeded options.limit) := by
  have above : options.limit < max leastCapacity (2 * options.limit) := by
    simp only [leastCapacity]
    omega
  have long : nextRoom (max leastCapacity (2 * options.limit) - 1) < (inflate body).1.length := by
    rw [complete]
    refine Nat.lt_of_le_of_lt ?_ much
    simp only [nextRoom, leastCapacity, pieceSize]
    omega
  have capped : Capped options.limit (seedCapacity (cmf :: flg :: (body ++ [])).length options)
      options.limit (max leastCapacity (2 * options.limit)) :=
    capped_of_lt small (seedCapacity_le _ options)
  have exceeded := decode_exceeds valid long above [] capped
  rwa [List.append_nil] at exceeded

end Streams

/-! ### Every stream -/

/-- **What is reported as corrupt.** Behind a valid header, a corrupt stream has a body at fault, or a
sound body with a wrong trailer and an output that was refused. A wrong trailer behind a sound body, where
a buffer can be reserved at the start, comes to this:

* within the limit, the mismatch is named;
* beyond the limit, the output is refused for its size, or the stream is reported as corrupt;
* beyond the limit and in less than a piece, it is reported as corrupt;
* with much more than twice the limit, it is refused for its size.

Where no buffer can be reserved, that is what is reported. -/
theorem decode_corrupt (valid : Header.Valid cmf flg) (body : Bytes) (options : Options) :
    (∀ detail, decode (cmf :: flg :: body) options = .error (.corrupt detail) →
      (inflate body).2 = .fault ∨
        ∃ output rest, inflate body = (output, .complete rest) ∧ WrongTrailer output rest ∧
          (options.limit < output.length ∨ exhausting ≤ output.length)) ∧
    ∀ output rest, inflate body = (output, .complete rest) → WrongTrailer output rest →
      (∀ buffer, Buffer.reserve (seedCapacity (cmf :: flg :: body).length options) = .ok buffer →
        (output.length ≤ options.limit →
          Yields output.length
            (.error (.checksumMismatch (storedChecksum rest) (adler32 output)))
            (decode (cmf :: flg :: body) options)) ∧
        (options.limit < output.length → output.length < exhausting →
          decode (cmf :: flg :: body) options = .error (.outputLimitExceeded options.limit) ∨
            decode (cmf :: flg :: body) options = .error (.corrupt Failure.deflateDetail)) ∧
        (options.limit < output.length → output.length < pieceSize →
          decode (cmf :: flg :: body) options = .error (.corrupt Failure.deflateDetail)) ∧
        (options.limit < exhausting →
          (2 * options.limit / pieceSize + 1) * pieceSize < output.length →
            decode (cmf :: flg :: body) options = .error (.outputLimitExceeded options.limit))) ∧
      ∀ failure,
        Buffer.reserve (seedCapacity (cmf :: flg :: body).length options) = .error failure →
          decode (cmf :: flg :: body) options = .error failure := by
  refine ⟨fun detail failed => causes_of_corrupt valid failed, ?_⟩
  intro output rest complete wrong
  refine ⟨fun buffer reserved => ⟨?_, ?_, ?_, ?_⟩, fun failure refused => ?_⟩
  · exact yields_mismatch valid complete wrong reserved
  · exact decode_of_lt valid complete wrong reserved
  · exact decode_of_few valid complete wrong reserved
  · exact decode_of_much valid complete
  · exact decode_of_refused_reserve valid (wrong.minLength_le complete cmf flg) refused

/-! ### Two letters -/

/-- The body of two stored letters, under a checksum of zero. -/
def lettersUnchecked : Bytes := [1, 2, 0, 0xfd, 0xff, 0x61, 0x62, 0, 0, 0, 0]

theorem inflate_lettersUnchecked :
    inflate lettersUnchecked = ([0x61, 0x62], .complete [0, 0, 0, 0]) := by cbv

theorem wrongTrailer_letters : WrongTrailer [0x61, 0x62] [0, 0, 0, 0] := ⟨by decide, by decide⟩

/-- **A sound body is reported as corrupt**, where only the trailer is wrong and the output is larger than
the limit. -/
theorem sound_body_corrupt :
    Header.Valid 0x78 0x9c ∧ minLength ≤ (0x78 :: 0x9c :: lettersUnchecked).length ∧
      inflate lettersUnchecked = ([0x61, 0x62], .complete [0, 0, 0, 0]) ∧
      decode (0x78 :: 0x9c :: lettersUnchecked) { maxOutput := some 1 } =
        .error (.corrupt Failure.deflateDetail) := by
  have valid : Header.Valid 0x78 0x9c := ⟨by decide, by decide, by decide, by decide⟩
  have reserved : Buffer.reserve
      (seedCapacity (0x78 :: 0x9c :: lettersUnchecked).length { maxOutput := some 1 }) =
        .ok { capacity := 2 } := rfl
  exact ⟨valid, by decide, inflate_lettersUnchecked,
    decode_of_few valid inflate_lettersUnchecked wrongTrailer_letters reserved (by decide) (by decide)⟩

/-- Two letters under a wrong checksum, without a limit and with a limit of one byte. -/
theorem decode_corrupt_letters :
    Header.Valid 0x78 0x9c ∧ inflate lettersUnchecked = ([0x61, 0x62], .complete [0, 0, 0, 0]) ∧
      WrongTrailer [0x61, 0x62] [0, 0, 0, 0] ∧
      decode (0x78 :: 0x9c :: lettersUnchecked) {} =
        .error (.checksumMismatch 0 (adler32 [0x61, 0x62])) ∧
      decode (0x78 :: 0x9c :: lettersUnchecked) { maxOutput := some 1 } =
        .error (.corrupt Failure.deflateDetail) ∧
      ((inflate lettersUnchecked).2 = .fault ∨
        ∃ output rest, inflate lettersUnchecked = (output, .complete rest) ∧
          WrongTrailer output rest ∧ (1 < output.length ∨ exhausting ≤ output.length)) ∧
      decode (0x78 :: 0x9c :: lettersUnchecked) { initialCapacity := some (2 ^ 62) } =
        .error (.allocation (2 ^ 62)) := by
  have valid : Header.Valid 0x78 0x9c := ⟨by decide, by decide, by decide, by decide⟩
  have free := (decode_corrupt valid lettersUnchecked {}).2 _ _ inflate_lettersUnchecked
    wrongTrailer_letters
  obtain ⟨causes, limited⟩ := decode_corrupt valid lettersUnchecked { maxOutput := some 1 }
  have reserved : Buffer.reserve
      (seedCapacity (0x78 :: 0x9c :: lettersUnchecked).length { maxOutput := some 1 }) =
        .ok { capacity := 2 } := rfl
  have corrupt := ((limited _ _ inflate_lettersUnchecked wrongTrailer_letters).1 _ reserved).2.2.1
    (by decide) (by decide)
  have named := ((free.1 { capacity := 32768 } rfl).1 (by decide)).eq (by decide)
  have unreserved := ((decode_corrupt valid lettersUnchecked
    { initialCapacity := some (2 ^ 62) }).2 _ _ inflate_lettersUnchecked wrongTrailer_letters).2
      (.allocation (2 ^ 62)) rfl
  exact ⟨valid, inflate_lettersUnchecked, wrongTrailer_letters, named, corrupt, causes _ corrupt,
    unreserved⟩

end Zlib

end Inflate
