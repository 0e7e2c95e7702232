/-
**A limit on the output is an exact cut.**

What is decoded without a limit is decoded under a limit in the same way if it keeps to the limit, and
otherwise the limit is named. Under a limit nothing is decoded that would not be decoded without one.
For this the two runs are followed side by side through a zlib stream and through the members of a
gzip file, and what was accepted without the limit is looked at once more.

* `Zlib.cut_decode`, `Gzip.cut_decode`: decoding is cut by a limit;
* `Zlib.complete_of_decode`: the stream that was accepted;
* `decode_limited`: decoding under a limit beside decoding without one.
-/

import Inflate.Proofs.Outcomes
import Inflate.Proofs.Output.Limit

namespace Inflate

open Deflate (inflate)

section Cuts

variable {α β : Type} {limit : Nat} {related : α → β → Prop}

/-- A check that both runs make. -/
theorem Cut.guard {refused : Prop} [Decidable refused] {failure : Failure}
    {limited : Except Failure α} {free : Except Failure β}
    (passed : ¬refused → Cut limit related limited free) :
    Cut limit related (if refused then .error failure else limited)
      (if refused then .error failure else free) := by
  by_cases stop : refused
  · rw [if_pos stop, if_pos stop]
    exact .neither failure failure
  · rw [if_neg stop, if_neg stop]
    exact passed stop

/-- **The outcome under a limit** is fixed by the outcome without one, if what keeps to the limit is
not refused for it and what is accepted under it keeps to it. -/
theorem Cut.eq {limited free : Except Failure Decoded} (cut : Cut limit (· = ·) limited free)
    {decoded : Decoded} (accepted : free = .ok decoded)
    (permitted : decoded.data.length ≤ limit → limited ≠ .error (.outputLimitExceeded limit))
    (keeps : ∀ other, limited = .ok other → other.data.length ≤ limit) :
    limited = if decoded.data.length ≤ limit then .ok decoded
      else .error (.outputLimitExceeded limit) := by
  cases cut with
  | both alike =>
    obtain rfl := alike
    cases accepted
    rw [if_pos (keeps decoded rfl)]
  | beyond other =>
    cases accepted
    rw [if_neg fun under => permitted under rfl]
  | neither failure other => cases accepted

/-- What is accepted under a limit is accepted without one. -/
theorem Cut.eq_free {limited free : Except Failure α} (cut : Cut limit (· = ·) limited free)
    {decoded : α} (accepted : limited = .ok decoded) : free = .ok decoded := by
  cases cut with
  | both alike =>
    obtain rfl := alike
    exact accepted
  | beyond other => cases accepted
  | neither failure other => cases accepted

end Cuts

/-- An outcome that is expected to be accepted is not refused for its size. -/
theorem Yields.ne_limit {size limit : Nat} {decoded : Decoded} {outcome : Except Failure Decoded}
    (yields : Yields size (.ok decoded) outcome) : outcome ≠ .error (.outputLimitExceeded limit) := by
  intro refused
  cases yields with
  | expected | outOfMemory | unnamed => cases refused

variable {options : Options}

/-! ### Zlib streams -/

namespace Zlib

/-- Decoding a body is cut. -/
theorem cut_decodeBody (unset : options.initialCapacity = none) (limit : Nat) (input : Bytes) :
    Cut limit (· = ·) (decodeBody input { options with maxOutput := some limit })
      (decodeBody input { options with maxOutput := none }) := by
  obtain ⟨buffer, free, reserved, freeReserved, alike⟩ := alike_seed unset limit input.length
  unfold decodeBody
  rw [bind_of_ok reserved, bind_of_ok freeReserved]
  simp only [Options.limit, Option.getD_some, Option.getD_none]
  have decoded := cut_decodeInto .checked alike (input.drop Header.length)
  generalize decodeInto .checked limit (input.drop Header.length) buffer = limitedOutcome at decoded
  generalize decodeInto .checked maxSize (input.drop Header.length) free = freeOutcome at decoded
  cases decoded with
  | @both stream other same =>
    obtain ⟨rest, filled⟩ := stream
    obtain ⟨_, freeFilled⟩ := other
    obtain ⟨rfl, filledAlike⟩ := same
    have bytes : filled.bytes = freeFilled.bytes := filledAlike.bytes
    simp only [bytes]
    exact Cut.same fun _ _ => rfl
  | beyond other =>
    -- Only without the limit is the trailer looked for, and it may be missing.
    obtain ⟨rest, freeFilled⟩ := other
    simp only
    split
    · exact .beyond _
    · exact .neither _ _
  | neither failure other => cases failure <;> cases other <;> exact .neither _ _

/-- **Decoding a stream** is cut. -/
theorem cut_decode (unset : options.initialCapacity = none) (limit : Nat) (input : Bytes) :
    Cut limit (· = ·) (decode input { options with maxOutput := some limit })
      (decode input { options with maxOutput := none }) := by
  rw [decode_eq_conclude, decode_eq_conclude]
  refine (Cut.same fun header _ => Eq.refl header).bind ?_
  rintro header _ - - rfl
  refine Cut.guard fun long => (cut_decodeBody unset limit input).bind ?_
  rintro body _ - - rfl
  exact Cut.same fun _ _ => rfl

/-- What is concluded from a body that is accepted. -/
theorem eq_of_conclusion {input output rest : Bytes} {decoded : Decoded}
    (concluded : conclusion options input output rest = .ok decoded) :
    decoded = { data := output, format := .zlib, checksum := adler32 output, header := none
                consumed := input.length } := by
  unfold conclusion at concluded
  simp only at concluded
  split at concluded
  · cases concluded
  split at concluded
  · cases concluded
  split at concluded
  · cases concluded
  cases concluded
  rfl

theorem data_of_conclusion {input output rest : Bytes} {decoded : Decoded}
    (concluded : conclusion options input output rest = .ok decoded) : decoded.data = output :=
  congrArg Decoded.data (eq_of_conclusion concluded)

/-- **The stream that was accepted**: its body is complete and keeps to the limit, and the conclusion
from it is the outcome. -/
theorem complete_of_decode (unset : options.initialCapacity = none) {input : Bytes}
    {decoded : Decoded} (accepted : decode input options = .ok decoded) :
    ∃ cmf flg body rest, input = cmf :: flg :: body ∧ Header.Valid cmf flg ∧
      inflate body = (decoded.data, .complete rest) ∧
      conclusion options input decoded.data rest = .ok decoded ∧
      decoded.data.length ≤ options.limit := by
  obtain ⟨cmf, flg, body, rfl, header, parsed⟩ : ∃ cmf flg body, input = cmf :: flg :: body ∧
      ∃ header, Header.parse (cmf :: flg :: body) = .ok header := by
    unfold decode attempt at accepted
    cases parsed : Header.parse input with
    | error failure =>
      rw [parsed] at accepted
      cases accepted
    | ok header =>
      obtain _ | ⟨cmf, _ | ⟨flg, body⟩⟩ := input
      · cases parsed
      · cases parsed
      · exact ⟨cmf, flg, body, rfl, header, parsed⟩
  have valid := (Header.isOk_parse_iff body).mp ⟨header, parsed⟩
  by_cases few : (cmf :: flg :: body).length < minLength
  · rw [decode_of_length_lt valid few] at accepted
    cases accepted
  have long := Nat.not_lt.mp few
  obtain ⟨buffer, reserved, sound, empty⟩ := Buffer.sound_seed unset (cmf :: flg :: body).length
  have delivered := delivers_checked options.limit body sound empty
  cases outcome : decodeInto .checked options.limit body buffer with
  | error failure =>
    rw [decode_of_error valid long reserved outcome] at accepted
    cases accepted
  | ok stream =>
    obtain ⟨left, filled⟩ := stream
    rw [outcome] at delivered
    obtain ⟨checked, holds⟩ := delivered.of_ok
    obtain ⟨output, rest, complete, -⟩ := complete_of_checked checked
    have contents := holds.contents
    rw [complete] at contents
    have under := holds.under
    rw [Buffer.size, ← Array.length_toList, contents] at under
    have judgement := decode_eq_judged valid unset long
    rw [complete] at judgement
    rcases judgement with same | ⟨failure, failed, -⟩
    · have faultless : Frame.checked.verdict body ≠ .fault := by
        intro fault
        cases checked.symm.trans fault
      rw [judged_eq_conclusion complete faultless] at same
      have concluded := same.symm.trans accepted
      rw [data_of_conclusion concluded]
      exact ⟨cmf, flg, body, rest, rfl, valid, complete, concluded, under⟩
    · cases accepted.symm.trans failed

/-- A limit that the output keeps to does not stand in the way. -/
theorem ne_limit_of_decode (unset : options.initialCapacity = none) {input : Bytes}
    {decoded : Decoded} (accepted : decode input { options with maxOutput := none } = .ok decoded)
    {limit : Nat} (under : decoded.data.length ≤ limit) :
    decode input { options with maxOutput := some limit } ≠ .error (.outputLimitExceeded limit) := by
  have freeUnset : { options with maxOutput := none }.initialCapacity = none := unset
  have limitedUnset : { options with maxOutput := some limit }.initialCapacity = none := unset
  obtain ⟨cmf, flg, body, rest, rfl, valid, complete, concluded, -⟩ :=
    complete_of_decode freeUnset accepted
  have yields := yields_conclusion valid limitedUnset complete (Or.inl under)
  have same : conclusion { options with maxOutput := some limit } (cmf :: flg :: body) decoded.data
      rest = .ok decoded := concluded
  rw [same] at yields
  exact yields.ne_limit

end Zlib

/-! ### Gzip files -/

namespace Gzip

/-- **Decoding a member** is cut. -/
theorem cut_decodeMember {limit : Nat} {buffer free : Buffer} (alike : Alike limit buffer free)
    (input : Bytes) :
    Cut limit (fun decoded other => decoded.1 = other.1 ∧ decoded.2.1 = other.2.1 ∧
        Alike limit decoded.2.2 other.2.2)
      (decodeMember limit input buffer) (decodeMember maxSize input free) := by
  have size := alike.size_eq
  unfold decodeMember
  cases Header.parse input with
  | error failure => exact .neither failure failure
  | ok header =>
    rw [bind_of_ok rfl, bind_of_ok rfl]
    refine Cut.guard fun long => (cut_decodeInto .bare alike (input.drop header.length)).bind ?_
    rintro ⟨rest, filled⟩ ⟨_, freeFilled⟩ - - ⟨rfl, filledAlike⟩
    have filledBytes : filled.bytes = freeFilled.bytes := filledAlike.bytes
    have filledSize : filled.size = freeFilled.size := filledAlike.size_eq
    simp only [filledBytes, size, filledSize]
    refine Cut.guard fun enough => ?_
    refine (Cut.same fun checksum _ => Eq.refl checksum).bind ?_
    rintro checksum _ - - rfl
    exact .both ⟨rfl, rfl, filledAlike⟩

/-- **Decoding all members** is cut. -/
theorem cut_walk {limit : Nat} {buffer free : Buffer} (alike : Alike limit buffer free)
    (input : Bytes) :
    Cut limit (fun decoded other => decoded.1 = other.1 ∧ decoded.2.1 = other.2.1 ∧
        Alike limit decoded.2.2 other.2.2)
      (walk limit input buffer).outcome (walk maxSize input free).outcome := by
  rw [outcome_walk, outcome_walk]
  refine (cut_decodeMember alike input).bind ?_
  rintro ⟨member, rest, filled⟩ ⟨_, _, freeFilled⟩ decoded - ⟨rfl, rfl, filledAlike⟩
  have fewer : rest.length < input.length := length_lt_of_decodeMember decoded
  by_cases more : magic <+: rest
  · simp only [if_pos more]
    refine (cut_walk filledAlike rest).bind ?_
    rintro ⟨members, trailing, last⟩ ⟨_, _, freeLast⟩ - - ⟨rfl, rfl, lastAlike⟩
    exact .both ⟨rfl, rfl, lastAlike⟩
  · simp only [if_neg more]
    exact .both ⟨rfl, rfl, filledAlike⟩
termination_by input.length

/-- **Decoding a file** is cut. -/
theorem cut_decode (unset : options.initialCapacity = none) (limit : Nat) (input : Bytes) :
    Cut limit (· = ·) (decode input { options with maxOutput := some limit })
      (decode input { options with maxOutput := none }) := by
  obtain ⟨buffer, free, reserved, freeReserved, alike⟩ := alike_seed unset limit input.length
  rw [decode_eq_conclude, decode_eq_conclude, bind_of_ok reserved, bind_of_ok freeReserved]
  refine (cut_walk alike input).bind ?_
  rintro ⟨members, trailing, filled⟩ ⟨_, _, freeFilled⟩ - - ⟨rfl, rfl, filledAlike⟩
  have bytes : filled.bytes = freeFilled.bytes := filledAlike.bytes
  simp only [bytes]
  exact Cut.same fun _ _ => rfl

/-- A limit that the output of all members keeps to does not stand in the way. -/
theorem ne_limit_of_decode (unset : options.initialCapacity = none) {input : Bytes}
    {decoded : Decoded} (accepted : decode input { options with maxOutput := none } = .ok decoded)
    {limit : Nat} (under : decoded.data.length ≤ limit) :
    decode input { options with maxOutput := some limit } ≠ .error (.outputLimitExceeded limit) := by
  have freeUnset : { options with maxOutput := none }.initialCapacity = none := unset
  have limitedUnset : { options with maxOutput := some limit }.initialCapacity = none := unset
  obtain ⟨members, tail, file, rfl⟩ := isFile_of_decode freeUnset accepted
  have limited : IsFile { options with maxOutput := some limit } input members tail :=
    ⟨file.nonempty, file.wellFormed, file.split, file.tail, under⟩
  exact (yields_summary limitedUnset limited).ne_limit

end Gzip

/-! ### Both containers -/

/-- What is decoded in a given container, or in the one found, fails for every choice of options, or
is decoded in one container. -/
theorem decode_cases (format : Option Format) (input : Bytes) :
    (∃ failure, ∀ options, decode format input options = .error failure) ∨
      (∀ options, decode format input options = Zlib.decode input options) ∨
      ∀ options, decode format input options = Gzip.decode input options := by
  have given : ∀ format, (∀ options, (attemptAs format input options).result =
      Zlib.decode input options) ∨
        ∀ options, (attemptAs format input options).result = Gzip.decode input options := by
    intro format
    cases format with
    | zlib => exact Or.inl fun options => rfl
    | gzip => exact Or.inr fun options => rfl
  unfold decode attempt
  cases format with
  | some format => exact Or.inr (given format)
  | none =>
    unfold attemptFound
    by_cases few : input.length < 2
    · left
      exact ⟨.truncated, fun options => by rw [if_pos few]⟩
    · simp only [if_neg few]
      cases detect input with
      | some format => exact Or.inr (given format)
      | none => exact Or.inl ⟨_, fun options => rfl⟩

/-- **The limit is an exact cut.** In either container, whether bytes after it are allowed or not, and
with no capacity asked for:

* what is accepted without a limit is accepted under a limit with the same outcome if it keeps to the
  limit, and otherwise the limit is named;
* what is accepted under a limit is accepted without one, with the same outcome. -/
theorem decode_limited (format : Option Format) (input : Bytes) (options : Options)
    (unset : options.initialCapacity = none) (limit : Nat) :
    (∀ decoded, decode format input { options with maxOutput := none } = .ok decoded →
      decode format input { options with maxOutput := some limit } =
        if decoded.data.length ≤ limit then .ok decoded
        else .error (.outputLimitExceeded limit)) ∧
    ∀ decoded, decode format input { options with maxOutput := some limit } = .ok decoded →
      decode format input { options with maxOutput := none } = .ok decoded := by
  have limitedUnset : { options with maxOutput := some limit }.initialCapacity = none := unset
  rcases decode_cases format input with ⟨failure, fails⟩ | zlib | gzip
  · simp only [fails]
    exact ⟨nofun, nofun⟩
  · simp only [zlib]
    have cut := Zlib.cut_decode unset limit input
    refine ⟨fun decoded accepted => ?_, fun decoded accepted => cut.eq_free accepted⟩
    refine cut.eq accepted (fun under => Zlib.ne_limit_of_decode unset accepted under) ?_
    intro other limited
    obtain ⟨_, _, _, _, -, -, -, -, under⟩ := Zlib.complete_of_decode limitedUnset limited
    exact under
  · simp only [gzip]
    have cut := Gzip.cut_decode unset limit input
    refine ⟨fun decoded accepted => ?_, fun decoded accepted => cut.eq_free accepted⟩
    refine cut.eq accepted (fun under => Gzip.ne_limit_of_decode unset accepted under) ?_
    intro other limited
    obtain ⟨members, tail, file, rfl⟩ := Gzip.isFile_of_decode limitedUnset limited
    exact file.under

/-- Two members of one letter each, under limits of one byte and of two. -/
theorem decode_limited_letters :
    ({} : Options).initialCapacity = none ∧
      ∃ letter : Bytes, letter = [0x1f, 0x8b, 8, 0, 0, 0, 0, 0, 0, 0xff] ++
          [1, 1, 0, 0xfe, 0xff, 0x61] ++ [0x43, 0xbe, 0xb7, 0xe8, 1, 0, 0, 0] ∧
        ∃ decoded, decoded.data = [0x61, 0x61] ∧
          decode (some .gzip) (letter ++ letter) { maxOutput := none } = .ok decoded ∧
          decode (some .gzip) (letter ++ letter) { maxOutput := some 2 } = .ok decoded ∧
          decode (some .gzip) (letter ++ letter) { maxOutput := some 1 } =
            .error (.outputLimitExceeded 1) := by
  have unset : ({} : Options).initialCapacity = none := rfl
  obtain ⟨letter, is⟩ : ∃ letter : Gzip.Written,
    letter = ⟨[0x1f, 0x8b, 8, 0, 0, 0, 0, 0, 0, 0xff], [1, 1, 0, 0xfe, 0xff, 0x61],
      ⟨8, 0, 0, 0, 0xff, none, none, none, 10⟩, [0x61]⟩ := ⟨_, rfl⟩
  have wellFormed : letter.WellFormed := by
    rw [is]
    exact ⟨by cbv, rfl, by cbv⟩
  have bytes : letter.bytes = [0x1f, 0x8b, 8, 0, 0, 0, 0, 0, 0, 0xff] ++
      [1, 1, 0, 0xfe, 0xff, 0x61] ++ [0x43, 0xbe, 0xb7, 0xe8, 1, 0, 0, 0] := by
    rw [is]
    decide +kernel
  have outputs : Gzip.outputs [letter, letter] = [0x61, 0x61] := by
    rw [is]
    rfl
  have file : Gzip.IsFile {} (letter.bytes ++ letter.bytes) [letter, letter] [] := by
    refine ⟨List.cons_ne_nil _ _, ?_, by simp, Or.inl rfl, ?_⟩
    · intro written among
      simp only [List.mem_cons, List.not_mem_nil, or_false, or_self] at among
      exact among ▸ wellFormed
    · rw [outputs]
      decide
  have yields := Gzip.yields_summary unset file
  rw [outputs] at yields
  have free := yields.eq (by decide)
  have size : (Gzip.summary (letter.bytes ++ letter.bytes) [letter, letter]).data.length = 2 :=
    congrArg List.length outputs
  obtain ⟨two, back⟩ := decode_limited (some .gzip) (letter.bytes ++ letter.bytes) {} unset 2
  have underTwo := two _ free
  rw [if_pos (Nat.le_of_eq size)] at underTwo
  have underOne := (decode_limited (some .gzip) (letter.bytes ++ letter.bytes) {} unset 1).1 _ free
  rw [if_neg (by omega)] at underOne
  exact ⟨unset, letter.bytes, bytes, _, outputs, back _ underTwo, underTwo, underOne⟩

end Inflate
