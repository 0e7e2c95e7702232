/-
**The verdict on a zlib stream.**

The body is decoded together with its trailer, and after a fault once more on its own. What the two
decodings and the two lookups of the trailer say together is fixed by the raw inflation of the body
alone: where it ends, what it gives and what follows it.

* `decode_judged`: the verdict on the body with its trailer decides the outcome;
* `conclusion`: the verdict on a body that is complete;
* `decode_verdict`: decoding gives this verdict, is truncated where the body is short and corrupt
  where it is at fault; a mismatch of checksums is never reported of equal ones, and no lookup of
  the trailer fails after a decoding that succeeded.
-/

import Mathlib
import Inflate.Proofs.Deflate.StreamLength
import Inflate.Proofs.Output.Delivery
import Inflate.Zlib.Stream

namespace Inflate

namespace Zlib

open Deflate (inflate Halt)

/-! ### Headers -/

/-- Two bytes that begin a stream without a preset dictionary. -/
structure Header.Valid (cmf flg : UInt8) : Prop where
  method : cmf.toNat % 16 = 8
  window : cmf.toNat / 16 ≤ 7
  check : (256 * cmf.toNat + flg.toNat) % 31 = 0
  noDictionary : flg &&& 0x20 = 0

theorem Header.parse_of_valid {cmf flg : UInt8} (valid : Valid cmf flg) (rest : Bytes) :
    parse (cmf :: flg :: rest) = .ok ⟨256 * 2 ^ (cmf.toNat / 16), flg.toNat / 64⟩ := by
  have accepted : ofBytes cmf flg = .ok ⟨256 * 2 ^ (cmf.toNat / 16), flg.toNat / 64⟩ := by
    simp only [ofBytes]
    rw [if_neg (not_not_intro valid.method), if_neg (Nat.not_lt.mpr valid.window),
      if_neg (not_not_intro valid.check), if_neg (not_not_intro valid.noDictionary)]
  simp only [parse, accepted]

/-- The headers that are accepted are the valid ones. -/
theorem Header.isOk_parse_iff {cmf flg : UInt8} (rest : Bytes) :
    (∃ header, parse (cmf :: flg :: rest) = .ok header) ↔ Valid cmf flg := by
  constructor
  · rintro ⟨header, parsed⟩
    simp only [parse, ofBytes] at parsed
    by_cases method : cmf.toNat % 16 = 8
    · by_cases window : cmf.toNat / 16 ≤ 7
      · by_cases check : (256 * cmf.toNat + flg.toNat) % 31 = 0
        · by_cases dictionary : flg &&& 0x20 = 0
          · exact ⟨method, window, check, dictionary⟩
          · simp [method, Nat.not_lt.mpr window, check, dictionary] at parsed
        · simp [method, Nat.not_lt.mpr window, check] at parsed
      · simp [method, Nat.not_le.mp window] at parsed
    · simp [method] at parsed
  · intro valid
    exact ⟨_, parse_of_valid valid rest⟩

/-! ### Checksums in trailers -/

theorem length_take_trailer {bytes : Bytes} (enough : trailerLength ≤ bytes.length) :
    (bytes.take trailerLength).length = 4 :=
  List.length_take_of_le enough

theorem length_ofBigEndian (width n : Nat) : (Bytes.ofBigEndian width n).length = width := by
  rw [Bytes.ofBigEndian, List.length_reverse, Bytes.length_ofLittleEndian]

/-- A checksum that is written is read back. -/
theorem ofNat_bigEndian_ofBigEndian (checksum : UInt32) :
    UInt32.ofNat (Bytes.bigEndian (Bytes.ofBigEndian 4 checksum.toNat)) = checksum := by
  have small : checksum.toNat < 256 ^ 4 := checksum.toNat_lt
  rw [Bytes.bigEndian_ofBigEndian, Nat.mod_eq_of_lt small, UInt32.ofNat_toNat]

/-- The checksum in four bytes is a given one exactly if its number is. -/
theorem ofNat_bigEndian_eq_iff {bytes : Bytes} (four : bytes.length = 4) (checksum : UInt32) :
    UInt32.ofNat (Bytes.bigEndian bytes) = checksum ↔
      Bytes.bigEndian bytes = checksum.toNat := by
  have small : Bytes.bigEndian bytes < 2 ^ 32 := by
    have bound := Bytes.bigEndian_lt bytes
    rw [four] at bound
    exact bound
  constructor
  · intro same
    rw [← same, UInt32.toNat_ofNat', Nat.mod_eq_of_lt small]
  · intro same
    apply UInt32.toNat_inj.mp
    rw [UInt32.toNat_ofNat', Nat.mod_eq_of_lt small, same]

/-- The trailer that ends a stream holds the four bytes after its body. -/
theorem trailerAt?_append (front rest : Bytes) (enough : trailerLength ≤ rest.length) :
    trailerAt? (front ++ rest) (front.length + trailerLength) =
      some (UInt32.ofNat (Bytes.bigEndian (rest.take trailerLength))) := by
  have within : trailerLength ≤ front.length + trailerLength ∧
      front.length + trailerLength ≤ (front ++ rest).length := by
    rw [List.length_append]
    exact ⟨Nat.le_add_left _ _, Nat.add_le_add_left enough _⟩
  rw [trailerAt?, if_pos within, Nat.add_sub_cancel, List.drop_left]

/-! ### Outcomes -/

/-- The verdict on a stream whose body is complete, by the output and the bytes after the body. -/
def conclusion (options : Options) (input output rest : Bytes) : Except Failure Decoded :=
  let stored := UInt32.ofNat (Bytes.bigEndian (rest.take trailerLength))
  if rest.length < trailerLength then .error .truncated
  else if stored ≠ adler32 output then .error (.checksumMismatch stored (adler32 output))
  else if rest.length ≠ trailerLength ∧ options.allowTrailing = false then
    .error (.trailingData (rest.length - trailerLength))
  else
    .ok { data := output, format := .zlib, checksum := adler32 output, header := none
          consumed := input.length }

theorem conclusion_of_mismatch (options : Options) (input : Bytes) {output rest : Bytes}
    (enough : trailerLength ≤ rest.length)
    (different : UInt32.ofNat (Bytes.bigEndian (rest.take trailerLength)) ≠ adler32 output) :
    conclusion options input output rest =
      .error (.checksumMismatch (UInt32.ofNat (Bytes.bigEndian (rest.take trailerLength)))
        (adler32 output)) := by
  unfold conclusion
  rw [if_neg (Nat.not_lt.mpr enough), if_pos different]

/-! ### The two decodings -/

section Decodings

variable {options : Options} {body : Bytes}

/-- The verdict on a complete body with its trailer. -/
theorem verdict_checked {output rest : Bytes} (complete : inflate body = (output, .complete rest)) :
    Frame.checked.verdict body =
      if rest.length < trailerLength then .short
      else if Bytes.bigEndian (rest.take trailerLength) = (adler32 output).toNat then
        .complete (rest.drop trailerLength)
      else .fault := by
  simp only [Frame.verdict, Frame.close, complete]
  rfl

theorem verdict_checked_of_stopped {output : Bytes} {halt : Halt}
    (stopped : inflate body = (output, halt)) (incomplete : ∀ rest, halt ≠ .complete rest) :
    Frame.checked.verdict body = halt := by
  simp only [Frame.verdict, stopped]
  unfold Frame.close
  split
  · next rest _ => exact absurd rfl (incomplete rest)
  · rfl

/-- A body that is complete on its own, and at fault with its trailer, has a trailer with another
checksum. -/
theorem mismatch_of_fault {output rest : Bytes} (complete : inflate body = (output, .complete rest))
    (fault : Frame.checked.verdict body = .fault) :
    trailerLength ≤ rest.length ∧
      UInt32.ofNat (Bytes.bigEndian (rest.take trailerLength)) ≠ adler32 output := by
  rw [verdict_checked complete] at fault
  by_cases few : rest.length < trailerLength
  · rw [if_pos few] at fault
    cases fault
  rw [if_neg few] at fault
  refine ⟨Nat.not_lt.mp few, ?_⟩
  intro same
  have equal := (ofNat_bigEndian_eq_iff (length_take_trailer (Nat.not_lt.mp few)) _).mp same
  rw [if_pos equal] at fault
  cases fault

variable {cmf flg : UInt8} {buffer : Buffer}

theorem decode_of_length_lt (valid : Header.Valid cmf flg)
    (few : (cmf :: flg :: body).length < minLength) :
    decode (cmf :: flg :: body) options = .error .truncated := by
  simp only [decode, attempt, Header.parse_of_valid valid, if_pos few]

/-- A failure of the decoding is the outcome, and a fault in the data is looked at once more. -/
theorem decode_of_error [Memory] (valid : Header.Valid cmf flg)
    (long : minLength ≤ (cmf :: flg :: body).length)
    (reserved : Buffer.reserve (seedCapacity (cmf :: flg :: body).length options) = .ok buffer)
    {failure : Failure} (failed : decodeInto .checked options.limit body buffer = .error failure) :
    decode (cmf :: flg :: body) options = .error (match failure with
      | .corrupt detail => classifyFault (cmf :: flg :: body) options detail
      | failure => failure) := by
  have body' : (cmf :: flg :: body).drop Header.length = body := rfl
  have outcome : decodeBody (cmf :: flg :: body) options = .error (match failure with
      | .corrupt detail => classifyFault (cmf :: flg :: body) options detail
      | failure => failure) := by
    simp only [decodeBody, reserved, bind, Except.bind, body', failed]
    cases failure <;> rfl
  simp only [decode, attempt, Header.parse_of_valid valid, if_neg (Nat.not_lt.mpr long), outcome]

/-- A decoding that succeeds leaves only the bytes after the stream to be judged. -/
theorem decode_of_ok (valid : Header.Valid cmf flg)
    (long : minLength ≤ (cmf :: flg :: body).length)
    (reserved : Buffer.reserve (seedCapacity (cmf :: flg :: body).length options) = .ok buffer)
    {rest : Bytes} {filled : Buffer} {checksum : UInt32}
    (decoded : decodeInto .checked options.limit body buffer = .ok (rest, filled))
    (found : trailerAt? (cmf :: flg :: body) ((cmf :: flg :: body).length - rest.length) =
      some checksum) :
    decode (cmf :: flg :: body) options =
      if rest.length ≠ 0 ∧ options.allowTrailing = false then .error (.trailingData rest.length)
      else
        .ok { data := filled.bytes.toList, format := .zlib, checksum, header := none
              consumed := (cmf :: flg :: body).length } := by
  have body' : (cmf :: flg :: body).drop Header.length = body := rfl
  have outcome : decodeBody (cmf :: flg :: body) options =
      .ok (filled.bytes.toList, checksum, rest.length) := by
    simp only [decodeBody, reserved, bind, Except.bind, body', decoded, found]
  simp only [decode, attempt, Header.parse_of_valid valid, if_neg (Nat.not_lt.mpr long), outcome]
  by_cases none : rest.length = 0
  · rw [if_pos none, if_neg fun some => some.1 none]
  · rw [if_neg none]
    cases allowed : options.allowTrailing with
    | true => simp
    | false => simp [none]

/-- Where the trailer is looked up after either decoding, it is found. -/
theorem trailer_found {output rest : Bytes} (complete : inflate body = (output, .complete rest))
    (enough : trailerLength ≤ rest.length) (cmf flg : UInt8) {position : Nat}
    (at' : position = Header.length + (body.length - rest.length) + trailerLength) :
    trailerAt? (cmf :: flg :: body) position =
      some (UInt32.ofNat (Bytes.bigEndian (rest.take trailerLength))) := by
  obtain ⟨front, rfl⟩ := Deflate.suffix_of_inflate (congrArg Prod.snd complete)
  have counted : position = (cmf :: flg :: front).length + trailerLength := by
    simp only [at', Header.length, List.length_append, List.length_cons]
    omega
  rw [counted]
  exact trailerAt?_append (cmf :: flg :: front) rest enough

/-- A decoding with the trailer that succeeds has read a complete body and its checksum. -/
theorem complete_of_checked {rest : Bytes} (checked : Frame.checked.verdict body = .complete rest) :
    ∃ output whole, inflate body = (output, .complete whole) ∧ trailerLength ≤ whole.length ∧
      rest = whole.drop trailerLength ∧
      UInt32.ofNat (Bytes.bigEndian (whole.take trailerLength)) = adler32 output := by
  rcases found : inflate body with ⟨output, halt⟩
  have complete : ∃ whole, halt = .complete whole := by
    cases halt with
    | complete whole => exact ⟨whole, rfl⟩
    | short | fault | full =>
      rw [verdict_checked_of_stopped found (fun _ same => by cases same)] at checked
      cases checked
  obtain ⟨whole, rfl⟩ := complete
  rw [verdict_checked found] at checked
  by_cases few : whole.length < trailerLength
  · rw [if_pos few] at checked
    cases checked
  rw [if_neg few] at checked
  by_cases same : Bytes.bigEndian (whole.take trailerLength) = (adler32 output).toNat
  · rw [if_pos same] at checked
    cases checked
    have enough := Nat.not_lt.mp few
    exact ⟨output, whole, rfl, enough, rfl,
      (ofNat_bigEndian_eq_iff (length_take_trailer enough) _).mpr same⟩
  · rw [if_neg same] at checked
    cases checked

/-- Where the trailer is looked up after the decoding with it, the checksum of the output stands. -/
theorem trailer_found_of_checked (cmf flg : UInt8) {rest : Bytes}
    (checked : Frame.checked.verdict body = .complete rest) :
    trailerAt? (cmf :: flg :: body) ((cmf :: flg :: body).length - rest.length) =
      some (adler32 (inflate body).1) := by
  obtain ⟨output, whole, complete, enough, rfl, same⟩ := complete_of_checked checked
  have within := (Deflate.suffix_of_inflate (congrArg Prod.snd complete)).length_le
  have position : (cmf :: flg :: body).length - (whole.drop trailerLength).length =
      Header.length + (body.length - whole.length) + trailerLength := by
    simp only [List.length_cons, List.length_drop, Header.length]
    omega
  rw [trailer_found complete enough cmf flg position, same, complete]

theorem classifyFault_of_error (detail : String) {failure : Failure}
    (failed : decodeInto .bare options.limit body {} = .error failure) :
    classifyFault (cmf :: flg :: body) options detail = .corrupt detail := by
  have body' : (cmf :: flg :: body).drop Header.length = body := rfl
  simp only [classifyFault, body', failed]

theorem classifyFault_of_ok (detail : String) {output rest : Bytes}
    (complete : inflate body = (output, .complete rest)) (enough : trailerLength ≤ rest.length)
    {filled : Buffer} (decoded : decodeInto .bare options.limit body {} = .ok (rest, filled)) :
    classifyFault (cmf :: flg :: body) options detail =
      .checksumMismatch (UInt32.ofNat (Bytes.bigEndian (rest.take trailerLength)))
        (adler32 filled.bytes.toList) := by
  have body' : (cmf :: flg :: body).drop Header.length = body := rfl
  simp only [classifyFault, body', decoded, trailer_found complete enough cmf flg rfl]

/-- What the decoding of the body and its trailer delivers into the buffer at the start. -/
theorem delivers_checked (limit : Nat) (body : Bytes) (sound : buffer.Sound)
    (empty : buffer.bytes = #[]) :
    Delivers limit (inflate body).1 (Frame.checked.verdict body)
      (decodeInto .checked limit body buffer) := by
  have delivered := decodeInto_spec .checked limit body sound
  rw [empty] at delivered
  exact delivered

theorem delivers_bare (limit : Nat) (body : Bytes) :
    Delivers limit (inflate body).1 (inflate body).2 (decodeInto .bare limit body {}) :=
  decodeInto_spec .bare limit body Buffer.sound_empty

/-- After a fault with the trailer and none without it, the trailer is there and holds another
checksum than that of the output. -/
theorem mismatch_found {rest : Bytes} {filled : Buffer} (fault : Frame.checked.verdict body = .fault)
    (decoded : decodeInto .bare options.limit body {} = .ok (rest, filled)) :
    inflate body = (filled.bytes.toList, .complete rest) ∧ trailerLength ≤ rest.length ∧
      UInt32.ofNat (Bytes.bigEndian (rest.take trailerLength)) ≠ adler32 filled.bytes.toList := by
  have bare := delivers_bare options.limit body
  rw [decoded] at bare
  obtain ⟨complete, holds⟩ := bare.of_ok
  have whole : inflate body = (filled.bytes.toList, .complete rest) :=
    Prod.ext holds.contents.symm complete
  exact ⟨whole, mismatch_of_fault whole fault⟩

/-- A second look at a body that is at fault on its own finds nothing more. -/
theorem classifyFault_of_fault (cmf flg : UInt8) (options : Options) (detail : String)
    (fault : (inflate body).2 = .fault) :
    classifyFault (cmf :: flg :: body) options detail = .corrupt detail := by
  have bare := delivers_bare options.limit body
  cases outcome : decodeInto .bare options.limit body {} with
  | ok decoded =>
    rw [outcome] at bare
    cases fault.symm.trans bare.of_ok.1
  | error failure => exact classifyFault_of_error detail outcome

/-- The second look at a body names the mismatch, if memory allows. -/
theorem yields_classifyFault {output rest : Bytes}
    (complete : inflate body = (output, .complete rest))
    (permits : Permits options.limit output.length)
    (fault : Frame.checked.verdict body = .fault) :
    Yields output.length (conclusion options (cmf :: flg :: body) output rest)
      (.error (classifyFault (cmf :: flg :: body) options Failure.deflateDetail)) := by
  obtain ⟨enough, different⟩ := mismatch_of_fault complete fault
  have concluded := conclusion_of_mismatch options (cmf :: flg :: body) enough different
  have delivered := delivers_bare options.limit body
  rw [complete] at delivered
  cases outcome : decodeInto .bare options.limit body {} with
  | ok decoded =>
    rw [outcome] at delivered
    obtain ⟨same, holds⟩ := delivered.of_ok
    cases same
    rw [classifyFault_of_ok _ complete enough outcome, holds.contents, ← concluded]
    exact .expected
  | error failure =>
    rw [classifyFault_of_error _ outcome]
    rw [outcome] at delivered
    rcases delivered.of_error with ⟨short, _⟩ | ⟨bad, _⟩ | refused
    · cases short
    · cases bad
    · exact .unnamed (refused.exhausts permits).1 concluded

/-! ### The outcome by the verdict -/

/-- The outcome of decoding by the verdict on the body with its trailer. -/
def judged (options : Options) (input output : Bytes) : Halt → Except Failure Decoded
  | .complete rest =>
    if rest.length ≠ 0 ∧ options.allowTrailing = false then .error (.trailingData rest.length)
    else
      .ok { data := output, format := .zlib, checksum := adler32 output, header := none
            consumed := input.length }
  | .fault => .error (classifyFault input options Failure.deflateDetail)
  | _ => .error .truncated

/-- Behind a valid header, the verdict on the body with its trailer decides, unless the output is
refused. -/
theorem decode_judged (valid : Header.Valid cmf flg)
    (long : minLength ≤ (cmf :: flg :: body).length)
    (reserved : Buffer.reserve (seedCapacity (cmf :: flg :: body).length options) = .ok buffer) :
    decode (cmf :: flg :: body) options =
        judged options (cmf :: flg :: body) (inflate body).1 (Frame.checked.verdict body) ∨
      ∃ failure, decode (cmf :: flg :: body) options = .error failure ∧
        Refusal options.limit (inflate body).1.length failure := by
  obtain ⟨sound, empty⟩ := Buffer.sound_of_reserve reserved
  have delivered := delivers_checked options.limit body sound empty
  cases outcome : decodeInto .checked options.limit body buffer with
  | ok decoded =>
    obtain ⟨rest, filled⟩ := decoded
    rw [outcome] at delivered
    obtain ⟨checked, holds⟩ := delivered.of_ok
    have found := trailer_found_of_checked cmf flg checked
    left
    rw [decode_of_ok valid long reserved outcome found, checked, holds.contents]
    rfl
  | error failure =>
    rw [decode_of_error valid long reserved outcome]
    rw [outcome] at delivered
    rcases delivered.of_error with ⟨short, rfl⟩ | ⟨fault, rfl⟩ | refused
    · rw [short]
      exact Or.inl rfl
    · rw [fault]
      exact Or.inl rfl
    · refine Or.inr ⟨failure, ?_, refused⟩
      cases refused <;> rfl

/-- Where no capacity is asked for, a buffer can be reserved. -/
theorem decode_eq_judged (valid : Header.Valid cmf flg) (unset : options.initialCapacity = none)
    (long : minLength ≤ (cmf :: flg :: body).length) :
    decode (cmf :: flg :: body) options =
        judged options (cmf :: flg :: body) (inflate body).1 (Frame.checked.verdict body) ∨
      ∃ failure, decode (cmf :: flg :: body) options = .error failure ∧
        Refusal options.limit (inflate body).1.length failure := by
  obtain ⟨buffer, reserved, -, -⟩ := Buffer.sound_seed unset (cmf :: flg :: body).length
  exact decode_judged valid long reserved

theorem yields_of_refused {size : Nat} {expected outcome : Except Failure Decoded}
    (permits : Permits options.limit size)
    (refused : ∃ failure, outcome = .error failure ∧ Refusal options.limit size failure) :
    Yields size expected outcome := by
  obtain ⟨failure, rfl, refused⟩ := refused
  obtain ⟨large, asked, rfl⟩ := refused.exhausts permits
  exact .outOfMemory asked large

/-- A verdict that is no fault says what the conclusion from the body says. -/
theorem judged_eq_conclusion {output rest : Bytes}
    (complete : inflate body = (output, .complete rest))
    (faultless : Frame.checked.verdict body ≠ .fault) (input : Bytes) :
    judged options input output (Frame.checked.verdict body) =
      conclusion options input output rest := by
  have verdict := verdict_checked complete
  unfold conclusion
  by_cases few : rest.length < trailerLength
  · rw [if_pos few] at verdict ⊢
    rw [verdict]
    rfl
  rw [if_neg few] at verdict ⊢
  have four := length_take_trailer (Nat.not_lt.mp few)
  by_cases same : Bytes.bigEndian (rest.take trailerLength) = (adler32 output).toNat
  · rw [if_pos same] at verdict
    rw [if_neg (not_not_intro ((ofNat_bigEndian_eq_iff four _).mpr same)), verdict]
    have left : rest.length - trailerLength ≠ 0 ↔ rest.length ≠ trailerLength := by omega
    simp only [judged, List.length_drop, left]
  · rw [if_neg same] at verdict
    exact absurd verdict faultless

/-- **A complete body** decides the outcome, if the limit permits its output. -/
theorem yields_conclusion (valid : Header.Valid cmf flg)
    (unset : options.initialCapacity = none) {output rest : Bytes}
    (complete : inflate body = (output, .complete rest))
    (permits : Permits options.limit output.length) :
    Yields output.length (conclusion options (cmf :: flg :: body) output rest)
      (decode (cmf :: flg :: body) options) := by
  by_cases few : (cmf :: flg :: body).length < minLength
  · obtain ⟨front, rfl⟩ := Deflate.suffix_of_inflate (congrArg Prod.snd complete)
    have two := Deflate.two_le_length_of_inflate (Deflate.inflate_complete_of_append complete)
    have concluded : conclusion options (cmf :: flg :: (front ++ rest)) output rest =
        .error .truncated := by
      refine if_pos ?_
      simp only [List.length_cons, List.length_append, minLength, trailerLength] at few ⊢
      omega
    rw [decode_of_length_lt valid few, ← concluded]
    exact .expected
  have judgement := decode_eq_judged valid unset (Nat.not_lt.mp few)
  rw [complete] at judgement
  rcases judgement with same | refused
  · rw [same]
    by_cases fault : Frame.checked.verdict body = .fault
    · rw [fault]
      exact yields_classifyFault complete permits fault
    · rw [judged_eq_conclusion complete fault]
      exact .expected
  · exact yields_of_refused permits refused

/-- **A body that is short or at fault** decides the outcome, if the limit permits its output. -/
theorem yields_failure (valid : Header.Valid cmf flg) (unset : options.initialCapacity = none)
    (long : minLength ≤ (cmf :: flg :: body).length) {output : Bytes} {halt : Halt}
    (stopped : inflate body = (output, halt)) (permits : Permits options.limit output.length) :
    (halt = .short → Yields output.length (.error .truncated)
      (decode (cmf :: flg :: body) options)) ∧
    (halt = .fault → Yields output.length (.error (.corrupt Failure.deflateDetail))
      (decode (cmf :: flg :: body) options)) := by
  have judgement := decode_eq_judged valid unset long
  rw [stopped] at judgement
  rcases judgement with same | refused
  · rw [same]
    constructor
    · rintro rfl
      rw [verdict_checked_of_stopped stopped (fun _ same => by cases same)]
      exact .expected
    · rintro rfl
      rw [verdict_checked_of_stopped stopped (fun _ same => by cases same), judged,
        classifyFault_of_fault cmf flg options _ (congrArg Prod.snd stopped)]
      exact .expected
  · exact ⟨fun _ => yields_of_refused permits refused, fun _ => yields_of_refused permits refused⟩

/-- A mismatch of checksums is never reported of equal ones. -/
theorem ne_of_checksumMismatch (valid : Header.Valid cmf flg)
    (unset : options.initialCapacity = none) {expected actual : UInt32}
    (reported : decode (cmf :: flg :: body) options = .error (.checksumMismatch expected actual)) :
    expected ≠ actual := by
  by_cases few : (cmf :: flg :: body).length < minLength
  · rw [decode_of_length_lt valid few] at reported
    cases reported
  rcases decode_eq_judged valid unset (Nat.not_lt.mp few) with same | ⟨failure, same, refused⟩
  · rw [same] at reported
    cases verdict : Frame.checked.verdict body with
    | complete rest =>
      rw [verdict, judged] at reported
      split at reported <;> cases reported
    | short | full =>
      rw [verdict] at reported
      cases reported
    | fault =>
      rw [verdict, judged, Except.error.injEq] at reported
      cases second : decodeInto .bare options.limit body {} with
      | error failure =>
        rw [classifyFault_of_error _ second] at reported
        cases reported
      | ok decoded =>
        obtain ⟨complete, enough, different⟩ := mismatch_found verdict second
        rw [classifyFault_of_ok _ complete enough second] at reported
        cases reported
        exact different
  · rw [same] at reported
    cases refused <;> cases reported

end Decodings

/-! ### The verdict -/

/-- **The verdict on a zlib stream.** Behind a valid header, with no capacity asked for:

* if the body is complete and its output within the limit, the outcome is the conclusion from the
  output and the bytes that follow the body;
* if the body is short or at fault, the input is not too short and the output is within the limit,
  the outcome is a truncated or a corrupt stream;
* a mismatch of checksums is never reported of equal ones;
* the trailer is found after a decoding that succeeds, and after a fault that only the trailer
  explains. -/
theorem decode_verdict {cmf flg : UInt8} (valid : Header.Valid cmf flg) (body : Bytes)
    (options : Options) (unset : options.initialCapacity = none) :
    (∀ output rest, inflate body = (output, .complete rest) → output.length ≤ options.limit →
      rest <:+ body ∧ Yields output.length (conclusion options (cmf :: flg :: body) output rest)
        (decode (cmf :: flg :: body) options)) ∧
    (∀ output halt, inflate body = (output, halt) → output.length ≤ options.limit →
      minLength ≤ (cmf :: flg :: body).length →
      (halt = .short → Yields output.length (.error .truncated)
        (decode (cmf :: flg :: body) options)) ∧
      (halt = .fault → Yields output.length (.error (.corrupt Failure.deflateDetail))
        (decode (cmf :: flg :: body) options))) ∧
    (∀ expected actual,
      decode (cmf :: flg :: body) options = .error (.checksumMismatch expected actual) →
        expected ≠ actual) ∧
    ∀ buffer rest filled,
      Buffer.reserve (seedCapacity (cmf :: flg :: body).length options) = .ok buffer →
      (decodeInto .checked options.limit body buffer = .ok (rest, filled) →
        trailerAt? (cmf :: flg :: body) ((cmf :: flg :: body).length - rest.length) ≠ none) ∧
      ∀ detail, decodeInto .checked options.limit body buffer = .error (.corrupt detail) →
        decodeInto .bare options.limit body {} = .ok (rest, filled) →
        trailerAt? (cmf :: flg :: body)
          (Header.length + (body.length - rest.length) + trailerLength) ≠ none := by
  refine ⟨?_, ?_, ?_, ?_⟩
  · intro output rest complete under
    exact ⟨Deflate.suffix_of_inflate (congrArg Prod.snd complete),
      yields_conclusion valid unset complete (Or.inl under)⟩
  · intro output halt stopped under long
    exact yields_failure valid unset long stopped (Or.inl under)
  · intro expected actual reported
    exact ne_of_checksumMismatch valid unset reported
  · intro buffer rest filled reserved
    obtain ⟨sound, empty⟩ := Buffer.sound_of_reserve reserved
    have delivered := delivers_checked options.limit body sound empty
    constructor
    · intro decoded missing
      rw [decoded] at delivered
      cases (trailer_found_of_checked cmf flg delivered.of_ok.1).symm.trans missing
    · intro detail corrupt decoded missing
      rw [corrupt] at delivered
      have fault : Frame.checked.verdict body = .fault := by
        rcases delivered.of_error with ⟨_, other⟩ | ⟨fault, _⟩ | refused
        · cases other
        · exact fault
        · cases refused
      obtain ⟨complete, enough, _⟩ := mismatch_found fault decoded
      cases (trailer_found complete enough cmf flg rfl).symm.trans missing

/-- One stored byte under a checksum that is off by one. -/
theorem decode_verdict_offByOne :
    Header.Valid 0x78 0x9c ∧ ({} : Options).initialCapacity = none ∧
      inflate [1, 1, 0, 0xfe, 0xff, 0x61, 0, 0x62, 0, 0x63] =
        ([0x61], .complete [0, 0x62, 0, 0x63]) ∧
      decode [0x78, 0x9c, 1, 1, 0, 0xfe, 0xff, 0x61, 0, 0x62, 0, 0x63] {} =
        .error (.checksumMismatch 0x00620063 0x00620062) := by
  have valid : Header.Valid 0x78 0x9c := ⟨by decide, by decide, by decide, by decide⟩
  have complete : inflate [1, 1, 0, 0xfe, 0xff, 0x61, 0, 0x62, 0, 0x63] =
      ([0x61], .complete [0, 0x62, 0, 0x63]) := by cbv
  refine ⟨valid, rfl, complete, ?_⟩
  have yields := ((decode_verdict valid [1, 1, 0, 0xfe, 0xff, 0x61, 0, 0x62, 0, 0x63] {} rfl).1
    _ _ complete (by decide)).2
  rw [yields.eq (by decide)]
  rfl

end Zlib

end Inflate
