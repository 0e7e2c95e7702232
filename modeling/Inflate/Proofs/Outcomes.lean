/-
**What decoding can come to.**

Either the stream cannot be decoded, and the failure says why; whether bytes after it are allowed does not
matter then, and no such failure speaks of them. Or the stream has been decoded, and only what follows it
is left to be judged.

* `Failure.OfStream`: a failure that is not about what follows a stream;
* `FailsOfStream`: an operation that has no other failures, as every part of decoding is;
* `Zlib.outcome_cases`, `Gzip.outcome_cases`: what decoding comes to, with the bytes after the stream
  allowed and not.
-/

import Inflate.Container
import Inflate.Proofs.Gzip.HeaderCoding
import Inflate.Proofs.Gzip.Survey
import Inflate.Proofs.Zlib.Verdict

namespace Inflate

open Deflate (Halt inflate)

/-! ### Failures of streams -/

/-- The failure is not about what follows the stream. -/
def Failure.OfStream : Failure → Prop
  | .trailingData _ => False
  | _ => True

theorem Failure.OfStream.ne {failure : Failure} (ofStream : failure.OfStream) (count : Nat) :
    failure ≠ .trailingData count := by
  rintro rfl
  exact ofStream

/-- Every failure of the operation is of the stream. -/
def FailsOfStream {α : Type} (outcome : Except Failure α) : Prop :=
  ∀ failure, outcome = .error failure → failure.OfStream

section Failing

variable {α β : Type}

theorem failsOfStream_ok (value : α) : FailsOfStream (.ok value) := by
  intro failure failed
  cases failed

theorem failsOfStream_error {failure : Failure} (ofStream : failure.OfStream) :
    FailsOfStream (.error failure : Except Failure α) := by
  intro other failed
  cases failed
  exact ofStream

theorem FailsOfStream.bind {outcome : Except Failure α} {next : α → Except Failure β}
    (first : FailsOfStream outcome)
    (onward : ∀ value, outcome = .ok value → FailsOfStream (next value)) :
    FailsOfStream (outcome >>= next) := by
  cases outcome with
  | ok value => exact onward value rfl
  | error failure => exact failsOfStream_error (first failure rfl)

theorem FailsOfStream.guard {bad : Prop} [Decidable bad] {failure : Failure}
    {next : Except Failure β} (ofStream : failure.OfStream) (onward : FailsOfStream next) :
    FailsOfStream (if bad then throw failure >>= fun _ : Unit => next else next) := by
  by_cases wrong : bad
  · rw [if_pos wrong]
    exact failsOfStream_error ofStream
  · rw [if_neg wrong]
    exact onward

theorem Refusal.ofStream {limit total : Nat} {failure : Failure}
    (refused : Refusal limit total failure) : failure.OfStream := by
  cases refused <;> trivial

theorem failsOfStream_reserve (capacity : Nat) : FailsOfStream (Buffer.reserve capacity) := by
  unfold Buffer.reserve
  split
  · exact failsOfStream_ok _
  · exact failsOfStream_error trivial

theorem failsOfStream_decodeInto (frame : Frame) (limit : Nat) (input : Bytes) {buffer : Buffer}
    (sound : buffer.Sound) : FailsOfStream (decodeInto frame limit input buffer) := by
  intro failure failed
  have delivered := decodeInto_spec frame limit input sound
  rw [failed] at delivered
  rcases delivered.of_error with ⟨-, rfl⟩ | ⟨-, rfl⟩ | refused
  · trivial
  · trivial
  · exact refused.ofStream

end Failing

/-! ### Zlib streams -/

namespace Zlib

theorem failsOfStream_parse (input : Bytes) : FailsOfStream (Header.parse input) := by
  unfold Header.parse
  split
  · split
    · exact failsOfStream_ok _
    · exact failsOfStream_error trivial
  · exact failsOfStream_error trivial

theorem ofStream_classifyFault (input : Bytes) (options : Options) (detail : String) :
    (classifyFault input options detail).OfStream := by
  simp only [classifyFault]
  split
  · trivial
  · split <;> trivial

theorem failsOfStream_decodeBody (input : Bytes) (options : Options) :
    FailsOfStream (decodeBody input options) := by
  refine (failsOfStream_reserve _).bind fun buffer reserved => ?_
  have body := failsOfStream_decodeInto .checked options.limit (input.drop Header.length)
    (Buffer.sound_of_reserve reserved).1
  split
  · exact failsOfStream_error (ofStream_classifyFault _ _ _)
  · next failed => exact failsOfStream_error (body _ failed)
  · split
    · exact failsOfStream_ok _
    · exact failsOfStream_error trivial

/-- What decoding a body that succeeds has gone through. -/
theorem stream_of_decodeBody [Memory] {input data : Bytes} {options : Options} {checksum : UInt32}
    {trailing : Nat} (decoded : decodeBody input options = .ok (data, checksum, trailing)) :
    ∃ buffer rest filled, Buffer.reserve (seedCapacity input.length options) = .ok buffer ∧
      decodeInto .checked options.limit (input.drop Header.length) buffer = .ok (rest, filled) ∧
      trailerAt? input (input.length - rest.length) = some checksum ∧
      data = filled.bytes.toList ∧ trailing = rest.length := by
  unfold decodeBody at decoded
  obtain ⟨buffer, reserved, decoded⟩ := ok_of_bind decoded
  split at decoded
  · cases decoded
  · cases decoded
  · next rest filled found =>
    split at decoded
    · next stored =>
      cases decoded
      exact ⟨buffer, rest, filled, reserved, found, stored, rfl, rfl⟩
    · cases decoded

theorem decodeBody_of_stream [Memory] {input rest : Bytes} {options : Options} {buffer filled : Buffer}
    {checksum : UInt32}
    (reserved : Buffer.reserve (seedCapacity input.length options) = .ok buffer)
    (found : decodeInto .checked options.limit (input.drop Header.length) buffer = .ok (rest, filled))
    (stored : trailerAt? input (input.length - rest.length) = some checksum) :
    decodeBody input options = .ok (filled.bytes.toList, checksum, rest.length) := by
  unfold decodeBody
  rw [bind_of_ok reserved]
  simp only [found, stored]

/-- What decoding a stream gives, by its body and the count of bytes after it. -/
def conclude (allowed : Bool) (input : Bytes) (body : Bytes × UInt32 × Nat) :
    Except Failure Decoded :=
  if body.2.2 ≠ 0 ∧ allowed = false then .error (.trailingData body.2.2)
  else
    .ok { data := body.1, format := .zlib, checksum := body.2.1, header := none
          consumed := input.length }

/-- Decoding a stream as one operation after another. -/
theorem decode_eq_conclude [Memory] (input : Bytes) (options : Options) :
    decode input options = (do
      let _ ← Header.parse input
      if input.length < minLength then .error .truncated
      else do
        let body ← decodeBody input options
        conclude options.allowTrailing input body) := by
  unfold decode attempt
  cases Header.parse input with
  | error failure => rfl
  | ok header =>
    rw [bind_of_ok rfl]
    by_cases few : input.length < minLength
    · simp only [if_pos few]
    simp only [if_neg few]
    cases decodeBody input options with
    | error failure => rfl
    | ok body =>
      obtain ⟨data, checksum, trailing⟩ := body
      simp only [bind_of_ok rfl, conclude]
      by_cases none : trailing = 0
      · simp only [if_pos none, if_neg fun some : trailing ≠ 0 ∧ options.allowTrailing = false =>
          some.1 none]
      · cases allowed : options.allowTrailing <;> simp [none]

/-- Behind a header, in an input that is not too short, the body decides. -/
theorem decode_of_body {input : Bytes} {options : Options} {header : Header}
    (parsed : Header.parse input = .ok header) (long : minLength ≤ input.length)
    {body : Bytes × UInt32 × Nat} (decoded : decodeBody input options = .ok body) :
    decode input options = conclude options.allowTrailing input body := by
  rw [decode_eq_conclude, bind_of_ok parsed, if_neg (Nat.not_lt.mpr long), bind_of_ok decoded]

/-- **What decoding a stream comes to.** -/
theorem outcome_cases (input : Bytes) (options : Options) :
    (∃ failure : Failure, failure.OfStream ∧
      ∀ allowed, decode input { options with allowTrailing := allowed } = .error failure) ∨
    ∃ header body, Header.parse input = .ok header ∧ minLength ≤ input.length ∧
      decodeBody input options = .ok body ∧
      ∀ allowed, decode input { options with allowTrailing := allowed } =
        conclude allowed input body := by
  cases parsed : Header.parse input with
  | error failure =>
    refine Or.inl ⟨failure, failsOfStream_parse input failure parsed, fun allowed => ?_⟩
    simp only [decode, attempt, parsed]
  | ok header =>
    by_cases few : input.length < minLength
    · refine Or.inl ⟨.truncated, trivial, fun allowed => ?_⟩
      simp only [decode, attempt, parsed, if_pos few]
    -- the body is decoded in the same way, whether bytes after it are allowed or not
    have same (allowed : Bool) : decodeBody input { options with allowTrailing := allowed } =
        decodeBody input options := rfl
    cases body : decodeBody input options with
    | error failure =>
      refine Or.inl ⟨failure, failsOfStream_decodeBody input options failure body, fun allowed => ?_⟩
      simp only [decode, attempt, parsed, if_neg few, same, body]
    | ok result =>
      have long := Nat.not_lt.mp few
      refine Or.inr ⟨header, result, rfl, long, rfl, fun allowed => ?_⟩
      exact decode_of_body parsed long ((same allowed).trans body)

end Zlib

/-! ### Gzip files -/

namespace Gzip

/-- A step that fails only for want of bytes stands before others. -/
theorem Header.FailsShort.bind {α β : Type} {step : Bytes → Except Failure (α × Bytes)}
    (failsShort : Header.FailsShort step) {input : Bytes} {next : α × Bytes → Except Failure β}
    (onward : ∀ value rest, FailsOfStream (next (value, rest))) :
    FailsOfStream (step input >>= next) := by
  refine FailsOfStream.bind ?_ fun result _ => onward result.1 result.2
  intro failure failed
  rw [failsShort input failure failed]
  trivial

theorem failsOfStream_parse (input : Bytes) : FailsOfStream (Header.parse input) := by
  have byte {input : Bytes} {next : UInt8 × Bytes → Except Failure Header} :=
    @Header.FailsShort.bind _ _ _ Header.failsShort_takeByte input next
  unfold Header.parse
  refine byte fun first rest => byte fun second rest => .guard trivial ?_
  refine byte fun method rest => .guard trivial (byte fun flags rest => .guard trivial ?_)
  refine (Header.failsShort_takeExactly 4).bind fun mtime rest => ?_
  refine byte fun extraFlags rest => byte fun os rest => ?_
  refine (Header.failsShort_takeExtra.optional _).bind fun extra rest => ?_
  refine (Header.failsShort_takeText.optional _).bind fun name rest => ?_
  refine (Header.failsShort_takeText.optional _).bind fun comment rest => ?_
  refine ((Header.failsShort_takeExactly 2).optional _).bind fun stored rest => ?_
  cases stored with
  | none => exact failsOfStream_ok _
  | some stored => exact .guard trivial (failsOfStream_ok _)

theorem failsOfStream_checkTrailer (trailer output : Bytes) :
    FailsOfStream (checkTrailer trailer output) := by
  simp only [checkTrailer]
  split
  · exact failsOfStream_error trivial
  · split
    · exact failsOfStream_error trivial
    · exact failsOfStream_ok _

theorem failsOfStream_closeMember (header : Header) (output : Bytes) (halt : Halt) :
    FailsOfStream (closeMember header output halt) := by
  cases halt with
  | complete rest =>
    refine .guard trivial ?_
    exact (failsOfStream_checkTrailer _ _).bind fun checksum _ => failsOfStream_ok _
  | fault | short | full => exact failsOfStream_error trivial

theorem failsOfStream_surveyMember (input : Bytes) :
    FailsOfStream (surveyMember input).result := by
  unfold surveyMember
  split
  · next parsed => exact failsOfStream_error (failsOfStream_parse input _ parsed)
  · split
    · exact failsOfStream_error trivial
    · exact failsOfStream_closeMember _ _ _

theorem failsOfStream_survey (input : Bytes) : FailsOfStream (survey input).result := by
  cases front : (surveyMember input).result with
  | error cause =>
    rw [survey_of_error front]
    exact failsOfStream_error (failsOfStream_surveyMember input cause front)
  | ok found =>
    obtain ⟨member, rest⟩ := found
    have fewer : rest.length < input.length := length_lt_of_surveyMember front
    rw [survey_of_ok front]
    split
    · intro failure failed
      cases others : (survey rest).result with
      | error cause =>
        rw [others] at failed
        cases failed
        exact failsOfStream_survey rest failure others
      | ok found =>
        rw [others] at failed
        cases failed
    · exact failsOfStream_ok _
termination_by input.length

theorem failsOfStream_walk (limit : Nat) (input : Bytes) {buffer : Buffer} (sound : buffer.Sound) :
    FailsOfStream (walk limit input buffer).outcome := by
  intro failure failed
  have found := walk_survey limit sound input
  rw [failed] at found
  rcases found with surveyed | refused
  · exact failsOfStream_survey input failure surveyed
  · exact refused.ofStream

/-- A walk that succeeds has met the members of the file and delivered their output. -/
theorem members_of_outcome {limit : Nat} {buffer : Buffer} (sound : buffer.Sound) {input : Bytes}
    {result : List Member × Nat × Buffer} (done : (walk limit input buffer).outcome = .ok result) :
    ∃ members tail, Members input members tail ∧
      result.1 = members.map Written.member ∧ result.2.1 = tail.length ∧
      result.2.2.Holds limit (buffer.bytes.toList ++ outputs members) := by
  unfold Walk.outcome at done
  split at done
  · cases done
  · next trailing filled ending =>
    cases done
    obtain ⟨members, tail, file, count, same, holds⟩ := members_of_walk sound ending
    exact ⟨members, tail, file, same, count, holds⟩

/-- What is concluded from the members of a file is their summary. -/
theorem conclude_members (options : Options) (input : Bytes) (members : List Written)
    (trailing : Nat) :
    conclude options input (members.map Written.member) trailing (outputs members) =
      if trailing ≠ 0 ∧ options.allowTrailing = false then .error (.trailingData trailing)
      else .ok (summary input members) := by
  have last : ((members.map Written.member).getLast?.map (·.checksum)).getD 0 =
      (members.getLast?.map fun written => crc32 written.output).getD 0 := by
    rw [List.getLast?_map, Option.map_map]
    rfl
  have first : (members.map Written.member).head?.map (·.header) =
      members.head?.map (·.header) := by
    rw [List.head?_map, Option.map_map]
    rfl
  unfold conclude
  rw [last, first]
  rfl

/-- What decoding a file gives, by how the walk over its members ends. -/
def ended (options : Options) (input : Bytes) :
    Except Failure (List Member × Nat × Buffer) → Except Failure Decoded
  | .error failure => .error failure
  | .ok walked => conclude options input walked.1 walked.2.1 walked.2.2.bytes.toList

theorem decode_of_reserve {input : Bytes} {options : Options} {buffer : Buffer}
    (reserved : Buffer.reserve (seedCapacity input.length options) = .ok buffer) :
    decode input options = ended options input (walk options.limit input buffer).outcome := by
  rw [decode_eq_conclude, bind_of_ok reserved]
  cases (walk options.limit input buffer).outcome <;> rfl

/-- **What decoding a file comes to.** -/
theorem outcome_cases (input : Bytes) (options : Options) :
    (∃ failure : Failure, failure.OfStream ∧
      ∀ allowed, decode input { options with allowTrailing := allowed } = .error failure) ∨
    ∃ buffer members tail filled,
      Buffer.reserve (seedCapacity input.length options) = .ok buffer ∧
      (walk options.limit input buffer).outcome =
        .ok (members.map Written.member, tail.length, filled) ∧
      Members input members tail ∧ filled.Holds options.limit (outputs members) ∧
      ∀ allowed, decode input { options with allowTrailing := allowed } =
        if tail.length ≠ 0 ∧ allowed = false then .error (.trailingData tail.length)
        else .ok (summary input members) := by
  cases reserved : Buffer.reserve (seedCapacity input.length options) with
  | error failure =>
    refine Or.inl ⟨failure, failsOfStream_reserve _ failure reserved, fun allowed => ?_⟩
    rw [decode_eq_conclude]
    show Buffer.reserve (seedCapacity input.length options) >>= _ = _
    rw [reserved]
    rfl
  | ok buffer =>
    obtain ⟨sound, empty⟩ := Buffer.sound_of_reserve reserved
    -- the walk does not look at whether bytes after the members are allowed
    have decodes (allowed : Bool) : decode input { options with allowTrailing := allowed } =
        ended { options with allowTrailing := allowed } input
          (walk options.limit input buffer).outcome := decode_of_reserve reserved
    cases walked : (walk options.limit input buffer).outcome with
    | error failure =>
      rw [walked] at decodes
      exact Or.inl ⟨failure, failsOfStream_walk options.limit input sound failure walked, decodes⟩
    | ok result =>
      obtain ⟨found, trailing, filled⟩ := result
      obtain ⟨members, tail, file, rfl, rfl, holds⟩ := members_of_outcome sound walked
      rw [empty, List.nil_append] at holds
      refine Or.inr ⟨buffer, members, tail, filled, rfl, walked, file, holds, fun allowed => ?_⟩
      rw [decodes, walked]
      show conclude _ input _ tail.length filled.bytes.toList = _
      have held : filled.bytes.toList = outputs members := holds.contents
      rw [held]
      exact conclude_members _ _ _ _

end Gzip

end Inflate
