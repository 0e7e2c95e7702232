/-
**What raw inflation finds in a gzip file.**

A file can be looked through without any buffer: each member is inflated on its own, and its output is
compared with its trailer. What decoding gives is what this survey finds, with the same failure at the
same place, unless the output is refused. So the outcome for any file, be it accepted or not, can be
read off the survey.

* `survey`: the members of a file, all output, and why there are no more members if that is a failure;
* `outcome_walk`: a walk over the members as one operation after another;
* `decodeMember_survey`, `walk_survey`: what is decoded of one member, and of all of them;
* `decode_survey`: what is decoded of a file.
-/

import Inflate.Proofs.Gzip.Grammar

namespace Inflate

namespace Gzip

open Deflate (inflate Halt)

/-! ### Surveys -/

/-- What is found in a byte string: all that inflation gives, also before a failure, and a value or the
failure. -/
structure Survey (α : Type) where
  output : Bytes
  result : Except Failure α

/-- The member whose body gives an output, by where the body stops. Gives the bytes after it too. -/
def closeMember (header : Header) (output : Bytes) : Halt → Except Failure (Member × Bytes)
  | .complete rest => do
    if rest.length < trailerLength then throw .truncated
    let checksum ← checkTrailer (rest.take trailerLength) output
    return (⟨header, output.length, checksum⟩, rest.drop trailerLength)
  | .fault => .error (.corrupt Failure.deflateDetail)
  | _ => .error .truncated

/-- Looks at the member at the front of a byte string. -/
def surveyMember (input : Bytes) : Survey (Member × Bytes) :=
  match Header.parse input with
  | .error failure => ⟨[], .error failure⟩
  | .ok header =>
    if input.length < minLength then ⟨[], .error .truncated⟩
    else
      let inflated := inflate (input.drop header.length)
      ⟨inflated.1, closeMember header inflated.1 inflated.2⟩

theorem closeMember_eq_ok {header : Header} {output rest : Bytes} {halt : Halt} {member : Member}
    (closed : closeMember header output halt = .ok (member, rest)) :
    member.header = header ∧ ∃ after, halt = .complete after ∧ trailerLength ≤ after.length ∧
      rest = after.drop trailerLength := by
  cases halt with
  | complete after =>
    obtain ⟨enough, closed⟩ := ok_of_guard closed
    obtain ⟨checksum, -, closed⟩ := ok_of_bind closed
    cases closed
    exact ⟨rfl, after, rfl, Nat.not_lt.mp enough, rfl⟩
  | short | fault | full => cases closed

/-- Eight bytes behind a body close the member, or are refused as its trailer. -/
theorem closeMember_eq (header : Header) (output : Bytes) {trailer : Bytes}
    (eight : trailer.length = trailerLength) (rest : Bytes) :
    closeMember header output (.complete (trailer ++ rest)) =
      (checkTrailer trailer output).map fun checksum => (⟨header, output.length, checksum⟩, rest) := by
  have enough : ¬(trailer ++ rest).length < trailerLength := by
    rw [List.length_append, eight]
    omega
  simp only [closeMember, if_neg enough, List.take_left' eight, List.drop_left' eight]
  cases checkTrailer trailer output <;> rfl

/-- A member takes at least one byte. -/
theorem length_lt_of_surveyMember {input rest : Bytes} {member : Member}
    (found : (surveyMember input).result = .ok (member, rest)) : rest.length < input.length := by
  unfold surveyMember at found
  split at found
  · cases found
  · next header parsed =>
    split at found
    · cases found
    · obtain ⟨-, after, completes, enough, rfl⟩ := closeMember_eq_ok found
      have left := (Deflate.suffix_of_inflate completes).length_le
      simp only [List.length_drop, trailerLength] at left enough ⊢
      omega

/-- The output of a member is what its body inflates to. -/
theorem output_surveyMember {input rest : Bytes} {member : Member}
    (found : (surveyMember input).result = .ok (member, rest)) :
    (surveyMember input).output = (inflate (input.drop member.header.length)).1 := by
  unfold surveyMember at found ⊢
  split at found
  · cases found
  · next header parsed =>
    split at found
    · cases found
    · next long =>
      obtain ⟨rfl, -⟩ := closeMember_eq_ok found
      rw [if_neg long]

/-- Looks through a file, member after member. -/
def survey (input : Bytes) : Survey (List Member × Nat) :=
  let front := surveyMember input
  match found : front.result with
  | .error failure => ⟨front.output, .error failure⟩
  | .ok (member, rest) =>
    if magic.isPrefixOf rest then
      have : rest.length < input.length := length_lt_of_surveyMember found
      let others := survey rest
      ⟨front.output ++ others.output,
        others.result.map fun found => (member :: found.1, found.2)⟩
    else ⟨front.output, .ok ([member], rest.length)⟩
termination_by input.length

theorem survey_of_error {input : Bytes} {failure : Failure}
    (failed : (surveyMember input).result = .error failure) :
    survey input = ⟨(surveyMember input).output, .error failure⟩ := by
  rw [survey]
  split
  · next same =>
    cases failed.symm.trans same
    rfl
  · next same => cases failed.symm.trans same

theorem survey_of_ok {input rest : Bytes} {member : Member}
    (found : (surveyMember input).result = .ok (member, rest)) :
    survey input =
      if magic <+: rest then
        ⟨(surveyMember input).output ++ (survey rest).output,
          (survey rest).result.map fun found => (member :: found.1, found.2)⟩
      else ⟨(surveyMember input).output, .ok ([member], rest.length)⟩ := by
  rw [survey]
  split
  · next same => cases found.symm.trans same
  · next same =>
    cases found.symm.trans same
    simp only [List.isPrefixOf_iff_prefix]

/-- What a survey finds is at least one member. -/
theorem members_ne_nil_of_survey {input : Bytes} {members : List Member} {trailing : Nat}
    (found : (survey input).result = .ok (members, trailing)) : members ≠ [] := by
  cases front : (surveyMember input).result with
  | error failure =>
    rw [survey_of_error front] at found
    cases found
  | ok decoded =>
    rw [survey_of_ok front] at found
    split at found
    · cases others : (survey decoded.2).result with
      | error failure =>
        rw [others] at found
        cases found
      | ok rest =>
        rw [others] at found
        cases found
        exact List.cons_ne_nil _ _
    · cases found
      exact List.cons_ne_nil _ _

/-! ### Walks -/

/-- What a walk gives: the members, the count of bytes after them and the buffer. -/
def Walk.outcome (walked : Walk) : Except Failure (List Member × Nat × Buffer) :=
  match walked.ending with
  | .failed failure => .error failure
  | .done trailing buffer => .ok (walked.members, trailing, buffer)

/-- A walk decodes a member and, where another one begins, goes on. -/
theorem outcome_walk [Memory] (limit : Nat) (input : Bytes) (buffer : Buffer) :
    (walk limit input buffer).outcome = (do
      let (member, rest, filled) ← decodeMember limit input buffer
      if magic <+: rest then do
        let (members, trailing, last) ← (walk limit rest filled).outcome
        .ok (member :: members, trailing, last)
      else .ok ([member], rest.length, filled)) := by
  cases decoded : decodeMember limit input buffer with
  | error failure =>
    rw [walk_of_error decoded]
    rfl
  | ok result =>
    obtain ⟨member, rest, filled⟩ := result
    rw [walk_of_ok decoded]
    show _ = if magic <+: rest then _ else _
    by_cases more : magic <+: rest
    · rw [if_pos more, if_pos more]
      simp only [Walk.outcome]
      cases (walk limit rest filled).ending <;> rfl
    · rw [if_neg more, if_neg more]
      rfl

/-- The members of a file and its output as a whole, unless bytes follow that are not allowed. -/
def conclude (options : Options) (input : Bytes) (members : List Member) (trailing : Nat)
    (output : Bytes) : Except Failure Decoded :=
  if trailing ≠ 0 ∧ options.allowTrailing = false then .error (.trailingData trailing)
  else
    .ok { data := output, format := .gzip, checksum := (members.getLast?.map (·.checksum)).getD 0
          header := members.head?.map (·.header), consumed := input.length }

theorem decode_eq_conclude [Memory] (options : Options) (input : Bytes) :
    decode input options = (do
      let buffer ← Buffer.reserve (seedCapacity input.length options)
      let (members, trailing, filled) ← (walk options.limit input buffer).outcome
      conclude options input members trailing filled.bytes.toList) := by
  unfold decode attempt
  cases Buffer.reserve (seedCapacity input.length options) with
  | error failure => rfl
  | ok buffer =>
    show _ = (walk options.limit input buffer).outcome >>= fun walked => _
    unfold Walk.outcome
    cases ending : (walk options.limit input buffer).ending with
    | failed failure =>
      simp only [ending]
      rfl
    | done trailing filled =>
      simp only [ending, bind, Except.bind, conclude]
      by_cases none : trailing = 0
      · rw [if_pos none, if_neg fun some => some.1 none]
      · rw [if_neg none]
        cases options.allowTrailing <;> simp [none]

/-! ### Decoding -/

section Decoding

variable {limit : Nat} {buffer : Buffer}

/-- **One member** is decoded as it is found, or refused. -/
theorem decodeMember_survey [Memory] (limit : Nat) (sound : buffer.Sound) (input : Bytes) :
    Ends (decodeMember limit input buffer)
      (fun decoded => (surveyMember input).result = .ok (decoded.1, decoded.2.1) ∧
        decoded.2.2.Holds limit (buffer.bytes.toList ++ (surveyMember input).output))
      (fun failure => (surveyMember input).result = .error failure ∨
        Refusal limit (buffer.bytes.toList ++ (surveyMember input).output).length failure) := by
  unfold decodeMember surveyMember
  cases parsed : Header.parse input with
  | error failure => exact Or.inl rfl
  | ok header =>
    rw [bind_of_ok rfl]
    simp only
    by_cases few : input.length < minLength
    · rw [if_pos few, if_pos few]
      exact Or.inl rfl
    rw [if_neg few, if_neg few]
    simp only
    have delivered := decodeInto_spec .bare limit (input.drop header.length) sound
    have verdict : Frame.bare.verdict (input.drop header.length) =
        (inflate (input.drop header.length)).2 := rfl
    rw [verdict] at delivered
    cases decoded : decodeInto .bare limit (input.drop header.length) buffer with
    | error failure =>
      rw [decoded] at delivered
      rcases delivered.of_error with ⟨short, rfl⟩ | ⟨fault, rfl⟩ | refused
      · rw [short]
        exact Or.inl rfl
      · rw [fault]
        exact Or.inl rfl
      · exact Or.inr refused
    | ok stream =>
      obtain ⟨rest, filled⟩ := stream
      rw [decoded] at delivered
      obtain ⟨complete, holds⟩ := delivered.of_ok
      rw [complete, bind_of_ok rfl]
      simp only [closeMember, toList_extract_of_eq holds.contents]
      by_cases short : rest.length < trailerLength
      · rw [if_pos short, if_pos short]
        exact Or.inl rfl
      rw [if_neg short, if_neg short]
      cases checkTrailer (rest.take trailerLength) (inflate (input.drop header.length)).1 with
      | error failure => exact Or.inl rfl
      | ok checksum => exact ⟨rfl, holds⟩

/-- **All members** are decoded as they are found, or refused. -/
theorem walk_survey [Memory] (limit : Nat) {buffer : Buffer} (sound : buffer.Sound) (input : Bytes) :
    Ends (walk limit input buffer).outcome
      (fun walked => (survey input).result = .ok (walked.1, walked.2.1) ∧
        walked.2.2.Holds limit (buffer.bytes.toList ++ (survey input).output))
      (fun failure => (survey input).result = .error failure ∨
        Refusal limit (buffer.bytes.toList ++ (survey input).output).length failure) := by
  -- Each member takes at least one byte, so the induction is on the length of the input.
  have front := decodeMember_survey limit sound input
  rw [outcome_walk]
  cases decoded : decodeMember limit input buffer with
  | error failure =>
    rw [decoded] at front
    rcases front with found | refused
    · rw [survey_of_error found]
      exact Or.inl rfl
    · refine Or.inr (refused.mono ?_)
      cases found : (surveyMember input).result with
      | error other => rw [survey_of_error found]
      | ok result =>
        rw [survey_of_ok found]
        split <;> simp
  | ok result =>
    obtain ⟨member, rest, filled⟩ := result
    rw [decoded] at front
    obtain ⟨found, holds⟩ := front
    have fewer : rest.length < input.length := length_lt_of_decodeMember decoded
    rw [bind_of_ok rfl, survey_of_ok found]
    simp only
    by_cases more : magic <+: rest
    · rw [if_pos more, if_pos more]
      have others := walk_survey limit holds.sound rest
      rw [holds.contents, List.append_assoc] at others
      refine others.bind ?_ ?_
      · rintro failure (failed | refused)
        · rw [failed]
          exact Or.inl rfl
        · exact Or.inr refused
      · rintro ⟨members, trailing, last⟩ - ⟨ended, lastHolds⟩
        exact ⟨by rw [ended]; rfl, lastHolds⟩
    · rw [if_neg more, if_neg more]
      exact ⟨rfl, holds⟩
termination_by input.length

/-- The outcome that a survey of a file leads to. -/
def Survey.conclusion (found : Survey (List Member × Nat)) (options : Options) (input : Bytes) :
    Except Failure Decoded := do
  let (members, trailing) ← found.result
  conclude options input members trailing found.output

/-- **A file** is decoded as it is found, or refused. -/
theorem decode_survey {options : Options} (unset : options.initialCapacity = none)
    (input : Bytes) :
    decode input options = (survey input).conclusion options input ∨
      ∃ failure, decode input options = .error failure ∧
        Refusal options.limit (survey input).output.length failure := by
  obtain ⟨buffer, reserved, sound, empty⟩ := Buffer.sound_seed unset input.length
  have walked := walk_survey options.limit sound input
  rw [empty] at walked
  rw [decode_eq_conclude, bind_of_ok reserved]
  unfold Survey.conclusion
  cases outcome : (walk options.limit input buffer).outcome with
  | error failure =>
    rw [outcome] at walked
    rcases walked with found | refused
    · rw [found]
      exact Or.inl rfl
    · exact Or.inr ⟨failure, rfl, refused⟩
  | ok result =>
    rw [outcome] at walked
    obtain ⟨found, holds⟩ := walked
    left
    rw [found, bind_of_ok rfl, bind_of_ok rfl]
    simp only [holds.contents, List.nil_append]

end Decoding

end Gzip

end Inflate
