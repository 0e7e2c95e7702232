/-
**Gzip files one after the other.**

A file that is accepted without allowing for trailing bytes is nothing but its members. Behind it a
survey begins anew: every member has a window of its own, so neither what was decoded before nor how
much of it there was shows in what comes after, also where a member refers back to before its start.

* `surveyMember_withTrailer`: a member is found as it was written, whatever follows it, and its
  trailer is judged;
* `surveyMember_written`: as it was written, with the trailer that it was given;
* `survey_append`: the survey of some members and of what follows them;
* `decode_append`: two files one after the other.
-/

import Inflate.Proofs.Gzip.Survey

namespace Inflate

namespace Gzip

open Deflate (inflate)

/-- A member with any trailer is found as it was written, and the trailer is judged. -/
theorem surveyMember_withTrailer {written : Written} (wellFormed : written.WellFormed)
    {trailer : Bytes} (eight : trailer.length = trailerLength) (rest : Bytes) :
    surveyMember (written.withTrailer trailer ++ rest) =
      ⟨written.output, (checkTrailer trailer written.output).map fun checksum =>
        (⟨written.header, written.output.length, checksum⟩, rest)⟩ := by
  have long : ¬(written.head ++ (written.body ++ (trailer ++ rest))).length < minLength := by
    have least := wellFormed.minLength_le
    simp only [Written.bytes, List.length_append, length_trailerOf, eight] at least ⊢
    omega
  unfold surveyMember
  rw [Written.withTrailer_append, Header.parse_append wellFormed.header]
  simp only [if_neg long, wellFormed.whole, List.drop_left, Deflate.inflate_append wellFormed.body,
    List.nil_append, closeMember_eq written.header written.output eight]

/-- **A member is found as it was written**, whatever follows it. -/
theorem surveyMember_written {written : Written} (wellFormed : written.WellFormed) (rest : Bytes) :
    surveyMember (written.bytes ++ rest) = ⟨written.output, .ok (written.member, rest)⟩ := by
  have length := length_trailerOf written.output
  rw [← written.withTrailer_trailerOf, surveyMember_withTrailer wellFormed length,
    (checkTrailer_eq_ok_iff length written.output _).mpr ⟨rfl, rfl⟩]
  rfl

/-- A member on its own is accepted, if its output is small. -/
theorem accepts_written {written : Written} (wellFormed : written.WellFormed)
    (small : written.output.length < exhausting) :
    decode written.bytes {} = .ok (summary written.bytes [written]) := by
  have output : outputs [written] = written.output := List.flatMap_singleton ..
  have ends : ¬magic <+: [] := by decide
  have file : Members written.bytes [written] [] := by
    have single := Members.single wellFormed ends
    rwa [List.append_nil] at single
  have unset : ({} : Options).initialCapacity = none := rfl
  have yields := yields_of_members unset file (Or.inl rfl) (permits_default _)
  rw [output] at yields
  exact yields.eq small

/-- What a survey finds behind some members. -/
def Survey.after (members : List Written) (found : Survey (List Member × Nat)) :
    Survey (List Member × Nat) :=
  ⟨outputs members ++ found.output,
    found.result.map fun rest => (members.map Written.member ++ rest.1, rest.2)⟩

/-- **The survey of some members and of what follows them.** -/
theorem survey_append {members : List Written}
    (wellFormed : ∀ written ∈ members, written.WellFormed) {rest : Bytes} (begins : magic <+: rest) :
    survey (members.flatMap Written.bytes ++ rest) = (survey rest).after members := by
  induction members with
  | nil =>
    show survey rest = ⟨(survey rest).output, (survey rest).result.map fun found => found⟩
    cases survey rest with
    | mk output result => cases result <;> rfl
  | cons written members ih =>
    obtain ⟨frontWellFormed, othersWellFormed⟩ := List.forall_mem_cons.mp wellFormed
    have more := begins_members othersWellFormed begins
    have front := surveyMember_written frontWellFormed (members.flatMap Written.bytes ++ rest)
    rw [List.flatMap_cons, List.append_assoc, survey_of_ok (congrArg Survey.result front), front,
      if_pos more, ih othersWellFormed]
    unfold Survey.after
    cases (survey rest).result with
    | error failure => simp only [outputs, List.flatMap_cons, List.append_assoc, Except.map]
    | ok found =>
      simp only [outputs, List.flatMap_cons, List.append_assoc, Except.map, List.map_cons,
        List.cons_append]

/-- What comes of two files one after the other, by what comes of each. -/
def joined (size : Nat) (first : Decoded) : Except Failure Decoded → Except Failure Decoded
  | .error failure => .error failure
  | .ok second =>
    .ok { data := first.data ++ second.data, format := .gzip, checksum := second.checksum
          header := first.header, consumed := size }

theorem conclusion_after {members : List Written} (nonempty : members ≠ []) (front rest : Bytes) :
    ((survey rest).after members).conclusion {} (front ++ rest) =
      joined (front.length + rest.length) (summary front members)
        ((survey rest).conclusion {} rest) := by
  unfold Survey.conclusion Survey.after
  cases found : (survey rest).result with
  | error failure => rfl
  | ok result =>
    obtain ⟨others, trailing⟩ := result
    have last : (members.map Written.member ++ others).getLast? = others.getLast? :=
      List.getLast?_append_of_ne_nil _ (members_ne_nil_of_survey found)
    have head : (members.map Written.member ++ others).head?.map (·.header) =
        members.head?.map (·.header) := by
      obtain ⟨written, members, rfl⟩ := List.exists_cons_of_ne_nil nonempty
      rfl
    rw [Except.map, bind_of_ok rfl, bind_of_ok rfl]
    unfold conclude
    simp only [last, head, List.length_append]
    split
    · rfl
    · rfl

/-- **Two gzip files one after the other.** Behind a file that is accepted with the usual options:

* what is decoded is what is decoded of the second file on its own, with the same failure or behind
  the output of the first file, unless an output of `exhausting` bytes or more has taken all memory;
* a member adds what raw inflation of its body gives, whatever the buffer holds before it. -/
theorem decode_append {first : Bytes} {decoded : Decoded} (accepted : decode first {} = .ok decoded)
    {second : Bytes} (begins : magic <+: second) :
    (decode (first ++ second) {} =
        joined (first.length + second.length) decoded (decode second {}) ∨
      exhausting ≤ decoded.data.length + (survey second).output.length ∧
        ∃ asked, decode second {} = .error (.allocation asked) ∨
          decode (first ++ second) {} = .error (.allocation asked)) ∧
    ∀ limit (buffer filled : Buffer) input member rest, buffer.Sound →
      decodeMember limit input buffer = .ok (member, rest, filled) →
        filled.bytes.toList =
          buffer.bytes.toList ++ (inflate (input.drop member.header.length)).1 := by
  constructor
  · obtain ⟨members, tail, file, rfl⟩ := isFile_of_decode rfl accepted
    have nothing : tail = [] := by
      rcases file.tail with nothing | ⟨allowed, -⟩
      · exact nothing
      · cases allowed
    -- So the file is its members and no more, and behind them the survey begins anew.
    have whole := file.split
    rw [nothing, List.append_nil] at whole
    have found := survey_append file.wellFormed begins
    rw [← whole] at found
    have size : (survey (first ++ second)).output.length =
        (outputs members).length + (survey second).output.length := by
      rw [found]
      exact List.length_append
    have unset : ({} : Options).initialCapacity = none := rfl
    rcases decode_survey unset second with same | ⟨failure, failed, refused⟩
    · rcases decode_survey unset (first ++ second) with both | ⟨failure, failed, refused⟩
      · left
        rw [both, found, same]
        exact conclusion_after file.nonempty first second
      · obtain ⟨large, asked, rfl⟩ := refused.exhausts (permits_default _)
        exact Or.inr ⟨size ▸ large, asked, Or.inr failed⟩
    · obtain ⟨large, asked, rfl⟩ := refused.exhausts (permits_default _)
      exact Or.inr ⟨Nat.le_add_left_of_le large, asked, Or.inl failed⟩
  · intro limit buffer filled input member rest sound taken
    have spec := decodeMember_survey limit sound input
    rw [taken] at spec
    obtain ⟨found, holds⟩ := spec
    rw [holds.contents, output_surveyMember found]

set_option maxRecDepth 20000 in
/-- A block that copies three bytes from before the start of the output. -/
theorem inflate_copy : inflate [3, 2, 0] = ([0, 0, 0], .complete []) := by cbv

/-- A letter, and behind it a member that copies three bytes from before its own start: they are
zeros. -/
theorem decode_append_beforeStart :
    (∃ decoded, decode ([0x1f, 0x8b, 8, 0, 0, 0, 0, 0, 0, 0xff] ++ [1, 1, 0, 0xfe, 0xff, 0x61] ++
        [0x43, 0xbe, 0xb7, 0xe8, 1, 0, 0, 0]) {} = .ok decoded) ∧
      magic <+: ([0x1f, 0x8b, 8, 0, 0, 0, 0, 0, 0, 0xff] ++ [3, 2, 0] ++
        [0x12, 0xd9, 0x41, 0xff, 3, 0, 0, 0] : Bytes) ∧
      decode (([0x1f, 0x8b, 8, 0, 0, 0, 0, 0, 0, 0xff] ++ [1, 1, 0, 0xfe, 0xff, 0x61] ++
          [0x43, 0xbe, 0xb7, 0xe8, 1, 0, 0, 0]) ++
        ([0x1f, 0x8b, 8, 0, 0, 0, 0, 0, 0, 0xff] ++ [3, 2, 0] ++
          [0x12, 0xd9, 0x41, 0xff, 3, 0, 0, 0])) {} =
        .ok { data := [0x61, 0, 0, 0], format := .gzip, checksum := 0xff41d912
              header := some ⟨8, 0, 0, 0, 0xff, none, none, none, 10⟩, consumed := 45 } ∧
      ∃ buffer filled member rest, buffer.Sound ∧
        decodeMember maxSize ([0x1f, 0x8b, 8, 0, 0, 0, 0, 0, 0, 0xff] ++ [3, 2, 0] ++
          [0x12, 0xd9, 0x41, 0xff, 3, 0, 0, 0]) buffer = .ok (member, rest, filled) ∧
        buffer.bytes = #[0x61] ∧ filled.bytes.toList = [0x61, 0, 0, 0] := by
  obtain ⟨letter, isLetter⟩ : ∃ letter : Written,
    letter = ⟨[0x1f, 0x8b, 8, 0, 0, 0, 0, 0, 0, 0xff], [1, 1, 0, 0xfe, 0xff, 0x61],
      ⟨8, 0, 0, 0, 0xff, none, none, none, 10⟩, [0x61]⟩ := ⟨_, rfl⟩
  obtain ⟨copy, isCopy⟩ : ∃ copy : Written,
    copy = ⟨[0x1f, 0x8b, 8, 0, 0, 0, 0, 0, 0, 0xff], [3, 2, 0],
      ⟨8, 0, 0, 0, 0xff, none, none, none, 10⟩, [0, 0, 0]⟩ := ⟨_, rfl⟩
  have letterWellFormed : letter.WellFormed := by
    rw [isLetter]
    exact ⟨by cbv, rfl, by cbv⟩
  have copyWellFormed : copy.WellFormed := by
    rw [isCopy]
    exact ⟨by cbv, rfl, inflate_copy⟩
  have letterBytes : [0x1f, 0x8b, 8, 0, 0, 0, 0, 0, 0, 0xff] ++ [1, 1, 0, 0xfe, 0xff, 0x61] ++
      [0x43, 0xbe, 0xb7, 0xe8, 1, 0, 0, 0] = letter.bytes := by
    rw [isLetter]
    decide +kernel
  have copyBytes : [0x1f, 0x8b, 8, 0, 0, 0, 0, 0, 0, 0xff] ++ [3, 2, 0] ++
      [0x12, 0xd9, 0x41, 0xff, 3, 0, 0, 0] = copy.bytes := by
    rw [isCopy]
    decide +kernel
  rw [letterBytes, copyBytes]
  have letterIs := accepts_written letterWellFormed (by rw [isLetter]; decide)
  have copyIs := accepts_written copyWellFormed (by rw [isCopy]; decide)
  have begins : magic <+: copy.bytes := by
    rw [← copyBytes]
    decide
  obtain ⟨files, contents⟩ := decode_append letterIs begins
  refine ⟨⟨_, letterIs⟩, begins, ?_, ?_⟩
  · have found := surveyMember_written copyWellFormed []
    rw [List.append_nil] at found
    have surveyed : (survey copy.bytes).output = copy.output := by
      rw [survey_of_ok (congrArg Survey.result found), if_neg (by decide), found]
    rcases files with together | ⟨large, -⟩
    · rw [together, copyIs, ← letterBytes, ← copyBytes, isLetter, isCopy]
      decide +kernel
    · rw [surveyed, isLetter, isCopy] at large
      exact absurd large (by decide)
  · obtain ⟨buffer, isBuffer⟩ : ∃ buffer : Buffer, buffer = ⟨#[0x61], 1⟩ := ⟨_, rfl⟩
    have sound : buffer.Sound := by
      rw [isBuffer]
      exact ⟨by decide, by decide⟩
    have decoding := decodeMember_spec maxSize copyWellFormed sound []
    rw [List.append_nil] at decoding
    cases decoded : decodeMember maxSize copy.bytes buffer with
    | error failure =>
      rw [decoded, isBuffer, isCopy] at decoding
      obtain ⟨large, -⟩ := Refusal.exhausts decoding (permits_default _)
      exact absurd large (by decide)
    | ok result =>
      obtain ⟨member, rest, filled⟩ := result
      rw [decoded] at decoding
      obtain ⟨rfl, -, -⟩ := decoding
      refine ⟨buffer, filled, _, rest, sound, decoded, by rw [isBuffer], ?_⟩
      have body := copyWellFormed.inflate []
      rw [List.append_nil] at body
      have header : copy.member.header = copy.header := rfl
      rw [contents _ _ _ _ _ _ sound decoded, header, body, isBuffer, isCopy]
      rfl

end Gzip

end Inflate
