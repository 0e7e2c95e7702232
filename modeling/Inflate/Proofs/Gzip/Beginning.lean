/-
**The beginning of a gzip file.**

A file that is decoded as a whole is decoded member by member, and so is each beginning of it. The members
that are there as a whole are the same, whatever capacity the output starts with. Where they end, the
beginning may end, too, or go on; and if it ends within a member, it is truncated, wherever that is.

* `decodeMember_beginning`: a member at the front of a beginning;
* `onward`: what is done after a member;
* `onward_members`: members that are there as a whole;
* `walk_cut`: a member that is not.
-/

import Inflate.Proofs.Outcomes
import Inflate.Proofs.Output.Reservation

namespace Inflate

namespace Gzip

section Beginnings

variable {limit : Nat} {buffer other : Buffer}

/-! ### One member -/

/-- A file whose first member is cut: a part of the member, and what is cut off with what follows. -/
theorem Written.split_at (written : Written) (rest : Bytes) (n : Nat) :
    written.bytes ++ rest = written.bytes.take n ++ (written.bytes.drop n ++ rest) := by
  rw [← List.append_assoc, List.take_append_drop]

/-- Decoding a member in three steps: its header, its body and its trailer. -/
theorem decodeMember_eq (limit : Nat) (input : Bytes) (buffer : Buffer) :
    decodeMember limit input buffer = (do
      let header ← Header.parse input
      if input.length < minLength then .error .truncated else do
        let (rest, filled) ← decodeInto .bare limit (input.drop header.length) buffer
        let output := (filled.bytes.extract buffer.size filled.size).toList
        let (member, behind) ← closeMember header output (.complete rest)
        .ok (member, behind, filled)) := by
  unfold decodeMember
  congr 1
  funext header
  by_cases few : input.length < minLength
  · rw [if_pos few, if_pos few]
    rfl
  rw [if_neg few, if_neg few]
  show _ >>= _ = _ >>= _
  congr 1
  funext decoded
  by_cases less : decoded.1.length < trailerLength
  · simp only [closeMember, if_pos less]
    rfl
  simp only [closeMember, if_neg less]
  cases checkTrailer (decoded.1.take trailerLength)
    (decoded.2.bytes.extract buffer.size decoded.2.size).toList <;> rfl

/-- The trailer at the front of a beginning closes the same member, or is truncated. -/
theorem closeMember_beginning {header : Header} {output left more rest : Bytes} {member : Member}
    (closed : closeMember header output (.complete (left ++ more)) = .ok (member, rest)) :
    (∃ last, rest = last ++ more ∧ last.length ≤ left.length ∧
      closeMember header output (.complete left) = .ok (member, last)) ∨
    closeMember header output (.complete left) = .error .truncated := by
  obtain ⟨-, closed⟩ := ok_of_guard closed
  obtain ⟨checksum, checked, closed⟩ := ok_of_bind closed
  cases closed
  by_cases less : left.length < trailerLength
  · exact Or.inr (if_pos less)
  have enough := Nat.not_lt.mp less
  rw [List.take_append_of_le_length enough] at checked
  refine Or.inl ⟨left.drop trailerLength, List.drop_append_of_le_length enough, ?_, ?_⟩
  · exact (List.drop_suffix _ _).length_le
  · refine (guard_of_not less _ _).trans ?_
    rw [bind_of_ok checked]
    rfl

/-- **A member at the front of a beginning** is the same, with less behind it, or is truncated. -/
theorem decodeMember_beginning {input more rest : Bytes} {member : Member} {filled : Buffer}
    (alike : Interchangeable input.length buffer other)
    (decoded : decodeMember limit (input ++ more) buffer = .ok (member, rest, filled)) :
    (∃ left otherFilled, rest = left ++ more ∧
      decodeMember limit input other = .ok (member, left, otherFilled) ∧
        Interchangeable left.length filled otherFilled) ∨
    decodeMember limit input other = .error .truncated := by
  rw [decodeMember_eq] at decoded ⊢
  obtain ⟨header, parsed, decoded⟩ := ok_of_bind decoded
  rcases Header.foretells_parse input more with short | same
  · rw [short]
    exact Or.inr rfl
  rw [parsed] at same
  obtain ⟨wellFormed, begins⟩ := Header.wellFormed_of_parse same.symm
  have within : header.length ≤ input.length := wellFormed.length ▸ begins.length_le
  rw [bind_of_ok same.symm]
  by_cases few : input.length < minLength
  · rw [if_pos few]
    exact Or.inr rfl
  have long : ¬(input ++ more).length < minLength := by
    rw [List.length_append]
    omega
  rw [if_neg few]
  rw [if_neg long, List.drop_append_of_le_length within] at decoded
  obtain ⟨⟨after, _⟩, filling, decoded⟩ := ok_of_bind decoded
  obtain ⟨⟨_, _⟩, closed, decoded⟩ := ok_of_bind decoded
  cases decoded
  have bodyAlike : Interchangeable (input.drop header.length).length buffer other :=
    alike.mono (List.drop_suffix _ _).length_le
  rcases decodeInto_beginning bodyAlike filling with
    ⟨left, otherFilled, rfl, found, filledAlike⟩ | short
  · rw [alike.size_eq, filledAlike.bytes, filledAlike.size_eq] at closed
    rw [bind_of_ok found]
    rcases closeMember_beginning closed with ⟨last, rfl, shorter, closes⟩ | short
    · left
      refine ⟨last, otherFilled, rfl, ?_, filledAlike.mono shorter⟩
      exact bind_of_ok closes _
    · right
      show closeMember _ _ _ >>= _ = _
      rw [short]
      rfl
  · rw [short]
    exact Or.inr rfl

/-- A member that is there as a whole is found by a decoding that succeeds, with what follows it. -/
theorem decodeMember_written {written : Written} (wellFormed : written.WellFormed)
    (sound : buffer.Sound) {rest behind : Bytes} {member : Member} {filled : Buffer}
    (decoded : decodeMember limit (written.bytes ++ rest) buffer = .ok (member, behind, filled)) :
    member = written.member ∧ behind = rest ∧
      filled.Holds limit (buffer.bytes.toList ++ written.output) := by
  have spec := decodeMember_spec limit wellFormed sound rest
  rw [decoded] at spec
  exact spec

/-- **A member that is not there as a whole** is truncated. -/
theorem decodeMember_cut {written : Written} (wellFormed : written.WellFormed) {n : Nat}
    (cut : n < written.bytes.length) {rest : Bytes}
    (alike : Interchangeable (written.bytes.take n).length buffer other)
    {result : Member × Bytes × Buffer}
    (decoded : decodeMember limit (written.bytes ++ rest) buffer = .ok result) :
    decodeMember limit (written.bytes.take n) other = .error .truncated := by
  obtain ⟨member, behind, filled⟩ := result
  obtain ⟨-, rfl, -⟩ := decodeMember_written wellFormed alike.sound decoded
  rw [written.split_at behind n] at decoded
  rcases decodeMember_beginning alike decoded with ⟨left, -, same, -, -⟩ | truncated
  · have counts := congrArg List.length same
    simp only [List.length_append, List.length_drop] at counts
    omega
  · exact truncated

/-- **A member that is there as a whole** is the same in a beginning. -/
theorem decodeMember_whole {written : Written} (wellFormed : written.WellFormed) {short more : Bytes}
    (alike : Interchangeable (written.bytes ++ short).length buffer other) {member : Member}
    {rest : Bytes} {filled : Buffer}
    (decoded : decodeMember limit (written.bytes ++ (short ++ more)) buffer =
      .ok (member, rest, filled)) :
    ∃ otherFilled, decodeMember limit (written.bytes ++ short) other =
        .ok (written.member, short, otherFilled) ∧
      Interchangeable short.length filled otherFilled ∧
      otherFilled.bytes.toList = other.bytes.toList ++ written.output := by
  obtain ⟨rfl, rfl, -⟩ := decodeMember_written wellFormed alike.sound decoded
  rw [← List.append_assoc] at decoded
  rcases decodeMember_beginning alike decoded with
    ⟨left, otherFilled, same, found, filledAlike⟩ | truncated
  · obtain rfl := List.append_cancel_right same
    obtain ⟨-, -, holds⟩ := decodeMember_written wellFormed alike.otherSound found
    exact ⟨otherFilled, found, filledAlike, holds.contents⟩
  · have spec := decodeMember_spec limit wellFormed alike.otherSound short
    rw [truncated] at spec
    cases spec

/-! ### Member after member -/

/-- What is done after a member: if another one begins, the walk goes on. Gives the members, the count
of bytes after them and the buffer. -/
def onward (limit : Nat) (input : Bytes) (buffer : Buffer) :
    Except Failure (List Member × Nat × Buffer) :=
  if magic <+: input then (walk limit input buffer).outcome else .ok ([], input.length, buffer)

/-- The outcome of a walk, with members in front of it. -/
def behind (members : List Written) (found : List Member × Nat × Buffer) :
    List Member × Nat × Buffer :=
  (members.map Written.member ++ found.1, found.2)

/-- A walk decodes a member and goes onward. -/
theorem outcome_walk_onward (limit : Nat) (input : Bytes) (buffer : Buffer) :
    (walk limit input buffer).outcome = (do
      let (member, rest, filled) ← decodeMember limit input buffer
      let (members, trailing, last) ← onward limit rest filled
      .ok (member :: members, trailing, last)) := by
  rw [outcome_walk]
  congr 1
  funext decoded
  unfold onward
  by_cases more : magic <+: decoded.2.1
  · simp only [if_pos more]
  · simp only [if_neg more]
    rfl

/-- Where a member begins, to go onward is to walk. -/
theorem onward_written {written : Written} (wellFormed : written.WellFormed) (rest : Bytes)
    (limit : Nat) (buffer : Buffer) :
    onward limit (written.bytes ++ rest) buffer =
      (walk limit (written.bytes ++ rest) buffer).outcome :=
  if_pos (wellFormed.begins rest)

/-- Where members begin, to go onward is to walk. -/
theorem onward_of_members {members : List Written} (nonempty : members ≠ [])
    (wellFormed : ∀ written ∈ members, written.WellFormed) (rest : Bytes) (limit : Nat)
    (buffer : Buffer) :
    onward limit (members.flatMap Written.bytes ++ rest) buffer =
      (walk limit (members.flatMap Written.bytes ++ rest) buffer).outcome := by
  obtain ⟨written, others, rfl⟩ := List.exists_cons_of_ne_nil nonempty
  rw [List.flatMap_cons, List.append_assoc]
  exact onward_written (wellFormed written List.mem_cons_self) _ _ _

/-- **Members that are there as a whole** are the same in a beginning, and what comes after them is
found in a buffer that does the same. -/
theorem onward_members {members : List Written}
    (wellFormed : ∀ written ∈ members, written.WellFormed) {short more : Bytes}
    (alike : Interchangeable (members.flatMap Written.bytes ++ short).length buffer other)
    {result : List Member × Nat × Buffer}
    (done : onward limit (members.flatMap Written.bytes ++ (short ++ more)) buffer = .ok result) :
    ∃ mid otherMid, Interchangeable short.length mid otherMid ∧
      (∃ left, onward limit (short ++ more) mid = .ok left) ∧
      otherMid.bytes.toList = other.bytes.toList ++ outputs members ∧
      onward limit (members.flatMap Written.bytes ++ short) other =
        (onward limit short otherMid).map (behind members) := by
  induction members generalizing buffer other result with
  | nil =>
    refine ⟨buffer, other, alike, ⟨result, done⟩, (List.append_nil _).symm, ?_⟩
    show onward limit short other = _
    cases onward limit short other <;> rfl
  | cons written members ih =>
    obtain ⟨frontWellFormed, othersWellFormed⟩ := List.forall_mem_cons.mp wellFormed
    rw [List.flatMap_cons, List.append_assoc] at alike done ⊢
    rw [onward_written frontWellFormed, outcome_walk_onward] at done ⊢
    obtain ⟨⟨member, rest, filled⟩, decoded, done⟩ := ok_of_bind done
    obtain ⟨left, done, -⟩ := ok_of_bind done
    have same := (decodeMember_written frontWellFormed alike.sound decoded).2.1
    subst same
    rw [← List.append_assoc (members.flatMap Written.bytes)] at decoded
    obtain ⟨otherFilled, found, filledAlike, contents⟩ :=
      decodeMember_whole frontWellFormed alike decoded
    obtain ⟨mid, otherMid, midAlike, after, midContents, outcome⟩ :=
      ih othersWellFormed filledAlike done
    refine ⟨mid, otherMid, midAlike, after, ?_, ?_⟩
    · rw [midContents, contents, List.append_assoc]
      rfl
    · rw [bind_of_ok found]
      show onward limit (members.flatMap Written.bytes ++ short) otherFilled >>= _ = _
      rw [outcome]
      cases onward limit short otherMid <;> rfl

/-- **A walk that begins with a member that is not there as a whole** is truncated. -/
theorem walk_cut {written : Written} (wellFormed : written.WellFormed) {n : Nat}
    (cut : n < written.bytes.length) {rest : Bytes}
    (alike : Interchangeable (written.bytes.take n).length buffer other)
    {result : List Member × Nat × Buffer}
    (done : (walk limit (written.bytes ++ rest) buffer).outcome = .ok result) :
    (walk limit (written.bytes.take n) other).outcome = .error .truncated := by
  rw [outcome_walk] at done ⊢
  obtain ⟨found, decoded, -⟩ := ok_of_bind done
  rw [decodeMember_cut wellFormed cut alike decoded]
  rfl

end Beginnings

/-! ### Files -/

section Files

variable {options : Options} {buffer : Buffer} {members : List Written}

/-- **A beginning with members that are there as a whole** is decoded as far as they go, and then goes
onward. -/
theorem decode_beginning (nonempty : members ≠ [])
    (wellFormed : ∀ written ∈ members, written.WellFormed) {short more : Bytes}
    (reserved : Buffer.reserve
      (seedCapacity (members.flatMap Written.bytes ++ (short ++ more)).length options) = .ok buffer)
    {result : List Member × Nat × Buffer}
    (done : (walk options.limit (members.flatMap Written.bytes ++ (short ++ more)) buffer).outcome =
      .ok result) :
    ∃ mid otherMid, Interchangeable short.length mid otherMid ∧
      (∃ left, onward options.limit (short ++ more) mid = .ok left) ∧
      otherMid.bytes.toList = outputs members ∧
      decode (members.flatMap Written.bytes ++ short) options = (do
        let (others, trailing, last) ← onward options.limit short otherMid
        conclude options (members.flatMap Written.bytes ++ short)
          (members.map Written.member ++ others) trailing last.bytes.toList) := by
  have begins (rest : Bytes) (buffer : Buffer) :=
    onward_of_members nonempty wellFormed rest options.limit buffer
  have fewer : (members.flatMap Written.bytes ++ short).length ≤
      (members.flatMap Written.bytes ++ (short ++ more)).length := by
    simp only [List.length_append]
    omega
  obtain ⟨other, otherReserved, alike⟩ := interchangeable_seed fewer reserved
  obtain ⟨-, empty⟩ := Buffer.sound_of_reserve otherReserved
  obtain ⟨mid, otherMid, midAlike, after, contents, outcome⟩ :=
    onward_members wellFormed alike ((begins _ _).trans done)
  refine ⟨mid, otherMid, midAlike, after, ?_, ?_⟩
  · rw [contents, empty, List.nil_append]
  · rw [decode_eq_conclude, bind_of_ok otherReserved, ← begins, outcome]
    cases onward options.limit short otherMid <;> rfl

/-- Where the members end and no other one begins, the file ends or other bytes follow. -/
theorem decode_members (nonempty : members ≠ [])
    (wellFormed : ∀ written ∈ members, written.WellFormed) {short more : Bytes}
    (last : ¬magic <+: short)
    (reserved : Buffer.reserve
      (seedCapacity (members.flatMap Written.bytes ++ (short ++ more)).length options) = .ok buffer)
    {result : List Member × Nat × Buffer}
    (done : (walk options.limit (members.flatMap Written.bytes ++ (short ++ more)) buffer).outcome =
      .ok result) :
    decode (members.flatMap Written.bytes ++ short) options =
      if short.length ≠ 0 ∧ options.allowTrailing = false then .error (.trailingData short.length)
      else .ok (summary (members.flatMap Written.bytes ++ short) members) := by
  obtain ⟨mid, otherMid, -, -, contents, outcome⟩ :=
    decode_beginning nonempty wellFormed reserved done
  have ends : onward options.limit short otherMid = .ok ([], short.length, otherMid) := if_neg last
  rw [outcome, bind_of_ok ends]
  simp only [List.append_nil, contents]
  exact conclude_members options _ members short.length

/-- Within a member, behind the two bytes that begin it, a file is truncated. -/
theorem decode_cut (nonempty : members ≠ [])
    (wellFormed : ∀ written ∈ members, written.WellFormed) {written : Written}
    (cutWellFormed : written.WellFormed) {n : Nat} (two : magic.length ≤ n)
    (cut : n < written.bytes.length) {rest : Bytes}
    (reserved : Buffer.reserve
      (seedCapacity (members.flatMap Written.bytes ++ (written.bytes ++ rest)).length options) =
        .ok buffer)
    {result : List Member × Nat × Buffer}
    (done : (walk options.limit (members.flatMap Written.bytes ++ (written.bytes ++ rest))
      buffer).outcome = .ok result) :
    decode (members.flatMap Written.bytes ++ written.bytes.take n) options =
      .error .truncated := by
  rw [written.split_at rest n] at reserved done
  obtain ⟨mid, otherMid, alike, ⟨left, after⟩, -, outcome⟩ :=
    decode_beginning nonempty wellFormed reserved done
  rw [← written.split_at rest n, onward_written cutWellFormed] at after
  have begins : magic <+: written.bytes.take n := by
    have whole := cutWellFormed.begins []
    rw [List.append_nil] at whole
    exact List.prefix_take_iff.mpr ⟨whole, two⟩
  have truncated : onward options.limit (written.bytes.take n) otherMid = .error .truncated :=
    (if_pos begins).trans (walk_cut cutWellFormed cut alike after)
  rw [outcome, truncated]
  rfl

end Files

/-! ### A member of one letter -/

/-- One stored byte, written as a member. -/
def letter : Written where
  head := [0x1f, 0x8b, 8, 0, 0, 0, 0, 0, 0, 0xff]
  body := [1, 1, 0, 0xfe, 0xff, 0x61]
  header := ⟨8, 0, 0, 0, 0xff, none, none, none, 10⟩
  output := [0x61]

theorem wellFormed_letter : letter.WellFormed := ⟨by cbv, rfl, by cbv⟩

theorem bytes_letter : letter.bytes = [0x1f, 0x8b, 8, 0, 0, 0, 0, 0, 0, 0xff, 1, 1, 0, 0xfe, 0xff, 0x61,
    0x43, 0xbe, 0xb7, 0xe8, 1, 0, 0, 0] := by decide +kernel

end Gzip

end Inflate
