/-
**The grammar of gzip files.**

A file is accepted exactly if it is a sequence of members, each with the checksum and the size of its
own output, and whatever may follow them. The members of a file are found one after another, and no
file can be read as two different sequences of them.

* `Written`: a member as it is written, with what it holds;
* `IsFile`: a file, by its members and the bytes after them;
* `decodeMember_spec`, `walk_spec`: what is decoded of one member, and of all of them;
* `decode_grammar`: the files that are accepted, and with which result.
-/

import Mathlib
import Inflate.Gzip.Members
import Inflate.Proofs.Deflate.StreamLength
import Inflate.Proofs.Gzip.HeaderText
import Inflate.Proofs.Output.Delivery

namespace Inflate

namespace Gzip

open Deflate (inflate)

/-! ### Members -/

/-- The trailer of a member, by its output. -/
def trailerOf (output : Bytes) : Bytes :=
  Bytes.ofLittleEndian 4 (crc32 output).toNat ++ Bytes.ofLittleEndian 4 (output.length % 2 ^ 32)

@[simp] theorem length_trailerOf (output : Bytes) : (trailerOf output).length = trailerLength := by
  simp [trailerOf, trailerLength]

theorem take_trailerOf (output : Bytes) :
    (trailerOf output).take 4 = Bytes.ofLittleEndian 4 (crc32 output).toNat := by
  rw [trailerOf, List.take_left' (Bytes.length_ofLittleEndian 4 _)]

theorem drop_trailerOf (output : Bytes) :
    (trailerOf output).drop 4 = Bytes.ofLittleEndian 4 (UInt32.ofNat output.length).toNat := by
  rw [trailerOf, List.drop_left' (Bytes.length_ofLittleEndian 4 _), UInt32.toNat_ofNat']

/-- A member as it is written: the bytes of its header and of its body, and what they hold. -/
structure Written where
  head : Bytes
  body : Bytes
  header : Header
  output : Bytes

namespace Written

/-- The bytes of a member. -/
def bytes (written : Written) : Bytes :=
  written.head ++ written.body ++ trailerOf written.output

/-- The header is accepted and takes all its bytes, and the body is a complete stream. -/
structure WellFormed (written : Written) : Prop where
  header : Header.parse written.head = .ok written.header
  whole : written.header.length = written.head.length
  body : inflate written.body = (written.output, .complete [])

/-- The member that is decoded. -/
def member (written : Written) : Member :=
  ⟨written.header, written.output.length, crc32 written.output⟩

/-- The bytes of a member, with other bytes in place of its trailer. -/
def withTrailer (written : Written) (trailer : Bytes) : Bytes :=
  written.head ++ written.body ++ trailer

theorem withTrailer_trailerOf (written : Written) :
    written.withTrailer (trailerOf written.output) = written.bytes := rfl

theorem withTrailer_append (written : Written) (trailer rest : Bytes) :
    written.withTrailer trailer ++ rest = written.head ++ (written.body ++ (trailer ++ rest)) := by
  simp only [withTrailer, List.append_assoc]

theorem bytes_append (written : Written) (rest : Bytes) :
    written.bytes ++ rest =
      written.head ++ (written.body ++ (trailerOf written.output ++ rest)) :=
  written.withTrailer_append (trailerOf written.output) rest

variable {written : Written}

theorem WellFormed.magic_prefix (wellFormed : written.WellFormed) : magic <+: written.head := by
  obtain ⟨_, begins⟩ := Header.wellFormed_of_parse wellFormed.header
  have front : magic <+: written.header.encode := by
    rw [Header.encode_eq, Header.encodeCovered]
    simp only [List.append_assoc]
    exact List.prefix_append _ _
  exact front.trans begins

theorem WellFormed.begins_withTrailer (wellFormed : written.WellFormed) (trailer rest : Bytes) :
    magic <+: written.withTrailer trailer ++ rest := by
  rw [withTrailer_append]
  exact wellFormed.magic_prefix.trans (List.prefix_append _ _)

theorem WellFormed.begins (wellFormed : written.WellFormed) (rest : Bytes) :
    magic <+: written.bytes ++ rest :=
  wellFormed.begins_withTrailer (trailerOf written.output) rest

theorem WellFormed.parse (wellFormed : written.WellFormed) (rest : Bytes) :
    Header.parse (written.bytes ++ rest) = .ok written.header := by
  rw [bytes_append]
  exact Header.parse_append wellFormed.header _

theorem WellFormed.inflate (wellFormed : written.WellFormed) (rest : Bytes) :
    Deflate.inflate ((written.bytes ++ rest).drop written.header.length) =
      (written.output, .complete (trailerOf written.output ++ rest)) := by
  rw [bytes_append, wellFormed.whole, List.drop_left]
  exact Deflate.inflate_append wellFormed.body _

/-- **A member is never too short** for the least size. -/
theorem WellFormed.minLength_le (wellFormed : written.WellFormed) :
    minLength ≤ written.bytes.length := by
  have two := Deflate.two_le_length_of_inflate wellFormed.body
  obtain ⟨_, begins⟩ := Header.wellFormed_of_parse wellFormed.header
  have ten : 10 ≤ written.header.encode.length := by
    rw [Header.encode_eq, Header.encodeCovered, magic]
    simp only [List.length_append, List.length_cons, List.length_nil, Bytes.length_ofLittleEndian]
    omega
  have head := begins.length_le
  simp only [bytes, List.length_append, length_trailerOf, trailerLength, minLength]
  omega

/-- **A member is found in only one way**, whatever follows it. -/
theorem WellFormed.unique {other : Written} (wellFormed : written.WellFormed)
    (otherWellFormed : other.WellFormed) {rest otherRest : Bytes}
    (same : written.bytes ++ rest = other.bytes ++ otherRest) :
    written = other ∧ rest = otherRest := by
  have parsed := wellFormed.parse rest
  rw [same, otherWellFormed.parse otherRest, Except.ok.injEq] at parsed
  have inflated := wellFormed.inflate rest
  rw [same, ← parsed, otherWellFormed.inflate otherRest, Prod.mk.injEq,
    Deflate.Halt.complete.injEq] at inflated
  obtain ⟨outputs, left⟩ := inflated
  rw [outputs] at left
  have rests : rest = otherRest := (List.append_cancel_left left).symm
  have heads : written.head.length = other.head.length := by
    rw [← wellFormed.whole, ← otherWellFormed.whole, parsed]
  rw [bytes_append, bytes_append, outputs, rests] at same
  obtain ⟨head, same⟩ := List.append_inj same heads
  have body := List.append_cancel_right same
  obtain ⟨_, _, _, _⟩ := written
  obtain ⟨_, _, _, _⟩ := other
  simp only at head body parsed outputs
  rw [head, body, parsed, outputs]
  exact ⟨rfl, rests⟩

end Written

/-- Where members are followed by one that begins, one begins. -/
theorem begins_members {members : List Written}
    (wellFormed : ∀ written ∈ members, written.WellFormed) {rest : Bytes} (begins : magic <+: rest) :
    magic <+: members.flatMap Written.bytes ++ rest := by
  cases members with
  | nil => exact begins
  | cons other members =>
    rw [List.flatMap_cons, List.append_assoc]
    exact (wellFormed other List.mem_cons_self).begins _

/-! ### One member -/

/-- The trailers that are accepted after an output. -/
theorem checkTrailer_eq_ok_iff {trailer : Bytes} (eight : trailer.length = trailerLength)
    (output : Bytes) (checksum : UInt32) :
    checkTrailer trailer output = .ok checksum ↔
      checksum = crc32 output ∧ trailer = trailerOf output := by
  have front : (trailer.take 4).length = 4 := by
    rw [List.length_take, eight]
    rfl
  have back : (trailer.drop 4).length = 4 := by
    rw [List.length_drop, eight]
    rfl
  simp only [checkTrailer]
  constructor
  · intro passed
    by_cases checksums : UInt32.ofNat (Bytes.littleEndian (trailer.take 4)) ≠ crc32 output
    · rw [if_pos checksums] at passed
      cases passed
    rw [if_neg checksums] at passed
    by_cases sizes : UInt32.ofNat (Bytes.littleEndian (trailer.drop 4)) ≠ UInt32.ofNat output.length
    · rw [if_pos sizes] at passed
      cases passed
    rw [if_neg sizes] at passed
    cases passed
    refine ⟨rfl, ?_⟩
    rw [← List.take_append_drop 4 (trailerOf output), take_trailerOf, drop_trailerOf,
      ← Decidable.not_not.mp sizes, ← Decidable.not_not.mp checksums,
      Header.ofLittleEndian_ofNat front (by decide),
      Header.ofLittleEndian_ofNat back (by decide), List.take_append_drop]
  · rintro ⟨rfl, rfl⟩
    rw [take_trailerOf, drop_trailerOf, Header.ofNat_littleEndian (crc32 output).toNat_lt,
      Header.ofNat_littleEndian (UInt32.ofNat output.length).toNat_lt,
      if_neg (not_not_intro rfl), if_neg (not_not_intro rfl)]

section Decoding

variable {limit : Nat} {buffer : Buffer}

/-- The part of a buffer that was filled last is what was added to it. -/
theorem toList_extract_of_eq {filled : Buffer} {output : Bytes}
    (added : filled.bytes.toList = buffer.bytes.toList ++ output) :
    (filled.bytes.extract buffer.size filled.size).toList = output := by
  have whole := congrArg List.length added
  simp only [Array.toList_extract, List.extract_eq_take_drop, added, Buffer.size]
  rw [List.drop_left' (by simp), List.take_of_length_le]
  simp only [List.length_append, Array.length_toList] at whole
  omega

/-- A member that is decoded has been written, and its output is delivered. -/
theorem written_of_decodeMember (sound : buffer.Sound) {input rest : Bytes} {member : Member}
    {filled : Buffer} (decoded : decodeMember limit input buffer = .ok (member, rest, filled)) :
    ∃ written : Written, written.WellFormed ∧ input = written.bytes ++ rest ∧
      member = written.member ∧ filled.Holds limit (buffer.bytes.toList ++ written.output) := by
  unfold decodeMember at decoded
  obtain ⟨header, parsed, decoded⟩ := ok_of_bind decoded
  obtain ⟨_, decoded⟩ := ok_of_guard decoded
  obtain ⟨⟨after, _⟩, filling, decoded⟩ := ok_of_bind decoded
  obtain ⟨enough, decoded⟩ := ok_of_guard decoded
  obtain ⟨checksum, checked, decoded⟩ := ok_of_bind decoded
  cases decoded
  have delivered := decodeInto_spec .bare limit (input.drop header.length) sound
  rw [filling] at delivered
  obtain ⟨complete, holds⟩ := delivered.of_ok
  have stops : (inflate (input.drop header.length)).2 = .complete after := complete
  obtain ⟨body, split⟩ := Deflate.suffix_of_inflate stops
  obtain ⟨head, inputSplit, headLength, headParsed⟩ := Header.split_of_parse parsed
  have eight : (after.take trailerLength).length = trailerLength := by
    rw [List.length_take]
    omega
  rw [toList_extract_of_eq holds.contents] at checked ⊢
  obtain ⟨rfl, trailer⟩ := (checkTrailer_eq_ok_iff eight _ _).mp checked
  refine ⟨⟨head, body, header, (inflate (input.drop header.length)).1⟩,
    ⟨headParsed, headLength.symm, ?_⟩, ?_, rfl, holds⟩
  · have whole : inflate (body ++ after) =
        ((inflate (input.drop header.length)).1, .complete after) := by
      rw [split]
      exact Prod.ext rfl stops
    exact Deflate.inflate_complete_of_append whole
  · rw [Written.bytes_append, ← trailer, List.take_append_drop, split]
    exact inputSplit

/-- **A member that is written** is decoded and delivered, or is refused. -/
theorem decodeMember_spec (limit : Nat) {written : Written} (wellFormed : written.WellFormed)
    (sound : buffer.Sound) (rest : Bytes) :
    Ends (decodeMember limit (written.bytes ++ rest) buffer)
      (fun decoded => decoded.1 = written.member ∧ decoded.2.1 = rest ∧
        decoded.2.2.Holds limit (buffer.bytes.toList ++ written.output))
      (Refusal limit (buffer.bytes.toList ++ written.output).length) := by
  have long : ¬(written.bytes ++ rest).length < minLength := by
    have least := wellFormed.minLength_le
    rw [List.length_append]
    omega
  have inflated := wellFormed.inflate rest
  have delivered := decodeInto_spec .bare limit
    ((written.bytes ++ rest).drop written.header.length) sound
  rw [Frame.verdict, inflated] at delivered
  unfold decodeMember
  rw [bind_of_ok (wellFormed.parse rest)]
  simp only [if_neg long]
  refine delivered.ends.bind (fun failure refused => refused) ?_
  rintro ⟨after, filled⟩ - ⟨rfl, holds⟩
  have length := length_trailerOf written.output
  have enough : ¬(trailerOf written.output ++ rest).length < trailerLength := by
    rw [List.length_append, length]
    omega
  have trailer : (trailerOf written.output ++ rest).take trailerLength =
      trailerOf written.output := List.take_left' length
  have left : (trailerOf written.output ++ rest).drop trailerLength = rest :=
    List.drop_left' length
  have checked := (checkTrailer_eq_ok_iff length written.output _).mpr ⟨rfl, rfl⟩
  simp only [bind, Except.bind, if_neg enough, toList_extract_of_eq holds.contents, trailer,
    checked, left]
  exact ⟨rfl, rfl, holds⟩

/-! ### Member after member -/

theorem walk_of_error [Memory] {input : Bytes} {failure : Failure}
    (failed : decodeMember limit input buffer = .error failure) :
    walk limit input buffer = ⟨[], .failed failure⟩ := by
  rw [walk]
  split
  · next same =>
    cases failed.symm.trans same
    rfl
  · next same => cases failed.symm.trans same

theorem walk_of_ok [Memory] {input rest : Bytes} {member : Member} {filled : Buffer}
    (decoded : decodeMember limit input buffer = .ok (member, rest, filled)) :
    walk limit input buffer =
      if magic <+: rest then
        ⟨member :: (walk limit rest filled).members, (walk limit rest filled).ending⟩
      else ⟨[member], .done rest.length filled⟩ := by
  rw [walk]
  split
  · next same => cases decoded.symm.trans same
  · next same =>
    cases decoded.symm.trans same
    simp only [List.isPrefixOf_iff_prefix]

/-- The members in front of some bytes that do not begin another one. -/
structure Members (input : Bytes) (members : List Written) (tail : Bytes) : Prop where
  nonempty : members ≠ []
  wellFormed : ∀ written ∈ members, written.WellFormed
  split : input = members.flatMap Written.bytes ++ tail
  last : ¬magic <+: tail

/-- The output of all members. -/
def outputs (members : List Written) : Bytes := members.flatMap (·.output)

theorem Members.single {written : Written} (wellFormed : written.WellFormed) {tail : Bytes}
    (last : ¬magic <+: tail) : Members (written.bytes ++ tail) [written] tail where
  nonempty := List.cons_ne_nil _ _
  wellFormed := fun other among => by
    rw [List.mem_singleton.mp among]
    exact wellFormed
  split := by rw [List.flatMap_singleton]
  last := last

theorem Members.cons {written : Written} (wellFormed : written.WellFormed) {input tail : Bytes}
    {members : List Written} (others : Members input members tail) :
    Members (written.bytes ++ input) (written :: members) tail where
  nonempty := List.cons_ne_nil _ _
  wellFormed := List.forall_mem_cons.mpr ⟨wellFormed, others.wellFormed⟩
  split := by rw [List.flatMap_cons, List.append_assoc, ← others.split]
  last := others.last

/-- The members of a file are either one, or one and those of the rest of the file. -/
theorem Members.cases {input tail : Bytes} {written : Written} {members : List Written}
    (whole : Members input (written :: members) tail) :
    written.WellFormed ∧ ((members = [] ∧ input = written.bytes ++ tail) ∨
      ∃ rest, input = written.bytes ++ rest ∧ magic <+: rest ∧ Members rest members tail) := by
  obtain ⟨wellFormed, othersWellFormed⟩ := List.forall_mem_cons.mp whole.wellFormed
  refine ⟨wellFormed, ?_⟩
  have split := whole.split
  rw [List.flatMap_cons, List.append_assoc] at split
  cases members with
  | nil => exact Or.inl ⟨rfl, split⟩
  | cons other members =>
    have others : Members ((other :: members).flatMap Written.bytes ++ tail) (other :: members)
        tail := ⟨List.cons_ne_nil _ _, othersWellFormed, rfl, whole.last⟩
    refine Or.inr ⟨_, split, ?_, others⟩
    rw [List.flatMap_cons, List.append_assoc]
    exact (othersWellFormed other List.mem_cons_self).begins _

/-- **The members of a file are unique.** -/
theorem Members.unique {input tail otherTail : Bytes} {members others : List Written}
    (first : Members input members tail) (second : Members input others otherTail) :
    members = others ∧ tail = otherTail := by
  induction members generalizing input others with
  | nil => exact absurd rfl first.nonempty
  | cons written members ih =>
    cases others with
    | nil => exact absurd rfl second.nonempty
    | cons other others =>
      obtain ⟨wellFormed, rests⟩ := first.cases
      obtain ⟨otherWellFormed, otherRests⟩ := second.cases
      rcases rests with ⟨rfl, split⟩ | ⟨rest, split, more, left⟩ <;>
        rcases otherRests with ⟨rfl, otherSplit⟩ | ⟨otherRest, otherSplit, otherMore, otherLeft⟩ <;>
        obtain ⟨rfl, rfl⟩ := wellFormed.unique otherWellFormed (split.symm.trans otherSplit)
      · exact ⟨rfl, rfl⟩
      · exact absurd otherMore first.last
      · exact absurd more second.last
      · obtain ⟨rfl, rfl⟩ := ih left otherLeft
        exact ⟨rfl, rfl⟩

/-- **A walk that is done** has met the members of the file and delivered their output. -/
theorem members_of_walk {buffer : Buffer} (sound : buffer.Sound) {input : Bytes} {trailing : Nat}
    {filled : Buffer} (done : (walk limit input buffer).ending = .done trailing filled) :
    ∃ members tail, Members input members tail ∧ trailing = tail.length ∧
      (walk limit input buffer).members = members.map Written.member ∧
      filled.Holds limit (buffer.bytes.toList ++ outputs members) := by
  cases decoded : decodeMember limit input buffer with
  | error failure =>
    rw [walk_of_error decoded] at done
    cases done
  | ok result =>
    obtain ⟨member, rest, between⟩ := result
    have fewer : rest.length < input.length := length_lt_of_decodeMember decoded
    obtain ⟨written, wellFormed, split, isMember, holds⟩ := written_of_decodeMember sound decoded
    rw [walk_of_ok decoded] at done ⊢
    by_cases more : magic <+: rest
    · rw [if_pos more] at done ⊢
      obtain ⟨members, tail, others, count, same, filledHolds⟩ :=
        members_of_walk holds.sound done
      refine ⟨written :: members, tail, split ▸ others.cons wellFormed, count, ?_, ?_⟩
      · rw [same, isMember, List.map_cons]
      · rw [holds.contents, List.append_assoc] at filledHolds
        exact filledHolds
    · rw [if_neg more] at done ⊢
      cases done
      refine ⟨[written], rest, split ▸ Members.single wellFormed more, rfl, ?_, ?_⟩
      · rw [isMember, List.map_cons, List.map_nil]
      · rw [outputs, List.flatMap_singleton]
        exact holds
termination_by input.length

/-- **A walk over the members of a file** fails only if their output is refused. -/
theorem refusal_of_walk (sound : buffer.Sound) {input tail : Bytes} {members : List Written}
    (file : Members input members tail) {failure : Failure}
    (failed : (walk limit input buffer).ending = .failed failure) :
    Refusal limit (buffer.bytes.toList ++ outputs members).length failure := by
  induction members generalizing input buffer with
  | nil => exact absurd rfl file.nonempty
  | cons written members ih =>
    obtain ⟨wellFormed, rests⟩ := file.cases
    obtain ⟨rest, split⟩ : ∃ rest, input = written.bytes ++ rest := by
      rcases rests with ⟨_, split⟩ | ⟨rest, split, _⟩
      · exact ⟨tail, split⟩
      · exact ⟨rest, split⟩
    have decoding := decodeMember_spec limit wellFormed sound rest
    rw [← split] at decoding
    have total : (buffer.bytes.toList ++ outputs (written :: members)).length =
        (buffer.bytes.toList ++ written.output).length + (outputs members).length := by
      simp only [outputs, List.flatMap_cons, List.length_append]
      omega
    cases decoded : decodeMember limit input buffer with
    | error cause =>
      rw [walk_of_error decoded] at failed
      cases failed
      rw [decoded] at decoding
      exact Refusal.mono decoding (by omega)
    | ok result =>
      obtain ⟨member, left, filled⟩ := result
      rw [decoded] at decoding
      obtain ⟨_, rfl, holds⟩ := decoding
      rw [walk_of_ok decoded] at failed
      rcases rests with ⟨_, otherSplit⟩ | ⟨otherRest, otherSplit, more, others⟩ <;>
        obtain rfl := List.append_cancel_left (split.symm.trans otherSplit)
      · rw [if_neg file.last] at failed
        cases failed
      · rw [if_pos more] at failed
        have refused := ih holds.sound others failed
        rw [holds.contents, List.length_append] at refused
        rwa [total]

end Decoding

/-! ### Files -/

/-- A file: one or more members, then nothing or, if that is allowed, bytes that do not begin another
member. The output of all members is within the limit. -/
structure IsFile (options : Options) (input : Bytes) (members : List Written) (tail : Bytes) :
    Prop where
  nonempty : members ≠ []
  wellFormed : ∀ written ∈ members, written.WellFormed
  split : input = members.flatMap Written.bytes ++ tail
  tail : tail = [] ∨ (options.allowTrailing = true ∧ ¬magic <+: tail)
  under : (outputs members).length ≤ options.limit

/-- What is decoded of a file. -/
def summary (input : Bytes) (members : List Written) : Decoded where
  data := outputs members
  format := .gzip
  checksum := (members.getLast?.map fun written => crc32 written.output).getD 0
  header := members.head?.map (·.header)
  consumed := input.length

section Files

variable {options : Options} {input tail : Bytes} {members : List Written}

theorem IsFile.toMembers (file : IsFile options input members tail) :
    Members input members tail where
  nonempty := file.nonempty
  wellFormed := file.wellFormed
  split := file.split
  last := by
    rcases file.tail with rfl | ⟨_, last⟩
    · decide
    · exact last

/-- Decoding walks over the members and judges the bytes after them. -/
theorem decode_eq (unset : options.initialCapacity = none) (input : Bytes) :
    ∃ buffer : Buffer, buffer.Sound ∧ buffer.bytes = #[] ∧
      (∀ failure, (walk options.limit input buffer).ending = .failed failure →
        decode input options = .error failure) ∧
      ∀ tail members filled, (walk options.limit input buffer).ending = .done tail filled →
        (walk options.limit input buffer).members = members.map Written.member →
        filled.bytes.toList = outputs members →
        decode input options =
          if tail ≠ 0 ∧ options.allowTrailing = false then .error (.trailingData tail)
          else .ok (summary input members) := by
  obtain ⟨buffer, reserved, sound, empty⟩ := Buffer.sound_seed unset input.length
  refine ⟨buffer, sound, empty, ?_, ?_⟩
  · intro failure failed
    simp only [decode, attempt, reserved, failed]
  · intro tail members filled done same held
    have found : ({ data := filled.bytes.toList, format := .gzip
                    checksum := (((members.map Written.member).getLast?).map (·.checksum)).getD 0
                    header := ((members.map Written.member).head?).map (·.header)
                    consumed := input.length } : Decoded) = summary input members := by
      rw [held, List.getLast?_map, List.head?_map, Option.map_map, Option.map_map]
      rfl
    simp only [decode, attempt, reserved, done, same, found]
    by_cases none : tail = 0
    · rw [if_pos none, if_neg fun some => some.1 none]
    · rw [if_neg none]
      cases options.allowTrailing <;> simp [none]

/-- What is accepted is a file. -/
theorem isFile_of_decode (unset : options.initialCapacity = none) {decoded : Decoded}
    (accepted : decode input options = .ok decoded) :
    ∃ members tail, IsFile options input members tail ∧ decoded = summary input members := by
  obtain ⟨buffer, sound, empty, ofFailed, ofDone⟩ := decode_eq unset input
  cases ending : (walk options.limit input buffer).ending with
  | failed failure =>
    rw [ofFailed _ ending] at accepted
    cases accepted
  | done trailing filled =>
    obtain ⟨members, tail, file, rfl, same, holds⟩ := members_of_walk sound ending
    have held := holds.contents
    rw [empty, List.nil_append] at held
    rw [ofDone _ _ _ ending same held] at accepted
    by_cases refused : tail.length ≠ 0 ∧ options.allowTrailing = false
    · rw [if_pos refused] at accepted
      cases accepted
    · rw [if_neg refused] at accepted
      cases accepted
      have under := holds.under
      rw [Buffer.size, ← Array.length_toList, held] at under
      refine ⟨members, tail, ⟨file.nonempty, file.wellFormed, file.split, ?_, under⟩, rfl⟩
      by_cases nothing : tail = []
      · exact Or.inl nothing
      · refine Or.inr ⟨?_, file.last⟩
        cases isAllowed : options.allowTrailing with
        | true => rfl
        | false => exact absurd ⟨mt List.length_eq_zero_iff.mp nothing, isAllowed⟩ refused

/-- **Members are accepted**, if the limit permits their output and the bytes after them are
allowed. -/
theorem yields_of_members (unset : options.initialCapacity = none)
    (file : Members input members tail) (allowed : tail = [] ∨ options.allowTrailing = true)
    (permits : Permits options.limit (outputs members).length) :
    Yields (outputs members).length (.ok (summary input members)) (decode input options) := by
  obtain ⟨buffer, sound, empty, ofFailed, ofDone⟩ := decode_eq unset input
  cases ending : (walk options.limit input buffer).ending with
  | failed failure =>
    have refused := refusal_of_walk sound file ending
    rw [empty, List.nil_append] at refused
    obtain ⟨large, asked, rfl⟩ := refused.exhausts permits
    rw [ofFailed _ ending]
    exact .outOfMemory asked large
  | done trailing filled =>
    obtain ⟨others, otherTail, other, rfl, same, holds⟩ := members_of_walk sound ending
    obtain ⟨rfl, rfl⟩ := file.unique other
    have held := holds.contents
    rw [empty, List.nil_append] at held
    have accepted : ¬(tail.length ≠ 0 ∧ options.allowTrailing = false) := by
      rintro ⟨some, forbidden⟩
      rcases allowed with nothing | allowed
      · exact some (List.length_eq_zero_iff.mpr nothing)
      · cases allowed.symm.trans forbidden
    rw [ofDone _ _ _ ending same held, if_neg accepted]
    exact .expected

/-- **A file is accepted**, if memory allows. -/
theorem yields_summary (unset : options.initialCapacity = none)
    (file : IsFile options input members tail) :
    Yields (outputs members).length (.ok (summary input members)) (decode input options) := by
  have allowed : tail = [] ∨ options.allowTrailing = true := file.tail.imp_right And.left
  exact yields_of_members unset file.toMembers allowed (Or.inl file.under)

/-- **The grammar of gzip files.** With no capacity asked for:

* what is accepted, and with which result, is exactly what is a file, unless memory runs out;
* memory runs out only for an output of `exhausting` bytes or more;
* the members of a file, and the bytes after them, are unique;
* no member is shorter than the least size. -/
theorem decode_grammar (input : Bytes) (options : Options)
    (unset : options.initialCapacity = none) :
    (∀ decoded, decode input options = .ok decoded ↔
      (∃ members tail, IsFile options input members tail ∧ decoded = summary input members) ∧
        ∀ asked, decode input options ≠ .error (.allocation asked)) ∧
    (∀ members tail asked, IsFile options input members tail →
      decode input options = .error (.allocation asked) →
        exhausting ≤ (outputs members).length) ∧
    (∀ members tail others rest, IsFile options input members tail →
      IsFile options input others rest → members = others ∧ tail = rest) ∧
    ∀ written : Written, written.WellFormed → minLength ≤ written.bytes.length := by
  refine ⟨?_, ?_, ?_, ?_⟩
  · intro decoded
    constructor
    · intro accepted
      refine ⟨isFile_of_decode unset accepted, ?_⟩
      intro asked failed
      cases accepted.symm.trans failed
    · rintro ⟨⟨members, tail, file, rfl⟩, enough⟩
      have yields := yields_summary unset file
      generalize outcome : decode input options = result at yields enough ⊢
      cases yields with
      | expected => rfl
      | outOfMemory asked large => exact absurd rfl (enough asked)
      | unnamed large mismatch => cases mismatch
  · intro members tail asked file failed
    have yields := yields_summary unset file
    rw [failed] at yields
    cases yields with
    | outOfMemory _ large => exact large
  · intro members tail others rest file other
    exact file.toMembers.unique other.toMembers
  · intro written wellFormed
    exact wellFormed.minLength_le

end Files

/-- One stored byte in one member. -/
theorem decode_grammar_letter :
    ({} : Options).initialCapacity = none ∧
      decode ([0x1f, 0x8b, 8, 0, 0, 0, 0, 0, 0, 0xff] ++ [1, 1, 0, 0xfe, 0xff, 0x61] ++
          [0x43, 0xbe, 0xb7, 0xe8, 1, 0, 0, 0]) {} =
        .ok { data := [0x61], format := .gzip, checksum := 0xe8b7be43
              header := some ⟨8, 0, 0, 0, 0xff, none, none, none, 10⟩, consumed := 24 } := by
  refine ⟨rfl, ?_⟩
  obtain ⟨letter, is⟩ : ∃ letter : Written, letter = ⟨[0x1f, 0x8b, 8, 0, 0, 0, 0, 0, 0, 0xff],
    [1, 1, 0, 0xfe, 0xff, 0x61], ⟨8, 0, 0, 0, 0xff, none, none, none, 10⟩, [0x61]⟩ := ⟨_, rfl⟩
  have wellFormed : letter.WellFormed := by
    rw [is]
    exact ⟨by cbv, rfl, by cbv⟩
  have bytes : [0x1f, 0x8b, 8, 0, 0, 0, 0, 0, 0, 0xff] ++ [1, 1, 0, 0xfe, 0xff, 0x61] ++
      [0x43, 0xbe, 0xb7, 0xe8, 1, 0, 0, 0] = letter.bytes := by
    rw [is]
    decide +kernel
  rw [bytes]
  have file : IsFile {} letter.bytes [letter] [] :=
    ⟨List.cons_ne_nil _ _, fun written among => List.mem_singleton.mp among ▸ wellFormed,
      by simp, Or.inl rfl, by simp [outputs, is]; decide⟩
  obtain ⟨accepts, exhausts, _⟩ := decode_grammar letter.bytes {} rfl
  have enough : ∀ asked, decode letter.bytes {} ≠ .error (.allocation asked) := by
    intro asked failed
    have large := exhausts _ _ _ file failed
    rw [is] at large
    exact absurd large (by decide)
  refine (accepts _).mpr ⟨⟨_, _, file, ?_⟩, enough⟩
  rw [← bytes, is]
  decide +kernel

end Gzip

end Inflate
