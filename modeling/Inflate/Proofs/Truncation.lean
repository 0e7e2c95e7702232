/-
**Every truncation is noticed.**

A cut can fall anywhere: into a header, into any bit of any block, into a trailer, or between the members
of a gzip file. Everywhere it is named as what it is. Only where members of a gzip file end has the cut
left a file; and if it has left the first byte of another member, this byte is taken for what it may be
just as well, a byte after the file.

* `Zlib.decode_take`: a part of a zlib stream;
* `Gzip.endOf`: where the members of a file end;
* `Gzip.decode_take`: a part of a gzip file, by where it ends;
* `decode_truncated`: a part of what is accepted, in either container.
-/

import Inflate.Proofs.Gzip.Beginning
import Inflate.Proofs.Output.StreamEnd

namespace Inflate

/-! ### Zlib streams -/

namespace Zlib

/-- The beginning of a body that leaves nothing behind its stream is truncated. -/
theorem decodeBody_take {input : Bytes} {options : Options} {buffer filled : Buffer}
    (reserved : Buffer.reserve (seedCapacity input.length options) = .ok buffer)
    (found : decodeInto .checked options.limit (input.drop Header.length) buffer = .ok ([], filled))
    {n : Nat} (header : Header.length ≤ n) (cut : n < input.length) :
    decodeBody (input.take n) options = .error .truncated := by
  have fewer : (input.take n).length ≤ input.length := List.length_take_le' n input
  obtain ⟨other, otherReserved, alike⟩ := interchangeable_seed fewer reserved
  have bodyAlike : Interchangeable ((input.take n).drop Header.length).length buffer other :=
    alike.mono (List.drop_suffix _ _).length_le
  have within : Header.length ≤ (input.take n).length := by
    rw [List.length_take_of_le (Nat.le_of_lt cut)]
    exact header
  rw [← List.take_append_drop n input, List.drop_append_of_le_length within] at found
  rcases decodeInto_beginning bodyAlike found with ⟨left, -, split, -, -⟩ | truncated
  · have nothing := (List.append_eq_nil_iff.mp split.symm).2
    exact absurd (List.drop_eq_nil_iff.mp nothing) (Nat.not_le.mpr cut)
  · unfold decodeBody
    rw [bind_of_ok otherReserved]
    simp only [truncated]

/-- **A part of a zlib stream** is truncated. -/
theorem decode_take {input : Bytes} {options : Options} (strict : options.allowTrailing = false)
    {decoded : Decoded} (accepted : decode input options = .ok decoded) {n : Nat}
    (cut : n < input.length) : decode (input.take n) options = .error .truncated := by
  rcases outcome_cases input options with ⟨failure, -, failed⟩ |
    ⟨header, ⟨data, checksum, trailing⟩, parsed, -, body, outcome⟩
  · cases accepted.symm.trans (failed options.allowTrailing)
  obtain ⟨buffer, rest, filled, reserved, found, -, -, rfl⟩ := stream_of_decodeBody body
  have concluded := accepted.symm.trans (outcome options.allowTrailing)
  have nothing : rest = [] := by
    by_contra some
    have refused : rest.length ≠ 0 ∧ options.allowTrailing = false :=
      ⟨mt List.length_eq_zero_iff.mp some, strict⟩
    rw [conclude, if_pos refused] at concluded
    cases concluded
  subst nothing
  by_cases short : Header.parse (input.take n) = .error .truncated
  · simp only [decode, attempt, short]
  have same := Header.parse_append short (input.drop n)
  rw [List.take_append_drop, parsed] at same
  by_cases few : (input.take n).length < minLength
  · simp only [decode, attempt, ← same, if_pos few]
  have long : Header.length ≤ n := by
    rw [List.length_take] at few
    simp only [minLength, Header.length] at few ⊢
    omega
  simp only [decode, attempt, ← same, if_neg few, decodeBody_take reserved found long cut]

end Zlib

/-! ### Gzip files -/

namespace Gzip

/-- Where the first members of a file end. -/
def endOf (members : List Written) (count : Nat) : Nat :=
  ((members.take count).flatMap Written.bytes).length

/-- A position in a file is within one of its members, or at the start of it. -/
theorem exists_member_at {members : List Written} {n : Nat}
    (within : n < (members.flatMap Written.bytes).length) :
    ∃ front written back j, members = front ++ written :: back ∧ j < written.bytes.length ∧
      n = (front.flatMap Written.bytes).length + j := by
  induction members generalizing n with
  | nil => exact absurd within (Nat.not_lt_zero n)
  | cons written members ih =>
    rw [List.flatMap_cons, List.length_append] at within
    by_cases inside : n < written.bytes.length
    · exact ⟨[], written, members, n, rfl, inside, (Nat.zero_add n).symm⟩
    · obtain ⟨front, other, back, j, rfl, small, same⟩ :=
        ih (Nat.sub_lt_left_of_lt_add (Nat.not_lt.mp inside) within)
      refine ⟨written :: front, other, back, j, rfl, small, ?_⟩
      rw [List.flatMap_cons, List.length_append]
      omega

section Positions

variable {front back : List Written} {written : Written}

/-- The part of a file up to a position in a member. -/
theorem take_members {j : Nat} (small : j ≤ written.bytes.length) :
    ((front ++ written :: back).flatMap Written.bytes).take
      ((front.flatMap Written.bytes).length + j) =
        front.flatMap Written.bytes ++ written.bytes.take j := by
  rw [List.flatMap_append, List.take_length_add_append, List.flatMap_cons,
    List.take_append_of_le_length small]

theorem endOf_front : endOf (front ++ written :: back) front.length =
    (front.flatMap Written.bytes).length := by
  rw [endOf, List.take_left]

/-- Fewer members end at least one member's size before. -/
theorem endOf_add_le (wellFormed : ∀ written ∈ front, written.WellFormed) {count : Nat}
    (fewer : count < front.length) :
    endOf (front ++ written :: back) count + minLength ≤ (front.flatMap Written.bytes).length := by
  obtain ⟨other, others, rest⟩ := List.exists_cons_of_ne_nil
    (mt List.drop_eq_nil_iff.mp (Nat.not_le.mpr fewer))
  have among : other ∈ front := List.mem_of_mem_drop (rest ▸ List.mem_cons_self)
  have least := (wellFormed other among).minLength_le
  have whole := congrArg (fun members => (members.flatMap Written.bytes).length)
    (List.take_append_drop count front)
  simp only [rest, List.flatMap_append, List.flatMap_cons, List.length_append] at whole
  rw [endOf, List.take_append_of_le_length (Nat.le_of_lt fewer)]
  omega

/-- More members end behind the next one. -/
theorem add_le_endOf {count : Nat} (more : front.length < count) :
    (front.flatMap Written.bytes).length + written.bytes.length ≤
      endOf (front ++ written :: back) count := by
  obtain ⟨extra, rfl⟩ := Nat.exists_eq_add_of_lt more
  rw [endOf, Nat.add_assoc, List.take_length_add_append, List.take_succ_cons]
  simp only [List.flatMap_append, List.flatMap_cons, List.length_append]
  omega

/-- A count of members whose end is at or just before a position in a member: it is the count of the
members in front. -/
theorem eq_length_of_endOf_near (wellFormed : ∀ written ∈ front, written.WellFormed)
    {count j past : Nat} (near : past ≤ 1) (small : j < written.bytes.length)
    (same : (front.flatMap Written.bytes).length + j =
      endOf (front ++ written :: back) count + past) : count = front.length ∧ j = past := by
  rcases Nat.lt_trichotomy count front.length with fewer | rfl | more
  · have before : endOf (front ++ written :: back) count + minLength ≤ _ :=
      endOf_add_le wellFormed fewer
    simp only [minLength] at before
    omega
  · rw [endOf_front] at same
    exact ⟨rfl, Nat.add_left_cancel same⟩
  · have behind : _ ≤ endOf (front ++ written :: back) count := add_le_endOf more
    omega

end Positions

section Parts

variable {options : Options} {buffer : Buffer} {front : List Written} {written : Written}
  {rest : Bytes} {result : List Member × Nat × Buffer}

/-- Within its first member a file is truncated. -/
theorem decode_first (wellFormed : written.WellFormed) {j : Nat} (cut : j < written.bytes.length)
    (reserved : Buffer.reserve (seedCapacity (written.bytes ++ rest).length options) = .ok buffer)
    (done : (walk options.limit (written.bytes ++ rest) buffer).outcome = .ok result) :
    decode (written.bytes.take j) options = .error .truncated := by
  have fewer : (written.bytes.take j).length ≤ (written.bytes ++ rest).length :=
    (List.length_take_le' j _).trans (List.prefix_append _ _).length_le
  obtain ⟨other, otherReserved, alike⟩ := interchangeable_seed fewer reserved
  rw [decode_eq_conclude, bind_of_ok otherReserved, walk_cut wellFormed cut alike done]
  rfl

/-- What part of a file is decoded, by the members in front of the one that is cut and by what is left
of that one. -/
theorem decode_part (strict : options.allowTrailing = false)
    (frontWellFormed : ∀ written ∈ front, written.WellFormed) (wellFormed : written.WellFormed)
    {j : Nat} (cut : j < written.bytes.length)
    (reserved : Buffer.reserve
      (seedCapacity (front.flatMap Written.bytes ++ (written.bytes ++ rest)).length options) =
        .ok buffer)
    (done : (walk options.limit (front.flatMap Written.bytes ++ (written.bytes ++ rest))
      buffer).outcome = .ok result) :
    decode (front.flatMap Written.bytes ++ written.bytes.take j) options =
      if front = [] ∨ 2 ≤ j then .error .truncated
      else if j = 0 then
        .ok (summary (front.flatMap Written.bytes ++ written.bytes.take j) front)
      else .error (.trailingData 1) := by
  by_cases first : front = []
  · subst first
    rw [if_pos (Or.inl rfl)]
    exact decode_first wellFormed cut reserved done
  by_cases two : 2 ≤ j
  · rw [if_pos (Or.inr two)]
    exact decode_cut first frontWellFormed wellFormed two cut reserved done
  rw [if_neg (not_or.mpr ⟨first, two⟩)]
  have count : (written.bytes.take j).length = j := List.length_take_of_le (Nat.le_of_lt cut)
  -- at most one byte of the next member is left, which does not begin one
  have last : ¬magic <+: written.bytes.take j := by
    intro begins
    have least : 2 ≤ j := count ▸ begins.length_le
    exact two least
  rw [written.split_at rest j] at reserved done
  rw [decode_members first frontWellFormed last reserved done, count]
  by_cases none : j = 0
  · rw [if_pos none, if_neg fun some => some.1 none]
  · have one : j = 1 := by omega
    rw [if_neg none, if_pos ⟨none, strict⟩, one]

end Parts

/-- **A part of a gzip file.** Where members end, it is a file of those members; one byte behind, it is
a file with one more byte; and everywhere else it is truncated. -/
theorem decode_take {input : Bytes} {options : Options} (strict : options.allowTrailing = false)
    {decoded : Decoded} (accepted : decode input options = .ok decoded) :
    ∃ members, Members input members [] ∧ decoded = summary input members ∧
      ∀ n < input.length,
        (∀ count, 0 < count → n = endOf members count →
          decode (input.take n) options = .ok (summary (input.take n) (members.take count))) ∧
        (∀ count, 0 < count → n = endOf members count + 1 →
          decode (input.take n) options = .error (.trailingData 1)) ∧
        ((∀ count, 0 < count → n ≠ endOf members count ∧ n ≠ endOf members count + 1) →
          decode (input.take n) options = .error .truncated) := by
  rcases outcome_cases input options with ⟨failure, -, failed⟩ |
    ⟨buffer, members, tail, filled, reserved, done, file, -, outcome⟩
  · cases accepted.symm.trans (failed options.allowTrailing)
  have concluded := accepted.symm.trans (outcome options.allowTrailing)
  have nothing : tail = [] := by
    by_contra some
    rw [if_pos ⟨mt List.length_eq_zero_iff.mp some, strict⟩] at concluded
    cases concluded
  subst nothing
  rw [if_neg fun some => some.1 rfl, Except.ok.injEq] at concluded
  refine ⟨members, file, concluded, ?_⟩
  have split := file.split
  rw [List.append_nil] at split
  subst split
  intro n cut
  obtain ⟨front, written, back, j, rfl, small, rfl⟩ := exists_member_at cut
  obtain ⟨frontWellFormed, restWellFormed⟩ := List.forall_mem_append.mp file.wellFormed
  obtain ⟨wellFormed, -⟩ := List.forall_mem_cons.mp restWellFormed
  rw [take_members (Nat.le_of_lt small)]
  rw [List.flatMap_append, List.flatMap_cons] at reserved done
  have part := decode_part strict frontWellFormed wellFormed small reserved done
  rw [part]
  refine ⟨fun count some same => ?_, fun count some same => ?_, fun elsewhere => ?_⟩
  · obtain ⟨rfl, rfl⟩ := eq_length_of_endOf_near frontWellFormed (Nat.zero_le 1) small same
    have nonempty : front ≠ [] := List.ne_nil_of_length_pos some
    rw [if_neg (not_or.mpr ⟨nonempty, by decide⟩), if_pos rfl, List.take_left]
  · obtain ⟨rfl, rfl⟩ := eq_length_of_endOf_near frontWellFormed (Nat.le_refl 1) small same
    have nonempty : front ≠ [] := List.ne_nil_of_length_pos some
    rw [if_neg (not_or.mpr ⟨nonempty, by decide⟩), if_neg (by decide)]
  · refine if_pos ?_
    by_contra near
    obtain ⟨nonempty, few⟩ := not_or.mp near
    obtain ⟨notAt, notBehind⟩ := elsewhere front.length (List.length_pos_iff.mpr nonempty)
    rw [endOf_front] at notAt notBehind
    omega

end Gzip

/-! ### Both containers -/

/-- **Every truncation is noticed**, and named as what it is, if bytes after a stream are not allowed.

* Every shorter part of a zlib stream that is accepted is truncated.
* A gzip file that is accepted consists of members. A shorter part of it that ends where members end is
  accepted with what these members hold; if it ends one byte behind, that byte is rejected; and every other
  part is truncated. -/
theorem decode_truncated (options : Options) (strict : options.allowTrailing = false) (input : Bytes) :
    (∀ decoded, decode (some .zlib) input options = .ok decoded → ∀ n < input.length,
      decode (some .zlib) (input.take n) options = .error .truncated) ∧
    ∀ decoded, decode (some .gzip) input options = .ok decoded →
      ∃ members, Gzip.Members input members [] ∧ decoded = Gzip.summary input members ∧
        ∀ n < input.length,
          (∀ count, 0 < count → n = Gzip.endOf members count →
            decode (some .gzip) (input.take n) options =
              .ok (Gzip.summary (input.take n) (members.take count))) ∧
          (∀ count, 0 < count → n = Gzip.endOf members count + 1 →
            decode (some .gzip) (input.take n) options = .error (.trailingData 1)) ∧
          ((∀ count, 0 < count →
              n ≠ Gzip.endOf members count ∧ n ≠ Gzip.endOf members count + 1) →
            decode (some .gzip) (input.take n) options = .error .truncated) := by
  constructor
  · intro decoded accepted n cut
    exact Zlib.decode_take strict accepted cut
  · intro decoded accepted
    exact Gzip.decode_take strict accepted

/-- A stream of one letter and a file of two, cut within the stream, between the members, one byte behind
and at the last byte. -/
theorem decode_truncated_letters :
    ({} : Options).allowTrailing = false ∧
      (∃ decoded, decode (some .zlib)
        [0x78, 0x9c, 1, 1, 0, 0xfe, 0xff, 0x61, 0, 0x62, 0, 0x62] {} = .ok decoded) ∧
      decode (some .zlib) [0x78, 0x9c, 1, 1, 0, 0xfe, 0xff, 0x61, 0, 0x62] {} = .error .truncated ∧
      ∃ file : Bytes, file = Gzip.letter.bytes ++ Gzip.letter.bytes ∧
        (∃ decoded, decode (some .gzip) file {} = .ok decoded ∧ decoded.data = [0x61, 0x61]) ∧
        (∃ decoded, decode (some .gzip) (file.take 24) {} = .ok decoded ∧ decoded.data = [0x61]) ∧
        decode (some .gzip) (file.take 25) {} = .error (.trailingData 1) ∧
        decode (some .gzip) (file.take 47) {} = .error .truncated := by
  have strict : ({} : Options).allowTrailing = false := rfl
  have unset : ({} : Options).initialCapacity = none := rfl
  have valid : Zlib.Header.Valid 0x78 0x9c := ⟨by decide, by decide, by decide, by decide⟩
  have complete : Deflate.inflate [1, 1, 0, 0xfe, 0xff, 0x61, 0, 0x62, 0, 0x62] =
      ([0x61], .complete [0, 0x62, 0, 0x62]) := by cbv
  have stream := (Zlib.yields_conclusion valid unset complete (permits_default _)).eq (by decide)
  obtain ⟨file, is⟩ : ∃ file : Bytes, file = Gzip.letter.bytes ++ Gzip.letter.bytes := ⟨_, rfl⟩
  have members : Gzip.Members file [Gzip.letter, Gzip.letter] [] := by
    refine ⟨List.cons_ne_nil _ _, ?_, by simp [is], by decide⟩
    intro written among
    simp only [List.mem_cons, List.not_mem_nil, or_false, or_self] at among
    exact among ▸ Gzip.wellFormed_letter
  have accepted := (Gzip.yields_of_members unset members (Or.inl rfl) (permits_default _)).eq
    (by decide)
  have size : file.length = 48 := by rw [is, Gzip.bytes_letter]; rfl
  have cutStream := (decode_truncated {} strict _).1 _ stream 10 (by decide)
  obtain ⟨others, otherMembers, -, cuts⟩ := (decode_truncated {} strict file).2 _ accepted
  obtain ⟨rfl, -⟩ := members.unique otherMembers
  have one : Gzip.endOf [Gzip.letter, Gzip.letter] 1 = 24 := by
    simp only [Gzip.endOf, List.take_succ_cons, List.take_zero, List.flatMap_singleton,
      Gzip.bytes_letter]
    rfl
  have all (count : Nat) : Gzip.endOf [Gzip.letter, Gzip.letter] (count + 2) = 48 := by
    simp only [Gzip.endOf, List.take_succ_cons, List.take_nil, List.flatMap_cons, List.flatMap_nil,
      Gzip.bytes_letter]
    rfl
  have first := (cuts 24 (by omega)).1 1 (by decide) one.symm
  have behind := (cuts 25 (by omega)).2.1 1 (by decide) (by rw [one])
  have late := (cuts 47 (by omega)).2.2 fun count some => by
    by_cases single : count = 1
    · rw [single, one]
      decide
    · obtain ⟨more, rfl⟩ := Nat.exists_eq_add_of_le' (by omega : 2 ≤ count)
      rw [all]
      decide
  exact ⟨strict, ⟨_, stream⟩, cutStream, file, is, ⟨_, accepted, rfl⟩, ⟨_, first, rfl⟩, behind,
    late⟩

end Inflate
