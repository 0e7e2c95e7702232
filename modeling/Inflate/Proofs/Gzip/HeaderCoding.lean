/-
**Headers and their bytes.**

Writing a header and reading one undo each other. A header is fixed by its fields, which may be anything
that can be written at all; its flags announce the optional parts that are there. What is read is always
such a header, and it is written back as the very bytes it was read from. A reader that runs out of bytes
says so and nothing else: no beginning of a header is taken for a header or for something worse.

* `Fields`: what a header says, apart from what follows from it;
* `Foretells`: what was said of the beginning of an input holds of the input, unless it was too short;
* `foretells_parse`: more bytes behind a header change nothing, unless they are missing from it;
* `parse_inverts_encode`: reading inverts writing, and every cut is noticed.
-/

import Inflate.Proofs.Gzip.HeaderText

namespace Inflate

namespace Gzip

namespace Header

/-! ### Fields -/

/-- The flags that announce the parts of a header. -/
def announcing (text checked extra name comment : Bool) : UInt8 :=
  (if text then textFlag else 0) ||| (if checked then checksumFlag else 0) |||
    (if extra then extraFlag else 0) ||| (if name then nameFlag else 0) |||
    (if comment then commentFlag else 0)

/-- No reserved flag is announced, and the flags of the optional parts say which of them are there. -/
theorem hasFlag_announcing (text checked extra name comment : Bool) :
    let flags := announcing text checked extra name comment
    hasFlag flags reservedFlags = false ∧ hasFlag flags extraFlag = extra ∧
      hasFlag flags nameFlag = name ∧ hasFlag flags commentFlag = comment := by
  revert text checked extra name comment
  decide

/-- Flags without a reserved one announce what they say. -/
theorem eq_announcing {flags : UInt8} (reserved : hasFlag flags reservedFlags = false) :
    flags = announcing (hasFlag flags textFlag) (hasFlag flags checksumFlag)
      (hasFlag flags extraFlag) (hasFlag flags nameFlag) (hasFlag flags commentFlag) := by
  have all : ∀ n < 256, hasFlag (UInt8.ofNat n) reservedFlags = false →
      UInt8.ofNat n = announcing (hasFlag (UInt8.ofNat n) textFlag)
        (hasFlag (UInt8.ofNat n) checksumFlag) (hasFlag (UInt8.ofNat n) extraFlag)
        (hasFlag (UInt8.ofNat n) nameFlag) (hasFlag (UInt8.ofNat n) commentFlag) := by
    decide +kernel
  have found := all flags.toNat flags.toNat_lt
  rw [UInt8.ofNat_toNat] at found
  exact found reserved

/-- What a header says, apart from what follows from it: whether the content is marked as text, whether
the header has a checksum of its own, the hints and the optional parts, each of which can be written. -/
structure Fields where
  text : Bool
  checked : Bool
  mtime : UInt32
  extraFlags : UInt8
  os : UInt8
  extra : Option Bytes
  name : Option String
  comment : Option String
  extra_small : ∀ bytes ∈ extra, bytes.length ≤ 65535
  isText_name : ∀ text ∈ name, IsText text
  isText_comment : ∀ text ∈ comment, IsText text

namespace Fields

/-- The flags of a header with these fields. -/
def flags (fields : Fields) : UInt8 :=
  announcing fields.text fields.checked fields.extra.isSome fields.name.isSome fields.comment.isSome

/-- The header with these fields, and of a given length. -/
def withLength (fields : Fields) (length : Nat) : Header where
  method := deflateMethod
  flags := fields.flags
  mtime := fields.mtime
  extraFlags := fields.extraFlags
  os := fields.os
  extra := fields.extra
  name := fields.name
  comment := fields.comment
  length

/-- The bytes of a header with these fields. -/
def encode (fields : Fields) : Bytes := (fields.withLength 0).encode

/-- The header with these fields. -/
def header (fields : Fields) : Header := fields.withLength fields.encode.length

theorem wellFormed_header (fields : Fields) : fields.header.WellFormed := by
  obtain ⟨reserved, extra, name, comment⟩ := hasFlag_announcing fields.text fields.checked
    fields.extra.isSome fields.name.isSome fields.comment.isSome
  exact
    { method := rfl
      reserved
      extra := ⟨extra.symm, fun bytes among => Nat.lt_succ_of_le (fields.extra_small bytes among)⟩
      name := ⟨name.symm, fields.isText_name⟩
      comment := ⟨comment.symm, fields.isText_comment⟩
      length := rfl }

end Fields

/-- The fields of a well-formed header. -/
def WellFormed.fields {header : Header} (wellFormed : header.WellFormed) : Fields where
  text := header.isText
  checked := hasFlag header.flags checksumFlag
  mtime := header.mtime
  extraFlags := header.extraFlags
  os := header.os
  extra := header.extra
  name := header.name
  comment := header.comment
  extra_small := fun bytes among => Nat.le_of_lt_succ (wellFormed.extra.2 bytes among)
  isText_name := wellFormed.name.2
  isText_comment := wellFormed.comment.2

/-- A well-formed header is the one with its fields. -/
theorem WellFormed.header_fields {header : Header} (wellFormed : header.WellFormed) :
    wellFormed.fields.header = header := by
  have flags : wellFormed.fields.flags = header.flags := by
    show announcing header.isText (hasFlag header.flags checksumFlag) header.extra.isSome
      header.name.isSome header.comment.isSome = header.flags
    rw [wellFormed.extra.1, wellFormed.name.1, wellFormed.comment.1]
    exact (eq_announcing wellFormed.reserved).symm
  have same (length : Nat) : wellFormed.fields.withLength length = { header with length } := by
    rw [Fields.withLength, flags, ← wellFormed.method]
    rfl
  rw [Fields.header, Fields.encode, same, same]
  exact congrArg (fun length => { header with length }) wellFormed.length.symm

/-! ### Beginnings -/

/-- What was said of the beginning of an input holds of the input, unless the beginning was too
short. -/
def Foretells {α : Type} (short whole : Except Failure α) : Prop :=
  short = .error .truncated ∨ whole = short

/-- The step fails only for want of bytes. -/
def FailsShort {α : Type} (step : Bytes → Except Failure (α × Bytes)) : Prop :=
  ∀ input failure, step input = .error failure → failure = .truncated

theorem failsShort_takeByte : FailsShort takeByte := by
  intro input failure failed
  cases input with
  | nil => exact (Except.error.inj failed).symm
  | cons byte rest => cases failed

theorem failsShort_takeExactly (count : Nat) : FailsShort (takeExactly count) := by
  intro input failure failed
  unfold takeExactly at failed
  split at failed
  · exact (Except.error.inj failed).symm
  · cases failed

theorem failsShort_takeText : FailsShort takeText := by
  intro input failure failed
  unfold takeText at failed
  split at failed
  · exact (Except.error.inj failed).symm
  · cases failed

theorem failsShort_takeExtra : FailsShort takeExtra := by
  intro input failure failed
  unfold takeExtra at failed
  cases first : takeExactly 2 input with
  | error cause =>
    rw [first] at failed
    cases failed
    exact failsShort_takeExactly 2 input _ first
  | ok taken =>
    rw [bind_of_ok first] at failed
    exact failsShort_takeExactly _ _ _ failed

theorem FailsShort.optional {α : Type} {step : Bytes → Except Failure (α × Bytes)}
    (failsShort : FailsShort step) (present : Bool) : FailsShort (optional present step) := by
  intro input failure failed
  cases present with
  | false => cases failed
  | true =>
    cases part : step input with
    | error cause =>
      rw [Header.optional, if_pos rfl, part] at failed
      cases failed
      exact failsShort input _ part
    | ok taken =>
      rw [Header.optional, if_pos rfl, bind_of_ok part] at failed
      cases failed

section Foretelling

variable {α β : Type}

theorem Foretells.refl (outcome : Except Failure α) : Foretells outcome outcome := Or.inr rfl

/-- A step that finds its bytes leaves the same ones and what is behind them. -/
theorem Foretells.bind {step : Bytes → Except Failure (α × Bytes)} {valid : α → Prop}
    {write : α → Bytes} (takes : Takes step valid write) (failsShort : FailsShort step)
    {input more : Bytes} {next whole : α × Bytes → Except Failure β}
    (onValue : ∀ value rest, Foretells (next (value, rest)) (whole (value, rest ++ more))) :
    Foretells (step input >>= next) (step (input ++ more) >>= whole) := by
  cases taken : step input with
  | error failure =>
    left
    rw [failsShort input failure taken]
    rfl
  | ok result =>
    obtain ⟨value, rest⟩ := result
    obtain ⟨isValid, rfl⟩ := (takes _ _ _).mp taken
    have still : step (write value ++ rest ++ more) = .ok (value, rest ++ more) :=
      (takes _ _ _).mpr ⟨isValid, List.append_assoc _ _ _⟩
    rw [bind_of_ok still]
    exact onValue value rest

theorem Foretells.guard {bad : Prop} [Decidable bad] {failure : Failure}
    {next whole : Except Failure β} (onward : Foretells next whole) :
    Foretells (if bad then throw failure >>= fun _ : Unit => next else next)
      (if bad then throw failure >>= fun _ : Unit => whole else whole) := by
  by_cases wrong : bad
  · rw [if_pos wrong, if_pos wrong]
    exact .refl _
  · rw [if_neg wrong, if_neg wrong]
    exact onward

end Foretelling

/-- **More bytes behind a header** change nothing, unless they are missing from it. -/
theorem foretells_parse (input more : Bytes) : Foretells (parse input) (parse (input ++ more)) := by
  have byte {α : Type} {input : Bytes} {next whole : UInt8 × Bytes → Except Failure α} :=
    @Foretells.bind _ α _ _ _ takes_takeByte failsShort_takeByte input more next whole
  unfold parse
  refine byte fun first rest => byte fun second rest => .guard ?_
  refine byte fun method rest => .guard (byte fun flags rest => .guard ?_)
  refine .bind (takes_takeExactly 4) (failsShort_takeExactly 4) fun mtime rest => ?_
  refine byte fun extraFlags rest => byte fun os rest => ?_
  refine .bind (takes_takeExtra.optional _) (failsShort_takeExtra.optional _) fun extra rest => ?_
  refine .bind (takes_takeText.optional _) (failsShort_takeText.optional _) fun name rest => ?_
  refine .bind (takes_takeText.optional _) (failsShort_takeText.optional _) fun comment between => ?_
  refine .bind ((takes_takeExactly 2).optional _) ((failsShort_takeExactly 2).optional _)
    fun stored rest => ?_
  -- the bytes that were read are counted from the end, where there are as many more in both
  have read (left : Bytes) : (input ++ more).length - (left ++ more).length =
      input.length - left.length := by
    simp only [List.length_append]
    omega
  have covered : (input ++ more).take (input.length - between.length) =
      input.take (input.length - between.length) :=
    List.take_append_of_le_length (Nat.sub_le _ _)
  show Foretells _ _
  simp only [read, covered]
  exact .refl _

/-! ### Reading and writing -/

/-- Every cut of a header is noticed. -/
theorem parse_take {input : Bytes} {header : Header} (parsed : parse input = .ok header) {n : Nat}
    (cut : n < header.length) : parse (input.take n) = .error .truncated := by
  have foretold := foretells_parse (input.take n) (input.drop n)
  rw [List.take_append_drop, parsed] at foretold
  rcases foretold with short | same
  · exact short
  · obtain ⟨wellFormed, begins⟩ := wellFormed_of_parse same.symm
    have within := begins.length_le
    rw [← wellFormed.length, List.length_take] at within
    omega

/-- **Reading a header inverts writing one.**

* Whatever the fields of a header are, and whatever follows its bytes, it is read from them, and its
  length is theirs.
* What is read has such fields; its length is not more than there are bytes, the bytes of that length
  are those of the header, and every shorter part of them is truncated. -/
theorem parse_inverts_encode :
    (∀ (fields : Fields) (rest : Bytes), parse (fields.encode ++ rest) = .ok fields.header ∧
      fields.header.length = fields.encode.length) ∧
    ∀ input header, parse input = .ok header →
      (∃ fields : Fields, header = fields.header) ∧ header.length ≤ input.length ∧
        header.encode = input.take header.length ∧
        ∀ n < header.length, parse (input.take n) = .error .truncated := by
  constructor
  · intro fields rest
    exact ⟨parse_encode_append fields.wellFormed_header rest, rfl⟩
  · intro input header parsed
    obtain ⟨wellFormed, rest, rfl⟩ := wellFormed_of_parse parsed
    refine ⟨⟨wellFormed.fields, wellFormed.header_fields.symm⟩, ?_, ?_, ?_⟩
    · rw [wellFormed.length, List.length_append]
      exact Nat.le_add_right _ _
    · rw [wellFormed.length, List.take_left]
    · intro n cut
      exact parse_take parsed cut

/-- A name and a checksum, written, read and cut. -/
theorem parse_inverts_encode_named :
    ∃ fields : Fields, fields.name = some "a" ∧
      fields.encode = [0x1f, 0x8b, 8, 0x0a, 0, 0, 0, 0, 0, 0xff, 0x61, 0, 0x58, 0xa2] ∧
      (∀ rest, parse ([0x1f, 0x8b, 8, 0x0a, 0, 0, 0, 0, 0, 0xff, 0x61, 0, 0x58, 0xa2] ++ rest) =
        .ok ⟨8, 0x0a, 0, 0, 0xff, none, some "a", none, 14⟩) ∧
      ∀ n < 14, parse ([0x1f, 0x8b, 8, 0x0a, 0, 0, 0, 0, 0, 0xff, 0x61, 0, 0x58, 0xa2].take n) =
        .error .truncated := by
  obtain ⟨fields, is⟩ : ∃ fields : Fields, fields =
      { text := false, checked := true, mtime := 0, extraFlags := 0, os := 0xff, extra := none
        name := some "a", comment := none, extra_small := nofun
        isText_name := by simp [IsText], isText_comment := nofun } := ⟨_, rfl⟩
  have written : fields.encode =
      [0x1f, 0x8b, 8, 0x0a, 0, 0, 0, 0, 0, 0xff, 0x61, 0, 0x58, 0xa2] := by
    rw [is]
    decide +kernel
  have header : fields.header = ⟨8, 0x0a, 0, 0, 0xff, none, some "a", none, 14⟩ := by
    rw [Fields.header, written, is]
    rfl
  have reads (rest : Bytes) := (parse_inverts_encode.1 fields rest).1
  rw [written, header] at reads
  have whole := reads []
  rw [List.append_nil] at whole
  exact ⟨fields, by rw [is], written, reads, (parse_inverts_encode.2 _ _ whole).2.2.2⟩

end Header

end Gzip

end Inflate
