/-
**The bytes of a gzip header.**

A header is read part by part, and each part is read from exactly the bytes that are written for it.
So the headers that are accepted are the well-formed ones, and each is read from its own bytes, with
whatever follows them.

* `Takes`: a step reads what is written for the valid values, and leaves what follows;
* `Header.WellFormed`: a header that can be written;
* `Header.ReadFrom`: the bytes that a header is read from;
* `Header.parse_eq_ok_iff`: a header is read exactly from its bytes;
* `Header.parse_append`: what follows a header does not change it.
-/

import Inflate.Gzip.Header

namespace Inflate

/-! ### Steps that may fail -/

theorem ok_of_bind {α β : Type} {first : Except Failure α} {next : α → Except Failure β} {result : β}
    (ended : (first >>= next) = .ok result) :
    ∃ value, first = .ok value ∧ next value = .ok result := by
  cases first with
  | error failure => cases ended
  | ok value => exact ⟨value, rfl, ended⟩

theorem bind_of_ok {α β : Type} {first : Except Failure α} {value : α}
    (succeeds : first = .ok value) (next : α → Except Failure β) :
    (first >>= next) = next value := by
  rw [succeeds]
  rfl

theorem ok_of_guard {β : Type} {bad : Prop} [Decidable bad] {failure : Failure}
    {next : Except Failure β} {result : β}
    (ended : (if bad then throw failure >>= fun _ : Unit => next else next) = .ok result) :
    ¬bad ∧ next = .ok result := by
  by_cases wrong : bad
  · rw [if_pos wrong] at ended
    cases ended
  · rw [if_neg wrong] at ended
    exact ⟨wrong, ended⟩

theorem guard_of_not {β : Type} {bad : Prop} [Decidable bad] (good : ¬bad) (failure : Failure)
    (next : Except Failure β) :
    (if bad then throw failure >>= fun _ : Unit => next else next) = next :=
  if_neg good

namespace Gzip

namespace Header

/-! ### Parts -/

/-- The step reads the bytes that are written for a valid value, whatever follows them, and nothing
else. -/
def Takes {α : Type} (step : Bytes → Except Failure (α × Bytes)) (valid : α → Prop)
    (write : α → Bytes) : Prop :=
  ∀ input value rest, step input = .ok (value, rest) ↔ valid value ∧ input = write value ++ rest

theorem takes_takeByte : Takes takeByte (fun _ => True) fun byte => [byte] := by
  intro input value rest
  cases input with
  | nil => simp [takeByte]
  | cons byte others => simp [takeByte]

theorem takes_takeExactly (count : Nat) :
    Takes (takeExactly count) (fun bytes => bytes.length = count) id := by
  intro input value rest
  unfold takeExactly
  constructor
  · intro taken
    by_cases few : input.length < count
    · rw [if_pos few] at taken
      cases taken
    · rw [if_neg few, List.splitAt_eq] at taken
      cases taken
      have length : (input.take count).length = count := by
        rw [List.length_take]
        omega
      exact ⟨length, (List.take_append_drop count input).symm⟩
  · rintro ⟨length, rfl⟩
    have enough : ¬(id value ++ rest).length < count := by
      rw [List.length_append, id, length]
      omega
    rw [if_neg enough, List.splitAt_eq, ← length, id, List.take_left, List.drop_left]

/-- A text that ISO-8859-1 can write and that has no zero in it. -/
def IsText (text : String) : Prop := ∀ c ∈ text.toList, c.toNat ≠ 0 ∧ c.toNat < 256

theorem toNat_latin1Char (byte : UInt8) : (Char.ofNat byte.toNat).toNat = byte.toNat := by
  have small := byte.toNat_lt
  have valid : byte.toNat.isValidChar := Or.inl (by omega)
  rw [Char.ofNat, dif_pos valid]
  rfl

theorem isText_latin1 {bytes : Bytes} (noZero : ∀ byte ∈ bytes, byte ≠ 0) :
    IsText (latin1 bytes) := by
  intro c mem
  simp only [latin1, String.toList_ofList, List.mem_map] at mem
  obtain ⟨byte, among, rfl⟩ := mem
  rw [toNat_latin1Char]
  exact ⟨fun zero => noZero byte among (UInt8.toNat_inj.mp zero), byte.toNat_lt⟩

theorem encodeText_latin1 (bytes : Bytes) : encodeText (latin1 bytes) = bytes ++ [0] := by
  have kept : ((fun c : Char => UInt8.ofNat c.toNat) ∘ fun byte : UInt8 => Char.ofNat byte.toNat) =
      id := by
    funext byte
    simp only [Function.comp, toNat_latin1Char, UInt8.ofNat_toNat, id]
  rw [encodeText, latin1, String.toList_ofList, List.map_map, kept, List.map_id]

/-- The bytes of a text, without the zero byte at its end. -/
theorem encodeText_of_isText {text : String} (isText : IsText text) :
    ∃ bytes, encodeText text = bytes ++ [0] ∧ (∀ byte ∈ bytes, byte ≠ 0) ∧ latin1 bytes = text := by
  refine ⟨_, rfl, ?_, ?_⟩
  · intro byte mem zero
    obtain ⟨c, among, rfl⟩ := List.mem_map.mp mem
    obtain ⟨nonzero, small⟩ := isText c among
    have value := congrArg UInt8.toNat zero
    rw [UInt8.toNat_ofNat', Nat.mod_eq_of_lt small] at value
    exact nonzero value
  · rw [latin1, List.map_map]
    have kept : text.toList.map ((fun byte : UInt8 => Char.ofNat byte.toNat) ∘
        fun c => UInt8.ofNat c.toNat) = text.toList := by
      refine (List.map_congr_left fun c among => ?_).trans (List.map_id _)
      have small := (isText c among).2
      simp only [Function.comp, UInt8.toNat_ofNat', id]
      rw [Nat.mod_eq_of_lt small, Char.ofNat_toNat]
    rw [kept, String.ofList_toList]

theorem takes_takeText : Takes takeText IsText encodeText := by
  intro input value rest
  constructor
  · intro taken
    unfold takeText at taken
    split at taken
    · cases taken
    · next stop others found =>
      cases taken
      have stopped : stop = 0 := by
        have nonempty : input.dropWhile (· != 0) ≠ [] := by
          rw [found]
          exact List.cons_ne_nil _ _
        have head := List.head_dropWhile_not (· != 0) nonempty
        simpa [found] using head
      subst stopped
      refine ⟨isText_latin1 ?_, ?_⟩
      · intro byte mem
        have passed := List.all_eq_true.mp List.all_takeWhile byte mem
        simpa using passed
      · rw [encodeText_latin1, List.append_assoc, List.singleton_append, ← found,
          List.takeWhile_append_dropWhile]
  · rintro ⟨isText, rfl⟩
    obtain ⟨bytes, written, noZero, same⟩ := encodeText_of_isText isText
    have passed : ∀ byte ∈ bytes, (byte != 0) = true := fun byte mem => by
      simpa using noZero byte mem
    have front : (encodeText value ++ rest).takeWhile (· != 0) = bytes := by
      rw [written, List.append_assoc, List.takeWhile_append_of_pos passed]
      simp
    have back : (encodeText value ++ rest).dropWhile (· != 0) = 0 :: rest := by
      rw [written, List.append_assoc, List.dropWhile_append_of_pos passed]
      simp
    rw [takeText, front, back, same]

/-- The bytes of an extra field: its length and the field. -/
def encodeExtra (extra : Bytes) : Bytes := Bytes.ofLittleEndian 2 extra.length ++ extra

theorem takes_takeExtra : Takes takeExtra (fun extra => extra.length < 2 ^ 16) encodeExtra := by
  intro input value rest
  constructor
  · intro taken
    obtain ⟨⟨length, between⟩, first, second⟩ := ok_of_bind taken
    obtain ⟨two, rfl⟩ := (takes_takeExactly 2 _ _ _).mp first
    obtain ⟨count, rfl⟩ := (takes_takeExactly _ _ _ _).mp second
    have small := Bytes.littleEndian_lt length
    rw [two, ← count] at small
    have written : Bytes.ofLittleEndian 2 value.length = length := by
      rw [count, ← two, Bytes.ofLittleEndian_littleEndian]
    exact ⟨small, by rw [encodeExtra, written, List.append_assoc, id, id]⟩
  · rintro ⟨small, rfl⟩
    have kept : Bytes.littleEndian (Bytes.ofLittleEndian 2 value.length) = value.length := by
      rw [Bytes.littleEndian_ofLittleEndian]
      exact Nat.mod_eq_of_lt small
    have first : takeExactly 2 (encodeExtra value ++ rest) =
        .ok (Bytes.ofLittleEndian 2 value.length, value ++ rest) :=
      (takes_takeExactly 2 _ _ _).mpr
        ⟨Bytes.length_ofLittleEndian 2 _, by rw [encodeExtra, List.append_assoc, id]⟩
    rw [takeExtra, bind_of_ok first]
    exact (takes_takeExactly _ _ _ _).mpr ⟨kept.symm, rfl⟩

theorem Takes.optional {α : Type} {step : Bytes → Except Failure (α × Bytes)} {valid : α → Prop}
    {write : α → Bytes} (takes : Takes step valid write) (present : Bool) :
    Takes (optional present step)
      (fun value => value.isSome = present ∧ ∀ part ∈ value, valid part)
      fun value => (value.map write).getD [] := by
  intro input value rest
  cases present with
  | false =>
    cases value with
    | none => simp [Header.optional]
    | some part => simp [Header.optional]
  | true =>
    constructor
    · intro taken
      obtain ⟨⟨part, others⟩, first, rest'⟩ := ok_of_bind taken
      cases rest'
      obtain ⟨isValid, rfl⟩ := (takes _ _ _).mp first
      exact ⟨⟨rfl, fun _ same => Option.some.inj same ▸ isValid⟩, rfl⟩
    · rintro ⟨⟨isSome, isValid⟩, rfl⟩
      obtain ⟨part, rfl⟩ := Option.isSome_iff_exists.mp isSome
      exact bind_of_ok ((takes _ _ _).mpr ⟨isValid part rfl, rfl⟩) _

/-! ### Numbers in headers -/

theorem ofLittleEndian_ofNat {bytes : Bytes} {width : Nat} (length : bytes.length = width)
    (small : width ≤ 4) :
    Bytes.ofLittleEndian width (UInt32.ofNat (Bytes.littleEndian bytes)).toNat = bytes := by
  have bound := Bytes.littleEndian_lt bytes
  have widest : 256 ^ bytes.length ≤ 256 ^ 4 := Nat.pow_le_pow_right (by decide) (by omega)
  rw [UInt32.toNat_ofNat', Nat.mod_eq_of_lt (by omega), ← length,
    Bytes.ofLittleEndian_littleEndian]

theorem ofNat_littleEndian {n : UInt32} {width : Nat} (small : n.toNat < 256 ^ width) :
    UInt32.ofNat (Bytes.littleEndian (Bytes.ofLittleEndian width n.toNat)) = n := by
  rw [Bytes.littleEndian_ofLittleEndian, Nat.mod_eq_of_lt small, UInt32.ofNat_toNat]

theorem checksum_lt (bytes : Bytes) : (checksum bytes).toNat < 256 ^ 2 := by
  have bound : (checksum bytes).toNat ≤ (0xffff : UInt32).toNat := by
    rw [checksum, UInt32.toNat_and]
    exact Nat.and_le_right
  exact Nat.lt_succ_of_le bound

/-! ### Headers -/

/-- A header that can be written: the flags announce exactly the parts that are there, every part
can be written, and the length is that of the bytes. -/
structure WellFormed (header : Header) : Prop where
  method : header.method = deflateMethod
  reserved : hasFlag header.flags reservedFlags = false
  extra : header.extra.isSome = hasFlag header.flags extraFlag ∧
    ∀ extra ∈ header.extra, extra.length < 2 ^ 16
  name : header.name.isSome = hasFlag header.flags nameFlag ∧ ∀ name ∈ header.name, IsText name
  comment : header.comment.isSome = hasFlag header.flags commentFlag ∧
    ∀ comment ∈ header.comment, IsText comment
  length : header.length = header.encode.length

/-- The checksum of a header, if it has one. -/
def storedChecksum (header : Header) : Option Bytes :=
  if hasFlag header.flags checksumFlag then
    some (Bytes.ofLittleEndian 2 (checksum header.encodeCovered).toNat)
  else none

theorem encode_eq (header : Header) :
    header.encode = header.encodeCovered ++ header.storedChecksum.getD [] := by
  simp only [encode, storedChecksum]
  split
  · rfl
  · exact (List.append_nil _).symm

theorem take_covered (covered rest : Bytes) :
    (covered ++ rest).take ((covered ++ rest).length - rest.length) = covered := by
  rw [List.length_append, Nat.add_sub_cancel, List.take_left]

/-- The bytes that a header is read from: those that its checksum covers, the stored checksum if
there is one, and what follows. -/
structure ReadFrom (header : Header) (input : Bytes) (stored : Option Bytes) (rest : Bytes) :
    Prop where
  method : header.method = deflateMethod
  reserved : hasFlag header.flags reservedFlags = false
  extra : header.extra.isSome = hasFlag header.flags extraFlag ∧
    ∀ extra ∈ header.extra, extra.length < 2 ^ 16
  name : header.name.isSome = hasFlag header.flags nameFlag ∧ ∀ name ∈ header.name, IsText name
  comment : header.comment.isSome = hasFlag header.flags commentFlag ∧
    ∀ comment ∈ header.comment, IsText comment
  present : stored.isSome = hasFlag header.flags checksumFlag ∧ ∀ bytes ∈ stored, bytes.length = 2
  split : input = header.encodeCovered ++ ((stored.map id).getD [] ++ rest)
  number : ∀ bytes ∈ stored, UInt32.ofNat (Bytes.littleEndian bytes) = checksum header.encodeCovered
  length : header.length = input.length - rest.length

theorem readFrom_of_parse {input : Bytes} {header : Header} (parsed : parse input = .ok header) :
    ∃ stored rest, header.ReadFrom input stored rest := by
  unfold parse at parsed
  obtain ⟨⟨first, _⟩, taken, parsed⟩ := ok_of_bind parsed
  obtain ⟨-, firstAt⟩ := (takes_takeByte _ _ _).mp taken
  obtain ⟨⟨second, _⟩, taken, parsed⟩ := ok_of_bind parsed
  obtain ⟨-, secondAt⟩ := (takes_takeByte _ _ _).mp taken
  obtain ⟨isMagic, parsed⟩ := ok_of_guard parsed
  obtain ⟨⟨method, _⟩, taken, parsed⟩ := ok_of_bind parsed
  obtain ⟨-, methodAt⟩ := (takes_takeByte _ _ _).mp taken
  obtain ⟨isDeflate, parsed⟩ := ok_of_guard parsed
  obtain ⟨⟨flags, _⟩, taken, parsed⟩ := ok_of_bind parsed
  obtain ⟨-, flagsAt⟩ := (takes_takeByte _ _ _).mp taken
  obtain ⟨reserved, parsed⟩ := ok_of_guard parsed
  obtain ⟨⟨mtime, _⟩, taken, parsed⟩ := ok_of_bind parsed
  obtain ⟨four, mtimeAt⟩ := (takes_takeExactly 4 _ _ _).mp taken
  obtain ⟨⟨extraFlags, _⟩, taken, parsed⟩ := ok_of_bind parsed
  obtain ⟨-, extraFlagsAt⟩ := (takes_takeByte _ _ _).mp taken
  obtain ⟨⟨os, _⟩, taken, parsed⟩ := ok_of_bind parsed
  obtain ⟨-, osAt⟩ := (takes_takeByte _ _ _).mp taken
  obtain ⟨⟨extra, _⟩, taken, parsed⟩ := ok_of_bind parsed
  obtain ⟨extraValid, extraAt⟩ := (takes_takeExtra.optional _ _ _ _).mp taken
  obtain ⟨⟨name, _⟩, taken, parsed⟩ := ok_of_bind parsed
  obtain ⟨nameValid, nameAt⟩ := (takes_takeText.optional _ _ _ _).mp taken
  obtain ⟨⟨comment, between⟩, taken, parsed⟩ := ok_of_bind parsed
  obtain ⟨commentValid, commentAt⟩ := (takes_takeText.optional _ _ _ _).mp taken
  obtain ⟨⟨stored, rest⟩, taken, parsed⟩ := ok_of_bind parsed
  obtain ⟨storedValid, storedAt⟩ := ((takes_takeExactly 2).optional _ _ _ _).mp taken
  have found : header =
        { method, flags, extraFlags, os, extra, name, comment
          mtime := UInt32.ofNat (Bytes.littleEndian mtime)
          length := input.length - rest.length } ∧
      ∀ bytes ∈ stored, UInt32.ofNat (Bytes.littleEndian bytes) =
        checksum (input.take (input.length - between.length)) := by
    cases stored with
    | none =>
      cases parsed
      exact ⟨rfl, fun _ none => nomatch none⟩
    | some bytes =>
      obtain ⟨same, parsed⟩ := ok_of_guard parsed
      cases parsed
      exact ⟨rfl, fun _ among => Option.some.inj among ▸ Decidable.not_not.mp same⟩
  obtain ⟨shape, number⟩ := found
  obtain ⟨isFirst, isSecond⟩ : first = 0x1f ∧ second = 0x8b := by simpa [magic] using isMagic
  have split : input = header.encodeCovered ++ between := by
    simp only [shape, encodeCovered, ofLittleEndian_ofNat four (by decide), magic]
    rw [firstAt, secondAt, methodAt, flagsAt, mtimeAt, extraFlagsAt, osAt, extraAt, nameAt,
      commentAt, isFirst, isSecond]
    simp only [List.append_assoc, List.cons_append, List.nil_append, id]
    rfl
  rw [split, take_covered] at number
  refine ⟨stored, rest, ?_⟩
  subst shape
  exact ⟨Decidable.not_not.mp isDeflate, Bool.eq_false_iff.mpr reserved, extraValid, nameValid,
    commentValid, storedValid, storedAt ▸ split, number, rfl⟩

theorem parse_of_readFrom {header : Header} {input rest : Bytes} {stored : Option Bytes}
    (reads : header.ReadFrom input stored rest) : parse input = .ok header := by
  obtain ⟨between, betweenAt⟩ : ∃ between, between = (stored.map id).getD [] ++ rest := ⟨_, rfl⟩
  have split := reads.split
  rw [← betweenAt] at split
  have whole : input = [0x1f] ++ ([0x8b] ++ ([header.method] ++ ([header.flags] ++
      (Bytes.ofLittleEndian 4 header.mtime.toNat ++ ([header.extraFlags] ++ ([header.os] ++
        ((header.extra.map encodeExtra).getD [] ++ ((header.name.map encodeText).getD [] ++
          ((header.comment.map encodeText).getD [] ++ between))))))))) := by
    rw [split, encodeCovered, magic]
    simp only [List.append_assoc, List.cons_append, List.nil_append]
    rfl
  have covered : input.take (input.length - between.length) = header.encodeCovered := by
    rw [split, take_covered]
  unfold parse
  refine (bind_of_ok ((takes_takeByte _ _ _).mpr ⟨trivial, whole⟩) _).trans ?_
  refine (bind_of_ok ((takes_takeByte _ _ _).mpr ⟨trivial, rfl⟩) _).trans ?_
  refine (guard_of_not (not_not_intro rfl) _ _).trans ?_
  refine (bind_of_ok ((takes_takeByte _ _ _).mpr ⟨trivial, rfl⟩) _).trans ?_
  refine (guard_of_not (not_not_intro reads.method) _ _).trans ?_
  refine (bind_of_ok ((takes_takeByte _ _ _).mpr ⟨trivial, rfl⟩) _).trans ?_
  refine (guard_of_not (Bool.eq_false_iff.mp reads.reserved) _ _).trans ?_
  refine (bind_of_ok ((takes_takeExactly 4 _ _ _).mpr
    ⟨Bytes.length_ofLittleEndian 4 _, rfl⟩) _).trans ?_
  refine (bind_of_ok ((takes_takeByte _ _ _).mpr ⟨trivial, rfl⟩) _).trans ?_
  refine (bind_of_ok ((takes_takeByte _ _ _).mpr ⟨trivial, rfl⟩) _).trans ?_
  refine (bind_of_ok ((takes_takeExtra.optional _ _ _ _).mpr ⟨reads.extra, rfl⟩) _).trans ?_
  refine (bind_of_ok ((takes_takeText.optional _ _ _ _).mpr ⟨reads.name, rfl⟩) _).trans ?_
  refine (bind_of_ok ((takes_takeText.optional _ _ _ _).mpr ⟨reads.comment, rfl⟩) _).trans ?_
  refine (bind_of_ok (((takes_takeExactly 2).optional _ _ _ _).mpr ⟨reads.present, betweenAt⟩)
    _).trans ?_
  have shape : ({ method := header.method, flags := header.flags
                  mtime := UInt32.ofNat
                    (Bytes.littleEndian (Bytes.ofLittleEndian 4 header.mtime.toNat))
                  extraFlags := header.extraFlags, os := header.os, extra := header.extra
                  name := header.name, comment := header.comment
                  length := input.length - rest.length } : Header) = header := by
    rw [ofNat_littleEndian header.mtime.toNat_lt, ← reads.length]
  cases stored with
  | none => exact congrArg Except.ok shape
  | some bytes =>
    refine (guard_of_not (not_not_intro ?_) _ _).trans (congrArg Except.ok shape)
    rw [covered, reads.number bytes rfl]

section ReadFrom

variable {header : Header} {input rest : Bytes} {stored : Option Bytes}

theorem ReadFrom.storedChecksum_eq (reads : header.ReadFrom input stored rest) :
    header.storedChecksum = stored := by
  rw [storedChecksum, ← reads.present.1]
  cases stored with
  | none => rfl
  | some bytes =>
    have two : bytes.length = 2 := reads.present.2 bytes rfl
    rw [← reads.number bytes rfl, ofLittleEndian_ofNat two (by decide)]
    rfl

theorem ReadFrom.eq_encode_append (reads : header.ReadFrom input stored rest) :
    input = header.encode ++ rest := by
  rw [encode_eq, reads.storedChecksum_eq, reads.split, Option.map_id, List.append_assoc]
  rfl

theorem ReadFrom.wellFormed (reads : header.ReadFrom input stored rest) : header.WellFormed where
  method := reads.method
  reserved := reads.reserved
  extra := reads.extra
  name := reads.name
  comment := reads.comment
  length := by
    rw [reads.length, reads.eq_encode_append, List.length_append, Nat.add_sub_cancel]

theorem WellFormed.readFrom (wellFormed : header.WellFormed) (rest : Bytes) :
    header.ReadFrom (header.encode ++ rest) header.storedChecksum rest where
  method := wellFormed.method
  reserved := wellFormed.reserved
  extra := wellFormed.extra
  name := wellFormed.name
  comment := wellFormed.comment
  present := by
    rw [storedChecksum]
    cases hasFlag header.flags checksumFlag with
    | false => exact ⟨rfl, fun _ none => nomatch none⟩
    | true => exact ⟨rfl, fun _ among => Option.some.inj among ▸ Bytes.length_ofLittleEndian 2 _⟩
  split := by
    rw [encode_eq, Option.map_id, List.append_assoc]
    rfl
  number := by
    intro bytes among
    rw [storedChecksum] at among
    split at among
    · rw [← Option.some.inj among, ofNat_littleEndian (checksum_lt _)]
    · cases among
  length := by
    rw [wellFormed.length, List.length_append, Nat.add_sub_cancel]

end ReadFrom

/-- A header that is read is well-formed and was read from its bytes. -/
theorem wellFormed_of_parse {input : Bytes} {header : Header} (parsed : parse input = .ok header) :
    header.WellFormed ∧ header.encode <+: input := by
  obtain ⟨stored, rest, reads⟩ := readFrom_of_parse parsed
  exact ⟨reads.wellFormed, rest, reads.eq_encode_append.symm⟩

/-- A well-formed header is read from its bytes, whatever follows them. -/
theorem parse_encode_append {header : Header} (wellFormed : header.WellFormed) (rest : Bytes) :
    parse (header.encode ++ rest) = .ok header :=
  parse_of_readFrom (wellFormed.readFrom rest)

/-- **The headers that are read** are the well-formed ones, each from its own bytes. -/
theorem parse_eq_ok_iff {input : Bytes} {header : Header} :
    parse input = .ok header ↔ header.WellFormed ∧ header.encode <+: input := by
  constructor
  · exact wellFormed_of_parse
  · rintro ⟨wellFormed, rest, rfl⟩
    exact parse_encode_append wellFormed rest

/-- What follows a header does not change it. -/
theorem parse_append {head : Bytes} {header : Header} (parsed : parse head = .ok header)
    (rest : Bytes) : parse (head ++ rest) = .ok header := by
  obtain ⟨wellFormed, begins⟩ := wellFormed_of_parse parsed
  exact parse_eq_ok_iff.mpr ⟨wellFormed, begins.trans (List.prefix_append head rest)⟩

/-- The bytes of a header that is read are a header on their own. -/
theorem split_of_parse {input : Bytes} {header : Header} (parsed : parse input = .ok header) :
    ∃ head, input = head ++ input.drop header.length ∧ head.length = header.length ∧
      parse head = .ok header := by
  obtain ⟨wellFormed, rest, rfl⟩ := wellFormed_of_parse parsed
  refine ⟨header.encode, ?_, wellFormed.length.symm, ?_⟩
  · rw [wellFormed.length, List.drop_left]
  · exact parse_eq_ok_iff.mpr ⟨wellFormed, List.prefix_refl _⟩

end Header

end Gzip

end Inflate
