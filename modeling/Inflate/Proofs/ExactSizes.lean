/-
**Sizes are exact.**

Where a size in a text begins and ends, and what it says, is a matter of the text alone: as many digits as
there are, then the letter of a unit if one is next, then an `i` if one is next and a `B` if one is next. The
number is the one that the digits write by their places, times the unit. What is read is this number,
or nothing if 64 bits do not hold it.

* `placeValue`: the number that digits write by their places; `decimalValue_eq`: it is the one that is read;
* `Denotes`: the size at the front of a text, and what follows it;
* `readSizeChars_eq_some_iff`: what is read of a list of characters;
* `readSize_exact`: what is read is exact, at the front of a text and of a whole one.
-/

import Mathlib
import Inflate.CommandLine.Size
import Inflate.Text.Digits

namespace Inflate

namespace CommandLine

/-! ### Digits -/

/-- The number that a list of decimal digits writes: a digit counts for as many powers of ten as there
are digits behind it. -/
def placeValue : List Char → Nat
  | [] => 0
  | digit :: rest => (digit.toNat - '0'.toNat) * 10 ^ rest.length + placeValue rest

/-- Reading digit by digit gives every digit the value of its place. -/
theorem decimalValue_eq (digits : List Char) : decimalValue digits = placeValue digits := by
  have onward : ∀ value : Nat,
      Nat.ofDigitChars 10 digits value = value * 10 ^ digits.length + placeValue digits := by
    induction digits with
    | nil => intro value; simp [placeValue, Nat.ofDigitChars_nil]
    | cons digit rest ih =>
      intro value
      rw [Nat.ofDigitChars_cons, ih, placeValue, List.length_cons, Nat.pow_succ]
      ring
  show Nat.ofDigitChars 10 digits 0 = placeValue digits
  rw [onward, Nat.zero_mul, Nat.zero_add]

theorem fits_eq_some_iff {n value : Nat} : fits n = some value ↔ n = value ∧ value < 2 ^ 64 := by
  unfold fits
  split
  · next small =>
    rw [Option.some_inj]
    exact ⟨fun same => ⟨same, same ▸ small⟩, And.left⟩
  · next large =>
    refine ⟨nofun, ?_⟩
    rintro ⟨rfl, small⟩
    exact absurd small large

/-! ### Units -/

/-- A part of a text in front of the rest of it: one character, or nothing if that is not next. -/
inductive OneIfNext (c : Char) : List Char → List Char → Prop where
  | one (rest : List Char) : OneIfNext c [c] rest
  | nothing {rest : List Char} (other : rest.head? ≠ some c) : OneIfNext c [] rest

/-- The letters of units, with the powers of 1024 that they stand for. -/
def unitLetters : List (Char × Nat) := [('K', 1), ('M', 2), ('G', 3)]

/-- The unit in front of the rest of a text, with its power of 1024: nothing, if the letter of a unit is not
next, and otherwise that letter and what may follow it. -/
inductive UnitAt : Nat → List Char → List Char → Prop where
  | nothing {rest : List Char} (other : ∀ c ∈ rest.head?, ∀ power, (c, power) ∉ unitLetters) :
    UnitAt 0 [] rest
  | letter {c : Char} {power : Nat} {binary bytes rest : List Char} (named : (c, power) ∈ unitLetters)
    (first : OneIfNext 'i' binary (bytes ++ rest)) (second : OneIfNext 'B' bytes rest) :
    UnitAt power (c :: (binary ++ bytes)) rest

/-- The size at the front of a text, whatever number it is, and what follows it. -/
inductive Denotes : String → Nat → String → Prop where
  | size {power : Nat} {digits unit rest : List Char} (nonempty : digits ≠ [])
    (decimal : ∀ c ∈ digits, c.isDigit = true)
    (maximal : ∀ c ∈ (unit ++ rest).head?, c.isDigit = false) (unitAt : UnitAt power unit rest) :
    Denotes (String.ofList (digits ++ (unit ++ rest))) (placeValue digits * 1024 ^ power)
      (String.ofList rest)

theorem dropChar_eq_iff {c : Char} {chars rest : List Char} :
    dropChar c chars = rest ↔ ∃ part, OneIfNext c part rest ∧ chars = part ++ rest := by
  constructor
  · rintro rfl
    rcases chars with _ | ⟨first, others⟩
    · exact ⟨[], .nothing nofun, rfl⟩
    by_cases same : first = c
    · rw [dropChar, if_pos same]
      exact ⟨[c], .one others, congrArg (· :: others) same⟩
    · rw [dropChar, if_neg same]
      exact ⟨[], .nothing fun next => same (Option.some_inj.mp next), rfl⟩
  · rintro ⟨part, next, rfl⟩
    cases next with
    | one rest => exact if_pos rfl
    | nothing other =>
      rcases rest with _ | ⟨first, others⟩
      · rfl
      · exact if_neg fun same => other (congrArg some same)

theorem unitPower_eq_some_iff {c : Char} {power : Nat} :
    unitPower c = some power ↔ (c, power) ∈ unitLetters := by
  simp only [unitLetters, List.mem_cons, Prod.mk.injEq, List.not_mem_nil, or_false]
  unfold unitPower
  split <;> simp_all [eq_comm]

/-- The power of 1024 that is read behind the digits, and what follows its unit. -/
def unitOf : List Char → Nat × List Char
  | [] => (0, [])
  | c :: others =>
    match unitPower c with
    | none => (0, c :: others)
    | some power => (power, dropChar 'B' (dropChar 'i' others))

/-- **The unit that is read** is the one that is next. -/
theorem unitOf_eq_iff {chars rest : List Char} {power : Nat} :
    unitOf chars = (power, rest) ↔ ∃ unit, UnitAt power unit rest ∧ chars = unit ++ rest := by
  constructor
  · intro read
    rcases chars with _ | ⟨c, others⟩
    · cases read
      exact ⟨[], .nothing nofun, rfl⟩
    simp only [unitOf] at read
    split at read
    · next unnamed =>
      cases read
      refine ⟨[], .nothing ?_, rfl⟩
      rintro _ ⟨rfl⟩ power named
      cases unnamed.symm.trans (unitPower_eq_some_iff.mpr named)
    · next named =>
      obtain ⟨rfl, dropped⟩ := Prod.mk.inj read
      obtain ⟨bytes, second, split⟩ := dropChar_eq_iff.mp dropped
      obtain ⟨binary, first, rfl⟩ := dropChar_eq_iff.mp split
      refine ⟨c :: (binary ++ bytes), .letter (unitPower_eq_some_iff.mp named) first second, ?_⟩
      rw [List.cons_append, List.append_assoc]
  · rintro ⟨unit, unitAt, rfl⟩
    cases unitAt with
    | nothing other =>
      rcases rest with _ | ⟨c, others⟩
      · rfl
      have unnamed : unitPower c = none := by
        refine Option.eq_none_iff_forall_ne_some.mpr fun power named => ?_
        exact other c rfl power (unitPower_eq_some_iff.mp named)
      show unitOf (c :: others) = _
      simp only [unitOf, unnamed]
    | @letter c _ binary bytes _ named first second =>
      have afterFirst : dropChar 'i' (binary ++ bytes ++ rest) = bytes ++ rest :=
        dropChar_eq_iff.mpr ⟨binary, first, List.append_assoc _ _ _⟩
      have afterSecond : dropChar 'B' (bytes ++ rest) = rest :=
        dropChar_eq_iff.mpr ⟨bytes, second, rfl⟩
      show unitOf (c :: (binary ++ bytes ++ rest)) = _
      simp only [unitOf, unitPower_eq_some_iff.mpr named, afterFirst, afterSecond]

/-! ### Sizes -/

/-- A number that 64 bits do not hold is not held in a larger unit either, so two checks are one. -/
theorem fits_bind_scaled (value : Nat) {unit : Nat} (positive : 0 < unit) :
    ((fits value).bind fun kept => fits (kept * unit)) = fits (value * unit) := by
  have enlarges : value ≤ value * unit := Nat.le_mul_of_pos_right _ positive
  by_cases small : value < 2 ^ 64
  · rw [fits_eq_some_iff.mpr ⟨rfl, small⟩, Option.bind_some]
  · have kept : fits value = none := if_neg small
    have scaled : fits (value * unit) = none :=
      if_neg fun less => small (Nat.lt_of_le_of_lt enlarges less)
    rw [kept, scaled, Option.bind_none]

/-- What is read of a list of characters: the number of its digits in the unit behind them. -/
theorem readSizeChars_eq (chars : List Char) :
    readSizeChars chars =
      if chars.takeWhile Char.isDigit = [] then none
      else (fits (placeValue (chars.takeWhile Char.isDigit) *
          1024 ^ (unitOf (chars.dropWhile Char.isDigit)).1)).map
        fun value => (value, (unitOf (chars.dropWhile Char.isDigit)).2) := by
  unfold readSizeChars
  simp only [List.isEmpty_iff, decimalValue_eq]
  generalize placeValue (chars.takeWhile Char.isDigit) = value
  split
  · rfl
  cases chars.dropWhile Char.isDigit with
  | nil =>
    show (fits value).bind _ = (fits (value * 1)).map _
    rw [Nat.mul_one]
    cases fits value <;> rfl
  | cons c others =>
    cases named : unitPower c with
    | none =>
      simp only [unitOf, named, Nat.pow_zero, Nat.mul_one]
      cases fits value <;> rfl
    | some power =>
      have positive : 0 < 1024 ^ power := Nat.pow_pos (by decide)
      simp only [unitOf, named, ← fits_bind_scaled value positive]
      cases fits value with
      | none => rfl
      | some kept =>
        show (fits (kept * 1024 ^ power)).bind _ = (fits (kept * 1024 ^ power)).map _
        cases fits (kept * 1024 ^ power) <;> rfl

theorem takeWhile_isDigit {digits rest : List Char} (decimal : ∀ c ∈ digits, c.isDigit = true)
    (maximal : ∀ c ∈ rest.head?, c.isDigit = false) :
    (digits ++ rest).takeWhile Char.isDigit = digits ∧
      (digits ++ rest).dropWhile Char.isDigit = rest := by
  rw [List.takeWhile_append_of_pos decimal, List.dropWhile_append_of_pos decimal]
  rcases rest with _ | ⟨c, others⟩
  · simp
  · simp [maximal c rfl]

/-- A text that begins with a digit denotes one size, the one that is found by its longest run of digits. -/
theorem denotes_iff {text rest : String} {value : Nat} :
    Denotes text value rest ↔ text.toList.takeWhile Char.isDigit ≠ [] ∧
      value = placeValue (text.toList.takeWhile Char.isDigit) *
        1024 ^ (unitOf (text.toList.dropWhile Char.isDigit)).1 ∧
      rest = String.ofList (unitOf (text.toList.dropWhile Char.isDigit)).2 := by
  constructor
  · rintro ⟨nonempty, decimal, maximal, unitAt⟩
    obtain ⟨taken, dropped⟩ := takeWhile_isDigit decimal maximal
    rw [String.toList_ofList, taken, dropped, unitOf_eq_iff.mpr ⟨_, unitAt, rfl⟩]
    exact ⟨nonempty, rfl, rfl⟩
  · rintro ⟨nonempty, rfl, rfl⟩
    obtain ⟨unit, unitAt, behind⟩ :=
      unitOf_eq_iff.mp (Prod.eta (unitOf (text.toList.dropWhile Char.isDigit))).symm
    have decimal : ∀ c ∈ text.toList.takeWhile Char.isDigit, c.isDigit = true :=
      List.all_eq_true.mp List.all_takeWhile
    have maximal : ∀ c ∈ (text.toList.dropWhile Char.isDigit).head?, c.isDigit = false := by
      intro c next
      have stops := List.head?_dropWhile_not Char.isDigit text.toList
      rwa [next] at stops
    have denotes := Denotes.size nonempty decimal (behind ▸ maximal) unitAt
    rwa [← behind, List.takeWhile_append_dropWhile, String.ofList_toList] at denotes

/-- A text denotes one size only. -/
theorem Denotes.unique {text rest other : String} {value exact : Nat}
    (denotes : Denotes text value rest) (again : Denotes text exact other) :
    exact = value ∧ other = rest := by
  obtain ⟨-, rfl, rfl⟩ := denotes_iff.mp denotes
  exact (denotes_iff.mp again).2

/-- **What is read at the front of a text** is the size that it denotes, if 64 bits hold it. -/
theorem readSize_eq_some_iff {text rest : String} {value : Nat} :
    readSize text = some (value, rest) ↔ Denotes text value rest ∧ value < 2 ^ 64 := by
  rw [readSize, readSizeChars_eq, denotes_iff]
  by_cases empty : text.toList.takeWhile Char.isDigit = []
  · rw [if_pos empty]
    exact ⟨nofun, fun denotes => absurd empty denotes.1.1⟩
  rw [if_neg empty, Option.map_map, Option.map_eq_some_iff]
  constructor
  · rintro ⟨kept, fitting, same⟩
    obtain ⟨rfl, small⟩ := fits_eq_some_iff.mp fitting
    cases same
    exact ⟨⟨empty, rfl, rfl⟩, small⟩
  · rintro ⟨⟨-, rfl, rfl⟩, small⟩
    exact ⟨_, fits_eq_some_iff.mpr ⟨rfl, small⟩, rfl⟩

/-- A whole text is read as the size that it denotes, if nothing follows it and 64 bits hold it. -/
theorem parseSize_eq_ok_iff {text : String} {value : Nat} :
    parseSize text = .ok value ↔ Denotes text value "" ∧ value < 2 ^ 64 := by
  rw [← readSize_eq_some_iff, parseSize]
  cases readSize text with
  | none => exact ⟨nofun, nofun⟩
  | some found =>
    obtain ⟨read, rest⟩ := found
    simp only [Option.some_inj, Prod.mk.injEq]
    split
    · next last => rw [Except.ok.injEq, and_iff_left last]
    · next more => exact ⟨nofun, fun same => absurd same.2 more⟩

/-- The decimal text of a number denotes that number. -/
theorem denotes_decimal (n : Nat) : Denotes (Text.decimal n) n "" := by
  have decimal : ∀ c ∈ Nat.toDigits 10 n, c.isDigit = true := fun c member =>
    Nat.isDigit_of_mem_toDigits (by decide) (by decide) member
  have alone : ∀ c ∈ ([] : List Char).head?, c.isDigit = false := by simp
  have nothing : UnitAt 0 [] [] := .nothing (by simp)
  have denotes := Denotes.size Nat.toDigits_ne_nil decimal alone nothing
  have value : placeValue (Nat.toDigits 10 n) * 1024 ^ 0 = n := by
    rw [← decimalValue_eq, Nat.pow_zero, Nat.mul_one]
    exact Nat.ofDigitChars_ten_toDigits
  rw [value, List.append_nil, List.append_nil] at denotes
  exact denotes

/-- **Sizes are read exactly.** The size at the front of a text is read, with what follows it, if 64 bits hold
it, and otherwise nothing is read; a whole text is a size if nothing follows. What is read is the one number
that the text denotes, and every number of 64 bits is read from its decimal text. -/
theorem readSize_exact :
    (∀ text value rest,
      readSize text = some (value, rest) ↔ Denotes text value rest ∧ value < 2 ^ 64) ∧
    (∀ text value, parseSize text = .ok value ↔ Denotes text value "" ∧ value < 2 ^ 64) ∧
    (∀ text value rest exact other, readSize text = some (value, rest) → Denotes text exact other →
      exact = value ∧ other = rest) ∧
    ∀ n < 2 ^ 64, parseSize (Text.decimal n) = .ok n := by
  refine ⟨fun text value rest => readSize_eq_some_iff, fun text value => parseSize_eq_ok_iff, ?_, ?_⟩
  · intro text value rest exact other read again
    exact (readSize_eq_some_iff.mp read).1.unique again
  · intro n small
    exact parseSize_eq_ok_iff.mpr ⟨denotes_decimal n, small⟩

/-- The greatest count of KiB within 64 bits, with a letter beyond ASCII behind it; the least count of GiB
that 64 bits do not hold; and the greatest number of 64 bits. -/
theorem readSize_exact_greatest :
    readSize "18014398509481983KiBé" = some (18446744073709550592, "é") ∧
      Denotes "18014398509481983KiBé" 18446744073709550592 "é" ∧
      Denotes "17179869184G" (2 ^ 64) "" ∧ readSize "17179869184G" = none ∧
      18446744073709551615 < 2 ^ 64 ∧
      parseSize (Text.decimal 18446744073709551615) = .ok 18446744073709551615 := by
  obtain ⟨front, -, unique, decimal⟩ := readSize_exact
  have read : readSize "18014398509481983KiBé" = some (18446744073709550592, "é") := by decide
  have exact : Denotes "18014398509481983KiBé" 18446744073709550592 "é" := ((front _ _ _).mp read).1
  have large : Denotes "17179869184G" (2 ^ 64) "" :=
    denotes_iff.mpr ⟨by decide, by decide, by decide⟩
  have refused : readSize "17179869184G" = none := by
    refine Option.eq_none_iff_forall_ne_some.mpr ?_
    rintro ⟨value, rest⟩ found
    have same := (unique _ _ _ _ _ found large).1
    have small := ((front _ _ _).mp found).2
    omega
  exact ⟨read, exact, large, refused, by decide, decimal _ (by decide)⟩

end CommandLine

end Inflate
