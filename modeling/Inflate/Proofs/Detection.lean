/-
**Finding the container.**

The two bytes that every gzip member begins with are no header of a zlib stream: they name a method that zlib
does not have. So no input is accepted in both containers, what is accepted in one is found to be in
it, and what is found to be in neither has a bad header in both.

* `Zlib.parse_of_magic`, `Gzip.parse_of_not_magic`: the header that each container turns down;
* `detect_cases`: what is found, by what the input begins with;
* `turnedDown_of_detect`: the other container turns down what is found;
* `decode_found`: decoding in the container found, beside decoding in each of the two.
-/

import Inflate.Proofs.Gzip.Beginning
import Inflate.Proofs.Gzip.Concatenation

namespace Inflate

variable {input : Bytes} {options : Options}

/-- The input is turned down for its header. -/
def TurnedDown (outcome : Except Failure Decoded) : Prop :=
  ∃ fault, outcome = .error (.badHeader fault)

theorem TurnedDown.ne_ok {outcome : Except Failure Decoded} (turnedDown : TurnedDown outcome)
    (decoded : Decoded) : outcome ≠ .ok decoded := by
  obtain ⟨fault, rfl⟩ := turnedDown
  nofun

/-! ### Zlib headers -/

namespace Zlib

/-- A gzip member is no zlib stream: its first byte names method 15. -/
theorem parse_of_magic (begins : Gzip.magic <+: input) :
    Header.parse input = .error (.badHeader (.unsupportedMethod 15)) := by
  obtain ⟨rest, rfl⟩ := begins
  rfl

/-- An input whose header cannot be read is not decoded. -/
theorem decode_of_parse {failure : Failure} (parsed : Header.parse input = .error failure) :
    decode input options = .error failure := by
  simp only [decode, attempt, parsed]

/-- A header that cannot be read, though it is there, is turned down. -/
theorem turnedDown_of_parse (two : 2 ≤ input.length) {failure : Failure}
    (parsed : Header.parse input = .error failure) : TurnedDown (decode input options) := by
  match input with
  | cmf :: flg :: rest =>
    simp only [Header.parse] at parsed
    cases read : Header.ofBytes cmf flg with
    | ok header => simp only [read, reduceCtorEq] at parsed
    | error fault =>
      have turned : Header.parse (cmf :: flg :: rest) = .error (.badHeader fault) := by
        simp only [Header.parse, read]
      exact ⟨fault, decode_of_parse turned⟩

end Zlib

/-! ### Gzip headers -/

namespace Gzip

/-- What does not begin like a gzip member is turned down by its first two bytes. -/
theorem parse_of_not_magic (two : 2 ≤ input.length) (other : ¬magic <+: input) :
    ∃ first second, Header.parse input = .error (.badHeader (.notGzip first second)) := by
  match input with
  | first :: second :: rest =>
    refine ⟨first, second, ?_⟩
    have differs : [first, second] ≠ magic := by
      rintro same
      exact other (same ▸ List.prefix_append [first, second] rest)
    have front : Header.takeByte (first :: second :: rest) = .ok (first, second :: rest) := rfl
    have next : Header.takeByte (second :: rest) = .ok (second, rest) := rfl
    unfold Header.parse
    rw [bind_of_ok front]
    simp only
    rw [bind_of_ok next]
    exact if_pos differs

/-- With no capacity asked for, an input whose header cannot be read is not decoded. -/
theorem decode_of_parse (unset : options.initialCapacity = none) {failure : Failure}
    (parsed : Header.parse input = .error failure) : decode input options = .error failure := by
  obtain ⟨buffer, reserved, -⟩ := Buffer.sound_seed unset input.length
  have front : decodeMember options.limit input buffer = .error failure := by
    rw [decodeMember_eq, parsed]
    rfl
  rw [decode_of_reserve reserved, outcome_walk, front]
  rfl

theorem turnedDown_of_not_magic (unset : options.initialCapacity = none) (two : 2 ≤ input.length)
    (other : ¬magic <+: input) : TurnedDown (decode input options) := by
  obtain ⟨first, second, parsed⟩ := parse_of_not_magic two other
  exact ⟨_, decode_of_parse unset parsed⟩

end Gzip

/-! ### What is found -/

/-- **What is found**: a gzip member, the header of a zlib stream, or neither. -/
theorem detect_cases (input : Bytes) :
    (Gzip.magic <+: input ∧ detect input = some .gzip) ∨
    (¬Gzip.magic <+: input ∧ detect input = some .zlib) ∨
    (¬Gzip.magic <+: input ∧ detect input = none ∧
      ∃ failure, Zlib.Header.parse input = .error failure) := by
  unfold detect
  simp only [List.isPrefixOf_iff_prefix]
  by_cases begins : Gzip.magic <+: input
  · exact Or.inl ⟨begins, if_pos begins⟩
  rw [if_neg begins]
  cases parsed : Zlib.Header.parse input with
  | ok header => exact Or.inr (Or.inl ⟨begins, rfl⟩)
  | error failure => exact Or.inr (Or.inr ⟨begins, rfl, failure, rfl⟩)

/-- **The other container turns down** what is found to be in one. -/
theorem turnedDown_of_detect (unset : options.initialCapacity = none) (two : 2 ≤ input.length)
    {format other : Format} (found : detect input = some format) (differs : other ≠ format) :
    TurnedDown (decode (some other) input options) := by
  rcases detect_cases input with ⟨begins, isGzip⟩ | ⟨begins, isZlib⟩ | ⟨-, isNone, -⟩
  · obtain rfl := Option.some.inj (isGzip.symm.trans found)
    cases other with
    | gzip => exact absurd rfl differs
    | zlib => exact ⟨_, Zlib.decode_of_parse (Zlib.parse_of_magic begins)⟩
  · obtain rfl := Option.some.inj (isZlib.symm.trans found)
    cases other with
    | zlib => exact absurd rfl differs
    | gzip => exact Gzip.turnedDown_of_not_magic unset two begins
  · cases isNone.symm.trans found

/-- Both containers turn down what is found to be in neither. -/
theorem turnedDown_of_detect_none (unset : options.initialCapacity = none) (two : 2 ≤ input.length)
    (found : detect input = none) (format : Format) :
    TurnedDown (decode (some format) input options) := by
  rcases detect_cases input with ⟨-, isGzip⟩ | ⟨-, isZlib⟩ | ⟨begins, -, failure, parsed⟩
  · cases isGzip.symm.trans found
  · cases isZlib.symm.trans found
  · cases format with
    | zlib => exact Zlib.turnedDown_of_parse two parsed
    | gzip => exact Gzip.turnedDown_of_not_magic unset two begins

/-- An input of less than two bytes is truncated in either container. -/
theorem decode_of_length_lt (unset : options.initialCapacity = none) (few : input.length < 2)
    (format : Format) : decode (some format) input options = .error .truncated := by
  have short : Zlib.Header.parse input = .error .truncated ∧
      Gzip.Header.parse input = .error .truncated := by
    match input with
    | [] => exact ⟨rfl, rfl⟩
    | [_] => exact ⟨rfl, rfl⟩
    | _ :: _ :: _ => simp only [List.length_cons] at few; omega
  cases format with
  | zlib => exact Zlib.decode_of_parse short.1
  | gzip => exact Gzip.decode_of_parse unset short.2

/-- Decoding in the container found, for an input that is long enough to have one. -/
theorem decode_none_eq (two : 2 ≤ input.length) :
    decode none input options =
      match detect input with
      | some format => decode (some format) input options
      | none => .error (.badHeader .unknownContainer) := by
  simp only [decode, attempt, attemptFound, if_neg (Nat.not_lt.mpr two)]
  cases detect input <;> rfl

/-- **Finding the container loses nothing and confuses nothing.** With no capacity asked for:

* no input is accepted in both containers;
* what is accepted in the container found is what is accepted in one of the two, with the same
  result;
* of two bytes or more, what is found decides: the outcome is that of one container, errors
  included, and the other one turns the input down for its header; or the container is unknown, and
  both turn it down for its header;
* fewer bytes are truncated, in the container found and in either. -/
theorem decode_found (input : Bytes) (options : Options) (unset : options.initialCapacity = none) :
    (∀ asZlib asGzip, decode (some .zlib) input options = .ok asZlib →
      decode (some .gzip) input options ≠ .ok asGzip) ∧
    (∀ decoded, decode none input options = .ok decoded ↔
      ∃ format, decode (some format) input options = .ok decoded) ∧
    (2 ≤ input.length →
      (∃ format, decode none input options = decode (some format) input options ∧
        ∀ other, other ≠ format →
          ∃ fault, decode (some other) input options = .error (.badHeader fault)) ∨
      (decode none input options = .error (.badHeader .unknownContainer) ∧
        ∀ format, ∃ fault, decode (some format) input options = .error (.badHeader fault))) ∧
    (input.length < 2 → decode none input options = .error .truncated ∧
      ∀ format, decode (some format) input options = .error .truncated) := by
  by_cases few : input.length < 2
  · have truncated := decode_of_length_lt unset few
    have alone : decode none input options = .error .truncated := by
      simp only [decode, attempt, attemptFound, if_pos few]
    refine ⟨?_, ?_, fun two => absurd few (Nat.not_lt.mpr two), fun _ => ⟨alone, truncated⟩⟩
    · intro asZlib _ accepted
      cases accepted.symm.trans (truncated .zlib)
    · intro decoded
      constructor
      · intro accepted
        cases accepted.symm.trans alone
      · rintro ⟨format, accepted⟩
        cases accepted.symm.trans (truncated format)
  have two := Nat.not_lt.mp few
  have alone : decode none input options = _ := decode_none_eq two
  cases found : detect input with
  | none =>
    rw [found] at alone
    have turnedDown := turnedDown_of_detect_none unset two found
    refine ⟨?_, ?_, fun _ => Or.inr ⟨alone, turnedDown⟩, fun less => absurd less few⟩
    · intro asZlib _ accepted
      exact absurd accepted ((turnedDown .zlib).ne_ok asZlib)
    · intro decoded
      constructor
      · intro accepted
        cases accepted.symm.trans alone
      · rintro ⟨format, accepted⟩
        exact absurd accepted ((turnedDown format).ne_ok decoded)
  | some format =>
    rw [found] at alone
    have rivals (other : Format) : other ≠ format → TurnedDown (decode (some other) input options) :=
      turnedDown_of_detect unset two found
    refine ⟨?_, ?_, fun _ => Or.inl ⟨format, alone, rivals⟩, fun less => absurd less few⟩
    · intro asZlib asGzip first second
      cases format with
      | zlib => exact (rivals .gzip nofun).ne_ok asGzip second
      | gzip => exact (rivals .zlib nofun).ne_ok asZlib first
    · intro decoded
      constructor
      · exact fun accepted => ⟨format, alone.symm.trans accepted⟩
      · rintro ⟨other, accepted⟩
        by_cases same : other = format
        · exact alone.trans (same ▸ accepted)
        · exact absurd accepted ((rivals other same).ne_ok decoded)

/-- A gzip file of one letter, two letters that begin neither container, and one byte. -/
theorem decode_found_letter :
    ({} : Options).initialCapacity = none ∧
      (∃ decoded, decode none Gzip.letter.bytes {} = .ok decoded ∧ decoded.data = [0x61]) ∧
      (∃ fault, decode (some .zlib) Gzip.letter.bytes {} = .error (.badHeader fault)) ∧
      decode none [0x68, 0x69] {} = .error (.badHeader .unknownContainer) ∧
      decode none [0x1f] {} = .error .truncated := by
  have unset : ({} : Options).initialCapacity = none := rfl
  have small : Gzip.letter.output.length < exhausting := by decide
  have accepted : decode (some .gzip) Gzip.letter.bytes {} =
      .ok (Gzip.summary Gzip.letter.bytes [Gzip.letter]) :=
    Gzip.accepts_written Gzip.wellFormed_letter small
  obtain ⟨-, same, decides, -⟩ := decode_found Gzip.letter.bytes {} unset
  have found := (same _).mpr ⟨.gzip, accepted⟩
  have refused : ∃ fault, decode (some .zlib) Gzip.letter.bytes {} = .error (.badHeader fault) := by
    rcases decides (by rw [Gzip.bytes_letter]; decide) with ⟨format, -, rivals⟩ | ⟨alone, -⟩
    · cases format with
      | gzip => exact rivals .zlib nofun
      | zlib =>
        obtain ⟨fault, refused⟩ := rivals .gzip nofun
        cases accepted.symm.trans refused
    · cases found.symm.trans alone
  have unknown : decode none [0x68, 0x69] {} = .error (.badHeader .unknownContainer) :=
    decode_none_eq (by decide)
  have short := ((decode_found [0x1f] {} unset).2.2.2 (by decide)).1
  exact ⟨unset, ⟨_, found, rfl⟩, refused, unknown, short⟩

end Inflate
