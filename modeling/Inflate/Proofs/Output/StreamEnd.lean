/-
**Where a stream ends.**

Container formats put bytes of their own behind a stream, and find them by the place where its decoder
stopped. So that place has to be a matter of the stream alone: it may not move with what follows, and no
shorter part of the stream may pass for a stream.

* `Inflater.inflateInto`: decodes one stream into a buffer and counts its bytes, for a bare stream and
  for one with the header and the checksum of zlib;
* `decodeBody_eq`, `decodeInto_bare_eq`: it is what the containers decode with;
* `split_of_decodeInto`: the bytes of a stream, and what more or fewer of them give;
* `inflateInto_stable`: the end of a stream is found exactly, and the verdicts are stable.
-/

import Inflate.Proofs.Output.Continuation
import Inflate.Proofs.Zlib.Verdict

namespace Inflate

open Deflate (Decoder Halt inflate)

/-! ### Decoders that count -/

/-- What a decoder expects: a bare stream, or one with the header and the checksum of zlib. -/
inductive Inflater where
  | raw
  | zlib
deriving DecidableEq, Repr

/-- The outcome of decoding, with the count of bytes that the stream takes of its input. -/
def counted (input : Bytes) (outcome : Except Failure (Bytes × Buffer)) :
    Except Failure (Nat × Buffer) := do
  let (rest, filled) ← outcome
  .ok (input.length - rest.length, filled)

/-- Decodes the stream at the front of the input into a buffer, behind what that holds. Gives the count
of bytes of the stream and the buffer. -/
def Inflater.inflateInto (inflater : Inflater) (limit : Nat) (input : Bytes) (buffer : Buffer) :
    Except Failure (Nat × Buffer) :=
  match inflater with
  | .raw => counted input (decodeInto .bare limit input buffer)
  | .zlib =>
    match Zlib.Header.parse input with
    | .ok _ => counted input (decodeInto .checked limit (input.drop Zlib.Header.length) buffer)
    | .error .truncated => do
      let roomy ← buffer.makeRoom limit
      let _ ← roomy.checkLimit limit
      .error .truncated
    | .error _ => do
      let _ ← buffer.makeRoom limit
      .error (.corrupt Failure.deflateDetail)

theorem counted_eq_ok_iff {input : Bytes} {outcome : Except Failure (Bytes × Buffer)} {count : Nat}
    {filled : Buffer} :
    counted input outcome = .ok (count, filled) ↔
      ∃ rest, outcome = .ok (rest, filled) ∧ count = input.length - rest.length := by
  cases outcome with
  | error failure =>
    constructor
    · nofun
    · rintro ⟨_, same, _⟩
      cases same
  | ok decoded =>
    constructor
    · intro same
      cases same
      exact ⟨_, rfl, rfl⟩
    · rintro ⟨rest, same, rfl⟩
      cases same
      rfl

theorem counted_eq_error_iff {input : Bytes} {outcome : Except Failure (Bytes × Buffer)}
    {failure : Failure} : counted input outcome = .error failure ↔ outcome = .error failure := by
  cases outcome with
  | error other =>
    constructor
    · intro same
      cases same
      rfl
    · intro same
      cases same
      rfl
  | ok decoded => exact ⟨nofun, nofun⟩

/-! ### The bytes of a stream -/

section Streams

variable {frame : Frame} {limit : Nat} {buffer : Buffer}

/-- The bytes after a stream end the input. -/
theorem suffix_of_verdict {input rest : Bytes} (complete : frame.verdict input = .complete rest) :
    rest <:+ input := by
  unfold Frame.verdict Frame.close at complete
  split at complete
  · next left halted =>
    split at complete
    · cases complete
    · split at complete
      · cases complete
        exact (List.drop_suffix 4 left).trans (Deflate.suffix_of_inflate halted)
      · cases complete
  · exact Deflate.suffix_of_inflate complete

/-- **The bytes of a stream** are decoded in the same way whatever follows them, and no shorter part of
them is a stream. -/
theorem split_of_decodeInto (sound : buffer.Sound) {input rest : Bytes} {filled : Buffer}
    (decoded : decodeInto frame limit input buffer = .ok (rest, filled)) :
    ∃ front, input = front ++ rest ∧
      (∀ more, decodeInto frame limit (front ++ more) buffer = .ok (more, filled)) ∧
      ∀ n < front.length, decodeInto frame limit (front.take n) buffer = .error .truncated := by
  have delivered := decodeInto_spec frame limit input sound
  rw [decoded] at delivered
  obtain ⟨front, rfl⟩ := suffix_of_verdict delivered.of_ok.1
  have alone : decodeInto frame limit front buffer = .ok ([], filled) := by
    have continues := continues_decodeInto frame limit front sound rest
    rw [decoded] at continues
    rcases continues.of_whole with ⟨left, same, complete⟩ | ⟨less, -⟩
    · rw [complete, List.self_eq_append_left.mp same]
    · exact absurd less (Nat.lt_irrefl _)
  refine ⟨front, rfl, fun more => ?_, fun n few => ?_⟩
  · have continues := continues_decodeInto frame limit front sound more
    rw [alone] at continues
    exact continues.of_complete
  · have continues := continues_decodeInto frame limit (front.take n) sound (front.drop n)
    rw [List.take_append_drop, alone] at continues
    rcases continues.of_whole with ⟨left, same, -⟩ | ⟨-, short⟩
    · have nothing := (List.append_eq_nil_iff.mp same.symm).2
      exact absurd (List.drop_eq_nil_iff.mp nothing) (Nat.not_le.mpr few)
    · exact short

/-- Decoding that succeeds has found room for a byte, and has kept to the limit before it. -/
theorem roomy_of_decodeInto (sound : buffer.Sound) {input : Bytes} {result : Bytes × Buffer}
    (decoded : decodeInto frame limit input buffer = .ok result) :
    ∃ roomy, buffer.makeRoom limit = .ok roomy ∧ roomy.checkLimit limit = .ok roomy := by
  have under := size_le_of_decodeOn sound decoded
  cases made : buffer.makeRoom limit with
  | error failure => cases (decodeOn_of_error made).symm.trans decoded
  | ok roomy =>
    have same := ((buffer.makeRoom_spec limit sound).of_ok made).1
    exact ⟨roomy, rfl, Buffer.checkLimit_of_le (by rwa [Buffer.size, same])⟩

/-- Decoding into a buffer only adds to it. -/
theorem prefix_of_decodeInto (sound : buffer.Sound) {input rest : Bytes} {filled : Buffer}
    (decoded : decodeInto frame limit input buffer = .ok (rest, filled)) :
    buffer.bytes.toList <+: filled.bytes.toList ∧ filled.Sound := by
  have delivered := decodeInto_spec frame limit input sound
  rw [decoded] at delivered
  obtain ⟨-, holds⟩ := delivered.of_ok
  rw [holds.contents]
  exact ⟨List.prefix_append _ _, holds.sound⟩

/-- The decoder of bare streams is the one that counts. -/
theorem decodeInto_bare_eq (sound : buffer.Sound) (input : Bytes) :
    decodeInto .bare limit input buffer = (do
      let (count, filled) ← Inflater.raw.inflateInto limit input buffer
      .ok (input.drop count, filled)) := by
  unfold Inflater.inflateInto
  cases decoded : decodeInto .bare limit input buffer with
  | error failure => rfl
  | ok result =>
    obtain ⟨rest, filled⟩ := result
    obtain ⟨front, rfl, -, -⟩ := split_of_decodeInto sound decoded
    show _ = Except.ok ((front ++ rest).drop ((front ++ rest).length - rest.length), filled)
    rw [List.length_append, Nat.add_sub_cancel, List.drop_left]

end Streams

namespace Zlib

/-- The body of a zlib stream and its trailer are decoded together with its header. -/
theorem decodeBody_eq (options : Options) {input : Bytes} {header : Header}
    (parsed : Header.parse input = .ok header) :
    decodeBody input options = (do
      let buffer ← Buffer.reserve (seedCapacity input.length options)
      match Inflater.zlib.inflateInto options.limit input buffer with
      | .error (.corrupt detail) => .error (classifyFault input options detail)
      | .error failure => .error failure
      | .ok (streamLength, buffer) =>
        match trailerAt? input streamLength with
        | some checksum => .ok (buffer.bytes.toList, checksum, input.length - streamLength)
        | none => .error .truncated) := by
  unfold decodeBody Inflater.inflateInto
  simp only [parsed]
  congr 1
  funext buffer
  cases decoded : decodeInto .checked options.limit (input.drop Header.length) buffer with
  | error failure => cases failure <;> rfl
  | ok result =>
    obtain ⟨rest, filled⟩ := result
    have fewer := length_le_of_decodeInto decoded
    have within : rest.length ≤ input.length := by
      rw [List.length_drop] at fewer
      omega
    let closed (trailing : Nat) : Except Failure (Bytes × UInt32 × Nat) :=
      match trailerAt? input (input.length - rest.length) with
      | some checksum => .ok (filled.bytes.toList, checksum, trailing)
      | none => .error .truncated
    show closed rest.length = closed (input.length - (input.length - rest.length))
    rw [Nat.sub_sub_self within]

end Zlib

/-! ### Stable verdicts -/

section Verdicts

variable {limit : Nat} {buffer : Buffer}

/-- What a header says does not change with what follows, unless it is too short. -/
theorem Zlib.Header.parse_append {input : Bytes} (long : Zlib.Header.parse input ≠ .error .truncated)
    (more : Bytes) : Zlib.Header.parse (input ++ more) = Zlib.Header.parse input := by
  match input with
  | [] | [_] => exact absurd rfl long
  | _ :: _ :: _ => rfl

/-- Behind a valid header the body is decoded with its checksum. -/
theorem inflateInto_zlib {cmf flg : UInt8} (valid : Zlib.Header.Valid cmf flg) (limit : Nat)
    (body : Bytes) (buffer : Buffer) :
    Inflater.zlib.inflateInto limit (cmf :: flg :: body) buffer =
      counted (cmf :: flg :: body) (decodeInto .checked limit body buffer) := by
  simp only [Inflater.inflateInto, Zlib.Header.parse_of_valid valid]
  rfl

/-- What is decoded with a header begins with one that is accepted. -/
theorem headed_of_inflateInto {input : Bytes} {result : Nat × Buffer}
    (decoded : Inflater.zlib.inflateInto limit input buffer = .ok result) :
    ∃ cmf flg body, input = cmf :: flg :: body ∧ Zlib.Header.Valid cmf flg := by
  simp only [Inflater.inflateInto] at decoded
  split at decoded
  · next header parsed =>
    match input with
    | [] | [_] => cases parsed
    | cmf :: flg :: body =>
      exact ⟨cmf, flg, body, rfl, (Zlib.Header.isOk_parse_iff body).mp ⟨header, parsed⟩⟩
  · obtain ⟨_, _, decoded⟩ := ok_of_bind decoded
    obtain ⟨_, _, decoded⟩ := ok_of_bind decoded
    cases decoded
  · obtain ⟨_, _, decoded⟩ := ok_of_bind decoded
    cases decoded

/-- The stream that was decoded stands at the front of the input, behind its header if it has one. -/
theorem split_of_inflateInto (sound : buffer.Sound) {inflater : Inflater} {input : Bytes} {count : Nat}
    {filled : Buffer} (decoded : inflater.inflateInto limit input buffer = .ok (count, filled)) :
    ∃ front rest, input = front ++ rest ∧ front.length = count ∧
      (∀ more, inflater.inflateInto limit (front ++ more) buffer = .ok (count, filled)) ∧
      (∀ n < count, inflater.inflateInto limit (front.take n) buffer = .error .truncated) ∧
      buffer.bytes.toList <+: filled.bytes.toList ∧ filled.Sound := by
  cases inflater with
  | raw =>
    obtain ⟨rest, found, rfl⟩ := counted_eq_ok_iff.mp decoded
    obtain ⟨front, rfl, further, shorter⟩ := split_of_decodeInto sound found
    have size : (front ++ rest).length - rest.length = front.length := by
      rw [List.length_append, Nat.add_sub_cancel]
    refine ⟨front, rest, rfl, size.symm, fun more => ?_, fun n few => ?_,
      prefix_of_decodeInto sound found⟩
    · refine counted_eq_ok_iff.mpr ⟨more, further more, ?_⟩
      rw [size, List.length_append, Nat.add_sub_cancel]
    · exact counted_eq_error_iff.mpr (shorter n (size ▸ few))
  | zlib =>
    obtain ⟨cmf, flg, body, rfl, valid⟩ := headed_of_inflateInto decoded
    rw [inflateInto_zlib valid] at decoded
    obtain ⟨rest, found, rfl⟩ := counted_eq_ok_iff.mp decoded
    obtain ⟨front, rfl, further, shorter⟩ := split_of_decodeInto sound found
    have size : (cmf :: flg :: (front ++ rest)).length - rest.length = front.length + 2 := by
      simp only [List.length_cons, List.length_append]
      omega
    rw [size]
    refine ⟨cmf :: flg :: front, rest, rfl, rfl, fun more => ?_, fun n few => ?_,
      prefix_of_decodeInto sound found⟩
    · show Inflater.zlib.inflateInto limit (cmf :: flg :: (front ++ more)) buffer = _
      rw [inflateInto_zlib valid]
      refine counted_eq_ok_iff.mpr ⟨more, further more, ?_⟩
      simp only [List.length_cons, List.length_append]
      omega
    · match n with
      | 0 | 1 =>
        obtain ⟨roomy, made, passed⟩ := roomy_of_decodeInto sound found
        simp only [Inflater.inflateInto, List.take_zero, List.take_succ_cons, Zlib.Header.parse, made,
          bind, Except.bind, passed]
      | n + 2 =>
        rw [List.take_succ_cons, List.take_succ_cons, inflateInto_zlib valid]
        exact counted_eq_error_iff.mpr (shorter n (by omega))

/-- A header that is too short may be refused room or pass the limit, but is never at fault. -/
theorem ne_corrupt_of_short (sound : buffer.Sound) {input : Bytes}
    (short : Zlib.Header.parse input = .error .truncated) (detail : String) :
    Inflater.zlib.inflateInto limit input buffer ≠ .error (.corrupt detail) := by
  have spec : Ends (Inflater.zlib.inflateInto limit input buffer) (fun _ => True)
      fun failure => failure = .truncated ∨ ∃ held, Refusal limit held failure := by
    simp only [Inflater.inflateInto, short]
    refine (buffer.makeRoom_spec limit sound).bind (fun _ refused => Or.inr ⟨_, refused⟩) ?_
    rintro roomy - ⟨-, roomySound⟩
    refine (roomy.checkLimit_spec limit roomySound).bind (fun _ refused => Or.inr ⟨_, refused⟩) ?_
    exact fun _ _ _ => Or.inl rfl
  intro corrupt
  rw [corrupt] at spec
  rcases spec with other | ⟨_, refused⟩
  · cases other
  · cases refused

/-- A fault stays a fault whatever follows. -/
theorem inflateInto_corrupt_append (sound : buffer.Sound) {inflater : Inflater} {input : Bytes}
    {detail : String} (corrupt : inflater.inflateInto limit input buffer = .error (.corrupt detail))
    (more : Bytes) :
    inflater.inflateInto limit (input ++ more) buffer = .error (.corrupt detail) := by
  cases inflater with
  | raw =>
    have continues := continues_decodeInto .bare limit input sound more
    rw [counted_eq_error_iff.mp corrupt] at continues
    exact counted_eq_error_iff.mpr continues.of_corrupt
  | zlib =>
    by_cases short : Zlib.Header.parse input = .error .truncated
    · exact absurd corrupt (ne_corrupt_of_short sound short detail)
    cases parsed : Zlib.Header.parse input with
    | error failure =>
      rw [← corrupt]
      simp only [Inflater.inflateInto, Zlib.Header.parse_append short, parsed]
      cases failure <;> rfl
    | ok header =>
      match input with
      | [] | [_] => cases parsed
      | cmf :: flg :: body =>
        have valid := (Zlib.Header.isOk_parse_iff body).mp ⟨header, parsed⟩
        rw [inflateInto_zlib valid] at corrupt
        have continues := continues_decodeInto .checked limit body sound more
        rw [counted_eq_error_iff.mp corrupt] at continues
        rw [List.cons_append, List.cons_append, inflateInto_zlib valid]
        exact counted_eq_error_iff.mpr continues.of_corrupt

/-- **The end of a stream is found exactly, and verdicts are stable.** When a stream has been decoded
into a buffer:

* the bytes of the stream are among the input, and the buffer has only been added to;
* whatever follows those bytes, the same stream is found, with the same bytes added;
* every shorter part of them is truncated.

A fault that was found stays one, however the input goes on. -/
theorem inflateInto_stable (inflater : Inflater) (limit : Nat) (input : Bytes) {buffer : Buffer}
    (sound : buffer.Sound) :
    (∀ count filled, inflater.inflateInto limit input buffer = .ok (count, filled) →
      count ≤ input.length ∧ buffer.bytes.toList <+: filled.bytes.toList ∧
        (∀ more, inflater.inflateInto limit (input.take count ++ more) buffer =
          .ok (count, filled)) ∧
        ∀ n < count, inflater.inflateInto limit (input.take n) buffer = .error .truncated) ∧
    ∀ detail, inflater.inflateInto limit input buffer = .error (.corrupt detail) →
      ∀ more, inflater.inflateInto limit (input ++ more) buffer = .error (.corrupt detail) := by
  refine ⟨fun count filled decoded => ?_,
    fun detail corrupt => inflateInto_corrupt_append sound corrupt⟩
  obtain ⟨front, rest, rfl, rfl, further, shorter, added, -⟩ := split_of_inflateInto sound decoded
  refine ⟨?_, added, ?_, fun n few => ?_⟩
  · rw [List.length_append]
    exact Nat.le_add_right _ _
  · intro more
    rw [List.take_left]
    exact further more
  · rw [List.take_append_of_le_length (Nat.le_of_lt few)]
    exact shorter n few

end Verdicts

/-- A stored letter behind another one, with what follows it and cut short, and a header at fault. -/
theorem inflateInto_stable_letter :
    (⟨#[0x62], 64⟩ : Buffer).Sound ∧
      (∃ filled, filled.bytes.toList = [0x62, 0x61] ∧
        ∀ more, Inflater.raw.inflateInto maxSize ([1, 1, 0, 0xfe, 0xff, 0x61] ++ more)
          ⟨#[0x62], 64⟩ = .ok (6, filled)) ∧
      Inflater.raw.inflateInto maxSize [1, 1, 0, 0xfe] ⟨#[0x62], 64⟩ = .error .truncated ∧
      ∀ more, Inflater.zlib.inflateInto maxSize ([0x79, 0x9c] ++ more) ⟨#[0x62], 64⟩ =
        .error (.corrupt Failure.deflateDetail) := by
  have sound : (⟨#[0x62], 64⟩ : Buffer).Sound := ⟨by decide, by decide⟩
  have inflated : inflate [1, 1, 0, 0xfe, 0xff, 0x61, 7] = ([0x61], .complete [7]) := by cbv
  have corrupt : Inflater.zlib.inflateInto maxSize [0x79, 0x9c] ⟨#[0x62], 64⟩ =
      .error (.corrupt Failure.deflateDetail) := by cbv
  have delivered := decodeInto_spec .bare maxSize [1, 1, 0, 0xfe, 0xff, 0x61, 7] sound
  rw [Frame.verdict, inflated] at delivered
  cases decoding : decodeInto .bare maxSize [1, 1, 0, 0xfe, 0xff, 0x61, 7] ⟨#[0x62], 64⟩ with
  | error failure =>
    rw [decoding] at delivered
    obtain ⟨large, -⟩ := Refusal.exhausts delivered.ends (permits_default _)
    exact absurd large (by decide)
  | ok result =>
    obtain ⟨rest, filled⟩ := result
    rw [decoding] at delivered
    obtain ⟨same, holds⟩ := delivered.of_ok
    cases Deflate.Halt.complete.inj same
    have decoded : Inflater.raw.inflateInto maxSize [1, 1, 0, 0xfe, 0xff, 0x61, 7] ⟨#[0x62], 64⟩ =
        .ok (6, filled) := counted_eq_ok_iff.mpr ⟨_, decoding, rfl⟩
    obtain ⟨-, -, further, shorter⟩ := (inflateInto_stable .raw maxSize _ sound).1 _ _ decoded
    exact ⟨sound, ⟨filled, holds.contents, further⟩, shorter 4 (by decide),
      (inflateInto_stable .zlib maxSize _ sound).2 _ corrupt⟩

end Inflate
