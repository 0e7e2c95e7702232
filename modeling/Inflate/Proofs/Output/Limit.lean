/-
**Decoding under a limit beside decoding without one.**

The limit is looked at in the middle of the work: before the buffer grows, after each part that is
delivered, and it also bounds how much is asked for. So two runs that differ in the limit alone may
use buffers of different capacities. A limit below `exhausting` keeps the buffer so small that memory
cannot run out, and then only what the buffers hold counts. Under a greater limit the two runs make
the very same reservations, and go through the same buffers until the limit is passed.

* `Cut`: how an operation under a limit ends beside the one without a limit;
* `Cut.bind`: operations that are cut, in turn, are cut;
* `Alike`: the buffers of the two runs;
* `cut_decodeInto`: decoding a stream into such buffers is cut.
-/

import Inflate.Proofs.Output.Delivery

namespace Inflate

open Deflate (Decoder inflate)

/-! ### Operations that are cut -/

/-- How an operation under a limit ends beside the same operation without one: both succeed with
related values, or only the limit stands in the way, or both fail. -/
inductive Cut {α β : Type} (limit : Nat) (related : α → β → Prop) :
    Except Failure α → Except Failure β → Prop where
  | both {value : α} {other : β} (alike : related value other) :
    Cut limit related (.ok value) (.ok other)
  | beyond (other : β) : Cut limit related (.error (.outputLimitExceeded limit)) (.ok other)
  | neither (failure other : Failure) : Cut limit related (.error failure) (.error other)

section Cuts

variable {α β γ δ : Type} {limit : Nat} {related : α → β → Prop} {further : γ → δ → Prop}
  {limited : Except Failure α} {free : Except Failure β}

/-- Operations that are cut, one after the other, are cut. -/
theorem Cut.bind (cut : Cut limit related limited free) {next : α → Except Failure γ}
    {nextFree : β → Except Failure δ}
    (onValues : ∀ value other, limited = .ok value → free = .ok other → related value other →
      Cut limit further (next value) (nextFree other)) :
    Cut limit further (limited >>= next) (free >>= nextFree) := by
  cases cut with
  | both alike => exact onValues _ _ rfl rfl alike
  | beyond other =>
    show Cut limit further (.error (.outputLimitExceeded limit)) (nextFree other)
    cases nextFree other with
    | ok result => exact .beyond result
    | error failure => exact .neither _ failure
  | neither failure other => exact .neither failure other

/-- An operation that does not look at the limit. -/
theorem Cut.same {outcome : Except Failure α} {related : α → α → Prop}
    (onValue : ∀ value, outcome = .ok value → related value value) :
    Cut limit related outcome outcome := by
  cases outcome with
  | ok value => exact .both (onValue value rfl)
  | error failure => exact .neither failure failure

theorem Cut.imp {other : α → β → Prop} (cut : Cut limit related limited free)
    (onValues : ∀ value result, limited = .ok value → free = .ok result → related value result →
      other value result) : Cut limit other limited free := by
  cases cut with
  | both alike => exact .both (onValues _ _ rfl rfl alike)
  | beyond result => exact .beyond result
  | neither failure result => exact .neither failure result

end Cuts

/-! ### Great limits -/

section Great

variable {limit : Nat} {buffer : Buffer}

namespace Buffer

theorem size_le_maxSize (sound : buffer.Sound) : buffer.size ≤ maxSize := by
  have fits := sound.fits
  have reservable := sound.reservable
  simp only [unreservable, maxSize] at *
  omega

/-- A full buffer gets the same capacity under every great limit that it has not passed. -/
theorem enlarged_eq (great : exhausting ≤ limit) (sound : buffer.Sound)
    (full : buffer.capacity ≤ buffer.size) (under : buffer.size ≤ limit) :
    enlarged buffer.capacity (buffer.size + growth limit buffer.size) =
      enlarged buffer.capacity (buffer.size + growth maxSize buffer.size) := by
  have fits := sound.fits
  have reservable := sound.reservable
  simp only [enlarged, growth, saturatingAdd, leastCapacity, pieceSize, maxSize, exhausting,
    unreservable] at *
  omega

theorem cut_makeRoom (great : exhausting ≤ limit) (sound : buffer.Sound) :
    Cut limit (· = ·) (buffer.makeRoom limit) (buffer.makeRoom maxSize) := by
  unfold makeRoom
  by_cases full : buffer.capacity ≤ buffer.size
  · rw [if_pos full, if_pos full]
    unfold grow
    rw [if_neg (Nat.not_lt.mpr (size_le_maxSize sound))]
    by_cases beyond : limit < buffer.size
    · rw [if_pos beyond]
      simp only
      split
      · exact .beyond _
      · exact .neither _ _
    · rw [if_neg beyond]
      simp only
      rw [enlarged_eq great sound full (Nat.not_lt.mp beyond)]
      split
      · exact .both rfl
      · exact .neither _ _
  · rw [if_neg full, if_neg full]
    exact .both rfl

theorem cut_checkLimit (sound : buffer.Sound) :
    Cut limit (· = ·) (buffer.checkLimit limit) (buffer.checkLimit maxSize) := by
  unfold checkLimit
  rw [if_neg (Nat.not_lt.mpr (size_le_maxSize sound))]
  split
  · exact .beyond _
  · exact .both rfl

/-- Delivering a piece makes the same steps, until the limit is passed. -/
theorem cut_deliver (great : exhausting ≤ limit) {buffer : Buffer} (sound : buffer.Sound)
    (piece : Bytes) : Cut limit (· = ·) (buffer.deliver limit piece) (buffer.deliver maxSize piece) := by
  by_cases empty : piece = []
  · subst empty
    rw [deliver_nil, deliver_nil]
    exact cut_checkLimit sound
  rw [deliver_of_ne_nil limit buffer empty, deliver_of_ne_nil maxSize buffer empty]
  refine (cut_makeRoom great sound).bind ?_
  rintro roomy _ made - rfl
  have positive := room_pos_of_makeRoom made
  have roomySound := ((makeRoom_spec limit sound).of_ok made).2
  have fits : (piece.take roomy.room).length ≤ roomy.room := List.length_take_le _ _
  have partSound := sound_append roomySound fits
  refine (cut_checkLimit partSound).bind ?_
  rintro filled _ passed - rfl
  obtain ⟨rfl, -⟩ := (checkLimit_spec limit partSound).of_ok passed
  have fewer : (piece.drop roomy.room).length < piece.length := by
    have some := List.length_pos_iff.mpr empty
    rw [List.length_drop]
    omega
  exact cut_deliver great partSound (piece.drop roomy.room)
termination_by piece.length

end Buffer

theorem cut_takePiece (great : exhausting ≤ limit) (sound : buffer.Sound) (piece : Bytes)
    (decoder : Decoder) :
    Cut limit (· = ·) (takePiece limit buffer piece decoder)
      (takePiece maxSize buffer piece decoder) := by
  unfold takePiece
  split
  · exact .both rfl
  · exact Buffer.cut_deliver great sound piece

theorem cut_finish (great : exhausting ≤ limit) (sound : buffer.Sound) (piece : Bytes)
    (halt : Deflate.Halt) :
    Cut limit (· = ·) (finish limit buffer piece halt) (finish maxSize buffer piece halt) := by
  have delivered := Buffer.cut_deliver great sound piece
  cases halt with
  | complete rest =>
    refine delivered.bind ?_
    rintro filled _ - - rfl
    exact .both rfl
  | fault => exact .neither _ _
  | short | full => exact delivered.bind fun _ _ _ _ _ => .neither _ _

/-- **Decoding on** makes the same steps, until the limit is passed. -/
theorem cut_decodeOn (frame : Frame) (great : exhausting ≤ limit) (decoder : Decoder)
    {buffer : Buffer} (sound : buffer.Sound) :
    Cut limit (· = ·) (decodeOn frame limit decoder buffer)
      (decodeOn frame maxSize decoder buffer) := by
  induction decoder using decodePiece_induction frame generalizing buffer with
  | onward decoder last piece whole kept ih =>
    rw [decodeOn_of_full piece, decodeOn_of_full piece]
    refine (Buffer.cut_makeRoom great sound).bind ?_
    rintro roomy _ made - rfl
    have roomySound := ((buffer.makeRoom_spec limit sound).of_ok made).2
    refine (cut_takePiece great roomySound _ last).bind ?_
    rintro filled _ taken - rfl
    exact ih ((takePiece_spec limit roomySound _ last).of_ok taken).2
  | final decoder piece stops =>
    rw [decodeOn_of_final piece stops, decodeOn_of_final piece stops]
    refine (Buffer.cut_makeRoom great sound).bind ?_
    rintro roomy _ made - rfl
    exact cut_finish great ((buffer.makeRoom_spec limit sound).of_ok made).2 _ _

end Great

/-! ### All limits -/

/-- The buffers of a run under a limit and of one without: they hold the same, and under a great limit
they are the same. -/
structure Alike (limit : Nat) (buffer free : Buffer) : Prop where
  bytes : buffer.bytes = free.bytes
  sound : buffer.Sound
  freeSound : free.Sound
  eq_of_great : exhausting ≤ limit → buffer = free

theorem Alike.refl {buffer : Buffer} (limit : Nat) (sound : buffer.Sound) :
    Alike limit buffer buffer :=
  ⟨rfl, sound, sound, fun _ => rfl⟩

theorem Alike.size_eq {limit : Nat} {buffer free : Buffer} (alike : Alike limit buffer free) :
    buffer.size = free.size :=
  congrArg Array.size alike.bytes

/-- Without a limit, an output is refused only if it exhausts memory. -/
theorem Refusal.exhausting_le {total : Nat} {failure : Failure}
    (refused : Refusal maxSize total failure) : exhausting ≤ total := by
  cases refused with
  | limit beyond small => exact absurd small (by decide)
  | memory asked large allowed => exact large

/-- A limit below `exhausting` is the only cause of a refusal under it. -/
theorem Refusal.eq_limit {limit total : Nat} {failure : Failure}
    (refused : Refusal limit total failure) (small : limit < exhausting) :
    failure = .outputLimitExceeded limit := by
  cases refused with
  | limit beyond small => rfl
  | memory asked large allowed => exact absurd allowed (Nat.not_le.mpr small)

/-- Two decodings of one stream into buffers that hold the same, one under a small limit, are cut. -/
theorem Delivers.cut {limit : Nat} {contents : Bytes} {halt : Deflate.Halt}
    {limited free : Except Failure (Bytes × Buffer)} (delivers : Delivers limit contents halt limited)
    (freeDelivers : Delivers maxSize contents halt free) (small : limit < exhausting) :
    Cut limit (fun decoded other => decoded.1 = other.1 ∧ Alike limit decoded.2 other.2)
      limited free := by
  cases limited with
  | ok decoded =>
    obtain ⟨complete, holds⟩ := delivers.of_ok
    subst complete
    have under := holds.under
    rw [holds.size_eq] at under
    cases free with
    | ok other =>
      obtain ⟨same, freeHolds⟩ := freeDelivers.of_ok
      refine .both ⟨Deflate.Halt.complete.inj same, ?_, holds.sound, freeHolds.sound, ?_⟩
      · exact Array.toList_inj.mp (holds.contents.trans freeHolds.contents.symm)
      · intro great
        omega
    | error failure =>
      have refused : Refusal maxSize contents.length failure := freeDelivers.ends
      have large := refused.exhausting_le
      omega
  | error failure =>
    cases free with
    | error other => exact .neither failure other
    | ok other =>
      obtain ⟨complete, -⟩ := freeDelivers.of_ok
      subst complete
      have refused : Refusal limit contents.length failure := delivers.ends
      rw [refused.eq_limit small]
      exact .beyond other

/-- **Decoding a stream** into the buffers of the two runs is cut. -/
theorem cut_decodeInto (frame : Frame) {limit : Nat} {buffer free : Buffer}
    (alike : Alike limit buffer free) (input : Bytes) :
    Cut limit (fun decoded other => decoded.1 = other.1 ∧ Alike limit decoded.2 other.2)
      (decodeInto frame limit input buffer) (decodeInto frame maxSize input free) := by
  have delivered := decodeInto_spec frame limit input alike.sound
  have freeDelivered := decodeInto_spec frame maxSize input alike.freeSound
  by_cases great : exhausting ≤ limit
  · obtain rfl := alike.eq_of_great great
    refine (cut_decodeOn frame great (Decoder.start input) alike.sound).imp ?_
    rintro ⟨rest, filled⟩ _ decoded - rfl
    have run : decodeInto frame limit input buffer = .ok (rest, filled) := decoded
    rw [run] at delivered
    exact ⟨rfl, Alike.refl limit delivered.of_ok.2.sound⟩
  · rw [← alike.bytes] at freeDelivered
    exact delivered.cut freeDelivered (Nat.not_le.mp great)

/-- The buffers at the start of the two runs are alike. -/
theorem alike_seed {options : Options} (unset : options.initialCapacity = none) (limit size : Nat) :
    ∃ buffer free : Buffer,
      Buffer.reserve (seedCapacity size { options with maxOutput := some limit }) = .ok buffer ∧
      Buffer.reserve (seedCapacity size { options with maxOutput := none }) = .ok free ∧
      Alike limit buffer free := by
  have limitedUnset : { options with maxOutput := some limit }.initialCapacity = none := unset
  have freeUnset : { options with maxOutput := none }.initialCapacity = none := unset
  obtain ⟨buffer, reserved, sound, empty⟩ := Buffer.sound_seed limitedUnset size
  obtain ⟨free, freeReserved, freeSound, freeEmpty⟩ := Buffer.sound_seed freeUnset size
  refine ⟨buffer, free, reserved, freeReserved, empty.trans freeEmpty.symm, sound, freeSound, ?_⟩
  intro great
  have seeds : seedCapacity size { options with maxOutput := some limit } =
      seedCapacity size { options with maxOutput := none } := by
    simp only [seedCapacity, wantedCapacity, unset, Option.getD_none, Options.limit,
      Option.getD_some, saturatingAdd, maxSize, maxSeed, exhausting, pieceSize] at great ⊢
    omega
  rw [seeds, freeReserved] at reserved
  exact (Except.ok.inj reserved).symm

end Inflate
