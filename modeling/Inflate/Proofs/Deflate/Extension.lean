/-
**Streams with more bytes behind them.**

A decoder does not look past the end of a stream. Every reading step is put together from a few
elementary ones, so what more bytes at the end of the input change in it is shown once, for the
elementary steps and for one step after another; then for a step of the machine; then for its runs.

* `Reading.Composed.extends`: a step that read something, or met a fault, does the same when more
  bytes follow, and a step that was short reads into the new bytes;
* `Decoder.step_eq`: a step of the machine reads, and then moves or stops;
* `inflate_append`: a complete stream gives the same output whatever follows it;
* `inflate_complete_of_append`: the bytes of a complete stream are complete without what follows.
-/

import Inflate.Deflate.Decoder

namespace Inflate

namespace Deflate

/-! ### Steps put together -/

/-- The reader with more bytes behind its own. -/
def BitReader.extend (reader : BitReader) (more : Bytes) : BitReader :=
  { reader with bytes := reader.bytes ++ more }

namespace Reading

/-- A step put together from elementary ones. -/
inductive Composed : {α : Type} → Reading α → Prop where
  | pure {α : Type} (value : α) : Composed (Pure.pure value : Reading α)
  | fault {α : Type} : Composed (fault : Reading α)
  | align : Composed align
  | bit : Composed bit
  | bind {α β : Type} {first : Reading α} {next : α → Reading β} (front : Composed first)
      (back : ∀ value, Composed (next value)) : Composed (first >>= next)

/-- What more bytes at the end of the input change in a step, and where it stops reading. -/
structure Extends {α : Type} (step : Reading α) : Prop where
  consumes : step.Consumes 0
  suffix : ∀ {reader value rest}, step reader = .read value rest → rest.bytes <:+ reader.bytes
  read : ∀ {reader value rest} (more : Bytes), step reader = .read value rest →
    step (reader.extend more) = .read value (rest.extend more)
  fault : ∀ {reader} (more : Bytes), step reader = .fault → step (reader.extend more) = .fault
  short : ∀ {reader value rest} (more : Bytes), step reader = .short →
    step (reader.extend more) = .read value rest → rest.size < 8 * more.length

/-- The three ways in which one step after another can end. -/
theorem bind_cases {α β : Type} (first : Reading α) (next : α → Reading β) (reader : BitReader) :
    (∃ value middle, first reader = .read value middle ∧
      (first >>= next) reader = next value middle) ∨
    (first reader = .short ∧ (first >>= next) reader = .short) ∨
    (first reader = .fault ∧ (first >>= next) reader = .fault) := by
  show (∃ value middle, _ ∧ Reading.bind first next reader = _) ∨
    (_ ∧ Reading.bind first next reader = _) ∨ (_ ∧ Reading.bind first next reader = _)
  unfold Reading.bind
  cases first reader with
  | read value middle => exact Or.inl ⟨value, middle, rfl, rfl⟩
  | short => exact Or.inr (Or.inl ⟨rfl, rfl⟩)
  | fault => exact Or.inr (Or.inr ⟨rfl, rfl⟩)

theorem bind_of_read {α β : Type} {first : Reading α} {next : α → Reading β}
    {reader middle : BitReader} {value : α} (read : first reader = .read value middle) :
    (first >>= next) reader = next value middle := by
  show Reading.bind first next reader = _
  rw [Reading.bind, read]

theorem map_apply {α β : Type} (f : α → β) (step : Reading α) (reader : BitReader) :
    (f <$> step) reader = match step reader with
      | .read value rest => .read (f value) rest
      | .short => .short
      | .fault => .fault := by
  show Reading.bind step (fun value => Reading.pure (f value)) reader = _
  unfold Reading.bind
  cases step reader <;> rfl

theorem read_of_map {α β : Type} {f : α → β} {step : Reading α} {reader rest : BitReader} {value : β}
    (read : (f <$> step) reader = .read value rest) :
    ∃ part, step reader = .read part rest ∧ f part = value := by
  rw [map_apply] at read
  split at read
  · next part after found =>
    cases read
    exact ⟨part, found, rfl⟩
  · cases read
  · cases read

/-- Two steps that read something have each read something. -/
theorem read_of_bind {α β : Type} {first : Reading α} {next : α → Reading β}
    {reader rest : BitReader} {value : β} (read : (first >>= next) reader = .read value rest) :
    ∃ part middle, first reader = .read part middle ∧ next part middle = .read value rest := by
  rcases bind_cases first next reader with ⟨part, middle, firstRead, same⟩ | ⟨_, same⟩ | ⟨_, same⟩
  · exact ⟨part, middle, firstRead, same.symm.trans read⟩
  · cases same.symm.trans read
  · cases same.symm.trans read

theorem extends_bit : bit.Extends where
  consumes := consumes_bit.mono (Nat.zero_le 1)
  suffix := by
    rintro ⟨pending, bytes⟩ value rest read
    cases pending with
    | cons b others =>
      cases read
      exact List.suffix_refl _
    | nil =>
      cases bytes with
      | nil => cases read
      | cons byte others =>
        cases read
        exact List.suffix_cons byte others
  read := by
    rintro ⟨pending, bytes⟩ value rest more read
    cases pending with
    | cons b others =>
      cases read
      rfl
    | nil =>
      cases bytes with
      | nil => cases read
      | cons byte others =>
        cases read
        rfl
  fault := by
    rintro ⟨pending, bytes⟩ more faulty
    cases pending with
    | cons b others => cases faulty
    | nil => cases bytes <;> cases faulty
  short := by
    rintro ⟨pending, bytes⟩ value rest more empty read
    cases pending with
    | cons b others => cases empty
    | nil =>
      cases bytes with
      | cons byte others => cases empty
      | nil =>
        have taken := consumes_bit _ _ _ read
        simp only [BitReader.extend, BitReader.size, List.length_nil, List.nil_append] at taken
        simp only [BitReader.size]
        omega

theorem Extends.bind {α β : Type} {first : Reading α} {next : α → Reading β}
    (front : first.Extends) (back : ∀ value, (next value).Extends) : (first >>= next).Extends where
  consumes := front.consumes.bind fun value => (back value).consumes
  suffix := by
    intro reader value rest read
    obtain ⟨part, middle, firstRead, lastRead⟩ := read_of_bind read
    exact ((back part).suffix lastRead).trans (front.suffix firstRead)
  read := by
    intro reader value rest more read
    obtain ⟨part, middle, firstRead, lastRead⟩ := read_of_bind read
    rw [bind_of_read (front.read more firstRead)]
    exact (back part).read more lastRead
  fault := by
    intro reader more faulty
    rcases bind_cases first next reader with ⟨part, middle, firstRead, same⟩ | ⟨_, same⟩ |
      ⟨firstFaulty, _⟩
    · rw [same] at faulty
      rw [bind_of_read (front.read more firstRead)]
      exact (back part).fault more faulty
    · cases same.symm.trans faulty
    · show Reading.bind first next _ = _
      rw [Reading.bind, front.fault more firstFaulty]
  short := by
    intro reader value rest more empty read
    rcases bind_cases first next reader with ⟨part, middle, firstRead, same⟩ | ⟨firstEmpty, _⟩ |
      ⟨_, same⟩
    · rw [same] at empty
      rw [bind_of_read (front.read more firstRead)] at read
      exact (back part).short more empty read
    · -- the first step reads into the new bytes, and the second one only goes on
      obtain ⟨part, middle, firstRead, lastRead⟩ := read_of_bind read
      have crossed := front.short more firstEmpty firstRead
      have left := (back part).consumes _ _ _ lastRead
      omega
    · cases same.symm.trans empty

/-- **More bytes behind the input** change nothing in a step that did not need them. -/
theorem Composed.extends {α : Type} {step : Reading α} (composed : step.Composed) :
    step.Extends := by
  induction composed with
  | pure value =>
    exact ⟨consumes_pure value, fun read => by cases read; exact List.suffix_refl _,
      fun _ read => by cases read; rfl, (fun _ faulty => by cases faulty),
      fun _ empty => by cases empty⟩
  | fault =>
    exact ⟨consumes_fault 0, (fun read => by cases read), (fun _ read => by cases read),
      fun _ _ => rfl, fun _ empty => by cases empty⟩
  | align =>
    exact ⟨consumes_align, fun read => by cases read; exact List.suffix_refl _,
      fun _ read => by cases read; rfl, (fun _ faulty => by cases faulty),
      fun _ empty => by cases empty⟩
  | bit => exact extends_bit
  | bind _ _ front back => exact front.bind back

theorem composed_map {α β : Type} (f : α → β) {step : Reading α} (composed : step.Composed) :
    (f <$> step).Composed :=
  composed.bind fun value => .pure (f value)

theorem composed_bits (width : Nat) : (bits width).Composed := by
  induction width with
  | zero => exact .pure 0
  | succ width ih => exact .bind .bit fun low => ih.bind fun high => .pure (low.toNat + 2 * high)

theorem composed_many {α : Type} {step : Reading α} (count : Nat) (composed : step.Composed) :
    (many step count).Composed := by
  induction count with
  | zero => exact .pure []
  | succ count ih => exact composed.bind fun value => ih.bind fun rest => .pure (value :: rest)

end Reading

open Reading

/-! ### The steps of the decoder -/

theorem PrefixCode.composed_readFrom (rows : List (Array Nat)) (number : Nat) :
    (readFrom rows number).Composed := by
  induction rows generalizing number with
  | nil => exact .fault
  | cons row rows ih =>
    refine .bind .bit fun low => ?_
    simp only
    split
    · exact .pure _
    · exact ih _

theorem PrefixCode.composed_read (code : PrefixCode) : code.read.Composed :=
  composed_readFrom code.rows 0

theorem composed_readLengths (code : PrefixCode) (left : Nat) (previous : Option Nat) :
    (readLengths code left previous).Composed := by
  induction left using Nat.strongRecOn generalizing previous with
  | ind left ih =>
    cases left with
    | zero => rw [readLengths]; exact .pure []
    | succ others =>
      have repeated : ∀ length least extraBits, 0 < least →
          Reading.Composed (do
            let extra ← bits extraBits
            let count := least + extra
            if count ≤ others + 1 then
              let rest ← readLengths code (others + 1 - count) (some length)
              pure (List.replicate count length ++ rest)
            else Reading.fault : Reading (List Nat)) := by
        intro length least extraBits enough
        refine (composed_bits extraBits).bind fun extra => ?_
        simp only
        split
        · exact (ih _ (by omega) _).bind fun rest => .pure _
        · exact .fault
      rw [readLengths]
      refine code.composed_read.bind fun symbol => ?_
      split
      · exact (ih _ (Nat.lt_succ_self others) _).bind fun rest => .pure _
      · simp only
        split
        · split
          · exact repeated _ _ _ (by decide)
          · exact .fault
        · split
          · exact repeated _ _ _ (by decide)
          · exact repeated _ _ _ (by decide)

theorem composed_readCodes : readCodes.Composed := by
  unfold readCodes
  refine (composed_map _ (composed_bits 5)).bind fun literalCount => ?_
  refine (composed_map _ (composed_bits 5)).bind fun distanceCount => ?_
  refine (composed_map _ (composed_bits 4)).bind fun lengthCount => ?_
  split
  · exact .fault
  · refine (composed_many _ (composed_bits 3)).bind fun written => ?_
    simp only
    split
    · refine (composed_readLengths _ _ _).bind fun lengths => ?_
      split
      · exact .pure _
      · exact .fault
    · exact .fault

theorem composed_readStoredCount : readStoredCount.Composed := by
  unfold readStoredCount
  refine .bind .align fun _ => ?_
  refine (composed_bits 16).bind fun count => ?_
  refine (composed_bits 16).bind fun complement => ?_
  split
  · exact .pure _
  · exact .fault

theorem composed_readBlockHeader : readBlockHeader.Composed := by
  unfold readBlockHeader
  refine .bind .bit fun final => ?_
  refine (composed_bits 2).bind fun kind => ?_
  split
  · exact composed_readStoredCount.bind fun count => .pure _
  · split
    · exact .pure _
    · split
      · exact composed_readCodes.bind fun codes => .pure _
      · exact .fault

theorem composed_readClass (valueClass : Option ValueClass) : (readClass valueClass).Composed := by
  unfold readClass
  split
  · exact (composed_bits _).bind fun extra => .pure _
  · exact .fault

theorem composed_readItem (codes : Codes) : (readItem codes).Composed := by
  unfold readItem
  refine codes.literals.composed_read.bind fun symbol => ?_
  split
  · exact .pure _
  · split
    · exact .pure _
    · refine (composed_readClass _).bind fun length => ?_
      refine codes.distances.composed_read.bind fun symbol => ?_
      exact (composed_readClass _).bind fun distance => .pure _

/-! ### Steps of the machine -/

namespace Decoder

/-- What a step does once it has read what it needs. -/
inductive Move where
  | goOn (output : Array UInt8) (phase : Phase)
  | endBlock (final : Bool)

namespace Move

/-- The step that makes a move. -/
def step (output : Array UInt8) (reader : BitReader) : Move → Step
  | goOn longer phase => .next ⟨reader, longer, phase⟩
  | endBlock final => Decoder.endBlock final reader output

/-- The move that starts on an item. -/
def ofItem (output : Array UInt8) (final : Bool) (codes : Codes) : Item → Move
  | .literal byte => goOn output (.literal final codes byte)
  | .copy length distance => goOn output (.copy final codes length distance)
  | .endOfBlock => endBlock final

end Move

/-- What a step in a phase reads, and the move that it decides on. -/
def reading (output : Array UInt8) : Phase → Reading Move
  | .header => (fun header => .goOn output header.phase) <$> readBlockHeader
  | .stored final 0 => pure (.endBlock final)
  | .stored final (left + 1) =>
    (fun byte => .goOn (output.push (UInt8.ofNat byte)) (.stored final left)) <$> bits 8
  | .items final codes => Move.ofItem output final codes <$> readItem codes
  | .literal final codes byte => pure (.goOn (output.push byte) (.items final codes))
  | .copy final codes 0 _ => pure (.goOn output (.items final codes))
  | .copy final codes (left + 1) distance =>
    pure (.goOn (output.push (byteBack output distance)) (.copy final codes left distance))

/-- **A step** reads, and then moves or stops where it is. -/
theorem step_eq (decoder : Decoder) :
    decoder.step = match reading decoder.output decoder.phase decoder.reader with
      | .read move rest => move.step decoder.output rest
      | .short => .halt decoder .short
      | .fault => .halt decoder .fault := by
  obtain ⟨reader, output, phase⟩ := decoder
  cases phase with
  | header =>
    simp only [step, reading, map_apply]
    cases readBlockHeader reader <;> rfl
  | stored final left =>
    cases left with
    | zero => rfl
    | succ left =>
      simp only [step, reading, map_apply]
      cases bits 8 reader <;> rfl
  | items final codes =>
    simp only [step, reading, map_apply]
    cases readItem codes reader with
    | read item rest => cases item <;> rfl
    | short => rfl
    | fault => rfl
  | literal final codes byte => rfl
  | copy final codes left distance => cases left <;> rfl

theorem step_of_read {decoder : Decoder} {move : Move} {rest : BitReader}
    (read : reading decoder.output decoder.phase decoder.reader = .read move rest) :
    decoder.step = move.step decoder.output rest := by
  rw [step_eq, read]

theorem step_of_short {decoder : Decoder}
    (short : reading decoder.output decoder.phase decoder.reader = .short) :
    decoder.step = .halt decoder .short := by
  rw [step_eq, short]

theorem step_of_fault {decoder : Decoder}
    (fault : reading decoder.output decoder.phase decoder.reader = .fault) :
    decoder.step = .halt decoder .fault := by
  rw [step_eq, fault]

theorem composed_reading (output : Array UInt8) (phase : Phase) :
    (reading output phase).Composed := by
  cases phase with
  | header => exact composed_map _ composed_readBlockHeader
  | stored final left =>
    cases left with
    | zero => exact .pure _
    | succ left => exact composed_map _ (composed_bits 8)
  | items final codes => exact composed_map _ (composed_readItem codes)
  | literal final codes byte => exact .pure _
  | copy final codes left distance => cases left <;> exact .pure _

/-- A move never stops for want of input. -/
theorem Move.step_ne_short (move : Move) (output : Array UInt8) (reader : BitReader)
    (last : Decoder) : move.step output reader ≠ .halt last .short := by
  intro stops
  cases move with
  | goOn longer phase => cases stops
  | endBlock final => cases final <;> cases stops

end Decoder

/-! ### Steps with more bytes behind them -/

/-- The stop with more bytes behind the input. -/
def Halt.extend (halt : Halt) (more : Bytes) : Halt :=
  match halt with
  | .complete rest => .complete (rest ++ more)
  | halt => halt

namespace Decoder

/-- The machine with more bytes behind its input. -/
def extend (decoder : Decoder) (more : Bytes) : Decoder :=
  { decoder with reader := decoder.reader.extend more }

/-- The outcome of a step with more bytes behind the input. -/
def Step.extend (step : Step) (more : Bytes) : Step :=
  match step with
  | .next decoder => .next (decoder.extend more)
  | .halt decoder stop => .halt (decoder.extend more) (stop.extend more)

/-- If the step goes on or completes the stream, fewer than `count` whole bytes are unread after
it. -/
def Step.Crosses (step : Step) (count : Nat) : Prop :=
  match step with
  | .next later => later.reader.size < 8 * count
  | .halt _ (.complete rest) => rest.length < count
  | .halt _ _ => True

theorem Move.step_extend (move : Move) (output : Array UInt8) (reader : BitReader)
    (more : Bytes) :
    move.step output (reader.extend more) = (move.step output reader).extend more := by
  cases move with
  | goOn longer phase => rfl
  | endBlock final => cases final <;> rfl

/-- A step that is not short is the same with more bytes behind the input. -/
theorem step_extend {decoder : Decoder} (enough : ∀ last, decoder.step ≠ .halt last .short)
    (more : Bytes) : (decoder.extend more).step = decoder.step.extend more := by
  have extends' := (composed_reading decoder.output decoder.phase).extends
  cases read : reading decoder.output decoder.phase decoder.reader with
  | read move rest =>
    rw [step_of_read read, step_of_read (extends'.read more read)]
    exact move.step_extend decoder.output rest more
  | short => exact absurd (step_of_short read) (enough decoder)
  | fault =>
    rw [step_of_fault read, step_of_fault (extends'.fault more read)]
    rfl

theorem Move.crosses_step (move : Move) (output : Array UInt8) {reader : BitReader} {count : Nat}
    (crossed : reader.size < 8 * count) : (move.step output reader).Crosses count := by
  cases move with
  | goOn longer phase => exact crossed
  | endBlock final =>
    cases final with
    | false => exact crossed
    | true =>
      simp only [BitReader.size] at crossed
      show reader.align.bytes.length < count
      simp only [BitReader.align]
      omega

/-- A short step that more bytes mend reads into them. -/
theorem crosses_of_short {decoder last : Decoder} (short : decoder.step = .halt last .short)
    (more : Bytes) : (decoder.extend more).step.Crosses more.length := by
  have extends' := (composed_reading decoder.output decoder.phase).extends
  cases read : reading decoder.output decoder.phase decoder.reader with
  | read move rest =>
    rw [step_of_read read] at short
    exact absurd short (move.step_ne_short decoder.output rest last)
  | fault => cases (step_of_fault read).symm.trans short
  | short =>
    cases again : reading decoder.output decoder.phase (decoder.reader.extend more) with
    | read move rest =>
      have steps : (decoder.extend more).step = move.step decoder.output rest := step_of_read again
      rw [steps]
      exact move.crosses_step decoder.output (extends'.short more read again)
    | short =>
      have steps : (decoder.extend more).step = .halt _ .short := step_of_short again
      rw [steps]
      trivial
    | fault =>
      have steps : (decoder.extend more).step = .halt _ .fault := step_of_fault again
      rw [steps]
      trivial

/-! ### Runs -/

section Rooms

variable {decoder later last : Decoder} {stop : Halt} {room : Option Nat}

theorem run_room_of_full (full : decoder.isFull room = true) :
    decoder.run room = (decoder, .full) := by
  rw [run, if_pos full]

theorem run_room_of_next (free : decoder.isFull room = false) (steps : decoder.step = .next later) :
    decoder.run room = later.run room := by
  rw [run, if_neg (Bool.eq_false_iff.mp free)]
  split
  · next other same =>
    cases steps.symm.trans same
    rfl
  · next same => cases steps.symm.trans same

theorem run_room_of_halt (free : decoder.isFull room = false)
    (steps : decoder.step = .halt last stop) : decoder.run room = (last, stop) := by
  rw [run, if_neg (Bool.eq_false_iff.mp free)]
  split
  · next other same => cases steps.symm.trans same
  · next same =>
    cases steps.symm.trans same
    rfl

theorem run_of_next (steps : decoder.step = .next later) : decoder.run none = later.run none :=
  run_room_of_next rfl steps

theorem run_of_halt (steps : decoder.step = .halt last stop) : decoder.run none = (last, stop) :=
  run_room_of_halt rfl steps

end Rooms

/-- Induction over the steps of a machine. -/
theorem run_induction {motive : Decoder → Prop}
    (next : ∀ decoder later, decoder.step = .next later → motive later → motive decoder)
    (halt : ∀ decoder last stop, decoder.step = .halt last stop → motive decoder)
    (decoder : Decoder) : motive decoder := by
  cases steps : decoder.step with
  | halt last stop => exact halt decoder last stop steps
  | next later =>
    have before := before_of_step steps
    exact next decoder later steps (run_induction next halt later)
termination_by (decoder.reader.size, decoder.phase.weight)
decreasing_by exact Before.lex before

theorem isFull_extend (decoder : Decoder) (room : Option Nat) (more : Bytes) :
    (decoder.extend more).isFull room = decoder.isFull room := rfl

/-- A run that is not short is the same with more bytes behind the input. -/
theorem run_extend (decoder : Decoder) (room : Option Nat)
    (enough : (decoder.run room).2 ≠ .short) (more : Bytes) :
    (decoder.extend more).run room =
      ((decoder.run room).1.extend more, (decoder.run room).2.extend more) := by
  induction decoder using run_induction with
  | next decoder later steps ih =>
    by_cases full : decoder.isFull room = true
    · rw [run_room_of_full full, run_room_of_full ((decoder.isFull_extend room more).trans full)]
      rfl
    have free := Bool.eq_false_iff.mpr full
    rw [run_room_of_next free steps] at enough ⊢
    have extended := step_extend (fun last stops => by cases steps.symm.trans stops) more
    rw [steps] at extended
    rw [run_room_of_next ((decoder.isFull_extend room more).trans free) extended]
    exact ih enough
  | halt decoder last stop steps =>
    by_cases full : decoder.isFull room = true
    · rw [run_room_of_full full, run_room_of_full ((decoder.isFull_extend room more).trans full)]
      rfl
    have free := Bool.eq_false_iff.mpr full
    rw [run_room_of_halt free steps] at enough ⊢
    have notShort : ∀ last, decoder.step ≠ .halt last .short := fun last stops => by
      cases steps.symm.trans stops
      exact enough rfl
    have extended := step_extend notShort more
    rw [steps] at extended
    exact run_room_of_halt ((decoder.isFull_extend room more).trans free) extended

/-- A run that completes the stream begins with a step that moves. -/
theorem read_of_run {decoder : Decoder} {rest : Bytes}
    (completes : (decoder.run none).2 = .complete rest) :
    ∃ move after, reading decoder.output decoder.phase decoder.reader = .read move after ∧
      decoder.step = move.step decoder.output after := by
  cases read : reading decoder.output decoder.phase decoder.reader with
  | read move after => exact ⟨move, after, rfl, step_of_read read⟩
  | short =>
    rw [run_of_halt (step_of_short read)] at completes
    cases completes
  | fault =>
    rw [run_of_halt (step_of_fault read)] at completes
    cases completes

/-- A run that completes the stream leaves no more whole bytes than there were. -/
theorem length_rest_le (decoder : Decoder) {rest : Bytes}
    (completes : (decoder.run none).2 = .complete rest) :
    8 * rest.length ≤ decoder.reader.size :=
  rest_le_of_run (Prod.ext rfl completes)

/-- A short run that more bytes mend leaves fewer bytes than were added. -/
theorem length_rest_lt (decoder : Decoder) (short : (decoder.run none).2 = .short) (more : Bytes)
    {rest : Bytes} (completes : ((decoder.extend more).run none).2 = .complete rest) :
    rest.length < more.length := by
  induction decoder using run_induction with
  | next decoder later steps ih =>
    rw [run_of_next steps] at short
    have extended := step_extend (fun last stops => by cases steps.symm.trans stops) more
    rw [steps] at extended
    rw [run_of_next extended] at completes
    exact ih short completes
  | halt decoder last stop steps =>
    rw [run_of_halt steps] at short
    subst short
    have crosses := crosses_of_short steps more
    cases again : (decoder.extend more).step with
    | next later =>
      rw [again] at crosses
      rw [run_of_next again] at completes
      have left := length_rest_le later completes
      have crossed : later.reader.size < 8 * more.length := crosses
      omega
    | halt other stop =>
      rw [again] at crosses
      rw [run_of_halt again] at completes
      subst completes
      exact crosses

/-! ### The bytes after a stream -/

/-- If the step goes on or completes the stream, what is unread after it ends the given bytes. -/
def Step.Leaves (step : Step) (bytes : Bytes) : Prop :=
  match step with
  | .next later => later.reader.bytes <:+ bytes
  | .halt _ (.complete rest) => rest <:+ bytes
  | .halt _ _ => True

theorem Move.leaves_step (move : Move) (output : Array UInt8) {reader : BitReader} {bytes : Bytes}
    (left : reader.bytes <:+ bytes) : (move.step output reader).Leaves bytes := by
  cases move with
  | goOn longer phase => exact left
  | endBlock final => cases final <;> exact left

theorem leaves_step (decoder : Decoder) : decoder.step.Leaves decoder.reader.bytes := by
  cases read : reading decoder.output decoder.phase decoder.reader with
  | read move rest =>
    rw [step_of_read read]
    have left := (composed_reading decoder.output decoder.phase).extends.suffix read
    exact move.leaves_step decoder.output left
  | short =>
    rw [step_of_short read]
    trivial
  | fault =>
    rw [step_of_fault read]
    trivial

/-- What follows a complete stream ends the input. -/
theorem suffix_of_run (decoder : Decoder) {rest : Bytes}
    (completes : (decoder.run none).2 = .complete rest) : rest <:+ decoder.reader.bytes := by
  induction decoder using run_induction with
  | next decoder later steps ih =>
    rw [run_of_next steps] at completes
    have leaves := leaves_step decoder
    rw [steps] at leaves
    exact (ih completes).trans leaves
  | halt decoder last stop steps =>
    rw [run_of_halt steps] at completes
    subst completes
    have leaves := leaves_step decoder
    rw [steps] at leaves
    exact leaves

end Decoder

/-! ### Whole streams -/

/-- What follows a complete stream ends the input. -/
theorem suffix_of_inflate {input rest : Bytes} (completes : (inflate input).2 = .complete rest) :
    rest <:+ input :=
  Decoder.suffix_of_run (Decoder.start input) completes

/-- **A stream that is not short** gives the same output and the same verdict whatever follows. -/
theorem inflate_extend {input : Bytes} (enough : (inflate input).2 ≠ .short) (more : Bytes) :
    inflate (input ++ more) = ((inflate input).1, (inflate input).2.extend more) := by
  have extended := Decoder.run_extend (Decoder.start input) none enough more
  have started : (Decoder.start input).extend more = Decoder.start (input ++ more) := rfl
  rw [started] at extended
  simp only [inflate, extended]
  rfl

/-- A complete stream is complete whatever follows it. -/
theorem inflate_append {body rest output : Bytes} (completes : inflate body = (output, .complete rest))
    (more : Bytes) : inflate (body ++ more) = (output, .complete (rest ++ more)) := by
  rw [inflate_extend (by rw [completes]; exact Halt.noConfusion) more, completes]
  rfl

/-- **The bytes of a complete stream** are a complete stream on their own. -/
theorem inflate_complete_of_append {body more output : Bytes}
    (completes : inflate (body ++ more) = (output, .complete more)) :
    inflate body = (output, .complete []) := by
  by_cases short : (inflate body).2 = .short
  · have started : (Decoder.start body).extend more = Decoder.start (body ++ more) := rfl
    have mended : (((Decoder.start body).extend more).run none).2 = .complete more := by
      rw [started]
      exact congrArg Prod.snd completes
    have less := Decoder.length_rest_lt (Decoder.start body) short more mended
    omega
  · have extended := inflate_extend short more
    rw [completes, Prod.mk.injEq] at extended
    obtain ⟨same, stops⟩ := extended
    refine Prod.ext same.symm ?_
    cases halted : (inflate body).2 with
    | complete rest =>
      rw [halted] at stops
      have nothing : rest = [] := by simpa [Halt.extend] using stops
      rw [nothing]
    | short => exact absurd halted short
    | fault => rw [halted] at stops; cases stops
    | full => rw [halted] at stops; cases stops

end Deflate

end Inflate
