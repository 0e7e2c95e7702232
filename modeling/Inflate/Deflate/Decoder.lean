/-
**The DEFLATE decoder as a machine.**

The machine holds a bit reader, the output so far and a phase: before a block header, inside a stored
block, before an item of a compressed block, or with bytes of an item still to be written. A step
reads a header, a stored byte or an item, or writes one byte. A copy may reach before the start of
the output, where the window holds zeros.

The machine runs until the stream ends, the input ends, a fault is met, or a byte has to be written
past the room it was given; in the last case it can go on later.

* `Decoder.run`: the run of a machine within its room;
* `Decoder.before_of_step`: a step reads bits or shortens the phase, so every run ends;
* `Decoder.run_before_or_eq`: a run that stops for want of room has made progress or had no room;
* `inflate`: the whole output of a stream, without any limit.
-/

import Inflate.Deflate.Block

namespace Inflate

namespace Deflate

/-- What the machine does next. -/
inductive Phase where
  | header
  | stored (final : Bool) (left : Nat)
  | items (final : Bool) (codes : Codes)
  | literal (final : Bool) (codes : Codes) (byte : UInt8)
  | copy (final : Bool) (codes : Codes) (left distance : Nat)
deriving DecidableEq, Repr

/-- How many steps a phase can take without reading. -/
def Phase.weight : Phase → Nat
  | header => 0
  | stored _ _ => 1
  | items _ _ => 1
  | literal _ _ _ => 2
  | copy _ _ left _ => left + 2

/-- The phase after the header of a block. -/
def BlockHeader.phase (header : BlockHeader) : Phase :=
  match header.body with
  | .stored count => .stored header.final count
  | .compressed codes => .items header.final codes

/-- The machine. -/
structure Decoder where
  reader : BitReader
  output : Array UInt8 := #[]
  phase : Phase := .header

/-- Why a run stopped: the stream is complete and some bytes follow it, the input is short, the data
is at fault, or the room is full. -/
inductive Halt where
  | complete (rest : Bytes)
  | short
  | fault
  | full
deriving DecidableEq, Repr

namespace Decoder

/-- A machine at the start of a stream. -/
def start (input : Bytes) : Decoder := { reader := .ofBytes input }

/-- The byte a copy takes from `distance` bytes before the end of the output. -/
def byteBack (output : Array UInt8) (distance : Nat) : UInt8 :=
  if distance ≤ output.size then (output[output.size - distance]?).getD 0 else 0

/-- Whether the next step writes a byte. -/
def writes (decoder : Decoder) : Bool :=
  match decoder.phase with
  | .stored _ (_ + 1) | .literal _ _ _ | .copy _ _ (_ + 1) _ => true
  | _ => false

/-! ### Steps -/

/-- The outcome of a step. -/
inductive Step where
  | next (decoder : Decoder)
  | halt (decoder : Decoder) (halt : Halt)

/-- The step at the end of a block. -/
def endBlock (final : Bool) (reader : BitReader) (output : Array UInt8) : Step :=
  if final then .halt ⟨reader, output, .header⟩ (.complete reader.align.bytes)
  else .next ⟨reader, output, .header⟩

/-- One step. -/
def step : Decoder → Step
  | ⟨reader, output, .header⟩ =>
    match readBlockHeader reader with
    | .read header rest => .next ⟨rest, output, header.phase⟩
    | .short => .halt ⟨reader, output, .header⟩ .short
    | .fault => .halt ⟨reader, output, .header⟩ .fault
  | ⟨reader, output, .stored final 0⟩ => endBlock final reader output
  | ⟨reader, output, .stored final (left + 1)⟩ =>
    match Reading.bits 8 reader with
    | .read byte rest => .next ⟨rest, output.push (UInt8.ofNat byte), .stored final left⟩
    | .short => .halt ⟨reader, output, .stored final (left + 1)⟩ .short
    | .fault => .halt ⟨reader, output, .stored final (left + 1)⟩ .fault
  | ⟨reader, output, .items final codes⟩ =>
    match readItem codes reader with
    | .read (.literal byte) rest => .next ⟨rest, output, .literal final codes byte⟩
    | .read (.copy length distance) rest => .next ⟨rest, output, .copy final codes length distance⟩
    | .read .endOfBlock rest => endBlock final rest output
    | .short => .halt ⟨reader, output, .items final codes⟩ .short
    | .fault => .halt ⟨reader, output, .items final codes⟩ .fault
  | ⟨reader, output, .literal final codes byte⟩ =>
    .next ⟨reader, output.push byte, .items final codes⟩
  | ⟨reader, output, .copy final codes 0 _⟩ => .next ⟨reader, output, .items final codes⟩
  | ⟨reader, output, .copy final codes (left + 1) distance⟩ =>
    .next ⟨reader, output.push (byteBack output distance), .copy final codes left distance⟩

/-- The first machine has fewer bits to read than the second, or as many and a lighter phase. -/
def Before (later earlier : Decoder) : Prop :=
  later.reader.size < earlier.reader.size ∨
    (later.reader.size = earlier.reader.size ∧ later.phase.weight < earlier.phase.weight)

theorem Before.trans {first second third : Decoder} (left : Before first second)
    (right : Before second third) : Before first third := by
  unfold Before at *
  omega

theorem Before.lex {later earlier : Decoder} (before : Before later earlier) :
    Prod.Lex (· < ·) (· < ·) (later.reader.size, later.phase.weight)
      (earlier.reader.size, earlier.phase.weight) := by
  rcases before with less | ⟨same, lighter⟩
  · exact Prod.Lex.left _ _ less
  · rw [same]
    exact Prod.Lex.right _ lighter

/-- A step reads bits or shortens the phase. -/
theorem before_of_step {decoder later : Decoder} (steps : decoder.step = .next later) :
    Before later decoder := by
  unfold Before
  unfold step at steps
  split at steps
  · split at steps
    · next read =>
      cases steps
      have taken := consumes_readBlockHeader _ _ _ read
      left
      simp only
      omega
    · cases steps
    · cases steps
  · unfold endBlock at steps
    split at steps
    · cases steps
    · cases steps
      exact Or.inr ⟨rfl, by simp [Phase.weight]⟩
  · split at steps
    · next read =>
      cases steps
      have taken := Reading.consumes_bits 8 _ _ _ read
      left
      simp only
      omega
    · cases steps
    · cases steps
  · split at steps
    · next read =>
      cases steps
      have taken := consumes_readItem _ _ _ _ read
      left
      simp only
      omega
    · next read =>
      cases steps
      have taken := consumes_readItem _ _ _ _ read
      left
      simp only
      omega
    · next read =>
      unfold endBlock at steps
      split at steps
      · cases steps
      · cases steps
        have taken := consumes_readItem _ _ _ _ read
        left
        simp only
        omega
    · cases steps
    · cases steps
  · cases steps
    exact Or.inr ⟨rfl, by simp [Phase.weight]⟩
  · cases steps
    exact Or.inr ⟨rfl, by simp [Phase.weight]⟩
  · cases steps
    exact Or.inr ⟨rfl, by simp [Phase.weight]⟩

/-! ### Runs -/

/-- Whether a byte has to be written and the room for the whole output is used up. -/
def isFull (decoder : Decoder) (room : Option Nat) : Bool :=
  match room with
  | some room => decoder.writes && decide (room ≤ decoder.output.size)
  | none => false

/-- Runs the machine until it stops or has to write past its room. -/
def run (decoder : Decoder) (room : Option Nat) : Decoder × Halt :=
  if decoder.isFull room then (decoder, .full)
  else
    match steps : decoder.step with
    | .next later =>
      have : Before later decoder := before_of_step steps
      run later room
    | .halt last halt => (last, halt)
termination_by (decoder.reader.size, decoder.phase.weight)
decreasing_by exact Before.lex this

/-- A step stops the machine for every reason but a want of room. -/
theorem ne_full_of_step {decoder last : Decoder} {halt : Halt}
    (steps : decoder.step = .halt last halt) : halt ≠ .full := by
  have ended : ∀ {final reader output}, endBlock final reader output = .halt last halt →
      halt ≠ .full := by
    intro final reader output stops
    unfold endBlock at stops
    split at stops
    · cases stops
      exact Halt.noConfusion
    · cases stops
  unfold step at steps
  split at steps
  · split at steps <;> cases steps <;> exact Halt.noConfusion
  · exact ended steps
  · split at steps <;> cases steps <;> exact Halt.noConfusion
  · split at steps
    · cases steps
    · cases steps
    · exact ended steps
    · cases steps
      exact Halt.noConfusion
    · cases steps
      exact Halt.noConfusion
  · cases steps
  · cases steps
  · cases steps

/-- A run that stops for want of room has made progress or had no room at its start. -/
theorem run_before_or_eq {decoder last : Decoder} {room : Option Nat}
    (runs : decoder.run room = (last, .full)) :
    Before last decoder ∨ (last = decoder ∧ decoder.isFull room = true) := by
  rw [run] at runs
  split at runs
  · next full =>
    cases runs
    exact Or.inr ⟨rfl, full⟩
  · split at runs
    · next later steps =>
      have before := before_of_step steps
      rcases run_before_or_eq runs with further | ⟨same, _⟩
      · exact Or.inl (further.trans before)
      · exact Or.inl (same ▸ before)
    · next steps =>
      cases runs
      exact absurd rfl (ne_full_of_step steps)
termination_by (decoder.reader.size, decoder.phase.weight)
decreasing_by apply Before.lex; assumption

theorem Before.size_le {later earlier : Decoder} (before : Before later earlier) :
    later.reader.size ≤ earlier.reader.size := by
  unfold Before at before
  omega

/-- A step that completes the stream leaves no more bytes than there were. -/
theorem rest_le_of_step {decoder last : Decoder} {rest : Bytes}
    (steps : decoder.step = .halt last (.complete rest)) :
    8 * rest.length ≤ decoder.reader.size := by
  have aligned : ∀ {final reader output},
      endBlock final reader output = .halt last (.complete rest) →
        8 * rest.length ≤ reader.size := by
    intro final reader output ended
    unfold endBlock at ended
    split at ended
    · cases ended
      simp only [BitReader.align, BitReader.size]
      omega
    · cases ended
  unfold step at steps
  split at steps
  · split at steps <;> cases steps
  · exact aligned steps
  · split at steps <;> cases steps
  · split at steps
    · cases steps
    · cases steps
    · next read =>
      have taken := consumes_readItem _ _ _ _ read
      have left := aligned steps
      simp only
      omega
    · cases steps
    · cases steps
  · cases steps
  · cases steps
  · cases steps

/-- A run that completes the stream leaves no more bytes than there were. -/
theorem rest_le_of_run {decoder last : Decoder} {room : Option Nat} {rest : Bytes}
    (runs : decoder.run room = (last, .complete rest)) :
    8 * rest.length ≤ decoder.reader.size := by
  rw [run] at runs
  split at runs
  · cases runs
  · split at runs
    · next later steps =>
      have before := before_of_step steps
      have left := rest_le_of_run runs
      have fewer := before.size_le
      omega
    · next steps =>
      cases runs
      exact rest_le_of_step steps
termination_by (decoder.reader.size, decoder.phase.weight)
decreasing_by apply Before.lex; assumption

end Decoder

/-! ### Whole streams -/

/-- The output of the stream at the front of the input, without a limit, and why it ended. -/
def inflate (input : Bytes) : Bytes × Halt :=
  let stopped := (Decoder.start input).run none
  (stopped.1.output.toList, stopped.2)

end Deflate

end Inflate
