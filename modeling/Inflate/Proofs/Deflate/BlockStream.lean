/-
**Streams that are written as blocks.**

A stream is a sequence of blocks of which the last one is marked. Stored blocks begin at a byte
boundary, up to which any bits may stand, and so may any bits behind the last block. Each block is read
back and writes what it expands to, at whatever bit it begins, and the stream is complete where its last
byte ends.

* `Block.bits`, `Block.expand`: a block as it is written, and what it adds to the output;
* `IsStream`: a body that is written as blocks that expand to a payload;
* `run_block`, `run_blocks`: one block, and all blocks of a stream;
* `inflate_of_isStream`: the body inflates to its payload, whatever follows it.
-/

import Inflate.Proofs.Deflate.CodeDescription

namespace Inflate

namespace Deflate

open Reading (bits)

/-! ### Blocks -/

/-- A block: bytes that are stored, with the bits in front of them that fill up a byte, or tokens in
the fixed codes or in codes of their own. -/
inductive Block where
  | stored (padding : List Bool) (content : Bytes)
  | fixed (tokens : List Token)
  | dynamic (description : Description) (tokens : List Token)

namespace Block

/-- The bits of tokens and of the end of a block. -/
def compressedBits (words : Words) (tokens : List Token) : List Bool :=
  tokens.flatMap (·.bits words) ++ words.literal 256

/-- The bits of a block: the mark of the last block, the kind, and what the kind asks for. -/
def bits (final : Bool) : Block → List Bool
  | stored padding content =>
    [final] ++ (lowBits 2 0 ++ (padding ++ (lowBits 16 content.length ++
      (lowBits 16 (65535 - content.length) ++ packed content))))
  | fixed tokens => [final] ++ (lowBits 2 1 ++ compressedBits fixedWords tokens)
  | dynamic description tokens =>
    [final] ++ (lowBits 2 2 ++ (description.bits ++ compressedBits description.words tokens))

/-- The output with what the block adds to it. -/
def expand (output : Bytes) : Block → Bytes
  | stored _ content => output ++ content
  | fixed tokens => tokens.foldl Token.expand output
  | dynamic _ tokens => tokens.foldl Token.expand output

/-- The block may begin at bit `start`, after an output: stored bytes are at most 65535 and begin at a
byte boundary, tokens may follow the output one after another, and all symbols have words. -/
def Valid (start : Nat) (output : Bytes) : Block → Prop
  | stored padding content =>
    content.length ≤ 65535 ∧ padding.length < 8 ∧ (start + 3 + padding.length) % 8 = 0
  | fixed tokens => Token.AllValid output tokens
  | dynamic description tokens =>
    description.WellFormed ∧ Token.AllValid output tokens ∧
      (∀ token ∈ tokens, token.Coded description.words) ∧ description.words.literal 256 ≠ []

/-- The blocks may follow an output one after another, the first one from bit `start` on. -/
def AllValid (start : Nat) (output : Bytes) : List Block → Prop
  | [] => True
  | block :: blocks =>
    block.Valid start output ∧
      AllValid (start + (block.bits false).length) (block.expand output) blocks

/-- The bits of all blocks. The last one is marked. -/
def allBits : List Block → List Bool
  | [] => []
  | [block] => block.bits true
  | block :: blocks => block.bits false ++ allBits blocks

end Block

/-- A body that is written as blocks that expand to a payload, with any bits at its end that fill up the
last byte. -/
structure IsStream (blocks : List Block) (payload body : Bytes) : Prop where
  nonempty : blocks ≠ []
  valid : Block.AllValid 0 [] blocks
  expands : blocks.foldl Block.expand [] = payload
  packs : ∃ padding : List Bool, padding.length < 8 ∧
    packed body = Block.allBits blocks ++ padding

/-! ### Headers of blocks -/

theorem reads_fixedHeader (final : Bool) :
    readBlockHeader.Reads ([final] ++ lowBits 2 1) ⟨final, .compressed fixedCodes⟩ :=
  (Reading.reads_bit final).bind ((Reading.reads_bits (n := 1) (by decide)).bind_pure rfl)

theorem reads_dynamicHeader (final : Bool) {description : Description}
    (wellFormed : description.WellFormed) :
    readBlockHeader.Reads ([final] ++ (lowBits 2 2 ++ description.bits))
      ⟨final, .compressed description.codes⟩ :=
  (Reading.reads_bit final).bind ((Reading.reads_bits (n := 2) (by decide)).bind
    (wellFormed.reads_readCodes.bind_pure rfl))

/-- The header of a stored block is read back where its padding ends at a byte boundary. -/
theorem readBlockHeader_stored (final : Bool) {padding : List Bool} {count : Nat}
    (most : count ≤ 65535) (short : padding.length < 8) {reader : BitReader} {rest : List Bool}
    (whole : rest.length % 8 = 0)
    (holds : reader.Holds ([final] ++ (lowBits 2 0 ++ (padding ++ (lowBits 16 count ++
      (lowBits 16 (65535 - count) ++ rest)))))) :
    ∃ after, readBlockHeader reader = .read ⟨final, .stored count⟩ after ∧ after.Holds rest := by
  obtain ⟨afterFinal, readFinal, left⟩ := Reading.reads_bit final reader _ holds
  have kind : (bits 2).Reads (lowBits 2 0) 0 := Reading.reads_bits (by decide)
  obtain ⟨afterKind, readKind, left⟩ := kind afterFinal _ left
  have aligned := left.align short (by
    simp only [List.length_append, length_lowBits]
    omega)
  have reads : Reading.Reads (do
      let found ← bits 16
      let complement ← bits 16
      if found + complement = 65535 then pure found else Reading.fault : Reading Nat)
      (lowBits 16 count ++ lowBits 16 (65535 - count)) count :=
    (Reading.reads_bits (by omega)).bind
      ((Reading.reads_bits (by omega)).bind_pure (if_pos (by omega)))
  rw [← List.append_assoc] at aligned
  obtain ⟨after, readCount, left⟩ := reads _ _ aligned
  refine ⟨after, ?_, left⟩
  have stored : readStoredCount afterKind = .read count after :=
    (Reading.bind_of_read rfl).trans readCount
  rw [readBlockHeader, Reading.bind_of_read readFinal, Reading.bind_of_read readKind, if_pos rfl,
    Reading.bind_of_read stored]
  rfl

/-! ### Runs -/

namespace Decoder

/-- **Stored bytes** are written as they are. -/
theorem run_stored (final : Bool) (content output : Bytes) {reader : BitReader}
    {rest : List Bool} (holds : reader.Holds (packed content ++ rest)) :
    ∃ after : BitReader, after.Holds rest ∧
      (⟨reader, output.toArray, .stored final content.length⟩ : Decoder).run none =
        runOn final after (output ++ content) := by
  induction content generalizing output reader with
  | nil =>
    refine ⟨reader, holds, ?_⟩
    rw [List.append_nil]
    exact run_of_endBlock rfl
  | cons byte content ih =>
    rw [packed, List.flatMap_cons, List.append_assoc] at holds
    obtain ⟨middle, read, left⟩ := Reading.reads_byte byte reader _ holds
    obtain ⟨after, leftAfter, goes⟩ := ih (output ++ [byte]) left
    refine ⟨after, leftAfter, ?_⟩
    have begins : (⟨reader, output.toArray, .stored final (content.length + 1)⟩ : Decoder).step =
        .next ⟨middle, output.toArray.push byte, .stored final content.length⟩ := by
      simp only [step, read, UInt8.ofNat_toNat]
    rw [List.length_cons, run_of_next begins, List.push_toArray, goes, List.append_assoc]
    rfl

/-- **A block of tokens** writes their expansion. -/
theorem run_compressed {words : Words} {codes : Codes} (readBy : words.ReadBy codes) {final : Bool}
    {header : List Bool} (reads : readBlockHeader.Reads header ⟨final, .compressed codes⟩)
    {tokens : List Token} {output : Bytes} (valid : Token.AllValid output tokens)
    (coded : ∀ token ∈ tokens, token.Coded words) (ended : words.literal 256 ≠ [])
    {reader : BitReader} {rest : List Bool}
    (holds : reader.Holds (header ++ (Block.compressedBits words tokens ++ rest))) :
    ∃ after : BitReader, after.Holds rest ∧
      (⟨reader, output.toArray, .header⟩ : Decoder).run none =
        runOn final after (tokens.foldl Token.expand output) := by
  obtain ⟨middle, read, left⟩ := reads reader _ holds
  rw [Block.compressedBits, List.append_assoc] at left
  obtain ⟨after, leftAfter, goes⟩ := run_tokens readBy final tokens valid coded ended left
  refine ⟨after, leftAfter, ?_⟩
  have begins : (⟨reader, output.toArray, .header⟩ : Decoder).step =
      .next ⟨middle, output.toArray, .items final codes⟩ := by
    simp only [step, read, BlockHeader.phase]
  rw [run_of_next begins, goes]

/-- The tokens of a fixed block have words wherever they may stand. -/
theorem coded_of_allValid {output : Bytes} {tokens : List Token}
    (valid : Token.AllValid output tokens) : ∀ token ∈ tokens, token.Coded fixedWords := by
  induction tokens generalizing output with
  | nil => exact fun _ none => nomatch none
  | cons token tokens ih =>
    obtain ⟨first, others⟩ := valid
    exact List.forall_mem_cons.mpr ⟨Token.coded_fixedWords first, ih others⟩

/-- **A block** writes what it expands to, at whatever bit it begins. -/
theorem run_block (final : Bool) {start : Nat} {output : Bytes} {block : Block}
    (valid : block.Valid start output) {reader : BitReader} {rest : List Bool}
    (aligned : (start + (block.bits final ++ rest).length) % 8 = 0)
    (holds : reader.Holds (block.bits final ++ rest)) :
    ∃ after : BitReader, after.Holds rest ∧
      (⟨reader, output.toArray, .header⟩ : Decoder).run none =
        runOn final after (block.expand output) := by
  cases block with
  | stored padding content =>
    obtain ⟨most, short, boundary⟩ := valid
    simp only [Block.bits, List.append_assoc] at holds aligned
    simp only [List.length_append, List.length_singleton, length_lowBits, length_packed] at aligned
    have whole : (packed content ++ rest).length % 8 = 0 := by
      rw [List.length_append, length_packed]
      omega
    obtain ⟨middle, read, left⟩ := readBlockHeader_stored final most short whole holds
    obtain ⟨after, leftAfter, goes⟩ := run_stored final content output left
    refine ⟨after, leftAfter, ?_⟩
    have begins : (⟨reader, output.toArray, .header⟩ : Decoder).step =
        .next ⟨middle, output.toArray, .stored final content.length⟩ := by
      simp only [step, read, BlockHeader.phase]
    rw [run_of_next begins, goes]
    rfl
  | fixed tokens =>
    simp only [Block.bits, List.append_assoc] at holds
    rw [← List.append_assoc] at holds
    exact run_compressed readBy_fixedWords (reads_fixedHeader final) valid
      (coded_of_allValid valid) (literal_fixedWords_ne_nil (by decide)) holds
  | dynamic description tokens =>
    obtain ⟨wellFormed, tokensValid, coded, ended⟩ := valid
    have split : reader.Holds (([final] ++ (lowBits 2 2 ++ description.bits)) ++
        (Block.compressedBits description.words tokens ++ rest)) := by
      simpa only [Block.bits, List.append_assoc] using holds
    exact run_compressed wellFormed.readBy (reads_dynamicHeader final wellFormed) tokensValid coded
      ended split

/-- **The blocks of a stream** write what they expand to, and the stream is complete where its last byte
ends. -/
theorem run_blocks {blocks : List Block} (nonempty : blocks ≠ []) {start : Nat} {output : Bytes}
    (valid : Block.AllValid start output blocks) {reader : BitReader} {padding : List Bool}
    {rest : Bytes} (short : padding.length < 8)
    (aligned : (start + (Block.allBits blocks ++ padding).length) % 8 = 0)
    (holds : reader.Holds (Block.allBits blocks ++ (padding ++ packed rest))) :
    ∃ last : Decoder, last.output = (blocks.foldl Block.expand output).toArray ∧
      (⟨reader, output.toArray, .header⟩ : Decoder).run none = (last, .complete rest) := by
  induction blocks generalizing start output reader with
  | nil => exact absurd rfl nonempty
  | cons block blocks ih =>
    obtain ⟨first, others⟩ := valid
    cases blocks with
    | nil =>
      rw [Block.allBits] at holds aligned
      have whole : (start + (block.bits true ++ (padding ++ packed rest)).length) % 8 = 0 := by
        simp only [List.length_append, length_packed] at aligned ⊢
        omega
      obtain ⟨after, left, goes⟩ := run_block true first whole holds
      refine ⟨⟨after, (block.expand output).toArray, .header⟩, rfl, ?_⟩
      rw [goes, runOn, if_pos rfl, left.align_eq short]
      rfl
    | cons next blocks =>
      have bits : Block.allBits (block :: next :: blocks) =
          block.bits false ++ Block.allBits (next :: blocks) := rfl
      rw [bits, List.append_assoc] at holds aligned
      have whole : (start + (block.bits false ++
          (Block.allBits (next :: blocks) ++ (padding ++ packed rest))).length) % 8 = 0 := by
        simp only [List.length_append, length_packed] at aligned ⊢
        omega
      obtain ⟨after, left, goes⟩ := run_block false first whole holds
      rw [List.length_append, ← Nat.add_assoc] at aligned
      obtain ⟨last, written, completes⟩ := ih (List.cons_ne_nil _ _) others aligned left
      exact ⟨last, written, goes.trans completes⟩

end Decoder

/-! ### Whole streams -/

/-- **A body inflates to its payload**, whatever follows it. -/
theorem inflate_of_isStream {blocks : List Block} {payload body : Bytes}
    (stream : IsStream blocks payload body) (rest : Bytes) :
    inflate (body ++ rest) = (payload, .complete rest) := by
  obtain ⟨padding, short, packs⟩ := stream.packs
  have holds : (BitReader.ofBytes (body ++ rest)).Holds
      (Block.allBits blocks ++ (padding ++ packed rest)) := by
    have all := BitReader.holds_ofBytes (body ++ rest)
    rwa [packed_append, packs, List.append_assoc] at all
  have aligned : (0 + (Block.allBits blocks ++ padding).length) % 8 = 0 := by
    rw [← packs, length_packed]
    omega
  obtain ⟨last, written, completes⟩ :=
    Decoder.run_blocks stream.nonempty stream.valid short aligned holds
  have started : Decoder.start (body ++ rest) =
      ⟨BitReader.ofBytes (body ++ rest), ([] : Bytes).toArray, .header⟩ := rfl
  rw [stream.expands] at written
  simp only [inflate, started, completes, written]

end Deflate

end Inflate
