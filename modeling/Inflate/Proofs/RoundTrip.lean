/-
**Decoding undoes encoding.**

Whatever way a payload is written as blocks, and whatever header it stands behind, its container decodes
to it. Nothing is assumed of the encoder but that its blocks say what they say: not how it divides the
payload, which copies it finds, which codes it chooses or how it describes them.

* `Zlib.write`, `Gzip.write`: a payload in a container;
* `decode_write_of_isStream`: blocks of all kinds, in both containers;
* `decode_write_dynamic`: one block that brings its own codes.
-/

import Inflate.Proofs.Deflate.BlockStream
import Inflate.Proofs.Gzip.Grammar
import Inflate.Proofs.Zlib.Verdict

namespace Inflate

open Deflate (IsStream Block Token Description inflate packed)

/-! ### Containers -/

namespace Zlib

/-- A zlib stream: the two bytes of its header, the body and the checksum of the payload. -/
def write (cmf flg : UInt8) (body payload : Bytes) : Bytes :=
  [cmf, flg] ++ body ++ Bytes.ofBigEndian 4 (adler32 payload).toNat

/-- What is decoded of a zlib stream. -/
def written (cmf flg : UInt8) (body payload : Bytes) : Decoded where
  data := payload
  format := .zlib
  checksum := adler32 payload
  header := none
  consumed := (write cmf flg body payload).length

theorem conclusion_write (options : Options) (input payload : Bytes) :
    conclusion options input payload (Bytes.ofBigEndian 4 (adler32 payload).toNat) =
      .ok { data := payload, format := .zlib, checksum := adler32 payload, header := none
            consumed := input.length } := by
  have length := length_ofBigEndian 4 (adler32 payload).toNat
  have whole : (Bytes.ofBigEndian 4 (adler32 payload).toNat).take 4 =
      Bytes.ofBigEndian 4 (adler32 payload).toNat := List.take_of_length_le (Nat.le_of_eq length)
  have stored := ofNat_bigEndian_ofBigEndian (adler32 payload)
  simp only [conclusion, whole, stored, length, trailerLength]
  rw [if_neg (Nat.lt_irrefl 4), if_neg (not_not_intro rfl), if_neg (fun more => more.1 rfl)]

/-- **A zlib stream decodes to its payload**, if its body inflates to it. -/
theorem yields_written {cmf flg : UInt8} (valid : Header.Valid cmf flg) {body payload : Bytes}
    (inflates : ∀ rest, inflate (body ++ rest) = (payload, .complete rest)) :
    Yields payload.length (.ok (written cmf flg body payload))
      (decode (write cmf flg body payload) {}) := by
  have yields := yields_conclusion valid rfl (inflates (Bytes.ofBigEndian 4 (adler32 payload).toNat))
    (permits_default payload.length)
  rw [conclusion_write] at yields
  exact yields

end Zlib

namespace Gzip

/-- A gzip file of one member: its header, the body, and the checksum and size of the payload. -/
def write (header : Header) (body payload : Bytes) : Bytes :=
  header.encode ++ body ++ (Bytes.ofLittleEndian 4 (crc32 payload).toNat ++
    Bytes.ofLittleEndian 4 (payload.length % 2 ^ 32))

/-- What is decoded of a gzip file of one member. -/
def written (header : Header) (body payload : Bytes) : Decoded where
  data := payload
  format := .gzip
  checksum := crc32 payload
  header := some header
  consumed := (write header body payload).length

/-- **A gzip file decodes to its payload**, if its body inflates to it. -/
theorem yields_written {header : Header} (wellFormed : header.WellFormed) {body payload : Bytes}
    (inflates : ∀ rest, inflate (body ++ rest) = (payload, .complete rest)) :
    Yields payload.length (.ok (written header body payload))
      (decode (write header body payload) {}) := by
  have alone := inflates []
  rw [List.append_nil] at alone
  have parsed := Header.parse_encode_append wellFormed []
  rw [List.append_nil] at parsed
  have member : Written.WellFormed ⟨header.encode, body, header, payload⟩ :=
    ⟨parsed, wellFormed.length, alone⟩
  have file : Members (write header body payload) [⟨header.encode, body, header, payload⟩] [] := by
    have last : ¬magic <+: ([] : Bytes) := by decide
    have single := Members.single member last
    rwa [List.append_nil] at single
  have output : outputs [⟨header.encode, body, header, payload⟩] = payload :=
    List.flatMap_singleton _ _
  have yields := yields_of_members rfl file (Or.inl rfl) (permits_default _)
  rw [summary, output] at yields
  exact yields

end Gzip

/-! ### All blocks -/

/-- **Decoding undoes encoding.** A payload that is written as a sequence of blocks, stored ones, fixed
ones and ones with codes of their own in any order, with any padding, decodes to itself:

* behind any valid header of a zlib stream, with its Adler-32 checksum behind it;
* behind any header of a gzip member, with its CRC-32 checksum and its size behind it.

The whole input is consumed. -/
theorem decode_write_of_isStream {blocks : List Block} {payload body : Bytes}
    (stream : IsStream blocks payload body) :
    (∀ cmf flg, Zlib.Header.Valid cmf flg →
      Yields payload.length (.ok (Zlib.written cmf flg body payload))
        (Zlib.decode (Zlib.write cmf flg body payload) {})) ∧
    ∀ header : Gzip.Header, header.WellFormed →
      Yields payload.length (.ok (Gzip.written header body payload))
        (Gzip.decode (Gzip.write header body payload) {}) := by
  have inflates := Deflate.inflate_of_isStream stream
  exact ⟨fun cmf flg valid => Zlib.yields_written valid inflates,
    fun header wellFormed => Gzip.yields_written wellFormed inflates⟩

/-- A stored letter that a fixed block repeats. -/
theorem decode_write_letters :
    IsStream [.stored [true, false, true, true, false] [0x61], .fixed [.copy 3 1]]
        [0x61, 0x61, 0x61, 0x61] [104, 1, 0, 254, 255, 97, 3, 2, 192] ∧
      Zlib.Header.Valid 0x78 0x9c ∧
      Zlib.decode [0x78, 0x9c, 104, 1, 0, 254, 255, 97, 3, 2, 192, 3, 206, 1, 133] {} =
        .ok { data := [0x61, 0x61, 0x61, 0x61], format := .zlib, checksum := 0x03ce0185
              header := none, consumed := 15 } := by
  have stream : IsStream [.stored [true, false, true, true, false] [0x61], .fixed [.copy 3 1]]
      [0x61, 0x61, 0x61, 0x61] [104, 1, 0, 254, 255, 97, 3, 2, 192] := by
    refine ⟨List.cons_ne_nil _ _, ⟨⟨by decide, by decide, by decide⟩, ⟨?_, trivial⟩, trivial⟩, rfl,
      ⟨[true, true], by decide, by decide +kernel⟩⟩
    exact ⟨by decide, by decide, by decide, by decide, by decide⟩
  have valid : Zlib.Header.Valid 0x78 0x9c := ⟨by decide, by decide, by decide, by decide⟩
  refine ⟨stream, valid, ?_⟩
  have yields := (decode_write_of_isStream stream).1 0x78 0x9c valid
  have decoded := yields.eq (by decide)
  have bytes : Zlib.write 0x78 0x9c [104, 1, 0, 254, 255, 97, 3, 2, 192] [0x61, 0x61, 0x61, 0x61] =
      [0x78, 0x9c, 104, 1, 0, 254, 255, 97, 3, 2, 192, 3, 206, 1, 133] := by decide +kernel
  have result : Zlib.written 0x78 0x9c [104, 1, 0, 254, 255, 97, 3, 2, 192]
      [0x61, 0x61, 0x61, 0x61] = { data := [0x61, 0x61, 0x61, 0x61], format := .zlib
                                   checksum := 0x03ce0185, header := none, consumed := 15 } := by
    decide +kernel
  rw [bytes, result] at decoded
  exact decoded

/-! ### Codes of one's own -/

/-- **Decoding undoes encoding with codes of one's own.** A payload that is written as one last block
whose tokens are written in two described codes decodes to itself: for all lengths that make complete
codes, or a sparse code of distances; however the description writes these lengths; and for all tokens
whose symbols have words. The whole input is consumed. -/
theorem decode_write_dynamic {description : Description} (wellFormed : description.WellFormed)
    {tokens : List Token} {payload : Bytes} (valid : Token.AllValid [] tokens)
    (coded : ∀ token ∈ tokens, token.Coded description.words)
    (ended : description.words.literal 256 ≠ [])
    (expands : tokens.foldl Token.expand [] = payload) {body : Bytes} {padding : List Bool}
    (short : padding.length < 8)
    (packs : packed body = (Block.dynamic description tokens).bits true ++ padding)
    {cmf flg : UInt8} (header : Zlib.Header.Valid cmf flg) :
    Yields payload.length (.ok (Zlib.written cmf flg body payload))
      (Zlib.decode (Zlib.write cmf flg body payload) {}) := by
  have stream : IsStream [.dynamic description tokens] payload body :=
    ⟨List.cons_ne_nil _ _, ⟨⟨wellFormed, valid, coded, ended⟩, trivial⟩, expands,
      ⟨padding, short, packs⟩⟩
  exact Zlib.yields_written header (Deflate.inflate_of_isStream stream)

/-- Codes for one letter, the length three and the distance one. -/
def letterCodes : Description where
  literals := List.replicate 97 0 ++ (2 :: (List.replicate 158 0 ++ [2, 1]))
  distances := [1]
  codeLengths := [0, 2, 2] ++ List.replicate 15 0 ++ [1]
  written := 18
  items := [.manyZeros 97, .one 2, .manyZeros 138, .manyZeros 20, .one 2, .one 1, .one 1]

theorem wellFormed_letterCodes : letterCodes.WellFormed where
  literalCount := by decide +kernel
  distanceCount := by decide
  literals := ⟨by decide +kernel, by decide +kernel⟩
  distances := Or.inr ⟨by decide, by decide⟩
  codeLengthCount := by decide
  codeLengths := ⟨by decide, by decide⟩
  writtenCount := by decide
  leftOut := by decide
  items := by
    have lists : letterCodes.literals ++ letterCodes.distances =
        List.replicate 97 0 ++ (2 :: (List.replicate 138 0 ++ (List.replicate 20 0 ++
          [2, 1, 1]))) := by decide +kernel
    rw [lists]
    refine .manyZeros (by decide) (by decide) (.one (by decide) ?_)
    refine .manyZeros (by decide) (by decide) (.manyZeros (by decide) (by decide) ?_)
    exact .one (by decide) (.one (by decide) (.one (by decide) (.nil _)))
  coded := by decide

/-- A letter in a code of its own, repeated. -/
theorem decode_write_letterCodes :
    letterCodes.WellFormed ∧ Zlib.Header.Valid 0x78 0x9c ∧
      packed [13, 192, 129, 0, 0, 0, 0, 128, 32, 214, 253, 37, 174, 248] =
        (Block.dynamic letterCodes [.literal 0x61, .copy 3 1]).bits true ++ [true, true, true] ∧
      Zlib.decode ([0x78, 0x9c, 13, 192, 129, 0, 0, 0, 0, 128, 32, 214, 253, 37, 174, 248] ++
          [3, 206, 1, 133]) {} =
        .ok { data := [0x61, 0x61, 0x61, 0x61], format := .zlib, checksum := 0x03ce0185
              header := none, consumed := 20 } := by
  have valid : Zlib.Header.Valid 0x78 0x9c := ⟨by decide, by decide, by decide, by decide⟩
  have packs : packed [13, 192, 129, 0, 0, 0, 0, 128, 32, 214, 253, 37, 174, 248] =
      (Block.dynamic letterCodes [.literal 0x61, .copy 3 1]).bits true ++ [true, true, true] := by
    decide +kernel
  refine ⟨wellFormed_letterCodes, valid, packs, ?_⟩
  have tokens : Token.AllValid [] [.literal 0x61, .copy 3 1] :=
    ⟨trivial, ⟨by decide, by decide, by decide, by decide, by decide⟩, trivial⟩
  have coded : ∀ token ∈ [Token.literal 0x61, .copy 3 1], token.Coded letterCodes.words := by
    refine List.forall_mem_cons.mpr ⟨?_, List.forall_mem_singleton.mpr ⟨?_, ?_⟩⟩
    · show letterCodes.words.literal 97 ≠ []
      decide +kernel
    · show letterCodes.words.literal 257 ≠ []
      decide +kernel
    · show letterCodes.words.distance 0 ≠ []
      decide +kernel
  have yields := decode_write_dynamic wellFormed_letterCodes tokens coded (by decide +kernel) rfl
    (by decide) packs valid
  have decoded := yields.eq (by decide)
  have bytes : Zlib.write 0x78 0x9c [13, 192, 129, 0, 0, 0, 0, 128, 32, 214, 253, 37, 174, 248]
      [0x61, 0x61, 0x61, 0x61] =
        [0x78, 0x9c, 13, 192, 129, 0, 0, 0, 0, 128, 32, 214, 253, 37, 174, 248] ++
          [3, 206, 1, 133] := by decide +kernel
  have result : Zlib.written 0x78 0x9c [13, 192, 129, 0, 0, 0, 0, 128, 32, 214, 253, 37, 174, 248]
      [0x61, 0x61, 0x61, 0x61] = { data := [0x61, 0x61, 0x61, 0x61], format := .zlib
                                   checksum := 0x03ce0185, header := none, consumed := 20 } := by
    decide +kernel
  rw [← bytes, ← result]
  exact decoded

end Inflate
