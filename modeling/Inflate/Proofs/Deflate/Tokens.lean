/-
**Tokens of a compressed block.**

A token is a literal byte or a copy. A copy is written as the symbol of its length, some extra bits,
the symbol of its distance and again some extra bits; symbols and extra bits follow from the place of
the highest bit of the value. What is written is read back as the same item, and the items of a block
write what the tokens expand to, also where a copy overlaps what it writes.

* `lengthCode`, `distanceCode`: the symbol and the extra bits of a value;
* `Token.bits`, `Token.expand`: a token as it is written, and what it adds to the output;
* `Words.ReadBy`: the words of a block are read back by its codes;
* `readBy_canonicalWords`, `readBy_fixedWords`: so they are for canonical and for fixed codes;
* `run_tokens`: a block of tokens writes their expansion.
-/

import Inflate.Proofs.Deflate.CanonicalCode

namespace Inflate

namespace Deflate

open Reading (Reads bits)
open PrefixCode (wordBits canonicalWord ofLengths Fits Complete)

/-! ### Symbols and extra bits -/

/-- A value as it is written: its symbol and a number of some extra bits. -/
structure ValueCode where
  symbol : Nat
  extraBits : Nat
  extra : Nat

/-- A length of 3 to 258: four symbols for each place of the highest bit, and one of its own for the
greatest length. -/
def lengthCode (length : Nat) : ValueCode :=
  let n := length - 3
  let e := n.log2 - 2
  if length = 258 then ⟨285, 0, 0⟩
  else if n < 8 then ⟨257 + n, 0, 0⟩
  else ⟨257 + 4 * e + n / 2 ^ e, e, n % 2 ^ e⟩

/-- A distance of 1 to 32768: two symbols for each place of the highest bit. -/
def distanceCode (distance : Nat) : ValueCode :=
  let n := distance - 1
  let e := n.log2 - 1
  if n < 4 then ⟨n, 0, 0⟩ else ⟨2 * e + n / 2 ^ e, e, n % 2 ^ e⟩

/-- A value is read back from its extra bits, if its class is the one of its symbol. -/
theorem reads_class {found : Option ValueClass} {code : ValueCode} {least value : Nat}
    (class' : found = some ⟨least, code.extraBits⟩) (sum : least + code.extra = value)
    (small : code.extra < 2 ^ code.extraBits) :
    (readClass found).Reads (lowBits code.extraBits code.extra) value := by
  subst class' sum
  exact (Reading.reads_bits small).bind_pure rfl

theorem le_symbol_lengthCode (length : Nat) : 257 ≤ (lengthCode length).symbol := by
  simp only [lengthCode]
  split
  · decide
  · split
    · exact Nat.le_add_right 257 _
    · rw [Nat.add_assoc]
      exact Nat.le_add_right 257 _

theorem lengthClass_lengthCode : ∀ length < 259, 3 ≤ length →
    lengthClass? (lengthCode length).symbol =
        some ⟨length - (lengthCode length).extra, (lengthCode length).extraBits⟩ ∧
      (lengthCode length).extra ≤ length ∧
      (lengthCode length).extra < 2 ^ (lengthCode length).extraBits := by
  decide +kernel

/-- **A length is read back.** -/
theorem reads_length {length : Nat} (least : 3 ≤ length) (most : length ≤ 258) :
    (readClass (lengthClass? (lengthCode length).symbol)).Reads
      (lowBits (lengthCode length).extraBits (lengthCode length).extra) length := by
  obtain ⟨found, within, small⟩ := lengthClass_lengthCode length (by omega) least
  exact reads_class found (Nat.sub_add_cancel within) small

theorem distanceClass_eq : ∀ symbol < 30, distanceClass? symbol =
    if symbol < 4 then some ⟨symbol + 1, 0⟩
    else some ⟨(2 + symbol % 2) * 2 ^ (symbol / 2 - 1) + 1, symbol / 2 - 1⟩ := by
  decide +kernel

/-- With the highest bit of a number at `e + 1`, its two highest bits are two or three. -/
theorem highest_bits {n : Nat} (many : 4 ≤ n) (most : n < 32768) :
    ∃ e, n.log2 - 1 = e ∧ 1 ≤ e ∧ e ≤ 13 ∧ 2 ≤ n / 2 ^ e ∧ n / 2 ^ e < 4 := by
  have two : 2 ≤ n.log2 := (Nat.le_log2 (by omega)).mpr many
  have bound : n.log2 < 15 := (Nat.log2_lt (by omega)).mpr most
  obtain ⟨e, highest⟩ : ∃ e, n.log2 = e + 1 := ⟨n.log2 - 1, by omega⟩
  have low : 2 ^ (e + 1) ≤ n := highest ▸ Nat.log2_self_le (by omega)
  have high : n < 2 ^ (e + 2) := by
    have above : n < 2 ^ (n.log2 + 1) := Nat.lt_log2_self
    rwa [highest] at above
  refine ⟨e, by omega, by omega, by omega,
    (Nat.le_div_iff_mul_le (Nat.two_pow_pos e)).mpr ?_,
    (Nat.div_lt_iff_lt_mul (Nat.two_pow_pos e)).mpr ?_⟩
  · rwa [Nat.mul_comm, ← Nat.pow_succ]
  · rwa [Nat.mul_comm, show 2 ^ e * 4 = 2 ^ (e + 2) by rw [Nat.pow_add]]

/-- **A distance is read back.** -/
theorem reads_distance {distance : Nat} (least : 1 ≤ distance) (most : distance ≤ 32768) :
    (distanceCode distance).symbol < 30 ∧
      (readClass (distanceClass? (distanceCode distance).symbol)).Reads
        (lowBits (distanceCode distance).extraBits (distanceCode distance).extra) distance := by
  obtain ⟨n, rfl⟩ : ∃ n, distance = n + 1 := ⟨distance - 1, by omega⟩
  simp only [distanceCode, Nat.add_sub_cancel]
  by_cases few : n < 4
  · rw [if_pos few]
    have found := distanceClass_eq n (by omega)
    rw [if_pos few] at found
    exact ⟨show n < 30 by omega, reads_class found rfl Nat.one_pos⟩
  rw [if_neg few]
  obtain ⟨e, exponent, positive, bound, two, three⟩ := highest_bits (Nat.not_lt.mp few) (by omega)
  rw [exponent]
  have symbol : 2 * e + n / 2 ^ e < 30 := by omega
  have notFew : ¬2 * e + n / 2 ^ e < 4 := by omega
  have parity : 2 + (2 * e + n / 2 ^ e) % 2 = n / 2 ^ e := by omega
  have width : (2 * e + n / 2 ^ e) / 2 - 1 = e := by omega
  have found := distanceClass_eq (2 * e + n / 2 ^ e) symbol
  rw [if_neg notFew, parity, width] at found
  refine ⟨symbol, reads_class found ?_ (Nat.mod_lt _ (Nat.two_pow_pos e))⟩
  have whole := Nat.div_add_mod n (2 ^ e)
  rw [Nat.mul_comm] at whole
  simp only
  omega

/-! ### Tokens -/

/-- A token: a literal byte, or a copy of some bytes from some distance back. -/
inductive Token where
  | literal (byte : UInt8)
  | copy (length distance : Nat)
deriving DecidableEq, Repr

/-- The words of the two alphabets of a block. A symbol without a word has an empty one. -/
structure Words where
  literal : Nat → List Bool
  distance : Nat → List Bool

/-- The output with as many more bytes as `count`, each the one `distance` before it. -/
def repeatBack (distance : Nat) : Nat → Bytes → Bytes
  | 0, output => output
  | count + 1, output =>
    repeatBack distance count (output ++ [output.getD (output.length - distance) 0])

namespace Token

/-- The token may follow an output: a copy has 3 to 258 bytes from a distance of 1 to 32768, and does
not reach before the start of the output. -/
def Valid (output : Bytes) : Token → Prop
  | literal _ => True
  | copy length distance =>
    3 ≤ length ∧ length ≤ 258 ∧ 1 ≤ distance ∧ distance ≤ 32768 ∧ distance ≤ output.length

/-- The output with what the token adds to it. -/
def expand (output : Bytes) : Token → Bytes
  | literal byte => output ++ [byte]
  | copy length distance => repeatBack distance length output

/-- The bits of a token. -/
def bits (words : Words) : Token → List Bool
  | literal byte => words.literal byte.toNat
  | copy length distance =>
    words.literal (lengthCode length).symbol ++
      (lowBits (lengthCode length).extraBits (lengthCode length).extra ++
        (words.distance (distanceCode distance).symbol ++
          lowBits (distanceCode distance).extraBits (distanceCode distance).extra))

/-- The symbols of the token have words. -/
def Coded (words : Words) : Token → Prop
  | literal byte => words.literal byte.toNat ≠ []
  | copy length distance =>
    words.literal (lengthCode length).symbol ≠ [] ∧
      words.distance (distanceCode distance).symbol ≠ []

/-- The tokens may follow an output one after another. -/
def AllValid (output : Bytes) : List Token → Prop
  | [] => True
  | token :: tokens => token.Valid output ∧ AllValid (token.expand output) tokens

/-- The item that a token is read as. -/
def item : Token → Item
  | literal byte => .literal byte
  | copy length distance => .copy length distance

end Token

/-! ### Reading tokens -/

/-- The codes read back the words. -/
structure Words.ReadBy (words : Words) (codes : Codes) : Prop where
  literal : ∀ symbol, words.literal symbol ≠ [] →
    codes.literals.read.Reads (words.literal symbol) symbol
  distance : ∀ symbol, words.distance symbol ≠ [] →
    codes.distances.read.Reads (words.distance symbol) symbol

section Reading

variable {words : Words} {codes : Codes}

theorem reads_endOfBlock (readBy : words.ReadBy codes) (coded : words.literal 256 ≠ []) :
    (readItem codes).Reads (words.literal 256) .endOfBlock :=
  (readBy.literal 256 coded).bind_pure rfl

/-- **A token is read back.** -/
theorem reads_token (readBy : words.ReadBy codes) {output : Bytes} {token : Token}
    (valid : token.Valid output) (coded : token.Coded words) :
    (readItem codes).Reads (token.bits words) token.item := by
  cases token with
  | literal byte =>
    refine (readBy.literal byte.toNat coded).bind_pure ?_
    rw [if_pos byte.toNat_lt, UInt8.ofNat_toNat]
    rfl
  | copy length distance =>
    obtain ⟨leastLength, mostLength, leastDistance, mostDistance, _⟩ := valid
    obtain ⟨lengthCoded, distanceCoded⟩ := coded
    obtain ⟨_, readsDistance⟩ := reads_distance leastDistance mostDistance
    have isLength := le_symbol_lengthCode length
    refine (readBy.literal _ lengthCoded).bind ?_
    rw [if_neg (by omega), if_neg (by omega)]
    refine (reads_length leastLength mostLength).bind ?_
    refine (readBy.distance _ distanceCoded).bind ?_
    exact readsDistance.bind_pure rfl

end Reading

/-! ### Words -/

/-- The canonical words of two alphabets, from their lengths. -/
def canonicalWords (literals distances : List Nat) : Words :=
  ⟨canonicalWord literals, canonicalWord distances⟩

theorem getD_ne_zero_of_canonicalWord {lengths : List Nat} {symbol : Nat}
    (coded : canonicalWord lengths symbol ≠ []) : lengths.getD symbol 0 ≠ 0 := by
  intro zero
  refine coded ?_
  rw [canonicalWord, zero]
  rfl

/-- **Canonical words** are read back. -/
theorem readBy_canonicalWords {most : Nat} {literals distances : List Nat}
    (literalsFit : Fits most literals) {mostDistance : Nat}
    (distancesFit : Fits mostDistance distances) :
    (canonicalWords literals distances).ReadBy ⟨ofLengths literals, ofLengths distances⟩ where
  literal := fun _ coded =>
    PrefixCode.reads_canonicalWord literalsFit (getD_ne_zero_of_canonicalWord coded)
  distance := fun _ coded =>
    PrefixCode.reads_canonicalWord distancesFit (getD_ne_zero_of_canonicalWord coded)

/-- The words of the fixed codes: four ranges of literals and lengths, and the distances as numbers of
five bits. -/
def fixedWords : Words where
  literal := fun symbol =>
    if symbol < 144 then wordBits 8 (0b00110000 + symbol)
    else if symbol < 256 then wordBits 9 (0b110010000 + (symbol - 144))
    else if symbol < 280 then wordBits 7 (symbol - 256)
    else if symbol < 288 then wordBits 8 (0b11000000 + (symbol - 280))
    else []
  distance := fun symbol => if symbol < 32 then wordBits 5 symbol else []

/-- The words of a run of symbols with one length are consecutive. -/
theorem canonicalWord_run {lengths : List Nat} {symbol place number width count : Nat}
    (front back : List Nat) (split : lengths = front ++ (List.replicate count width ++ back))
    (at' : symbol = front.length + place) (inside : place < count)
    (first : PrefixCode.firstWord lengths width + front.count width = number) :
    canonicalWord lengths symbol = wordBits width (number + place) := by
  have listed : lengths.getD symbol 0 = width := by
    rw [at', List.getD_eq_getElem?_getD, split, List.getElem?_append_right (Nat.le_add_right _ _),
      Nat.add_sub_cancel_left, List.getElem?_append_left (by rwa [List.length_replicate]),
      List.getElem?_replicate, if_pos inside]
    rfl
  have within : place ≤ (List.replicate count width).length := by
    rw [List.length_replicate]
    omega
  have before : (lengths.take symbol).count width = front.count width + place := by
    rw [at', split, List.take_length_add_append, List.count_append,
      List.take_append_of_le_length within, List.take_replicate, List.count_replicate_self]
    omega
  rw [canonicalWord, listed, PrefixCode.wordNumber, before, ← Nat.add_assoc, first]

theorem canonicalWord_of_length_le {lengths : List Nat} {symbol : Nat}
    (outside : lengths.length ≤ symbol) : canonicalWord lengths symbol = [] := by
  rw [canonicalWord, List.getD_eq_getElem?_getD, List.getElem?_eq_none outside]
  rfl

theorem literal_fixedWords (symbol : Nat) :
    fixedWords.literal symbol = canonicalWord fixedLiteralLengths symbol := by
  have split : fixedLiteralLengths = List.replicate 144 8 ++ (List.replicate 112 9 ++
      (List.replicate 24 7 ++ (List.replicate 8 8 ++ []))) := by
    simp only [fixedLiteralLengths, List.append_assoc, List.append_nil]
  unfold fixedWords
  by_cases first : symbol < 144
  · have word : canonicalWord fixedLiteralLengths symbol = wordBits 8 (0b00110000 + symbol) :=
      canonicalWord_run [] _ split (Nat.zero_add _).symm first (by decide +kernel)
    simp only [if_pos first, word]
  by_cases second : symbol < 256
  · have word : canonicalWord fixedLiteralLengths symbol =
        wordBits 9 (0b110010000 + (symbol - 144)) := by
      refine canonicalWord_run (List.replicate 144 8) _ split ?_ (by omega) (by decide +kernel)
      rw [List.length_replicate]
      omega
    simp only [if_neg first, if_pos second, word]
  by_cases third : symbol < 280
  · have word : canonicalWord fixedLiteralLengths symbol = wordBits 7 (0 + (symbol - 256)) := by
      refine canonicalWord_run (List.replicate 144 8 ++ List.replicate 112 9) _
        (split.trans (List.append_assoc _ _ _).symm) ?_ (by omega) (by decide +kernel)
      simp only [List.length_append, List.length_replicate]
      omega
    simp only [if_neg first, if_neg second, if_pos third, word, Nat.zero_add]
  by_cases fourth : symbol < 288
  · have word : canonicalWord fixedLiteralLengths symbol =
        wordBits 8 (0b11000000 + (symbol - 280)) := by
      have last : fixedLiteralLengths = List.replicate 144 8 ++ List.replicate 112 9 ++
          List.replicate 24 7 ++ (List.replicate 8 8 ++ []) := by
        rw [split]
        simp only [List.append_assoc]
      refine canonicalWord_run _ [] last ?_ (by omega) (by decide +kernel)
      simp only [List.length_append, List.length_replicate]
      omega
    simp only [if_neg first, if_neg second, if_neg third, if_pos fourth, word]
  · have counted : fixedLiteralLengths.length = 288 := by decide +kernel
    have none : canonicalWord fixedLiteralLengths symbol = [] :=
      canonicalWord_of_length_le (by omega)
    simp only [if_neg first, if_neg second, if_neg third, if_neg fourth, none]

theorem distance_fixedWords (symbol : Nat) :
    fixedWords.distance symbol = canonicalWord fixedDistanceLengths symbol := by
  unfold fixedWords
  by_cases within : symbol < 32
  · have word : canonicalWord fixedDistanceLengths symbol = wordBits 5 (0 + symbol) :=
      canonicalWord_run [] [] (List.append_nil _).symm (Nat.zero_add _).symm within
        (by decide +kernel)
    simp only [if_pos within, word, Nat.zero_add]
  · have counted : fixedDistanceLengths.length = 32 := by decide +kernel
    have none : canonicalWord fixedDistanceLengths symbol = [] :=
      canonicalWord_of_length_le (by omega)
    simp only [if_neg within, none]

theorem fixedWords_eq : fixedWords = canonicalWords fixedLiteralLengths fixedDistanceLengths := by
  have literals : fixedWords.literal = canonicalWord fixedLiteralLengths := by
    funext symbol
    exact literal_fixedWords symbol
  have distances : fixedWords.distance = canonicalWord fixedDistanceLengths := by
    funext symbol
    exact distance_fixedWords symbol
  rw [canonicalWords, ← literals, ← distances]

theorem complete_fixed : Complete 9 fixedLiteralLengths ∧ Complete 5 fixedDistanceLengths :=
  ⟨⟨by decide +kernel, by decide +kernel⟩, ⟨by decide +kernel, by decide +kernel⟩⟩

/-- **The words of the fixed codes** are read back. -/
theorem readBy_fixedWords : fixedWords.ReadBy fixedCodes := by
  obtain ⟨literals, distances⟩ := complete_fixed
  rw [fixedWords_eq]
  exact readBy_canonicalWords literals.fits distances.fits

theorem symbol_lengthCode_lt : ∀ length < 259, (lengthCode length).symbol < 288 := by
  decide +kernel

theorem wordBits_ne_nil (width n : Nat) : wordBits (width + 1) n ≠ [] := List.cons_ne_nil _ _

theorem literal_fixedWords_ne_nil {symbol : Nat} (within : symbol < 288) :
    fixedWords.literal symbol ≠ [] := by
  simp only [fixedWords, if_pos within]
  split
  · exact wordBits_ne_nil _ _
  split
  · exact wordBits_ne_nil _ _
  split
  · exact wordBits_ne_nil _ _
  · exact wordBits_ne_nil _ _

/-- The fixed codes have words for all tokens. -/
theorem Token.coded_fixedWords {output : Bytes} {token : Token} (valid : token.Valid output) :
    token.Coded fixedWords := by
  cases token with
  | literal byte =>
    have small := byte.toNat_lt
    exact literal_fixedWords_ne_nil (by omega)
  | copy length distance =>
    obtain ⟨_, mostLength, leastDistance, mostDistance, _⟩ := valid
    obtain ⟨within, _⟩ := reads_distance leastDistance mostDistance
    refine ⟨literal_fixedWords_ne_nil (symbol_lengthCode_lt length (by omega)), ?_⟩
    simp only [fixedWords]
    rw [if_pos (by omega)]
    exact wordBits_ne_nil _ _

/-! ### Writing tokens -/

/-- A run after the end of a block: the stream is complete, or another block begins. -/
def Decoder.runOn (final : Bool) (reader : BitReader) (output : Bytes) : Decoder × Halt :=
  if final then (⟨reader, output.toArray, .header⟩, .complete reader.align.bytes)
  else (⟨reader, output.toArray, .header⟩ : Decoder).run none

namespace Decoder

theorem run_of_endBlock {decoder : Decoder} {final : Bool} {reader : BitReader} {output : Bytes}
    (ends : decoder.step = endBlock final reader output.toArray) :
    decoder.run none = runOn final reader output := by
  cases final with
  | true => exact run_of_halt ends
  | false => exact run_of_next ends

theorem byteBack_eq {output : Bytes} {distance : Nat} (within : distance ≤ output.length) :
    byteBack output.toArray distance = output.getD (output.length - distance) 0 := by
  rw [byteBack, List.size_toArray, if_pos within, List.getElem?_toArray, List.getD_eq_getElem?_getD]

/-- **A copy** writes one byte after another, also those that it has written itself. -/
theorem run_copy (final : Bool) (codes : Codes) (reader : BitReader) {distance : Nat}
    (count : Nat) (output : Bytes) (within : distance ≤ output.length) :
    (⟨reader, output.toArray, .copy final codes count distance⟩ : Decoder).run none =
      (⟨reader, (repeatBack distance count output).toArray, .items final codes⟩ : Decoder).run
        none := by
  induction count generalizing output with
  | zero => exact run_of_next rfl
  | succ count ih =>
    have later := ih (output ++ [output.getD (output.length - distance) 0]) (by
      rw [List.length_append]
      omega)
    refine (run_of_next rfl).trans ?_
    rw [byteBack_eq within, List.push_toArray]
    exact later

/-- **A token** writes what it expands to. -/
theorem run_token {words : Words} {codes : Codes} (readBy : words.ReadBy codes) (final : Bool)
    {output : Bytes} {token : Token} (valid : token.Valid output) (coded : token.Coded words)
    {reader : BitReader} {rest : List Bool} (holds : reader.Holds (token.bits words ++ rest)) :
    ∃ after : BitReader, after.Holds rest ∧
      (⟨reader, output.toArray, .items final codes⟩ : Decoder).run none =
        (⟨after, (token.expand output).toArray, .items final codes⟩ : Decoder).run none := by
  obtain ⟨after, read, left⟩ := reads_token readBy valid coded reader rest holds
  refine ⟨after, left, ?_⟩
  cases token with
  | literal byte =>
    have begins : (⟨reader, output.toArray, .items final codes⟩ : Decoder).step =
        .next ⟨after, output.toArray, .literal final codes byte⟩ := by
      simp only [step, read, Token.item]
    rw [run_of_next begins, run_of_next rfl, List.push_toArray]
    rfl
  | copy length distance =>
    have begins : (⟨reader, output.toArray, .items final codes⟩ : Decoder).step =
        .next ⟨after, output.toArray, .copy final codes length distance⟩ := by
      simp only [step, read, Token.item]
    obtain ⟨_, _, _, _, within⟩ := valid
    rw [run_of_next begins, run_copy final codes after length output within]
    rfl

/-- **The tokens of a block** write their expansion, up to the end of the block. -/
theorem run_tokens {words : Words} {codes : Codes} (readBy : words.ReadBy codes) (final : Bool)
    (tokens : List Token) {output : Bytes} (valid : Token.AllValid output tokens)
    (coded : ∀ token ∈ tokens, token.Coded words) (ended : words.literal 256 ≠ [])
    {reader : BitReader} {rest : List Bool}
    (holds : reader.Holds (tokens.flatMap (·.bits words) ++ (words.literal 256 ++ rest))) :
    ∃ after : BitReader, after.Holds rest ∧
      (⟨reader, output.toArray, .items final codes⟩ : Decoder).run none =
        runOn final after (tokens.foldl Token.expand output) := by
  induction tokens generalizing output reader with
  | nil =>
    obtain ⟨after, read, left⟩ := reads_endOfBlock readBy ended reader rest holds
    refine ⟨after, left, run_of_endBlock ?_⟩
    simp only [step, read]
    rfl
  | cons token tokens ih =>
    obtain ⟨first, others⟩ := valid
    obtain ⟨firstCoded, othersCoded⟩ := List.forall_mem_cons.mp coded
    rw [List.flatMap_cons, List.append_assoc] at holds
    obtain ⟨middle, left, begins⟩ := run_token readBy final first firstCoded holds
    obtain ⟨after, leftAfter, goes⟩ := ih others othersCoded left
    exact ⟨after, leftAfter, begins.trans goes⟩

end Decoder

end Deflate

end Inflate
