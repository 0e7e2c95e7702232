/-
**The description of two codes in the header of a dynamic block.**

The lengths of both codes are written as one list in a third code: lengths one by one, repetitions of
the length before, and runs of zeros. A run may pass from the first code into the second. The lengths
of the third code come first, in an order of their own that puts the rarest ones last, so that zeros
at its end can be left out.

* `LengthItem`: an item of the list;
* `LengthItem.Write`: the items write some lengths;
* `Description.WellFormed`: a description that may be written;
* `reads_readLengths`: lengths are read back, however they are written;
* `reads_readCodes`: so are the two codes.
-/

import Inflate.Proofs.Deflate.Tokens

namespace Inflate

namespace Deflate

open Reading (bits)
open PrefixCode (canonicalWord ofLengths Fits Complete Sparse)

/-! ### Lists of lengths -/

/-- An item of a list of lengths: one length, the length before again 3 to 6 times, or 3 to 10 or 11 to
138 zeros. -/
inductive LengthItem where
  | one (length : Nat)
  | again (count : Nat)
  | zeros (count : Nat)
  | manyZeros (count : Nat)
deriving DecidableEq, Repr

namespace LengthItem

/-- The symbol of an item. -/
def symbol : LengthItem → Nat
  | one length => length
  | again _ => 16
  | zeros _ => 17
  | manyZeros _ => 18

/-- The extra bits of an item. -/
def extra : LengthItem → List Bool
  | one _ => []
  | again count => lowBits 2 (count - 3)
  | zeros count => lowBits 3 (count - 3)
  | manyZeros count => lowBits 7 (count - 11)

/-- The bits of an item, by the lengths of the code it is written in. -/
def bits (codeLengths : List Nat) (item : LengthItem) : List Bool :=
  canonicalWord codeLengths item.symbol ++ item.extra

/-- The items write the lengths, after a last length if there is one. -/
inductive Write : Option Nat → List LengthItem → List Nat → Prop where
  | nil (previous : Option Nat) : Write previous [] []
  | one {previous : Option Nat} {length : Nat} {items : List LengthItem} {lengths : List Nat}
      (small : length ≤ 15) (others : Write (some length) items lengths) :
      Write previous (one length :: items) (length :: lengths)
  | again {length count : Nat} {items : List LengthItem} {lengths : List Nat}
      (least : 3 ≤ count) (most : count ≤ 6) (others : Write (some length) items lengths) :
      Write (some length) (again count :: items) (List.replicate count length ++ lengths)
  | zeros {previous : Option Nat} {count : Nat} {items : List LengthItem} {lengths : List Nat}
      (least : 3 ≤ count) (most : count ≤ 10) (others : Write (some 0) items lengths) :
      Write previous (zeros count :: items) (List.replicate count 0 ++ lengths)
  | manyZeros {previous : Option Nat} {count : Nat} {items : List LengthItem} {lengths : List Nat}
      (least : 11 ≤ count) (most : count ≤ 138) (others : Write (some 0) items lengths) :
      Write previous (manyZeros count :: items) (List.replicate count 0 ++ lengths)

end LengthItem

theorem exists_length_run {count : Nat} (some : 0 < count) (length : Nat) (lengths : List Nat) :
    ∃ left, left + 1 = (List.replicate count length ++ lengths).length := by
  refine ⟨count + lengths.length - 1, ?_⟩
  rw [List.length_append, List.length_replicate]
  omega

/-- A run of lengths is read back with what follows it. -/
theorem reads_run {code : PrefixCode} {length least count width others : Nat}
    {lengths : List Nat} {following : List Bool} (within : least ≤ count)
    (small : count - least < 2 ^ width)
    (left : others + 1 = (List.replicate count length ++ lengths).length)
    (reads : (readLengths code lengths.length (some length)).Reads following lengths) :
    Reading.Reads (do
        let extra ← bits width
        let count := least + extra
        if count ≤ others + 1 then
          let rest ← readLengths code (others + 1 - count) (some length)
          pure (List.replicate count length ++ rest)
        else Reading.fault : Reading (List Nat))
      (lowBits width (count - least) ++ following) (List.replicate count length ++ lengths) := by
  rw [List.length_append, List.length_replicate] at left
  refine (Reading.reads_bits small).bind ?_
  have sum : least + (count - least) = count := by omega
  have rest : others + 1 - count = lengths.length := by omega
  simp only [sum]
  rw [if_pos (by omega), rest]
  exact reads.bind_pure rfl

/-- **Lengths are read back**, however they are written. -/
theorem reads_readLengths {most : Nat} {codeLengths : List Nat} (fits : Fits most codeLengths)
    {previous : Option Nat} {items : List LengthItem} {lengths : List Nat}
    (writes : LengthItem.Write previous items lengths)
    (coded : ∀ item ∈ items, canonicalWord codeLengths item.symbol ≠ []) :
    (readLengths (ofLengths codeLengths) lengths.length previous).Reads
      (items.flatMap (·.bits codeLengths)) lengths := by
  have word : ∀ {symbol : Nat}, canonicalWord codeLengths symbol ≠ [] →
      (ofLengths codeLengths).read.Reads (canonicalWord codeLengths symbol) symbol :=
    fun coded => PrefixCode.reads_canonicalWord fits (getD_ne_zero_of_canonicalWord coded)
  induction writes with
  | nil previous =>
    rw [List.length_nil, readLengths]
    exact Reading.reads_pure []
  | @one previous length items lengths small others ih =>
    obtain ⟨first, rest⟩ := List.forall_mem_cons.mp coded
    rw [List.length_cons, readLengths, List.flatMap_cons, LengthItem.bits, List.append_assoc]
    refine (word first).bind ?_
    rw [LengthItem.symbol, if_pos (by omega)]
    exact (ih rest).bind_pure rfl
  | @again length count items lengths least most others ih =>
    obtain ⟨first, rest⟩ := List.forall_mem_cons.mp coded
    obtain ⟨left, leftAt⟩ := exists_length_run (show 0 < count by omega) length lengths
    rw [← leftAt, readLengths, List.flatMap_cons, LengthItem.bits, List.append_assoc]
    refine (word first).bind ?_
    exact reads_run least (by omega) leftAt (ih rest)
  | @zeros previous count items lengths least most others ih =>
    obtain ⟨first, rest⟩ := List.forall_mem_cons.mp coded
    obtain ⟨left, leftAt⟩ := exists_length_run (show 0 < count by omega) 0 lengths
    rw [← leftAt, readLengths, List.flatMap_cons, LengthItem.bits, List.append_assoc]
    refine (word first).bind ?_
    exact reads_run least (by omega) leftAt (ih rest)
  | @manyZeros previous count items lengths least most others ih =>
    obtain ⟨first, rest⟩ := List.forall_mem_cons.mp coded
    obtain ⟨left, leftAt⟩ := exists_length_run (show 0 < count by omega) 0 lengths
    rw [← leftAt, readLengths, List.flatMap_cons, LengthItem.bits, List.append_assoc]
    refine (word first).bind ?_
    exact reads_run least (by omega) leftAt (ih rest)

/-! ### The code of lengths -/

/-- The order in which the lengths of the third code are written: the repetitions, zero and eight, and
then outwards from eight. -/
def writtenOrder : List Nat :=
  [16, 17, 18, 0, 8] ++ (List.range 7).flatMap fun i => [7 - i, 9 + i]

theorem writtenOrder_eq : writtenOrder = codeLengthOrder := by decide

theorem zip_map_take (symbols : List Nat) (f : Nat → Nat) (count : Nat) :
    symbols.zip ((symbols.take count).map f) =
      (symbols.take count).map fun symbol => (symbol, f symbol) := by
  induction symbols generalizing count with
  | nil => simp
  | cons symbol symbols ih =>
    cases count with
    | zero => simp
    | succ count => simp only [List.take_succ_cons, List.map_cons, List.zip_cons_cons, ih]

theorem lookup_map_pair (symbols : List Nat) (f : Nat → Nat) (symbol : Nat) :
    (symbols.map fun symbol => (symbol, f symbol)).lookup symbol =
      if symbol ∈ symbols then some (f symbol) else none := by
  induction symbols with
  | nil => rfl
  | cons first symbols ih =>
    rw [List.map_cons, List.lookup_cons]
    by_cases same : symbol = first
    · subst same
      simp
    · have differ : (symbol == first) = false := beq_eq_false_iff_ne.mpr same
      simp only [differ, ih, List.mem_cons, same, false_or]

/-- Lengths that are left out at the end are zero, and so the code is the same. -/
theorem codeLengthLengths_eq {codeLengths : List Nat} (all : codeLengths.length = 19) {written : Nat}
    (leftOut : ∀ symbol ∈ writtenOrder.drop written, codeLengths.getD symbol 0 = 0) :
    codeLengthLengths ((writtenOrder.take written).map (codeLengths.getD · 0)) = codeLengths := by
  refine List.ext_getElem (by rw [codeLengthLengths, List.length_map, List.length_range, all]) ?_
  intro symbol _ inside
  have within : symbol < 19 := all ▸ inside
  have listed : symbol ∈ writtenOrder := by
    have every : ∀ symbol < 19, symbol ∈ writtenOrder := by decide
    exact every symbol within
  have value : codeLengths.getD symbol 0 = codeLengths[symbol] := by
    rw [List.getD_eq_getElem?_getD, List.getElem?_eq_getElem, Option.getD_some]
  simp only [codeLengthLengths, List.getElem_map, List.getElem_range, ← writtenOrder_eq,
    zip_map_take, lookup_map_pair]
  by_cases among : symbol ∈ writtenOrder.take written
  · rw [if_pos among, Option.getD_some, value]
  · rw [← List.take_append_drop written writtenOrder, List.mem_append] at listed
    rw [if_neg among, Option.getD_none, ← value]
    exact (leftOut symbol (listed.resolve_left among)).symm

/-! ### Descriptions -/

/-- A description of two codes: their lengths, the lengths of the third code, how many of these are
written, and the items that write the list of lengths. -/
structure Description where
  literals : List Nat
  distances : List Nat
  codeLengths : List Nat
  written : Nat
  items : List LengthItem

namespace Description

/-- The words of the two codes. -/
def words (description : Description) : Words :=
  canonicalWords description.literals description.distances

/-- The two codes. -/
def codes (description : Description) : Codes :=
  ⟨ofLengths description.literals, ofLengths description.distances⟩

/-- The bits of a description. -/
def bits (description : Description) : List Bool :=
  lowBits 5 (description.literals.length - 257) ++
    (lowBits 5 (description.distances.length - 1) ++
      (lowBits 4 (description.written - 4) ++
        ((writtenOrder.take description.written).flatMap
            (fun symbol => lowBits 3 (description.codeLengths.getD symbol 0)) ++
          description.items.flatMap (·.bits description.codeLengths))))

/-- A description that may be written: both codes are complete, or that of distances is sparse; the
third code is complete; lengths that are left out are zero; and the items write both lists of lengths
in symbols that have words. -/
structure WellFormed (description : Description) : Prop where
  literalCount : 257 ≤ description.literals.length ∧ description.literals.length ≤ 286
  distanceCount : 1 ≤ description.distances.length ∧ description.distances.length ≤ 30
  literals : Complete 15 description.literals
  distances : Complete 15 description.distances ∨ Sparse description.distances
  codeLengthCount : description.codeLengths.length = 19
  codeLengths : Complete 7 description.codeLengths
  writtenCount : 4 ≤ description.written ∧ description.written ≤ 19
  leftOut : ∀ symbol ∈ writtenOrder.drop description.written,
    description.codeLengths.getD symbol 0 = 0
  items : LengthItem.Write none description.items
    (description.literals ++ description.distances)
  coded : ∀ item ∈ description.items, canonicalWord description.codeLengths item.symbol ≠ []

variable {description : Description}

theorem WellFormed.isUsable (wellFormed : description.WellFormed) :
    (description.codes.literals.isUsable && description.codes.distances.isUsable) = true := by
  have literals := PrefixCode.isUsable_of_complete wellFormed.literals (by decide)
  have distances : description.codes.distances.isUsable = true := by
    rcases wellFormed.distances with complete | sparse
    · exact PrefixCode.isUsable_of_complete complete (by decide)
    · exact PrefixCode.isUsable_of_sparse sparse
  rw [Bool.and_eq_true]
  exact ⟨literals, distances⟩

theorem WellFormed.readBy (wellFormed : description.WellFormed) :
    description.words.ReadBy description.codes := by
  rcases wellFormed.distances with complete | sparse
  · exact readBy_canonicalWords wellFormed.literals.fits complete.fits
  · exact readBy_canonicalWords wellFormed.literals.fits sparse.fits

/-- **The two codes are read back** from their description. -/
theorem WellFormed.reads_readCodes (wellFormed : description.WellFormed) :
    readCodes.Reads description.bits description.codes := by
  obtain ⟨leastLiterals, mostLiterals⟩ := wellFormed.literalCount
  obtain ⟨leastDistances, mostDistances⟩ := wellFormed.distanceCount
  obtain ⟨leastWritten, mostWritten⟩ := wellFormed.writtenCount
  have number : ∀ {least width n : Nat}, least ≤ n → n - least < 2 ^ width →
      Reading.Reads ((least + ·) <$> Reading.bits width) (lowBits width (n - least)) n := by
    intro least width n enough small
    have reads := (Reading.reads_bits small).map (least + ·)
    rwa [Nat.add_sub_of_le enough] at reads
  unfold readCodes bits
  refine (number leastLiterals (by omega)).bind ?_
  refine (number leastDistances (by omega)).bind ?_
  refine (number leastWritten (by omega)).bind ?_
  rw [if_neg (by omega)]
  have short : ∀ symbol ∈ writtenOrder.take description.written,
      (Reading.bits 3).Reads (lowBits 3 (description.codeLengths.getD symbol 0))
        (description.codeLengths.getD symbol 0) := by
    intro symbol _
    refine Reading.reads_bits ?_
    cases listed : description.codeLengths[symbol]? with
    | none => simp [List.getD, listed]
    | some length =>
      have bound := wellFormed.codeLengths.bound length (List.mem_of_getElem? listed)
      simp only [List.getD, listed, Option.getD_some]
      omega
  have count : (writtenOrder.take description.written).length = description.written := by
    have all : writtenOrder.length = 19 := by decide
    rw [List.length_take]
    omega
  have written := Reading.reads_many _ short
  rw [count] at written
  refine written.bind ?_
  simp only [codeLengthLengths_eq wellFormed.codeLengthCount wellFormed.leftOut]
  rw [if_pos (PrefixCode.isComplete_of_complete wellFormed.codeLengths (by decide)),
    ← List.length_append]
  refine (reads_readLengths wellFormed.codeLengths.fits wellFormed.items
    wellFormed.coded).bind_pure ?_
  rw [List.take_left, List.drop_left]
  exact if_pos wellFormed.isUsable

end Description

end Deflate

end Inflate
