/-
**Canonical words and the decoder that counts them.**

The words of a code follow from the lengths alone: the first word of each length is twice the word
after the last one of the length before, and words of one length are consecutive in the order of
their symbols. The decoder never builds a word. It numbers the words that no shorter one begins, so
what it has to know is how many words of a length are taken, by a symbol or by a shorter word.

* `firstWord`, `canonicalWord`: the words, from the lengths;
* `taken`: how many words of a length are taken;
* `Complete`: the words of a code take everything;
* `isComplete_of_complete`, `isUsable_of_sparse`: these codes are accepted;
* `reads_canonicalWord`: every word is read back.
-/

import Mathlib
import Inflate.Proofs.Deflate.BitPacking

namespace Inflate

namespace Deflate

namespace PrefixCode

open Reading (Reads)

/-! ### Words -/

/-- How many words have a given length. No word is empty. -/
def countOf (lengths : List Nat) (width : Nat) : Nat :=
  if width = 0 then 0 else lengths.count width

/-- The first word of each length. -/
def firstWord (lengths : List Nat) : Nat → Nat
  | 0 => 0
  | width + 1 => 2 * (firstWord lengths width + countOf lengths width)

/-- The number of a symbol's word: the first one of its length, and then one for each symbol of that
length before it. -/
def wordNumber (lengths : List Nat) (symbol width : Nat) : Nat :=
  firstWord lengths width + (lengths.take symbol).count width

/-- The word of a symbol, its most significant bit first. -/
def canonicalWord (lengths : List Nat) (symbol : Nat) : List Bool :=
  let width := lengths.getD symbol 0
  wordBits width (wordNumber lengths symbol width)

/-! ### Words that are taken -/

/-- How many words of a length belong to a symbol or begin with a shorter word. -/
def taken (lengths : List Nat) (width : Nat) : Nat :=
  firstWord lengths width + countOf lengths width

theorem taken_zero (lengths : List Nat) : taken lengths 0 = 0 := rfl

theorem firstWord_succ (lengths : List Nat) (width : Nat) :
    firstWord lengths (width + 1) = 2 * taken lengths width := rfl

theorem taken_succ (lengths : List Nat) (width : Nat) :
    taken lengths (width + 1) = 2 * taken lengths width + lengths.count (width + 1) := rfl

/-- A word that is taken takes all that begin with it. -/
theorem taken_mul_le (lengths : List Nat) (width more : Nat) :
    taken lengths width * 2 ^ more ≤ taken lengths (width + more) := by
  induction more with
  | zero => simp
  | succ more ih =>
    rw [← Nat.add_assoc, taken_succ, Nat.pow_succ, ← Nat.mul_assoc]
    omega

theorem taken_mul_le_firstWord (lengths : List Nat) (width more : Nat) :
    taken lengths width * 2 ^ (more + 1) ≤ firstWord lengths (width + more + 1) := by
  have le := taken_mul_le lengths width more
  rw [firstWord_succ, Nat.pow_succ, ← Nat.mul_assoc]
  omega

/-- The share of a word in all words of the length `most`. -/
def share (most length : Nat) : Nat := if length = 0 then 0 else 2 ^ (most - length)

/-- A complete code: no word is longer than `most`, and the words take all words of that length. -/
structure Complete (most : Nat) (lengths : List Nat) : Prop where
  bound : ∀ length ∈ lengths, length ≤ most
  whole : (lengths.map (share most)).sum = 2 ^ most

/-- What a word takes of the words of a given length. -/
def cost (width length : Nat) : Nat :=
  if 0 < length ∧ length ≤ width then 2 ^ (width - length) else 0

theorem cost_succ (width length : Nat) :
    cost (width + 1) length = 2 * cost width length + if length = width + 1 then 1 else 0 := by
  unfold cost
  by_cases last : length = width + 1
  · subst last
    rw [if_pos ⟨Nat.succ_pos _, Nat.le_refl _⟩, if_neg (by omega), if_pos rfl, Nat.sub_self,
      Nat.pow_zero]
  · by_cases word : 0 < length ∧ length ≤ width
    · obtain ⟨positive, within⟩ := word
      rw [if_pos ⟨positive, by omega⟩, if_pos ⟨positive, within⟩, if_neg last,
        Nat.succ_sub within, Nat.pow_succ]
      omega
    · have still : ¬(0 < length ∧ length ≤ width + 1) := by omega
      rw [if_neg word, if_neg still, if_neg last]

theorem taken_eq_sum (lengths : List Nat) (width : Nat) :
    taken lengths width = (lengths.map (cost width)).sum := by
  induction width with
  | zero =>
    refine (List.sum_eq_zero_iff_forall_eq_nat.mpr ?_).symm
    intro value among
    obtain ⟨length, _, rfl⟩ := List.mem_map.mp among
    exact if_neg (by omega)
  | succ width ih =>
    have step : ∀ others : List Nat, (others.map (cost (width + 1))).sum =
        2 * (others.map (cost width)).sum + others.count (width + 1) := by
      intro others
      induction others with
      | nil => rfl
      | cons length others ih =>
        simp only [List.map_cons, List.sum_cons, List.count_cons, ih, cost_succ, beq_iff_eq]
        omega
    rw [taken_succ, ih, step]

theorem Complete.taken_eq {most : Nat} {lengths : List Nat} (complete : Complete most lengths) :
    taken lengths most = 2 ^ most := by
  have shares : lengths.map (cost most) = lengths.map (share most) := by
    refine List.map_congr_left ?_
    intro length among
    have within := complete.bound length among
    unfold cost share
    by_cases zero : length = 0
    · rw [if_pos zero, if_neg (by omega)]
    · rw [if_neg zero, if_pos ⟨by omega, within⟩]
  rw [taken_eq_sum, shares, complete.whole]

/-- The words fit: no word is longer than `most`, and no more words are taken than there are. -/
structure Fits (most : Nat) (lengths : List Nat) : Prop where
  bound : ∀ length ∈ lengths, length ≤ most
  room : taken lengths most ≤ 2 ^ most

theorem Complete.fits {most : Nat} {lengths : List Nat} (complete : Complete most lengths) :
    Fits most lengths :=
  ⟨complete.bound, Nat.le_of_eq complete.taken_eq⟩

theorem Fits.taken_le {most : Nat} {lengths : List Nat} (fits : Fits most lengths) {width : Nat}
    (within : width ≤ most) : taken lengths width ≤ 2 ^ width := by
  have le := taken_mul_le lengths width (most - width)
  rw [Nat.add_sub_of_le within] at le
  have power : 2 ^ most = 2 ^ width * 2 ^ (most - width) := by
    rw [← Nat.pow_add, Nat.add_sub_of_le within]
  have room := fits.room
  rw [power] at room
  exact Nat.le_of_mul_le_mul_right (Nat.le_trans le room) (Nat.two_pow_pos _)

/-! ### Rows -/

/-- The symbols of a length, numbered from `start` on. -/
def symbolsOf (lengths : List Nat) (start width : Nat) : List Nat :=
  (lengths.zipIdx start).filterMap fun entry => if entry.1 = width then some entry.2 else none

theorem symbolsOf_cons (length : Nat) (lengths : List Nat) (start width : Nat) :
    symbolsOf (length :: lengths) start width =
      if length = width then start :: symbolsOf lengths (start + 1) width
      else symbolsOf lengths (start + 1) width := by
  rw [symbolsOf, List.zipIdx_cons, List.filterMap_cons]
  by_cases same : length = width
  · simp only [same, if_true]
    rfl
  · simp only [same, if_false]
    rfl

theorem length_symbolsOf (lengths : List Nat) (start width : Nat) :
    (symbolsOf lengths start width).length = lengths.count width := by
  induction lengths generalizing start with
  | nil => rfl
  | cons length lengths ih =>
    rw [symbolsOf_cons, List.count_cons, ← ih (start + 1)]
    by_cases same : length = width
    · simp [same]
    · simp [same]

/-- Among the symbols of its length, each symbol stands behind those before it. -/
theorem getElem?_symbolsOf {lengths : List Nat} {symbol width : Nat} (start : Nat)
    (listed : lengths[symbol]? = some width) :
    (symbolsOf lengths start width)[(lengths.take symbol).count width]? =
      some (start + symbol) := by
  induction lengths generalizing start symbol with
  | nil => cases listed
  | cons length lengths ih =>
    rw [symbolsOf_cons]
    cases symbol with
    | zero =>
      obtain rfl : length = width := Option.some.inj listed
      simp
    | succ symbol =>
      have listedRest : lengths[symbol]? = some width := listed
      have found := ih (start + 1) listedRest
      rw [List.take_succ_cons, List.count_cons]
      by_cases same : length = width
      · simp only [same, if_true, beq_self_eq_true, List.getElem?_cons_succ, found]
        congr 1
        omega
      · simp only [same, if_false, beq_iff_eq, Nat.add_zero, found]
        congr 1
        omega

theorem size_row (lengths : List Nat) (width : Nat) :
    (row lengths width).size = lengths.count width :=
  (List.size_toArray).trans (length_symbolsOf lengths 0 width)

theorem getElem?_row {lengths : List Nat} {symbol width : Nat}
    (listed : lengths[symbol]? = some width) :
    (row lengths width)[(lengths.take symbol).count width]? = some symbol := by
  have found := getElem?_symbolsOf 0 listed
  rw [Nat.zero_add] at found
  rw [row, List.getElem?_toArray]
  exact found

/-- Each symbol has its place among those of its length. -/
theorem count_take_lt {lengths : List Nat} {symbol width : Nat}
    (listed : lengths[symbol]? = some width) :
    (lengths.take symbol).count width < lengths.count width := by
  obtain ⟨within, _⟩ := Array.getElem?_eq_some_iff.mp (getElem?_row listed)
  rwa [size_row] at within

theorem le_foldl_max (lengths : List Nat) (least : Nat) :
    least ≤ lengths.foldl max least ∧ ∀ length ∈ lengths, length ≤ lengths.foldl max least := by
  induction lengths generalizing least with
  | nil => exact ⟨Nat.le_refl _, fun _ none => nomatch none⟩
  | cons length lengths ih =>
    obtain ⟨front, others⟩ := ih (max least length)
    rw [List.foldl_cons]
    refine ⟨by omega, ?_⟩
    intro other among
    rcases List.mem_cons.mp among with rfl | among
    · omega
    · exact others other among

theorem le_greatest {lengths : List Nat} {length : Nat} (among : length ∈ lengths) :
    length ≤ greatest lengths :=
  (le_foldl_max lengths 0).2 length among

theorem foldl_max_le {lengths : List Nat} {least most : Nat} (front : least ≤ most)
    (bound : ∀ length ∈ lengths, length ≤ most) : lengths.foldl max least ≤ most := by
  induction lengths generalizing least with
  | nil => exact front
  | cons length lengths ih =>
    obtain ⟨first, others⟩ := List.forall_mem_cons.mp bound
    exact ih (Nat.max_le.mpr ⟨front, first⟩) others

theorem greatest_le {lengths : List Nat} {most : Nat}
    (bound : ∀ length ∈ lengths, length ≤ most) : greatest lengths ≤ most :=
  foldl_max_le (Nat.zero_le most) bound

/-! ### Codes that are accepted -/

/-- What is spare of the words of each length is what is not taken. -/
theorem spareFrom_eq {lengths : List Nat} (depth count : Nat)
    (room : ∀ width ≤ depth + count, taken lengths width ≤ 2 ^ width) :
    spareFrom ((List.range' (depth + 1) count).map (row lengths)) (2 ^ depth - taken lengths depth) =
      some (2 ^ (depth + count) - taken lengths (depth + count)) := by
  induction count generalizing depth with
  | zero => rfl
  | succ count ih =>
    have next := room (depth + 1) (by omega)
    have power : 2 ^ (depth + 1) = 2 * 2 ^ depth := Nat.pow_succ'
    have step := taken_succ lengths depth
    rw [List.range'_succ, List.map_cons, spareFrom, size_row, if_pos (by omega)]
    have left : 2 * (2 ^ depth - taken lengths depth) - lengths.count (depth + 1) =
        2 ^ (depth + 1) - taken lengths (depth + 1) := by omega
    have deeper : depth + (count + 1) = depth + 1 + count := by omega
    rw [left, deeper]
    exact ih (depth + 1) fun width within => room width (by omega)

theorem spare_eq {most : Nat} {lengths : List Nat} (fits : Fits most lengths) (positive : 0 < most) :
    (ofLengths lengths).spare =
      some (2 ^ max 1 (greatest lengths) - taken lengths (max 1 (greatest lengths))) := by
  have within := greatest_le fits.bound
  have room : ∀ width ≤ 0 + max 1 (greatest lengths), taken lengths width ≤ 2 ^ width :=
    fun width le => fits.taken_le (by omega)
  have spare := spareFrom_eq 0 (max 1 (greatest lengths)) room
  simp only [Nat.zero_add] at spare
  exact spare

/-- Beyond the greatest length nothing more is taken than what begins with shorter words. -/
theorem taken_add_of_greatest_le {lengths : List Nat} {width : Nat}
    (enough : greatest lengths ≤ width) (more : Nat) :
    taken lengths (width + more) = taken lengths width * 2 ^ more := by
  induction more with
  | zero => simp
  | succ more ih =>
    have none : lengths.count (width + more + 1) = 0 := by
      refine List.count_eq_zero.mpr ?_
      intro among
      have le := le_greatest among
      omega
    rw [← Nat.add_assoc, taken_succ, ih, none, Nat.add_zero, Nat.pow_succ,
      Nat.mul_comm (2 ^ more) 2, Nat.mul_left_comm]

/-- **A complete code** leaves nothing over. -/
theorem isComplete_of_complete {most : Nat} {lengths : List Nat} (complete : Complete most lengths)
    (positive : 0 < most) : (ofLengths lengths).isComplete = true := by
  have within := greatest_le complete.bound
  have enough : greatest lengths ≤ max 1 (greatest lengths) := Nat.le_max_right _ _
  have scaled := taken_add_of_greatest_le enough (most - max 1 (greatest lengths))
  have power : 2 ^ most = 2 ^ max 1 (greatest lengths) * 2 ^ (most - max 1 (greatest lengths)) := by
    rw [← Nat.pow_add, Nat.add_sub_of_le (by omega)]
  rw [Nat.add_sub_of_le (by omega), complete.taken_eq, power] at scaled
  have all := Nat.eq_of_mul_eq_mul_right (Nat.two_pow_pos _) scaled
  rw [isComplete, spare_eq complete.fits positive, ← all, Nat.sub_self]
  rfl

theorem isUsable_of_complete {most : Nat} {lengths : List Nat} (complete : Complete most lengths)
    (positive : 0 < most) : (ofLengths lengths).isUsable = true := by
  have whole := isComplete_of_complete complete positive
  rw [isComplete, beq_iff_eq] at whole
  rw [isUsable, whole]
  rfl

/-- A sparse code: no word, or one word of one bit. -/
structure Sparse (lengths : List Nat) : Prop where
  bound : ∀ length ∈ lengths, length ≤ 1
  single : lengths.count 1 ≤ 1

theorem Sparse.fits {lengths : List Nat} (sparse : Sparse lengths) : Fits 1 lengths := by
  refine ⟨sparse.bound, ?_⟩
  have single := sparse.single
  show 2 * 0 + lengths.count 1 ≤ 2 ^ 1
  omega

/-- **A sparse code** may be used. -/
theorem isUsable_of_sparse {lengths : List Nat} (sparse : Sparse lengths) :
    (ofLengths lengths).isUsable = true := by
  have within := greatest_le sparse.bound
  have one : max 1 (greatest lengths) = 1 := by omega
  have rows : (ofLengths lengths).rows.length ≤ 1 := by
    rw [ofLengths, one]
    exact Nat.le_refl 1
  rw [isUsable, spare_eq sparse.fits Nat.one_pos]
  split
  · rfl
  · exact decide_eq_true rows
  · next none => cases none

/-! ### Reading words -/

/-- The next bit of a number doubles what was read of it. -/
theorem div_two_pow_eq (n width : Nat) :
    n / 2 ^ width = 2 * (n / 2 ^ (width + 1)) + (n.testBit width).toNat := by
  rw [Nat.toNat_testBit, Nat.pow_succ, ← Nat.div_div_eq_div_mul]
  omega

/-- The bits in front of a word are beyond all shorter words that are taken. -/
theorem taken_le_div (lengths : List Nat) (symbol depth left : Nat) :
    taken lengths depth ≤ wordNumber lengths symbol (depth + left + 1) / 2 ^ (left + 1) := by
  have le := taken_mul_le_firstWord lengths depth left
  exact (Nat.le_div_iff_mul_le (Nat.two_pow_pos _)).mpr (Nat.le_trans le (Nat.le_add_right _ _))

/-- Rows that count the words not taken yet give the symbol of a word, from any depth of it. -/
theorem reads_readFrom {lengths : List Nat} {symbol width : Nat}
    (listed : lengths[symbol]? = some width) (depth count : Nat) (above : depth < width)
    (within : width ≤ depth + count) :
    (readFrom ((List.range' (depth + 1) count).map (row lengths))
        (wordNumber lengths symbol width / 2 ^ (width - depth) - taken lengths depth)).Reads
      (wordBits (width - depth) (wordNumber lengths symbol width)) symbol := by
  induction count generalizing depth with
  | zero => omega
  | succ count ih =>
    obtain ⟨left, leftAt⟩ : ∃ left, width = depth + 1 + left := ⟨width - (depth + 1), by omega⟩
    have bitsLeft : width - depth = left + 1 := by omega
    have deeperLeft : width - (depth + 1) = left := by omega
    have before : taken lengths depth ≤ wordNumber lengths symbol width / 2 ^ (left + 1) := by
      rw [show width = depth + left + 1 by omega]
      exact taken_le_div lengths symbol depth left
    have next := div_two_pow_eq (wordNumber lengths symbol width) left
    have step := taken_succ lengths depth
    rw [bitsLeft, List.range'_succ, List.map_cons, readFrom, wordBits]
    refine (Reading.reads_bit ((wordNumber lengths symbol width).testBit left)).bind ?_
    have number : 2 * (wordNumber lengths symbol width / 2 ^ (left + 1) - taken lengths depth) +
        ((wordNumber lengths symbol width).testBit left).toNat =
          wordNumber lengths symbol width / 2 ^ left - 2 * taken lengths depth := by omega
    simp only [number]
    by_cases last : width = depth + 1
    · -- the word ends here, and its number in the row is the symbol's place
      subst last
      obtain rfl : left = 0 := by omega
      have place : wordNumber lengths symbol (depth + 1) / 2 ^ 0 - 2 * taken lengths depth =
          (lengths.take symbol).count (depth + 1) := by
        rw [Nat.pow_zero, Nat.div_one, wordNumber, firstWord_succ, Nat.add_sub_cancel_left]
      have found := getElem?_row listed
      obtain ⟨inside, value⟩ := Array.getElem?_eq_some_iff.mp found
      simp only [place]
      rw [dif_pos inside, value]
      exact Reading.reads_pure symbol
    · -- the word goes on, and it comes after all words that end here
      have longer : taken lengths (depth + 1) ≤ wordNumber lengths symbol width / 2 ^ left := by
        have le := taken_le_div lengths symbol (depth + 1) (left - 1)
        rwa [show depth + 1 + (left - 1) + 1 = width by omega,
          show left - 1 + 1 = left by omega] at le
      have beyond : ¬wordNumber lengths symbol width / 2 ^ left - 2 * taken lengths depth <
          (row lengths (depth + 1)).size := by
        rw [size_row]
        omega
      have deeper := ih (depth + 1) (by omega) (by omega)
      rw [deeperLeft] at deeper
      rw [dif_neg beyond, size_row]
      have left' : wordNumber lengths symbol width / 2 ^ left - 2 * taken lengths depth -
          lengths.count (depth + 1) =
            wordNumber lengths symbol width / 2 ^ left - taken lengths (depth + 1) := by omega
      rw [left']
      exact deeper

/-- **Every word is read back**, if the words fit. -/
theorem reads_canonicalWord {most : Nat} {lengths : List Nat} (fits : Fits most lengths)
    {symbol : Nat} (coded : lengths.getD symbol 0 ≠ 0) :
    (ofLengths lengths).read.Reads (canonicalWord lengths symbol) symbol := by
  obtain ⟨width, listed⟩ : ∃ width, lengths[symbol]? = some width := by
    cases listed : lengths[symbol]? with
    | none => simp [List.getD, listed] at coded
    | some width => exact ⟨width, rfl⟩
  have widthAt : lengths.getD symbol 0 = width := by simp [List.getD, listed]
  rw [widthAt] at coded
  have among : width ∈ lengths := List.mem_of_getElem? listed
  have small : wordNumber lengths symbol width < 2 ^ width := by
    have place := count_take_lt listed
    have room := fits.taken_le (fits.bound width among)
    rw [taken, countOf, if_neg coded] at room
    rw [wordNumber]
    omega
  have le := le_greatest among
  have reads := reads_readFrom listed 0 (max 1 (greatest lengths)) (by omega) (by omega)
  rw [taken_zero, Nat.sub_zero, Nat.sub_zero, Nat.div_eq_of_lt small] at reads
  rw [canonicalWord, widthAt]
  exact reads

end PrefixCode

end Deflate

end Inflate
