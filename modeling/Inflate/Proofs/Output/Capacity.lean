/-
**How large a buffer becomes.**

The decoder looks at the limit when a piece does not leave room in the buffer. How far it gets beyond
the limit is therefore a matter of the capacities that the buffer comes to have: a full buffer never
asks for more than one byte beyond the limit, but may get more than it asked for.

* `Memory.Exact`: every reservation up to a size gives exactly the capacity that was asked for;
* `Buffer.Reaches`: the capacities that a buffer can come to have;
* `Capped`: no reservation fails, and none gives more than `top`;
* `Memory.Exact.capped`, `capped_of_seed`: exact reservations stop one byte beyond the limit, and so does
  a buffer that has this capacity from the start;
* `makeRoom_kept`, `deliver_kept`, `takePiece_kept`: what becomes of a buffer whose capacity keeps to
  `top`: the only failure is an output beyond the limit;
* `Memory.exact_of_lt`: a memory for which all this is so;
* `capped_of_wide`, `capped_of_lt`: on the memory of the program, a buffer stops one byte beyond a limit that
  is far away, and at twice any other one.
-/

import Inflate.Proofs.Output.Continuation

namespace Inflate

open Deflate (Decoder)

/-! ### What is asked for -/

section Sizes

variable {limit most size : Nat}

/-- A full buffer never asks for more than one byte beyond the limit. -/
theorem add_growth_le (under : size ≤ limit) : size + growth limit size ≤ limit + 1 := by
  simp only [growth, saturatingAdd]
  omega

/-- The capacity at the start goes beyond the limit by at most one byte. -/
theorem seedCapacity_le (inputSize : Nat) (options : Options) :
    seedCapacity inputSize options ≤ options.limit + 1 := by
  simp only [seedCapacity, saturatingAdd]
  omega

/-- The most that full buffers of at most `most` bytes ask for. -/
def greatestAsked (limit most : Nat) : Nat := min (limit + 1) (2 * max most pieceSize)

theorem add_growth_le_greatestAsked (under : size ≤ limit) (few : size ≤ most) :
    size + growth limit size ≤ greatestAsked limit most := by
  simp only [growth, saturatingAdd, greatestAsked]
  omega

end Sizes

/-- More than the limit is to be held, and that is the failure. -/
def PastLimit (limit total : Nat) (failure : Failure) : Prop :=
  failure = .outputLimitExceeded limit ∧ limit < total

theorem PastLimit.mono {limit total more : Nat} {failure : Failure}
    (past : PastLimit limit total failure) (le : total ≤ more) : PastLimit limit more failure :=
  ⟨past.1, Nat.lt_of_lt_of_le past.2 le⟩

/-- An operation that names the limit when it has been passed stands before one that names it. -/
theorem PastLimit.bind_eq {α β : Type} {limit total : Nat} {outcome : Except Failure α}
    {value : α → Prop} {next : α → Except Failure β}
    (ends : Ends outcome value (PastLimit limit total))
    (onValue : ∀ result, value result → next result = .error (.outputLimitExceeded limit)) :
    (outcome >>= next) = .error (.outputLimitExceeded limit) := by
  cases outcome with
  | ok result => exact onValue result ends
  | error failure =>
    obtain ⟨rfl, -⟩ := ends
    rfl

/-! ### Capacities -/

section Capacities

variable [Memory]

/-- Every reservation of at most `most` bytes succeeds and gives exactly the capacity that was asked
for. -/
structure Memory.Exact (most : Nat) : Prop where
  reservable : most < unreservable
  enlarged_eq (capacity asked : Nat) (few : asked ≤ most) : enlarged capacity asked = asked

theorem Memory.Exact.mono {most less : Nat} (exact : Memory.Exact most) (le : less ≤ most) :
    Memory.Exact less where
  reservable := Nat.lt_of_le_of_lt le exact.reservable
  enlarged_eq capacity asked few := exact.enlarged_eq capacity asked (Nat.le_trans few le)

namespace Buffer

/-- The capacities that a buffer can come to have: the one at the start, and those that a full buffer
gets. -/
inductive Reaches (limit seed : Nat) : Nat → Prop where
  | seed : Reaches limit seed seed
  | grown {buffer larger : Buffer} (reached : Reaches limit seed buffer.capacity)
    (full : buffer.size = buffer.capacity) (grows : buffer.grow limit = .ok larger) :
    Reaches limit seed larger.capacity

/-- The buffer asks for more: it is full, and has not passed the limit. It holds at most `most`
bytes. -/
structure Asks (limit seed most : Nat) (buffer : Buffer) : Prop where
  reached : Reaches limit seed buffer.capacity
  full : buffer.size = buffer.capacity
  under : buffer.size ≤ limit
  few : buffer.size ≤ most

theorem grow_of_lt {limit : Nat} {buffer : Buffer} (beyond : limit < buffer.size) :
    buffer.grow limit = .error (.outputLimitExceeded limit) :=
  if_pos beyond

/-- A full buffer beyond the limit does not grow, so a capacity beyond it is the only one. -/
theorem Reaches.lt_of_lt {limit seed capacity : Nat} (reaches : Reaches limit seed capacity)
    (beyond : limit < seed) : limit < capacity := by
  induction reaches with
  | seed => exact beyond
  | grown reached full grows past =>
    rw [grow_of_lt (full ▸ past)] at grows
    cases grows

/-- What a buffer that asks for more gets, if it can be reserved. -/
theorem grow_of_le {limit : Nat} {buffer : Buffer} (under : buffer.size ≤ limit)
    (reservable : enlarged buffer.capacity (buffer.size + growth limit buffer.size) < unreservable) :
    buffer.grow limit = .ok { buffer with
      capacity := enlarged buffer.capacity (buffer.size + growth limit buffer.size) } := by
  unfold grow
  rw [if_neg (Nat.not_lt.mpr under)]
  exact if_pos reservable

/-- A buffer that gets exactly what it asks for stops one byte beyond the limit. -/
theorem exists_grow {limit : Nat} {buffer : Buffer} (under : buffer.size ≤ limit)
    (given : enlarged buffer.capacity (buffer.size + growth limit buffer.size) =
      buffer.size + growth limit buffer.size)
    (reservable : buffer.size + growth limit buffer.size < unreservable) :
    ∃ larger, buffer.grow limit = .ok larger ∧ larger.capacity ≤ limit + 1 := by
  have grown := grow_of_le under (given.symm ▸ reservable)
  rw [given] at grown
  exact ⟨_, grown, add_growth_le under⟩

end Buffer

open Buffer (Reaches Asks)

/-- Every reservation succeeds, and gives a capacity of at most `top`. -/
structure Capped (limit seed most top : Nat) : Prop where
  begins : Buffer.reserve seed = .ok { capacity := seed }
  seeded : seed ≤ top
  grows : ∀ buffer : Buffer, buffer.Asks limit seed most →
    ∃ larger, buffer.grow limit = .ok larger ∧ larger.capacity ≤ top

section Capped

variable {limit seed most : Nat}

/-- **Exact reservations** stop one byte beyond the limit. -/
theorem Memory.Exact.capped (exact : Memory.Exact (greatestAsked limit most))
    (reservable : seed < unreservable) (seeded : seed ≤ limit + 1) :
    Capped limit seed most (limit + 1) where
  begins := Buffer.reserve_of_lt reservable
  seeded := seeded
  grows buffer asks := by
    have few := add_growth_le_greatestAsked asks.under asks.few
    have given := exact.enlarged_eq buffer.capacity _ few
    exact Buffer.exists_grow asks.under given (Nat.lt_of_le_of_lt few exact.reservable)

/-- **A buffer that begins beyond the limit** never asks for anything. -/
theorem capped_of_seed (reservable : seed < unreservable) (beyond : limit < seed)
    (seeded : seed ≤ limit + 1) : Capped limit seed most (limit + 1) where
  begins := Buffer.reserve_of_lt reservable
  seeded := seeded
  grows buffer asks := by
    have past := asks.reached.lt_of_lt beyond
    have under := asks.under
    rw [asks.full] at under
    exact absurd past (Nat.not_lt.mpr under)

end Capped

/-! ### Buffers that keep to a capacity -/

namespace Buffer

/-- The capacity is one that the buffer can come to have, and at most `top`. -/
structure Kept (limit seed top : Nat) (buffer : Buffer) : Prop where
  sound : buffer.Sound
  reached : Reaches limit seed buffer.capacity
  capped : buffer.capacity ≤ top

section Kept

variable {limit seed most top : Nat} {buffer : Buffer}

theorem kept_append (kept : buffer.Kept limit seed top) {piece : Bytes}
    (fits : piece.length ≤ buffer.room) : (buffer.append piece).Kept limit seed top :=
  ⟨sound_append kept.sound fits, kept.reached, kept.capped⟩

theorem kept_of_reserve (capped : Capped limit seed most top) :
    ({ capacity := seed } : Buffer).Kept limit seed top :=
  ⟨(sound_of_reserve capped.begins).1, .seed, capped.seeded⟩

/-- Making room keeps the contents, or the limit has been passed. -/
theorem makeRoom_kept (capped : Capped limit seed most top) (kept : buffer.Kept limit seed top)
    (few : min limit buffer.size ≤ most) :
    Ends (buffer.makeRoom limit)
      (fun roomy => roomy.bytes = buffer.bytes ∧ roomy.Kept limit seed top)
      (PastLimit limit buffer.size) := by
  have made := makeRoom_spec limit kept.sound
  unfold makeRoom at made ⊢
  by_cases full : buffer.capacity ≤ buffer.size
  · rw [if_pos full] at made ⊢
    have same : buffer.size = buffer.capacity := Nat.le_antisymm kept.sound.fits full
    by_cases beyond : limit < buffer.size
    · rw [grow_of_lt beyond]
      exact ⟨rfl, beyond⟩
    · have under := Nat.not_lt.mp beyond
      rw [Nat.min_eq_right under] at few
      obtain ⟨larger, grows, le⟩ := capped.grows buffer ⟨kept.reached, same, under, few⟩
      rw [grows] at made ⊢
      exact ⟨made.1, made.2, .grown kept.reached same grows, le⟩
  · rw [if_neg full]
    exact ⟨rfl, kept⟩

theorem checkLimit_kept (kept : buffer.Kept limit seed top) :
    Ends (buffer.checkLimit limit)
      (fun filled => filled = buffer ∧ filled.Kept limit seed top ∧ filled.size ≤ limit)
      (PastLimit limit buffer.size) := by
  by_cases beyond : limit < buffer.size
  · rw [checkLimit, if_pos beyond]
    exact ⟨rfl, beyond⟩
  · rw [checkLimit_of_le (Nat.not_lt.mp beyond)]
    exact ⟨rfl, kept, Nat.not_lt.mp beyond⟩

/-- A buffer with a piece appended to it, which still leaves it smaller than `top`. -/
structure Appended (limit seed top : Nat) (buffer : Buffer) (piece : Bytes) (filled : Buffer) :
    Prop where
  contents : filled.bytes.toList = buffer.bytes.toList ++ piece
  kept : filled.Kept limit seed top
  below : filled.size < top

theorem Appended.size_eq {piece : Bytes} {filled : Buffer}
    (appended : Appended limit seed top buffer piece filled) :
    filled.size = buffer.size + piece.length := by
  rw [size, ← Array.length_toList, appended.contents, List.length_append, Array.length_toList, size]

/-- A piece that is delivered is appended as a whole, or the limit has been passed. -/
theorem deliver_kept (capped : Capped limit seed most top) (above : limit < top) {buffer : Buffer}
    (kept : buffer.Kept limit seed top) (piece : Bytes)
    (few : min limit (buffer.size + piece.length) ≤ most) :
    Ends (buffer.deliver limit piece) (Appended limit seed top buffer piece)
      (PastLimit limit (buffer.size + piece.length)) := by
  by_cases empty : piece = []
  · subst empty
    rw [deliver_nil]
    refine (checkLimit_kept kept).imp ?_ fun failure past => past
    rintro filled ⟨rfl, filledKept, under⟩
    exact ⟨(List.append_nil _).symm, filledKept, Nat.lt_of_le_of_lt under above⟩
  rw [deliver_of_ne_nil limit buffer empty]
  refine (makeRoom_kept capped kept (by omega)).bind
    (fun failure past => past.mono (Nat.le_add_right _ _)) ?_
  rintro roomy made ⟨same, roomyKept⟩
  have positive := room_pos_of_makeRoom made
  have partKept := kept_append roomyKept (List.length_take_le roomy.room piece)
  have whole : (piece.take roomy.room).length + (piece.drop roomy.room).length = piece.length := by
    rw [← List.length_append, List.take_append_drop]
  have partSize : (roomy.append (piece.take roomy.room)).size =
      buffer.size + (piece.take roomy.room).length := by
    rw [size_append, size, same, size]
  refine (checkLimit_kept partKept).bind (fun failure past => past.mono (by omega)) ?_
  rintro filled passed ⟨rfl, -, -⟩
  have fewer : (piece.drop roomy.room).length < piece.length := by
    have some := List.length_pos_iff.mpr empty
    rw [List.length_drop]
    omega
  refine (deliver_kept capped above partKept (piece.drop roomy.room) (by omega)).imp ?_
    fun failure past => past.mono (by omega)
  intro last appended
  refine ⟨?_, appended.kept, appended.below⟩
  rw [appended.contents, toList_append, same, List.append_assoc, List.take_append_drop]
termination_by piece.length

end Kept

end Buffer

/-- **A piece at whose end the machine stopped for want of room** is appended as a whole, or the limit has
been passed. -/
theorem takePiece_kept {limit seed most top : Nat} (capped : Capped limit seed most top)
    (above : limit < top) {buffer : Buffer} (kept : buffer.Kept limit seed top) (piece : Bytes)
    (few : min limit (buffer.size + piece.length) ≤ most) (decoder : Decoder) :
    Ends (takePiece limit buffer piece decoder) (buffer.Appended limit seed top piece)
      (PastLimit limit (buffer.size + piece.length)) := by
  unfold takePiece
  split
  · next on =>
    -- without a look at the limit, the piece still leaves room in the buffer
    simp only [goesOn, Bool.and_eq_true, decide_eq_true_eq] at on
    have within := kept.capped
    have fits := on.1
    simp only [Buffer.room] at fits
    refine ⟨buffer.toList_append piece, buffer.kept_append kept (Nat.le_of_lt on.1), ?_⟩
    rw [Buffer.size_append]
    omega
  · exact buffer.deliver_kept capped above kept piece few

end Capacities

/-! ### Two memories -/

/-- The exact memory is exact as far as it can be reserved. -/
theorem Memory.exact_of_lt {most : Nat} (small : most < @unreservable Memory.exact) :
    @Memory.Exact Memory.exact most :=
  @Memory.Exact.mk Memory.exact most small fun _ _ _ => rfl

section Doubling

variable {limit seed most : Nat}

/-- **Under a limit that is far away**, a full buffer asks for twice its capacity or more, and so gets what
it asked for. -/
theorem capped_of_wide (reservable : seed < unreservable) (seeded : seed ≤ limit + 1)
    (wide : 2 * max most pieceSize ≤ limit + 1) (small : 2 * max most pieceSize < unreservable) :
    Capped limit seed most (limit + 1) where
  begins := Buffer.reserve_of_lt reservable
  seeded := seeded
  grows buffer asks := by
    have few := asks.few
    have asked : buffer.size + growth limit buffer.size = buffer.size + max buffer.size pieceSize := by
      simp only [growth, saturatingAdd, maxSize, unreservable] at small ⊢
      omega
    have same : enlarged buffer.capacity (buffer.size + growth limit buffer.size) =
        buffer.size + growth limit buffer.size := by
      rw [asked, ← asks.full]
      simp only [enlarged, leastCapacity, pieceSize]
      omega
    exact Buffer.exists_grow asks.under same (by omega)

/-- **Any reservations** stop at twice the limit, if memory allows for that. -/
theorem capped_of_lt (small : limit < exhausting) (seeded : seed ≤ limit + 1) :
    Capped limit seed most (max leastCapacity (2 * limit)) where
  begins := by
    refine Buffer.reserve_of_lt ?_
    simp only [exhausting, unreservable] at small ⊢
    omega
  seeded := by
    simp only [leastCapacity]
    omega
  grows buffer asks := by
    have within := asks.under
    have asked := add_growth_le within
    have large : enlarged buffer.capacity (buffer.size + growth limit buffer.size) ≤
        max leastCapacity (2 * limit) := by
      rw [← asks.full]
      simp only [enlarged, leastCapacity]
      omega
    refine ⟨_, Buffer.grow_of_le within ?_, large⟩
    refine Nat.lt_of_le_of_lt large ?_
    simp only [leastCapacity, exhausting, unreservable] at small ⊢
    omega

end Doubling

end Inflate
