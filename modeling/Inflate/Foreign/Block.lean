/-
**Blocks of memory that are handed over.**

An output goes to a foreign caller as a block of memory of its own. A block is never empty memory: one
without content still takes a byte, so that its address is not null.

* `allocate`: a block for bytes, if memory is granted for it;
* `address_ne_null`: the address of a block is not null;
* `ofAddress_address`: a block can be taken back at its address.
-/

import Inflate.Failure

namespace Inflate

namespace Foreign

/-- A block of memory with its content. -/
structure Block where
  content : Bytes
deriving DecidableEq, Repr

/-- An address: null, or where the memory of a block begins. -/
inductive Address where
  | null
  | memory (bytes : Bytes)
deriving DecidableEq, Repr

namespace Block

/-- How many bytes the content has. -/
def length (block : Block) : Nat := block.content.length

/-- How many bytes of memory the block takes. -/
def size (block : Block) : Nat := max 1 block.length

/-- Copies bytes into a new block, if memory of its size is granted. -/
def allocate (grants : Nat → Bool) (content : Bytes) : Except Failure Block :=
  let block : Block := ⟨content⟩
  if grants block.size then .ok block else .error (.allocation block.size)

/-- The memory of a block: its content, and one more byte if that is empty. -/
def memory (block : Block) : Bytes :=
  block.content ++ List.replicate (block.size - block.length) 0

/-- The address of a block. -/
def address (block : Block) : Address := .memory block.memory

/-- Takes back the block of a given length at an address. -/
def ofAddress : Address → Nat → Option Block
  | .null, _ => none
  | .memory bytes, length => some ⟨bytes.take length⟩

theorem address_ne_null (block : Block) : block.address ≠ .null := by simp [address]

theorem length_memory (block : Block) : block.memory.length = block.size := by
  simp only [memory, size, length, List.length_append, List.length_replicate]
  omega

/-- A block can be taken back at its address. -/
theorem ofAddress_address (block : Block) :
    ofAddress block.address block.length = some block := by
  simp [ofAddress, address, memory, length]

end Block

end Foreign

end Inflate
