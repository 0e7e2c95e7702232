/-
**What foreign code can rely on.**

A call gives a block, sets a length, may write a file and records how it ended, and each of these is
told by one of two accounts: that the call succeeded, or that it failed. Nothing of an earlier call
shows through, and no call of another thread changes the record.

* `Call.Succeeded`, `Call.Failed`: the two accounts of a call;
* `Call.body_spec`: what a call does once its arguments have been looked at;
* `Call.answer_cases`: every call is told by one of the accounts;
* `Library.call_consistent`: by exactly one, for the last call of a thread in every sequence of calls.
-/

import Mathlib
import Inflate.Foreign.Boundary
import Inflate.Proofs.Batch
import Inflate.Proofs.LimitedDecoding

namespace Inflate

namespace Foreign

open FileSystem (Writes)

/-! ### Sequences of calls -/

/-- The world and the records after calls, each on a thread. -/
def Library.after (library : Library) : List (Nat × Call) → Library
  | [] => library
  | (thread, call) :: rest => (library.call thread call).2.after rest

theorem Library.after_append (library : Library) (first second : List (Nat × Call)) :
    library.after (first ++ second) = (library.after first).after second := by
  induction first generalizing library with
  | nil => rfl
  | cons entry rest ih => exact ih _

/-- The calls of other threads leave the record of a thread alone. -/
theorem Library.lastError_after (library : Library) {thread : Nat} (calls : List (Nat × Call))
    (others : ∀ entry ∈ calls, entry.1 ≠ thread) :
    (library.after calls).lastError thread = library.lastError thread := by
  induction calls generalizing library with
  | nil => rfl
  | cons entry rest ih =>
    obtain ⟨other, call⟩ := entry
    have different : thread ≠ other := (others _ List.mem_cons_self).symm
    calc
      ((library.call other call).2.after rest).lastError thread
        = (library.call other call).2.lastError thread :=
          ih _ fun entry member => others entry (List.mem_cons_of_mem _ member)
      _ = library.lastError thread := lastError_call_of_ne library other thread call different

/-! ### Arguments -/

namespace Call

/-- The region that a call passes. -/
def region : Call → Region
  | zlib region .. => region
  | gzip region .. => region

/-- The directory that a call passes. Only streams of one kind are written to directories. -/
def directory : Call → Option Word
  | zlib _ directory .. => directory
  | gzip .. => none

/-- Whether a call passes a place for the length. -/
def hasLength : Call → Bool
  | zlib _ _ hasLength _ => hasLength
  | gzip _ hasLength _ => hasLength

/-- The sizes for which memory is granted to a call. -/
def grants : Call → Nat → Bool
  | zlib _ _ _ grants => grants
  | gzip _ _ grants => grants

/-- What a call decodes, to no more than `2 ^ 31 - 1` bytes. -/
def decode : Call → Bytes → Except Failure Decoded
  | zlib .., input => Zlib.decode input { maxOutput := some (2 ^ 31 - 1) }
  | gzip .., input => Gzip.decode input { maxOutput := some (2 ^ 31 - 1) }

/-- What is done for a call that has a place for the length. -/
def body : Call → Task Failure Block
  | zlib region directory _ grants => Boundary.decodeZlib region directory grants
  | gzip region _ grants => Boundary.decodeGzip region grants

theorem answer_eq (call : Call) : call.answer = Boundary.answer call.hasLength call.body := by
  cases call <;> rfl

end Call

/-- A region passes its first bytes, as many as its length says, and none if it has no memory. -/
structure Region.Passes (region : Region) (input : Bytes) : Prop where
  nonneg : 0 ≤ region.length.toInt
  bytes : region.length.toInt = 0 ∧ input = [] ∨
    ∃ memory, region.memory = some memory ∧ input = memory.take region.length.toInt.toNat

/-- **The bytes of a region**, or why there are none. -/
theorem Region.bytes_cases (region : Region) :
    (∃ input, region.bytes = .ok input ∧ region.Passes input) ∨
    (region.bytes = .error (.negativeLength region.length.toInt) ∧ region.length.toInt < 0) ∨
    region.bytes = .error .nullInput ∧ 0 < region.length.toInt ∧ region.memory = none := by
  unfold Region.bytes
  by_cases below : region.length < 0
  · exact Or.inr (Or.inl ⟨if_pos below, Int32.lt_iff_toInt_lt.mp below⟩)
  have nonneg : 0 ≤ region.length.toInt := Int.not_lt.mp fun less =>
    below (Int32.lt_iff_toInt_lt.mpr less)
  rw [if_neg below]
  by_cases zero : region.length = 0
  · rw [if_pos zero]
    have same : region.length.toInt = 0 := congrArg Int32.toInt zero
    exact Or.inl ⟨[], rfl, nonneg, Or.inl ⟨same, rfl⟩⟩
  · rw [if_neg zero]
    cases memory : region.memory with
    | some bytes => exact Or.inl ⟨_, rfl, nonneg, Or.inr ⟨bytes, memory, rfl⟩⟩
    | none =>
      refine Or.inr (Or.inr ⟨rfl, ?_, rfl⟩)
      exact lt_of_le_of_ne nonneg fun same => zero (Int32.toInt_inj.mp same.symm)

/-! ### Accounts of calls -/

namespace Call

/-- The name of an output in a directory. -/
def outputName (data : Bytes) : String := Text.hex 8 (adler32 data).toNat ++ ".out"

/-- An output has been written into a directory, if there is one, and nothing else has changed. -/
def Delivered (directory : Option Word) (before after : FileSystem) (data : Bytes) : Prop :=
  match directory with
  | none => after = before
  | some word => ∃ directory place, word.text? = some directory ∧
      before.directory? directory = some place ∧
      Writes before after (place ++ [outputName data]) data

/-- **Why a call fails** that has a place for the length: its region, what it decodes, the memory for
it, or the directory. -/
inductive Refused (call : Call) (files : FileSystem) : Failure → Prop where
  | negative (below : call.region.length.toInt < 0) :
    Refused call files (.negativeLength call.region.length.toInt)
  | null (above : 0 < call.region.length.toInt) (absent : call.region.memory = none) :
    Refused call files .nullInput
  | stream {input : Bytes} {failure : Failure} (passes : call.region.Passes input)
    (refused : call.decode input = .error failure) : Refused call files failure
  | memory {input : Bytes} {decoded : Decoded} (passes : call.region.Passes input)
    (decodes : call.decode input = .ok decoded)
    (denied : call.grants (max 1 decoded.data.length) = false) :
    Refused call files (.allocation (max 1 decoded.data.length))
  | undecodable {input : Bytes} {decoded : Decoded} {word : Word}
    (passes : call.region.Passes input) (decodes : call.decode input = .ok decoded)
    (granted : call.grants (max 1 decoded.data.length) = true)
    (given : call.directory = some word) (unnamed : word.text? = none) :
    Refused call files (Persistence.unreachable word.lossy
      (files.undecodable (String.ofList word.chars) word.tail))
  | directory {input : Bytes} {decoded : Decoded} {word : Word} {directory : String}
    {failure : Failure} (passes : call.region.Passes input) (decodes : call.decode input = .ok decoded)
    (granted : call.grants (max 1 decoded.data.length) = true)
    (given : call.directory = some word) (text : word.text? = some directory)
    (stopped : Persistence.Call.verdict ⟨directory, outputName decoded.data, [decoded.data]⟩ files =
      .error failure) : Refused call files failure

/-- **A call succeeded**: at an address that is not null it gives all that was decoded, whose length
is set without wrapping. There is no error, and with a directory the output is in it. -/
structure Succeeded (call : Call) (before after : FileSystem) (answer : Boundary.Answer)
    (record : LastError) (decoded : Decoded) : Prop where
  present : call.hasLength = true
  decodes : ∃ input, call.region.Passes input ∧ call.decode input = .ok decoded
  bounded : decoded.data.length ≤ 2 ^ 31 - 1
  length : ∃ length, answer.length = some length ∧ length.toInt = decoded.data.length
  block : ∃ block, answer.block = some block ∧ block.address ≠ .null ∧
    Block.ofAddress block.address decoded.data.length = some ⟨decoded.data⟩
  record : record = ⟨0, ""⟩
  files : Delivered call.directory before after decoded.data

/-- **A call failed**: it gives no block, a place for the length holds zero, and the error of this
very call is recorded. No file has changed. -/
structure Failed (call : Call) (before after : FileSystem) (answer : Boundary.Answer)
    (record : LastError) (failure : Failure) : Prop where
  cause : if call.hasLength then call.Refused before failure else failure = .nullOutputLength
  block : answer.block = none
  length : answer.length = if call.hasLength then some 0 else none
  code : record.code = failure.code
  negative : record.code < 0
  message : record.message.toList =
    failure.message.toList.map fun c => if c = '\x00' then ' ' else c
  files : after = before

end Call

/-! ### Outputs -/

namespace Call

/-- The output of a stream that is written into a directory is named by its checksum. -/
theorem outputName_of_decode {input : Bytes} {options : Options} {decoded : Decoded}
    (unset : options.initialCapacity = none) (accepted : Zlib.decode input options = .ok decoded) :
    Naming.outputName decoded = .ok (outputName decoded.data) := by
  obtain ⟨_, _, _, _, -, -, -, concluded, -⟩ := Zlib.complete_of_decode unset accepted
  have whole := Zlib.eq_of_conclusion concluded
  rw [whole]
  rfl

/-- What a call decodes has a length that fits. -/
theorem length_le_of_decode {call : Call} {input : Bytes} {decoded : Decoded}
    (accepted : call.decode input = .ok decoded) : decoded.data.length ≤ 2 ^ 31 - 1 := by
  cases call with
  | zlib =>
    obtain ⟨_, _, _, _, -, -, -, -, under⟩ := Zlib.complete_of_decode rfl accepted
    exact under
  | gzip =>
    obtain ⟨members, tail, file, rfl⟩ := Gzip.isFile_of_decode rfl accepted
    exact file.under

end Call

/-! ### Single calls -/

/-- How the work for a call ends is what it answers. -/
theorem Boundary.run_answer (body : Task Failure Block) (world : World) :
    (answer true body).run world =
      match Task.on body world with
      | (.ok block, after) => (⟨some block, some (Int32.ofNat block.length), {}⟩, after)
      | (.error failure, after) => (.failed true failure, after) := by
  have run : body.run.run world = Task.on body world := rfl
  rw [answer, if_pos rfl, StateT.run_bind, run]
  generalize Task.on body world = outcome
  obtain ⟨_ | _, after⟩ := outcome <;> rfl

/-- Looking at a region changes nothing. -/
theorem Call.bytes_spec (call : Call) (world : World) :
    Task.Does (MonadExcept.ofExcept call.region.bytes) world
      (fun input after => call.region.Passes input ∧ after = world)
      (fun failure after => call.Refused world.files failure ∧ after.files = world.files) := by
  refine Task.does_ofExcept ?_ ?_ <;> intro _ same <;>
    rcases call.region.bytes_cases with ⟨_, known, passes⟩ | ⟨known, below⟩ | ⟨known, above, absent⟩ <;>
    cases known.symm.trans same
  · exact ⟨passes, rfl⟩
  · exact ⟨.negative below, rfl⟩
  · exact ⟨.null above absent, rfl⟩

/-- Asking for memory changes nothing. -/
theorem Block.allocate_spec (grants : Nat → Bool) (data : Bytes) (world : World) :
    Task.Does (MonadExcept.ofExcept (Block.allocate grants data)) world
      (fun block after => block = ⟨data⟩ ∧ grants (max 1 data.length) = true ∧ after = world)
      (fun failure after => failure = Failure.allocation (max 1 data.length) ∧
        grants (max 1 data.length) = false ∧ after = world) := by
  have outcome : Block.allocate grants data =
      if grants (max 1 data.length) then .ok ⟨data⟩
      else .error (Failure.allocation (max 1 data.length)) := rfl
  rw [outcome]
  by_cases granted : grants (max 1 data.length) = true
  · rw [if_pos granted]
    refine Task.does_ofExcept ?_ nofun
    rintro _ ⟨⟩
    exact ⟨rfl, granted, rfl⟩
  · rw [if_neg granted]
    refine Task.does_ofExcept nofun ?_
    rintro _ ⟨⟩
    exact ⟨rfl, Bool.eq_false_iff.mpr granted, rfl⟩

namespace Call

/-- A call has done its work: it gives what was decoded, and the output is in the directory. -/
def Done (call : Call) (before : FileSystem) (block : Block) (after : World) : Prop :=
  ∃ input decoded, call.region.Passes input ∧ call.decode input = .ok decoded ∧
    block = ⟨decoded.data⟩ ∧ Delivered call.directory before after.files decoded.data

/-- What is decoded for a call without a directory is handed over. -/
theorem allocate_done (call : Call) {input : Bytes} {decoded : Decoded} (before : FileSystem)
    (world : World) (same : world.files = before) (passes : call.region.Passes input)
    (decodes : call.decode input = .ok decoded) (absent : call.directory = none) :
    Task.Does (MonadExcept.ofExcept (Block.allocate call.grants decoded.data)) world
      (call.Done before) fun failure after => call.Refused before failure ∧ after.files = before := by
  refine (Block.allocate_spec call.grants decoded.data world).imp ?_ ?_
  · rintro block _ ⟨rfl, -, rfl⟩
    refine ⟨input, decoded, passes, decodes, rfl, ?_⟩
    rw [absent]
    exact same
  · rintro _ _ ⟨rfl, denied, rfl⟩
    exact ⟨.memory passes decodes denied, same⟩

/-- The output is written into the directory of a call, or the call is refused. -/
theorem persistAt_delivered (call : Call) {input : Bytes} {decoded : Decoded} {word : Word}
    (world : World) (passes : call.region.Passes input) (decodes : call.decode input = .ok decoded)
    (granted : call.grants (max 1 decoded.data.length) = true)
    (given : call.directory = some word) :
    Task.Does (persistAt word (outputName decoded.data) decoded.data) world
      (fun _ after => Delivered call.directory world.files after.files decoded.data)
      (fun failure after => call.Refused world.files failure ∧ after.files = world.files) := by
  unfold persistAt
  cases text : word.text? with
  | none =>
    refine Task.does_lift_bind ?_
    exact ⟨.undecodable passes decodes granted given text, rfl⟩
  | some directory =>
    obtain ⟨remark, ran⟩ := on_persist directory (outputName decoded.data) decoded.data world
    unfold Task.Does
    simp only
    rw [ran]
    cases verdict : Persistence.Call.verdict ⟨directory, outputName decoded.data, [decoded.data]⟩
      world.files with
    | ok location =>
      have accepts := Persistence.Call.accepts_iff.mpr verdict
      obtain ⟨place, found, rfl⟩ := accepts.exists_place
      rw [given]
      refine ⟨directory, place, text, found, ?_⟩
      rw [World.files_say]
      exact FileSystem.writes_withFile accepts.outside _ _
    | error failure => exact ⟨.directory passes decodes granted given text verdict, rfl⟩

/-- **What a call does** once its arguments have been looked at: its work, or it is refused and
changes no file. -/
theorem body_spec (call : Call) (world : World) :
    Task.Does call.body world (call.Done world.files)
      fun failure after => call.Refused world.files failure ∧ after.files = world.files := by
  have bytes := call.bytes_spec world
  cases isCall : call with
  | zlib region directory hasLength grants =>
    rw [isCall] at bytes
    refine bytes.bind (fun _ _ refused => refused) ?_
    rintro input _ ⟨passes, rfl⟩
    refine (Task.does_perform (Zlib.attempt input options) _).bind ?_ ?_
    · exact fun failure after failed => ⟨.stream passes failed.1, failed.2⟩
    rintro decoded after ⟨decodes, same⟩
    cases directory with
    | none => exact allocate_done _ _ after same passes decodes rfl
    | some directory =>
      have named : Naming.outputName decoded = .ok (outputName decoded.data) :=
        outputName_of_decode rfl decodes
      rw [named]
      refine (Block.allocate_spec grants decoded.data after).bind ?_ ?_
      · rintro _ _ ⟨rfl, denied, rfl⟩
        exact ⟨.memory passes decodes denied, same⟩
      · rintro _ _ ⟨rfl, granted, rfl⟩
        refine (persistAt_delivered _ _ passes decodes granted rfl).bind ?_ ?_
        · rw [same]
          exact fun _ _ refused => refused
        · rw [same]
          exact fun _ _ delivered => ⟨input, decoded, passes, decodes, rfl, delivered⟩
  | gzip region hasLength grants =>
    rw [isCall] at bytes
    refine bytes.bind (fun _ _ refused => refused) ?_
    rintro input _ ⟨passes, rfl⟩
    refine (Task.does_perform (Gzip.attempt input options) _).bind ?_ ?_
    · exact fun failure after failed => ⟨.stream passes failed.1, failed.2⟩
    rintro decoded after ⟨decodes, same⟩
    exact allocate_done _ _ after same passes decodes rfl

/-- A record holds the code of a failure and its text, without the characters that end a text. -/
theorem failed_of_refused (call : Call) {before after : FileSystem} {failure : Failure}
    (cause : if call.hasLength then call.Refused before failure else failure = .nullOutputLength)
    (same : after = before) :
    call.Failed before after (.failed call.hasLength failure) (.ofFailure failure) failure where
  cause := cause
  block := rfl
  length := rfl
  code := rfl
  negative := by
    show failure.kind.code < 0
    cases failure.kind <;> decide
  message := String.toList_ofList
  files := same

/-- What was decoded is given as a block, with its length. -/
theorem succeeded_of_done (call : Call) {before : FileSystem} {after : World} {block : Block}
    (present : call.hasLength = true) (done : call.Done before block after) :
    ∃ decoded, call.Succeeded before after.files
      ⟨some block, some (Int32.ofNat block.length), {}⟩ {} decoded := by
  obtain ⟨input, decoded, passes, decodes, rfl, delivered⟩ := done
  have bounded := length_le_of_decode decodes
  refine ⟨decoded, present, ⟨input, passes, decodes⟩, bounded, ⟨_, rfl, ?_⟩, ⟨_, rfl, ?_, ?_⟩, rfl,
    delivered⟩
  · exact Int32.toInt_ofNat_of_lt (by simp only [Block.length]; omega)
  · exact Block.address_ne_null _
  · exact Block.ofAddress_address ⟨decoded.data⟩

/-- **Every call** succeeds or fails. -/
theorem answer_cases (call : Call) (world : World) :
    (∃ decoded, call.Succeeded world.files (call.answer.run world).2.files (call.answer.run world).1
      (call.answer.run world).1.record decoded) ∨
    ∃ failure, call.Failed world.files (call.answer.run world).2.files (call.answer.run world).1
      (call.answer.run world).1.record failure := by
  rw [answer_eq]
  cases present : call.hasLength with
  | true =>
    have does := call.body_spec world
    unfold Task.Does at does
    rw [Boundary.run_answer]
    generalize Task.on call.body world = outcome at does ⊢
    obtain ⟨failure | block, after⟩ := outcome
    · obtain ⟨refused, same⟩ := does
      have cause : if call.hasLength then call.Refused world.files failure
          else failure = .nullOutputLength := by
        rw [present]
        exact refused
      have failed := call.failed_of_refused cause same
      rw [present] at failed
      exact Or.inr ⟨failure, failed⟩
    · exact Or.inl (call.succeeded_of_done present does)
  | false =>
    have cause : if call.hasLength then call.Refused world.files .nullOutputLength
        else Failure.nullOutputLength = .nullOutputLength := by
      rw [present]
      exact rfl
    have failed := call.failed_of_refused cause rfl
    rw [present] at failed
    exact Or.inr ⟨_, failed⟩

end Call

/-! ### Calls among others -/

/-- **The account of a call.** After every sequence of calls the record of a thread, its last call and
the world around that call are told by exactly one of the accounts, whatever came before the call, and
whatever other threads did before and after it. -/
theorem Library.call_consistent (library : Library) (earlier later : List (Nat × Call)) (thread : Nat)
    (call : Call) (others : ∀ entry ∈ later, entry.1 ≠ thread) :
    let start := library.after earlier
    let ended := start.call thread call
    let record := (library.after (earlier ++ (thread, call) :: later)).lastError thread
    Xor (∃ decoded, call.Succeeded start.world.files ended.2.world.files ended.1 record decoded)
      (∃ failure, call.Failed start.world.files ended.2.world.files ended.1 record failure) := by
  intro start ended record
  have own : record = ended.1.record := by
    calc
      record = (ended.2.after later).lastError thread := by
        simp only [record, Library.after_append]
        rfl
      _ = ended.2.lastError thread := Library.lastError_after _ later others
      _ = ended.1.record := if_pos rfl
  rw [own]
  have single : ∀ {decoded failure record},
      call.Succeeded start.world.files ended.2.world.files ended.1 record decoded →
        ¬call.Failed start.world.files ended.2.world.files ended.1 record failure := by
    rintro _ _ _ succeeded failed
    obtain ⟨block, given, -⟩ := succeeded.block
    cases given.symm.trans failed.block
  rcases call.answer_cases start.world with ⟨decoded, succeeded⟩ | ⟨failure, failed⟩
  · exact Or.inl ⟨⟨decoded, succeeded⟩, fun ⟨_, failed⟩ => single succeeded failed⟩
  · exact Or.inr ⟨⟨failure, failed⟩, fun ⟨_, succeeded⟩ => single succeeded failed⟩

/-- The stored byte is decoded under the limit of calls. -/
theorem decode_letterStream_limited :
    Zlib.decode letterStream { maxOutput := some (2 ^ 31 - 1) } = .ok letter := by
  have valid : Zlib.Header.Valid 0x78 0x9c := ⟨by decide, by decide, by decide, by decide⟩
  have complete : Deflate.inflate [1, 1, 0, 0xfe, 0xff, 0x61, 0, 0x62, 0, 0x62] =
      ([0x61], .complete [0, 0x62, 0, 0x62]) := by cbv
  have unset : ({ maxOutput := some (2 ^ 31 - 1) } : Options).initialCapacity = none := rfl
  have yields := Zlib.yields_conclusion valid unset complete (Or.inl (by decide))
  exact yields.eq (by decide)

/-- A call that passes a stored byte and a directory. -/
def letterCall : Call := .zlib ⟨some letterStream, 12⟩ (some "." : Option String) true

/-- A call that passes one byte at the null address. -/
def nullCall : Call := .gzip ⟨none, 1⟩ true

/-- Where the output can be written, the call with the stored byte is not refused. -/
theorem not_refused_letterCall (failure : Failure) : ¬letterCall.Refused Batch.taken failure := by
  have passed : ∀ {input}, letterCall.region.Passes input → letterCall.decode input = .ok letter := by
    rintro input ⟨-, ⟨zero, -⟩ | ⟨memory, held, rfl⟩⟩
    · cases zero
    · cases held
      exact decode_letterStream_limited
  rintro (⟨below⟩ | ⟨-, absent⟩ | ⟨passes, refused⟩ | ⟨-, -, denied⟩ |
    ⟨-, -, -, given, unnamed⟩ | ⟨passes, decodes, -, given, text, stopped⟩)
  · cases below
  · cases absent
  · cases (passed passes).symm.trans refused
  · cases denied
  · cases given
    cases unnamed
  · cases (passed passes).symm.trans decodes
    cases given
    obtain rfl := Option.some.inj (text.symm.trans (Word.text?_ofString "."))
    rw [show Call.outputName letter.data = "00620062.out" by cbv,
      Persistence.Call.accepts_iff.mp Batch.accepts_taken] at stopped
    cases stopped

/-- A call that succeeds after a failed one on its thread, and before a failed one on another. -/
theorem Library.call_consistent_letter : ∃ library : Library, ∃ decoded,
    (∀ entry ∈ [(1, nullCall)], entry.1 ≠ 0) ∧
    letterCall.Succeeded (library.after [(0, nullCall)]).world.files
      ((library.after [(0, nullCall)]).call 0 letterCall).2.world.files
      ((library.after [(0, nullCall)]).call 0 letterCall).1
      ((library.after [(0, nullCall), (0, letterCall), (1, nullCall)]).lastError 0) decoded := by
  have others : ∀ entry ∈ [(1, nullCall)], entry.1 ≠ 0 := by simp
  have consistent := Library.call_consistent ⟨⟨Batch.taken, {}⟩, fun _ => {}⟩ [(0, nullCall)]
    [(1, nullCall)] 0 letterCall others
  rcases consistent with ⟨⟨decoded, succeeded⟩, -⟩ | ⟨⟨failure, failed⟩, -⟩
  · exact ⟨_, decoded, others, succeeded⟩
  · exact absurd failed.cause (not_refused_letterCall failure)

end Foreign

end Inflate
