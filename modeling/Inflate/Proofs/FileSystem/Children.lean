/-
**Children and parents of paths.**

What a path names is told by its parts and by whether it begins with a slash. A child of a directory has
the parts of the directory and one more, and the path before the last part of a path has all its parts but
that one. So a child of the parent of a path stands beside it.

* `parts_join`, `child_join`: a name under a directory is a child of the directory;
* `segments_ofSegments`: a path that is put together from segments has these segments;
* `parent_cases`: the parent of a path, by its segments;
* `parts_parent`, `isAbsolute_parent`: the parts of a parent;
* `Child.beside`: a child of the parent of a path stands beside it.
-/

import Inflate.Proofs.FileSystem.Join

namespace Inflate

namespace Path

/-! ### Parts -/

/-- The parts among some segments, with their positions. -/
def numbered (pieces : List String) (position : Nat) : List (String × Nat) :=
  (pieces.zipIdx position).filter fun entry => isPart entry.2 entry.1

theorem parts_eq (path : String) : parts path = (numbered (segments path) 0).map Prod.fst := rfl

theorem numbered_append (front back : List String) (position : Nat) :
    numbered (front ++ back) position =
      numbered front position ++ numbered back (position + front.length) := by
  rw [numbered, List.zipIdx_append, List.filter_append]
  rfl

/-- A name is a part wherever it stands. -/
theorem Proper.numbered {name : String} (proper : Proper name) (position : Nat) :
    numbered [name] position = [(name, position)] := by
  simp [Path.numbered, isPart, proper.nonempty, proper.notDot]

theorem Proper.join_empty {name : String} (proper : Proper name) : join "" name = name := by
  rw [join, if_neg (Bool.eq_false_iff.mp proper.isAbsolute_eq_false), if_pos (by simp),
    String.empty_append]

/-- The parts of a name under a directory. -/
theorem parts_join {name : String} (proper : Proper name) (directory : String) :
    parts (join directory name) = parts directory ++ [name] := by
  by_cases empty : directory = ""
  · have nothing : parts "" = [] := by decide
    rw [empty, proper.join_empty, nothing, parts_eq, proper.segments_eq, proper.numbered]
    rfl
  · obtain ⟨front, whole, own⟩ := segments_join proper empty
    have same : numbered (segments directory) 0 = numbered front 0 := by
      rcases own with bare | slash
      · rw [bare]
      · have idle : numbered [""] (0 + front.length) = [] := rfl
        rw [slash, numbered_append, idle, List.append_nil]
    rw [parts_eq, parts_eq, whole, same, numbered_append, proper.numbered, List.map_append]
    rfl

/-! ### Children -/

/-- A path that names an entry of a directory: it has the parts of the directory and a name, and begins
where the directory does. -/
structure Child (directory name path : String) : Prop where
  proper : Proper name
  parts : parts path = parts directory ++ [name]
  rooted : isAbsolute path = isAbsolute directory

/-- **A name under a directory** is a child of the directory. -/
theorem child_join {name : String} (proper : Proper name) (directory : String) :
    Child directory name (join directory name) where
  proper := proper
  parts := parts_join proper directory
  rooted := by
    by_cases empty : directory = ""
    · rw [empty, proper.join_empty, proper.isAbsolute_eq_false]
      rfl
    · exact isAbsolute_join proper empty

/-! ### Parents -/

/-- The segments of a path that is put together from segments. -/
theorem segments_ofSegments {pieces : List String} (nonempty : pieces ≠ [])
    (plain : ∀ piece ∈ pieces, ∀ c ∈ piece.toList, c ≠ '/') :
    segments (ofSegments pieces) = pieces := by
  have chars : split (ofSegments pieces).toList = pieces.map String.toList := by
    rw [ofSegments, String.toList_intercalate]
    induction pieces with
    | nil => exact absurd rfl nonempty
    | cons piece rest ih =>
      obtain ⟨here, others⟩ := List.forall_mem_cons.mp plain
      cases rest with
      | nil => simp [split_of_forall here]
      | cons next rest =>
        have slash : ("/" : String).toList = ['/'] := rfl
        have behind := ih (List.cons_ne_nil _ _) others
        simp only [List.map_cons, List.intercalate_cons_cons, slash, List.append_assoc,
          List.singleton_append] at behind ⊢
        rw [split_append, split_of_forall here, behind]
        rfl
  rw [segments, chars, List.map_map]
  simp

/-- A path begins with a slash exactly if its first segment is empty and not the only one. -/
theorem isAbsolute_of_segments {path first : String} {others : List String}
    (pieces : segments path = first :: others) :
    isAbsolute path = (first == "" && !others.isEmpty) := by
  unfold segments at pieces
  unfold isAbsolute
  cases chars : path.toList with
  | nil =>
    rw [chars] at pieces
    cases pieces
    rfl
  | cons c rest =>
    obtain ⟨segment, more, parted⟩ := List.exists_cons_of_ne_nil (split_ne_nil rest)
    by_cases slash : c = '/'
    · rw [chars, split, if_pos slash, parted] at pieces
      cases pieces
      rw [slash]
      rfl
    · rw [chars, split, if_neg slash, parted] at pieces
      cases pieces
      have named : String.ofList (c :: segment) ≠ "" := by simp
      rw [beq_eq_false_iff_ne.mpr named, Bool.false_and]
      simp [slash]

/-- No segment of a path holds a slash. -/
theorem ne_of_mem_segments {path piece : String} (member : piece ∈ segments path) :
    ∀ c ∈ piece.toList, c ≠ '/' := by
  obtain ⟨chars, among, rfl⟩ := List.mem_map.mp member
  rw [String.toList_ofList]
  exact ne_of_mem_split among

/-- Up to the last part but one, some segments begin with all parts but the last one. -/
theorem exists_last_but_one {pieces : List String} {parts : List (String × Nat)} {piece : String}
    {position : Nat} {last : String × Nat}
    (numbers : numbered pieces 0 = parts ++ [(piece, position)] ++ [last]) :
    ∃ front back, pieces = front ++ piece :: back ∧ position = front.length ∧ piece ≠ "" ∧
      numbered (front ++ [piece]) 0 = parts ++ [(piece, position)] := by
  obtain ⟨most, rest, whole, mostParts, -⟩ := List.filter_eq_append_iff.mp numbers
  obtain ⟨first, others, rfl, firstParts, otherParts⟩ := List.filter_eq_append_iff.mp mostParts
  obtain ⟨idle, more, rfl, skipped, isPart, -⟩ := List.filter_eq_cons_iff.mp otherParts
  have split : pieces.zipIdx = (first ++ idle) ++ ((piece, position) :: (more ++ rest)) := by
    simp only [whole, List.append_assoc, List.cons_append]
  obtain ⟨front, back, rfl, frontEntries, backEntries⟩ := List.zipIdx_eq_append_iff.mp split
  cases back with
  | nil => cases backEntries
  | cons found back =>
    rw [List.zipIdx_cons, List.cons.injEq, Prod.mk.injEq, Nat.zero_add] at backEntries
    obtain ⟨⟨rfl, rfl⟩, -⟩ := backEntries
    refine ⟨front, back, rfl, rfl, ?_, ?_⟩
    · simp only [Path.isPart, Bool.and_eq_true, bne_iff_ne] at isPart
      exact isPart.1
    · have alone : numbered [piece] (0 + front.length) = [(piece, front.length)] := by
        simp [numbered, isPart]
      rw [numbered_append, alone, numbered, ← frontEntries, List.filter_append, firstParts,
        List.filter_eq_nil_iff.mpr skipped, List.append_nil]

theorem parent_eq (path : String) :
    parent path = match ((numbered (segments path) 0).map Prod.snd).dropLast.getLast? with
      | some position => ofSegments ((segments path).take (position + 1))
      | none => if isAbsolute path && !((numbered (segments path) 0).map Prod.snd).isEmpty then "/"
        else "" := rfl

/-- The parent of a path, by its segments: up to the last part but one, if there are two parts. -/
theorem parent_cases (path : String) :
    (∃ front piece back, segments path = front ++ piece :: back ∧ piece ≠ "" ∧
      segments (parent path) = front ++ [piece] ∧
      numbered (front ++ [piece]) 0 = (numbered (segments path) 0).dropLast) ∨
    ((parts path).dropLast = [] ∧
      parent path = if isAbsolute path && !(parts path).isEmpty then "/" else "") := by
  have positions : ((numbered (segments path) 0).map Prod.snd).dropLast =
      (numbered (segments path) 0).dropLast.map Prod.snd := List.map_dropLast.symm
  rcases List.eq_nil_or_concat (numbered (segments path) 0).dropLast with few | ⟨most, entry, split⟩
  · right
    have empty : (parts path).isEmpty = ((numbered (segments path) 0).map Prod.snd).isEmpty := by
      simp [parts_eq]
    refine ⟨by rw [parts_eq, ← List.map_dropLast, few]; rfl, ?_⟩
    rw [parent_eq, positions, few, empty]
    rfl
  · left
    rw [List.concat_eq_append] at split
    obtain ⟨piece, position⟩ := entry
    obtain ⟨last, ends⟩ : ∃ last,
        numbered (segments path) 0 = most ++ [(piece, position)] ++ [last] := by
      rcases List.eq_nil_or_concat (numbered (segments path) 0) with empty | ⟨front, last, whole⟩
      · rw [empty] at split
        simp at split
      · rw [List.concat_eq_append] at whole
        rw [whole, List.dropLast_concat] at split
        exact ⟨last, by rw [whole, split]⟩
    obtain ⟨front, back, pieces, rfl, nonempty, upTo⟩ := exists_last_but_one ends
    refine ⟨front, piece, back, pieces, nonempty, ?_, by rw [upTo, split]⟩
    have taken : (segments path).take (front.length + 1) = front ++ [piece] := by
      rw [pieces, List.take_length_add_append]
      rfl
    have plain : ∀ found ∈ front ++ [piece], ∀ c ∈ found.toList, c ≠ '/' := by
      intro found among
      rw [← taken] at among
      exact ne_of_mem_segments (List.mem_of_mem_take among)
    rw [parent_eq, positions, split, List.map_append, List.map_singleton, List.getLast?_concat]
    simp only
    rw [taken, segments_ofSegments (by simp) plain]

/-- **The parent of a path** has all its parts but the last one. -/
theorem parts_parent (path : String) : parts (parent path) = (parts path).dropLast := by
  rcases parent_cases path with ⟨front, piece, back, -, -, parted, numbers⟩ | ⟨none, same⟩
  · rw [parts_eq, parted, numbers, parts_eq, List.map_dropLast]
  · rw [same, none]
    split <;> decide

/-- The parent of a path that has a part begins where the path does. -/
theorem isAbsolute_parent {path : String} (nonempty : parts path ≠ []) :
    isAbsolute (parent path) = isAbsolute path := by
  rcases parent_cases path with ⟨front, piece, back, pieces, named, parted, -⟩ | ⟨-, same⟩
  · cases front with
    | nil => simp [isAbsolute_of_segments pieces, isAbsolute_of_segments parted, named]
    | cons first front =>
      have filled (others : List String) : (front ++ piece :: others).isEmpty = false := by
        cases front <;> rfl
      rw [List.cons_append] at pieces parted
      rw [isAbsolute_of_segments pieces, isAbsolute_of_segments parted, filled, filled]
  · have found : (parts path).isEmpty = false := by simpa using nonempty
    rw [same, found, Bool.not_false, Bool.and_true]
    cases isAbsolute path <;> rfl

/-- **A child of the parent of a path** stands beside it. -/
theorem Child.beside {path name other : String} (child : Child (parent path) name other)
    (nonempty : Path.parts path ≠ []) :
    Path.parts other = (Path.parts path).dropLast ++ [name] ∧ isAbsolute other = isAbsolute path :=
  ⟨child.parts.trans (by rw [parts_parent]), child.rooted.trans (isAbsolute_parent nonempty)⟩

end Path

end Inflate
