import Mathlib.Data.List.Nodup
import Kanade.Files.System

/-!
# Files.Tree

File systems whose nodes have names of their own and lie in directories, and what each operation leaves at a
path: the node, or its shape, which is a directory or a file of a size and leaves the times out.
-/

namespace Files

/-- The size of a file. -/
def FileNode.size? : FileNode → Option Nat
  | .dir _ => none
  | .file size _ => some size

/-- As a disk has them. -/
structure Tree extends FileSystem where
  names : (nodes.map Prod.fst).Nodup
  parents : ∀ name d, toFileSystem.Has (name :: d) → toFileSystem.isDir d

namespace FileSystem

/-- What is at a path. -/
def shape (fs : FileSystem) (d : Dir) : Option (Option Nat) := (fs.node d).map FileNode.size?

variable {fs fs' : FileSystem} {d e src dst path : Dir} {n : FileNode} {size : Nat}

/-! ## Nodes -/

theorem has_iff_shape : fs.Has d ↔ fs.shape d ≠ none := by
  unfold Has shape node
  rw [Ne, Option.map_eq_none_iff, Option.map_eq_none_iff, List.find?_eq_none, not_forall]
  constructor
  · intro h
    obtain ⟨p, hp, rfl⟩ := List.mem_map.1 h
    exact ⟨p, by simp [hp]⟩
  · rintro ⟨p, hp⟩
    simp only [decide_eq_true_eq, Classical.not_imp, not_not] at hp
    exact List.mem_map.2 ⟨p, hp⟩

theorem node_put : (fs.put d n).node e = if e = d then some n else fs.node e := by
  unfold node put
  by_cases h : e = d
  · simp [h]
  · have hne : ¬ d = e := fun h' => h h'.symm
    rw [if_neg h, List.find?_cons_of_neg (by simpa using hne)]
    congr 1
    induction fs.nodes with
    | nil => rfl
    | cons p nodes ih =>
      by_cases hp : p.1 = d
      · rw [List.filter_cons_of_neg (by simpa using hp), ih, List.find?_cons_of_neg (by simpa [hp] using hne)]
      · rw [List.filter_cons_of_pos (by simpa using hp)]
        by_cases hpe : p.1 = e
        · rw [List.find?_cons_of_pos (by simpa using hpe), List.find?_cons_of_pos (by simpa using hpe)]
        · rw [List.find?_cons_of_neg (by simpa using hpe), List.find?_cons_of_neg (by simpa using hpe), ih]

theorem not_has_iff_node : ¬ fs.Has d ↔ fs.node d = none := by
  rw [has_iff_shape, not_not, shape, Option.map_eq_none_iff]

theorem shape_of_node {fs' : FileSystem} (h : fs'.node e = fs.node e) : fs'.shape e = fs.shape e := by
  unfold shape
  rw [h]

theorem shape_put : (fs.put d n).shape e = if e = d then some n.size? else fs.shape e := by
  unfold shape
  rw [node_put]
  split <;> rfl

theorem node_stamp (hne : e ≠ d) : (fs.stamp d).node e = fs.node e := by
  unfold stamp
  split
  · rw [node_put, if_neg hne]
  · rfl

theorem shape_stamp : (fs.stamp d).shape e = fs.shape e := by
  unfold stamp
  split
  · rename_i hdir
    rw [shape_put]
    split
    · rename_i heq
      rw [heq]
      unfold shape
      cases hnode : fs.node d with
      | none =>
        rw [hnode] at hdir
        cases hdir
      | some n =>
        cases n with
        | dir modified => rfl
        | file size modified =>
          rw [hnode] at hdir
          cases hdir
    · rfl
  · rfl

theorem isDir_iff_shape (hne : d ≠ []) : fs.isDir d = true ↔ fs.shape d = some none := by
  unfold isDir shape
  cases fs.node d with
  | none => simp [hne]
  | some n => cases n <;> simp [hne, FileNode.isDir, FileNode.size?]

/-- Some nodes are taken out. -/
theorem node_filter {keep : Dir → Bool} :
    (FileSystem.mk (fs.nodes.filter fun p => keep p.1) fs.clock).node e = if keep e then fs.node e else none := by
  unfold node
  dsimp only
  induction fs.nodes with
  | nil => split <;> rfl
  | cons p nodes ih =>
    by_cases hkeep : keep p.1
    · rw [List.filter_cons_of_pos (by simpa using hkeep)]
      by_cases hpe : p.1 = e
      · rw [List.find?_cons_of_pos (by simpa using hpe), List.find?_cons_of_pos (by simpa using hpe), ← hpe,
          if_pos hkeep]
      · rw [List.find?_cons_of_neg (by simpa using hpe), List.find?_cons_of_neg (by simpa using hpe), ih]
    · rw [List.filter_cons_of_neg (by simpa using hkeep), ih]
      split
      · rename_i he
        have hpe : p.1 ≠ e := fun h => hkeep (h ▸ he)
        rw [List.find?_cons_of_neg (by simpa using hpe)]
      · rfl

theorem shape_filter {keep : Dir → Bool} :
    (FileSystem.mk (fs.nodes.filter fun p => keep p.1) fs.clock).shape e = if keep e then fs.shape e else none := by
  unfold shape
  rw [node_filter]
  split <;> rfl

/-! ## Operations -/

/-- No file is in the way to the directory. -/
def Clear (fs : FileSystem) (d : Dir) : Prop := ∀ e, d.Within e → e ≠ [] → ∀ size, fs.shape e ≠ some (some size)

theorem Clear.of_within (h : fs.Clear d) (hwithin : d.Within e) : fs.Clear e :=
  fun a ha hne => h a (ha.trans hwithin) hne

/-- The directory and those above it are there. -/
theorem shape_createDirAll (h : fs.createDirAll d = .ok fs') :
    fs'.shape e = if d.Within e ∧ e ≠ [] then some none else fs.shape e := by
  induction d generalizing fs' with
  | nil =>
    cases h
    rw [if_neg]
    rintro ⟨hwithin, hne⟩
    exact hne (List.suffix_nil.1 hwithin)
  | cons name d ih =>
    have hcases : Dir.Within (name :: d) e ↔ e = name :: d ∨ Dir.Within d e := List.suffix_cons_iff
    unfold createDirAll at h
    cases hd : fs.createDirAll d with
    | error _ =>
      rw [hd] at h
      cases h
    | ok fs₁ =>
      have ih := ih hd
      simp only [hd, bind, Except.bind] at h
      by_cases heq : e = name :: d
      · rw [if_pos ⟨hcases.2 (.inl heq), heq ▸ List.cons_ne_nil name d⟩, heq]
        split at h
        · rename_i hnode
          cases h
          unfold shape
          rw [hnode]
          rfl
        · cases h
        · cases h
          rw [shape_stamp, shape_put, if_pos rfl]
          rfl
      · have hsame : fs'.shape e = fs₁.shape e := by
          split at h
          · cases h
            rfl
          · cases h
          · cases h
            rw [shape_stamp, shape_put, if_neg heq]
        rw [hsame, ih]
        exact if_congr (by rw [hcases, or_iff_right heq]) rfl rfl

theorem node_createDirAll (h : fs.createDirAll d = .ok fs') (hout : ¬ d.Within e) : fs'.node e = fs.node e := by
  induction d generalizing fs' with
  | nil =>
    cases h
    rfl
  | cons name d ih =>
    have hne : e ≠ name :: d := fun heq => hout (heq ▸ List.suffix_refl _)
    have hout' : ¬ Dir.Within d e := fun hwithin => hout (hwithin.trans (List.suffix_cons name d))
    have hne' : e ≠ d := fun heq => hout' (heq ▸ List.suffix_refl _)
    unfold createDirAll at h
    cases hd : fs.createDirAll d with
    | error _ =>
      rw [hd] at h
      cases h
    | ok fs₁ =>
      simp only [hd, bind, Except.bind] at h
      split at h
      · cases h
        exact ih hd hout'
      · cases h
      · cases h
        rw [node_stamp hne', node_put, if_neg hne, ih hd hout']

theorem Clear.tail {name : String} (h : fs.Clear (name :: d)) : fs.Clear d :=
  h.of_within (List.suffix_cons name d)

theorem not_within_cons {name : String} : ¬ Dir.Within d (name :: d) := fun h =>
  absurd h.length_le (by simp)

theorem createDirAll_iff : (∃ fs', fs.createDirAll d = .ok fs') ↔ fs.Clear d := by
  induction d with
  | nil =>
    refine iff_of_true ⟨fs, rfl⟩ ?_
    intro e he hne
    exact absurd (List.suffix_nil.1 he) hne
  | cons name d ih =>
    constructor
    · rintro ⟨fs', h⟩
      unfold createDirAll at h
      cases hd : fs.createDirAll d with
      | error _ =>
        rw [hd] at h
        cases h
      | ok fs₁ =>
        have hnode := node_createDirAll hd (@not_within_cons d name)
        simp only [hd, bind, Except.bind, hnode] at h
        intro e he hne size hshape
        rcases List.suffix_cons_iff.1 he with rfl | he
        · unfold shape at hshape
          split at h
          · rename_i hdir
            rw [hdir] at hshape
            cases hshape
          · cases h
          · rename_i hnone
            rw [hnone] at hshape
            cases hshape
        · exact ih.1 ⟨fs₁, hd⟩ e he hne size hshape
    · intro hclear
      obtain ⟨fs₁, hd⟩ := ih.2 hclear.tail
      have hnode := node_createDirAll hd (@not_within_cons d name)
      have hfile := hclear (name :: d) (List.suffix_refl _) (List.cons_ne_nil name d)
      unfold createDirAll
      simp only [hd, bind, Except.bind, hnode]
      unfold shape at hfile
      cases hn : fs.node (name :: d) with
      | none => exact ⟨_, rfl⟩
      | some n =>
        cases n with
        | dir modified => exact ⟨_, rfl⟩
        | file size modified =>
          rw [hn] at hfile
          exact absurd rfl (hfile size)

theorem clock_stamp : (fs.stamp d).clock = fs.clock := by
  unfold stamp
  split <;> rfl

theorem clock_createDirAll (h : fs.createDirAll d = .ok fs') : fs'.clock = fs.clock := by
  induction d generalizing fs' with
  | nil =>
    cases h
    rfl
  | cons name d ih =>
    unfold createDirAll at h
    cases hd : fs.createDirAll d with
    | error _ =>
      rw [hd] at h
      cases h
    | ok fs₁ =>
      simp only [hd, bind, Except.bind] at h
      split at h
      · cases h
        exact ih hd
      · cases h
      · cases h
        rw [clock_stamp]
        exact @ih fs₁ hd

/-- What is removed is gone, with all below it, and nothing else. -/
theorem shape_removeDirAll (h : fs.removeDirAll d = .ok fs') :
    fs'.shape e = if e.Within d then none else fs.shape e := by
  unfold removeDirAll at h
  split at h
  · cases h
  · cases h
  · cases h
    rw [shape_stamp]
    have hkept := @shape_filter fs e fun e => decide (¬ e.Within d)
    rw [hkept]
    by_cases hwithin : e.Within d <;> simp [hwithin]

theorem node_removeDirAll (h : fs.removeDirAll d = .ok fs') (hne : e ≠ d.tail) :
    fs'.node e = if e.Within d then none else fs.node e := by
  unfold removeDirAll at h
  split at h
  · cases h
  · cases h
  · cases h
    rw [node_stamp hne]
    have hkept := @node_filter fs e fun e => decide (¬ e.Within d)
    rw [hkept]
    by_cases hwithin : e.Within d <;> simp [hwithin]

theorem removeDirAll_iff : (∃ fs', fs.removeDirAll d = .ok fs') ↔ fs.shape d = some none := by
  unfold removeDirAll shape
  cases fs.node d with
  | none => simp
  | some n => cases n <;> simp [FileNode.size?]

/-- The directory is removed up to an error: these nodes are gone. -/
def removeSome (fs : FileSystem) (d : Dir) (gone : Dir → Bool) : Except String FileSystem :=
  if fs.shape d = some none then .ok { fs with nodes := fs.nodes.filter fun p => !(p.1.Within d && gone p.1) }
  else .error "Not a directory"

theorem node_removeSome {gone : Dir → Bool} (h : fs.removeSome d gone = .ok fs') :
    fs'.node e = if e.Within d ∧ gone e = true then none else fs.node e := by
  unfold removeSome at h
  split at h
  · cases h
    have hkept := @node_filter fs e fun e => !(decide (e.Within d) && gone e)
    rw [hkept]
    by_cases hwithin : e.Within d <;> by_cases hgone : gone e = true <;> simp [hwithin, hgone]
  · cases h

theorem node_write (h : fs.write path size = .ok fs') (hne : e ≠ path) (hne' : e ≠ path.tail) :
    fs'.node e = fs.node e := by
  unfold write at h
  split at h
  · cases h
  split at h
  · cases h
  split at h
  · cases h
    rw [node_put, if_neg hne]
  · cases h
    rw [node_stamp hne', node_put, if_neg hne]

theorem write_iff : (∃ fs', fs.write path size = .ok fs') ↔ fs.isDir path.tail ∧ ¬ fs.isDir path := by
  unfold write
  by_cases htail : fs.isDir path.tail = true
  · by_cases hdir : fs.isDir path = true
    · simp [htail, hdir]
    · by_cases hhas : fs.Has path <;> simp [htail, hdir, hhas]
  · simp [htail]

/-! ## Renaming -/

section Rename

variable {below : Dir}

theorem moved_of_within (h : d.Within src) : ∃ below, d = below ++ src ∧ moved src dst d = below ++ dst := by
  obtain ⟨below, rfl⟩ := h
  refine ⟨below, rfl, ?_⟩
  have hwithin : Dir.Within (below ++ src) src := ⟨below, rfl⟩
  simp [moved, hwithin]

theorem moved_of_not_within (h : ¬ d.Within src) : moved src dst d = d := if_neg h

theorem rename_ok (hsrc : fs.Has src) (hdst : ¬ dst.Within src) (hnode : fs.node dst = none)
    (hempty : ∀ e, fs.Has e → ¬ e.Inside dst) (htail : fs.isDir dst.tail) : ∃ fs', fs.rename src dst = .ok fs' := by
  have hne : src ≠ dst := fun heq => hdst (heq ▸ List.suffix_refl _)
  have hnone : ¬ ∃ p ∈ fs.nodes, p.1.Inside dst := by
    rintro ⟨p, hp, hin⟩
    exact hempty p.1 (List.mem_map_of_mem hp) hin
  unfold rename
  rw [if_neg (not_not.2 hsrc), if_neg hne, if_neg hdst, hnode, if_neg (by simp), if_neg hnone,
    if_neg (not_not.2 htail)]
  exact ⟨_, rfl⟩

theorem node_renamed {e' : Dir} {clock : Nat} (hdst : e' ≠ dst)
    (hmoved : ∀ p ∈ fs.nodes, p.1 ≠ dst → (moved src dst p.1 = e ↔ p.1 = e')) :
    (FileSystem.mk ((fs.nodes.filter fun p => p.1 ≠ dst).map fun p => (moved src dst p.1, p.2)) clock).node e =
      fs.node e' := by
  unfold node
  dsimp only
  generalize fs.nodes = nodes at hmoved ⊢
  induction nodes with
  | nil => rfl
  | cons p nodes ih =>
    have hrest := ih fun q hq => hmoved q (List.mem_cons_of_mem p hq)
    by_cases hkept : p.1 = dst
    · have hp : p.1 ≠ e' := fun heq => hdst (heq ▸ hkept)
      rw [List.filter_cons_of_neg (by simpa using hkept), List.find?_cons_of_neg (by simpa using hp), hrest]
    · have hat := hmoved p List.mem_cons_self hkept
      rw [List.filter_cons_of_pos (by simpa using hkept), List.map_cons]
      by_cases hp : p.1 = e'
      · rw [List.find?_cons_of_pos (by simpa using hat.2 hp), List.find?_cons_of_pos (by simpa using hp)]
        rfl
      · rw [List.find?_cons_of_neg (by simpa using hat.not.2 hp), List.find?_cons_of_neg (by simpa using hp), hrest]

/-- What lay in `src` lies in `dst`, and nothing is left of it. -/
theorem shape_rename (h : fs.rename src dst = .ok fs') (hne : src ≠ dst) :
    (∀ below, fs'.shape (below ++ dst) = fs.shape (below ++ src)) ∧ ∀ e, e.Within src → fs'.shape e = none := by
  unfold rename at h
  split at h
  · cases h
  rename_i hsrc
  split at h
  · cases h
  rename_i hdst
  split at h
  · cases h
  split at h
  · cases h
  rename_i hempty
  split at h
  · cases h
  cases h
  have hapart : ¬ src.Within dst := by
    intro hwithin
    obtain ⟨p, hp, rfl⟩ := List.mem_map.1 (not_not.1 hsrc)
    exact hempty ⟨p, hp, hwithin, hne⟩
  have hinside : ∀ p ∈ fs.nodes, p.1 ≠ dst → ¬ p.1.Within dst :=
    fun p hp hkept hwithin => hempty ⟨p, hp, hwithin, hkept⟩
  constructor
  · intro below
    rw [shape_stamp, shape_stamp]
    refine congrArg (Option.map FileNode.size?) (node_renamed ?_ ?_)
    · exact fun heq => hdst ⟨below, heq⟩
    · intro p hp hkept
      by_cases hwithin : p.1.Within src
      · obtain ⟨below', hbelow, hmoved⟩ := @moved_of_within p.1 src dst hwithin
        rw [hmoved, hbelow, List.append_left_inj, List.append_left_inj]
      · rw [moved_of_not_within hwithin]
        refine iff_of_false ?_ ?_
        · exact fun heq => hinside p hp hkept ⟨below, heq.symm⟩
        · exact fun heq => hwithin ⟨below, heq.symm⟩
  · intro e he
    rw [shape_stamp, shape_stamp]
    refine not_not.1 fun hthere => ?_
    obtain ⟨q, hq, hat⟩ := List.mem_map.1 (has_iff_shape.2 hthere)
    obtain ⟨p, hp, rfl⟩ := List.mem_map.1 hq
    obtain ⟨hp, hkept⟩ := List.mem_filter.1 hp
    by_cases hwithin : p.1.Within src
    · obtain ⟨below', hbelow, hmoved⟩ := @moved_of_within p.1 src dst hwithin
      have hin : e.Within dst := ⟨below', hmoved.symm.trans hat⟩
      rcases List.suffix_or_suffix_of_suffix he hin with h | h
      · exact hdst h
      · exact hapart h
    · rw [moved_of_not_within hwithin] at hat
      exact hwithin (hat ▸ he)

end Rename

theorem shape_write (h : fs.write path size = .ok fs') :
    fs'.shape e = if e = path then some (some size) else fs.shape e := by
  unfold write at h
  split at h
  · cases h
  split at h
  · cases h
  split at h
  · cases h
    rw [shape_put]
    rfl
  · cases h
    rw [shape_stamp, shape_put]
    rfl

end FileSystem

/-- A node lies in directories all the way up. -/
theorem Tree.isDir_of_inside {tree : Tree} {d e : Dir} (hhas : tree.Has e) (hin : e.Inside d) : tree.isDir d := by
  induction e with
  | nil => exact absurd (List.suffix_nil.1 hin.1).symm hin.2
  | cons name e ih =>
    have hparent := tree.parents name e hhas
    have hwithin : Dir.Within e d := (List.suffix_cons_iff.1 hin.1).resolve_left fun heq => hin.2 heq.symm
    by_cases heq : e = d
    · exact heq ▸ hparent
    · refine ih ?_ ⟨hwithin, heq⟩
      have hne : e ≠ [] := fun hnil => heq (by rw [hnil] at hwithin ⊢; exact (List.suffix_nil.1 hwithin).symm)
      rw [FileSystem.has_iff_shape, (FileSystem.isDir_iff_shape hne).1 hparent]
      simp

end Files
