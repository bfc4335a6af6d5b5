import Kanade.Files.Path

/-!
# Files.System

A file system without links: the nodes under the root, each at its directory or with its name in
front of it, and a clock.

An operation that fails changes nothing. What is said of each is what it may take away: `Keeps` for
those that take nothing away, `Loses` for removing and renaming, which take away what lies within one
directory.
-/

namespace Files

inductive FileNode where
  | dir (modified : Nat)
  | file (size modified : Nat)
deriving DecidableEq, Repr

def FileNode.modified : FileNode → Nat
  | .dir modified | .file _ modified => modified

def FileNode.isDir : FileNode → Bool
  | .dir _ => true
  | .file _ _ => false

def FileNode.size : FileNode → Nat
  | .dir _ => 0
  | .file size _ => size

structure FileSystem where
  nodes : List (Dir × FileNode)
  clock : Nat
deriving Repr

namespace FileSystem

variable (fs : FileSystem)

def node (d : Dir) : Option FileNode := (fs.nodes.find? fun p => p.1 = d).map Prod.snd

def Has (d : Dir) : Prop := d ∈ fs.nodes.map Prod.fst

instance (d : Dir) : Decidable (fs.Has d) := inferInstanceAs (Decidable (d ∈ _))

/-- The root of everything is always there. -/
def isDir (d : Dir) : Bool := d = [] || (fs.node d).any FileNode.isDir

def pathExists (d : Dir) : Bool := d = [] || decide (fs.Has d)

def put (d : Dir) (n : FileNode) : FileSystem :=
  { fs with nodes := (d, n) :: fs.nodes.filter fun p => p.1 ≠ d }

/-- A directory in which an entry was made or removed. -/
def stamp (d : Dir) : FileSystem :=
  if (fs.node d).any FileNode.isDir then fs.put d (.dir fs.clock) else fs

theorem pathExists_cons {name : String} {d : Dir} : fs.pathExists (name :: d) ↔ fs.Has (name :: d) := by
  simp [pathExists]

/-! ## Operations -/

/-- The directory with all above it. -/
def createDirAll : Dir → Except String FileSystem
  | [] => .ok fs
  | name :: d => do
    let fs ← createDirAll d
    match fs.node (name :: d) with
    | some (.dir _) => .ok fs
    | some (.file _ _) => .error "File exists"
    | none => .ok ((fs.put (name :: d) (.dir fs.clock)).stamp d)

def removeDirAll (d : Dir) : Except String FileSystem :=
  match fs.node d with
  | none => .error "No such file or directory"
  | some (.file _ _) => .error "Not a directory"
  | some (.dir _) =>
    let kept : FileSystem := { fs with nodes := fs.nodes.filter fun p => ¬ p.1.Within d }
    .ok (kept.stamp d.tail)

/-- Where a node is after its directory `src` has become `dst`. -/
def moved (src dst d : Dir) : Dir :=
  if d.Within src then d.take (d.length - src.length) ++ dst else d

/-- `dst` is not there, or an empty directory. -/
def rename (src dst : Dir) : Except String FileSystem :=
  if ¬ fs.Has src then .error "No such file or directory"
  else if src = dst then .ok fs
  else if dst.Within src then .error "Invalid argument"
  else if (fs.node dst).any (fun n => !n.isDir) then .error "Not a directory"
  else if ∃ p ∈ fs.nodes, p.1.Inside dst then .error "Directory not empty"
  else if ¬ fs.isDir dst.tail then .error "No such file or directory"
  else
    let renamed : FileSystem :=
      { fs with nodes := (fs.nodes.filter fun p => p.1 ≠ dst).map fun p => (moved src dst p.1, p.2) }
    .ok ((renamed.stamp src.tail).stamp dst.tail)

def write (path : Dir) (size : Nat) : Except String FileSystem :=
  if ¬ fs.isDir path.tail then .error "No such file or directory"
  else if fs.isDir path then .error "Is a directory"
  else if fs.Has path then .ok (fs.put path (.file size fs.clock))
  else .ok ((fs.put path (.file size fs.clock)).stamp path.tail)

/-- The names in a directory, each with whether it is one itself. -/
def readDir (d : Dir) : Except String (List (String × Bool)) :=
  if ¬ fs.isDir d then .error "No such file or directory"
  else .ok <| fs.nodes.filterMap fun p =>
    match p.1 with
    | name :: parent => if parent = d then some (name, p.2.isDir) else none
    | [] => none

/-- The files in a directory and below. -/
def sizes (d : Dir) : List Nat := (fs.nodes.filter fun p => p.1.Inside d).map fun p => p.2.size

/-! ## What stays -/

/-- Nothing is taken away. -/
def Keeps (fs fs' : FileSystem) : Prop := ∀ d, fs.Has d → fs'.Has d

/-- All that is taken away lies within `d`. -/
def Loses (d : Dir) (fs fs' : FileSystem) : Prop := ∀ e, fs.Has e → fs'.Has e ∨ e.Within d

section Keeps

variable {fs fs' fs'' : FileSystem} {d src dst path : Dir} {n : FileNode} {size : Nat}

theorem Keeps.rfl : Keeps fs fs := fun _ h => h

theorem Keeps.trans (h : Keeps fs fs') (h' : Keeps fs' fs'') : Keeps fs fs'' := fun d hd => h' d (h d hd)

theorem Loses.trans_keeps (h : Loses d fs fs') (h' : Keeps fs' fs'') : Loses d fs fs'' :=
  fun e he => (h e he).imp_left (h' e)

theorem has_put {e : Dir} : (fs.put d n).Has e ↔ e = d ∨ fs.Has e := by
  unfold Has put
  by_cases he : e = d
  · simp [he]
  · simp only [List.map_cons, List.mem_cons, he, false_or, List.mem_map, List.mem_filter]
    constructor
    · rintro ⟨p, ⟨hp, -⟩, rfl⟩
      exact ⟨p, hp, Eq.refl _⟩
    · rintro ⟨p, hp, rfl⟩
      exact ⟨p, ⟨hp, by simpa using he⟩, Eq.refl _⟩

/-- A file goes with what its directory lies in, and with nothing else. -/
theorem Loses.has_entry {name : String} (h : Loses d fs fs') (hapart : ¬ src.Meets d)
    (hfs : fs.Has (name :: src)) : fs'.Has (name :: src) := by
  refine (h _ hfs).resolve_right fun hin => hapart ?_
  rcases List.suffix_cons_iff.1 hin with rfl | hin
  · exact .inr (List.suffix_cons _ _)
  · exact .inl hin

theorem keeps_put : Keeps fs (fs.put d n) := fun _ he => has_put.2 (.inr he)

theorem keeps_stamp : Keeps fs (fs.stamp d) := by
  unfold stamp
  split
  · exact keeps_put
  · exact .rfl

theorem keeps_createDirAll (h : fs.createDirAll d = .ok fs') : Keeps fs fs' := by
  induction d generalizing fs' with
  | nil =>
    cases h
    exact .rfl
  | cons name d ih =>
    unfold createDirAll at h
    cases hd : fs.createDirAll d with
    | error e =>
      rw [hd] at h
      cases h
    | ok fs₁ =>
      simp only [hd, bind, Except.bind] at h
      split at h <;> cases h
      · exact ih hd
      · exact (ih hd).trans (keeps_put.trans keeps_stamp)

theorem keeps_write (h : fs.write path size = .ok fs') : Keeps fs fs' := by
  unfold write at h
  split at h
  · cases h
  split at h
  · cases h
  split at h <;> cases h
  · exact keeps_put
  · exact keeps_put.trans keeps_stamp

theorem loses_removeDirAll (h : fs.removeDirAll d = .ok fs') : Loses d fs fs' := by
  unfold removeDirAll at h
  split at h <;> cases h
  refine Loses.trans_keeps (fun e he => ?_) keeps_stamp
  by_cases hin : e.Within d
  · exact .inr hin
  · obtain ⟨p, hp, rfl⟩ := List.mem_map.1 he
    exact .inl (List.mem_map.2 ⟨p, List.mem_filter.2 ⟨hp, by simpa using hin⟩, Eq.refl _⟩)

theorem loses_rename (h : fs.rename src dst = .ok fs') : Loses src fs fs' := by
  unfold rename at h
  split at h
  · cases h
  rename_i hsrc
  split at h
  · cases h
    exact fun e he => .inl he
  split at h
  · cases h
  rename_i hdst
  split at h
  · cases h
  split at h
  · cases h
  split at h
  · cases h
  cases h
  refine Loses.trans_keeps (fun e he => ?_) (keeps_stamp.trans keeps_stamp)
  by_cases hin : e.Within src
  · exact .inr hin
  · left
    by_cases hed : e = dst
    · -- the directory that was moved is there now
      obtain ⟨p, hp, rfl⟩ := List.mem_map.1 (not_not.1 hsrc)
      have hne : p.1 ≠ dst := fun heq => hdst (heq ▸ List.suffix_refl _)
      refine List.mem_map.2 ⟨(dst, p.2), List.mem_map.2 ⟨p, ?_, ?_⟩, hed.symm⟩
      · exact List.mem_filter.2 ⟨hp, by simpa using hne⟩
      · have hself : Dir.Within p.1 p.1 := List.suffix_refl _
        simp [moved, hself]
    · obtain ⟨p, hp, rfl⟩ := List.mem_map.1 he
      refine List.mem_map.2 ⟨p, List.mem_map.2 ⟨p, List.mem_filter.2 ⟨hp, by simpa using hed⟩, ?_⟩,
        Eq.refl _⟩
      simp [moved, hin]

end Keeps

end FileSystem

end Files
