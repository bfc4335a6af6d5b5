import Mathlib.Data.List.Basic

/-!
# Files.Path

Paths as lists of components, and the directories they name once `..` is resolved, there being no
symbolic links.

A directory is the list of the names from it up to the root. `resolve_join`: a path joined to another
starts from where the other one leads. `reduce` says how far the components of a path lead up, and
down which names from there; `inside_resolve_iff` says with it when a path that starts in a directory
ends strictly inside.
-/

namespace Files

inductive Component where
  | parent
  | normal (name : String)
deriving DecidableEq, Repr

structure Path where
  absolute : Bool
  components : List Component
deriving DecidableEq, Repr

/-- Empty segments and `.` are no components. -/
def component? (segment : List Char) : Option Component :=
  if segment = [] ∨ segment = ['.'] then none
  else if segment = ['.', '.'] then some .parent
  else some (.normal (String.ofList segment))

namespace Path

def ofString (s : String) : Path where
  absolute := s.toList.head? = some '/'
  components := (s.toList.splitOn '/').filterMap component?

/-- An absolute path takes the place of what it is joined to. -/
def join (p : Path) (s : String) : Path :=
  if (ofString s).absolute then ofString s
  else { p with components := p.components ++ (ofString s).components }

/-- The path of an entry of the directory. -/
def child (p : Path) (name : String) : Path :=
  { p with components := p.components ++ [.normal name] }

/-- The path without its last component. -/
def parent? (p : Path) : Option Path :=
  if p.components = [] then none else some { p with components := p.components.dropLast }

end Path

/-! ## Directories -/

/-- The names from the directory up to the root. -/
abbrev Dir : Type := List String

/-- The directory is `outer` or below it. -/
def Dir.Within (d outer : Dir) : Prop := outer <:+ d

/-- The directory is below `outer`. -/
def Dir.Inside (d outer : Dir) : Prop := outer <:+ d ∧ d ≠ outer

instance (d outer : Dir) : Decidable (d.Within outer) := inferInstanceAs (Decidable (_ <:+ _))

instance (d outer : Dir) : Decidable (d.Inside outer) := inferInstanceAs (Decidable (_ ∧ _))

/-- One is the other or below it. -/
def Dir.Meets (d e : Dir) : Prop := d.Within e ∨ e.Within d

instance (d e : Dir) : Decidable (d.Meets e) := inferInstanceAs (Decidable (_ ∨ _))

/-- The root is its own parent. -/
def Dir.enter (d : Dir) : Component → Dir
  | .parent => d.tail
  | .normal name => name :: d

/-- Where the path leads from the working directory `cwd`. -/
def Path.resolve (p : Path) (cwd : Dir) : Dir :=
  p.components.foldl Dir.enter (if p.absolute then [] else cwd)

variable {d outer cwd : Dir} {p : Path} {s : String} {k : Nat}

theorem Dir.Inside.within (h : d.Inside outer) : d.Within outer := h.1

/-- Directories of one depth meet only if they are one. -/
theorem Dir.Meets.eq_of_length {e : Dir} (h : d.Meets e) (hlen : d.length = e.length) : d = e :=
  h.elim (fun hin => (hin.eq_of_length hlen.symm).symm) fun hin => hin.eq_of_length hlen

theorem resolve_join : (p.join s).resolve cwd = (Path.ofString s).resolve (p.resolve cwd) := by
  unfold Path.join
  by_cases h : (Path.ofString s).absolute
  · simp [Path.resolve, h]
  · simp [Path.resolve, h]

@[simp] theorem resolve_child : (p.child s).resolve cwd = s :: p.resolve cwd := by
  unfold Path.child Path.resolve
  rw [List.foldl_append]
  rfl

/-- The parent of a path that leads inside a directory does not lead out of it. -/
theorem within_resolve_parent {q : Path} (hq : p.parent? = some q) (h : (p.resolve cwd).Inside d) :
    (q.resolve cwd).Within d := by
  unfold Path.parent? at hq
  split at hq
  · cases hq
  · rename_i hne
    cases hq
    obtain ⟨init, last, hsplit⟩ : ∃ init last, p.components = init ++ [last] :=
      ⟨_, _, (List.dropLast_append_getLast hne).symm⟩
    have hdir : p.resolve cwd =
        Dir.enter (init.foldl Dir.enter (if p.absolute then [] else cwd)) last := by
      rw [Path.resolve, hsplit, List.foldl_append]
      rfl
    show d <:+ (p.components.dropLast).foldl Dir.enter (if p.absolute then [] else cwd)
    rw [hsplit, List.dropLast_concat]
    rw [hdir] at h
    generalize init.foldl Dir.enter (if p.absolute then [] else cwd) = at' at h ⊢
    cases last with
    | parent => exact h.1.trans (List.tail_suffix _)
    | normal name => exact (List.suffix_cons_iff.1 h.1).resolve_left fun heq => h.2 heq.symm

/-! ## Up and down -/

/-- How many steps the components lead up, and the names they lead down from there. -/
def Component.reduce (r : Nat × Dir) : Component → Nat × Dir
  | .normal name => (r.1, name :: r.2)
  | .parent =>
    match r.2 with
    | [] => (r.1 + 1, [])
    | _ :: down => (r.1, down)

/-- The same for a path that starts in `d`; an absolute one leads all the way up. -/
def Path.reduce (p : Path) (d : Dir) : Nat × Dir :=
  p.components.foldl Component.reduce (if p.absolute then d.length else 0, [])

theorem foldl_enter (cs : List Component) (up : Nat) (down : Dir) :
    cs.foldl Dir.enter (down ++ d.drop up) =
      (cs.foldl Component.reduce (up, down)).2 ++ d.drop (cs.foldl Component.reduce (up, down)).1 := by
  induction cs generalizing up down with
  | nil => rfl
  | cons c cs ih =>
    cases c with
    | normal name => exact ih up (name :: down)
    | parent =>
      cases down with
      | nil =>
        have htail : Dir.enter ([] ++ d.drop up) .parent = [] ++ d.drop (up + 1) := List.tail_drop
        rw [List.foldl_cons, htail]
        exact ih (up + 1) []
      | cons name down => exact ih up down

theorem resolve_eq_reduce : p.resolve d = (p.reduce d).2 ++ d.drop (p.reduce d).1 := by
  have h := foldl_enter (d := d) p.components (if p.absolute then d.length else 0) []
  rw [Path.reduce, ← h]
  unfold Path.resolve
  by_cases habs : p.absolute <;> simp [habs]

/-- The path leads down again the names it has led up, and further. -/
def Path.Descends (p : Path) (d : Dir) : Prop := Dir.Inside (p.reduce d).2 (d.take (p.reduce d).1)

instance (p : Path) (d : Dir) : Decidable (p.Descends d) := inferInstanceAs (Decidable (_ ∧ _))

theorem inside_resolve_iff : (p.resolve d).Inside d ↔ p.Descends d := by
  rw [resolve_eq_reduce, Path.Descends]
  generalize (p.reduce d).1 = up, (p.reduce d).2 = down
  have hd : d.take up ++ d.drop up = d := List.take_append_drop up d
  constructor
  · rintro ⟨⟨below, hbelow⟩, hne⟩
    have hdown : below ++ d.take up = down := by
      have happ : below ++ d.take up ++ d.drop up = down ++ d.drop up := by
        rw [List.append_assoc, hd, hbelow]
      exact List.append_cancel_right happ
    exact ⟨⟨below, hdown⟩, fun h => hne (by rw [h, hd])⟩
  · rintro ⟨⟨below, hbelow⟩, hne⟩
    refine ⟨⟨below, ?_⟩, fun h => hne ?_⟩
    · rw [← hbelow, List.append_assoc, hd]
    · have happ : down ++ d.drop up = d.take up ++ d.drop up := by rw [h, hd]
      exact List.append_cancel_right happ

/-! ## A single segment -/

theorem ofString_of_not_mem (h : '/' ∉ s.toList) :
    Path.ofString s = ⟨false, (component? s.toList).toList⟩ := by
  have habs : s.toList.head? ≠ some '/' := fun hhead => h (List.mem_of_mem_head? hhead)
  unfold Path.ofString
  rw [List.splitOn_eq_singleton h]
  cases hc : component? s.toList <;> simp [habs, hc]

/-- `Path::extension` of a name: what is behind the last dot, unless nothing is before it. -/
def extension (name : String) : Option String :=
  let stem := (name.toList.reverse.dropWhile (· ≠ '.')).drop 1
  if stem = [] then none else some (String.ofList (name.toList.reverse.takeWhile (· ≠ '.')).reverse)

example : extension "01 - a.b.FLAC" = some "FLAC" ∧ extension ".flac" = none := by decide +kernel

/-- What an entry of a directory may be called. -/
def IsName (s : String) : Prop := '/' ∉ s.toList ∧ s ≠ "" ∧ s ≠ "." ∧ s ≠ ".."

instance (s : String) : Decidable (IsName s) := inferInstanceAs (Decidable (_ ∧ _))

theorem join_eq_child (h : IsName s) : p.join s = p.child s := by
  obtain ⟨hslash, hname⟩ := h
  have htext : ∀ t : String, s ≠ t ↔ s.toList ≠ t.toList := fun t => String.toList_inj.symm.not
  rw [htext, htext, htext] at hname
  obtain ⟨hempty, hone, htwo⟩ : s.toList ≠ [] ∧ s.toList ≠ ['.'] ∧ s.toList ≠ ['.', '.'] := hname
  have hcomponent : component? s.toList = some (.normal s) := by
    unfold component?
    rw [if_neg fun h => h.elim hempty hone, if_neg htwo, String.ofList_toList]
  simp [Path.join, ofString_of_not_mem hslash, hcomponent, Path.child]

/-- A single segment leads inside unless it is empty or made of one or two dots. -/
theorem inside_of_segment (h : '/' ∉ s.toList) :
    ((Path.ofString s).resolve d).Inside d ↔ s ≠ "" ∧ s ≠ "." ∧ s ≠ ".." := by
  have htext : ∀ t : String, s = t ↔ s.toList = t.toList := fun t => String.toList_inj.symm
  rw [ofString_of_not_mem h, Ne, Ne, Ne, htext, htext, htext]
  unfold component?
  by_cases hdot : s.toList = [] ∨ s.toList = ['.']
  · rw [if_pos hdot]
    refine iff_of_false (fun hin => hin.2 rfl) ?_
    rintro ⟨hempty, hone, -⟩
    exact hdot.elim hempty hone
  · rw [if_neg hdot]
    obtain ⟨hempty, hone⟩ := not_or.1 hdot
    by_cases htwo : s.toList = ['.', '.']
    · rw [if_pos htwo]
      refine iff_of_false (fun hin => ?_) fun hall => hall.2.2 htwo
      have htail : Dir.Inside d.tail d := hin
      have hle := htail.1.length_le
      rw [List.length_tail] at hle
      have hnil : d = [] := List.length_eq_zero_iff.1 (by omega)
      exact htail.2 (by rw [hnil, List.tail_nil])
    · rw [if_neg htwo]
      exact iff_of_true ⟨List.suffix_cons _ _, List.cons_ne_self _ _⟩ ⟨hempty, hone, htwo⟩

end Files
