import Mathlib.Data.List.Basic

/-!
# Stream.ByLine

A stream read line by line. A line has the separator that ends it, but for the last one.

* `lines_eq`: the lines are what reading one after the other gives.
* `lines_flatMap`: what has been written line by line is read as it was.
* `length_lines_iff`: but for lines with a separator in them, of which there are more than were written.
-/

namespace ByLine

variable {α : Type} [DecidableEq α] {sep : α} {line xs rest : List α}

/-- The first line and what is behind it. At the end the line is empty. -/
def takeLine (sep : α) : List α → List α × List α
  | [] => ([], [])
  | x :: xs => if x = sep then ([x], xs) else (x :: (takeLine sep xs).1, (takeLine sep xs).2)

def lines (sep : α) : List α → List (List α)
  | [] => []
  | x :: xs =>
    if x = sep then [x] :: lines sep xs
    else
      match lines sep xs with
      | [] => [[x]]
      | line :: rest => (x :: line) :: rest

theorem lines_eq (hne : xs ≠ []) : lines sep xs = (takeLine sep xs).1 :: lines sep (takeLine sep xs).2 := by
  induction xs with
  | nil => exact absurd rfl hne
  | cons x xs ih =>
    rw [lines, takeLine]
    by_cases hx : x = sep
    · rw [if_pos hx, if_pos hx]
    · rw [if_neg hx, if_neg hx]
      by_cases hxs : xs = []
      · rw [hxs]
        rfl
      · rw [ih hxs]

theorem takeLine_append (h : sep ∉ line) : takeLine sep (line ++ sep :: rest) = (line ++ [sep], rest) := by
  induction line with
  | nil => exact if_pos rfl
  | cons x line ih =>
    have hx : x ≠ sep := fun heq => h (heq ▸ List.mem_cons_self)
    rw [List.cons_append, takeLine, if_neg hx, ih fun hmem => h (List.mem_cons_of_mem x hmem)]
    rfl

theorem lines_append (h : sep ∉ line) : lines sep (line ++ sep :: rest) = (line ++ [sep]) :: lines sep rest := by
  have hne : line ++ sep :: rest ≠ [] := List.append_ne_nil_of_right_ne_nil line (List.cons_ne_nil sep rest)
  rw [lines_eq hne, takeLine_append h]

theorem lines_flatMap {written : List (List α)} (h : ∀ line ∈ written, sep ∉ line) :
    lines sep (written.flatMap fun line => line ++ [sep]) = written.map fun line => line ++ [sep] := by
  induction written with
  | nil => rfl
  | cons line written ih =>
    rw [List.flatMap_cons, List.append_assoc, List.singleton_append, lines_append (h line List.mem_cons_self),
      ih fun other hother => h other (List.mem_cons_of_mem line hother), List.map_cons]

theorem count_le_length_lines (xs : List α) : xs.count sep ≤ (lines sep xs).length := by
  induction xs with
  | nil => exact Nat.le_refl 0
  | cons x xs ih =>
    rw [lines]
    by_cases hx : x = sep
    · rw [if_pos hx, hx, List.count_cons_self, List.length_cons]
      omega
    · rw [if_neg hx, List.count_cons_of_ne hx]
      cases hlines : lines sep xs with
      | nil =>
        rw [hlines] at ih
        exact Nat.le_succ_of_le ih
      | cons line rest =>
        rw [hlines] at ih
        exact ih

theorem length_le_count (written : List (List α)) :
    written.length ≤ (written.flatMap fun line => line ++ [sep]).count sep := by
  induction written with
  | nil => exact Nat.le_refl 0
  | cons line written ih =>
    rw [List.flatMap_cons, List.count_append, List.count_append, List.count_singleton_self, List.length_cons]
    omega

theorem length_lt_count {written : List (List α)} (h : ∃ line ∈ written, sep ∈ line) :
    written.length < (written.flatMap fun line => line ++ [sep]).count sep := by
  obtain ⟨line, hline, hsep⟩ := h
  obtain ⟨before, after, rfl⟩ := List.append_of_mem hline
  have hbefore := @length_le_count α _ sep before
  have hafter := @length_le_count α _ sep after
  have hpos := List.count_pos_iff.2 hsep
  rw [List.flatMap_append, List.flatMap_cons, List.count_append, List.count_append, List.count_append,
    List.count_singleton_self, List.length_append, List.length_cons]
  omega

theorem length_lines_iff {written : List (List α)} :
    (lines sep (written.flatMap fun line => line ++ [sep])).length = written.length ↔
      ∀ line ∈ written, sep ∉ line := by
  constructor
  · intro hlength line hline hsep
    have hlt := length_lt_count ⟨line, hline, hsep⟩
    have hle := @count_le_length_lines α _ sep (written.flatMap fun line => line ++ [sep])
    omega
  · intro h
    rw [lines_flatMap h, List.length_map]

end ByLine
