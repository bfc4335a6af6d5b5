import Mathlib.Data.List.Basic

/-!
# Text.Lines

Lines: what a text is read as, and the text that is written for lines.

* `not_mem_of_mem_lines`: no line has a line break in it.
* `splitOn_unlines`: lines without line breaks come back, and nothing after the last.
-/

namespace Lines

/-- A line break may be `\r\n`. -/
def dropReturn (line : List Char) : List Char :=
  if line.getLast? = some '\r' then line.dropLast else line

/-- `lines`: what follows the last line break is a line if there is anything. -/
def lines (text : List Char) : List (List Char) :=
  let parts := text.splitOn '\n'
  parts.dropLast.map dropReturn ++ (parts.drop (parts.length - 1)).filter (· ≠ [])

def unlines (ls : List (List Char)) : List Char := ls.flatMap (· ++ ['\n'])

def ofString (text : String) : List String := (lines text.toList).map String.ofList

variable {ls : List (List Char)} {text line : List Char}

theorem mem_of_mem_dropReturn {c : Char} (h : c ∈ dropReturn line) : c ∈ line := by
  unfold dropReturn at h
  split at h
  · exact List.dropLast_subset line h
  · exact h

theorem not_mem_of_mem_splitOn {c : Char} : ∀ part ∈ text.splitOn c, c ∉ part := by
  induction text with
  | nil =>
    intro part hpart
    rw [List.splitOn_nil, List.mem_singleton] at hpart
    rw [hpart]
    exact List.not_mem_nil
  | cons d text ih =>
    intro part hpart
    rw [List.splitOn_cons_eq_if_modifyHead] at hpart
    split at hpart
    · rcases List.mem_cons.1 hpart with rfl | hpart
      · exact List.not_mem_nil
      · exact ih part hpart
    · rename_i hd
      cases hparts : text.splitOn c with
      | nil => exact absurd hparts (List.splitOn_ne_nil c text)
      | cons head parts =>
        rw [hparts] at hpart ih
        rcases List.mem_cons.1 hpart with rfl | hpart
        · intro hmem
          rcases List.mem_cons.1 hmem with rfl | hmem
          · exact hd (beq_self_eq_true c)
          · exact ih head List.mem_cons_self hmem
        · exact ih part (List.mem_cons_of_mem _ hpart)

theorem not_mem_of_mem_lines (h : line ∈ lines text) : '\n' ∉ line := by
  unfold lines at h
  dsimp only at h
  rcases List.mem_append.1 h with h | h
  · obtain ⟨part, hpart, rfl⟩ := List.mem_map.1 h
    intro hmem
    exact not_mem_of_mem_splitOn part (List.dropLast_subset _ hpart) (mem_of_mem_dropReturn hmem)
  · exact not_mem_of_mem_splitOn line (List.mem_of_mem_drop (List.mem_of_mem_filter h))

theorem unlines_cons (l : List Char) (ls : List (List Char)) :
    unlines (l :: ls) = l ++ '\n' :: unlines ls := by
  rw [unlines, List.flatMap_cons, List.append_assoc]
  rfl

theorem splitOn_unlines (h : ∀ l ∈ ls, '\n' ∉ l) : (unlines ls).splitOn '\n' = ls ++ [[]] := by
  induction ls with
  | nil => rfl
  | cons l ls ih =>
    rw [unlines_cons, List.splitOn_append_cons_self_of_not_mem (h l List.mem_cons_self),
      ih fun l' hl' => h l' (List.mem_cons_of_mem _ hl'), List.cons_append]

end Lines
