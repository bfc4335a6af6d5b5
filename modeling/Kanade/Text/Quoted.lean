import Mathlib.Data.List.Basic

/-!
# Text.Quoted

Command lines of words, parted by blanks. A word in double quotes may have any characters, where a backslash
takes the next one as it is.

* `words_quote`: a quoted word is read as what it quotes.
* `words_plain`: a word of letters is read as it is.
-/

namespace Quoted

/-- Where the reader is in a word, with what it has read of it, last character first. -/
inductive Mode where
  | blank
  | bare (read : List Char)
  | quoted (read : List Char)
  | escaped (read : List Char)
  | closed

def isBlank (c : Char) : Bool := c = ' ' || c = '\t'

/-- The words of the rest of a line; none if it is not well formed. -/
def wordsFrom : Mode → List Char → Option (List (List Char))
  | .blank, [] => some []
  | .blank, c :: cs =>
    if isBlank c then wordsFrom .blank cs
    else if c = '"' then wordsFrom (.quoted []) cs
    else wordsFrom (.bare [c]) cs
  | .bare read, [] => some [read.reverse]
  | .bare read, c :: cs =>
    if isBlank c then (wordsFrom .blank cs).map (read.reverse :: ·)
    else if c = '"' then none
    else wordsFrom (.bare (c :: read)) cs
  | .quoted _, [] => none
  | .quoted read, c :: cs =>
    if c = '"' then (wordsFrom .closed cs).map (read.reverse :: ·)
    else if c = '\\' then wordsFrom (.escaped read) cs
    else wordsFrom (.quoted (c :: read)) cs
  | .escaped _, [] => none
  | .escaped read, c :: cs => wordsFrom (.quoted (c :: read)) cs
  | .closed, [] => some []
  | .closed, c :: cs => if isBlank c then wordsFrom .blank cs else none

def words (line : List Char) : Option (List (List Char)) := wordsFrom .blank line

/-- A backslash before each backslash and each double quote. -/
def escape (cs : List Char) : List Char := cs.flatMap fun c => if c = '\\' ∨ c = '"' then ['\\', c] else [c]

def quote (cs : List Char) : List Char := '"' :: (escape cs ++ ['"'])

variable {word read rest : List Char} {c : Char}

theorem escape_cons (c : Char) (cs : List Char) :
    escape (c :: cs) = (if c = '\\' ∨ c = '"' then ['\\', c] else [c]) ++ escape cs := List.flatMap_cons

theorem wordsFrom_escape (read cs rest : List Char) :
    wordsFrom (.quoted read) (escape cs ++ '"' :: rest) =
      (wordsFrom .closed rest).map ((read.reverse ++ cs) :: ·) := by
  induction cs generalizing read with
  | nil =>
    rw [List.append_nil]
    exact if_pos rfl
  | cons c cs ih =>
    have hread : (c :: read).reverse ++ cs = read.reverse ++ c :: cs := by
      rw [List.reverse_cons, List.append_assoc]
      rfl
    have hrest := ih (c :: read)
    rw [hread] at hrest
    rw [escape_cons]
    by_cases hc : c = '\\' ∨ c = '"'
    · rw [if_pos hc]
      exact (if_neg (by decide)).trans ((if_pos rfl).trans hrest)
    · rw [if_neg hc]
      exact (if_neg fun h => hc (.inr h)).trans ((if_neg fun h => hc (.inl h)).trans hrest)

theorem words_quote (cs rest : List Char) :
    wordsFrom .blank (quote cs ++ rest) = (wordsFrom .closed rest).map (cs :: ·) := by
  have hquoted := wordsFrom_escape [] cs rest
  have hstart : wordsFrom .blank (quote cs ++ rest) = wordsFrom (.quoted []) (escape cs ++ '"' :: rest) := by
    rw [quote, List.cons_append, List.append_assoc, wordsFrom]
    rfl
  rw [hstart, hquoted]
  rfl

/-- Characters that end no word. -/
def Plain (cs : List Char) : Prop := ∀ c ∈ cs, isBlank c = false ∧ c ≠ '"'

theorem wordsFrom_plain (h : Plain word) :
    wordsFrom (.bare read) (word ++ rest) = wordsFrom (.bare (word.reverse ++ read)) rest := by
  induction word generalizing read with
  | nil => rfl
  | cons c word ih =>
    obtain ⟨hblank, hquote⟩ := h c List.mem_cons_self
    rw [List.cons_append, wordsFrom, if_neg (Bool.eq_false_iff.1 hblank), if_neg hquote,
      ih fun d hd => h d (List.mem_cons_of_mem c hd), List.reverse_cons, List.append_assoc]
    rfl

theorem words_plain (h : Plain (c :: word)) : words (c :: word) = some [c :: word] := by
  obtain ⟨hblank, hquote⟩ := h c List.mem_cons_self
  have hword := @wordsFrom_plain word [c] [] fun d hd => h d (List.mem_cons_of_mem c hd)
  rw [List.append_nil] at hword
  rw [words, wordsFrom, if_neg (Bool.eq_false_iff.1 hblank), if_neg hquote, hword, wordsFrom, List.reverse_append,
    List.reverse_reverse]
  rfl

/-- A word and a quoted one. -/
theorem words_plain_quote (h : Plain (c :: word)) (cs : List Char) :
    words ((c :: word) ++ ' ' :: quote cs) = some [c :: word, cs] := by
  obtain ⟨hblank, hquote⟩ := h c List.mem_cons_self
  have hword := @wordsFrom_plain word [c] (' ' :: quote cs) fun d hd => h d (List.mem_cons_of_mem c hd)
  have hquoted := words_quote cs []
  rw [List.append_nil] at hquoted
  rw [words, List.cons_append, wordsFrom, if_neg (Bool.eq_false_iff.1 hblank), if_neg hquote, hword, wordsFrom,
    if_pos (by rfl), hquoted, List.reverse_append, List.reverse_reverse]
  rfl

theorem mem_escape_iff (hslash : c ≠ '\\') {cs : List Char} : c ∈ escape cs ↔ c ∈ cs := by
  induction cs with
  | nil => exact Iff.rfl
  | cons d cs ih =>
    rw [escape_cons, List.mem_append, ih, List.mem_cons]
    by_cases hd : d = '\\' ∨ d = '"'
    · rw [if_pos hd, List.mem_cons, List.mem_singleton, or_iff_right hslash]
    · rw [if_neg hd, List.mem_singleton]

end Quoted
