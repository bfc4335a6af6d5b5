import Mathlib.Data.List.Perm.Basic

/-!
# Greedy.Sweep

A sweep over a list in order: it takes elements while the total is above a limit, and passes over those that
are spared. It is given the total; of what is in it besides the list, nothing is taken.

* `sweep_enough`: the total fits afterwards, or only spared elements are left.
* `sweep_ordered`, `sweep_minimal`: over a sorted list, it takes the first ones, and none too many.
-/

namespace Greedy

variable {α : Type} (size stamp : α → Nat) (spared : α → Bool) (limit : Nat)

def total (xs : List α) : Nat := xs.foldr (fun x n => size x + n) 0

/-- What a sweep takes and what it leaves. -/
def sweep : List α → Nat → List α × List α
  | [], _ => ([], [])
  | x :: xs, n =>
    if n ≤ limit then ([], x :: xs)
    else if spared x then ((sweep xs n).1, x :: (sweep xs n).2)
    else (x :: (sweep xs (n - size x)).1, (sweep xs (n - size x)).2)

variable {size stamp spared limit} {xs : List α} {n rest : Nat}

theorem total_cons (x : α) (xs : List α) : total size (x :: xs) = size x + total size xs := rfl

theorem total_append (xs ys : List α) : total size (xs ++ ys) = total size xs + total size ys := by
  induction xs with
  | nil => exact (Nat.zero_add _).symm
  | cons x xs ih => rw [List.cons_append, total_cons, ih, total_cons, Nat.add_assoc]

theorem total_perm {ys : List α} (h : xs.Perm ys) : total size xs = total size ys := by
  induction h with
  | nil => rfl
  | cons x _ ih => rw [total_cons, ih, total_cons]
  | swap x y xs => simp only [total_cons]; omega
  | trans _ _ ih ih' => exact ih.trans ih'

theorem sweep_perm (xs : List α) (n : Nat) :
    ((sweep size spared limit xs n).1 ++ (sweep size spared limit xs n).2).Perm xs := by
  induction xs generalizing n with
  | nil => exact List.Perm.refl []
  | cons x xs ih =>
    unfold sweep
    split
    · exact List.Perm.refl _
    · split
      · exact List.perm_middle.trans ((ih n).cons x)
      · exact (ih (n - size x)).cons x

theorem not_spared_of_mem {x : α} (h : x ∈ (sweep size spared limit xs n).1) : spared x = false := by
  induction xs generalizing n with
  | nil => cases h
  | cons y xs ih =>
    unfold sweep at h
    split at h
    · cases h
    · split at h
      · exact ih h
      · rename_i hspared
        rcases List.mem_cons.1 h with rfl | h
        · exact Bool.not_eq_true _ ▸ hspared
        · exact ih h

/-- The total fits, or nothing is left that could be taken. -/
theorem sweep_enough (hn : n = total size xs + rest) :
    total size (sweep size spared limit xs n).2 + rest ≤ limit ∨
      ∀ x ∈ (sweep size spared limit xs n).2, spared x = true := by
  induction xs generalizing n rest with
  | nil =>
    right
    intro x hx
    cases hx
  | cons x xs ih =>
    rw [total_cons] at hn
    unfold sweep
    split
    · left
      rw [total_cons]
      omega
    · split
      · rename_i hspared
        dsimp only
        rcases @ih n (rest + size x) (by omega) with hfits | hall
        · left
          rw [total_cons]
          omega
        · right
          intro y hy
          rcases List.mem_cons.1 hy with rfl | hy
          · exact hspared
          · exact hall y hy
      · exact @ih (n - size x) rest (by omega)

/-- What is taken comes before what could be taken and is left. -/
theorem sweep_ordered (hsorted : xs.Pairwise fun x y => stamp x ≤ stamp y) {x y : α}
    (hx : x ∈ (sweep size spared limit xs n).1) (hy : y ∈ (sweep size spared limit xs n).2)
    (hspared : spared y = false) : stamp x ≤ stamp y := by
  induction xs generalizing n with
  | nil => cases hx
  | cons z xs ih =>
    obtain ⟨hfirst, hrest⟩ := List.pairwise_cons.1 hsorted
    unfold sweep at hx hy
    split at hx
    · cases hx
    · rename_i hover
      rw [if_neg hover] at hy
      split at hx
      · rename_i hkept
        rw [if_pos hkept] at hy
        rcases List.mem_cons.1 hy with rfl | hy
        · rw [hkept] at hspared
          cases hspared
        · exact ih hrest hx hy
      · rename_i htaken
        rw [if_neg htaken] at hy
        rcases List.mem_cons.1 hx with rfl | hx
        · exact hfirst y ((sweep_perm xs _).subset (List.mem_append_right _ hy))
        · exact ih hrest hx hy

/-- Without the last one that is taken, the total is above the limit. -/
theorem sweep_minimal (hsorted : xs.Pairwise fun x y => stamp x ≤ stamp y) (hn : n = total size xs + rest) :
    (sweep size spared limit xs n).1 = [] ∨ ∃ last ∈ (sweep size spared limit xs n).1,
      (∀ x ∈ (sweep size spared limit xs n).1, stamp x ≤ stamp last) ∧
        limit < total size (sweep size spared limit xs n).2 + rest + size last := by
  induction xs generalizing n rest with
  | nil => exact .inl rfl
  | cons x xs ih =>
    obtain ⟨hfirst, hrest⟩ := List.pairwise_cons.1 hsorted
    rw [total_cons] at hn
    unfold sweep
    split
    · exact .inl rfl
    · rename_i hover
      split
      · dsimp only
        rcases @ih n (rest + size x) hrest (by omega) with hnone | ⟨last, hlast, hlatest, hlimit⟩
        · exact .inl hnone
        · refine .inr ⟨last, hlast, hlatest, ?_⟩
          rw [total_cons]
          omega
      · right
        dsimp only
        rcases @ih (n - size x) rest hrest (by omega) with hnone | ⟨last, hlast, hlatest, hlimit⟩
        · -- the first one is also the last
          refine ⟨x, List.mem_cons_self, ?_, ?_⟩
          · intro y hy
            rw [hnone, List.mem_singleton] at hy
            exact Nat.le_of_eq (congrArg stamp hy)
          · have hleft := @total_perm _ size _ _ (@sweep_perm _ size spared limit xs (n - size x))
            rw [hnone, List.nil_append] at hleft
            omega
        · refine ⟨last, List.mem_cons_of_mem x hlast, ?_, hlimit⟩
          intro y hy
          rcases List.mem_cons.1 hy with rfl | hy
          · exact hfirst last ((sweep_perm xs _).subset (List.mem_append_left _ hlast))
          · exact hlatest y hy

end Greedy
