import Mathlib.Data.List.Nodup
import Mathlib.Data.List.Perm.Basic

/-!
# Shuffle.FisherYates

The shuffle of Fisher and Yates over a part of a list: from its last position down to its second one, each is
swapped with one that is not behind it and not before the part.

* `shuffle_perm`, `getElem?_shuffle`: it permutes the part and leaves the rest alone.
* `exists_shuffle`: every such permutation comes of some choice.
-/

namespace FisherYates

variable {α : Type}

/-- What is chosen for a position is how far behind the beginning of the part the other one is. -/
def shuffle (lo : Nat) (choose : Nat → Nat) : Nat → List α → List α
  | 0, l => l
  | k + 1, l => shuffle lo choose k (l.swap (lo + k + 1) (lo + choose (lo + k + 1)))

/-- No position behind the one that it is chosen for. -/
def Fair (lo : Nat) (choose : Nat → Nat) : Prop := ∀ i, lo < i → lo + choose i ≤ i

variable {lo : Nat} {choose choose' : Nat → Nat} {l t : List α} {k : Nat}

theorem shuffle_perm (k : Nat) (l : List α) : (shuffle lo choose k l).Perm l := by
  induction k generalizing l with
  | zero => exact List.Perm.refl l
  | succ k ih => exact (ih _).trans (List.swap_perm l _ _)

theorem getElem?_swap_of_ne {i j m : Nat} (hi : m ≠ i) (hj : m ≠ j) : (l.swap i j)[m]? = l[m]? := by
  rcases Nat.lt_or_ge m l.length with hlt | hge
  · have hlt' : m < (l.swap i j).length := by rwa [List.length_swap]
    rw [List.getElem?_eq_getElem hlt, List.getElem?_eq_getElem hlt', List.getElem_swap_of_ne hi hj]
  · rw [List.getElem?_eq_none hge, List.getElem?_eq_none (by rwa [List.length_swap])]

theorem getElem?_shuffle (hfair : Fair lo choose) {m : Nat} (hm : m < lo ∨ lo + k < m) :
    (shuffle lo choose k l)[m]? = l[m]? := by
  induction k generalizing l with
  | zero => rfl
  | succ k ih =>
    have hchosen := hfair (lo + k + 1) (by omega)
    rw [shuffle, ih (by omega), getElem?_swap_of_ne (by omega) (by omega)]

/-- Only the choices for the positions of the part matter. -/
theorem shuffle_congr (h : ∀ i, lo < i → i ≤ lo + k → choose i = choose' i) (l : List α) :
    shuffle lo choose k l = shuffle lo choose' k l := by
  induction k generalizing l with
  | zero => rfl
  | succ k ih =>
    rw [shuffle, shuffle, h (lo + k + 1) (by omega) (by omega)]
    exact ih (fun i hlo hi => h i hlo (by omega)) _

/-- Two lists with the same elements, each once, that agree in all places but these two. -/
theorem exists_place (hnodup : l.Nodup) (hperm : t.Perm l) (hlt : lo + k < l.length)
    (houtside : ∀ m, m < lo ∨ lo + k < m → t[m]? = l[m]?) : ∃ j, j ≤ k ∧ l[lo + j]? = t[lo + k]? := by
  have hlength := hperm.length_eq
  have hmem : t[lo + k] ∈ l := hperm.mem_iff.1 (List.getElem_mem (by omega))
  obtain ⟨m, hm, hat⟩ := List.getElem_of_mem hmem
  -- elsewhere the element would be in the other list twice
  have hinside : ¬ (m < lo ∨ lo + k < m) := by
    intro hout
    have hsame := houtside m hout
    rw [List.getElem?_eq_getElem (by omega), List.getElem?_eq_getElem hm, hat, Option.some.injEq] at hsame
    have heq := (List.Nodup.getElem_inj_iff (hperm.nodup_iff.2 hnodup)).1 hsame
    omega
  refine ⟨m - lo, by omega, ?_⟩
  rw [List.getElem?_eq_getElem (by omega), List.getElem?_eq_getElem (by omega)]
  have hindex : lo + (m - lo) = m := by omega
  simp only [hindex, hat]

theorem exists_shuffle (hnodup : l.Nodup) (hperm : t.Perm l) (hlt : 0 < k → lo + k < l.length)
    (houtside : ∀ m, m < lo ∨ lo + k < m → t[m]? = l[m]?) :
    ∃ choose, Fair lo choose ∧ shuffle lo choose k l = t := by
  induction k generalizing l with
  | zero =>
    refine ⟨fun _ => 0, fun i hi => Nat.le_of_lt hi, ?_⟩
    refine List.ext_getElem? fun m => ?_
    rcases Nat.lt_trichotomy m lo with hm | rfl | hm
    · exact (houtside m (.inl hm)).symm
    · have hlength := hperm.length_eq
      rcases Nat.lt_or_ge m l.length with hin | hout
      · obtain ⟨j, hj, hplace⟩ := exists_place hnodup hperm hin houtside
        rwa [Nat.le_zero.1 hj] at hplace
      · rw [shuffle, List.getElem?_eq_none hout, List.getElem?_eq_none (by omega)]
    · exact (houtside m (.inr hm)).symm
  | succ k ih =>
    have hlt := hlt (Nat.succ_pos k)
    obtain ⟨j, hj, hplace⟩ := exists_place hnodup hperm hlt houtside
    have hswap : (l.swap (lo + k + 1) (lo + j))[lo + k + 1]? = t[lo + k + 1]? := by
      rw [List.getElem?_eq_getElem (by rw [List.length_swap]; omega),
        List.getElem_swap_left_of_lt (by omega), ← List.getElem?_eq_getElem (by omega)]
      exact hplace
    have hsame : (l.swap (lo + k + 1) (lo + j)).Perm l := List.swap_perm l _ _
    obtain ⟨choose, hfair, hshuffle⟩ := ih (hsame.nodup_iff.2 hnodup) (hperm.trans hsame.symm)
      (by rw [List.length_swap]; omega) (by
        intro m hm
        by_cases htop : m = lo + k + 1
        · rw [htop, hswap]
        · rw [houtside m (by omega), getElem?_swap_of_ne htop (by omega)])
    refine ⟨fun i => if i = lo + k + 1 then j else choose i, ?_, ?_⟩
    · intro i hi
      dsimp only
      split
      · omega
      · exact hfair i hi
    · rw [shuffle, if_pos rfl, ← hshuffle]
      refine shuffle_congr (fun i _ hi => ?_) _
      rw [if_neg (by omega)]

end FisherYates
