import Mathlib.Data.Rat.Floor
import Kanade.Web.Shuffle

/-!
# Kanade.Web.ShuffleOrder

Which orders `buildShuffleOrder` makes of a queue, over all results of `Math.random()`.

`buildShuffleOrder_orders`: exactly those of all tracks that begin with the current one.
-/

namespace Kanade.Web

open LocalQueue

/-- The results of `Math.random()`, call by call. -/
structure Draws where
  value : Nat → ℚ
  nonneg : ∀ call, 0 ≤ value call
  lt_one : ∀ call, value call < 1

/-- `Math.floor(Math.random() * index)` for a queue of this length: the first call is for its last index. -/
def Draws.random (draws : Draws) (length : Nat) : Random :=
  fun index => ⌊draws.value (length - 1 - index) * index⌋₊

/-- A queue with shuffling on. -/
structure ShuffledQueue extends LocalQueue where
  enabled : shuffleEnabled = true
  nonempty : tracks ≠ []
  inside : ∀ i ∈ currentIndex, i < tracks.length

instance : Inhabited ShuffledQueue where
  default :=
    { tracks := [{ id := "1", filePath := "/1" }], currentIndex := some 0, repeatMode := .off, shuffleEnabled := true,
      shuffleOrder := [0], enabled := rfl, nonempty := List.cons_ne_nil _ _, inside := by decide }

/-! ## The draws -/

theorem random_lt (draws : Draws) (length : Nat) {index : Nat} (hindex : 0 < index) :
    draws.random length index < index := by
  have hpos : (0 : ℚ) < index := Nat.cast_pos.2 hindex
  have hnonneg := mul_nonneg (draws.nonneg (length - 1 - index)) (Nat.cast_nonneg index)
  unfold Draws.random
  rw [Nat.floor_lt hnonneg]
  exact mul_lt_of_lt_one_left hpos (draws.lt_one _)

theorem fair_random (draws : Draws) (length : Nat) : FisherYates.Fair 1 (draws.random length) := by
  intro i hi
  have hlt := random_lt draws length (by omega : 0 < i)
  omega

theorem shuffleFrom_random (draws : Draws) (length k : Nat) (l : List Nat) :
    shuffleFrom (draws.random length) (k + 1) l = FisherYates.shuffle 1 (draws.random length) k l := by
  rw [shuffleFrom_eq]
  refine FisherYates.shuffle_congr (fun i hi _ => ?_) l
  exact Nat.mod_eq_of_lt (random_lt draws length (by omega))

/-- Choices come of draws that lie in the middle of what is rounded to them. -/
theorem exists_draws {choose : Nat → Nat} (hfair : FisherYates.Fair 1 choose) (length : Nat) :
    ∃ draws : Draws, ∀ index, 1 < index → index < length → draws.random length index = choose index := by
  have hpos : ∀ index : Nat, 1 < index → (0 : ℚ) < 2 * index := by
    intro index hindex
    have hcast : (0 : ℚ) < index := Nat.cast_pos.2 (by omega)
    exact mul_pos two_pos hcast
  refine ⟨⟨fun call => if 1 < length - 1 - call then
      (2 * choose (length - 1 - call) + 1 : ℚ) / (2 * (length - 1 - call : Nat)) else 0, ?_, ?_⟩, ?_⟩
  · intro call
    split
    · positivity
    · exact le_refl 0
  · intro call
    split
    · rename_i hindex
      rw [div_lt_one (hpos _ hindex)]
      have hle := hfair _ hindex
      have hcast : ((2 * choose (length - 1 - call) + 1 : Nat) : ℚ) < (2 * (length - 1 - call) : Nat) :=
        Nat.cast_lt.2 (by omega)
      push_cast at hcast ⊢
      exact hcast
    · exact one_pos
  · intro index hindex hlt
    have hcall : length - 1 - (length - 1 - index) = index := by omega
    unfold Draws.random
    dsimp only
    rw [hcall, if_pos hindex, Nat.floor_eq_iff (by positivity)]
    have hcast : (0 : ℚ) < index := Nat.cast_pos.2 (by omega)
    have hvalue : (2 * choose index + 1 : ℚ) / (2 * index) * index = choose index + 1 / 2 := by
      field_simp
    rw [hvalue]
    constructor
    · linarith
    · linarith

/-- The orders are those of all tracks in which the current one, or else the first, is first. -/
theorem buildShuffleOrder_orders (q : ShuffledQueue) (order : List Nat) :
    (∃ draws : Draws,
        (buildShuffleOrder (draws.random q.tracks.length) q.toLocalQueue).shuffleOrder = order) ↔
      order.Perm (List.range q.tracks.length) ∧ order.head? = some (q.currentIndex.getD 0) := by
  have hcurrent : q.currentIndex.getD 0 < q.tracks.length := by
    cases hindex : q.currentIndex with
    | none => exact List.length_pos_iff.2 q.nonempty
    | some i => exact q.inside i hindex
  have hfirst := frontOrder_first hcurrent
  have hperm := frontOrder_perm q.tracks.length (q.currentIndex.getD 0)
  have hlength := hperm.length_eq.trans List.length_range
  have horder : ∀ draws : Draws, (buildShuffleOrder (draws.random q.tracks.length) q.toLocalQueue).shuffleOrder =
      FisherYates.shuffle 1 (draws.random q.tracks.length) (q.tracks.length - 2)
        (frontOrder q.tracks.length (q.currentIndex.getD 0)) := by
    intro draws
    rw [buildShuffleOrder_eq _ q.enabled hcurrent]
    rcases Nat.lt_or_ge 1 q.tracks.length with hmany | hone
    · have hpred : q.tracks.length - 1 = q.tracks.length - 2 + 1 := by omega
      rw [hpred, shuffleFrom_random]
    · have hzero : q.tracks.length - 1 = 0 ∧ q.tracks.length - 2 = 0 := by omega
      rw [hzero.1, hzero.2]
      rfl
  constructor
  · rintro ⟨draws, rfl⟩
    rw [horder]
    refine ⟨(FisherYates.shuffle_perm _ _).trans hperm, ?_⟩
    rw [List.head?_eq_getElem?, FisherYates.getElem?_shuffle (fair_random draws _) (.inl one_pos), hfirst]
  · rintro ⟨hall, hhead⟩
    have hnodup := hperm.nodup_iff.2 List.nodup_range
    have houtside : ∀ m, m < 1 ∨ 1 + (q.tracks.length - 2) < m →
        order[m]? = (frontOrder q.tracks.length (q.currentIndex.getD 0))[m]? := by
      intro m hm
      rcases hm with hm | hm
      · rw [Nat.lt_one_iff.1 hm, hfirst, ← List.head?_eq_getElem?, hhead]
      · have hlength' := hall.length_eq
        rw [List.length_range] at hlength'
        rw [List.getElem?_eq_none (by omega), List.getElem?_eq_none (by omega)]
    obtain ⟨choose, hfair, hshuffle⟩ :=
      FisherYates.exists_shuffle hnodup (hall.trans hperm.symm) (by omega) houtside
    obtain ⟨draws, hdraws⟩ := exists_draws hfair q.tracks.length
    refine ⟨draws, ?_⟩
    rw [horder, ← hshuffle]
    exact FisherYates.shuffle_congr (fun i hi hlast => hdraws i hi (by omega)) _

end Kanade.Web
