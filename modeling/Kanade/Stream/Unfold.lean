import Mathlib.Data.List.Basic

/-!
# Stream.Unfold

Streams that are unfolded from a state: each step gives an item and the next state, or the end, or fails.

* `Yields.unique`: a stream has one list of items.
* `delivers_of_left`: a stream whose steps take non-empty pieces off the front of what is left delivers it.
-/

namespace Unfold

variable {σ α β ε : Type}

/-- The stream from the state comes to its end with these items. -/
inductive Yields (step : σ → Except ε (Option (α × σ))) : σ → List α → Prop
  | stop {s : σ} : step s = .ok none → Yields step s []
  | next {s s' : σ} {a : α} {as : List α} :
    step s = .ok (some (a, s')) → Yields step s' as → Yields step s (a :: as)

variable {step : σ → Except ε (Option (α × σ))} {s : σ} {as as' : List α}

theorem Yields.unique (h : Yields step s as) (h' : Yields step s as') : as = as' := by
  induction h generalizing as' with
  | stop hstop =>
    cases h' with
    | stop _ => rfl
    | next hnext _ =>
      rw [hstop] at hnext
      cases hnext
  | next hnext _ ih =>
    cases h' with
    | stop hstop =>
      rw [hnext] at hstop
      cases hstop
    | next hnext' hrest =>
      rw [hnext] at hnext'
      cases hnext'
      rw [ih hrest]

/-- The stream comes to its end, and its items together are `bs`. -/
def Delivers (step : σ → Except ε (Option (List β × σ))) (s : σ) (bs : List β) : Prop :=
  ∃ items, Yields step s items ∧ items.flatten = bs

theorem Delivers.unique {step : σ → Except ε (Option (List β × σ))} {bs bs' : List β} (h : Delivers step s bs)
    (h' : Delivers step s bs') : bs = bs' := by
  obtain ⟨items, hitems, rfl⟩ := h
  obtain ⟨items', hitems', rfl⟩ := h'
  rw [hitems.unique hitems']

/-- By induction on how much is left. -/
theorem delivers_of_left {step : σ → Except ε (Option (List β × σ))} {Inv : σ → Prop} {left : σ → List β}
    (hstep : ∀ s, Inv s → (step s = .ok none ∧ left s = []) ∨
      ∃ item s', step s = .ok (some (item, s')) ∧ item ≠ [] ∧ left s = item ++ left s' ∧ Inv s')
    (h : Inv s) : Delivers step s (left s) := by
  induction hn : (left s).length using Nat.strongRecOn generalizing s with
  | ind n ih =>
    rcases hstep s h with ⟨hstop, hnil⟩ | ⟨item, s', hnext, hne, hleft, hinv⟩
    · exact ⟨[], .stop hstop, hnil.symm⟩
    · have hlt : (left s').length < n := by
        have hpos := List.length_pos_iff.2 hne
        rw [← hn, hleft, List.length_append]
        omega
      obtain ⟨items, hitems, hall⟩ := ih _ hlt hinv rfl
      refine ⟨item :: items, .next hnext hitems, ?_⟩
      rw [List.flatten_cons, hall, hleft]

end Unfold
