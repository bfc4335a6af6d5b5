import Kanade.Keyed.Table

/-!
# Concur.Timers

One-shot timers, numbered in the order they were set in, and the slots a program keeps their numbers in.

* `Timers.set`, `Timers.clear`, `Timers.get`: what is armed.
* `Held`: every armed timer is in the slot its callback is for, and in no other; so a slot is cleared without
  touching what is armed for the others.
* `Held.clear`, `Held.set`: a slot emptied, and a slot filled.
-/

namespace Concur

open Keyed

variable {κ ς : Type}

structure Timer (κ : Type) where
  id : Nat
  callback : κ
  delay : Nat

/-- The armed timers, all with numbers below `count`. -/
structure Timers (κ : Type) where
  armed : Table (Timer.id : Timer κ → Nat)
  count : Nat
  below : ∀ k timer, armed.get k = some timer → k < count

namespace Timers

def empty (κ : Type) : Timers κ where
  armed := Table.empty _
  count := 0
  below := fun _ _ h => by cases h

def get (timers : Timers κ) (k : Nat) : Option (Timer κ) := timers.armed.get k

theorem count_not_mem (timers : Timers κ) : timers.count ∉ timers.armed.rows.map Timer.id := by
  rw [← Table.get_eq_none_iff, Option.eq_none_iff_forall_ne_some]
  intro timer htimer
  exact Nat.lt_irrefl _ (timers.below _ _ htimer)

/-- A new timer, whose number is `count`. -/
def set (callback : κ) (delay : Nat) (timers : Timers κ) : Timers κ where
  armed := timers.armed.insert ⟨timers.count, callback, delay⟩ timers.count_not_mem
  count := timers.count + 1
  below := by
    intro k timer h
    rw [Table.get_insert] at h
    split at h
    · rename_i hk
      exact hk ▸ Nat.lt_succ_self _
    · exact Nat.lt_succ_of_lt (timers.below k timer h)

/-- The timer with the number, if there is one, is not armed any more. -/
def clear (id : Option Nat) (timers : Timers κ) : Timers κ where
  armed := timers.armed.restrict fun k => decide (some k ≠ id)
  count := timers.count
  below := fun k timer h => timers.below k timer (Table.get_of_restrict h)

variable {timers : Timers κ} {callback : κ} {delay k : Nat} {id : Option Nat} {timer : Timer κ}

theorem get_set : (timers.set callback delay).get k =
    if k = timers.count then some ⟨timers.count, callback, delay⟩ else timers.get k :=
  Table.get_insert (h := timers.count_not_mem)

theorem get_clear : (timers.clear id).get k = if some k = id then none else timers.get k := by
  unfold get clear
  rw [Table.get_restrict]
  by_cases hk : some k = id
  · simp [hk]
  · simp [hk]

theorem get_of_clear (h : (timers.clear id).get k = some timer) : timers.get k = some timer :=
  Table.get_of_restrict h

theorem lt_count (h : timers.get k = some timer) : k < timers.count := timers.below k timer h

@[simp] theorem count_set : (timers.set callback delay).count = timers.count + 1 := rfl

@[simp] theorem count_clear : (timers.clear id).count = timers.count := rfl

@[simp] theorem get_empty : (Timers.empty κ).get k = none := rfl

/-- Setting a timer disturbs none. -/
theorem get_set_of_get (h : timers.get k = some timer) : (timers.set callback delay).get k = some timer := by
  rw [get_set, if_neg (Nat.ne_of_lt (lt_count h))]
  exact h

theorem get_set_count : (timers.set callback delay).get timers.count = some ⟨timers.count, callback, delay⟩ := by
  rw [get_set, if_pos rfl]

end Timers

/-! ## Slots -/

/-- `held` says which number a slot keeps, `slot` for which slot a callback is; what a slot keeps may have run. -/
structure Held (slot : κ → ς) (held : ς → Option Nat) (timers : Timers κ) : Prop where
  owner : ∀ k timer, timers.get k = some timer → held (slot timer.callback) = some k
  only : ∀ s k timer, held s = some k → timers.get k = some timer → slot timer.callback = s
  taken : ∀ s k, held s = some k → k < timers.count

namespace Held

variable {slot : κ → ς} {held held' : ς → Option Nat} {timers : Timers κ} {callback : κ} {delay k : Nat} {s : ς}
  {timer : Timer κ}

theorem empty : Held slot (fun _ => none) (Timers.empty κ) := by
  constructor
  · intro k timer h
    cases h
  · intro s k timer h
    cases h
  · intro s k h
    cases h

/-- Clearing a slot leaves what is armed for the others. -/
theorem get_clear (h : Held slot held timers) (hget : timers.get k = some timer) (hs : slot timer.callback ≠ s) :
    (timers.clear (held s)).get k = some timer := by
  rw [Timers.get_clear, if_neg]
  · exact hget
  · intro heq
    exact hs (h.only s k timer heq.symm hget)

/-- With a slot cleared nothing is armed for it. -/
theorem slot_ne_of_clear (h : Held slot held timers) (hget : (timers.clear (held s)).get k = some timer) :
    slot timer.callback ≠ s := by
  intro hs
  have howner := h.owner k timer (Timers.get_of_clear hget)
  rw [Timers.get_clear, if_pos (by rw [← hs, howner])] at hget
  cases hget

/-- The timer of a slot runs; the slot may keep its number. -/
theorem ran (h : Held slot held timers) (hrest : ∀ s', s' ≠ s → held' s' = held s')
    (hs : ∀ k, held' s = some k → held s = some k) : Held slot held' (timers.clear (held s)) := by
  have hold : ∀ s' k, held' s' = some k → held s' = some k := by
    intro s' k hk
    by_cases hs' : s' = s
    · rw [hs'] at hk ⊢
      exact hs k hk
    · rwa [← hrest s' hs']
  constructor
  · intro k timer hget
    rw [hrest _ (h.slot_ne_of_clear hget)]
    exact h.owner k timer (Timers.get_of_clear hget)
  · intro s' k timer hk hget
    exact h.only s' k timer (hold s' k hk) (Timers.get_of_clear hget)
  · intro s' k hk
    exact h.taken s' k (hold s' k hk)

/-- A slot is cleared and emptied. -/
theorem clear (h : Held slot held timers) (hrest : ∀ s', s' ≠ s → held' s' = held s') (hs : held' s = none) :
    Held slot held' (timers.clear (held s)) :=
  h.ran hrest fun k hk => by rw [hs] at hk; cases hk

/-- A new timer goes to a slot for which nothing is armed. -/
theorem set (h : Held slot held timers) (hrest : ∀ s', s' ≠ slot callback → held' s' = held s')
    (hfree : ∀ k timer, timers.get k = some timer → slot timer.callback ≠ slot callback)
    (hnew : held' (slot callback) = some timers.count) : Held slot held' (timers.set callback delay) := by
  constructor
  · intro k timer hget
    rw [Timers.get_set] at hget
    split at hget
    · rename_i hk
      cases hget
      rw [hk]
      exact hnew
    · rw [hrest _ (hfree k timer hget)]
      exact h.owner k timer hget
  · intro s' k timer hk hget
    by_cases hs' : s' = slot callback
    · rw [hs', hnew] at hk
      cases hk
      rw [Timers.get_set_count] at hget
      cases hget
      exact hs'.symm
    · rw [hrest s' hs'] at hk
      rw [Timers.get_set, if_neg (Nat.ne_of_lt (h.taken s' k hk))] at hget
      exact h.only s' k timer hk hget
  · intro s' k hk
    rw [Timers.count_set]
    by_cases hs' : s' = slot callback
    · rw [hs', hnew] at hk
      cases hk
      exact Nat.lt_succ_self _
    · rw [hrest s' hs'] at hk
      exact Nat.lt_succ_of_lt (h.taken s' k hk)

end Held

end Concur
