import Mathlib.Data.Option.Basic
import Mathlib.Logic.Function.Basic
import Kanade.Keyed.Table

/-!
# Keyed.Refresh

Rows made from items that carry a stamp, and kept from one pass over the items to the next while the
stamp is the same.

* `Source.renewAll`: what a pass does item by item.
* `Source.refreshed`: the rows after a pass that starts from other rows.
* `Source.rebuilt`: the rows after a pass that starts from none.
* `refreshed_eq_rebuilt_iff`: when equal stamps mean equal rows, a pass leaves the rows of a rebuild
  exactly if each item that has a row can still be made one of.
-/

namespace Keyed

/-- How items are keyed and stamped, and which rows they make; a row carries the stamp of its item. -/
structure Source (ι κ μ α : Type) where
  key : ι → κ
  stamp : ι → μ
  make : ι → Option α
  stampOf : α → Option μ
  stampOf_make : ∀ i r, make i = some r → stampOf r = some (stamp i)

namespace Source

variable {ι κ μ α : Type} (src : Source ι κ μ α)

/-- Every row was made from one of the items seen. -/
def Made (seen : List ι) (rows : κ → Option α) : Prop :=
  ∀ k r, rows k = some r → ∃ i ∈ seen, src.key i = k ∧ src.make i = some r

/-- Items with the same key and stamp make the same row. -/
def Tells (seen : List ι) : Prop :=
  ∀ i ∈ seen, ∀ j ∈ seen, src.key i = src.key j → src.stamp i = src.stamp j →
    src.make i = src.make j

section Pass

variable [DecidableEq κ] [DecidableEq μ]

/-- The row of an item after a pass: a row with its stamp stays, and so does one that it cannot
replace. -/
def renew (i : ι) (old : Option α) : Option α :=
  if old.bind src.stampOf = some (src.stamp i) then old else (src.make i).or old

def find (items : List ι) (k : κ) : Option ι := items.find? fun i => src.key i = k

/-- The row of one item after the other. -/
def renewAll : List ι → (κ → Option α) → κ → Option α
  | [], rows => rows
  | i :: items, rows =>
    renewAll items (Function.update rows (src.key i) (src.renew i (rows (src.key i))))

/-- Rows without an item go. -/
def refreshed (items : List ι) (rows : κ → Option α) (k : κ) : Option α :=
  (src.find items k).bind fun i => src.renew i (rows k)

def rebuilt (items : List ι) (k : κ) : Option α := (src.find items k).bind src.make

variable {src} {items seen : List ι} {rows : κ → Option α} {i : ι} {k : κ} {r : α}

omit [DecidableEq μ] in
theorem find_eq_some (h : src.find items k = some i) : i ∈ items ∧ src.key i = k :=
  ⟨List.mem_of_find?_eq_some h, by simpa using List.find?_some h⟩

omit [DecidableEq μ] in
theorem find_of_mem (hnodup : (items.map src.key).Nodup) (hi : i ∈ items) :
    src.find items (src.key i) = some i := Table.find?_of_mem hnodup hi

omit [DecidableEq μ] in
theorem find_eq_none (h : k ∉ items.map src.key) : src.find items k = none := by
  refine List.find?_eq_none.2 fun i hi heq => h ?_
  rw [← show src.key i = k by simpa using heq]
  exact List.mem_map_of_mem hi

omit [DecidableEq μ] in
theorem find_cons (i : ι) (items : List ι) (k : κ) :
    src.find (i :: items) k = if src.key i = k then some i else src.find items k := by
  unfold find
  split
  · rename_i hk
    rw [List.find?_cons_of_pos (by simpa using hk)]
  · rename_i hk
    rw [List.find?_cons_of_neg (by simpa using hk)]

section Renew

omit [DecidableEq κ]

theorem renew_of_make_none (old : Option α) (h : src.make i = none) : src.renew i old = old := by
  simp [renew, h]

theorem renew_of_make {old : Option α} (hstamp : old.bind src.stampOf ≠ some (src.stamp i))
    (h : src.make i = some r) : src.renew i old = some r := by
  simp [renew, hstamp, h]

theorem renew_none (i : ι) : src.renew i none = src.make i := by simp [renew]

end Renew

omit [DecidableEq κ] in
theorem make_of_renew {old : Option α} (h : src.renew i old = some r) :
    old = some r ∨ src.make i = some r := by
  unfold renew at h
  split at h
  · exact .inl h
  · exact (Option.or_eq_some_iff.1 h).symm.imp_left And.right

omit [DecidableEq κ] in
/-- The row of an item that can be made one has its stamp. -/
theorem stampOf_renew {old : Option α} (h : src.renew i old = some r) (hmake : (src.make i).isSome) :
    src.stampOf r = some (src.stamp i) := by
  obtain ⟨r', hr'⟩ := Option.isSome_iff_exists.1 hmake
  unfold renew at h
  split at h
  · rename_i hstamp
    rw [h] at hstamp
    exact hstamp
  · rw [hr'] at h
    cases h
    exact src.stampOf_make i _ hr'

omit [DecidableEq κ] in
theorem isSome_renew (old : Option α) (h : (src.make i).isSome) : (src.renew i old).isSome := by
  unfold renew
  split
  · rename_i hstamp
    cases old with
    | none => cases hstamp
    | some r => rfl
  · simp [h]

theorem isSome_refreshed (hnodup : (items.map src.key).Nodup) (hi : i ∈ items)
    (h : (src.make i).isSome) : (src.refreshed items rows (src.key i)).isSome := by
  rw [refreshed, find_of_mem hnodup hi, Option.bind_some]
  exact isSome_renew _ h

theorem Made.renew (hmade : src.Made seen rows) (hi : i ∈ seen) :
    src.Made seen (Function.update rows (src.key i) (src.renew i (rows (src.key i)))) := by
  intro k r h
  rw [Function.update_apply] at h
  split at h
  · rename_i hk
    rcases make_of_renew h with hold | hmake
    · exact hk ▸ hmade _ r hold
    · exact ⟨i, hi, hk.symm, hmake⟩
  · exact hmade k r h

/-- Each item is renewed once. -/
theorem renewAll_apply (hnodup : (items.map src.key).Nodup) (k : κ) :
    src.renewAll items rows k =
      (src.find items k).elim (rows k) fun i => src.renew i (rows k) := by
  induction items generalizing rows with
  | nil => rfl
  | cons i items ih =>
    obtain ⟨hnot, hnodup⟩ := List.nodup_cons.1 hnodup
    rw [renewAll, ih hnodup, find_cons]
    split
    · rename_i hk
      rw [← hk, find_eq_none hnot, Option.elim_none, Function.update_self, Option.elim_some]
    · rename_i hk
      rw [Function.update_of_ne fun h => hk h.symm]

/-- A pass, and then no rows without an item. -/
theorem refreshed_eq_renewAll (hnodup : (items.map src.key).Nodup) (k : κ) :
    (if k ∈ items.map src.key then src.renewAll items rows k else none) =
      src.refreshed items rows k := by
  rw [renewAll_apply hnodup, refreshed]
  split
  · rename_i hk
    obtain ⟨i, hi, rfl⟩ := List.mem_map.1 hk
    rw [find_of_mem hnodup hi, Option.elim_some, Option.bind_some]
  · rename_i hk
    rw [find_eq_none hk, Option.bind_none]

/-- From no rows a pass builds them all. -/
theorem refreshed_none (items : List ι) : src.refreshed items (fun _ => none) = src.rebuilt items := by
  funext k
  simp only [refreshed, rebuilt, renew_none]

omit [DecidableEq κ] in
/-- A row is renewed to what its item makes exactly if the item makes something. -/
theorem renew_eq_make_iff (htells : src.Tells seen) (hmade : src.Made seen rows) (hi : i ∈ seen) :
    src.renew i (rows (src.key i)) = src.make i ↔
      ((rows (src.key i)).isSome → (src.make i).isSome) := by
  cases hrow : rows (src.key i) with
  | none => simp [renew_none]
  | some r =>
    obtain ⟨j, hj, hkey, hmake⟩ := hmade _ _ hrow
    unfold renew
    split
    · rename_i hstamp
      rw [Option.bind_some, src.stampOf_make j r hmake] at hstamp
      have hsame := htells i hi j hj hkey.symm (Option.some.inj hstamp).symm
      simp [hsame, hmake]
    · cases src.make i <;> simp

/-- A pass leaves the rows of a rebuild exactly if each item with a row can still be made one of. -/
theorem refreshed_eq_rebuilt_iff (htells : src.Tells seen) (hmade : src.Made seen rows)
    (hseen : items ⊆ seen) (hnodup : (items.map src.key).Nodup) :
    src.refreshed items rows = src.rebuilt items ↔
      ∀ i ∈ items, (rows (src.key i)).isSome → (src.make i).isSome := by
  constructor
  · intro h i hi
    have hat := congrFun h (src.key i)
    rw [refreshed, rebuilt, find_of_mem hnodup hi] at hat
    exact (renew_eq_make_iff htells hmade (hseen hi)).1 hat
  · intro h
    funext k
    unfold refreshed rebuilt
    cases hfind : src.find items k with
    | none => rfl
    | some i =>
      obtain ⟨hi, rfl⟩ := find_eq_some hfind
      exact (renew_eq_make_iff htells hmade (hseen hi)).2 (h i hi)

end Pass

end Source

end Keyed
