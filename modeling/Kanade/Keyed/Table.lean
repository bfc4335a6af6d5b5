import Mathlib.Data.List.Nodup

/-!
# Keyed.Table

Tables with a primary key, as lists of rows whose keys are pairwise different.

* `Table.upsert`: insert a row, or change the row that has its key already.
* `Table.insert`: insert a row with a key that is not there.
* `Table.restrict`: delete the rows whose key is not wanted.
* `Table.modify`: change the row with a key.
* `Table.update`: change rows, keys included.
* `Table.get`: the row with a key. The operations are specified by what they do to `get`, and
  `Table.mem_rows_iff` goes back from `get` to the rows.
-/

namespace Keyed

variable {κ α : Type}

/-- Rows with pairwise different keys. -/
structure Table (key : α → κ) where
  rows : List α
  nodup : (rows.map key).Nodup

variable [DecidableEq κ] {key : α → κ}

/-- The row with the key of `new` becomes `merge` of itself; if there is none, `new` is added. -/
def upsertRows (key : α → κ) (new : α) (merge : α → α) : List α → List α
  | [] => [new]
  | r :: rs => if key r = key new then merge r :: rs else r :: upsertRows key new merge rs

theorem map_key_upsertRows {new : α} {merge : α → α} (hmerge : ∀ r, key (merge r) = key r)
    (rs : List α) :
    (upsertRows key new merge rs).map key =
      if key new ∈ rs.map key then rs.map key else rs.map key ++ [key new] := by
  induction rs with
  | nil => simp [upsertRows]
  | cons r rs ih =>
    by_cases hr : key r = key new
    · simp [upsertRows, hr, hmerge]
    · have hne : ¬ key new = key r := fun h => hr h.symm
      rw [upsertRows, if_neg hr, List.map_cons, ih, List.map_cons]
      by_cases hmem : key new ∈ rs.map key
      · rw [if_pos hmem, if_pos (List.mem_cons_of_mem _ hmem)]
      · rw [if_neg hmem, if_neg (by simpa [hne] using hmem), List.cons_append]

theorem nodup_upsertRows {new : α} {merge : α → α} (hmerge : ∀ r, key (merge r) = key r)
    {rs : List α} (h : (rs.map key).Nodup) : ((upsertRows key new merge rs).map key).Nodup := by
  rw [map_key_upsertRows hmerge]
  split
  · exact h
  · rename_i hmem
    refine List.Nodup.append h (List.nodup_singleton _) ?_
    exact List.disjoint_singleton.2 hmem

theorem mem_upsertRows {new r : α} {merge : α → α} {rs : List α} (h : r ∈ upsertRows key new merge rs) :
    r = new ∨ r ∈ rs ∨ ∃ r' ∈ rs, r = merge r' := by
  induction rs with
  | nil =>
    left
    simpa [upsertRows] using h
  | cons r' rs ih =>
    rw [upsertRows] at h
    split at h
    · rcases List.mem_cons.1 h with h | h
      · exact .inr (.inr ⟨r', by simp, h⟩)
      · exact .inr (.inl (List.mem_cons_of_mem _ h))
    · rcases List.mem_cons.1 h with h | h
      · exact .inr (.inl (by simp [h]))
      · obtain h | h | ⟨r'', hr'', h⟩ := ih h
        · exact .inl h
        · exact .inr (.inl (List.mem_cons_of_mem _ h))
        · exact .inr (.inr ⟨r'', List.mem_cons_of_mem _ hr'', h⟩)

/-- Another column stays without duplicates when no other row has what `new` has there, and the row
that is changed takes that. -/
theorem nodup_map_upsertRows {β : Type} {g : α → β} {new : α} {merge : α → α}
    (hmerge : ∀ r, g (merge r) = g new) {rs : List α} (h : (rs.map g).Nodup)
    (hkeys : (rs.map key).Nodup) (hnew : ∀ r ∈ rs, g r = g new → key r = key new) :
    ((upsertRows key new merge rs).map g).Nodup := by
  induction rs with
  | nil => simp [upsertRows]
  | cons r rs ih =>
    obtain ⟨hr, hrs⟩ := List.nodup_cons.1 h
    obtain ⟨hkey, hkeys⟩ := List.nodup_cons.1 hkeys
    rw [upsertRows]
    split
    · rename_i heq
      refine List.nodup_cons.2 ⟨?_, hrs⟩
      rw [hmerge]
      intro hmem
      obtain ⟨r', hr', hg⟩ := List.mem_map.1 hmem
      rw [heq, ← hnew r' (List.mem_cons_of_mem _ hr') hg] at hkey
      exact hkey (List.mem_map_of_mem hr')
    · rename_i hne
      refine List.nodup_cons.2 ⟨?_, ih hrs hkeys fun r' hr' => hnew r' (List.mem_cons_of_mem _ hr')⟩
      intro hmem
      obtain ⟨r', hr', hg⟩ := List.mem_map.1 hmem
      obtain rfl | hr' | ⟨r'', -, rfl⟩ := mem_upsertRows hr'
      · exact hne (hnew r (by simp) hg.symm)
      · exact hr (hg ▸ List.mem_map_of_mem hr')
      · rw [hmerge] at hg
        exact hne (hnew r (by simp) hg.symm)

namespace Table

/-- The table without rows. -/
def empty (key : α → κ) : Table key := ⟨[], List.nodup_nil⟩

/-- `INSERT .. ON CONFLICT .. DO UPDATE`. -/
def upsert (t : Table key) (new : α) (merge : α → α) (hmerge : ∀ r, key (merge r) = key r) :
    Table key :=
  ⟨upsertRows key new merge t.rows, nodup_upsertRows hmerge t.nodup⟩

/-- `INSERT` of a row with a new key. -/
def insert (t : Table key) (new : α) (h : key new ∉ t.rows.map key) : Table key where
  rows := t.rows ++ [new]
  nodup := by
    rw [List.map_append]
    exact List.Nodup.append t.nodup (List.nodup_singleton _) (List.disjoint_singleton.2 h)

/-- `UPDATE` of the row with a key, which it keeps. -/
def modify (t : Table key) (k : κ) (f : α → α) (hf : ∀ r, key (f r) = key r) : Table key where
  rows := t.rows.map fun r => if key r = k then f r else r
  nodup := by
    have hkeys : (t.rows.map fun r => if key r = k then f r else r).map key = t.rows.map key := by
      rw [List.map_map]
      refine List.map_congr_left fun r _ => ?_
      show key (if key r = k then f r else r) = key r
      split
      · exact hf r
      · rfl
    rw [hkeys]
    exact t.nodup

/-- `UPDATE`: every row becomes `change` of itself, if that keeps the keys different. -/
def update (t : Table key) (change : α → α) (h : ((t.rows.map change).map key).Nodup) :
    Table key :=
  ⟨t.rows.map change, h⟩

/-- `DELETE` of the rows whose key is not among those to keep. -/
def restrict (t : Table key) (keep : κ → Bool) : Table key :=
  ⟨t.rows.filter fun r => keep (key r),
    (List.filter_sublist.map key).nodup t.nodup⟩

def get (t : Table key) (k : κ) : Option α := t.rows.find? fun r => key r = k

variable {t : Table key} {k : κ} {r new : α} {merge : α → α}
  {hmerge : ∀ r, key (merge r) = key r}

theorem key_of_get (h : t.get k = some r) : key r = k := by simpa using List.find?_some h

theorem mem_of_get (h : t.get k = some r) : r ∈ t.rows := List.mem_of_find?_eq_some h

theorem find?_of_mem {rs : List α} (hnodup : (rs.map key).Nodup) (hr : r ∈ rs) :
    (rs.find? fun r' => key r' = key r) = some r := by
  induction rs with
  | nil => cases hr
  | cons r' rs ih =>
    obtain ⟨hnot, hnodup⟩ := List.nodup_cons.1 hnodup
    obtain rfl | hr := List.mem_cons.1 hr
    · simp
    · have hne : ¬ key r' = key r := fun h => hnot (h ▸ List.mem_map_of_mem hr)
      rw [List.find?_cons_of_neg (by simpa using hne), ih hnodup hr]

theorem mem_rows_iff : r ∈ t.rows ↔ t.get (key r) = some r :=
  ⟨find?_of_mem t.nodup, mem_of_get⟩

theorem get_eq_some_iff : t.get k = some r ↔ r ∈ t.rows ∧ key r = k := by
  constructor
  · intro h
    exact ⟨mem_of_get h, key_of_get h⟩
  · rintro ⟨hr, rfl⟩
    exact mem_rows_iff.1 hr

theorem get_eq_none_iff : t.get k = none ↔ k ∉ t.rows.map key := by
  simp [get, List.find?_eq_none]

/-- Two tables with the same rows, in whatever order. -/
theorem rows_iff_get {t' : Table key} : (∀ r, r ∈ t.rows ↔ r ∈ t'.rows) ↔ t.get = t'.get := by
  constructor
  · intro h
    funext k
    apply Option.ext
    intro r
    rw [get_eq_some_iff, get_eq_some_iff, h]
  · intro h r
    rw [mem_rows_iff, mem_rows_iff, h]

theorem get_insert {h : key new ∉ t.rows.map key} :
    (t.insert new h).get k = if k = key new then some new else t.get k := by
  unfold get insert
  rw [List.find?_append]
  by_cases hk : k = key new
  · have hnone : (t.rows.find? fun r => key r = k) = none := get_eq_none_iff.2 (hk ▸ h)
    rw [hnone, if_pos hk]
    simp [hk]
  · have hne : ¬ key new = k := fun h => hk h.symm
    rw [if_neg hk]
    simp [hne]

theorem find?_modify {k' : κ} {f : α → α} (hf : ∀ r, key (f r) = key r) (rs : List α) :
    ((rs.map fun r => if key r = k' then f r else r).find? fun r => key r = k) =
      if k = k' then (rs.find? fun r => key r = k).map f else rs.find? fun r => key r = k := by
  induction rs with
  | nil => simp
  | cons r rs ih =>
    rw [List.map_cons]
    by_cases hk : key r = k
    · by_cases hkk : k = k'
      · simp [hf, hk, hkk]
      · simp [hk, hkk]
    · have hchanged : ¬ key (if key r = k' then f r else r) = k := by
        split
        · rwa [hf]
        · exact hk
      rw [List.find?_cons_of_neg (by simpa using hchanged), ih,
        List.find?_cons_of_neg (by simpa using hk)]

theorem get_modify {k' : κ} {f : α → α} {hf : ∀ r, key (f r) = key r} :
    (t.modify k' f hf).get k = if k = k' then (t.get k).map f else t.get k :=
  find?_modify hf t.rows

/-- The rows after an update, from those before it. -/
theorem get_update_eq_some_iff {change : α → α} {h : ((t.rows.map change).map key).Nodup} :
    (t.update change h).get k = some r ↔ ∃ r' ∈ t.rows, change r' = r ∧ key r = k := by
  rw [get_eq_some_iff]
  simp only [update, List.mem_map]
  constructor
  · rintro ⟨⟨r', hr', hchange⟩, hkey⟩
    exact ⟨r', hr', hchange, hkey⟩
  · rintro ⟨r', hr', hchange, hkey⟩
    exact ⟨⟨r', hr', hchange⟩, hkey⟩

theorem find?_upsertRows_of_ne (hmerge : ∀ r, key (merge r) = key r) (hk : k ≠ key new)
    (rs : List α) :
    ((upsertRows key new merge rs).find? fun r => key r = k) = rs.find? fun r => key r = k := by
  induction rs with
  | nil => simp [upsertRows, hk.symm]
  | cons r rs ih =>
    by_cases hr : key r = key new
    · simp [upsertRows, hr, hmerge, hk.symm]
    · rw [upsertRows, if_neg hr, List.find?_cons, List.find?_cons, ih]

theorem find?_upsertRows_self (hmerge : ∀ r, key (merge r) = key r) (rs : List α) :
    ((upsertRows key new merge rs).find? fun r => key r = key new) =
      some ((rs.find? fun r => key r = key new).elim new merge) := by
  induction rs with
  | nil => simp [upsertRows]
  | cons r rs ih =>
    by_cases hr : key r = key new
    · simp [upsertRows, hr, hmerge]
    · rw [upsertRows, if_neg hr, List.find?_cons_of_neg (by simpa using hr), ih,
        List.find?_cons_of_neg (by simpa using hr)]

theorem get_upsert :
    (t.upsert new merge hmerge).get k =
      if k = key new then some ((t.get k).elim new merge) else t.get k := by
  by_cases hk : k = key new
  · rw [if_pos hk, hk]
    exact find?_upsertRows_self hmerge t.rows
  · rw [if_neg hk]
    exact find?_upsertRows_of_ne hmerge hk t.rows

theorem mem_keys_upsert (h : k ∈ t.rows.map key) : k ∈ (t.upsert new merge hmerge).rows.map key := by
  rw [upsert, map_key_upsertRows hmerge]
  split
  · exact h
  · exact List.mem_append_left _ h

theorem find?_filter_key (keep : κ → Bool) (rs : List α) :
    ((rs.filter fun r => keep (key r)).find? fun r => key r = k) =
      if keep k then rs.find? fun r => key r = k else none := by
  induction rs with
  | nil => simp
  | cons r rs ih =>
    by_cases hr : key r = k
    · by_cases hkeep : keep k = true
      · simp [hr, hkeep]
      · simp only [hkeep] at ih ⊢
        simpa [hr, hkeep] using ih
    · by_cases hkeep : keep (key r) = true
      · simpa [hkeep, hr] using ih
      · simpa [hkeep, hr] using ih

theorem get_restrict (keep : κ → Bool) :
    (t.restrict keep).get k = if keep k then t.get k else none :=
  find?_filter_key keep t.rows

theorem get_of_restrict {keep : κ → Bool} (h : (t.restrict keep).get k = some r) :
    t.get k = some r := by
  rw [get_restrict] at h
  split at h
  · exact h
  · cases h

end Table

end Keyed
