import Mathlib.Data.List.Sort
import Mathlib.Data.List.Nodup
import Mathlib.Data.List.Range
import Kanade.Keyed.Table

/-!
# Keyed.Ordered

Lists kept in a table: the key of a row is its group and its position in the group.

* `Table.ordered`: the rows of a group by position.
* `Table.Numbered`: the rows of a group hold a list, and are numbered from 0 without gaps. The
  property speaks of lookups only, so operations on the table are specified by what they do to
  lookups; `Numbered.ordered_map` and `Numbered.positions` go back to the rows in order.
* `downAfter`: the change of keys that closes the gap a deleted row leaves. `Numbered.erase` says
  that deleting and closing erases an entry.
-/

namespace Keyed

variable {γ α β : Type} [DecidableEq γ] {key : α → γ × Int}

/-- Down by one, for the keys of the group behind position `p`. -/
def downAfter (g : γ) (p : Int) (k : γ × Int) : γ × Int :=
  if k.1 = g ∧ p < k.2 then (k.1, k.2 - 1) else k

/-- The key that goes to `k`. -/
def upFrom (g : γ) (p : Int) (k : γ × Int) : γ × Int :=
  if k.1 = g ∧ p ≤ k.2 then (k.1, k.2 + 1) else k

theorem downAfter_eq_iff {g : γ} {p : Int} {k k' : γ × Int} (hk : k ≠ (g, p)) :
    downAfter g p k = k' ↔ k = upFrom g p k' := by
  obtain ⟨h, i⟩ := k
  obtain ⟨h', i'⟩ := k'
  have hne : h = g → i ≠ p := fun hg hi => hk (by rw [hg, hi])
  simp only [downAfter, upFrom]
  by_cases hg : h = g
  · have := hne hg
    split <;> split <;> simp only [Prod.mk.injEq] <;> grind
  · split <;> split <;> simp only [Prod.mk.injEq] <;> grind

namespace Table

/-- The rows of a group, by position. -/
def ordered (t : Table key) (g : γ) : List α :=
  (t.rows.filter fun r => (key r).1 = g).insertionSort fun r r' => (key r).2 ≤ (key r').2

/-- Position `i` of the group has entry `i` of the list, and there are no other rows. -/
def Numbered (val : α → β) (t : Table key) (g : γ) (l : List β) : Prop :=
  ∀ i : Int, (t.get (g, i)).map val = if 0 ≤ i then l[i.toNat]? else none

variable {t : Table key} {g : γ} {val : α → β} {l : List β} {r : α}

theorem mem_ordered : r ∈ t.ordered g ↔ r ∈ t.rows ∧ (key r).1 = g := by
  simp [ordered]

theorem get_of_mem_ordered (h : r ∈ t.ordered g) : t.get (g, (key r).2) = some r := by
  obtain ⟨hr, rfl⟩ := mem_ordered.1 h
  exact mem_rows_iff.1 hr

theorem pairwise_ordered (t : Table key) (g : γ) :
    ((t.ordered g).map fun r => (key r).2).Pairwise (· ≤ ·) := by
  rw [List.pairwise_map]
  have : Std.Total fun r r' : α => (key r).2 ≤ (key r').2 := ⟨fun r r' => le_total _ _⟩
  have : IsTrans α fun r r' => (key r).2 ≤ (key r').2 := ⟨fun _ _ _ h h' => le_trans h h'⟩
  exact List.pairwise_insertionSort _ _

theorem nodup_ordered (t : Table key) (g : γ) :
    ((t.ordered g).map fun r => (key r).2).Nodup := by
  have hperm : ((t.ordered g).map key).Perm
      ((t.rows.filter fun r => (key r).1 = g).map key) := (List.perm_insertionSort _ _).map key
  have hnodup : ((t.ordered g).map key).Nodup :=
    hperm.nodup_iff.2 ((List.filter_sublist.map key).nodup t.nodup)
  have hpos : (t.ordered g).map (fun r => (key r).2) = ((t.ordered g).map key).map Prod.snd := by
    rw [List.map_map]
    rfl
  rw [hpos]
  refine hnodup.map_on ?_
  intro k hk k' hk' hsnd
  obtain ⟨r, hr, rfl⟩ := List.mem_map.1 hk
  obtain ⟨r', hr', rfl⟩ := List.mem_map.1 hk'
  exact Prod.ext ((mem_ordered.1 hr).2.trans (mem_ordered.1 hr').2.symm) hsnd

namespace Numbered

theorem get_lt (h : Numbered val t g l) {i : Nat} (hi : i < l.length) :
    ∃ r, t.get (g, i) = some r ∧ val r = l[i] := by
  have hget := h i
  simp only [Int.natCast_nonneg, if_true, Int.toNat_natCast, List.getElem?_eq_getElem hi] at hget
  exact Option.map_eq_some_iff.1 hget

theorem of_get (h : Numbered val t g l) {i : Int} (hr : t.get (g, i) = some r) :
    0 ≤ i ∧ l[i.toNat]? = some (val r) := by
  have hget := h i
  rw [hr] at hget
  by_cases hi : 0 ≤ i
  · rw [if_pos hi] at hget
    exact ⟨hi, hget.symm⟩
  · rw [if_neg hi] at hget
    cases hget

/-- The positions are the numbers from 0 on. -/
theorem positions (h : Numbered val t g l) :
    (t.ordered g).map (fun r => (key r).2) = (List.range l.length).map Int.ofNat := by
  have hnodup : ((List.range l.length).map Int.ofNat).Nodup :=
    List.nodup_range.map fun _ _ h => Int.ofNat.inj h
  have hperm : ((t.ordered g).map fun r => (key r).2).Perm ((List.range l.length).map Int.ofNat) := by
    refine (List.perm_ext_iff_of_nodup (nodup_ordered t g) hnodup).2 fun i => ?_
    simp only [List.mem_map, List.mem_range]
    constructor
    · rintro ⟨r, hr, rfl⟩
      obtain ⟨hpos, hval⟩ := h.of_get (get_of_mem_ordered hr)
      exact ⟨(key r).2.toNat, (List.getElem?_eq_some_iff.1 hval).1, Int.toNat_of_nonneg hpos⟩
    · rintro ⟨n, hn, rfl⟩
      obtain ⟨r, hr, -⟩ := h.get_lt hn
      obtain ⟨hmem, hkey⟩ := get_eq_some_iff.1 hr
      exact ⟨r, mem_ordered.2 ⟨hmem, by rw [hkey]⟩, by rw [hkey]; rfl⟩
  refine hperm.eq_of_pairwise' (pairwise_ordered t g) ?_
  rw [List.pairwise_map]
  exact List.pairwise_lt_range.imp fun h => Int.ofNat_le.2 h.le

/-- Read by position, the group is the list. -/
theorem ordered_map (h : Numbered val t g l) : (t.ordered g).map val = l := by
  have hlen : (t.ordered g).length = l.length := by
    simpa using congrArg List.length h.positions
  refine List.ext_getElem? fun n => ?_
  by_cases hn : n < l.length
  · have hn' : n < (t.ordered g).length := hlen ▸ hn
    have hpos : (key (t.ordered g)[n]).2 = n := by
      have := congrArg (fun ps : List Int => ps[n]?) h.positions
      simpa [hn, hn'] using this
    have hget := get_of_mem_ordered (List.getElem_mem hn')
    rw [hpos] at hget
    obtain ⟨-, hval⟩ := h.of_get hget
    rw [List.getElem?_map, List.getElem?_eq_getElem hn', Option.map_some, ← hval, Int.toNat_natCast]
  · rw [List.getElem?_eq_none (by simpa [hlen] using hn), List.getElem?_eq_none (not_lt.1 hn)]

/-- Rows of other groups do not matter. -/
theorem congr {t' : Table key} (h : Numbered val t g l) (hget : ∀ i, t'.get (g, i) = t.get (g, i)) :
    Numbered val t' g l := by
  intro i
  rw [hget]
  exact h i

theorem nil_of_get (hget : ∀ i, t.get (g, i) = none) : Numbered val t g [] := by
  intro i
  rw [hget]
  simp

/-- A row added after the last one. -/
theorem concat (h : Numbered val t g l) {new : α} (hnew : key new ∉ t.rows.map key)
    (hkey : key new = (g, (l.length : Int))) : Numbered val (t.insert new hnew) g (l ++ [val new]) := by
  intro i
  rw [get_insert, hkey]
  by_cases hi : i = l.length
  · subst hi
    simp
  · have hne : ¬ ((g, i) = (g, (l.length : Int))) := by simpa using hi
    rw [if_neg hne, h i]
    by_cases hpos : 0 ≤ i
    · rw [if_pos hpos, if_pos hpos]
      by_cases hlt : i.toNat < l.length
      · rw [List.getElem?_append_left hlt]
      · rw [List.getElem?_eq_none (not_lt.1 hlt), List.getElem?_eq_none (by simp; omega)]
    · rw [if_neg hpos, if_neg hpos]

theorem length_le (h : Numbered val t g l) : l.length ≤ t.rows.length := by
  rw [← h.ordered_map, List.length_map, ordered, List.length_insertionSort]
  exact List.length_filter_le _ _

/-- The rows of the group and the others. -/
theorem length_restrict (h : Numbered val t g l) :
    (t.restrict fun k => k.1 ≠ g).rows.length + l.length = t.rows.length := by
  have hl : l.length = (t.rows.filter fun r => (key r).1 = g).length := by
    rw [← h.ordered_map, List.length_map, ordered, List.length_insertionSort]
  have hsplit := List.length_eq_length_filter_add (l := t.rows) fun r => decide ((key r).1 = g)
  rw [hl, hsplit, Nat.add_comm]
  simp [restrict]

end Numbered

/-! ## Closing a gap -/

variable {p : Int} {change : α → α}

theorem nodup_closed (hkey : ∀ r, key (change r) = downAfter g p (key r))
    (hfree : t.get (g, p) = none) : ((t.rows.map change).map key).Nodup := by
  have hne : ∀ r ∈ t.rows, key r ≠ (g, p) := fun r hr heq =>
    get_eq_none_iff.1 hfree (heq ▸ List.mem_map_of_mem hr)
  rw [List.map_map]
  refine (List.nodup_map_iff_inj_on (List.Nodup.of_map _ t.nodup)).2 fun r hr r' hr' heq => ?_
  have hdown : downAfter g p (key r) = downAfter g p (key r') := by
    rw [← hkey, ← hkey]
    exact heq
  have hkeys : key r = key r' := by
    rw [downAfter_eq_iff (hne r hr)] at hdown
    rw [hdown, ← (downAfter_eq_iff (hne r' hr')).1 rfl]
  exact List.inj_on_of_nodup_map t.nodup hr hr' hkeys

theorem get_closed (hkey : ∀ r, key (change r) = downAfter g p (key r))
    (hfree : t.get (g, p) = none) {h : ((t.rows.map change).map key).Nodup} (k : γ × Int) :
    (t.update change h).get k = (t.get (upFrom g p k)).map change := by
  have hne : ∀ r ∈ t.rows, key r ≠ (g, p) := fun r hr heq =>
    get_eq_none_iff.1 hfree (heq ▸ List.mem_map_of_mem hr)
  ext r
  rw [get_update_eq_some_iff, Option.map_eq_some_iff]
  constructor
  · rintro ⟨r', hr', rfl, hk⟩
    rw [hkey, downAfter_eq_iff (hne r' hr')] at hk
    exact ⟨r', get_eq_some_iff.2 ⟨hr', hk⟩, rfl⟩
  · rintro ⟨r', hr', rfl⟩
    obtain ⟨hmem, hk⟩ := get_eq_some_iff.1 hr'
    exact ⟨r', hmem, rfl, by rw [hkey, downAfter_eq_iff (hne r' hmem), hk]⟩

/-- Deleting a row and closing the gap erases the entry. -/
theorem Numbered.erase (h : Numbered val t g l) {n : Nat}
    (hkey : ∀ r, key (change r) = downAfter g n (key r)) (hval : ∀ r, val (change r) = val r)
    {hnodup : (((t.restrict fun k => k ≠ (g, (n : Int))).rows.map change).map key).Nodup} :
    Numbered val ((t.restrict fun k => k ≠ (g, (n : Int))).update change hnodup) g (l.eraseIdx n) := by
  have hfree : (t.restrict fun k => k ≠ (g, (n : Int))).get (g, n) = none := by
    simp [get_restrict]
  intro i
  have hmap : (Option.map val) ∘ (Option.map change) = Option.map (α := α) val := by
    funext o
    cases o with
    | none => rfl
    | some r => exact congrArg some (hval r)
  rw [get_closed hkey hfree, show ∀ o : Option α, (o.map change).map val = o.map val from
    congrFun hmap, get_restrict, List.getElem?_eraseIdx]
  by_cases hi : (n : Int) ≤ i
  · have hup : upFrom g n (g, i) = (g, i + 1) := if_pos ⟨rfl, hi⟩
    have hne : (decide ((g, i + 1) ≠ (g, (n : Int)))) = true := by
      simp only [ne_eq, Prod.mk.injEq, true_and, decide_eq_true_eq]
      omega
    rw [hup, if_pos hne, h (i + 1), if_pos (by omega), if_pos (by omega), if_neg (by omega)]
    congr 1
    omega
  · have hup : upFrom g n (g, i) = (g, i) := if_neg fun h => hi h.2
    have hne : (decide ((g, i) ≠ (g, (n : Int)))) = true := by
      simp only [ne_eq, Prod.mk.injEq, true_and, decide_eq_true_eq]
      omega
    rw [hup, if_pos hne, h i]
    split
    · rw [if_pos (by omega)]
    · rfl

end Table

end Keyed
