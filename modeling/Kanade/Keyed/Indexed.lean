import Mathlib.Data.List.Nodup
import Mathlib.Data.List.Perm.Basic
import Mathlib.Logic.Function.Basic
import Kanade.Keyed.Table

/-!
# Keyed.Indexed

A table that triggers keep beside another one: a row in it for each row there, under the same rowid.

* `Indexed.inserted`, `Indexed.updated`, `Indexed.deleted`: what the triggers do. A row is not written over another.
* `InSync`: the index says of each key what is to be said of it, once.
* `InSync.inserted`, `InSync.updated`, `InSync.deleted`: the triggers succeed and keep it.
* `InSync.perm`: the index as a list.
-/

namespace Keyed

variable {κ α β : Type} [DecidableEq κ]

/-- The rowids of the keys, and the index by rowids. -/
structure Indexed (κ β : Type) where
  rowids : Table (Prod.fst : κ × Nat → κ)
  index : Table (Prod.fst : Nat × β → Nat)

namespace Indexed

def empty (κ β : Type) : Indexed κ β := ⟨Table.empty _, Table.empty _⟩

def rowid (ix : Indexed κ β) (k : κ) : Option Nat := (ix.rowids.get k).map Prod.snd

def entry (ix : Indexed κ β) (n : Nat) : Option β := (ix.index.get n).map Prod.snd

/-- One more than the largest. -/
def nextRowid (ix : Indexed κ β) : Nat := (ix.rowids.rows.map Prod.snd).foldr max 0 + 1

/-- `INSERT INTO` the index, which fails if the rowid is there. -/
def write (n : Nat) (b : β) (ix : Indexed κ β) : Option (Indexed κ β) :=
  if h : n ∈ ix.index.rows.map Prod.fst then none else some { ix with index := ix.index.insert (n, b) h }

/-- `DELETE FROM` the index. -/
def erase (n : Nat) (ix : Indexed κ β) : Indexed κ β :=
  { ix with index := ix.index.restrict fun n' => decide (n' ≠ n) }

/-- A row with a new key has been inserted. -/
def inserted (k : κ) (b : β) (ix : Indexed κ β) : Option (Indexed κ β) :=
  { ix with rowids := ix.rowids.upsert (k, ix.nextRowid) id fun _ => rfl }.write ix.nextRowid b

/-- The row with the key has been updated, and keeps its rowid. -/
def updated (k : κ) (b : β) (ix : Indexed κ β) : Option (Indexed κ β) :=
  match ix.rowid k with
  | some n => (ix.erase n).write n b
  | none => some ix

/-- The rows whose keys are not to be kept have been deleted. -/
def deleted (keep : κ → Bool) (ix : Indexed κ β) : Indexed κ β :=
  ((ix.rowids.rows.filter fun r => !keep r.1).map Prod.snd).foldl (fun ix n => ix.erase n)
    { ix with rowids := ix.rowids.restrict keep }

variable {ix : Indexed κ β} {k : κ} {b : β} {n : Nat}

omit [DecidableEq κ] in
theorem entry_write {ix' : Indexed κ β} (h : ix.write n b = some ix') (m : Nat) :
    ix'.entry m = (if m = n then some b else ix.entry m) ∧ ix'.rowids = ix.rowids := by
  unfold write at h
  split at h
  · cases h
  · cases h
    refine ⟨?_, rfl⟩
    unfold entry
    dsimp only
    rw [Table.get_insert]
    split <;> rfl

omit [DecidableEq κ] in
theorem write_of_entry (h : ix.entry n = none) : ∃ ix', ix.write n b = some ix' := by
  unfold write
  split
  · rename_i hmem
    unfold entry at h
    rw [Option.map_eq_none_iff, Table.get_eq_none_iff] at h
    exact absurd hmem h
  · exact ⟨_, rfl⟩

omit [DecidableEq κ] in
theorem entry_erase (m : Nat) : (ix.erase n).entry m = if m = n then none else ix.entry m := by
  unfold entry erase
  dsimp only
  rw [Table.get_restrict]
  by_cases hm : m = n
  · simp [hm]
  · simp [hm]

omit [DecidableEq κ] in
theorem foldl_erase (ix : Indexed κ β) (ns : List Nat) (m : Nat) :
    (ns.foldl (fun ix n => ix.erase n) ix).entry m = (if m ∈ ns then none else ix.entry m) ∧
      (ns.foldl (fun ix n => ix.erase n) ix).rowids = ix.rowids := by
  induction ns generalizing ix with
  | nil => simp
  | cons n ns ih =>
    rw [List.foldl_cons]
    refine ⟨?_, (ih (ix.erase n)).2⟩
    rw [(ih (ix.erase n)).1, entry_erase]
    by_cases hm : m ∈ ns
    · simp [hm]
    · by_cases hn : m = n
      · simp [hn]
      · simp [hm, hn]

theorem mem_rowids_iff : (k, n) ∈ ix.rowids.rows ↔ ix.rowid k = some n := by
  rw [Table.mem_rows_iff]
  unfold rowid
  constructor
  · intro h
    rw [h]
    rfl
  · intro h
    obtain ⟨r, hr, hn⟩ := Option.map_eq_some_iff.1 h
    have hkey : r.1 = k := Table.key_of_get hr
    rw [hr, ← hkey, ← hn]

omit [DecidableEq κ] in
theorem mem_index_iff : (n, b) ∈ ix.index.rows ↔ ix.entry n = some b := by
  rw [Table.mem_rows_iff]
  unfold entry
  constructor
  · intro h
    rw [h]
    rfl
  · intro h
    obtain ⟨r, hr, hb⟩ := Option.map_eq_some_iff.1 h
    have hkey : r.1 = n := Table.key_of_get hr
    rw [hr, ← hkey, ← hb]

theorem le_max_of_mem {ns : List Nat} (h : n ∈ ns) : n ≤ ns.foldr max 0 := by
  induction ns with
  | nil => cases h
  | cons m ns ih =>
    rw [List.foldr_cons]
    rcases List.mem_cons.1 h with rfl | h
    · exact Nat.le_max_left _ _
    · exact Nat.le_trans (ih h) (Nat.le_max_right _ _)

theorem rowid_lt_next (h : ix.rowid k = some n) : n < ix.nextRowid :=
  Nat.lt_succ_of_le (le_max_of_mem (List.mem_map_of_mem (mem_rowids_iff.2 h)))

end Indexed

/-! ## In sync -/

/-- `content` is what the index is to say of each key. -/
structure InSync (content : κ → Option β) (ix : Indexed κ β) : Prop where
  keys : ∀ k, (ix.rowid k).isSome = (content k).isSome
  distinct : ∀ k k' n, ix.rowid k = some n → ix.rowid k' = some n → k = k'
  entries : ∀ n b, ix.entry n = some b ↔ ∃ k, ix.rowid k = some n ∧ content k = some b

namespace InSync

variable {content content' : κ → Option β} {ix : Indexed κ β} {k : κ} {b : β} {n : Nat}

theorem empty : InSync (fun _ : κ => none) (Indexed.empty κ β) := by
  refine ⟨fun _ => rfl, ?_, ?_⟩
  · intro k k' n h
    cases h
  · intro n b
    constructor
    · intro h
      cases h
    · rintro ⟨k, h, -⟩
      cases h

theorem congr (h : InSync content ix) (hsame : ∀ k, content' k = content k) : InSync content' ix := by
  have heq : content' = content := funext hsame
  rwa [heq]

theorem exists_rowid (h : InSync content ix) (hb : content k = some b) : ∃ n, ix.rowid k = some n := by
  have hkey := h.keys k
  rw [hb, Option.isSome_some] at hkey
  exact Option.isSome_iff_exists.1 hkey

theorem entry_eq_none (h : InSync content ix) (hn : ∀ k, ix.rowid k ≠ some n) : ix.entry n = none := by
  rw [Option.eq_none_iff_forall_ne_some]
  intro b hb
  obtain ⟨k, hk, -⟩ := (h.entries n b).1 hb
  exact hn k hk

theorem inserted (h : InSync content ix) (hk : content k = none) (b : β) :
    ∃ ix', ix.inserted k b = some ix' ∧ InSync (Function.update content k (some b)) ix' := by
  have hfree : ix.entry ix.nextRowid = none := h.entry_eq_none fun k' hk' =>
    Nat.lt_irrefl _ (Indexed.rowid_lt_next hk')
  have hnone : ix.rowid k = none := by
    have hkey := h.keys k
    rw [hk] at hkey
    exact Option.not_isSome_iff_eq_none.1 (by rw [hkey]; exact Bool.false_ne_true)
  have hget : ix.rowids.get k = none := Option.map_eq_none_iff.1 hnone
  obtain ⟨ix', hix'⟩ : ∃ ix', ix.inserted k b = some ix' := Indexed.write_of_entry (by exact hfree)
  refine ⟨ix', hix', ?_⟩
  have hwrite := Indexed.entry_write hix'
  have hrowid : ∀ k', ix'.rowid k' = if k' = k then some ix.nextRowid else ix.rowid k' := by
    intro k'
    unfold Indexed.rowid
    rw [(hwrite 0).2]
    dsimp only
    rw [Table.get_upsert]
    by_cases hk' : k' = k
    · rw [if_pos hk', if_pos hk', hk', hget]
      rfl
    · rw [if_neg hk', if_neg hk']
  refine ⟨?_, ?_, ?_⟩
  · intro k'
    rw [hrowid]
    by_cases hk' : k' = k
    · rw [if_pos hk', hk', Function.update_self]
      rfl
    · rw [if_neg hk', Function.update_of_ne hk']
      exact h.keys k'
  · intro k₁ k₂ n h₁ h₂
    rw [hrowid] at h₁ h₂
    split at h₁
    · split at h₂
      · rename_i hk₁ hk₂
        rw [hk₁, hk₂]
      · cases h₁
        exact absurd (Indexed.rowid_lt_next h₂) (Nat.lt_irrefl _)
    · split at h₂
      · cases h₂
        exact absurd (Indexed.rowid_lt_next h₁) (Nat.lt_irrefl _)
      · exact h.distinct k₁ k₂ n h₁ h₂
  · intro n b'
    rw [(hwrite n).1]
    constructor
    · intro hentry
      split at hentry
      · rename_i hn
        cases hentry
        exact ⟨k, by rw [hrowid, if_pos rfl, hn], Function.update_self _ _ _⟩
      · obtain ⟨k', hk', hb'⟩ := (h.entries n b').1 hentry
        have hne : k' ≠ k := by
          intro heq
          rw [heq, hnone] at hk'
          cases hk'
        exact ⟨k', by rw [hrowid, if_neg hne, hk'], by rw [Function.update_of_ne hne, hb']⟩
    · rintro ⟨k', hk', hb'⟩
      rw [hrowid] at hk'
      split at hk'
      · rename_i heq
        cases hk'
        rw [heq, Function.update_self] at hb'
        rw [if_pos rfl, hb']
      · rename_i hne
        rw [if_neg (Nat.ne_of_lt (Indexed.rowid_lt_next hk'))]
        rw [Function.update_of_ne hne] at hb'
        exact (h.entries n b').2 ⟨k', hk', hb'⟩

theorem updated (h : InSync content ix) (hk : (content k).isSome) (b : β) :
    ∃ ix', ix.updated k b = some ix' ∧ InSync (Function.update content k (some b)) ix' := by
  obtain ⟨b₀, hb₀⟩ := Option.isSome_iff_exists.1 hk
  obtain ⟨n, hn⟩ := h.exists_rowid hb₀
  have herased : (ix.erase n).entry n = none := (Indexed.entry_erase n).trans (if_pos rfl)
  obtain ⟨ix', hix'⟩ := Indexed.write_of_entry (b := b) herased
  refine ⟨ix', by rw [Indexed.updated, hn]; exact hix', ?_⟩
  have hwrite := Indexed.entry_write hix'
  have hrowid : ∀ k', ix'.rowid k' = ix.rowid k' := by
    intro k'
    unfold Indexed.rowid
    rw [(hwrite 0).2]
    rfl
  have hentry : ∀ m, ix'.entry m = if m = n then some b else ix.entry m := by
    intro m
    rw [(hwrite m).1, Indexed.entry_erase]
    split <;> rfl
  refine ⟨?_, ?_, ?_⟩
  · intro k'
    rw [hrowid, h.keys]
    by_cases hk' : k' = k
    · rw [hk', Function.update_self, hk]
      rfl
    · rw [Function.update_of_ne hk']
  · intro k₁ k₂ m h₁ h₂
    rw [hrowid] at h₁ h₂
    exact h.distinct k₁ k₂ m h₁ h₂
  · intro m b'
    rw [hentry]
    constructor
    · intro hb'
      split at hb'
      · rename_i hm
        cases hb'
        exact ⟨k, by rw [hrowid, hn, hm], Function.update_self _ _ _⟩
      · rename_i hm
        obtain ⟨k', hk', hc⟩ := (h.entries m b').1 hb'
        have hne : k' ≠ k := by
          intro heq
          rw [heq, hn] at hk'
          exact hm (Option.some.inj hk').symm
        exact ⟨k', by rw [hrowid, hk'], by rw [Function.update_of_ne hne, hc]⟩
    · rintro ⟨k', hk', hc⟩
      rw [hrowid] at hk'
      by_cases heq : k' = k
      · rw [heq, hn] at hk'
        rw [heq, Function.update_self] at hc
        rw [if_pos (Option.some.inj hk').symm, hc]
      · rw [Function.update_of_ne heq] at hc
        have hm : m ≠ n := fun hm => heq (h.distinct k' k n (hm ▸ hk') hn)
        rw [if_neg hm]
        exact (h.entries m b').2 ⟨k', hk', hc⟩

theorem deleted (h : InSync content ix) (keep : κ → Bool) :
    InSync (fun k => if keep k then content k else none) (ix.deleted keep) := by
  have hfold := fun m => Indexed.foldl_erase { ix with rowids := ix.rowids.restrict keep }
    ((ix.rowids.rows.filter fun r => !keep r.1).map Prod.snd) m
  have hrowid : ∀ k, (ix.deleted keep).rowid k = if keep k then ix.rowid k else none := by
    intro k
    unfold Indexed.rowid Indexed.deleted
    rw [(hfold 0).2]
    dsimp only
    rw [Table.get_restrict]
    split <;> rfl
  have hgone : ∀ m, m ∈ (ix.rowids.rows.filter fun r => !keep r.1).map Prod.snd ↔
      ∃ k, ix.rowid k = some m ∧ keep k = false := by
    intro m
    constructor
    · intro hm
      obtain ⟨⟨k, m'⟩, hr, rfl⟩ := List.mem_map.1 hm
      obtain ⟨hr, hkeep⟩ := List.mem_filter.1 hr
      exact ⟨k, Indexed.mem_rowids_iff.1 hr, by simpa using hkeep⟩
    · rintro ⟨k, hk, hkeep⟩
      exact List.mem_map.2 ⟨(k, m), List.mem_filter.2 ⟨Indexed.mem_rowids_iff.2 hk, by simp [hkeep]⟩, rfl⟩
  refine ⟨?_, ?_, ?_⟩
  · intro k
    rw [hrowid]
    split
    · exact h.keys k
    · rfl
  · intro k₁ k₂ m h₁ h₂
    rw [hrowid] at h₁ h₂
    split at h₁
    · split at h₂
      · exact h.distinct k₁ k₂ m h₁ h₂
      · cases h₂
    · cases h₁
  · intro m b'
    have hentry : (ix.deleted keep).entry m = _ := (hfold m).1
    rw [hentry]
    constructor
    · intro hb'
      split at hb'
      · cases hb'
      · rename_i hm
        obtain ⟨k, hk, hc⟩ := (h.entries m b').1 hb'
        have hkeep : keep k = true := by
          by_contra hkeep
          exact hm ((hgone m).2 ⟨k, hk, Bool.eq_false_iff.2 hkeep⟩)
        exact ⟨k, by rw [hrowid, if_pos hkeep, hk], by rw [if_pos hkeep, hc]⟩
    · rintro ⟨k, hk, hc⟩
      rw [hrowid] at hk
      split at hk
      · rename_i hkeep
        rw [if_pos hkeep] at hc
        rw [if_neg]
        · exact (h.entries m b').2 ⟨k, hk, hc⟩
        · intro hm
          obtain ⟨k', hk', hgone'⟩ := (hgone m).1 hm
          rw [h.distinct k' k m hk' hk, hkeep] at hgone'
          cases hgone'
      · cases hk

/-- The index of a table says of each row what is to be said, and nothing else. -/
theorem perm {key : α → κ} {t : Table key} {derive : α → β} (h : InSync (fun k => (t.get k).map derive) ix) :
    (ix.index.rows.map Prod.snd).Perm (t.rows.map derive) := by
  have hrowid : ∀ r ∈ t.rows, ∃ n, ix.rowid (key r) = some n := by
    intro r hr
    refine h.exists_rowid (b := derive r) ?_
    rw [Table.mem_rows_iff.1 hr]
    rfl
  have hindex : ix.index.rows.Nodup := List.Nodup.of_map Prod.fst ix.index.nodup
  have hrows : (t.rows.map fun r => ((ix.rowid (key r)).getD 0, derive r)).Nodup := by
    refine List.Nodup.map_on ?_ (List.Nodup.of_map key t.nodup)
    intro r₁ hr₁ r₂ hr₂ heq
    obtain ⟨n₁, hn₁⟩ := hrowid r₁ hr₁
    obtain ⟨n₂, hn₂⟩ := hrowid r₂ hr₂
    have hn : n₁ = n₂ := by
      have hfst := congrArg Prod.fst heq
      rw [hn₁, hn₂] at hfst
      exact hfst
    have hkey := h.distinct _ _ n₁ hn₁ (hn ▸ hn₂)
    have hget := Table.mem_rows_iff.1 hr₁
    rw [hkey, Table.mem_rows_iff.1 hr₂] at hget
    exact (Option.some.inj hget).symm
  have hperm : ix.index.rows.Perm (t.rows.map fun r => ((ix.rowid (key r)).getD 0, derive r)) := by
    rw [List.perm_ext_iff_of_nodup hindex hrows]
    rintro ⟨n, b⟩
    rw [Indexed.mem_index_iff, h.entries, List.mem_map]
    constructor
    · rintro ⟨k, hk, hb⟩
      obtain ⟨r, hr, hderive⟩ := Option.map_eq_some_iff.1 hb
      refine ⟨r, Table.mem_of_get hr, ?_⟩
      rw [Table.key_of_get hr, hk, hderive]
      rfl
    · rintro ⟨r, hr, heq⟩
      obtain ⟨n', hn'⟩ := hrowid r hr
      rw [hn'] at heq
      cases heq
      exact ⟨key r, hn', by rw [Table.mem_rows_iff.1 hr]; rfl⟩
  have hmap := hperm.map Prod.snd
  rwa [List.map_map] at hmap

end InSync

end Keyed
