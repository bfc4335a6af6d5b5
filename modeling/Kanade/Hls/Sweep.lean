import Kanade.Files.Tree
import Kanade.Greedy.Sweep
import Kanade.Hls.Alone

/-!
# Kanade.Hls.Sweep

`enforce_size_limit_blocking` alone: which entries of the cache it removes, and what of the others.

* `collected`: the entries of a tree are directories, each once.
* `shape_evictEntries`: what the loop removes is what a greedy sweep takes.
* `evicts_oldest_first`: enough, the oldest first, and none too many.
-/

namespace Kanade

open Concur Files CacheTask

/-! ## Entries -/

section Collect

variable {cache : HlsCache} {fs fs' : FileSystem} {d : Dir} {names : List (String × Bool)}
  {entries : List CacheEntryInfo} {trackDir : Path}

theorem child_inj {p q : Path} {s s' : String} (h : p.child s = q.child s') : p = q ∧ s = s' := by
  unfold Path.child at h
  obtain ⟨habs, hcomponents⟩ := Files.Path.mk.inj h
  obtain ⟨hinit, hlast⟩ := List.append_inj' hcomponents rfl
  refine ⟨?_, Component.normal.inj (List.singleton_inj.1 hlast)⟩
  cases p
  cases q
  simp_all

/-- The names of a directory. -/
def nameIn (d : Dir) : Dir → Option String
  | [] => none
  | name :: parent => if parent = d then some name else none

theorem readDir_names (h : fs.readDir d = .ok names) :
    names.map Prod.fst = (fs.nodes.map Prod.fst).filterMap (nameIn d) := by
  unfold FileSystem.readDir at h
  split at h
  · cases h
  · cases h
    rw [List.map_filterMap, List.filterMap_map]
    refine List.filterMap_congr fun p _ => ?_
    obtain ⟨path, n⟩ := p
    cases path with
    | nil => rfl
    | cons name parent =>
      dsimp only [nameIn, Function.comp]
      split <;> rfl

theorem nameIn_eq_some {e : Dir} {name : String} (h : nameIn d e = some name) : e = name :: d := by
  cases e with
  | nil => cases h
  | cons name' parent =>
    by_cases hparent : parent = d
    · rw [nameIn, if_pos hparent] at h
      rw [hparent, Option.some.inj h]
    · rw [nameIn, if_neg hparent] at h
      cases h

theorem nodup_readDir (hnames : (fs.nodes.map Prod.fst).Nodup) (h : fs.readDir d = .ok names) :
    (names.map Prod.fst).Nodup := by
  rw [readDir_names h]
  refine List.Nodup.filterMap ?_ hnames
  intro e e' name he he'
  rw [nameIn_eq_some he, nameIn_eq_some he']

theorem has_of_mem_readDir (h : fs.readDir d = .ok names) {p : String × Bool} (hp : p ∈ names) :
    fs.Has (p.1 :: d) := by
  have hname : p.1 ∈ (fs.nodes.map Prod.fst).filterMap (nameIn d) := readDir_names h ▸ List.mem_map_of_mem hp
  obtain ⟨e, he, hin⟩ := List.mem_filterMap.1 hname
  exact nameIn_eq_some hin ▸ he

theorem lastAccess_ok {root : Path} {n : Nat} (h : (cache.lastAccess root).alone fs = (.ok n, fs')) : fs' = fs := by
  unfold HlsCache.lastAccess at h
  obtain ⟨stamp, fs₁, hstamp, h⟩ := of_alone_bind h
  rw [alone_query] at hstamp
  cases hstamp
  cases hnode : fs.node (".last_access" :: cache.dirAt root) with
  | some n =>
    rw [hnode] at h
    exact (Prod.mk.inj h).2.symm
  | none =>
    rw [hnode] at h
    obtain ⟨dir, fs₂, hdir, h⟩ := of_alone_bind h
    rw [alone_query] at hdir
    cases hdir
    exact (Prod.mk.inj h).2.symm

theorem collectVariants_ok (h : (cache.collectVariants trackDir names).alone fs = (.ok entries, fs')) :
    fs' = fs ∧ (entries.map CacheEntryInfo.root).Sublist (names.map fun p => trackDir.child p.1) := by
  induction names generalizing entries with
  | nil =>
    unfold HlsCache.collectVariants at h
    rw [alone_pure] at h
    cases h
    exact ⟨rfl, List.Sublist.refl _⟩
  | cons p names ih =>
    obtain ⟨name, isDir⟩ := p
    unfold HlsCache.collectVariants at h
    split at h
    · obtain ⟨hfs, hsub⟩ := ih h
      exact ⟨hfs, hsub.cons _⟩
    · obtain ⟨cached, fs₁, hcached, h⟩ := of_alone_bind h
      rw [alone_query] at hcached
      cases hcached
      split at h
      · obtain ⟨hfs, hsub⟩ := ih h
        exact ⟨hfs, hsub.cons _⟩
      · obtain ⟨size, fs₂, hsize, h⟩ := of_alone_bind h
        obtain ⟨stamp, fs₃, hstamp, h⟩ := of_alone_bind h
        obtain ⟨rest, fs₄, hrest, h⟩ := of_alone_bind h
        rw [alone_pure] at h
        cases h
        have hfs₂ : fs₂ = fs := by
          unfold HlsCache.dirSize at hsize
          rw [alone_query] at hsize
          exact (Prod.mk.inj hsize).2.symm
        have hfs₃ : fs₃ = fs₂ := lastAccess_ok hstamp
        subst hfs₂ hfs₃
        obtain ⟨hfs, hsub⟩ := ih hrest
        exact ⟨hfs, hsub.cons_cons _⟩

/-- Where the entries of a tree are: two names below the root of the cache. -/
def EntryAt (cache : HlsCache) (fs : FileSystem) (names : List (String × Bool)) (root : Path) : Prop :=
  ∃ t ∈ names.map Prod.fst, ∃ v, root = (cache.root.child t).child v ∧ fs.Has (cache.dirAt root)

theorem collectTracks_ok (hnames : (fs.nodes.map Prod.fst).Nodup)
    (h : (cache.collectTracks names).alone fs = (.ok entries, fs')) :
    fs' = fs ∧ (∀ e ∈ entries, EntryAt cache fs names e.root) ∧
      ((names.map Prod.fst).Nodup → (entries.map CacheEntryInfo.root).Nodup) := by
  induction names generalizing entries with
  | nil =>
    unfold HlsCache.collectTracks at h
    rw [alone_pure] at h
    cases h
    refine ⟨rfl, ?_, fun _ => List.nodup_nil⟩
    intro e he
    cases he
  | cons p names ih =>
    obtain ⟨name, isDir⟩ := p
    unfold HlsCache.collectTracks at h
    split at h
    · obtain ⟨hfs, hat, hnodup⟩ := ih h
      refine ⟨hfs, ?_, fun hn => hnodup (List.nodup_cons.1 hn).2⟩
      intro e he
      obtain ⟨t, ht, v, hv⟩ := hat e he
      exact ⟨t, List.mem_cons_of_mem _ ht, v, hv⟩
    · obtain ⟨variants, fs₁, hvariants, hrest⟩ := of_alone_bind h
      rw [alone_query] at hvariants
      obtain ⟨hread, hfs₁⟩ := Prod.mk.inj hvariants
      obtain ⟨own, fs₂, hown, hrest⟩ := of_alone_bind hrest
      obtain ⟨hfs₂, hsub⟩ := collectVariants_ok hown
      rw [hfs₂, ← hfs₁] at hrest
      obtain ⟨others, fs₃, hothers, hrest⟩ := of_alone_bind hrest
      rw [alone_pure] at hrest
      cases hrest
      obtain ⟨hfs, hat, hnodup⟩ := ih hothers
      have hown_at : ∀ root ∈ own.map CacheEntryInfo.root, ∃ v,
          root = (cache.root.child name).child v ∧ fs.Has (cache.dirAt root) := by
        intro root hroot
        obtain ⟨p, hp, rfl⟩ := List.mem_map.1 (hsub.subset hroot)
        refine ⟨p.1, rfl, ?_⟩
        have hhas := has_of_mem_readDir hread hp
        rw [HlsCache.dirAt, resolve_child]
        exact hhas
      refine ⟨hfs, ?_, ?_⟩
      · intro e he
        rcases List.mem_append.1 he with he | he
        · obtain ⟨v, hv⟩ := hown_at e.root (List.mem_map_of_mem he)
          exact ⟨name, List.mem_cons_self, v, hv⟩
        · obtain ⟨t, ht, v, hv⟩ := hat e he
          exact ⟨t, List.mem_cons_of_mem _ ht, v, hv⟩
      · intro hn
        obtain ⟨hfirst, hrest⟩ := List.nodup_cons.1 hn
        rw [List.map_append]
        refine List.Nodup.append ?_ (hnodup hrest) ?_
        · refine hsub.nodup ?_
          have hvariants := nodup_readDir hnames hread
          have hroots : (variants.map fun p => (cache.root.child name).child p.1) =
              (variants.map Prod.fst).map fun v => (cache.root.child name).child v := by
            rw [List.map_map]
            rfl
          rw [hroots]
          exact hvariants.map fun v v' hsame => (child_inj hsame).2
        · intro root hroot hroot'
          obtain ⟨v, hv, -⟩ := hown_at root hroot
          obtain ⟨e, he, rfl⟩ := List.mem_map.1 hroot'
          obtain ⟨t, ht, v', hv', -⟩ := hat e he
          have hsame := (child_inj (child_inj (hv.symm.trans hv')).1).2
          exact hfirst (hsame ▸ ht)

/-- The entries of a tree are directories two names below the root, each once; looking at them changes
nothing. -/
theorem collected {tree : Tree} (h : cache.collectCacheEntries.alone tree.toFileSystem = (.ok entries, fs')) :
    fs' = tree.toFileSystem ∧
      (∀ e ∈ entries, tree.Has (cache.dirAt e.root) ∧
        (cache.dirAt e.root).length = (cache.dirAt cache.root).length + 2) ∧
      (entries.map fun e => cache.dirAt e.root).Nodup := by
  unfold HlsCache.collectCacheEntries at h
  obtain ⟨there, fs₁, hthere, h⟩ := of_alone_bind h
  rw [alone_query] at hthere
  cases hthere
  split at h
  · cases h
    refine ⟨rfl, ?_, List.nodup_nil⟩
    intro e he
    cases he
  · obtain ⟨tracks, fs₂, htracks, h⟩ := of_alone_bind h
    rw [alone_query] at htracks
    obtain ⟨hread, hfs₂⟩ := Prod.mk.inj htracks
    rw [← hfs₂] at h
    obtain ⟨hfs, hat, hnodup⟩ := collectTracks_ok tree.names h
    have hdirs : ∀ e ∈ entries, ∃ t v, e.root = (cache.root.child t).child v ∧
        cache.dirAt e.root = v :: t :: cache.dirAt cache.root := by
      intro e he
      obtain ⟨t, -, v, hroot, -⟩ := hat e he
      refine ⟨t, v, hroot, ?_⟩
      rw [hroot, HlsCache.dirAt, resolve_child, resolve_child]
      rfl
    refine ⟨hfs, ?_, ?_⟩
    · intro e he
      obtain ⟨t, v, -, hdir⟩ := hdirs e he
      obtain ⟨-, -, -, -, hhas⟩ := hat e he
      exact ⟨hhas, by rw [hdir]; rfl⟩
    · have hmap : (entries.map fun e => cache.dirAt e.root) = (entries.map CacheEntryInfo.root).map cache.dirAt := by
        rw [List.map_map]
        rfl
      rw [hmap]
      refine List.Nodup.map_on ?_ (hnodup (nodup_readDir tree.names hread))
      intro root hroot root' hroot' hsame
      obtain ⟨e, he, rfl⟩ := List.mem_map.1 hroot
      obtain ⟨e', he', rfl⟩ := List.mem_map.1 hroot'
      obtain ⟨t, v, hroot, hdir⟩ := hdirs e he
      obtain ⟨t', v', hroot', hdir'⟩ := hdirs e' he'
      rw [hdir, hdir'] at hsame
      obtain ⟨hv, htail⟩ := List.cons.inj hsame
      rw [hroot, hroot', hv, (List.cons.inj htail).1]

end Collect

/-! ## The loop -/

section Evict

variable {cache : HlsCache} {fs fs' : FileSystem} {preserve : Option Path} {entries : List CacheEntryInfo}
  {n : Nat}

def sweepOf (cache : HlsCache) (preserve : Option Path) (entries : List CacheEntryInfo) (n : Nat) :
    List CacheEntryInfo × List CacheEntryInfo :=
  Greedy.sweep CacheEntryInfo.size (fun e => preserve = some e.root) cache.maxSizeBytes entries n

/-- Directories of one depth are apart unless they are one. -/
theorem not_within_of_length {d d' e : Dir} (hlength : d.length = d'.length) (hne : d ≠ d') (he : e.Within d) :
    ¬ e.Within d' := by
  intro he'
  rcases List.suffix_or_suffix_of_suffix he he' with h | h
  · exact hne (h.eq_of_length hlength)
  · exact hne (h.eq_of_length hlength.symm).symm

theorem alone_ifExists_remove {path : Path} {lab : CacheStep} (hhas : fs.Has (cache.dirAt path))
    (h : (cache.ifExists path (change lab fun fs => fs.removeDirAll (cache.dirAt path))).alone fs = (.ok (), fs')) :
    fs.removeDirAll (cache.dirAt path) = .ok fs' := by
  unfold HlsCache.ifExists at h
  obtain ⟨there, fs₁, hthere, h⟩ := of_alone_bind h
  rw [alone_query] at hthere
  obtain ⟨hthere, hfs₁⟩ := Prod.mk.inj hthere
  have hexists : there = true := by
    rw [← Except.ok.inj hthere]
    unfold FileSystem.pathExists
    simp [hhas]
  rw [if_pos hexists, ← hfs₁] at h
  cases hremove : fs.removeDirAll (cache.dirAt path) with
  | error e =>
    rw [alone_change_error hremove] at h
    cases h
  | ok fs₂ =>
    rw [alone_change hremove] at h
    cases h
    rfl

/-- The loop takes what the sweep takes, and leaves the rest of the disk as it is. -/
theorem shape_evictEntries {k : Nat}
    (hentries : ∀ e ∈ entries, fs.Has (cache.dirAt e.root) ∧ (cache.dirAt e.root).length = k)
    (hnodup : (entries.map fun e => cache.dirAt e.root).Nodup)
    (h : (cache.evictEntries preserve entries n).alone fs = (.ok (), fs')) (d : Dir) :
    ((∃ e ∈ (sweepOf cache preserve entries n).1, d.Within (cache.dirAt e.root)) → fs'.shape d = none) ∧
      ((∀ e ∈ (sweepOf cache preserve entries n).1, ¬ d.Within (cache.dirAt e.root)) → fs'.shape d = fs.shape d) := by
  induction entries generalizing fs n with
  | nil =>
    cases h
    refine ⟨?_, fun _ => rfl⟩
    rintro ⟨e, he, -⟩
    cases he
  | cons e entries ih =>
    obtain ⟨hfirst, hrest⟩ := List.nodup_cons.1 hnodup
    have htail : ∀ e' ∈ entries, fs.Has (cache.dirAt e'.root) ∧ (cache.dirAt e'.root).length = k :=
      fun e' he' => hentries e' (List.mem_cons_of_mem e he')
    unfold HlsCache.evictEntries at h
    unfold sweepOf Greedy.sweep
    by_cases hfits : n ≤ cache.maxSizeBytes
    · rw [if_pos hfits] at h ⊢
      cases h
      refine ⟨?_, fun _ => rfl⟩
      rintro ⟨e, he, -⟩
      cases he
    · rw [if_neg hfits] at h ⊢
      by_cases hpreserved : preserve = some e.root
      · rw [if_pos hpreserved] at h
        rw [if_pos (decide_eq_true hpreserved)]
        exact ih htail hrest h
      · rw [if_neg hpreserved] at h
        rw [if_neg (by simpa using hpreserved)]
        dsimp only
        obtain ⟨_, fs₁, hstep, h⟩ := of_alone_bind h
        obtain ⟨hhas, hlength⟩ := hentries e List.mem_cons_self
        have hremove := alone_ifExists_remove hhas hstep
        have hapart : ∀ e' ∈ entries, cache.dirAt e'.root ≠ cache.dirAt e.root := by
          intro e' he' hsame
          exact hfirst (List.mem_map.2 ⟨e', he', hsame⟩)
        have hthere : ∀ e' ∈ entries, fs₁.Has (cache.dirAt e'.root) ∧ (cache.dirAt e'.root).length = k := by
          intro e' he'
          obtain ⟨hhas', hlength'⟩ := htail e' he'
          have hout : ¬ (cache.dirAt e'.root).Within (cache.dirAt e.root) :=
            not_within_of_length (hlength'.trans hlength.symm) (hapart e' he') (List.suffix_refl _)
          refine ⟨?_, hlength'⟩
          rw [FileSystem.has_iff_shape, FileSystem.shape_removeDirAll hremove, if_neg hout]
          exact FileSystem.has_iff_shape.1 hhas'
        obtain ⟨hgone, hkept⟩ := ih hthere hrest h
        constructor
        · rintro ⟨e', he', hwithin⟩
          rcases List.mem_cons.1 he' with rfl | he'
          · by_cases hother : ∃ e ∈ (sweepOf cache preserve entries (n - e'.size)).1, d.Within (cache.dirAt e.root)
            · exact hgone hother
            · rw [hkept fun e he hin => hother ⟨e, he, hin⟩, FileSystem.shape_removeDirAll hremove, if_pos hwithin]
          · exact hgone ⟨e', he', hwithin⟩
        · intro hout
          rw [hkept fun e' he' => hout e' (List.mem_cons_of_mem e he'), FileSystem.shape_removeDirAll hremove,
            if_neg (hout e List.mem_cons_self)]

end Evict

/-! ## The sweep -/

/-- What a sweep removed and what it kept. -/
structure Evicted (cache : HlsCache) (preserve : Option Path) (fs fs' : FileSystem)
    (entries removed kept : List CacheEntryInfo) : Prop where
  parts : (removed ++ kept).Perm entries
  gone : ∀ e ∈ removed, ∀ d : Dir, d.Within (cache.dirAt e.root) → ¬ fs'.Has d
  intact : ∀ e ∈ kept, ∀ d : Dir, d.Within (cache.dirAt e.root) → fs'.shape d = fs.shape d
  enough : Greedy.total CacheEntryInfo.size kept ≤ cache.maxSizeBytes ∨
    (∀ e ∈ kept, preserve = some e.root) ∧ kept.length ≤ 1
  spared : ∀ e ∈ removed, preserve ≠ some e.root
  oldest : ∀ e ∈ removed, ∀ e' ∈ kept, preserve ≠ some e'.root → e.lastAccess ≤ e'.lastAccess
  minimal : removed = [] ∨ ∃ last ∈ removed, (∀ e ∈ removed, e.lastAccess ≤ last.lastAccess) ∧
    cache.maxSizeBytes < Greedy.total CacheEntryInfo.size kept + last.size

section Sweep

variable {cache : HlsCache} {preserve : Option Path} {entries : List CacheEntryInfo} {tree : Tree}
  {fs' : FileSystem}

theorem totalSize_eq (h : Greedy.total CacheEntryInfo.size entries < 2 ^ 64) :
    HlsCache.totalSize entries = Greedy.total CacheEntryInfo.size entries := by
  have hfold : ∀ n, n + Greedy.total CacheEntryInfo.size entries < 2 ^ 64 →
      entries.foldl (fun total entry => (total + entry.size) % 2 ^ 64) n =
        n + Greedy.total CacheEntryInfo.size entries := by
    clear h
    induction entries with
    | nil => exact fun n _ => rfl
    | cons e entries ih =>
      intro n hn
      rw [Greedy.total_cons] at hn ⊢
      rw [List.foldl_cons, Nat.mod_eq_of_lt (by omega), ih (n + e.size) (by omega), Nat.add_assoc]
  rw [HlsCache.totalSize, hfold 0 (by omega), Nat.zero_add]

instance : Std.Total CacheEntryInfo.Older := ⟨fun a b => Nat.le_total a.lastAccess b.lastAccess⟩

instance : IsTrans CacheEntryInfo CacheEntryInfo.Older := ⟨fun _ _ _ => Nat.le_trans⟩

theorem nodup_length_le_one {α β : Type} {f : α → β} {xs : List α} {b : β} (hnodup : (xs.map f).Nodup)
    (hall : ∀ x ∈ xs, f x = b) : xs.length ≤ 1 := by
  cases xs with
  | nil => exact Nat.zero_le 1
  | cons x xs =>
    cases xs with
    | nil => exact Nat.le_refl 1
    | cons y xs =>
      have hsame : f x = f y := (hall x (by simp)).trans (hall y (by simp)).symm
      rw [List.map_cons, List.map_cons, hsame, List.nodup_cons] at hnodup
      exact absurd List.mem_cons_self hnodup.1

/-- A sweep that succeeds removes enough, the oldest entries first, and none too many. -/
theorem evicts_oldest_first (h : (cache.enforceSizeLimit preserve).alone tree.toFileSystem = (.ok (), fs')) :
    ∃ entries, cache.collectCacheEntries.alone tree.toFileSystem = (.ok entries, tree.toFileSystem) ∧
      (Greedy.total CacheEntryInfo.size entries < 2 ^ 64 →
        ∃ removed kept, Evicted cache preserve tree.toFileSystem fs' entries removed kept) := by
  unfold HlsCache.enforceSizeLimit at h
  obtain ⟨entries, fs₁, hcollect, h⟩ := of_alone_bind h
  obtain ⟨hfs₁, hdirs, hnodup⟩ := collected hcollect
  rw [hfs₁] at hcollect h
  refine ⟨entries, hcollect, ?_⟩
  intro hsum
  rw [totalSize_eq hsum] at h
  have hperm := List.perm_insertionSort CacheEntryInfo.Older entries
  have hsorted := List.pairwise_insertionSort CacheEntryInfo.Older entries
  generalize entries.insertionSort CacheEntryInfo.Older = sorted at h hperm hsorted
  have htotal := @Greedy.total_perm _ CacheEntryInfo.size _ _ hperm
  rw [← htotal] at h
  have hparts := @Greedy.sweep_perm _ CacheEntryInfo.size (fun e => preserve = some e.root) cache.maxSizeBytes
    sorted (Greedy.total CacheEntryInfo.size sorted)
  have hnodup' := (hperm.map fun e => cache.dirAt e.root).nodup_iff.2 hnodup
  have hshape := fun d => shape_evictEntries (fun e he => hdirs e (hperm.subset he)) hnodup' h d
  have hmem : ∀ e, e ∈ (sweepOf cache preserve sorted (Greedy.total CacheEntryInfo.size sorted)).1 ∨
      e ∈ (sweepOf cache preserve sorted (Greedy.total CacheEntryInfo.size sorted)).2 → e ∈ entries := by
    intro e he
    exact hperm.subset (hparts.subset (List.mem_append.2 he))
  refine ⟨_, _, ⟨hparts.trans hperm, ?_, ?_, ?_, ?_, ?_, ?_⟩⟩
  · intro e he d hd hhas
    exact FileSystem.has_iff_shape.1 hhas ((hshape d).1 ⟨e, he, hd⟩)
  · intro e he d hd
    refine (hshape d).2 fun e' he' hd' => ?_
    have hne : cache.dirAt e.root ≠ cache.dirAt e'.root := by
      have hsplit := (hparts.map fun e => cache.dirAt e.root).nodup_iff.2 hnodup'
      rw [List.map_append] at hsplit
      exact fun hsame => (List.nodup_append.1 hsplit).2.2 _ (List.mem_map_of_mem he') _ (List.mem_map_of_mem he)
        hsame.symm
    have hlength := (hdirs e (hmem e (.inr he))).2.trans (hdirs e' (hmem e' (.inl he'))).2.symm
    exact not_within_of_length hlength hne hd hd'
  · rcases @Greedy.sweep_enough _ CacheEntryInfo.size (fun e => preserve = some e.root) cache.maxSizeBytes sorted _ 0
      (Nat.add_zero _).symm with hfits | hall
    · exact .inl hfits
    · right
      have hall' := fun e he => of_decide_eq_true (hall e he)
      refine ⟨hall', ?_⟩
      have hsplit := (hparts.map fun e => cache.dirAt e.root).nodup_iff.2 hnodup'
      rw [List.map_append] at hsplit
      have hkept := (List.nodup_append.1 hsplit).2.1
      refine @nodup_length_le_one _ _ _ _ (cache.dirAt (preserve.getD cache.root)) hkept ?_
      intro e he
      rw [hall' e he]
      rfl
  · intro e he hpreserved
    have hnot := Greedy.not_spared_of_mem he
    rw [decide_eq_true hpreserved] at hnot
    cases hnot
  · intro e he e' he' hpreserved
    exact Greedy.sweep_ordered hsorted he he' (decide_eq_false hpreserved)
  · exact Greedy.sweep_minimal hsorted (Nat.add_zero _).symm

/-- Two variants of a track, of which the first is the older one. -/
def twoVariants : Tree where
  nodes := [(["c"], .dir 0), (["t", "c"], .dir 0),
    (["a", "t", "c"], .dir 1), (["index.m3u8", "a", "t", "c"], .file 6 1),
    (["b", "t", "c"], .dir 2), (["index.m3u8", "b", "t", "c"], .file 7 2)]
  clock := 3
  names := by decide
  parents := by
    intro name d hhas
    unfold FileSystem.Has at hhas
    simp only [List.map_cons, List.map_nil, List.mem_cons, List.cons.injEq, List.not_mem_nil, or_false] at hhas
    rcases hhas with ⟨-, rfl⟩ | ⟨-, rfl⟩ | ⟨-, rfl⟩ | ⟨-, rfl⟩ | ⟨-, rfl⟩ | ⟨-, rfl⟩ <;> decide

theorem evicts_oldest_first_two : ∃ cache : HlsCache, cache.maxSizeBytes = 10 ∧
    ∃ entries, cache.collectCacheEntries.alone twoVariants.toFileSystem = (.ok entries, twoVariants.toFileSystem) ∧
      (Greedy.total CacheEntryInfo.size entries < 2 ^ 64 →
        ∃ removed kept, Evicted cache none twoVariants.toFileSystem
          ((cache.enforceSizeLimit none).alone twoVariants.toFileSystem).2 entries removed kept) := by
  refine ⟨⟨⟨true, [.normal "c"]⟩, 10, [], 7⟩, rfl, ?_⟩
  exact evicts_oldest_first (Prod.ext (by decide +kernel) rfl)

end Sweep

end Kanade
