import Mathlib.Data.List.Basic
import Mathlib.Data.List.InsertIdx

/-!
# Keyed.Shown

Lists of which a reader sees a part: `f` shows an entry, or hides it.

* `ShownFirst`: no hidden entry stands before one that is shown.
* `shownFirst_iff_eraseIdx`: erasing by an index of the part that is seen erases the entry the reader
  means, for every such index, exactly in these lists.
* `filterMap_move`: in these lists, moving by such indices moves what the reader sees.
-/

namespace Keyed

variable {α β : Type} {f : α → Option β} {l shown hidden : List α}

/-- What is shown comes first. -/
def ShownFirst (f : α → Option β) (l : List α) : Prop :=
  l.Pairwise fun a b => (f b).isSome → (f a).isSome

instance ShownFirst.decidable : Decidable (ShownFirst f l) :=
  inferInstanceAs (Decidable (l.Pairwise fun a b => (f b).isSome → (f a).isSome))

/-! ## Lists that are shown whole -/

theorem length_filterMap_of_isSome (h : ∀ a ∈ l, (f a).isSome) : (l.filterMap f).length = l.length := by
  induction l with
  | nil => rfl
  | cons a l ih =>
    obtain ⟨b, hb⟩ := Option.isSome_iff_exists.1 (h a (by simp))
    rw [List.filterMap_cons_some hb, List.length_cons, List.length_cons,
      ih fun a' ha' => h a' (by simp [ha'])]

theorem filterMap_eraseIdx (h : ∀ a ∈ l, (f a).isSome) (i : Nat) :
    (l.eraseIdx i).filterMap f = (l.filterMap f).eraseIdx i := by
  induction l generalizing i with
  | nil => simp
  | cons a l ih =>
    obtain ⟨b, hb⟩ := Option.isSome_iff_exists.1 (h a (by simp))
    have hl : ∀ a' ∈ l, (f a').isSome := fun a' ha' => h a' (by simp [ha'])
    cases i with
    | zero => rw [List.filterMap_cons_some hb, List.eraseIdx_cons_zero, List.eraseIdx_cons_zero]
    | succ i =>
      rw [List.filterMap_cons_some hb, List.eraseIdx_cons_succ, List.eraseIdx_cons_succ,
        List.filterMap_cons_some hb, ih hl]

theorem filterMap_insertIdx (h : ∀ a ∈ l, (f a).isSome) {a : α} {b : β} (hb : f a = some b) (i : Nat) :
    (l.insertIdx i a).filterMap f = (l.filterMap f).insertIdx i b := by
  induction l generalizing i with
  | nil =>
    cases i with
    | zero => simp [hb]
    | succ i => simp
  | cons a' l ih =>
    obtain ⟨b', hb'⟩ := Option.isSome_iff_exists.1 (h a' (by simp))
    have hl : ∀ a' ∈ l, (f a').isSome := fun a' ha' => h a' (by simp [ha'])
    cases i with
    | zero => rw [List.insertIdx_zero, List.insertIdx_zero, List.filterMap_cons_some hb]
    | succ i =>
      rw [List.filterMap_cons_some hb', List.insertIdx_succ_cons, List.insertIdx_succ_cons,
        List.filterMap_cons_some hb', ih hl]

theorem getElem?_filterMap (h : ∀ a ∈ l, (f a).isSome) (i : Nat) :
    (l.filterMap f)[i]? = l[i]?.bind f := by
  induction l generalizing i with
  | nil => simp
  | cons a l ih =>
    obtain ⟨b, hb⟩ := Option.isSome_iff_exists.1 (h a (by simp))
    have hl : ∀ a' ∈ l, (f a').isSome := fun a' ha' => h a' (by simp [ha'])
    cases i with
    | zero => simp [List.filterMap_cons_some hb, hb]
    | succ i => rw [List.filterMap_cons_some hb, List.getElem?_cons_succ, List.getElem?_cons_succ, ih hl]

/-! ## Lists whose shown entries come first -/

theorem insertIdx_append {l m : List α} {a : α} {i : Nat} (h : i ≤ l.length) :
    (l ++ m).insertIdx i a = l.insertIdx i a ++ m := by
  induction l generalizing i with
  | nil =>
    obtain rfl : i = 0 := by simpa using h
    rfl
  | cons b l ih =>
    cases i with
    | zero => rfl
    | succ i =>
      rw [List.cons_append, List.insertIdx_succ_cons, ih (Nat.le_of_succ_le_succ h),
        List.insertIdx_succ_cons, List.cons_append]

theorem filterMap_hidden (h : ∀ a ∈ hidden, f a = none) : hidden.filterMap f = [] :=
  List.filterMap_eq_nil_iff.2 h

/-- What is shown, and the rest. -/
theorem ShownFirst.exists_append (h : ShownFirst f l) :
    ∃ shown hidden, l = shown ++ hidden ∧ (∀ a ∈ shown, (f a).isSome) ∧
      ∀ a ∈ hidden, f a = none := by
  induction l with
  | nil => exact ⟨[], [], by simp⟩
  | cons a l ih =>
    obtain ⟨hfirst, hl⟩ := List.pairwise_cons.1 h
    by_cases ha : (f a).isSome
    · obtain ⟨shown, hidden, rfl, hs, hh⟩ := ih hl
      refine ⟨a :: shown, hidden, rfl, ?_, hh⟩
      intro a' ha'
      rcases List.mem_cons.1 ha' with rfl | ha'
      · exact ha
      · exact hs a' ha'
    · have hnone : ∀ b ∈ l, f b = none := fun b hb =>
        Option.not_isSome_iff_eq_none.1 fun hb' => ha (hfirst b hb hb')
      refine ⟨[], a :: l, rfl, by simp, ?_⟩
      intro b hb
      rcases List.mem_cons.1 hb with rfl | hb
      · exact Option.not_isSome_iff_eq_none.1 ha
      · exact hnone b hb

theorem ShownFirst.filterMap_eraseIdx (h : ShownFirst f l) {i : Nat}
    (hi : i < (l.filterMap f).length) :
    (l.eraseIdx i).filterMap f = (l.filterMap f).eraseIdx i := by
  obtain ⟨shown, hidden, rfl, hs, hh⟩ := h.exists_append
  rw [List.filterMap_append, filterMap_hidden hh, List.append_nil] at hi ⊢
  rw [length_filterMap_of_isSome hs] at hi
  rw [List.eraseIdx_append_of_lt_length hi, List.filterMap_append, filterMap_hidden hh,
    List.append_nil, Keyed.filterMap_eraseIdx hs]

/-- A move by indices of the shown part. -/
theorem ShownFirst.filterMap_move (h : ShownFirst f l) {i j : Nat} {b : β}
    (hi : (l.filterMap f)[i]? = some b) (hj : j < (l.filterMap f).length) :
    ∃ a, l[i]? = some a ∧ ((l.eraseIdx i).insertIdx (min j (l.length - 1)) a).filterMap f =
      ((l.filterMap f).eraseIdx i).insertIdx j b := by
  obtain ⟨shown, hidden, rfl, hs, hh⟩ := h.exists_append
  rw [List.filterMap_append, filterMap_hidden hh, List.append_nil] at hi hj ⊢
  rw [length_filterMap_of_isSome hs] at hj
  obtain ⟨hlt, -⟩ := List.getElem?_eq_some_iff.1 hi
  rw [length_filterMap_of_isSome hs] at hlt
  rw [getElem?_filterMap hs, List.getElem?_eq_getElem hlt, Option.bind_some] at hi
  have hmin : min j ((shown ++ hidden).length - 1) = j := by
    rw [List.length_append]
    omega
  have hsub : ∀ a ∈ shown.eraseIdx i, (f a).isSome := fun a ha => hs a (List.mem_of_mem_eraseIdx ha)
  refine ⟨shown[i], by rw [List.getElem?_append_left hlt, List.getElem?_eq_getElem hlt], ?_⟩
  rw [hmin, List.eraseIdx_append_of_lt_length hlt, insertIdx_append,
    List.filterMap_append, filterMap_hidden hh, List.append_nil, filterMap_insertIdx hsub hi,
    Keyed.filterMap_eraseIdx hs]
  rw [List.length_eraseIdx_of_lt hlt]
  omega

/-- Where a hidden entry stands before a shown one, its index is one of the shown part, and erasing
there changes nothing that is seen. -/
theorem exists_of_not_shownFirst (h : ¬ ShownFirst f l) :
    ∃ i < (l.filterMap f).length, (l.eraseIdx i).filterMap f = l.filterMap f := by
  induction l with
  | nil => exact absurd List.Pairwise.nil h
  | cons a l ih =>
    cases ha : f a with
    | none =>
      by_cases hl : ∃ b ∈ l, (f b).isSome
      · refine ⟨0, ?_, by rw [List.eraseIdx_cons_zero, List.filterMap_cons_none ha]⟩
        rw [List.filterMap_cons_none ha, List.length_pos_iff]
        obtain ⟨b, hb, hshown⟩ := hl
        obtain ⟨c, hc⟩ := Option.isSome_iff_exists.1 hshown
        exact List.ne_nil_of_mem (List.mem_filterMap.2 ⟨b, hb, hc⟩)
      · have hnone : ∀ b ∈ l, ¬ (f b).isSome := fun b hb hshown => hl ⟨b, hb, hshown⟩
        refine absurd (List.pairwise_cons.2 ⟨fun b hb hshown => absurd hshown (hnone b hb), ?_⟩) h
        exact List.pairwise_iff_forall_sublist.2 fun {b c} hsub hshown =>
          absurd hshown (hnone c (hsub.subset (by simp)))
    | some b =>
      have hl : ¬ ShownFirst f l := fun hl =>
        h (List.pairwise_cons.2 ⟨fun _ _ _ => by rw [ha]; rfl, hl⟩)
      obtain ⟨i, hi, heq⟩ := ih hl
      refine ⟨i + 1, ?_, ?_⟩
      · rw [List.filterMap_cons_some ha, List.length_cons]
        omega
      · rw [List.eraseIdx_cons_succ, List.filterMap_cons_some ha, List.filterMap_cons_some ha, heq]

theorem shownFirst_iff_eraseIdx :
    ShownFirst f l ↔ ∀ i < (l.filterMap f).length,
      (l.eraseIdx i).filterMap f = (l.filterMap f).eraseIdx i := by
  constructor
  · intro h i hi
    exact h.filterMap_eraseIdx hi
  · intro h
    by_contra hnot
    obtain ⟨i, hi, heq⟩ := exists_of_not_shownFirst hnot
    have hlen := congrArg List.length ((h i hi).symm.trans heq)
    rw [List.length_eraseIdx_of_lt hi] at hlen
    omega

end Keyed
