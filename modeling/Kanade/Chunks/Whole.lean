import Mathlib.Data.List.Defs
import Mathlib.Data.List.Basic

/-!
# Kanade.Chunks.Whole

Lists cut into chunks by `List.toChunks`.

* `toChunks_eq`: the first chunk and the rest.
* `toChunks_flatten`: chunks put together and cut again.
* `toChunks_comm`: what goes over small chunks piece by piece can be done before a list is cut into larger ones
  or after.
-/

namespace Chunks

variable {α β : Type} {n size : Nat} {xs ys : List α}

theorem toChunks_nil (n : Nat) : ([] : List α).toChunks n = [] := by
  cases n <;> rfl

theorem toChunks_zero (hne : xs ≠ []) : xs.toChunks 0 = [xs] := by
  cases xs with
  | nil => exact absurd rfl hne
  | cons => rfl

theorem toChunks_go (hn : 0 < n) {x : α} : (x :: xs).toChunks n = List.toChunks.go n xs #[x] #[] := by
  cases n with
  | zero => exact absurd hn (Nat.lt_irrefl 0)
  | succ => rfl

/-- The loop with a chunk begun and chunks done. -/
theorem go_eq (hn : 0 < n) {acc : Array α} {done : Array (List α)} (hle : acc.size ≤ n) :
    List.toChunks.go n xs acc done =
      done.toList ++ (acc.toList ++ xs.take (n - acc.size)) :: (xs.drop (n - acc.size)).toChunks n := by
  induction xs generalizing acc done with
  | nil => simp [List.toChunks.go, toChunks_nil]
  | cons x xs ih =>
    rw [List.toChunks.go]
    by_cases hfull : acc.size = n
    · rw [if_pos (beq_iff_eq.2 hfull), ih, hfull, Nat.sub_self, List.drop_zero, toChunks_go hn, ih]
      · simp
      · exact hn
      · exact hn
    · obtain ⟨room, hroom⟩ : ∃ room, n - acc.size = room + 1 := ⟨n - acc.size - 1, by omega⟩
      have hroom' : n - (acc.size + 1) = room := by omega
      rw [if_neg (mt beq_iff_eq.1 hfull), ih (by rw [Array.size_push]; omega), Array.size_push, hroom, hroom']
      simp

theorem toChunks_eq (hn : 0 < n) (hne : xs ≠ []) : xs.toChunks n = xs.take n :: (xs.drop n).toChunks n := by
  cases xs with
  | nil => exact absurd rfl hne
  | cons x xs =>
    obtain ⟨m, rfl⟩ : ∃ m, n = m + 1 := ⟨n - 1, by omega⟩
    rw [toChunks_go hn, go_eq hn]
    · rfl
    · exact hn

theorem toChunks_append (hn : 0 < n) (hlen : xs.length = n) : (xs ++ ys).toChunks n = xs :: ys.toChunks n := by
  have hne : xs ++ ys ≠ [] := by
    intro h
    have hzero := congrArg List.length h
    rw [List.length_append, List.length_nil] at hzero
    omega
  rw [toChunks_eq hn hne, List.take_left' hlen, List.drop_left' hlen]

theorem toChunks_flatten (hn : 0 < n) {chunks : List (List α)} (hlen : ∀ chunk ∈ chunks, chunk.length = n) :
    chunks.flatten.toChunks n = chunks := by
  induction chunks with
  | nil => exact toChunks_nil n
  | cons chunk chunks ih =>
    rw [List.flatten_cons, toChunks_append hn (hlen chunk List.mem_cons_self),
      ih fun other hother => hlen other (List.mem_cons_of_mem _ hother)]

/-- A list of whole chunks is empty or begins with one. -/
@[elab_as_elim]
theorem whole_induction {P : List α → Prop} (nil : P [])
    (append : ∀ chunk rest, chunk.length = n → n ∣ rest.length → P rest → P (chunk ++ rest))
    (hwhole : n ∣ xs.length) : P xs := by
  obtain ⟨k, hk⟩ := hwhole
  induction k generalizing xs with
  | zero => rwa [List.length_eq_zero_iff.1 hk]
  | succ k ih =>
    have hle : n ≤ xs.length := hk ▸ Nat.le_mul_of_pos_right n (Nat.succ_pos k)
    have hrest : (xs.drop n).length = n * k := by
      rw [List.length_drop, hk, Nat.mul_succ, Nat.add_sub_cancel]
    rw [← List.take_append_drop n xs]
    exact append _ _ (List.length_take_of_le hle) ⟨k, hrest⟩ (ih hrest)

theorem length_of_mem_toChunks (hn : 0 < n) (hwhole : n ∣ xs.length) : ∀ chunk ∈ xs.toChunks n, chunk.length = n := by
  refine whole_induction ?_ ?_ hwhole
  · rw [toChunks_nil]
    intro chunk hchunk
    cases hchunk
  · intro first rest hlen _ ih chunk hchunk
    rw [toChunks_append hn hlen] at hchunk
    rcases List.mem_cons.1 hchunk with rfl | hchunk
    · exact hlen
    · exact ih chunk hchunk

/-- Chunks of pieces are made of pieces. -/
theorem pieces_of_mem_toChunks (hn : size ∣ n) (xs : List α) (hwhole : size ∣ xs.length) :
    ∀ chunk ∈ xs.toChunks n, size ∣ chunk.length ∧ chunk ≠ [] := by
  by_cases hne : xs = []
  · rw [hne, toChunks_nil]
    intro chunk hchunk
    cases hchunk
  rcases Nat.eq_zero_or_pos n with rfl | hpos
  · rw [toChunks_zero hne]
    intro chunk hchunk
    cases List.mem_singleton.1 hchunk
    exact ⟨hwhole, hne⟩
  · have hlen := List.length_pos_iff.2 hne
    have hdrop : size ∣ (xs.drop n).length := by
      rw [List.length_drop]
      exact Nat.dvd_sub hwhole hn
    have hless : (xs.drop n).length < xs.length := by
      rw [List.length_drop]
      omega
    have hrest := pieces_of_mem_toChunks hn _ hdrop
    rw [toChunks_eq hpos hne]
    intro chunk hchunk
    rcases List.mem_cons.1 hchunk with rfl | hchunk
    · constructor
      · rw [List.length_take]
        rcases Nat.le_total n xs.length with hle | hle
        · rwa [Nat.min_eq_left hle]
        · rwa [Nat.min_eq_right hle]
      · apply List.length_pos_iff.1
        rw [List.length_take]
        omega
    · exact hrest chunk hchunk
termination_by xs.length

section Pieces

variable {f : List α → List β}

/-- `f` goes over chunks of a size piece by piece. -/
structure Piecewise (size : Nat) (f : List α → List β) : Prop where
  length_eq : ∀ xs, size ∣ xs.length → (f xs).length = xs.length
  append : ∀ xs ys, size ∣ xs.length → f (xs ++ ys) = f xs ++ f ys

theorem Piecewise.nil (hf : Piecewise size f) : f [] = [] :=
  List.length_eq_zero_iff.1 (hf.length_eq [] (Nat.dvd_zero size))

theorem Piecewise.take_drop (hf : Piecewise size f) (hn : size ∣ n) (hwhole : size ∣ xs.length) :
    (f xs).take n = f (xs.take n) ∧ (f xs).drop n = f (xs.drop n) := by
  rcases Nat.lt_or_ge xs.length n with hlt | hle
  · have hlen := hf.length_eq xs hwhole
    rw [List.take_of_length_le (by omega), List.take_of_length_le (by omega), List.drop_eq_nil_of_le (by omega),
      List.drop_eq_nil_of_le (by omega), hf.nil]
    exact ⟨rfl, rfl⟩
  · have hlen : (xs.take n).length = n := List.length_take_of_le hle
    have hdvd : size ∣ (xs.take n).length := by rwa [hlen]
    have hsplit := hf.append (xs.take n) (xs.drop n) hdvd
    have hflen := hf.length_eq (xs.take n) hdvd
    rw [List.take_append_drop] at hsplit
    rw [hsplit, List.take_left' (hflen.trans hlen), List.drop_left' (hflen.trans hlen)]
    exact ⟨rfl, rfl⟩

theorem toChunks_comm (hf : Piecewise size f) (hn : size ∣ n) (xs : List α) (hwhole : size ∣ xs.length) :
    (f xs).toChunks n = (xs.toChunks n).map f := by
  by_cases hne : xs = []
  · rw [hne, hf.nil, toChunks_nil, toChunks_nil]
    rfl
  · have hfne : f xs ≠ [] := by
      intro h
      have hlen := hf.length_eq xs hwhole
      rw [h, List.length_nil] at hlen
      exact hne (List.length_eq_zero_iff.1 hlen.symm)
    rcases Nat.eq_zero_or_pos n with rfl | hpos
    · rw [toChunks_zero hne, toChunks_zero hfne]
      rfl
    · have hdrop : size ∣ (xs.drop n).length := by
        rw [List.length_drop]
        exact Nat.dvd_sub hwhole hn
      obtain ⟨htake, hrest⟩ := hf.take_drop hn hwhole
      have hless : (xs.drop n).length < xs.length := by
        have hlen := List.length_pos_iff.2 hne
        rw [List.length_drop]
        omega
      rw [toChunks_eq hpos hne, toChunks_eq hpos hfne, htake, hrest, toChunks_comm hf hn _ hdrop, List.map_cons]
termination_by xs.length

end Pieces

end Chunks
