import Mathlib.Data.List.Infix
import Kanade.Concur.Runs

/-!
# Concur.Stages

What an observer sees of a run that stops halfway: `obs` of the state after a part of the steps.

* `ChangesOnce`: at most one step of the run changes what is seen.
* `stage_of_changesOnce`: then every stage looks like the first or like the last.
* `changesOnce_of_stages`: the converse, for steps that each have a part of what is seen to
  themselves.
-/

namespace Concur

variable {σ α ι ω : Type} (next : α → σ → σ)

/-- At most one step changes what is seen. -/
def ChangesOnce (obs : σ → ω) : List α → σ → Prop
  | [], _ => True
  | a :: as, s =>
    (obs (next a s) ≠ obs s → Each next (fun a s => obs (next a s) = obs s) as (next a s)) ∧
      ChangesOnce obs as (next a s)

variable {next}

section Stages

variable {obs : σ → ω}

theorem obs_of_unchanged {as : List α} :
    ∀ {s : σ}, Each next (fun a s => obs (next a s) = obs s) as s →
      ∀ bs, bs <+: as → obs (runAll next bs s) = obs s := by
  induction as with
  | nil =>
    intro s _ bs hbs
    rw [List.prefix_nil.1 hbs]
    rfl
  | cons a as ih =>
    intro s h bs hbs
    obtain rfl | ⟨cs, rfl, hcs⟩ := List.prefix_cons_iff.1 hbs
    · rfl
    · exact (ih h.2 cs hcs).trans h.1

theorem unchanged_of_obs {as : List α} :
    ∀ {s : σ}, (∀ bs, bs <+: as → obs (runAll next bs s) = obs s) →
      Each next (fun a s => obs (next a s) = obs s) as s := by
  induction as with
  | nil => intro s _; trivial
  | cons a as ih =>
    intro s h
    have ha : obs (next a s) = obs s := h [a] (List.cons_prefix_cons.2 ⟨rfl, List.nil_prefix⟩)
    refine ⟨ha, ih fun bs hbs => ?_⟩
    exact (h (a :: bs) (List.cons_prefix_cons.2 ⟨rfl, hbs⟩)).trans ha.symm

theorem stage_of_changesOnce {as : List α} :
    ∀ {s : σ}, ChangesOnce next obs as s → ∀ bs, bs <+: as →
      obs (runAll next bs s) = obs s ∨ obs (runAll next bs s) = obs (runAll next as s) := by
  induction as with
  | nil =>
    intro s _ bs hbs
    rw [List.prefix_nil.1 hbs]
    exact .inl rfl
  | cons a as ih =>
    intro s h bs hbs
    obtain rfl | ⟨cs, rfl, hcs⟩ := List.prefix_cons_iff.1 hbs
    · exact .inl rfl
    · by_cases ha : obs (next a s) = obs s
      · rw [← ha]
        exact ih h.2 cs hcs
      · have hrest := obs_of_unchanged (h.1 ha)
        exact .inr ((hrest cs hcs).trans (hrest as List.prefix_rfl).symm)

end Stages

/-! ## Steps with parts of their own -/

section Parts

variable {obs : σ → ι → ω} {owns : α → ι → Prop}

theorem runAll_frame (hframe : ∀ a s i, ¬ owns a i → obs (next a s) i = obs s i) {i : ι}
    {as : List α} : ∀ {s : σ}, (∀ a ∈ as, ¬ owns a i) → obs (runAll next as s) i = obs s i := by
  induction as with
  | nil => intro s _; rfl
  | cons a as ih =>
    intro s h
    exact (ih fun b hb => h b (List.mem_cons_of_mem _ hb)).trans (hframe a s i (h a (by simp)))

theorem changesOnce_of_stages (hframe : ∀ a s i, ¬ owns a i → obs (next a s) i = obs s i)
    {as : List α} :
    ∀ {s : σ}, as.Pairwise (fun a b => ∀ i, owns a i → ¬ owns b i) →
      (∀ bs, bs <+: as →
        obs (runAll next bs s) = obs s ∨ obs (runAll next bs s) = obs (runAll next as s)) →
      ChangesOnce next obs as s := by
  induction as with
  | nil => intro s _ _; trivial
  | cons a as ih =>
    intro s hparts h
    obtain ⟨ha, hparts⟩ := List.pairwise_cons.1 hparts
    -- what `a` changes stays changed, so all later stages look like the last
    have hlast : obs (next a s) ≠ obs s → ∀ bs, bs <+: as →
        obs (runAll next bs (next a s)) = obs (runAll next as (next a s)) := by
      intro hne bs hbs
      obtain ⟨i, hi⟩ := Function.ne_iff.1 hne
      have howns : owns a i := by
        by_contra hnot
        exact hi (hframe a s i hnot)
      have hkept : obs (runAll next bs (next a s)) i = obs (next a s) i :=
        runAll_frame hframe fun b hb => ha b (hbs.subset hb) i howns
      obtain hfirst | hfinal := h (a :: bs) (List.cons_prefix_cons.2 ⟨rfl, hbs⟩)
      · exact absurd (hkept.symm.trans (congrFun hfirst i)) hi
      · exact hfinal
    constructor
    · intro hne
      refine unchanged_of_obs fun bs hbs => ?_
      exact (hlast hne bs hbs).trans (hlast hne [] List.nil_prefix).symm
    · refine ih hparts fun bs hbs => ?_
      by_cases hsame : obs (next a s) = obs s
      · rw [hsame]
        exact h (a :: bs) (List.cons_prefix_cons.2 ⟨rfl, hbs⟩)
      · exact .inr (hlast hsame bs hbs)

/-! ### Steps by themselves -/

variable {I : σ → Prop} {ok : α → Prop}
  (hframe : ∀ a s i, ¬ owns a i → obs (next a s) i = obs s i)
  (hlocal : ∀ a s s' i, ok a → I s → I s' → owns a i → obs s i = obs s' i →
    obs (next a s) i = obs (next a s') i)

include hframe hlocal

theorem unchanged_iff {a : α} {s s' : σ} (ha : ok a) (hs : I s) (hs' : I s')
    (hown : ∀ i, owns a i → obs s i = obs s' i) :
    obs (next a s) = obs s ↔ obs (next a s') = obs s' := by
  have hpart : ∀ {s s'}, I s → I s' → (∀ i, owns a i → obs s i = obs s' i) →
      obs (next a s) = obs s → obs (next a s') = obs s' := by
    intro s s' hs hs' hown h
    funext i
    by_cases hi : owns a i
    · rw [← hlocal a s s' i ha hs hs' hi (hown i hi), h, hown i hi]
    · exact hframe a s' i hi
  exact ⟨hpart hs hs' hown, hpart hs' hs fun i hi => (hown i hi).symm⟩

theorem each_unchanged_iff (hkeep : ∀ a s, ok a → I s → I (next a s)) {s₀ : σ} (hs₀ : I s₀)
    {as : List α} :
    ∀ {s : σ}, I s → (∀ a ∈ as, ok a) →
      (∀ a ∈ as, ∀ i, owns a i → obs s i = obs s₀ i) →
      as.Pairwise (fun a b => ∀ i, owns a i → ¬ owns b i) →
      (Each next (fun a s => obs (next a s) = obs s) as s ↔
        ∀ a ∈ as, obs (next a s₀) = obs s₀) := by
  induction as with
  | nil => intro s _ _ _ _; simp [Each]
  | cons a as ih =>
    intro s hs hok hown hparts
    obtain ⟨ha, hparts⟩ := List.pairwise_cons.1 hparts
    rw [List.forall_mem_cons, Each,
      unchanged_iff hframe hlocal (hok a (by simp)) hs hs₀ (hown a (by simp)),
      ih (hkeep a s (hok a (by simp)) hs) (fun b hb => hok b (List.mem_cons_of_mem _ hb)) ?_ hparts]
    intro b hb i hi
    rw [hframe a s i fun hai => ha b hb i hai hi]
    exact hown b (List.mem_cons_of_mem _ hb) i hi

/-- With parts of their own, the steps change in their turn what they change by themselves. -/
theorem changesOnce_iff_pairwise (hkeep : ∀ a s, ok a → I s → I (next a s)) {s₀ : σ} (hs₀ : I s₀)
    {as : List α} :
    ∀ {s : σ}, I s → (∀ a ∈ as, ok a) →
      (∀ a ∈ as, ∀ i, owns a i → obs s i = obs s₀ i) →
      as.Pairwise (fun a b => ∀ i, owns a i → ¬ owns b i) →
      (ChangesOnce next obs as s ↔
        as.Pairwise fun a b => obs (next a s₀) = obs s₀ ∨ obs (next b s₀) = obs s₀) := by
  induction as with
  | nil => intro s _ _ _ _; simp [ChangesOnce]
  | cons a as ih =>
    intro s hs hok hown hparts
    obtain ⟨ha, hparts'⟩ := List.pairwise_cons.1 hparts
    have hs' : I (next a s) := hkeep a s (hok a (by simp)) hs
    have hok' : ∀ b ∈ as, ok b := fun b hb => hok b (List.mem_cons_of_mem _ hb)
    have hown' : ∀ b ∈ as, ∀ i, owns b i → obs (next a s) i = obs s₀ i := by
      intro b hb i hi
      rw [hframe a s i fun hai => ha b hb i hai hi]
      exact hown b (List.mem_cons_of_mem _ hb) i hi
    rw [List.pairwise_cons, ChangesOnce, ih hs' hok' hown' hparts',
      each_unchanged_iff hframe hlocal hkeep hs₀ hs' hok' hown' hparts', ne_eq,
      unchanged_iff hframe hlocal (hok a (by simp)) hs hs₀ (hown a (by simp))]
    refine and_congr_left fun _ => ?_
    constructor
    · intro h b hb
      by_cases hsame : obs (next a s₀) = obs s₀
      · exact .inl hsame
      · exact .inr (h hsame b hb)
    · intro h hchanged b hb
      exact (h b hb).resolve_left hchanged

end Parts

end Concur
