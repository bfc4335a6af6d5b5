import Mathlib.Data.List.Basic
import Mathlib.Logic.Basic

/-!
# Concur.Runs

Runs: a list of steps taken one after the other by a function `next`.

* `Each`: a condition on every step in the state it is taken in.
* `runAll_invariant`: an invariant that the steps with the condition keep.
* `runAll_simulates`: runs seen through a part of the state.
* `good_prefixes_iff`: when every other step spoils what is good at once, the runs that are good
  all along are those whose steps all meet the condition.
-/

namespace Concur

variable {σ α : Type}

def runAll (next : α → σ → σ) (as : List α) (s : σ) : σ := as.foldl (fun s a => next a s) s

/-- Every step of the run meets `ok` in the state it is taken in. -/
def Each (next : α → σ → σ) (ok : α → σ → Prop) : List α → σ → Prop
  | [], _ => True
  | a :: as, s => ok a s ∧ Each next ok as (next a s)

instance Each.decidable (next : α → σ → σ) (ok : α → σ → Prop) [∀ a s, Decidable (ok a s)] :
    ∀ (as : List α) (s : σ), Decidable (Each next ok as s)
  | [], _ => isTrue trivial
  | a :: as, s =>
    have := Each.decidable next ok as (next a s)
    inferInstanceAs (Decidable (ok a s ∧ Each next ok as (next a s)))

variable {next : α → σ → σ} {ok adm : α → σ → Prop} {I G : σ → Prop}

theorem runAll_append (as bs : List α) (s : σ) :
    runAll next (as ++ bs) s = runAll next bs (runAll next as s) := List.foldl_append

theorem Each.of_append {as bs : List α} :
    ∀ {s : σ}, Each next ok (as ++ bs) s → Each next ok as s := by
  induction as with
  | nil => intro s _; trivial
  | cons a as ih => intro s h; exact ⟨h.1, ih h.2⟩

theorem each_true (as : List α) : ∀ s : σ, Each next (fun _ _ => True) as s := by
  induction as with
  | nil => intro s; trivial
  | cons a as ih => intro s; exact ⟨trivial, ih _⟩

/-- What the steps with the condition keep holds at the end. -/
theorem runAll_invariant (hstep : ∀ a s, ok a s → I s → I (next a s)) {as : List α} :
    ∀ {s : σ}, Each next ok as s → I s → I (runAll next as s) := by
  induction as with
  | nil => intro s _ hI; exact hI
  | cons a as ih => intro s hok hI; exact ih hok.2 (hstep a s hok.1 hI)

/-- What every step keeps holds at the end. -/
theorem runAll_keeps (hstep : ∀ a s, I s → I (next a s)) (as : List α) :
    ∀ {s : σ}, I s → I (runAll next as s) := by
  induction as with
  | nil => intro s hI; exact hI
  | cons a as ih => intro s hI; exact ih (hstep a s hI)

/-- Steps that do to the part `g` what other steps do take whole runs to whole runs. -/
theorem runAll_simulates {τ : Type} {next' : α → τ → τ} {g : σ → τ}
    (hstep : ∀ a s, I s → g (next a s) = next' a (g s) ∧ I (next a s)) (as : List α) :
    ∀ {s : σ}, I s → g (runAll next as s) = runAll next' as (g s) ∧ I (runAll next as s) := by
  induction as with
  | nil => intro s hI; exact ⟨rfl, hI⟩
  | cons a as ih =>
    intro s hI
    obtain ⟨hpart, hnext⟩ := hstep a s hI
    have hrest := ih hnext
    rw [hpart] at hrest
    exact hrest

/-- An invariant that is good, kept by the steps with the condition, and whose goodness every
other step spoils. -/
theorem good_prefixes_iff (hgood : ∀ s, I s → G s)
    (hkeep : ∀ a s, I s → adm a s → ok a s → I (next a s))
    (hspoil : ∀ a s, I s → adm a s → ¬ ok a s → ¬ G (next a s)) {as : List α} :
    ∀ {s : σ}, I s → Each next adm as s →
      ((∀ bs, bs <+: as → G (runAll next bs s)) ↔ Each next ok as s) := by
  induction as with
  | nil =>
    intro s hI _
    refine iff_of_true (fun bs hbs => ?_) trivial
    rw [List.prefix_nil.1 hbs]
    exact hgood s hI
  | cons a as ih =>
    intro s hI hadm
    constructor
    · intro h
      have hok : ok a s := by
        by_contra hn
        exact hspoil a s hI hadm.1 hn (h [a] (List.prefix_cons_iff.2 (.inr ⟨[], rfl, by simp⟩)))
      refine ⟨hok, (ih (hkeep a s hI hadm.1 hok) hadm.2).1 fun bs hbs => ?_⟩
      exact h (a :: bs) (List.cons_prefix_cons.2 ⟨rfl, hbs⟩)
    · intro h bs hbs
      obtain rfl | ⟨cs, rfl, hcs⟩ := List.prefix_cons_iff.1 hbs
      · exact hgood s hI
      · exact (ih (hkeep a s hI hadm.1 h.1) hadm.2).2 h.2 cs hcs

end Concur
