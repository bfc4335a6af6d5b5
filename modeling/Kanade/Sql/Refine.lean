import Kanade.Sql.Exec

/-!
# Sql.Refine

Code on a database that holds more, and the same code on the part that is looked at.

* `Exec.within`: code on a part of the database.
* `Exec.Refines`: in every database with the invariant the code has the result of the other code, and
  leaves its database and the invariant.
* One rule for each way to put code together: `Refines.bind`, `Refines.transaction` and so on. A
  statement refines another if it fails exactly where that one does: `Refines.execute`.
-/

namespace Sql

namespace Exec

variable {σ τ α β : Type}

/-- Code on the part of the database that `get` reads and `put` writes. -/
def within (get : σ → τ) (put : τ → σ → σ) (x : Exec τ α) : Exec σ α := fun s =>
  ((x (get s)).1, put (x (get s)).2 s)

/-- `g` is the part that is looked at. -/
def Refines (g : σ → τ) (I : σ → Prop) (x : Exec σ α) (y : Exec τ α) : Prop :=
  ∀ s, I s → (x s).1 = (y (g s)).1 ∧ g (x s).2 = (y (g s)).2 ∧ I (x s).2

namespace Refines

variable {g : σ → τ} {I : σ → Prop} {x : Exec σ α} {y : Exec τ α}

theorem pure (a : α) : Refines g I (pure a : Exec σ α) (pure a) := fun _ hs => ⟨rfl, rfl, hs⟩

theorem fail (msg : String) : Refines g I (fail msg : Exec σ α) (fail msg) := fun _ hs => ⟨rfl, rfl, hs⟩

theorem query {q : σ → Except String α} {q' : τ → Except String α} (h : ∀ s, I s → q s = q' (g s)) :
    Refines g I (query q) (query q') := fun s hs => ⟨h s hs, rfl, hs⟩

/-- A statement that fails where the other does, with its message, and succeeds where that does. -/
theorem execute {q : σ → Except String σ} {q' : τ → Except String τ}
    (herror : ∀ s e, I s → q' (g s) = .error e → q s = .error e)
    (hok : ∀ s t, I s → q' (g s) = .ok t → ∃ s', q s = .ok s' ∧ g s' = t ∧ I s') :
    Refines g I (execute q) (execute q') := by
  intro s hs
  cases hq : q' (g s) with
  | error e =>
    rw [execute_error hq, execute_error (herror s e hs hq)]
    exact ⟨rfl, rfl, hs⟩
  | ok t =>
    obtain ⟨s', hs', ht, hI⟩ := hok s t hs hq
    rw [execute_ok hq, execute_ok hs']
    exact ⟨rfl, ht, hI⟩

theorem bind {f : α → Exec σ β} {f' : α → Exec τ β} (hx : Refines g I x y)
    (hf : ∀ a, Refines g I (f a) (f' a)) : Refines g I (x >>= f) (y >>= f') := by
  intro s hs
  obtain ⟨hresult, hpart, hI⟩ := hx s hs
  rcases hrun : x s with ⟨e | a, s₁⟩
  · rw [hrun] at hresult hpart hI
    have hother : y (g s) = (.error e, (y (g s)).2) := Prod.ext hresult.symm rfl
    rw [bind_error hrun, bind_error hother]
    exact ⟨rfl, hpart, hI⟩
  · rw [hrun] at hresult hpart hI
    have hother : y (g s) = (.ok a, g s₁) := Prod.ext hresult.symm hpart.symm
    rw [bind_ok hrun, bind_ok hother]
    exact hf a s₁ hI

theorem ignore (hx : Refines g I x y) : Refines g I (ignore x) (ignore y) :=
  fun s hs => ⟨rfl, (hx s hs).2⟩

theorem transaction (hx : Refines g I x y) : Refines g I (transaction x) (transaction y) := by
  intro s hs
  obtain ⟨hresult, hpart, hI⟩ := hx s hs
  rcases hrun : x s with ⟨e | a, s₁⟩
  · rw [hrun] at hresult
    have hother : y (g s) = (.error e, (y (g s)).2) := Prod.ext hresult.symm rfl
    rw [transaction_error hrun, transaction_error hother]
    exact ⟨rfl, rfl, hs⟩
  · rw [hrun] at hresult hpart hI
    have hother : y (g s) = (.ok a, g s₁) := Prod.ext hresult.symm hpart.symm
    rw [transaction_ok hrun, transaction_ok hother]
    exact ⟨rfl, rfl, hI⟩

/-- Code on the part itself, where it leaves alone what the invariant reads of it. -/
theorem within {γ : Type} {put : τ → σ → σ} {r : τ → γ} (hput : ∀ t s, g (put t s) = t)
    (hI : ∀ t s, I s → r t = r (g s) → I (put t s)) (hy : Keeps r y) : Refines g I (within g put y) y :=
  fun s hs => ⟨rfl, hput _ s, hI _ s hs (hy (g s))⟩

end Refines

end Exec

end Sql
