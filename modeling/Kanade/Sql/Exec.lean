import Mathlib.Logic.Basic

/-!
# Sql.Exec

Code that sends statements to a database `σ`, one after the other, and stops at the first that fails.

* `Exec`: such code, as a function from the database to a result and the database it leaves. A
  statement that fails changes nothing; what the statements before it did stays.
* `Exec.transaction`: code whose failure undoes all that it did.
* `Exec.Keeps`: code that leaves a part of the database alone.
* `Exec.Preserves`: code that keeps an invariant, whether or not it fails.
-/

namespace Sql

/-- The result of the code and the database it leaves. -/
def Exec (σ α : Type) : Type := σ → Except String α × σ

namespace Exec

variable {σ α β : Type}

instance : Monad (Exec σ) where
  pure a := fun s => (.ok a, s)
  bind x f := fun s =>
    match x s with
    | (.ok a, s') => f a s'
    | (.error e, s') => (.error e, s')

/-- A query, or the application's own work on what was read. -/
def query (f : σ → Except String α) : Exec σ α := fun s => (f s, s)

/-- A statement that changes the database. -/
def execute (f : σ → Except String σ) : Exec σ Unit := fun s =>
  match f s with
  | .ok s' => (.ok (), s')
  | .error e => (.error e, s)

def fail (msg : String) : Exec σ α := fun s => (.error msg, s)

/-- Committed if it succeeds, rolled back if not. -/
def transaction (x : Exec σ α) : Exec σ α := fun s =>
  match x s with
  | (.ok a, s') => (.ok a, s')
  | (.error e, _) => (.error e, s)

/-- `let _ = ..`: what the code did, whether or not it failed. -/
def ignore (x : Exec σ α) : Exec σ Unit := fun s => (.ok (), (x s).2)

variable {s s' : σ} {x : Exec σ α} {f : α → Exec σ β} {a : α} {e : String}

@[simp] theorem pure_apply : (pure a : Exec σ α) s = (.ok a, s) := rfl

@[simp] theorem fail_apply : (fail e : Exec σ α) s = (.error e, s) := rfl

theorem bind_ok (h : x s = (.ok a, s')) : (x >>= f) s = f a s' := by
  simp only [bind, h]

theorem bind_error (h : x s = (.error e, s')) : (x >>= f) s = (.error e, s') := by
  simp only [bind, h]

theorem of_bind_ok {b : β} (h : (x >>= f) s = (.ok b, s')) :
    ∃ a s₁, x s = (.ok a, s₁) ∧ f a s₁ = (.ok b, s') := by
  rcases hrun : x s with ⟨e | a, s₁⟩
  · rw [bind_error hrun] at h
    cases h
  · rw [bind_ok hrun] at h
    exact ⟨a, s₁, rfl, h⟩

theorem query_apply {q : σ → Except String α} : query q s = (q s, s) := rfl

theorem bind_query (g : σ → α) : ((query fun s => .ok (g s)) >>= f) s = f (g s) s :=
  bind_ok query_apply

theorem bind_execute (g : σ → σ) {f : Unit → Exec σ β} :
    ((execute fun s => .ok (g s)) >>= f) s = f () (g s) := rfl

theorem bind_ignore {f : Unit → Exec σ β} : (ignore x >>= f) s = f () (x s).2 := rfl

theorem execute_ok {q : σ → Except String σ} (h : q s = .ok s') : execute q s = (.ok (), s') := by
  rw [execute, h]

theorem execute_error {q : σ → Except String σ} (h : q s = .error e) :
    execute q s = (.error e, s) := by
  rw [execute, h]

theorem transaction_ok (h : x s = (.ok a, s')) : transaction x s = (.ok a, s') := by
  rw [transaction, h]

theorem transaction_error (h : x s = (.error e, s')) : transaction x s = (.error e, s) := by
  rw [transaction, h]

/-! ## What code leaves alone -/

/-- The part `g` of the database is the same afterwards. -/
def Keeps {γ : Type} (g : σ → γ) (x : Exec σ α) : Prop := ∀ s, g (x s).2 = g s

section Keeps

variable {γ : Type} {g : σ → γ}

theorem Keeps.pure (a : α) : Keeps g (pure a : Exec σ α) := fun _ => rfl

theorem Keeps.fail (msg : String) : Keeps g (fail msg : Exec σ α) := fun _ => rfl

theorem Keeps.query (q : σ → Except String α) : Keeps g (query q) := fun _ => rfl

theorem Keeps.execute {q : σ → Except String σ} (h : ∀ s s', q s = .ok s' → g s' = g s) :
    Keeps g (execute q) := by
  intro s
  cases hq : q s with
  | ok s' => rw [execute_ok hq, h s s' hq]
  | error e => rw [execute_error hq]

theorem Keeps.bind (hx : Keeps g x) (hf : ∀ a, Keeps g (f a)) : Keeps g (x >>= f) := by
  intro s
  rcases hrun : x s with ⟨a | a, s'⟩
  · rw [bind_error hrun, ← hx s, hrun]
  · rw [bind_ok hrun, hf, ← hx s, hrun]

theorem Keeps.transaction (hx : Keeps g x) : Keeps g (transaction x) := by
  intro s
  rcases hrun : x s with ⟨a | a, s'⟩
  · rw [transaction_error hrun]
  · rw [transaction_ok hrun, ← hx s, hrun]

theorem Keeps.ignore (hx : Keeps g x) : Keeps g (ignore x) := hx

end Keeps

/-! ## Invariants -/

/-- Where the invariant held before the code, it holds after it. -/
def Preserves (I : σ → Prop) (x : Exec σ α) : Prop := ∀ s, I s → I (x s).2

section Preserves

variable {I : σ → Prop}

theorem Preserves.pure (a : α) : Preserves I (pure a : Exec σ α) := fun _ h => h

theorem Preserves.fail (msg : String) : Preserves I (fail msg : Exec σ α) := fun _ h => h

theorem Preserves.query (q : σ → Except String α) : Preserves I (query q) := fun _ h => h

theorem Preserves.execute {q : σ → Except String σ} (h : ∀ s s', I s → q s = .ok s' → I s') :
    Preserves I (execute q) := by
  intro s hs
  cases hq : q s with
  | ok s' =>
    rw [execute_ok hq]
    exact h s s' hs hq
  | error e =>
    rw [execute_error hq]
    exact hs

theorem Preserves.bind (hx : Preserves I x) (hf : ∀ a, Preserves I (f a)) :
    Preserves I (x >>= f) := by
  intro s hs
  have hmid := hx s hs
  rcases hrun : x s with ⟨e | a, s₁⟩
  · rw [bind_error hrun]
    rwa [hrun] at hmid
  · rw [bind_ok hrun]
    rw [hrun] at hmid
    exact hf a s₁ hmid

theorem Preserves.ignore (hx : Preserves I x) : Preserves I (ignore x) := hx

end Preserves

end Exec

end Sql
