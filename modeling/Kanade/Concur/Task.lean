import Mathlib.Logic.Function.Basic

/-!
# Concur.Task

Tasks that share a state. A task is a program of *sections*, each of which reads and rewrites the
shared state in one atomic step (a critical section), and of *calls* to the outside, each of
which gets an answer. Nothing here says what the state, the calls or the answers are.

* `Task.run`: the task alone, from a state, against an environment that answers its calls.
* `Task.Always`: what holds when the task has run alone, whatever its calls are answered.
  `always_iff_run` says that it is about all environments.
* `Protocol`, `Task.Follows`: the program logic of tasks. A protocol gives a task a ghost phase
  that its sections and calls move, says what a section may rely on and what sections and calls
  must respect; `Follows` is the weakest precondition of a task for a protocol.
* `Follows.run`: the run lemma of the logic for a task alone.
* `run_guarantee`: a preorder that holds across every section relates the two ends of a run.
-/

namespace Concur

/-- A task over shared state `σ`: sections labelled in `ℓ`, calls `ε` answered in `ρ`, result
`α`. A section that meets the state `s` leaves `upd s` and goes on as `next s`. -/
inductive Task (σ ℓ ε ρ α : Type) : Type where
  | done (a : α)
  | sect (lab : σ → ℓ) (upd : σ → σ) (next : σ → Task σ ℓ ε ρ α)
  | call (e : ε) (next : ρ → Task σ ℓ ε ρ α)

/-- An environment with memory `η` that answers calls. -/
abbrev Env (η ε ρ : Type) := η → ε → ρ × η

namespace Task

variable {σ ℓ ε ρ α β η : Type}

def bind : Task σ ℓ ε ρ α → (α → Task σ ℓ ε ρ β) → Task σ ℓ ε ρ β
  | .done a, f => f a
  | .sect lab upd next, f => .sect lab upd fun s => (next s).bind f
  | .call e next, f => .call e fun r => (next r).bind f

/-- The task alone: its result, the state and the environment's memory at the end. -/
def run (env : Env η ε ρ) : Task σ ℓ ε ρ α → σ → η → α × σ × η
  | .done a, s, x => (a, s, x)
  | .sect _ upd next, s, x => (next s).run env (upd s) x
  | .call e next, s, x => (next (env x e).1).run env s (env x e).2

theorem run_bind (env : Env η ε ρ) (t : Task σ ℓ ε ρ α) (f : α → Task σ ℓ ε ρ β) :
    ∀ (s : σ) (x : η), (t.bind f).run env s x =
      (f (t.run env s x).1).run env (t.run env s x).2.1 (t.run env s x).2.2 := by
  induction t with
  | done a => intro s x; rfl
  | sect lab upd next ih => intro s x; exact ih s (upd s) x
  | call e next ih => intro s x; exact ih _ s _

theorem bind_assoc {γ : Type} (t : Task σ ℓ ε ρ α) (f : α → Task σ ℓ ε ρ β) (g : β → Task σ ℓ ε ρ γ) :
    (t.bind f).bind g = t.bind fun a => (f a).bind g := by
  induction t with
  | done a => rfl
  | sect lab upd next ih => exact congrArg (Task.sect lab upd) (funext ih)
  | call e next ih => exact congrArg (Task.call e) (funext ih)

/-- The result of a task that has finished. -/
def result? : Task σ ℓ ε ρ α → Option α
  | .done a => some a
  | .sect _ _ _ | .call _ _ => none

/-- `Q` holds of the result and the final state whatever the calls are answered. -/
def Always (Q : α → σ → Prop) : Task σ ℓ ε ρ α → σ → Prop
  | .done a, s => Q a s
  | .sect _ upd next, s => (next s).Always Q (upd s)
  | .call _ next, s => ∀ r, (next r).Always Q s

theorem always_bind {Q : β → σ → Prop} (t : Task σ ℓ ε ρ α) (f : α → Task σ ℓ ε ρ β) :
    ∀ s : σ, (t.bind f).Always Q s ↔ t.Always (fun a s' => (f a).Always Q s') s := by
  induction t with
  | done a => intro s; rfl
  | sect lab upd next ih => intro s; exact ih s (upd s)
  | call e next ih => intro s; exact forall_congr' fun r => ih r s

theorem Always.mono {Q Q' : α → σ → Prop} (hQ : ∀ a s, Q a s → Q' a s) {t : Task σ ℓ ε ρ α} :
    ∀ {s : σ}, t.Always Q s → t.Always Q' s := by
  induction t with
  | done a => intro s h; exact hQ a s h
  | sect lab upd next ih => intro s h; exact ih s h
  | call e next ih => intro s h r; exact ih r (h r)

theorem Always.run {Q : α → σ → Prop} (env : Env η ε ρ) {t : Task σ ℓ ε ρ α} :
    ∀ {s : σ} (x : η), t.Always Q s → Q (t.run env s x).1 (t.run env s x).2.1 := by
  induction t with
  | done a => intro s x h; exact h
  | sect lab upd next ih => intro s x h; exact ih s x h
  | call e next ih => intro s x h; exact ih _ _ (h _)

/-- The environment that reads its answers off a list, and gives `r₀` when it is used up. -/
def scripted (r₀ : ρ) : Env (List ρ) ε ρ := fun rs _ => (rs.headD r₀, rs.tail)

theorem exists_script {Q : α → σ → Prop} (r₀ : ρ) {t : Task σ ℓ ε ρ α} :
    ∀ {s : σ}, ¬ t.Always Q s →
      ∃ rs, ¬ Q (t.run (scripted r₀) s rs).1 (t.run (scripted r₀) s rs).2.1 := by
  induction t with
  | done a => intro s h; exact ⟨[], h⟩
  | sect lab upd next ih => intro s h; exact ih s h
  | call e next ih =>
    intro s h
    obtain ⟨r, hr⟩ := not_forall.1 h
    obtain ⟨rs, hrs⟩ := ih r hr
    exact ⟨r :: rs, hrs⟩

/-- `Always` is about every environment. -/
theorem always_iff_run [Nonempty ρ] {Q : α → σ → Prop} {t : Task σ ℓ ε ρ α} {s : σ} :
    t.Always Q s ↔
      ∀ (η : Type) (env : Env η ε ρ) (x : η), Q (t.run env s x).1 (t.run env s x).2.1 := by
  refine ⟨fun h η env x => h.run env x, fun h => ?_⟩
  by_contra hn
  obtain ⟨rs, hrs⟩ := exists_script (Classical.arbitrary ρ) hn
  exact hrs (h _ _ rs)

end Task

/-- What sections and calls do to a task's ghost phase, what a section may rely on, and what
sections and calls have to respect. A section is judged by its label and by the states before
and after it. -/
structure Protocol (σ ℓ ε ρ φ : Type) where
  onSect : φ → ℓ → σ → σ → φ
  onCall : φ → ε → ρ → φ
  rely : φ → ℓ → σ → Prop
  sectOk : φ → ℓ → σ → σ → Prop
  callOk : φ → ε → Prop

/-- The protocol without phases that asks each section to stay within `R` from states with `I`. -/
def Protocol.within {σ ℓ ε ρ : Type} (I : σ → Prop) (R : σ → σ → Prop) :
    Protocol σ ℓ ε ρ Unit where
  onSect _ _ _ _ := ()
  onCall _ _ _ := ()
  rely _ _ s := I s
  sectOk _ _ s s' := R s s'
  callOk _ _ := True

/-- The protocol without phases that asks each call to be one of `ok`. -/
def Protocol.calls {σ ℓ ε ρ : Type} (ok : ε → Prop) : Protocol σ ℓ ε ρ Unit where
  onSect _ _ _ _ := ()
  onCall _ _ _ := ()
  rely _ _ _ := True
  sectOk _ _ _ _ := True
  callOk _ e := ok e

namespace Task

variable {σ ℓ ε ρ α β η φ : Type} {P : Protocol σ ℓ ε ρ φ}

/-- From phase `p` the task respects `P` and ends in a phase and with a result that satisfy
`Q`, whatever states its sections meet and whatever answers its calls get. -/
def Follows (P : Protocol σ ℓ ε ρ φ) (Q : φ → α → Prop) : φ → Task σ ℓ ε ρ α → Prop
  | p, .done a => Q p a
  | p, .sect lab upd next => ∀ s, P.rely p (lab s) s →
      P.sectOk p (lab s) s (upd s) ∧ Follows P Q (P.onSect p (lab s) s (upd s)) (next s)
  | p, .call e next => P.callOk p e ∧ ∀ r, Follows P Q (P.onCall p e r) (next r)

theorem Follows.mono {Q Q' : φ → α → Prop} (hQ : ∀ p a, Q p a → Q' p a)
    {t : Task σ ℓ ε ρ α} : ∀ {p : φ}, Follows P Q p t → Follows P Q' p t := by
  induction t with
  | done a => intro p h; exact hQ p a h
  | sect lab upd next ih =>
    intro p h s hr
    obtain ⟨hok, hnext⟩ := h s hr
    exact ⟨hok, ih s hnext⟩
  | call e next ih =>
    intro p h
    exact ⟨h.1, fun r => ih r (h.2 r)⟩

theorem follows_bind {Q : φ → β → Prop} (t : Task σ ℓ ε ρ α) (f : α → Task σ ℓ ε ρ β) :
    ∀ {p : φ}, Follows P Q p (t.bind f) ↔ Follows P (fun p' a => Follows P Q p' (f a)) p t := by
  induction t with
  | done a => intro p; rfl
  | sect lab upd next ih =>
    intro p
    simp only [bind, Follows, ih]
  | call e next ih =>
    intro p
    simp only [bind, Follows, ih]

/-- What every section and every call that respects `P` keeps, of phase and state together, holds at
the end of a run. -/
theorem Follows.run {J : φ → σ → Prop} {Q : φ → α → Prop}
    (hrely : ∀ p l s, J p s → P.rely p l s)
    (hsect : ∀ p l s s', J p s → P.sectOk p l s s' → J (P.onSect p l s s') s')
    (hcall : ∀ p e r s, J p s → P.callOk p e → J (P.onCall p e r) s)
    (env : Env η ε ρ) {t : Task σ ℓ ε ρ α} :
    ∀ {p : φ} {s : σ} (x : η), Follows P Q p t → J p s →
      ∃ p', J p' (t.run env s x).2.1 ∧ Q p' (t.run env s x).1 := by
  induction t with
  | done a => intro p s x h hJ; exact ⟨p, hJ, h⟩
  | sect lab upd next ih =>
    intro p s x h hJ
    obtain ⟨hok, hnext⟩ := h s (hrely p _ s hJ)
    exact ih s x hnext (hsect p _ s _ hJ hok)
  | call e next ih =>
    intro p s x h hJ
    exact ih _ _ (h.2 _) (hcall p e _ s hJ h.1)

/-- A relation that is a preorder on the states with `I`, keeps `I` and holds across every
section of the task relates the states at the two ends of a run. -/
theorem run_guarantee {I : σ → Prop} {R : σ → σ → Prop} (hrefl : ∀ s, I s → R s s)
    (htrans : ∀ s s' s'', R s s' → R s' s'' → R s s'') (hinv : ∀ s s', I s → R s s' → I s')
    (env : Env η ε ρ) {t : Task σ ℓ ε ρ α} {Q : Unit → α → Prop} :
    ∀ {s : σ} {x : η}, Follows (Protocol.within I R) Q () t → I s →
      R s (t.run env s x).2.1 ∧ Q () (t.run env s x).1 := by
  induction t with
  | done a => intro s x h hI; exact ⟨hrefl s hI, h⟩
  | sect lab upd next ih =>
    intro s x h hI
    obtain ⟨hR, hnext⟩ := h s hI
    obtain ⟨hR', hQ⟩ := ih s (s := upd s) (x := x) hnext (hinv _ _ hI hR)
    exact ⟨htrans _ _ _ hR hR', hQ⟩
  | call e next ih =>
    intro s x h hI
    exact ih _ (h.2 _) hI

end Task

end Concur
