import Kanade.Concur.Fallible

/-!
# Concur.Lift

Tasks over a component of a larger state.

* `Lens`: a component that can be read and replaced.
* `Task.lift`: the task over the component as a task over the larger state, its sections relabelled;
  `run_lift` is what it does alone, `Follows.lift` what it does in the program logic: a protocol of
  the component carries over along a simulation of phases.
* `Task.headed`: the task with another label on its first section.
-/

namespace Concur

/-- A component `σ` of `τ`. -/
structure Lens (τ σ : Type) : Type where
  get : τ → σ
  set : σ → τ → τ
  get_set : ∀ s t, get (set s t) = s
  set_get : ∀ t, set (get t) t = t
  set_set : ∀ s s' t, set s (set s' t) = set s t

/-- The whole state as a component of itself. -/
def Lens.whole (σ : Type) : Lens σ σ where
  get s := s
  set s _ := s
  get_set _ _ := rfl
  set_get _ := rfl
  set_set _ _ _ := rfl

namespace Task

variable {σ τ ℓ ℓ' ε ρ α β η φ φ' : Type}

def lift (L : Lens τ σ) (lab : ℓ → ℓ') : Task σ ℓ ε ρ α → Task τ ℓ' ε ρ α
  | .done a => .done a
  | .sect l upd next =>
    .sect (fun t => lab (l (L.get t))) (fun t => L.set (upd (L.get t)) t)
      fun t => (next (L.get t)).lift L lab
  | .call e next => .call e fun r => (next r).lift L lab

def headed (l' : ℓ) : Task σ ℓ ε ρ α → Task σ ℓ ε ρ α
  | .done a => .done a
  | .sect _ upd next => .sect (fun _ => l') upd next
  | .call e next => .call e fun r => (next r).headed l'

theorem lift_bind (L : Lens τ σ) (lab : ℓ → ℓ') (t : Task σ ℓ ε ρ α) (f : α → Task σ ℓ ε ρ β) :
    (t.bind f).lift L lab = (t.lift L lab).bind fun a => (f a).lift L lab := by
  induction t with
  | done a => rfl
  | sect l upd next ih => simp only [bind, lift, ih]
  | call e next ih => simp only [bind, lift, ih]

theorem run_lift (env : Env η ε ρ) (L : Lens τ σ) (lab : ℓ → ℓ') (t : Task σ ℓ ε ρ α) :
    ∀ (s : τ) (x : η), (t.lift L lab).run env s x =
      ((t.run env (L.get s) x).1, L.set (t.run env (L.get s) x).2.1 s,
        (t.run env (L.get s) x).2.2) := by
  induction t with
  | done a => intro s x; simp [lift, run, L.set_get]
  | sect l upd next ih =>
    intro s x
    simp only [lift, run]
    rw [ih, L.get_set, L.set_set]
  | call e next ih => intro s x; exact ih _ s _

theorem run_headed (env : Env η ε ρ) (l' : ℓ) (t : Task σ ℓ ε ρ α) :
    ∀ (s : σ) (x : η), (t.headed l').run env s x = t.run env s x := by
  induction t with
  | done a => intro s x; rfl
  | sect l upd next _ => intro s x; rfl
  | call e next ih => intro s x; exact ih _ s _

/-- A lifted task follows every protocol that simulates the one it follows below: `T` relates the
phases, and what the sections and calls below respect the protocol above asks no more of. -/
theorem Follows.lift {P : Protocol σ ℓ ε ρ φ} {G : Protocol τ ℓ' ε ρ φ'} {L : Lens τ σ}
    {lab : ℓ → ℓ'} {T : φ → φ' → Prop} {Q : φ → α → Prop}
    (hrely : ∀ p p' l t, T p p' → G.rely p' (lab l) t → P.rely p l (L.get t))
    (hsect : ∀ p p' l t s, T p p' → G.rely p' (lab l) t → P.sectOk p l (L.get t) s →
      G.sectOk p' (lab l) t (L.set s t) ∧
        T (P.onSect p l (L.get t) s) (G.onSect p' (lab l) t (L.set s t)))
    (hcall : ∀ p p' e, T p p' → P.callOk p e →
      G.callOk p' e ∧ ∀ r, T (P.onCall p e r) (G.onCall p' e r))
    {t : Task σ ℓ ε ρ α} :
    ∀ {p : φ} {p' : φ'}, T p p' → Follows P Q p t →
      Follows G (fun q' a => ∃ q, T q q' ∧ Q q a) p' (t.lift L lab) := by
  induction t with
  | done a => intro p p' hrel h; exact ⟨p, hrel, h⟩
  | sect l upd next ih =>
    intro p p' hrel h s hs
    obtain ⟨hok, hnext⟩ := h (L.get s) (hrely p p' _ s hrel hs)
    obtain ⟨hok', hrel'⟩ := hsect p p' _ s _ hrel hs hok
    exact ⟨hok', ih _ hrel' hnext⟩
  | call e next ih =>
    intro p p' hrel h
    obtain ⟨hok, hrel'⟩ := hcall p p' e hrel h.1
    exact ⟨hok, fun r => ih r (hrel' r) (h.2 r)⟩

end Task

namespace Fallible

variable {σ τ ℓ ℓ' ε err α β η : Type}

/-- `Task.lift` for a fallible task. -/
def lift (L : Lens τ σ) (lab : ℓ → ℓ') (t : Fallible σ ℓ ε err α) : Fallible τ ℓ' ε err α :=
  Task.lift L lab t

/-- `Task.headed` for a fallible task. -/
def headed (l' : ℓ) (t : Fallible σ ℓ ε err α) : Fallible σ ℓ ε err α := Task.headed l' t

section Lift

variable (L : Lens τ σ) (lab : ℓ → ℓ')

theorem lift_bind (t : Fallible σ ℓ ε err α) (f : α → Fallible σ ℓ ε err β) :
    (t >>= f).lift L lab = t.lift L lab >>= fun a => (f a).lift L lab := by
  refine (Task.lift_bind L lab t _).trans (congrArg (Task.bind (Task.lift L lab t)) ?_)
  funext r
  cases r <;> rfl

@[simp] theorem run_lift (env : Env η ε (Except err Unit)) (t : Fallible σ ℓ ε err α) (s : τ)
    (x : η) :
    (t.lift L lab).run env s x =
      ((t.run env (L.get s) x).1, L.set (t.run env (L.get s) x).2.1 s,
        (t.run env (L.get s) x).2.2) := Task.run_lift env L lab t s x

end Lift

@[simp] theorem run_headed (env : Env η ε (Except err Unit)) (l' : ℓ) (t : Fallible σ ℓ ε err α)
    (s : σ) (x : η) : (t.headed l').run env s x = t.run env s x := Task.run_headed env l' t s x

end Fallible

end Concur
