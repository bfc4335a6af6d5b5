import Kanade.Concur.Task

/-!
# Concur.Fallible

Tasks whose result may be an error, with early exit: `bind` is what `?` does at an `await`. Calls
are answered by success or by an error of the same kind.

* `run_bind`, `follows_bind`: running and the program logic under `bind`.
* `Keeps`: specifications that keep a property of the phase.
* `Within`: every section stays in a relation, with its rules; `Within.run` is what it says of a
  run when the relation is a preorder.
* `Always`: what holds at the end of every run of the task alone, with its rules.
-/

namespace Concur

/-- A task whose calls are answered by `ok` or an error, and which may end in an error. -/
def Fallible (σ ℓ ε err α : Type) : Type := Task σ ℓ ε (Except err Unit) (Except err α)

namespace Fallible

variable {σ ℓ ε err α β η φ : Type}

instance : Monad (Fallible σ ℓ ε err) where
  pure a := .done (.ok a)
  bind t f := Task.bind t fun
    | .ok a => f a
    | .error e => .done (.error e)

theorem pure_bind (a : α) (f : α → Fallible σ ℓ ε err β) : pure a >>= f = f a := rfl

theorem bind_assoc {γ : Type} (t : Fallible σ ℓ ε err α) (f : α → Fallible σ ℓ ε err β)
    (g : β → Fallible σ ℓ ε err γ) : t >>= f >>= g = t >>= fun a => f a >>= g := by
  refine (Task.bind_assoc t _ _).trans (congrArg (Task.bind t) (funext fun r => ?_))
  cases r <;> rfl

theorem bind_pure (t : Fallible σ ℓ ε err α) : t >>= pure = t := by
  unfold Fallible at t
  induction t with
  | done r => cases r <;> rfl
  | sect lab upd next ih => exact congrArg (Task.sect lab upd) (funext ih)
  | call e next ih => exact congrArg (Task.call e) (funext ih)

/-- One section: `f` gives its result and the state it leaves; its label may depend on the state
it meets and on the result. -/
def sect (lab : σ → Except err α → ℓ) (f : σ → Except err α × σ) : Fallible σ ℓ ε err α :=
  Task.sect (fun s => lab s (f s).1) (fun s => (f s).2) (fun s => .done (f s).1)

/-- One call whose failure ends the task. -/
def call (e : ε) : Fallible σ ℓ ε err Unit := Task.call e Task.done

/-- One call whose answer is ignored. -/
def tell (e : ε) : Fallible σ ℓ ε err Unit := Task.call e fun _ => Task.done (.ok ())

def throw (e : err) : Fallible σ ℓ ε err α := Task.done (.error e)

/-- Run `t` and give its result, error or not. -/
def attempt (t : Fallible σ ℓ ε err α) : Fallible σ ℓ ε err (Except err α) :=
  Task.bind t fun r => Task.done (.ok r)

/-- The task alone. -/
def run (env : Env η ε (Except err Unit)) (t : Fallible σ ℓ ε err α) (s : σ) (x : η) :
    Except err α × σ × η :=
  Task.run env t s x

section Run

variable (env : Env η ε (Except err Unit)) (s : σ) (x : η)

@[simp] theorem run_pure (a : α) :
    (pure a : Fallible σ ℓ ε err α).run env s x = (.ok a, s, x) := rfl

@[simp] theorem run_throw (e : err) :
    (throw e : Fallible σ ℓ ε err α).run env s x = (.error e, s, x) := rfl

@[simp] theorem run_sect (lab : σ → Except err α → ℓ) (f : σ → Except err α × σ) :
    (sect lab f : Fallible σ ℓ ε err α).run env s x = ((f s).1, (f s).2, x) := rfl

@[simp] theorem run_tell (e : ε) :
    (tell e : Fallible σ ℓ ε err Unit).run env s x = (.ok (), s, (env x e).2) := rfl

theorem run_bind (t : Fallible σ ℓ ε err α) (f : α → Fallible σ ℓ ε err β) :
    (t >>= f).run env s x =
      match t.run env s x with
      | (.ok a, s', x') => (f a).run env s' x'
      | (.error e, s', x') => (.error e, s', x') := by
  have h := Task.run_bind env t (fun
    | .ok a => f a
    | .error e => (.done (.error e) : Task σ ℓ ε (Except err Unit) (Except err β))) s x
  show Task.run env (Task.bind t _) s x = _
  rw [h]
  unfold Fallible.run
  rcases Task.run env t s x with ⟨_ | a, s', x'⟩ <;> rfl

@[simp] theorem run_attempt (t : Fallible σ ℓ ε err α) :
    t.attempt.run env s x = (.ok (t.run env s x).1, (t.run env s x).2) :=
  Task.run_bind env t _ s x

end Run

section Follows

variable {P : Protocol σ ℓ ε (Except err Unit) φ}

/-- `Task.Follows` for a fallible task. -/
def Follows (P : Protocol σ ℓ ε (Except err Unit) φ) (Q : φ → Except err α → Prop) (p : φ)
    (t : Fallible σ ℓ ε err α) : Prop :=
  Task.Follows P Q p t

@[simp] theorem follows_pure {Q : φ → Except err α → Prop} {p : φ} {a : α} :
    Follows P Q p (pure a : Fallible σ ℓ ε err α) ↔ Q p (.ok a) := Iff.rfl

@[simp] theorem follows_throw {Q : φ → Except err α → Prop} {p : φ} {e : err} :
    Follows P Q p (throw e : Fallible σ ℓ ε err α) ↔ Q p (.error e) := Iff.rfl

theorem follows_sect {Q : φ → Except err α → Prop} {p : φ}
    {lab : σ → Except err α → ℓ} {f : σ → Except err α × σ} :
    Follows P Q p (sect lab f : Fallible σ ℓ ε err α) ↔
      ∀ s, P.rely p (lab s (f s).1) s → P.sectOk p (lab s (f s).1) s (f s).2 ∧
        Q (P.onSect p (lab s (f s).1) s (f s).2) (f s).1 := Iff.rfl

theorem follows_call {Q : φ → Except err Unit → Prop} {p : φ} {e : ε} :
    Follows P Q p (call e : Fallible σ ℓ ε err Unit) ↔
      P.callOk p e ∧ ∀ r, Q (P.onCall p e r) r := Iff.rfl

theorem follows_tell {Q : φ → Except err Unit → Prop} {p : φ} {e : ε} :
    Follows P Q p (tell e : Fallible σ ℓ ε err Unit) ↔
      P.callOk p e ∧ ∀ r, Q (P.onCall p e r) (.ok ()) := Iff.rfl

theorem Follows.mono {Q Q' : φ → Except err α → Prop} {p : φ} {t : Fallible σ ℓ ε err α}
    (h : Follows P Q p t) (hQ : ∀ p a, Q p a → Q' p a) : Follows P Q' p t :=
  Task.Follows.mono hQ h

/-- The weakest precondition under `bind`: an error goes past the rest, a result into it. -/
theorem follows_bind {Q : φ → Except err β → Prop} {p : φ} (t : Fallible σ ℓ ε err α)
    (f : α → Fallible σ ℓ ε err β) :
    Follows P Q p (t >>= f) ↔
      Follows P (fun p' r => match r with
        | .ok a => Follows P Q p' (f a)
        | .error e => Q p' (.error e)) p t := by
  refine (Task.follows_bind (P := P) (Q := Q) (p := p) t _).trans ?_
  constructor
  · refine Task.Follows.mono ?_
    rintro p' (e | a) h <;> exact h
  · refine Task.Follows.mono ?_
    rintro p' (e | a) h <;> exact h

theorem follows_attempt {Q : φ → Except err (Except err α) → Prop} {p : φ}
    (t : Fallible σ ℓ ε err α) :
    Follows P Q p t.attempt ↔ Follows P (fun p' r => Q p' (.ok r)) p t :=
  Task.follows_bind (P := P) (Q := Q) (p := p) t _

/-- Sequencing when the phase of a protocol does not matter for the result. -/
theorem Follows.bind {p : φ} {I : φ → Prop} {t : Fallible σ ℓ ε err α}
    {f : α → Fallible σ ℓ ε err β} (ht : Follows P (fun p' _ => I p') p t)
    (hf : ∀ a p', I p' → Follows P (fun p'' _ => I p'') p' (f a)) :
    Follows P (fun p' _ => I p') p (t >>= f) := by
  rw [follows_bind]
  refine ht.mono ?_
  rintro p' (e | a) h
  · exact h
  · exact hf a p' h

/-! ### Keeping phases

The usual form of a specification: phases with `I` before and after, whatever the result, and a
property of the result. -/

/-- From phases with `I` the task ends in phases with `I`, and with results that have `R`. -/
def Keeps (P : Protocol σ ℓ ε (Except err Unit) φ) (I : φ → Prop) (R : α → Prop)
    (t : Fallible σ ℓ ε err α) : Prop :=
  ∀ p, I p → Follows P (fun p' r => I p' ∧ ∀ a, r = .ok a → R a) p t

section Keeps

variable {I : φ → Prop} {R : α → Prop} {R' : β → Prop} {t : Fallible σ ℓ ε err α}
  {f : α → Fallible σ ℓ ε err β}

theorem keeps_pure {a : α} (h : R a) : Keeps P I R (pure a : Fallible σ ℓ ε err α) :=
  fun _ hp => ⟨hp, fun _ ha => by cases ha; exact h⟩

/-- A task that keeps phases before any other. -/
theorem Keeps.bind_follows {Q : φ → Except err β → Prop} {p : φ} (ht : Keeps P I R t) (hp : I p)
    (herr : ∀ p' e, I p' → Q p' (.error e))
    (hf : ∀ a p', R a → I p' → Follows P Q p' (f a)) : Follows P Q p (t >>= f) := by
  refine (follows_bind t f).2 ((ht p hp).mono ?_)
  rintro p' (e | a) ⟨hp', hR⟩
  · exact herr p' e hp'
  · exact hf a p' (hR a rfl) hp'

theorem Keeps.bind (ht : Keeps P I R t) (hf : ∀ a, R a → Keeps P I R' (f a)) :
    Keeps P I R' (t >>= f) := fun _ hp =>
  ht.bind_follows hp (fun _ _ hp' => ⟨hp', fun _ h => by cases h⟩)
    fun a p' hR hp' => hf a hR p' hp'

theorem Keeps.attempt (ht : Keeps P I R t) :
    Keeps P I (fun r : Except err α => ∀ a, r = .ok a → R a) t.attempt := fun p hp => by
  refine (follows_attempt t).2 ((ht p hp).mono ?_)
  rintro p' r ⟨hp', hR⟩
  exact ⟨hp', fun _ h => by cases h; exact hR⟩

end Keeps

end Follows

/-! ## Staying within a relation -/

/-- From states with `I`, every section of `t` stays in `R`. -/
def Within (I : σ → Prop) (R : σ → σ → Prop) (t : Fallible σ ℓ ε err α) : Prop :=
  Follows (Protocol.within I R) (fun _ _ => True) () t

theorem within_true (I : σ → Prop) (t : Fallible σ ℓ ε err α) : Within I (fun _ _ => True) t := by
  induction t with
  | done a => trivial
  | sect lab upd next ih => exact fun s _ => ⟨trivial, ih s⟩
  | call e next ih => exact ⟨trivial, ih⟩

section Within

variable {I : σ → Prop} {R : σ → σ → Prop}

theorem within_pure (a : α) : Within I R (pure a : Fallible σ ℓ ε err α) := trivial

theorem within_call (e : ε) : Within I R (call e : Fallible σ ℓ ε err Unit) :=
  ⟨trivial, fun _ => trivial⟩

theorem within_tell (e : ε) : Within I R (tell e : Fallible σ ℓ ε err Unit) :=
  ⟨trivial, fun _ => trivial⟩

theorem within_sect {lab : σ → Except err α → ℓ} {f : σ → Except err α × σ}
    (h : ∀ s, I s → R s (f s).2) : Within I R (sect lab f : Fallible σ ℓ ε err α) :=
  fun s hI => ⟨h s hI, trivial⟩

theorem Within.bind {t : Fallible σ ℓ ε err α} {f : α → Fallible σ ℓ ε err β}
    (ht : Within I R t) (hf : ∀ a, Within I R (f a)) : Within I R (t >>= f) :=
  Follows.bind (I := fun _ => True) ht fun a _ _ => hf a

theorem Within.attempt {t : Fallible σ ℓ ε err α} (ht : Within I R t) : Within I R t.attempt :=
  (follows_attempt t).2 ht

/-- A preorder that every section stays in relates the two ends of a run. -/
theorem Within.run {t : Fallible σ ℓ ε err α} (ht : Within I R t) (hrefl : ∀ s, I s → R s s)
    (htrans : ∀ s s' s'', R s s' → R s' s'' → R s s'') (hinv : ∀ s s', I s → R s s' → I s')
    (env : Env η ε (Except err Unit)) {s : σ} (x : η) (hI : I s) : R s (t.run env s x).2.1 :=
  (Task.run_guarantee hrefl htrans hinv env ht hI).1

end Within

/-! ## Every behaviour of the environment -/

/-- `Task.Always` for a fallible task. -/
def Always (Q : Except err α → σ → Prop) (t : Fallible σ ℓ ε err α) (s : σ) : Prop :=
  Task.Always Q t s

section Always

variable {s : σ}

@[simp] theorem always_pure {Q : Except err α → σ → Prop} {a : α} :
    (pure a : Fallible σ ℓ ε err α).Always Q s ↔ Q (.ok a) s := Iff.rfl

@[simp] theorem always_throw {Q : Except err α → σ → Prop} {e : err} :
    (throw e : Fallible σ ℓ ε err α).Always Q s ↔ Q (.error e) s := Iff.rfl

@[simp] theorem always_sect {Q : Except err α → σ → Prop} {lab : σ → Except err α → ℓ}
    {f : σ → Except err α × σ} :
    (sect lab f : Fallible σ ℓ ε err α).Always Q s ↔ Q (f s).1 (f s).2 := Iff.rfl

@[simp] theorem always_call {Q : Except err Unit → σ → Prop} {e : ε} :
    (call e : Fallible σ ℓ ε err Unit).Always Q s ↔ ∀ r, Q r s := Iff.rfl

@[simp] theorem always_tell {Q : Except err Unit → σ → Prop} {e : ε} :
    (tell e : Fallible σ ℓ ε err Unit).Always Q s ↔ Q (.ok ()) s :=
  ⟨fun h => h (.ok ()), fun h _ => h⟩

/-- An error goes past the rest, a result into it. -/
theorem always_bind {Q : Except err β → σ → Prop} (t : Fallible σ ℓ ε err α)
    (f : α → Fallible σ ℓ ε err β) :
    (t >>= f).Always Q s ↔
      t.Always (fun r s' => match r with
        | .ok a => (f a).Always Q s'
        | .error e => Q (.error e) s') s := by
  refine (Task.always_bind t _ s).trans ⟨Task.Always.mono ?_, Task.Always.mono ?_⟩ <;>
    · rintro (e | a) s' h <;> exact h

@[simp] theorem always_attempt {Q : Except err (Except err α) → σ → Prop}
    (t : Fallible σ ℓ ε err α) :
    t.attempt.Always Q s ↔ t.Always (fun r s' => Q (.ok r) s') s := Task.always_bind t _ s

theorem always_iff_run {Q : Except err α → σ → Prop} {t : Fallible σ ℓ ε err α} :
    t.Always Q s ↔
      ∀ (η : Type) (env : Env η ε (Except err Unit)) (x : η),
        Q (t.run env s x).1 (t.run env s x).2.1 :=
  haveI : Nonempty (Except err Unit) := ⟨.ok ()⟩
  Task.always_iff_run

theorem always_of_forall {Q : Except err α → σ → Prop} (h : ∀ r s', Q r s')
    (t : Fallible σ ℓ ε err α) : t.Always Q s :=
  always_iff_run.2 fun _ _ _ => h _ _

end Always

/-! ### Calls -/

/-- Every call that the task makes, whatever states its sections meet and whatever answers it gets, is
one of `ok`. -/
def Calls (ok : ε → Prop) (t : Fallible σ ℓ ε err α) : Prop :=
  Follows (Protocol.calls ok) (fun _ _ => True) () t

section Calls

variable {ok : ε → Prop}

@[simp] theorem calls_pure (a : α) : Calls ok (pure a : Fallible σ ℓ ε err α) := trivial

@[simp] theorem calls_call_bind {e : ε} {f : Unit → Fallible σ ℓ ε err α} :
    Calls ok (call e >>= f) ↔ ok e ∧ Calls ok (f ()) :=
  and_congr_right fun _ => ⟨fun h => h (.ok ()), fun h r => by cases r; exacts [trivial, h]⟩

@[simp] theorem calls_tell_bind {e : ε} {f : Unit → Fallible σ ℓ ε err α} :
    Calls ok (tell e >>= f) ↔ ok e ∧ Calls ok (f ()) :=
  and_congr_right fun _ => ⟨fun h => h (.ok ()), fun h _ => h⟩

/-- Here the rest is reached with both kinds of answer. -/
@[simp] theorem calls_attempt_call_bind {e : ε} {f : Except err Unit → Fallible σ ℓ ε err α} :
    Calls ok ((call e).attempt >>= f) ↔
      ok e ∧ Calls ok (f (.ok ())) ∧ ∀ msg, Calls ok (f (.error msg)) :=
  and_congr_right fun _ => ⟨fun h => ⟨h (.ok ()), fun msg => h (.error msg)⟩, fun h r => by
    cases r
    exacts [h.2 _, h.1]⟩

end Calls

end Fallible

end Concur
