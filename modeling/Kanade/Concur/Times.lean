import Kanade.Concur.Pool

/-!
# Concur.Times

The steps of a run by the time they were taken, counted from its start, and what the phases of a
protocol say about them: `phase_since` goes from a step to the phases after it, `exists_turn` from a
phase back to the step that has made it so.
-/

namespace Concur

namespace Pool

variable {ι σ ℓ ε ρ : Type}

/-- The step taken at time `t`. -/
def entryAt : List (Entry ι σ ℓ ε ρ) → Nat → Option (Entry ι σ ℓ ε ρ)
  | [], _ => none
  | e :: h, t => if t = h.length then some e else entryAt h t

/-- At time `t` task `i` took a section `l`. -/
def Takes (h : List (Entry ι σ ℓ ε ρ)) (t : Nat) (i : ι) (l : ℓ) : Prop :=
  ∃ e ∈ entryAt h t, e.who = i ∧ e.act = .sect l

variable {h h' : List (Entry ι σ ℓ ε ρ)} {e : Entry ι σ ℓ ε ρ} {t : Nat} {i : ι} {l : ℓ}

@[simp] theorem entryAt_length : entryAt (e :: h) h.length = some e := if_pos rfl

theorem entryAt_lt (he : entryAt h t = some e) : t < h.length := by
  induction h with
  | nil => cases he
  | cons e' h ih =>
    rw [entryAt] at he
    split at he
    · rename_i ht
      rw [ht]
      exact Nat.lt_succ_self _
    · exact Nat.lt_succ_of_lt (ih he)

theorem entryAt_append (ht : t < h.length) : entryAt (h' ++ h) t = entryAt h t := by
  induction h' with
  | nil => rfl
  | cons e' h' ih =>
    have hne : t ≠ (h' ++ h).length := by
      rw [List.length_append]
      omega
    rw [List.cons_append, entryAt, if_neg hne, ih]

theorem entryAt_cons (ht : t < h.length) : entryAt (e :: h) t = entryAt h t :=
  (entryAt_append ht : entryAt ([e] ++ h) t = entryAt h t)

/-- The history before a step. -/
theorem exists_append_of_entryAt (he : entryAt h t = some e) :
    ∃ h₂ h₁, h = h₂ ++ e :: h₁ ∧ h₁.length = t := by
  induction h with
  | nil => cases he
  | cons e' h ih =>
    rw [entryAt] at he
    split at he
    · rename_i ht
      cases he
      exact ⟨[], h, rfl, ht.symm⟩
    · obtain ⟨h₂, h₁, rfl, hlen⟩ := ih he
      exact ⟨e' :: h₂, h₁, rfl, hlen⟩

theorem Takes.lt (ht : Takes h t i l) : t < h.length := by
  obtain ⟨e, he, -⟩ := ht
  exact entryAt_lt he

instance [DecidableEq ι] [DecidableEq ℓ] [DecidableEq ε] [DecidableEq ρ] (t : Nat) (i : ι) (l : ℓ) :
    Decidable (Takes h t i l) :=
  inferInstanceAs (Decidable (∃ e ∈ entryAt h t, e.who = i ∧ e.act = .sect l))

/-! ## Phases -/

section Phases

variable {φ : Type} [DecidableEq ι] {P : Protocol σ ℓ ε ρ φ} {start : ι → φ} {G : φ → Prop}

/-- What a step makes of the phase of the task that takes it. -/
def advance (P : Protocol σ ℓ ε ρ φ) (q : φ) (e : Entry ι σ ℓ ε ρ) : φ :=
  match e.act with
  | .sect l => P.onSect q l e.pre e.post
  | .call c r => P.onCall q c r

theorem phase_self : phase P start e.who (e :: h) = advance P (phase P start e.who h) e := by
  rw [phase, if_pos rfl]
  rfl

theorem phase_of_ne (hi : e.who ≠ i) : phase P start i (e :: h) = phase P start i h := by
  rw [phase, if_neg hi]

theorem phase_invariant (h0 : G (start i))
    (hkeep : ∀ q (e : Entry ι σ ℓ ε ρ), G q → G (advance P q e)) (h : List (Entry ι σ ℓ ε ρ)) :
    G (phase P start i h) := by
  induction h with
  | nil => exact h0
  | cons e h ih =>
    by_cases hi : e.who = i
    · subst hi
      rw [phase_self]
      exact hkeep _ _ ih
    · rwa [phase_of_ne hi]

/-- What a step brings about for its task, and no step undoes, is so from then on. -/
theorem phase_since (hkeep : ∀ q (e : Entry ι σ ℓ ε ρ), G q → G (advance P q e))
    (he : entryAt h t = some e) (hnew : ∀ q, G (advance P q e)) : G (phase P start e.who h) := by
  induction h with
  | nil => cases he
  | cons e' h ih =>
    rw [entryAt] at he
    split at he
    · cases he
      rw [phase_self]
      exact hnew _
    · by_cases hi : e'.who = e.who
      · rw [← hi, phase_self, hi]
        exact hkeep _ _ (ih he)
      · rw [phase_of_ne hi]
        exact ih he

/-- What is so of a phase, and was not at the start, one of the task's steps has brought about. -/
theorem exists_turn (h0 : ¬ G (start i)) (hG : G (phase P start i h)) :
    ∃ t, ∃ e ∈ entryAt h t, e.who = i ∧ ∃ h₁, ¬ G (phase P start i h₁) ∧
      G (advance P (phase P start i h₁) e) := by
  induction h with
  | nil => exact absurd hG h0
  | cons e h ih =>
    by_cases hold : G (phase P start i h)
    · obtain ⟨t, e', he', hturn⟩ := ih hold
      exact ⟨t, e', by rw [entryAt_cons (entryAt_lt he')]; exact he', hturn⟩
    · by_cases hi : e.who = i
      · subst hi
        rw [phase_self] at hG
        exact ⟨h.length, e, entryAt_length, rfl, h, hold, hG⟩
      · rw [phase_of_ne hi] at hG
        exact absurd hG hold

/-- A step respects the protocol, in the phase its task had come to. -/
theorem Respects.entryAt (hresp : Respects P start h) (he : entryAt h t = some e) :
    ∃ h₁, (∀ u < t, Pool.entryAt h₁ u = Pool.entryAt h u) ∧ h₁.length = t ∧
      match e.act with
      | .sect l => P.sectOk (phase P start e.who h₁) l e.pre e.post
      | .call c _ => P.callOk (phase P start e.who h₁) c := by
  obtain ⟨h₂, h₁, rfl, rfl⟩ := exists_append_of_entryAt he
  refine ⟨h₁, fun u hu => ?_, rfl, hresp.of_append.1⟩
  rw [entryAt_append (Nat.lt_succ_of_lt hu), entryAt_cons hu]

end Phases

end Pool

end Concur
