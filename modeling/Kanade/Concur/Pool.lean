import Kanade.Concur.Task

/-!
# Concur.Pool

Interleaving. A pool is a shared state and a family of tasks, indexed by any type, so that "any
number of tasks" is one pool. One step lets one task take its next section or call. A run keeps
the history of its steps, newest first, each with the states around it.

* `Run ok p₀ h p`: pool `p` is reached from `p₀` by the steps `h`, each of which met the condition
  `ok` on the history before it. `ok := fun _ _ => True` is every interleaving.
* `Met ok h`: the condition as a property of the history; `run_iff`.
* `exec`: the executable interpreter of a schedule; `exec_run` makes it a run.
* `Run.follows`: the run lemma of the program logic. When every task follows a protocol and every
  section finds what it relies on, every step of the run respects the protocol.
* `Run.within`: the same for a relation that each task's sections stay in.
* `Run.invariant`: the same for an invariant over the history, the phases of all tasks and the state.
-/

namespace Concur

/-- What a task did in one step. -/
inductive Act (ℓ ε ρ : Type) : Type where
  | sect (l : ℓ)
  | call (e : ε) (r : ρ)
deriving DecidableEq, Repr

/-- One step of a run: who took it, what it was, and the shared state around it. -/
structure Entry (ι σ ℓ ε ρ : Type) : Type where
  who : ι
  act : Act ℓ ε ρ
  pre : σ
  post : σ

/-- A shared state and the tasks that run over it. -/
structure Pool (ι σ ℓ ε ρ α : Type) : Type where
  shared : σ
  task : ι → Task σ ℓ ε ρ α

namespace Pool

variable {ι σ ℓ ε ρ α φ : Type} [DecidableEq ι]

/-- Task `i` takes its next step; `r` answers it if it is a call. -/
def step (p : Pool ι σ ℓ ε ρ α) (i : ι) (r : ρ) :
    Option (Entry ι σ ℓ ε ρ × Pool ι σ ℓ ε ρ α) :=
  match p.task i with
  | .done _ => none
  | .sect lab upd next =>
    some (⟨i, .sect (lab p.shared), p.shared, upd p.shared⟩,
      ⟨upd p.shared, Function.update p.task i (next p.shared)⟩)
  | .call e next =>
    some (⟨i, .call e r, p.shared, p.shared⟩, ⟨p.shared, Function.update p.task i (next r)⟩)

/-- The runs from `p₀` whose steps all meet `ok`, with their history, newest step first. -/
inductive Run (ok : List (Entry ι σ ℓ ε ρ) → Entry ι σ ℓ ε ρ → Prop) (p₀ : Pool ι σ ℓ ε ρ α) :
    List (Entry ι σ ℓ ε ρ) → Pool ι σ ℓ ε ρ α → Prop where
  | init : Run ok p₀ [] p₀
  | step {h : List (Entry ι σ ℓ ε ρ)} {p p' : Pool ι σ ℓ ε ρ α} {e : Entry ι σ ℓ ε ρ} {i : ι}
      {r : ρ} : Run ok p₀ h p → p.step i r = some (e, p') → ok h e → Run ok p₀ (e :: h) p'

/-- Every interleaving. -/
abbrev Interleaving (p₀ : Pool ι σ ℓ ε ρ α) :
    List (Entry ι σ ℓ ε ρ) → Pool ι σ ℓ ε ρ α → Prop :=
  Run (fun _ _ => True) p₀

/-- Every step of a history met `ok` on the history before it. -/
def Met (ok : List (Entry ι σ ℓ ε ρ) → Entry ι σ ℓ ε ρ → Prop) : List (Entry ι σ ℓ ε ρ) → Prop
  | [] => True
  | e :: h => ok h e ∧ Met ok h

instance Met.decidable (ok : List (Entry ι σ ℓ ε ρ) → Entry ι σ ℓ ε ρ → Prop)
    [∀ h e, Decidable (ok h e)] : ∀ h, Decidable (Met ok h)
  | [] => isTrue trivial
  | e :: h =>
    have := Met.decidable ok h
    inferInstanceAs (Decidable (ok h e ∧ Met ok h))

omit [DecidableEq ι] in
theorem Met.of_append {ok : List (Entry ι σ ℓ ε ρ) → Entry ι σ ℓ ε ρ → Prop}
    {h₁ h₂ : List (Entry ι σ ℓ ε ρ)} (h : Met ok (h₂ ++ h₁)) : Met ok h₁ := by
  induction h₂ with
  | nil => exact h
  | cons e h₂ ih => exact ih h.2

omit [DecidableEq ι] in
theorem met_iff {ok : List (Entry ι σ ℓ ε ρ) → Entry ι σ ℓ ε ρ → Prop} {h : List (Entry ι σ ℓ ε ρ)} :
    Met ok h ↔ ∀ h₂ e h₁, h = h₂ ++ e :: h₁ → ok h₁ e := by
  constructor
  · intro hmet h₂ e h₁ heq
    subst heq
    exact (Met.of_append hmet).1
  · intro hall
    induction h with
    | nil => trivial
    | cons e h ih =>
      refine ⟨hall [] e h rfl, ih fun h₂ e' h₁ heq => hall (e :: h₂) e' h₁ ?_⟩
      rw [heq, List.cons_append]

/-- A run is an interleaving whose history met the condition. -/
theorem run_iff {ok : List (Entry ι σ ℓ ε ρ) → Entry ι σ ℓ ε ρ → Prop}
    {p₀ p : Pool ι σ ℓ ε ρ α} {h : List (Entry ι σ ℓ ε ρ)} :
    Run ok p₀ h p ↔ Interleaving p₀ h p ∧ Met ok h := by
  constructor
  · intro hr
    induction hr with
    | init => exact ⟨.init, trivial⟩
    | step _ hs hok ih => exact ⟨.step ih.1 hs trivial, hok, ih.2⟩
  · rintro ⟨hr, hmet⟩
    induction hr with
    | init => exact .init
    | step _ hs _ ih => exact .step (ih hmet.2) hs hmet.1

/-- Runs a schedule: who steps next, with the answer for its call. A finished task is passed
over. -/
def exec : List (ι × ρ) → List (Entry ι σ ℓ ε ρ) × Pool ι σ ℓ ε ρ α →
    List (Entry ι σ ℓ ε ρ) × Pool ι σ ℓ ε ρ α
  | [], c => c
  | (i, r) :: rest, (h, p) =>
    match p.step i r with
    | none => exec rest (h, p)
    | some (e, p') => exec rest (e :: h, p')

theorem exec_run {p₀ : Pool ι σ ℓ ε ρ α} (sched : List (ι × ρ)) :
    ∀ {c : List (Entry ι σ ℓ ε ρ) × Pool ι σ ℓ ε ρ α}, Interleaving p₀ c.1 c.2 →
      Interleaving p₀ (exec sched c).1 (exec sched c).2 := by
  induction sched with
  | nil => intro c h; exact h
  | cons ir rest ih =>
    rintro ⟨h, p⟩ hrun
    simp only [exec]
    cases hs : p.step ir.1 ir.2 with
    | none => exact ih hrun
    | some ep => exact ih (.step hrun hs trivial)

/-! ## What one step does -/

theorem step_who {p p' : Pool ι σ ℓ ε ρ α} {i : ι} {r : ρ} {e : Entry ι σ ℓ ε ρ}
    (h : p.step i r = some (e, p')) : e.who = i ∧ e.pre = p.shared ∧ e.post = p'.shared := by
  unfold step at h
  split at h
  · cases h
  · cases h; exact ⟨rfl, rfl, rfl⟩
  · cases h; exact ⟨rfl, rfl, rfl⟩

/-- A step is a section of the task that takes it, or a call, which leaves the state alone. -/
theorem step_cases {p p' : Pool ι σ ℓ ε ρ α} {i : ι} {r : ρ} {e : Entry ι σ ℓ ε ρ}
    (h : p.step i r = some (e, p')) :
    (∃ lab upd next, p.task i = .sect lab upd next ∧
      e = ⟨i, .sect (lab p.shared), p.shared, upd p.shared⟩ ∧
      p' = ⟨upd p.shared, Function.update p.task i (next p.shared)⟩) ∨
    (∃ c next, p.task i = .call c next ∧ e = ⟨i, .call c r, p.shared, p.shared⟩ ∧
      p' = ⟨p.shared, Function.update p.task i (next r)⟩) := by
  unfold step at h
  split at h
  · cases h
  · rename_i lab upd next ht; cases h; exact .inl ⟨lab, upd, next, ht, rfl, rfl⟩
  · rename_i c next ht; cases h; exact .inr ⟨c, next, ht, rfl, rfl⟩

/-- The history before a step is the history of a run. -/
theorem Run.of_append {ok : List (Entry ι σ ℓ ε ρ) → Entry ι σ ℓ ε ρ → Prop}
    {p₀ p : Pool ι σ ℓ ε ρ α} {h₁ h₂ : List (Entry ι σ ℓ ε ρ)} (hr : Run ok p₀ (h₂ ++ h₁) p) :
    ∃ p₁, Run ok p₀ h₁ p₁ := by
  induction h₂ generalizing p with
  | nil => exact ⟨p, hr⟩
  | cons e h₂ ih =>
    cases hr with
    | step hr' _ _ => exact ih hr'

/-! ## Protocols over a run -/

/-- The phase of task `i` after a history. -/
def phase (P : Protocol σ ℓ ε ρ φ) (start : ι → φ) (i : ι) : List (Entry ι σ ℓ ε ρ) → φ
  | [] => start i
  | e :: h =>
    if e.who = i then
      match e.act with
      | .sect l => P.onSect (phase P start i h) l e.pre e.post
      | .call c r => P.onCall (phase P start i h) c r
    else phase P start i h

/-- Every step of the history respects the protocol, in the phase its task was in. -/
def Respects (P : Protocol σ ℓ ε ρ φ) (start : ι → φ) : List (Entry ι σ ℓ ε ρ) → Prop
  | [] => True
  | e :: h =>
    (match e.act with
      | .sect l => P.sectOk (phase P start e.who h) l e.pre e.post
      | .call c _ => P.callOk (phase P start e.who h) c) ∧
    Respects P start h

theorem Respects.of_append {P : Protocol σ ℓ ε ρ φ} {start : ι → φ}
    {h₁ h₂ : List (Entry ι σ ℓ ε ρ)} (h : Respects P start (h₂ ++ h₁)) : Respects P start h₁ := by
  induction h₂ with
  | nil => exact h
  | cons e h₂ ih => exact ih h.2

section Follows

variable {ok : List (Entry ι σ ℓ ε ρ) → Entry ι σ ℓ ε ρ → Prop} {p₀ : Pool ι σ ℓ ε ρ α}
  {P : Protocol σ ℓ ε ρ φ} {start : ι → φ} {Q : ι → φ → α → Prop}

/-- One step of a pool whose tasks follow the protocol. -/
theorem follows_step {h : List (Entry ι σ ℓ ε ρ)} {p p' : Pool ι σ ℓ ε ρ α} {i : ι} {r : ρ}
    {e : Entry ι σ ℓ ε ρ} (hs : p.step i r = some (e, p'))
    (hf : ∀ j, (p.task j).Follows P (Q j) (phase P start j h)) (hresp : Respects P start h)
    (hrely : ∀ l, e.act = .sect l → P.rely (phase P start i h) l p.shared) :
    Respects P start (e :: h) ∧ ∀ j, (p'.task j).Follows P (Q j) (phase P start j (e :: h)) := by
  obtain ⟨lab, upd, next, ht, rfl, rfl⟩ | ⟨c, next, ht, rfl, rfl⟩ := step_cases hs
  · have hi := hf i
    rw [ht] at hi
    obtain ⟨hok, hnext⟩ := hi p.shared (hrely _ rfl)
    refine ⟨⟨hok, hresp⟩, fun j => ?_⟩
    by_cases hj : j = i
    · subst hj
      simpa [phase] using hnext
    · have hij : i ≠ j := fun h => hj h.symm
      simpa [phase, hij, Function.update_of_ne hj] using hf j
  · have hi := hf i
    rw [ht] at hi
    refine ⟨⟨hi.1, hresp⟩, fun j => ?_⟩
    by_cases hj : j = i
    · subst hj
      simpa [phase] using hi.2 r
    · have hij : i ≠ j := fun h => hj h.symm
      simpa [phase, hij, Function.update_of_ne hj] using hf j

/-- The run lemma. `hrely` may use what the run has respected so far. -/
theorem Run.follows (h0 : ∀ i, (p₀.task i).Follows P (Q i) (start i))
    (hrely : ∀ {h p p' i r e}, Run ok p₀ h p → Respects P start h →
      p.step i r = some (e, p') → ok h e →
      ∀ l, e.act = .sect l → P.rely (phase P start i h) l p.shared)
    {h : List (Entry ι σ ℓ ε ρ)} {p : Pool ι σ ℓ ε ρ α} (hr : Run ok p₀ h p) :
    Respects P start h ∧ ∀ i, (p.task i).Follows P (Q i) (phase P start i h) := by
  induction hr with
  | init => exact ⟨trivial, h0⟩
  | step hr' hs hok ih => exact follows_step hs ih.2 ih.1 (hrely hr' ih.1 hs hok)

/-- When the sections of each task `i` stay in `R i` from states with `I`, so do all steps of a
run. -/
theorem Run.within {I : σ → Prop} {R : ι → σ → σ → Prop} {Q : Unit → α → Prop}
    (hrefl : ∀ i s, I s → R i s s) (hkeep : ∀ i s s', I s → R i s s' → I s') (h0 : I p₀.shared)
    (ht : ∀ i, (p₀.task i).Follows (Protocol.within I (R i)) Q ())
    {h : List (Entry ι σ ℓ ε ρ)} {p : Pool ι σ ℓ ε ρ α} (hr : Run ok p₀ h p) :
    (I p.shared ∧ ∀ i, (p.task i).Follows (Protocol.within I (R i)) Q ()) ∧
      ∀ e ∈ h, I e.pre ∧ R e.who e.pre e.post := by
  induction hr with
  | init => exact ⟨⟨h0, ht⟩, by simp⟩
  | @step h p p' e i r _ hs _ ih =>
    obtain ⟨⟨hI, hf⟩, hall⟩ := ih
    have hi := hf i
    obtain ⟨lab, upd, next, hti, rfl, rfl⟩ | ⟨c, next, hti, rfl, rfl⟩ := step_cases hs
    · rw [hti] at hi
      obtain ⟨hR, hnext⟩ := hi p.shared hI
      refine ⟨⟨hkeep i _ _ hI hR, fun j => ?_⟩, List.forall_mem_cons.2 ⟨⟨hI, hR⟩, hall⟩⟩
      by_cases hj : j = i
      · subst hj
        simpa using hnext
      · simpa [Function.update_of_ne hj] using hf j
    · rw [hti] at hi
      refine ⟨⟨hI, fun j => ?_⟩, List.forall_mem_cons.2 ⟨⟨hI, hrefl i _ hI⟩, hall⟩⟩
      by_cases hj : j = i
      · subst hj
        simpa using hi.2 r
      · simpa [Function.update_of_ne hj] using hf j

end Follows

/-! ## Invariants over the history and the phases of all tasks -/

/-- The phases of all tasks after a history. -/
def phases (P : ι → Protocol σ ℓ ε ρ φ) (start : ι → φ) (h : List (Entry ι σ ℓ ε ρ)) : ι → φ :=
  fun i => phase (P i) start i h

section Phases

variable {ok : List (Entry ι σ ℓ ε ρ) → Entry ι σ ℓ ε ρ → Prop} {p₀ : Pool ι σ ℓ ε ρ α}
  {P : ι → Protocol σ ℓ ε ρ φ} {start : ι → φ} {Q : ι → φ → α → Prop}

theorem phases_sect (start : ι → φ) (h : List (Entry ι σ ℓ ε ρ)) (i : ι) (l : ℓ) (s s' : σ) :
    phases P start (⟨i, .sect l, s, s'⟩ :: h) =
      Function.update (phases P start h) i ((P i).onSect (phases P start h i) l s s') := by
  funext j
  by_cases hj : j = i
  · subst hj
    simp [phases, phase]
  · have hij : i ≠ j := fun h => hj h.symm
    simp [phases, phase, hij, Function.update_of_ne hj]

theorem phases_call (h : List (Entry ι σ ℓ ε ρ)) (i : ι) (c : ε) (r : ρ) (s s' : σ) :
    phases P start (⟨i, .call c r, s, s'⟩ :: h) =
      Function.update (phases P start h) i ((P i).onCall (phases P start h i) c r) := by
  funext j
  by_cases hj : j = i
  · subst hj
    simp [phases, phase]
  · have hij : i ≠ j := fun h => hj h.symm
    simp [phases, phase, hij, Function.update_of_ne hj]

/-- The rule for invariants over the history, the phases it leads to and the state: kept by every
section and every call that respects its task's protocol, it holds throughout a run, and so every
section of the run was one that respected the protocol in a state with the invariant. -/
theorem Run.invariant {J : List (Entry ι σ ℓ ε ρ) → σ → Prop} (h0 : J [] p₀.shared)
    (ht : ∀ i, (p₀.task i).Follows (P i) (Q i) (start i))
    (hrely : ∀ h i l s, J h s → (P i).rely (phases P start h i) l s)
    (hsect : ∀ h i l s s', J h s → (P i).sectOk (phases P start h i) l s s' →
      ok h ⟨i, .sect l, s, s'⟩ → J (⟨i, .sect l, s, s'⟩ :: h) s')
    (hcall : ∀ h i c r s, J h s → (P i).callOk (phases P start h i) c →
      ok h ⟨i, .call c r, s, s⟩ → J (⟨i, .call c r, s, s⟩ :: h) s)
    {h : List (Entry ι σ ℓ ε ρ)} {p : Pool ι σ ℓ ε ρ α} (hr : Run ok p₀ h p) :
    J h p.shared ∧
      (∀ i, (p.task i).Follows (P i) (Q i) (phases P start h i)) ∧
      ∀ h₂ e h₁, h = h₂ ++ e :: h₁ → J h₁ e.pre ∧
        ∀ l, e.act = .sect l → (P e.who).sectOk (phases P start h₁ e.who) l e.pre e.post := by
  induction hr with
  | init => exact ⟨h0, ht, fun h₂ e h₁ hnil => by simp at hnil⟩
  | @step h p p' e i r _ hs hok ih =>
    obtain ⟨hJ, hf, hall⟩ := ih
    have hi := hf i
    -- the entries of the longer history: the new one, or one of the old
    have hsplit : ∀ {e : Entry ι σ ℓ ε ρ}, (J h e.pre ∧ ∀ l, e.act = .sect l →
        (P e.who).sectOk (phases P start h e.who) l e.pre e.post) →
        ∀ h₂ e' h₁, e :: h = h₂ ++ e' :: h₁ → J h₁ e'.pre ∧
          ∀ l, e'.act = .sect l → (P e'.who).sectOk (phases P start h₁ e'.who) l e'.pre e'.post := by
      intro e he h₂ e' h₁ heq
      cases h₂ with
      | nil => cases heq; exact he
      | cons a h₂ => cases heq; exact hall h₂ e' h₁ rfl
    obtain ⟨lab, upd, next, hti, rfl, rfl⟩ | ⟨c, next, hti, rfl, rfl⟩ := step_cases hs
    · rw [hti] at hi
      obtain ⟨hsok, hnext⟩ := hi p.shared (hrely h i _ _ hJ)
      refine ⟨hsect h i _ _ _ hJ hsok hok, fun j => ?_,
        hsplit ⟨hJ, fun l hl => by cases hl; exact hsok⟩⟩
      rw [phases_sect]
      by_cases hj : j = i
      · subst hj
        simpa using hnext
      · simpa [Function.update_of_ne hj] using hf j
    · rw [hti] at hi
      refine ⟨hcall h i c r _ hJ hi.1 hok, fun j => ?_, hsplit ⟨hJ, fun l hl => by cases hl⟩⟩
      rw [phases_call]
      by_cases hj : j = i
      · subst hj
        simpa using hi.2 r
      · simpa [Function.update_of_ne hj] using hf j

end Phases

end Pool

end Concur
