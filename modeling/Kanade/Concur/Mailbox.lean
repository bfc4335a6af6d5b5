import Kanade.Concur.Task

/-!
# Concur.Mailbox

Calls that are orders to receivers: carried out at once, or left in the mailbox of the receiver.

* `obeyed`: each receiver has a state, and an order changes it.
* `posted`: each receiver has a mailbox, and an order is put at its end.
* `run_posted`: a task that runs alone cannot tell the two apart, and the orders left in the mailboxes
  are those that were carried out.
-/

namespace Concur

variable {ι κ ν ε ρ : Type} [DecidableEq ι]

/-- `order` says which calls are orders, to whom and what. All calls are answered by `ok`. -/
def obeyed (order : ε → Option (ι × κ)) (ok : ρ) (exec : ν → κ → ν) : Env (ι → ν) ε ρ := fun x e =>
  match order e with
  | some (i, c) => (ok, Function.update x i (exec (x i) c))
  | none => (ok, x)

def posted (order : ε → Option (ι × κ)) (ok : ρ) : Env (ι → List κ) ε ρ :=
  obeyed order ok fun box c => box ++ [c]

section Posted

variable {σ ℓ α : Type} {order : ε → Option (ι × κ)} {ok : ρ} {exec : ν → κ → ν}

/-- The call in both environments: the same answer, and the receiver does what its mailbox gets. -/
theorem posted_call (exec : ν → κ → ν) (box : ι → List κ) (x : ι → ν) (e : ε) :
    (posted order ok box e).1 = (obeyed order ok exec x e).1 ∧
      ∃ sent : ι → List κ, (posted order ok box e).2 = (fun i => box i ++ sent i) ∧
        (obeyed order ok exec x e).2 = fun i => (sent i).foldl exec (x i) := by
  unfold posted obeyed
  cases order e with
  | none => exact ⟨rfl, fun _ => [], by simp, rfl⟩
  | some order =>
    obtain ⟨i, c⟩ := order
    refine ⟨rfl, Function.update (fun _ => []) i [c], ?_, ?_⟩
    · funext j
      by_cases hj : j = i
      · subst hj
        simp
      · simp [hj]
    · funext j
      by_cases hj : j = i
      · subst hj
        simp
      · simp [hj]

theorem run_posted (exec : ν → κ → ν) (t : Task σ ℓ ε ρ α) :
    ∀ (s : σ) (box : ι → List κ) (x : ι → ν),
      (t.run (posted order ok) s box).1 = (t.run (obeyed order ok exec) s x).1 ∧
        (t.run (posted order ok) s box).2.1 = (t.run (obeyed order ok exec) s x).2.1 ∧
        ∃ sent : ι → List κ, (t.run (posted order ok) s box).2.2 = (fun i => box i ++ sent i) ∧
          (t.run (obeyed order ok exec) s x).2.2 = fun i => (sent i).foldl exec (x i) := by
  induction t with
  | done a => exact fun s box x => ⟨rfl, rfl, fun _ => [], by simp [Task.run], rfl⟩
  | sect lab upd next ih => exact fun s box x => ih s (upd s) box x
  | call e next ih =>
    intro s box x
    obtain ⟨hanswer, sent, hbox, hdone⟩ : (posted order ok box e).1 = (obeyed order ok exec x e).1 ∧ _ :=
      posted_call exec box x e
    simp only [Task.run, hanswer, hbox, hdone]
    obtain ⟨hresult, hstate, rest, hrest, hdone'⟩ := ih _ s (fun i => box i ++ sent i)
      fun i => (sent i).foldl exec (x i)
    refine ⟨hresult, hstate, fun i => sent i ++ rest i, ?_, ?_⟩
    · rw [hrest]
      funext i
      exact List.append_assoc _ _ _
    · rw [hdone']
      funext i
      exact List.foldl_append.symm

end Posted

end Concur
