import Mathlib.Data.List.Induction

/-!
# Machine.Emits

Machines that answer each input with outputs and a new state.

* `after`, `outputsAt`, `emitted`: the state after some inputs, what the next input is answered with,
  and all outputs so far.
* `invariant`: what a step keeps of the inputs, the outputs and the state holds of every run.
-/

namespace Machine

variable {σ ι ω : Type}

def after (step : σ → ι → List ω × σ) (s : σ) : List ι → σ
  | [] => s
  | i :: is => after step (step s i).2 is

/-- All outputs, in order. -/
def emitted (step : σ → ι → List ω × σ) (s : σ) : List ι → List ω
  | [] => []
  | i :: is => (step s i).1 ++ emitted step (step s i).2 is

/-- What the input `i` is answered with after the inputs `is`. -/
def outputsAt (step : σ → ι → List ω × σ) (s : σ) (is : List ι) (i : ι) : List ω :=
  (step (after step s is) i).1

section Runs

variable {step : σ → ι → List ω × σ} {s : σ}

theorem after_append (is js : List ι) : after step s (is ++ js) = after step (after step s is) js := by
  induction is generalizing s with
  | nil => rfl
  | cons i is ih => exact ih

theorem emitted_append (is js : List ι) :
    emitted step s (is ++ js) = emitted step s is ++ emitted step (after step s is) js := by
  induction is generalizing s with
  | nil => rfl
  | cons i is ih => simp only [List.cons_append, emitted, after, ih, List.append_assoc]

theorem after_concat (is : List ι) (i : ι) :
    after step s (is ++ [i]) = (step (after step s is) i).2 := after_append is [i]

theorem emitted_concat (is : List ι) (i : ι) :
    emitted step s (is ++ [i]) = emitted step s is ++ outputsAt step s is i := by
  rw [emitted_append, emitted, emitted, List.append_nil, outputsAt]

/-- The rule for invariants over the inputs and outputs so far and the state. -/
theorem invariant {J : List ι → List ω → σ → Prop} (h0 : J [] [] s)
    (hstep : ∀ is os s i, J is os s → J (is ++ [i]) (os ++ (step s i).1) (step s i).2)
    (is : List ι) : J is (emitted step s is) (after step s is) := by
  induction is using List.reverseRecOn with
  | nil => exact h0
  | append_singleton is i ih =>
    rw [emitted_concat, after_concat]
    exact hstep is _ _ i ih

end Runs

end Machine
