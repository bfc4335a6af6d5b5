import Kanade.Concur.Pool
import Kanade.Concur.Runs
import Kanade.Core.Writes

/-!
# Kanade.Core.Runs

Runs of operations: each completing before the next, against outputs that behave in any way (`env`
answers every call, from a memory of its own), or all at once, as a pool of tasks.
-/

namespace Kanade

open Concur

variable {η : Type}

/-- How outputs and sinks answer. -/
abbrev Outputs (η : Type) : Type := Env η CoreCall (Except CoreError Unit)

/-- Outputs that do whatever they are told. -/
def allSucceed : Outputs Unit := fun _ _ => (.ok (), ())

/-- Outputs that refuse everything. -/
def refuse : Outputs Unit := fun _ _ => (.error (.output "refused"), ())

/-- One operation run alone: the core and the environment afterwards. -/
def CoreOp.after (env : Outputs η) (op : CoreOp) (c : Core × η) : Core × η :=
  (op.task.run env c.1 c.2).2

/-- The operations one after the other. -/
abbrev runOps (env : Outputs η) (ops : List CoreOp) (c : Core × η) : Core × η :=
  runAll (CoreOp.after env) ops c

/-- Every operation of the run meets `ok` where it starts. -/
abbrev EachOp (env : Outputs η) (ok : CoreOp → Core × η → Prop) (ops : List CoreOp)
    (c : Core × η) : Prop :=
  Each (CoreOp.after env) ok ops c

/-- An operation whose listed rewrites stay in a stable relation stays in it. -/
theorem CoreOp.after_rel {I : PlaybackState → Prop} {R : PlaybackState → PlaybackState → Prop}
    (h : Stable I R) {op : CoreOp} (hw : ∀ f, op.Writes I f → ∀ s, I s → R s (f s))
    (env : Outputs η) {c : Core × η} (hI : I c.1.state) :
    R c.1.state (op.after env c).1.state :=
  Fallible.Within.run (I := fun w : Core => I w.state)
    (R := fun w w' : Core => R w.state w'.state) (op.within h hw)
    (fun w => h.refl w.state) (fun w w' w'' => h.trans w.state w'.state w''.state)
    (fun w w' => h.keeps w.state w'.state) env c.2 hI

section Pool

variable {ι : Type}

abbrev CorePool (ι : Type) : Type :=
  Pool ι Core Sect CoreCall (Except CoreError Unit) (Except CoreError Unit)

/-- One task for each operation. -/
def corePool (w : Core) (ops : ι → CoreOp) : CorePool ι := ⟨w, fun i => (ops i).task⟩

/-- An entry of the history of such a pool. -/
abbrev CoreEntry (ι : Type) : Type := Entry ι Core Sect CoreCall (Except CoreError Unit)

/-- Operations whose listed rewrites stay in stable relations stay in them in every
interleaving. -/
theorem corePool_rel [DecidableEq ι] {I : PlaybackState → Prop}
    {R : ι → PlaybackState → PlaybackState → Prop} {w : Core} {ops : ι → CoreOp}
    (hR : ∀ i, Stable I (R i)) (hw : ∀ i f, (ops i).Writes I f → ∀ s, I s → R i s (f s))
    (hI : I w.state) {h : List (CoreEntry ι)} {p : CorePool ι}
    (hr : Pool.Interleaving (corePool w ops) h p) :
    I p.shared.state ∧ ∀ e ∈ h, I e.pre.state ∧ R e.who e.pre.state e.post.state := by
  have htask : ∀ i, Task.Follows
      (Protocol.within (fun w : Core => I w.state) fun w w' => R i w.state w'.state)
      (fun _ _ => True) () ((corePool w ops).task i) := fun i => (ops i).within (hR i) (hw i)
  obtain ⟨⟨hp, -⟩, hall⟩ := Pool.Run.within (I := fun w : Core => I w.state)
    (R := fun i w w' => R i w.state w'.state) (fun i w hw => (hR i).refl w.state hw)
    (fun i w w' => (hR i).keeps w.state w'.state) hI htask hr
  exact ⟨hp, hall⟩

end Pool

end Kanade
