import Kanade.Hls.Evict

/-!
# Kanade.Hls.Alone

A call of the cache on a file system that nothing else changes: its result, and what it leaves.
-/

namespace Kanade

open Concur Files

namespace CacheTask

variable {α β : Type}

def alone (t : CacheTask α) (fs : FileSystem) : Except String α × FileSystem :=
  ((t.run (fun (_ : Unit) (e : Empty) => e.elim) fs ()).1, (t.run (fun (_ : Unit) (e : Empty) => e.elim) fs ()).2.1)

variable {t : CacheTask α} {f : α → CacheTask β} {fs fs' fs'' : FileSystem} {a : α} {b : β} {e : String}

@[simp] theorem alone_pure (a : α) (fs : FileSystem) : (pure a : CacheTask α).alone fs = (.ok a, fs) := rfl

theorem alone_bind_ok (h : t.alone fs = (.ok a, fs')) : (t >>= f).alone fs = (f a).alone fs' := by
  unfold alone at h ⊢
  rw [Fallible.run_bind]
  rcases hrun : t.run (fun (_ : Unit) (e : Empty) => e.elim) fs () with ⟨r, s, x⟩
  rw [hrun] at h
  cases h
  rfl

theorem alone_bind_error (h : t.alone fs = (.error e, fs')) : (t >>= f).alone fs = (.error e, fs') := by
  unfold alone at h ⊢
  rw [Fallible.run_bind]
  rcases hrun : t.run (fun (_ : Unit) (e : Empty) => e.elim) fs () with ⟨r, s, x⟩
  rw [hrun] at h
  cases h
  rfl

/-- What has come to a result has come to one at each step. -/
theorem of_alone_bind (h : (t >>= f).alone fs = (.ok b, fs'')) :
    ∃ a fs', t.alone fs = (.ok a, fs') ∧ (f a).alone fs' = (.ok b, fs'') := by
  rcases ht : t.alone fs with ⟨e | a, fs'⟩
  · rw [alone_bind_error ht] at h
    cases h
  · rw [alone_bind_ok ht] at h
    exact ⟨a, fs', rfl, h⟩

@[simp] theorem alone_query (lab : α → CacheStep) (op : FileSystem → Except String α) (fs : FileSystem) :
    (query lab op).alone fs = (op fs, fs) := rfl

theorem alone_change {lab : CacheStep} {op : FileSystem → Except String FileSystem} (h : op fs = .ok fs') :
    (change lab op).alone fs = (.ok (), fs') := by
  simp only [alone, change, Fallible.run_sect, h]

theorem alone_change_error {lab : CacheStep} {op : FileSystem → Except String FileSystem} (h : op fs = .error e) :
    (change lab op).alone fs = (.error e, fs) := by
  simp only [alone, change, Fallible.run_sect, h]

@[simp] theorem alone_attempt (t : CacheTask α) (fs : FileSystem) :
    CacheTask.alone (Fallible.attempt t) fs = (.ok (t.alone fs).1, (t.alone fs).2) := by
  simp only [alone, Fallible.run_attempt]

end CacheTask

end Kanade
