import Kanade.Concur.Fallible
import Kanade.Files.Path

/-!
# Kanade.Hls.Cache

`HlsCache::get_or_generate` and `generate_hls_with_options`: which directories they work on, in which
order. What the file system does is a call that it answers; the lock of the key and what is written
into the files are left out.

`calls_getOrGenerate` lists the calls that are made for a pair of track and variant.
-/

namespace Kanade

open Concur Files

/-- What is asked of the file system. -/
inductive FileCall where
  | exists (path : Path)
  | createDirAll (path : Path)
  | removeDirAll (path : Path)
  | rename (src dst : Path)
  /-- `HlsSegments::open`. -/
  | openSegments (root : Path)
  /-- `touch` of the segments at `root`. -/
  | touch (root : Path)
  | remuxSource (sourcePath : String)
  | writeHlsOutput (dir : Path)
  /-- `enforce_size_limit`, which removes variants of any track but the one at `preserve`. -/
  | enforceSizeLimit (preserve : Option Path)
deriving DecidableEq, Repr

/-- An `HlsError` is what it prints. -/
abbrev HlsOp (α : Type) : Type := Fallible Unit Unit FileCall String α

namespace HlsOp

/-- What is done if the path exists. -/
def ifExists (path : Path) (t : HlsOp Unit) : HlsOp Unit := do
  match ← (Fallible.call (.exists path)).attempt with
  | .ok _ => t
  | .error _ => pure ()

def createParent (path : Path) : HlsOp Unit :=
  match path.parent? with
  | some parent => Fallible.call (.createDirAll parent)
  | none => pure ()

end HlsOp

/-- The name of the directory that is generated into. -/
def tmpName (variant : String) (pid secs : Nat) : String :=
  "." ++ variant ++ ".tmp-" ++ toString pid ++ "-" ++ toString secs

theorem tmpName_toList (variant : String) (pid secs : Nat) :
    (tmpName variant pid secs).toList = '.' :: (variant.toList ++ ".tmp-".toList ++
      (toString pid).toList ++ "-".toList ++ (toString secs).toList) := by
  simp only [tmpName, String.toList_append, List.append_assoc]
  rfl

/-- The name for a variant without a `/` has none either, and a letter. -/
theorem isName_tmpName {variant : String} {pid secs : Nat} (hslash : '/' ∉ variant.toList) :
    IsName (tmpName variant pid secs) := by
  have hdigits : ∀ n : Nat, '/' ∉ Nat.toDigits 10 n := fun n hmem =>
    absurd (Nat.isDigit_of_mem_toDigits (by omega) (by omega) hmem) (by decide)
  have hletter : 't' ∈ (tmpName variant pid secs).toList := by
    rw [tmpName_toList]
    simp
  have hne : ∀ t : String, 't' ∉ t.toList → tmpName variant pid secs ≠ t :=
    fun t ht heq => ht (heq ▸ hletter)
  refine ⟨?_, hne _ (by decide), hne _ (by decide), hne _ (by decide)⟩
  rw [tmpName_toList]
  simp [hslash, hdigits]

/-- `generate_hls_with_options` in the process `pid` at the time `secs`. Its result is the directory
of the segments. -/
def generateHls (sourcePath trackId variant : String) (cacheDir : Path) (pid secs : Nat) :
    HlsOp Path := do
  Fallible.call (.createDirAll cacheDir)
  let targetDir := (cacheDir.join trackId).join variant
  let tmpDir := (cacheDir.join trackId).join (tmpName variant pid secs)
  HlsOp.ifExists tmpDir (Fallible.tell (.removeDirAll tmpDir))
  Fallible.call (.createDirAll tmpDir)
  Fallible.call (.remuxSource sourcePath)
  Fallible.call (.writeHlsOutput tmpDir)
  HlsOp.ifExists targetDir (Fallible.call (.removeDirAll targetDir))
  HlsOp.createParent targetDir
  Fallible.call (.rename tmpDir targetDir)
  Fallible.call (.openSegments targetDir)
  pure targetDir

def variantDir (root : Path) (trackId variant : String) : Path := (root.join trackId).join variant

def getOrGenerate (root : Path) (sourcePath trackId variant : String) (pid secs : Nat) :
    HlsOp Path := do
  Fallible.call (.createDirAll root)
  Fallible.call (.enforceSizeLimit none)
  let variantDir := variantDir root trackId variant
  match ← (Fallible.call (.openSegments variantDir)).attempt with
  | .ok _ => do
    Fallible.call (.touch variantDir)
    pure variantDir
  | .error _ => do
    let generated ← generateHls sourcePath trackId variant root pid secs
    Fallible.call (.touch generated)
    Fallible.call (.enforceSizeLimit (some generated))
    pure generated

/-! ## The calls -/

section Calls

open Fallible

variable {ok : FileCall → Prop} {path root : Path} {e : FileCall} {α : Type}
  {sourcePath trackId variant : String} {pid secs : Nat}

theorem calls_ifExists {t : HlsOp Unit} {f : Unit → HlsOp α}
    (ht : (t >>= f).Calls ok ↔ ok e ∧ (f ()).Calls ok) :
    (HlsOp.ifExists path t >>= f).Calls ok ↔ ok (.exists path) ∧ ok e ∧ (f ()).Calls ok := by
  rw [HlsOp.ifExists, Fallible.bind_assoc, calls_attempt_call_bind]
  simp only [Fallible.pure_bind, forall_const]
  rw [ht]
  tauto

theorem calls_createParent {f : Unit → HlsOp α} :
    (HlsOp.createParent path >>= f).Calls ok ↔
      (∀ parent ∈ path.parent?, ok (.createDirAll parent)) ∧ (f ()).Calls ok := by
  unfold HlsOp.createParent
  cases path.parent? with
  | none => simp [Fallible.pure_bind]
  | some parent => simp

/-- What is asked of the file system to generate the variant at `target` by way of `tmp`. -/
def GenerateCalls (ok : FileCall → Prop) (root target tmp : Path) (sourcePath : String) : Prop :=
  ok (.createDirAll root) ∧ ok (.exists tmp) ∧ ok (.removeDirAll tmp) ∧ ok (.createDirAll tmp) ∧
    ok (.remuxSource sourcePath) ∧ ok (.writeHlsOutput tmp) ∧ ok (.exists target) ∧
    ok (.removeDirAll target) ∧ (∀ parent ∈ target.parent?, ok (.createDirAll parent)) ∧
    ok (.rename tmp target) ∧ ok (.openSegments target)

theorem calls_generateHls {f : Path → HlsOp α} :
    (generateHls sourcePath trackId variant root pid secs >>= f).Calls ok ↔
      GenerateCalls ok root (variantDir root trackId variant)
        ((root.join trackId).join (tmpName variant pid secs)) sourcePath ∧
        (f (variantDir root trackId variant)).Calls ok := by
  unfold generateHls GenerateCalls variantDir
  simp only [Fallible.bind_assoc, Fallible.pure_bind, calls_call_bind, calls_createParent,
    calls_ifExists calls_tell_bind, calls_ifExists calls_call_bind, and_assoc]

/-- All calls for a pair of track and variant. -/
theorem calls_getOrGenerate :
    (getOrGenerate root sourcePath trackId variant pid secs).Calls ok ↔
      ok (.createDirAll root) ∧ ok (.enforceSizeLimit none) ∧
        ok (.openSegments (variantDir root trackId variant)) ∧
        ok (.touch (variantDir root trackId variant)) ∧
        GenerateCalls ok root (variantDir root trackId variant)
          ((root.join trackId).join (tmpName variant pid secs)) sourcePath ∧
        ok (.enforceSizeLimit (some (variantDir root trackId variant))) := by
  unfold getOrGenerate
  simp only [calls_call_bind, calls_attempt_call_bind, calls_generateHls, calls_pure, and_true,
    forall_const]
  tauto

end Calls

end Kanade
