import Kanade.Files.Tree
import Kanade.Hls.Alone
import Kanade.Hls.InUse

/-!
# Kanade.Hls.Generate

`generate_hls_with_options` on a disk whose operations may fail, each with a part of its work done: what is
left below the directory of the track.

* `generateHlsWith_noFaults`: without a failure it is `generateHls`.
* `all_or_nothing_iff`: when the call has done all or nothing. What it made stays behind if it fails after it
  has made the temporary directory, and the old variant is lost if the rename fails.
-/

namespace Kanade

open Concur Files CacheTask

/-! ## Failures -/

/-- The operations of a call that fail, with what they have done by then. -/
structure HlsFaults where
  /-- Of the directories to be made, so many and the last one are missing. -/
  cacheDir : Option Nat
  /-- Of the nodes to be removed, these are gone. -/
  removeTmp : Option (Dir → Bool)
  tmpDir : Option Nat
  /-- For each file, in the order they are written: it is missing, or so much of it is written. -/
  write : Nat → Option (Option Nat)
  removeTarget : Option (Dir → Bool)
  parent : Option Nat
  rename : Bool

def noFaults : HlsFaults where
  cacheDir := none
  removeTmp := none
  tmpDir := none
  write _ := none
  removeTarget := none
  parent := none
  rename := false

namespace CacheTask

/-- An operation that fails after it has done what `op` does. -/
def breakOff (lab : CacheStep) (op : FileSystem → Except String FileSystem) : CacheTask Unit :=
  Fallible.sect (fun _ _ => lab) fun fs => (.error "io error", (op fs).toOption.getD fs)

def createDirAllWith (fault : Option Nat) (lab : CacheStep) (d : Dir) : CacheTask Unit :=
  match fault with
  | none => change lab fun fs => fs.createDirAll d
  | some k => breakOff lab fun fs => fs.createDirAll (d.drop (k + 1))

def removeDirAllWith (fault : Option (Dir → Bool)) (lab : CacheStep) (d : Dir) : CacheTask Unit :=
  match fault with
  | none => change lab fun fs => fs.removeDirAll d
  | some gone => breakOff lab fun fs => fs.removeSome d gone

/-- Content that is missing is missed before the file is made. -/
def writeFileWith (fault : Option (Option Nat)) (path : Dir) (content : Except String Nat) : CacheTask Unit :=
  match fault with
  | none => HlsCache.writeFile path content
  | some part => breakOff .make fun fs => do
    let _ ← content
    match part with
    | none => .ok fs
    | some size => fs.write path size

end CacheTask

/-! ## The call -/

/-- The files of the segments, from that with number `index`. -/
def segmentFiles : Nat → List (Except String Nat) → List (String × Except String Nat)
  | _, [] => []
  | index, segment :: segments => (segName index, segment) :: segmentFiles (index + 1) segments

/-- The files in the order they are written. -/
def HlsOutput.files (output : HlsOutput) : List (String × Except String Nat) :=
  segmentFiles 0 output.segments ++ [("init.mp4", output.init), ("index.m3u8", output.playlist)]

namespace HlsCache

variable (cache : HlsCache)

def writeFilesWith (faults : HlsFaults) (dir : Dir) : Nat → List (String × Except String Nat) → CacheTask Unit
  | _, [] => pure ()
  | i, (name, content) :: files => do
    writeFileWith (faults.write i) (name :: dir) content
    writeFilesWith faults dir (i + 1) files

def writeHlsOutputWith (faults : HlsFaults) (dir : Path) (output : HlsOutput) : CacheTask Unit := do
  query (fun _ => .read) fun _ =>
    if output.segments = [] then
      .error "invalid data: no HLS chunks were produced from source track"
    else .ok ()
  writeFilesWith faults (cache.dirAt dir) 0 output.files

def createParentWith (fault : Option Nat) (path : Path) : CacheTask Unit :=
  match path.parent? with
  | some parent => createDirAllWith fault .make (cache.dirAt parent)
  | none => pure ()

def renameWith (fault : Bool) (src dst : Path) : CacheTask Unit :=
  if fault then breakOff (.rename src dst) .ok
  else change (.rename src dst) fun fs => fs.rename (cache.dirAt src) (cache.dirAt dst)

/-- `generate_hls_with_options`. -/
def generateHlsWith (faults : HlsFaults) (c : HlsCall) : CacheTask CachedSegments := do
  createDirAllWith faults.cacheDir .make (cache.dirAt cache.root)
  let secs ← query (fun _ => .read) fun fs => .ok fs.clock
  let tmpDir := cache.tmpDir c secs
  let targetDir := cache.targetDir c
  cache.ifExists tmpDir <| do
    let _ ← (removeDirAllWith faults.removeTmp (.remove tmpDir) (cache.dirAt tmpDir)).attempt
  createDirAllWith faults.tmpDir (.writing tmpDir) (cache.dirAt tmpDir)
  let output ← query (fun _ => .read) fun _ => c.remuxed
  cache.writeHlsOutputWith faults tmpDir output
  cache.ifExists targetDir <|
    removeDirAllWith faults.removeTarget (.remove targetDir) (cache.dirAt targetDir)
  cache.createParentWith faults.parent targetDir
  cache.renameWith faults.rename tmpDir targetDir
  cache.openSegments targetDir

/-! ### In three parts -/

def makeTmpDir (faults : HlsFaults) (c : HlsCall) : CacheTask Path := do
  createDirAllWith faults.cacheDir .make (cache.dirAt cache.root)
  let secs ← query (fun _ => .read) fun fs => .ok fs.clock
  let tmpDir := cache.tmpDir c secs
  cache.ifExists tmpDir <| do
    let _ ← (removeDirAllWith faults.removeTmp (.remove tmpDir) (cache.dirAt tmpDir)).attempt
  createDirAllWith faults.tmpDir (.writing tmpDir) (cache.dirAt tmpDir)
  pure tmpDir

def fillTmpDir (faults : HlsFaults) (c : HlsCall) (tmpDir : Path) : CacheTask Unit := do
  let output ← query (fun _ => .read) fun _ => c.remuxed
  cache.writeHlsOutputWith faults tmpDir output

def replaceTarget (faults : HlsFaults) (tmpDir targetDir : Path) : CacheTask CachedSegments := do
  cache.ifExists targetDir <|
    removeDirAllWith faults.removeTarget (.remove targetDir) (cache.dirAt targetDir)
  cache.createParentWith faults.parent targetDir
  cache.renameWith faults.rename tmpDir targetDir
  cache.openSegments targetDir

theorem generateHlsWith_eq (faults : HlsFaults) (c : HlsCall) :
    cache.generateHlsWith faults c = (do
      let tmpDir ← cache.makeTmpDir faults c
      cache.fillTmpDir faults c tmpDir
      cache.replaceTarget faults tmpDir (cache.targetDir c)) := by
  unfold generateHlsWith makeTmpDir fillTmpDir replaceTarget
  simp only [Fallible.bind_assoc, Fallible.pure_bind]

section None

variable {cache : HlsCache} {c : HlsCall} {d : Dir} {dir : Path} {output : HlsOutput}

theorem writeFilesWith_append {faults : HlsFaults} {files files' : List (String × Except String Nat)} {i : Nat} :
    writeFilesWith faults d i (files ++ files') =
      (do writeFilesWith faults d i files; writeFilesWith faults d (i + files.length) files') := by
  induction files generalizing i with
  | nil => rfl
  | cons file files ih =>
    obtain ⟨name, content⟩ := file
    have hcons : ∀ files, writeFilesWith faults d i ((name, content) :: files) =
        (do writeFileWith (faults.write i) (name :: d) content; writeFilesWith faults d (i + 1) files) :=
      fun files => rfl
    rw [List.cons_append, hcons, hcons, ih, Fallible.bind_assoc, List.length_cons, Nat.add_assoc, Nat.add_comm 1]

theorem writeFilesWith_segmentFiles {segments : List (Except String Nat)} {i index : Nat} :
    writeFilesWith noFaults (cache.dirAt dir) i (segmentFiles index segments) =
      cache.writeSegments dir index segments := by
  induction segments generalizing i index with
  | nil => rfl
  | cons segment segments ih =>
    unfold segmentFiles writeFilesWith writeSegments
    rw [ih]
    rfl

theorem writeHlsOutputWith_noFaults : cache.writeHlsOutputWith noFaults dir output = cache.writeHlsOutput dir output := by
  unfold writeHlsOutputWith writeHlsOutput HlsOutput.files
  rw [writeFilesWith_append, writeFilesWith_segmentFiles]
  have hlast : (do writeFile ("index.m3u8" :: cache.dirAt dir) output.playlist; pure ()) =
      writeFile ("index.m3u8" :: cache.dirAt dir) output.playlist := Fallible.bind_pure _
  rw [← hlast]
  rfl

/-- Nothing fails but what the disk itself does not allow. -/
theorem generateHlsWith_noFaults : cache.generateHlsWith noFaults c = cache.generateHls c := by
  unfold generateHlsWith generateHls
  simp only [writeHlsOutputWith_noFaults]
  rfl

end None

end HlsCache

/-! ## All or nothing -/

/-- The track and the variant are called as an entry of a directory may be. -/
structure NamedCall extends HlsCall where
  track : IsName trackId
  named : IsName variant

instance : Inhabited NamedCall :=
  ⟨{ trackId := "t", variant := "flac", remuxed := .error "", track := by decide, named := by decide }⟩

/-- What is gone of a node when the directory `d` is removed, or part of it. -/
def RemovedAt (fs : FileSystem) (fault : Option (Dir → Bool)) (d e : Dir) : Prop :=
  fs.shape d = some none ∧ e.Within d ∧ fault.all (fun gone => gone e) = true

instance (fs : FileSystem) (fault : Option (Dir → Bool)) (d e : Dir) : Decidable (RemovedAt fs fault d e) :=
  inferInstanceAs (Decidable (_ ∧ _))

/-- The files that are written, each with how much of it, and whether all are; not where a directory is. -/
def HlsFaults.written (faults : HlsFaults) (blocked : String → Bool) :
    Nat → List (String × Except String Nat) → List (String × Nat) × Bool
  | _, [] => ([], true)
  | _, (_, .error _) :: _ => ([], false)
  | i, (name, .ok size) :: files =>
    if blocked name then ([], false)
    else
      match faults.write i with
      | none => ((name, size) :: (faults.written blocked (i + 1) files).1, (faults.written blocked (i + 1) files).2)
      | some none => ([], false)
      | some (some part) => ([(name, part)], false)

namespace HlsCache

variable (cache : HlsCache) (c : HlsCall) (faults : HlsFaults) (fs : FileSystem)

def trackAt : Dir := cache.dirAt (cache.root.join c.trackId)

def tmpAt : Dir := cache.dirAt (cache.tmpDir c fs.clock)

def targetAt : Dir := cache.dirAt (cache.targetDir c)

/-- Below the directory of the track all is as it was, with one exemption: where the call found an earlier temporary
directory of the same name (of the same process and second, which the code removes before it makes its own), what
was in it may be gone, but nothing in it may be new or other than it was. -/
def Unchanged (fs' : FileSystem) : Prop :=
  ∀ e : Dir, e.Inside (cache.trackAt c) →
    (¬ e.Within (cache.tmpAt c fs) → fs'.node e = fs.node e) ∧
      (e.Within (cache.tmpAt c fs) → fs'.Has e → fs'.shape e = fs.shape e)

/-- All files are in the directory of the variant, and the temporary directory is gone. -/
structure Completed (fs' : FileSystem) : Prop where
  files : ∃ output, c.remuxed = .ok output ∧ output.segments ≠ [] ∧
    ∀ file ∈ output.files, ∃ size, file.2 = .ok size ∧ fs'.shape (file.1 :: cache.targetAt c) = some (some size)
  tmp : ∀ e : Dir, e.Within (cache.tmpAt c fs) → ¬ fs'.Has e

def AllOrNothing (result : Except String CachedSegments × FileSystem) : Prop :=
  match result.1 with
  | .ok _ => cache.Completed c fs result.2
  | .error _ => cache.Unchanged c fs result.2

/-! ## When it holds -/

/-- The call gets as far as to have the temporary directory. -/
structure MakesTmp : Prop where
  cacheDir : faults.cacheDir = none
  tmpDir : faults.tmpDir = none
  clear : fs.Clear (cache.tmpAt c fs)

/-- What gets into the temporary directory, and whether that is all. -/
def written : List (String × Nat) × Bool :=
  match c.remuxed with
  | .error _ => ([], false)
  | .ok output =>
    if output.segments = [] then ([], false)
    else
      faults.written (fun name => fs.isDir (name :: cache.tmpAt c fs) &&
        !decide (RemovedAt fs faults.removeTmp (cache.tmpAt c fs) (name :: cache.tmpAt c fs))) 0 output.files

/-- No step fails. -/
structure Completes : Prop where
  written : (cache.written c faults fs).2 = true
  target : ∀ size, fs.shape (cache.targetAt c) ≠ some (some size)
  removed : fs.shape (cache.targetAt c) = some none → faults.removeTarget = none
  parent : faults.parent = none
  renamed : faults.rename = false

/-- The call comes to an end before anything of the old variant is removed. -/
def Spares : Prop :=
  (cache.written c faults fs).2 = true →
    ∀ e, fs.Has e → ¬ RemovedAt fs faults.removeTarget (cache.targetAt c) e

/-- There was a temporary directory before, with all that the call has written. -/
def Found : Prop :=
  fs.shape (cache.tmpAt c fs) = some none ∧
    ∀ file ∈ (cache.written c faults fs).1, fs.shape (file.1 :: cache.tmpAt c fs) = some (some file.2)

end HlsCache

/-! ## Steps -/

section Steps

variable {fs fs' : FileSystem} {d e : Dir} {lab : CacheStep}

@[simp] theorem alone_breakOff (op : FileSystem → Except String FileSystem) :
    (breakOff lab op).alone fs = (.error "io error", (op fs).toOption.getD fs) := rfl

theorem alone_createDirAllWith_error {fault : Option Nat} (h : fault ≠ none ∨ ¬ fs.Clear d) :
    ∃ msg fs', (createDirAllWith fault lab d).alone fs = (.error msg, fs') ∧
      ∀ e, ¬ Dir.Within d.tail e → fs'.node e = fs.node e := by
  cases fault with
  | none =>
    rcases h with h | h
    · exact absurd rfl h
    cases hcreate : fs.createDirAll d with
    | ok fs' => exact absurd (FileSystem.createDirAll_iff.1 ⟨fs', hcreate⟩) h
    | error msg => exact ⟨msg, fs, alone_change_error hcreate, fun e _ => rfl⟩
  | some k =>
    refine ⟨_, _, alone_breakOff _, ?_⟩
    intro e he
    cases hcreate : fs.createDirAll (d.drop (k + 1)) with
    | error msg => rfl
    | ok fs' =>
      refine FileSystem.node_createDirAll hcreate fun hwithin => he (hwithin.trans ?_)
      rw [Nat.add_comm, ← List.drop_drop, List.drop_one]
      exact List.drop_suffix k d.tail

theorem alone_removeDirAllWith {fault : Option (Dir → Bool)} :
    ∃ r fs', (removeDirAllWith fault lab d).alone fs = (r, fs') ∧
      (r = .ok () ↔ fault = none ∧ fs.shape d = some none) ∧
      (∀ e, e ≠ d.tail → fs'.node e = if RemovedAt fs fault d e then none else fs.node e) ∧
      ∀ e, ¬ e.Within d → fs'.shape e = fs.shape e := by
  by_cases hdir : fs.shape d = some none
  · cases fault with
    | none =>
      obtain ⟨fs', hremove⟩ := FileSystem.removeDirAll_iff.2 hdir
      refine ⟨_, _, alone_change hremove, iff_of_true rfl ⟨rfl, hdir⟩, ?_, ?_⟩
      · intro e he
        rw [FileSystem.node_removeDirAll hremove he]
        exact if_congr (by simp [RemovedAt, hdir]) rfl rfl
      · intro e he
        rw [FileSystem.shape_removeDirAll hremove, if_neg he]
    | some gone =>
      have hremove : ∃ fs', fs.removeSome d gone = .ok fs' := ⟨_, if_pos hdir⟩
      obtain ⟨fs', hremove⟩ := hremove
      have hnode : ∀ e, fs'.node e = if RemovedAt fs (some gone) d e then none else fs.node e := by
        intro e
        rw [FileSystem.node_removeSome hremove]
        exact if_congr (by simp [RemovedAt, hdir]) rfl rfl
      refine ⟨.error "io error", fs', ?_, iff_of_false ?_ ?_, fun e _ => hnode e, ?_⟩
      · rw [removeDirAllWith, alone_breakOff, hremove]
        rfl
      · simp
      · simp
      · intro e he
        refine FileSystem.shape_of_node ?_
        rw [hnode, if_neg fun hremoved => he hremoved.2.1]
  · have hnot : ∀ e, ¬ RemovedAt fs fault d e := fun e hremoved => hdir hremoved.1
    have hsame : ∃ msg, (removeDirAllWith fault lab d).alone fs = (.error msg, fs) := by
      cases fault with
      | none =>
        cases hremove : fs.removeDirAll d with
        | ok fs' => exact absurd (FileSystem.removeDirAll_iff.1 ⟨fs', hremove⟩) hdir
        | error msg => exact ⟨msg, alone_change_error hremove⟩
      | some gone =>
        refine ⟨"io error", ?_⟩
        rw [removeDirAllWith, alone_breakOff, FileSystem.removeSome, if_neg hdir]
        rfl
    obtain ⟨msg, hsame⟩ := hsame
    refine ⟨_, _, hsame, iff_of_false (by simp) fun h => hdir h.2, ?_, fun e _ => rfl⟩
    intro e _
    rw [if_neg (hnot e)]

/-! ### The files -/

variable {blocked : String → Bool} {files : List (String × Except String Nat)} {i : Nat} {faults : HlsFaults}
  {name : String} {size : Nat}

theorem written_subset : ∀ file ∈ (faults.written blocked i files).1, file.1 ∈ files.map Prod.fst := by
  fun_induction HlsFaults.written faults blocked i files with
  | case1 | case2 | case3 | case5 =>
    intro file hfile
    cases hfile
  | case4 i name size files hblock hfault ih =>
    intro file hfile
    rcases List.mem_cons.1 hfile with rfl | hfile
    · exact List.mem_cons_self
    · exact List.mem_cons_of_mem _ (ih file hfile)
  | case6 i name size files hblock part hfault =>
    intro file hfile
    rw [List.mem_singleton.1 hfile]
    exact List.mem_cons_self

/-- Content that is missing, or a directory in the way. -/
theorem alone_writeFileWith_error {fault : Option (Option Nat)} {content : Except String Nat}
    (h : content.toOption = none ∨ fs.isDir d = true) :
    ∃ msg, (writeFileWith fault d content).alone fs = (.error msg, fs) := by
  have herror : ∀ n, fs.isDir d = true → ∃ msg, fs.write d n = .error msg := by
    intro n hdir
    cases hwrite : fs.write d n with
    | ok fs' => exact absurd hdir (FileSystem.write_iff.1 ⟨fs', hwrite⟩).2
    | error msg => exact ⟨msg, rfl⟩
  cases content with
  | error msg =>
    cases fault with
    | none => exact ⟨msg, rfl⟩
    | some part => exact ⟨_, rfl⟩
  | ok size =>
    have hdir := h.resolve_left (by simp [Except.toOption])
    cases fault with
    | none =>
      obtain ⟨msg, hwrite⟩ := herror size hdir
      exact ⟨msg, alone_change_error hwrite⟩
    | some part =>
      cases part with
      | none => exact ⟨_, rfl⟩
      | some part =>
        obtain ⟨msg, hwrite⟩ := herror part hdir
        refine ⟨"io error", ?_⟩
        rw [writeFileWith, alone_breakOff]
        simp only [bind, Except.bind, hwrite]
        rfl

theorem write_new (hd : d ≠ []) (hdir : fs.shape d = some none) (hblock : fs.isDir (name :: d) = false) (size : Nat) :
    ∃ fs', fs.write (name :: d) size = .ok fs' ∧ (∀ e, fs'.shape e = if e = name :: d then some (some size) else fs.shape e) ∧
      ∀ e, e ≠ name :: d → e ≠ d → fs'.node e = fs.node e := by
  have hfree : ¬ fs.isDir (name :: d) = true := by simp [hblock]
  obtain ⟨fs', hwrite⟩ := (@FileSystem.write_iff fs (name :: d) size).2 ⟨(FileSystem.isDir_iff_shape hd).2 hdir, hfree⟩
  exact ⟨fs', hwrite, fun e => FileSystem.shape_write hwrite, fun e he he' => FileSystem.node_write hwrite he he'⟩

theorem alone_writeFilesWith (hd : d ≠ []) (hdir : fs.shape d = some none) (hnames : (files.map Prod.fst).Nodup)
    (hblocked : ∀ name ∈ files.map Prod.fst, blocked name = fs.isDir (name :: d)) :
    ∃ r fs', (HlsCache.writeFilesWith faults d i files).alone fs = (r, fs') ∧
      (r = .ok () ↔ (faults.written blocked i files).2 = true) ∧
      (∀ file ∈ (faults.written blocked i files).1, fs'.shape (file.1 :: d) = some (some file.2)) ∧
      (∀ e, e ≠ d → (∀ file ∈ (faults.written blocked i files).1, e ≠ file.1 :: d) → fs'.node e = fs.node e) ∧
      fs'.shape d = some none := by
  fun_induction HlsFaults.written faults blocked i files generalizing fs with
  | case1 i =>
    refine ⟨_, _, alone_pure _ _, by simp, ?_, fun e _ _ => rfl, hdir⟩
    intro file hfile
    cases hfile
  | case2 i name msg files =>
    obtain ⟨msg', hhead⟩ := @alone_writeFileWith_error fs (name :: d) (faults.write i) (.error msg) (.inl rfl)
    refine ⟨_, _, alone_bind_error hhead, by simp, ?_, fun e _ _ => rfl, hdir⟩
    intro file hfile
    cases hfile
  | case3 i name size files hblock =>
    rw [hblocked name List.mem_cons_self] at hblock
    obtain ⟨msg, hhead⟩ := @alone_writeFileWith_error fs (name :: d) (faults.write i) (.ok size) (.inr hblock)
    refine ⟨_, _, alone_bind_error hhead, by simp, ?_, fun e _ _ => rfl, hdir⟩
    intro file hfile
    cases hfile
  | case4 i name size files hblock hfault ih =>
    obtain ⟨hfirst, hrest⟩ := List.nodup_cons.1 hnames
    rw [Bool.not_eq_true, hblocked name List.mem_cons_self] at hblock
    obtain ⟨fs₁, hwrite, hshape, hnode⟩ := write_new hd hdir hblock size
    have hne : d ≠ name :: d := fun heq => List.cons_ne_self name d heq.symm
    have hother : ∀ other ∈ files.map Prod.fst, other :: d ≠ name :: d :=
      fun other hother heq => hfirst ((List.cons.inj heq).1 ▸ hother)
    have hblocked₁ : ∀ other ∈ files.map Prod.fst, blocked other = fs₁.isDir (other :: d) := by
      intro other hmem
      rw [hblocked other (List.mem_cons_of_mem _ hmem), Bool.eq_iff_iff,
        FileSystem.isDir_iff_shape (List.cons_ne_nil _ _), FileSystem.isDir_iff_shape (List.cons_ne_nil _ _), hshape,
        if_neg (hother other hmem)]
    have hdir₁ : fs₁.shape d = some none := by rw [hshape, if_neg hne, hdir]
    obtain ⟨r, fs₂, hrun, hok, hwritten, hkept, hdir₂⟩ := ih hdir₁ hrest hblocked₁
    have hhead : (writeFileWith (faults.write i) (name :: d) (.ok size)).alone fs = (.ok (), fs₁) := by
      rw [hfault]
      exact alone_change hwrite
    refine ⟨r, fs₂, (alone_bind_ok hhead).trans hrun, hok, ?_, ?_, hdir₂⟩
    · intro file hfile
      rcases List.mem_cons.1 hfile with rfl | hfile
      · have hsame : fs₂.node (name :: d) = fs₁.node (name :: d) :=
          hkept _ (fun heq => hne heq.symm) fun file hfile heq => hother file.1 (written_subset file hfile) heq.symm
        rw [FileSystem.shape_of_node hsame, hshape, if_pos rfl]
      · exact hwritten file hfile
    · intro e he hout
      rw [hkept e he fun file hfile => hout file (List.mem_cons_of_mem _ hfile)]
      exact hnode e (hout _ List.mem_cons_self) he
  | case5 i name size files hblock hfault =>
    have hhead : (writeFileWith (faults.write i) (name :: d) (.ok size)).alone fs = (.error "io error", fs) := by
      rw [hfault]
      rfl
    refine ⟨_, _, alone_bind_error hhead, by simp, ?_, fun e _ _ => rfl, hdir⟩
    intro file hfile
    cases hfile
  | case6 i name size files hblock part hfault =>
    rw [Bool.not_eq_true, hblocked name List.mem_cons_self] at hblock
    obtain ⟨fs₁, hwrite, hshape, hnode⟩ := write_new hd hdir hblock part
    have hhead : (writeFileWith (faults.write i) (name :: d) (.ok size)).alone fs = (.error "io error", fs₁) := by
      rw [hfault, writeFileWith, alone_breakOff]
      simp only [bind, Except.bind, hwrite]
      rfl
    refine ⟨_, _, alone_bind_error hhead, by simp, ?_, ?_, ?_⟩
    · intro file hfile
      rw [List.mem_singleton.1 hfile, hshape, if_pos rfl]
    · intro e he hout
      exact hnode e (hout _ List.mem_cons_self) he
    · rw [hshape, if_neg fun heq => List.cons_ne_self name d heq.symm, hdir]

end Steps

/-! ## The parts -/

section Parts

variable {cache : HlsCache} {c : NamedCall} {faults : HlsFaults} {fs fs' : FileSystem} {e : Dir}

theorem trackAt_eq : cache.trackAt c.toHlsCall = c.trackId :: cache.dirAt cache.root := by
  rw [HlsCache.trackAt, join_eq_child c.track]
  exact resolve_child

theorem targetAt_eq : cache.targetAt c.toHlsCall = c.variant :: cache.trackAt c.toHlsCall := by
  rw [HlsCache.targetAt, HlsCache.targetDir, variantDir, join_eq_child c.named]
  exact resolve_child

theorem tmpAt_eq :
    cache.tmpAt c.toHlsCall fs = tmpName c.variant cache.pid fs.clock :: cache.trackAt c.toHlsCall := by
  rw [HlsCache.tmpAt, HlsCache.tmpDir, join_eq_child (isName_tmpName c.named.1)]
  exact resolve_child

theorem trackAt_ne_nil : cache.trackAt c.toHlsCall ≠ [] := by
  rw [trackAt_eq]
  exact List.cons_ne_nil _ _

theorem targetAt_ne_nil : cache.targetAt c.toHlsCall ≠ [] := by
  rw [targetAt_eq]
  exact List.cons_ne_nil _ _

theorem tmpAt_ne_nil : cache.tmpAt c.toHlsCall fs ≠ [] := by
  rw [tmpAt_eq]
  exact List.cons_ne_nil _ _

theorem tail_targetAt : (cache.targetAt c.toHlsCall).tail = cache.trackAt c.toHlsCall := by
  rw [targetAt_eq]
  rfl

theorem tail_tmpAt : (cache.tmpAt c.toHlsCall fs).tail = cache.trackAt c.toHlsCall := by
  rw [tmpAt_eq]
  rfl

/-- The name of the temporary directory is the longer one. -/
theorem not_within_tmpAt (he : e.Within (cache.targetAt c.toHlsCall)) : ¬ e.Within (cache.tmpAt c.toHlsCall fs) := by
  have hname : c.variant ≠ tmpName c.variant cache.pid fs.clock := by
    intro heq
    have hlength := congrArg (fun s : String => s.toList.length) heq
    simp only [tmpName_toList, List.length_cons, List.length_append] at hlength
    omega
  intro hin
  rw [targetAt_eq] at he
  rw [tmpAt_eq] at hin
  rcases List.suffix_or_suffix_of_suffix he hin with h | h
  · exact hname (List.cons.inj (h.eq_of_length rfl)).1
  · exact hname (List.cons.inj (h.eq_of_length rfl)).1.symm

theorem inside_trackAt (he : e.Within (cache.targetAt c.toHlsCall)) : e.Inside (cache.trackAt c.toHlsCall) := by
  rw [targetAt_eq] at he
  refine ⟨(List.suffix_cons _ _).trans he, ?_⟩
  rintro rfl
  exact absurd he.length_le (by simp)

theorem inside_trackAt_of_tmpAt (he : e.Within (cache.tmpAt c.toHlsCall fs)) :
    e.Inside (cache.trackAt c.toHlsCall) := by
  rw [tmpAt_eq] at he
  refine ⟨(List.suffix_cons _ _).trans he, ?_⟩
  rintro rfl
  exact absurd he.length_le (by simp)

/-- What is there of what is removed, or not, is as it was. -/
theorem shape_of_removedAt {fault : Option (Dir → Bool)} {d : Dir}
    (hnode : fs'.node e = if RemovedAt fs fault d e then none else fs.node e) (hhas : fs'.Has e) :
    fs'.shape e = fs.shape e := by
  split at hnode
  · exact absurd hhas (FileSystem.not_has_iff_node.2 hnode)
  · exact FileSystem.shape_of_node hnode

/-- What is left when the call has failed with a temporary directory at hand. -/
structure Stopped (cache : HlsCache) (c : HlsCall) (faults : HlsFaults) (fs fs' : FileSystem) : Prop where
  outside : ∀ e : Dir, e.Inside (cache.trackAt c) → ¬ e.Within (cache.tmpAt c fs) → fs'.node e =
    if (cache.written c faults fs).2 = true ∧ RemovedAt fs faults.removeTarget (cache.targetAt c) e then none
    else fs.node e
  tmp : fs'.shape (cache.tmpAt c fs) = some none
  files : ∀ file ∈ (cache.written c faults fs).1, fs'.shape (file.1 :: cache.tmpAt c fs) = some (some file.2)
  others : ∀ e : Dir, e.Inside (cache.tmpAt c fs) →
    (∀ file ∈ (cache.written c faults fs).1, e ≠ file.1 :: cache.tmpAt c fs) → fs'.Has e → fs'.shape e = fs.shape e

theorem Stopped.unchanged_iff (h : Stopped cache c.toHlsCall faults fs fs') :
    cache.Unchanged c.toHlsCall fs fs' ↔ cache.Spares c.toHlsCall faults fs ∧ cache.Found c.toHlsCall faults fs := by
  have htmp : (cache.tmpAt c.toHlsCall fs).Inside (cache.trackAt c.toHlsCall) :=
    inside_trackAt_of_tmpAt (List.suffix_refl _)
  have hfile : ∀ name, Dir.Within (name :: cache.tmpAt c.toHlsCall fs) (cache.tmpAt c.toHlsCall fs) :=
    fun name => List.suffix_cons _ _
  constructor
  · intro hsame
    refine ⟨?_, ?_, ?_⟩
    · intro hall e hhas hremoved
      have hin := inside_trackAt hremoved.2.1
      have hout : ¬ e.Within (cache.tmpAt c.toHlsCall fs) := not_within_tmpAt hremoved.2.1
      have hnone := h.outside e hin hout
      rw [if_pos ⟨hall, hremoved⟩, (hsame e hin).1 hout] at hnone
      exact FileSystem.not_has_iff_node.2 hnone hhas
    · rw [← (hsame _ htmp).2 (List.suffix_refl _) ?_, h.tmp]
      rw [FileSystem.has_iff_shape, h.tmp]
      simp
    · intro file hwritten
      rw [← (hsame _ (inside_trackAt_of_tmpAt (hfile file.1))).2 (hfile _) ?_, h.files file hwritten]
      rw [FileSystem.has_iff_shape, h.files file hwritten]
      simp
  · rintro ⟨hspares, hdir, hfound⟩ e he
    refine ⟨?_, ?_⟩
    · intro hout
      rw [h.outside e he hout]
      split
      · rename_i hremoved
        by_contra hne
        exact hspares hremoved.1 e (not_not.1 fun hnot => hne (FileSystem.not_has_iff_node.1 hnot).symm) hremoved.2
      · rfl
    · intro hin hhas
      by_cases htop : e = cache.tmpAt c.toHlsCall fs
      · rw [htop, h.tmp, hdir]
      · by_cases hwritten : ∃ file ∈ (cache.written c.toHlsCall faults fs).1, e = file.1 :: cache.tmpAt c.toHlsCall fs
        · obtain ⟨file, hfile, rfl⟩ := hwritten
          rw [h.files file hfile, hfound file hfile]
        · exact h.others e ⟨hin, htop⟩ (fun file hfile heq => hwritten ⟨file, hfile, heq⟩) hhas

/-! ### The temporary directory -/

theorem alone_ifExists {path : Path} {t : CacheTask Unit} :
    (cache.ifExists path t).alone fs = if fs.pathExists (cache.dirAt path) then t.alone fs else (.ok (), fs) := by
  have hthere := alone_query (fun _ => CacheStep.read)
    (fun fs : FileSystem => .ok (fs.pathExists (cache.dirAt path))) fs
  refine (alone_bind_ok hthere).trans ?_
  split <;> rfl

theorem alone_removeTmp {path : Path} {fault : Option (Dir → Bool)} {lab : CacheStep} :
    ∃ fs', (cache.ifExists path (do
        let _ ← (removeDirAllWith fault lab (cache.dirAt path)).attempt)).alone fs = (.ok (), fs') ∧
      (∀ e, e ≠ (cache.dirAt path).tail → fs'.node e = if RemovedAt fs fault (cache.dirAt path) e then none else fs.node e) ∧
      ∀ e, ¬ e.Within (cache.dirAt path) → fs'.shape e = fs.shape e := by
  rw [alone_ifExists]
  split
  · obtain ⟨r, fs', hrun, -, hnode, hshape⟩ := @alone_removeDirAllWith fs (cache.dirAt path) lab fault
    have hattempt := alone_attempt (removeDirAllWith fault lab (cache.dirAt path)) fs
    rw [hrun] at hattempt
    exact ⟨fs', alone_bind_ok hattempt, hnode, hshape⟩
  · rename_i hgone
    refine ⟨fs, rfl, ?_, fun e _ => rfl⟩
    intro e _
    rw [if_neg]
    rintro ⟨hdir, -⟩
    have hhas : fs.Has (cache.dirAt path) := FileSystem.has_iff_shape.2 (by simp [hdir])
    exact hgone (by simp [FileSystem.pathExists, hhas])

/-- What the call has when it has made the temporary directory. -/
structure Made (cache : HlsCache) (c : HlsCall) (faults : HlsFaults) (fs fs' : FileSystem) : Prop where
  outside : ∀ e : Dir, e.Inside (cache.trackAt c) → ¬ e.Within (cache.tmpAt c fs) → fs'.node e = fs.node e
  above : ∀ e : Dir, (cache.tmpAt c fs).Within e → e ≠ [] → fs'.shape e = some none
  inside : ∀ e : Dir, e.Inside (cache.tmpAt c fs) →
    fs'.node e = if RemovedAt fs faults.removeTmp (cache.tmpAt c fs) e then none else fs.node e

/-- The root of the cache is there, and an earlier temporary directory is gone, or part of it. -/
theorem alone_cleared {lab : CacheStep} {fs₁ : FileSystem} (hroot : fs.createDirAll (cache.dirAt cache.root) = .ok fs₁) :
    ∃ fs₂, (cache.ifExists (cache.tmpDir c.toHlsCall fs.clock) (do
        let _ ← (removeDirAllWith faults.removeTmp lab (cache.dirAt (cache.tmpDir c.toHlsCall fs.clock))).attempt)).alone
          fs₁ = (.ok (), fs₂) ∧
      (∀ e : Dir, e.Inside (cache.trackAt c.toHlsCall) → fs₂.node e =
        if RemovedAt fs faults.removeTmp (cache.tmpAt c.toHlsCall fs) e then none else fs.node e) ∧
      (fs₂.Clear (cache.tmpAt c.toHlsCall fs) ↔ fs.Clear (cache.tmpAt c.toHlsCall fs)) := by
  obtain ⟨fs₂, hrun, hnode, hshape⟩ := @alone_removeTmp cache fs₁ (cache.tmpDir c.toHlsCall fs.clock) faults.removeTmp lab
  have hdir : cache.dirAt (cache.tmpDir c.toHlsCall fs.clock) = cache.tmpAt c.toHlsCall fs := rfl
  rw [hdir] at hrun hnode hshape
  have hinside : (cache.tmpAt c.toHlsCall fs).Inside (cache.trackAt c.toHlsCall) :=
    inside_trackAt_of_tmpAt (List.suffix_refl _)
  -- the root of the cache is above the track
  have hout : ∀ e : Dir, e.Inside (cache.trackAt c.toHlsCall) → fs₁.node e = fs.node e := by
    intro e he
    refine FileSystem.node_createDirAll hroot fun hwithin => ?_
    have hle := (he.1.trans hwithin).length_le
    rw [trackAt_eq, List.length_cons] at hle
    omega
  have hsame : fs₁.shape (cache.tmpAt c.toHlsCall fs) = fs.shape (cache.tmpAt c.toHlsCall fs) :=
    FileSystem.shape_of_node (hout _ hinside)
  have hremoved : ∀ e, RemovedAt fs₁ faults.removeTmp (cache.tmpAt c.toHlsCall fs) e ↔
      RemovedAt fs faults.removeTmp (cache.tmpAt c.toHlsCall fs) e := by
    intro e
    rw [RemovedAt, RemovedAt, hsame]
  have hnodes : ∀ e : Dir, e.Inside (cache.trackAt c.toHlsCall) → fs₂.node e =
      if RemovedAt fs faults.removeTmp (cache.tmpAt c.toHlsCall fs) e then none else fs.node e := by
    intro e he
    rw [hnode e (tail_tmpAt ▸ he.2), hout e he]
    exact if_congr (hremoved e) rfl rfl
  refine ⟨fs₂, hrun, hnodes, ?_⟩
  have hclear : fs.Clear (cache.dirAt cache.root) := FileSystem.createDirAll_iff.1 ⟨fs₁, hroot⟩
  refine forall_congr' fun e => imp_congr_right fun he => imp_congr_right fun hne => ?_
  by_cases heq : e = cache.tmpAt c.toHlsCall fs
  · rw [heq]
    have hat := hnodes _ hinside
    by_cases hgone : RemovedAt fs faults.removeTmp (cache.tmpAt c.toHlsCall fs) (cache.tmpAt c.toHlsCall fs)
    · rw [if_pos hgone] at hat
      rw [FileSystem.shape, hat, hgone.1]
      simp
    · rw [if_neg hgone] at hat
      rw [FileSystem.shape_of_node hat]
  · have hnot : ¬ e.Within (cache.tmpAt c.toHlsCall fs) :=
      fun hwithin => heq (he.eq_of_length_le hwithin.length_le)
    rw [hshape e hnot, FileSystem.shape_createDirAll hroot]
    by_cases hwithin : (cache.dirAt cache.root).Within e ∧ e ≠ []
    · rw [if_pos hwithin]
      refine iff_of_true (by simp) ?_
      exact fun size => hclear e hwithin.1 hne size
    · rw [if_neg hwithin]

theorem alone_makeTmpDir_cleared (hfault : faults.cacheDir = none) (hclear : fs.Clear (cache.dirAt cache.root)) :
    ∃ fs₂, (cache.makeTmpDir faults c.toHlsCall).alone fs =
        CacheTask.alone (do
          createDirAllWith faults.tmpDir (.writing (cache.tmpDir c.toHlsCall fs.clock)) (cache.tmpAt c.toHlsCall fs)
          pure (cache.tmpDir c.toHlsCall fs.clock)) fs₂ ∧
      (∀ e : Dir, e.Inside (cache.trackAt c.toHlsCall) → fs₂.node e =
        if RemovedAt fs faults.removeTmp (cache.tmpAt c.toHlsCall fs) e then none else fs.node e) ∧
      (fs₂.Clear (cache.tmpAt c.toHlsCall fs) ↔ fs.Clear (cache.tmpAt c.toHlsCall fs)) := by
  obtain ⟨fs₁, hroot⟩ := FileSystem.createDirAll_iff.2 hclear
  obtain ⟨fs₂, hrun, hnodes, hclear₂⟩ :=
    @alone_cleared cache c faults fs (.remove (cache.tmpDir c.toHlsCall fs.clock)) fs₁ hroot
  refine ⟨fs₂, ?_, hnodes, hclear₂⟩
  have hcreate : (createDirAllWith faults.cacheDir .make (cache.dirAt cache.root)).alone fs = (.ok (), fs₁) := by
    rw [hfault]
    exact alone_change hroot
  have hclock : (query (fun _ => CacheStep.read) fun fs : FileSystem => .ok fs.clock).alone fs₁ = (.ok fs.clock, fs₁) := by
    rw [alone_query, FileSystem.clock_createDirAll hroot]
  unfold HlsCache.makeTmpDir
  rw [alone_bind_ok hcreate, alone_bind_ok hclock, alone_bind_ok hrun]
  rfl

theorem not_within_of_inside_trackAt (he : e.Inside (cache.trackAt c.toHlsCall)) :
    ¬ (cache.trackAt c.toHlsCall).Within e :=
  fun hwithin => he.2 (he.1.eq_of_length_le hwithin.length_le).symm

theorem alone_makeTmpDir (h : cache.MakesTmp c.toHlsCall faults fs) :
    ∃ fs', (cache.makeTmpDir faults c.toHlsCall).alone fs = (.ok (cache.tmpDir c.toHlsCall fs.clock), fs') ∧
      Made cache c.toHlsCall faults fs fs' := by
  have hroot : (cache.tmpAt c.toHlsCall fs).Within (cache.dirAt cache.root) := by
    rw [tmpAt_eq, trackAt_eq]
    exact (List.suffix_cons _ _).trans (List.suffix_cons _ _)
  obtain ⟨fs₂, hrun, hnodes, hclear⟩ :=
    @alone_makeTmpDir_cleared cache c faults fs h.cacheDir (h.clear.of_within hroot)
  obtain ⟨fs', hcreate⟩ := FileSystem.createDirAll_iff.2 (hclear.2 h.clear)
  have hmake : (createDirAllWith faults.tmpDir (.writing (cache.tmpDir c.toHlsCall fs.clock))
      (cache.tmpAt c.toHlsCall fs)).alone fs₂ = (.ok (), fs') := by
    rw [h.tmpDir]
    exact alone_change hcreate
  have hsame : ∀ e : Dir, ¬ (cache.tmpAt c.toHlsCall fs).Within e → e.Inside (cache.trackAt c.toHlsCall) →
      fs'.node e = if RemovedAt fs faults.removeTmp (cache.tmpAt c.toHlsCall fs) e then none else fs.node e := by
    intro e hout he
    rw [FileSystem.node_createDirAll hcreate hout, hnodes e he]
  refine ⟨fs', hrun.trans (alone_bind_ok hmake), ?_, ?_, ?_⟩
  · intro e he hout
    rw [hsame e ?_ he, if_neg fun hremoved => hout hremoved.2.1]
    intro hwithin
    rw [tmpAt_eq] at hwithin
    rcases List.suffix_cons_iff.1 hwithin with heq | hwithin
    · exact hout (by rw [heq, tmpAt_eq]; exact List.suffix_refl _)
    · exact not_within_of_inside_trackAt he hwithin
  · intro e he hne
    rw [FileSystem.shape_createDirAll hcreate, if_pos ⟨he, hne⟩]
  · intro e he
    exact hsame e (fun hwithin => he.2 (he.1.eq_of_length_le hwithin.length_le).symm) (inside_trackAt_of_tmpAt he.1)

theorem alone_makeTmpDir_error (h : ¬ cache.MakesTmp c.toHlsCall faults fs) :
    ∃ msg fs', (cache.makeTmpDir faults c.toHlsCall).alone fs = (.error msg, fs') ∧
      cache.Unchanged c.toHlsCall fs fs' := by
  by_cases hroot : faults.cacheDir = none ∧ fs.Clear (cache.dirAt cache.root)
  · obtain ⟨fs₂, hrun, hnodes, hclear⟩ := @alone_makeTmpDir_cleared cache c faults fs hroot.1 hroot.2
    have hfails : faults.tmpDir ≠ none ∨ ¬ fs₂.Clear (cache.tmpAt c.toHlsCall fs) := by
      by_contra hall
      obtain ⟨hfault, hfree⟩ := not_or.1 hall
      exact h ⟨hroot.1, not_not.1 hfault, hclear.1 (not_not.1 hfree)⟩
    obtain ⟨msg, fs', hmake, hsame⟩ :=
      @alone_createDirAllWith_error fs₂ _ (.writing (cache.tmpDir c.toHlsCall fs.clock)) _ hfails
    refine ⟨msg, fs', hrun.trans (alone_bind_error hmake), ?_⟩
    intro e he
    have hnode : fs'.node e = if RemovedAt fs faults.removeTmp (cache.tmpAt c.toHlsCall fs) e then none else fs.node e := by
      rw [hsame e, hnodes e he]
      rw [tmpAt_eq]
      exact not_within_of_inside_trackAt he
    refine ⟨?_, ?_⟩
    · intro hout
      rw [hnode, if_neg fun hremoved => hout hremoved.2.1]
    · exact fun _ hhas => shape_of_removedAt hnode hhas
  · have hfails : faults.cacheDir ≠ none ∨ ¬ fs.Clear (cache.dirAt cache.root) := by
      by_cases hfault : faults.cacheDir = none
      · exact .inr fun hclear => hroot ⟨hfault, hclear⟩
      · exact .inl hfault
    obtain ⟨msg, fs', hcreate, hsame⟩ := @alone_createDirAllWith_error fs _ .make _ hfails
    have hnode : ∀ e : Dir, e.Inside (cache.trackAt c.toHlsCall) → fs'.node e = fs.node e := by
      intro e he
      refine hsame e fun hwithin => not_within_of_inside_trackAt he ?_
      rw [trackAt_eq]
      exact (hwithin.trans (List.tail_suffix _)).trans (List.suffix_cons _ _)
    exact ⟨msg, fs', alone_bind_error hcreate,
      fun e he => ⟨fun _ => hnode e he, fun _ _ => FileSystem.shape_of_node (hnode e he)⟩⟩

/-! ### The files -/

/-- What the call has when it has written the files, or as many as it could. -/
structure Filled (cache : HlsCache) (c : HlsCall) (faults : HlsFaults) (fs fs' : FileSystem) : Prop where
  outside : ∀ e : Dir, e.Inside (cache.trackAt c) → ¬ e.Within (cache.tmpAt c fs) → fs'.node e = fs.node e
  above : ∀ e : Dir, (cache.tmpAt c fs).Within e → e ≠ [] → fs'.shape e = some none
  files : ∀ file ∈ (cache.written c faults fs).1, fs'.shape (file.1 :: cache.tmpAt c fs) = some (some file.2)
  others : ∀ e : Dir, e.Inside (cache.tmpAt c fs) →
    (∀ file ∈ (cache.written c faults fs).1, e ≠ file.1 :: cache.tmpAt c fs) → fs'.Has e → fs'.shape e = fs.shape e

theorem names_segmentFiles {segments : List (Except String Nat)} {index : Nat} :
    (segmentFiles index segments).map Prod.fst = (List.range' index segments.length).map segName := by
  induction segments generalizing index with
  | nil => rfl
  | cons segment segments ih =>
    unfold segmentFiles
    rw [List.map_cons, ih, List.length_cons, List.range'_succ, List.map_cons]

theorem nodup_files (output : HlsOutput) : (output.files.map Prod.fst).Nodup := by
  have hlast : ["init.mp4", "index.m3u8"].Nodup := by decide
  rw [HlsOutput.files, List.map_append, names_segmentFiles]
  refine List.Nodup.append (List.Nodup.map segName_injective (List.nodup_range' 1)) hlast ?_
  intro name hname hother
  obtain ⟨index, -, rfl⟩ := List.mem_map.1 hname
  simp only [List.map_cons, List.map_nil, List.mem_cons, List.not_mem_nil, or_false] at hother
  rcases hother with heq | heq
  · exact segName_ne (by decide) index heq
  · exact segName_ne (by decide) index heq

theorem Made.filled {fs₁ : FileSystem} (h : Made cache c.toHlsCall faults fs fs₁)
    (hnone : (cache.written c.toHlsCall faults fs).1 = []) : Filled cache c.toHlsCall faults fs fs₁ where
  outside := h.outside
  above := h.above
  files := by
    rw [hnone]
    intro file hfile
    cases hfile
  others := fun e he _ hhas => shape_of_removedAt (h.inside e he) hhas

theorem alone_fillTmpDir {fs₁ : FileSystem} (h : Made cache c.toHlsCall faults fs fs₁) :
    ∃ r fs', (cache.fillTmpDir faults c.toHlsCall (cache.tmpDir c.toHlsCall fs.clock)).alone fs₁ = (r, fs') ∧
      (r = .ok () ↔ (cache.written c.toHlsCall faults fs).2 = true) ∧ Filled cache c.toHlsCall faults fs fs' := by
  have hquery : (query (fun _ => CacheStep.read) fun _ : FileSystem => c.remuxed).alone fs₁ = (c.remuxed, fs₁) :=
    alone_query _ _ _
  unfold HlsCache.fillTmpDir
  cases hremux : c.remuxed with
  | error msg =>
    have hwritten : cache.written c.toHlsCall faults fs = ([], false) := by
      unfold HlsCache.written
      rw [hremux]
    rw [hremux] at hquery
    exact ⟨_, _, alone_bind_error hquery, by simp [hwritten], h.filled (by rw [hwritten])⟩
  | ok output =>
    rw [hremux] at hquery
    rw [alone_bind_ok hquery]
    unfold HlsCache.writeHlsOutputWith
    by_cases hempty : output.segments = []
    · have hwritten : cache.written c.toHlsCall faults fs = ([], false) := by
        unfold HlsCache.written
        rw [hremux]
        exact if_pos hempty
      rw [if_pos hempty]
      exact ⟨_, _, alone_bind_error (alone_query _ _ _), by simp [hwritten], h.filled (by rw [hwritten])⟩
    · have hwritten : cache.written c.toHlsCall faults fs = faults.written (fun name =>
          fs.isDir (name :: cache.tmpAt c.toHlsCall fs) && !decide (RemovedAt fs faults.removeTmp
            (cache.tmpAt c.toHlsCall fs) (name :: cache.tmpAt c.toHlsCall fs))) 0 output.files := by
        unfold HlsCache.written
        rw [hremux]
        exact if_neg hempty
      have hthere : (query (fun _ => CacheStep.read) fun _ : FileSystem => .ok ()).alone fs₁ = (.ok (), fs₁) :=
        alone_query _ _ _
      have hdir : fs₁.shape (cache.tmpAt c.toHlsCall fs) = some none :=
        h.above _ (List.suffix_refl _) tmpAt_ne_nil
      have hblocked : ∀ name ∈ output.files.map Prod.fst, (fs.isDir (name :: cache.tmpAt c.toHlsCall fs) &&
          !decide (RemovedAt fs faults.removeTmp (cache.tmpAt c.toHlsCall fs) (name :: cache.tmpAt c.toHlsCall fs))) =
          fs₁.isDir (name :: cache.tmpAt c.toHlsCall fs) := by
        intro name _
        have hnode := h.inside (name :: cache.tmpAt c.toHlsCall fs)
          ⟨List.suffix_cons _ _, List.cons_ne_self _ _⟩
        unfold FileSystem.isDir
        rw [hnode]
        split
        · rename_i hremoved
          simp [hremoved]
        · rename_i hremoved
          simp [hremoved]
      obtain ⟨r, fs', hrun, hok, hfiles, hsame, hdir'⟩ :=
        @alone_writeFilesWith fs₁ _ _ output.files 0 faults tmpAt_ne_nil hdir (nodup_files output) hblocked
      rw [if_neg hempty, alone_bind_ok hthere]
      refine ⟨r, fs', hrun, hwritten ▸ hok, ?_, ?_, hwritten ▸ hfiles, ?_⟩
      · intro e he hout
        rw [hsame e ?_ ?_, h.outside e he hout]
        · exact fun heq => hout (heq ▸ List.suffix_refl _)
        · exact fun file _ heq => hout (heq ▸ List.suffix_cons _ _)
      · intro e he hne'
        by_cases htop : e = cache.tmpAt c.toHlsCall fs
        · rw [htop, hdir']
        · rw [FileSystem.shape_of_node (hsame e htop ?_), h.above e he hne']
          intro file _ heq
          have hle := he.length_le
          rw [heq, List.length_cons] at hle
          omega
      · intro e he hother hhas
        rw [hwritten] at hother
        exact shape_of_removedAt ((hsame e he.2 hother).trans (h.inside e he)) hhas

/-! ### The target -/

theorem written_all {blocked : String → Bool} {files : List (String × Except String Nat)} {i : Nat}
    (hall : (faults.written blocked i files).2 = true) :
    ∀ file ∈ files, ∃ size, file.2 = .ok size ∧ (file.1, size) ∈ (faults.written blocked i files).1 := by
  fun_induction HlsFaults.written faults blocked i files with
  | case1 =>
    intro file hfile
    cases hfile
  | case2 | case3 | case5 | case6 => cases hall
  | case4 i name size files hblock hfault ih =>
    intro file hfile
    rcases List.mem_cons.1 hfile with rfl | hfile
    · exact ⟨size, rfl, List.mem_cons_self⟩
    · obtain ⟨size', hcontent, hmem⟩ := ih hall file hfile
      exact ⟨size', hcontent, List.mem_cons_of_mem _ hmem⟩

/-- The call stops with the files written and the target removed, or part of it. -/
theorem Filled.stopped {fs₁ : FileSystem} (h : Filled cache c.toHlsCall faults fs fs₁)
    (hwritten : (cache.written c.toHlsCall faults fs).2 = true)
    (hnodes : ∀ e : Dir, e.Inside (cache.trackAt c.toHlsCall) → fs'.node e =
      if RemovedAt fs faults.removeTarget (cache.targetAt c.toHlsCall) e then none else fs₁.node e) :
    Stopped cache c.toHlsCall faults fs fs' := by
  have hinside : ∀ e : Dir, e.Within (cache.tmpAt c.toHlsCall fs) → fs'.node e = fs₁.node e := by
    intro e he
    rw [hnodes e, if_neg]
    · exact fun hremoved => not_within_tmpAt hremoved.2.1 he
    · exact inside_trackAt_of_tmpAt he
  refine ⟨?_, ?_, ?_, ?_⟩
  · intro e he hout
    rw [hnodes e he, h.outside e he hout]
    exact if_congr (by rw [and_iff_right hwritten]) rfl rfl
  · rw [FileSystem.shape_of_node (hinside _ (List.suffix_refl _))]
    exact h.above _ (List.suffix_refl _) tmpAt_ne_nil
  · intro file hfile
    rw [FileSystem.shape_of_node (hinside _ (List.suffix_cons _ _)), h.files file hfile]
  · intro e he hother hhas
    have hsame := FileSystem.shape_of_node (hinside e he.1)
    rw [FileSystem.has_iff_shape, hsame, ← FileSystem.has_iff_shape] at hhas
    rw [hsame, h.others e he hother hhas]

/-- The old variant is removed, or part of it. -/
theorem alone_removeTarget {lab : CacheStep} {fs₁ : FileSystem} (h : Filled cache c.toHlsCall faults fs fs₁) :
    ∃ r fs₂, (cache.ifExists (cache.targetDir c.toHlsCall)
        (removeDirAllWith faults.removeTarget lab (cache.dirAt (cache.targetDir c.toHlsCall)))).alone fs₁ = (r, fs₂) ∧
      (r = .ok () ↔ (∀ size, fs.shape (cache.targetAt c.toHlsCall) ≠ some (some size)) ∧
        (fs.shape (cache.targetAt c.toHlsCall) = some none → faults.removeTarget = none)) ∧
      (∀ e : Dir, e.Inside (cache.trackAt c.toHlsCall) → fs₂.node e =
        if RemovedAt fs faults.removeTarget (cache.targetAt c.toHlsCall) e then none else fs₁.node e) ∧
      ∀ e : Dir, ¬ e.Within (cache.targetAt c.toHlsCall) → fs₂.shape e = fs₁.shape e := by
  have hin : (cache.targetAt c.toHlsCall).Inside (cache.trackAt c.toHlsCall) := inside_trackAt (List.suffix_refl _)
  have hsame : fs₁.shape (cache.targetAt c.toHlsCall) = fs.shape (cache.targetAt c.toHlsCall) :=
    FileSystem.shape_of_node (h.outside _ hin (not_within_tmpAt (List.suffix_refl _)))
  have hremoved : ∀ e, RemovedAt fs₁ faults.removeTarget (cache.targetAt c.toHlsCall) e ↔
      RemovedAt fs faults.removeTarget (cache.targetAt c.toHlsCall) e := by
    intro e
    rw [RemovedAt, RemovedAt, hsame]
  have hexists : fs₁.pathExists (cache.targetAt c.toHlsCall) = true ↔ fs.shape (cache.targetAt c.toHlsCall) ≠ none := by
    rw [← hsame, ← FileSystem.has_iff_shape, targetAt_eq]
    exact FileSystem.pathExists_cons fs₁
  rw [alone_ifExists]
  split
  · rename_i hthere
    obtain ⟨r, fs₂, hrun, hok, hnode, hshape⟩ :=
      @alone_removeDirAllWith fs₁ (cache.targetAt c.toHlsCall) lab faults.removeTarget
    refine ⟨r, fs₂, hrun, hok.trans ?_, ?_, hshape⟩
    · rw [hsame]
      have hsome := hexists.1 hthere
      cases hat : fs.shape (cache.targetAt c.toHlsCall) with
      | none => exact absurd hat hsome
      | some kind => cases kind <;> simp
    · intro e he
      rw [hnode e (tail_targetAt ▸ he.2)]
      exact if_congr (hremoved e) rfl rfl
  · rename_i hgone
    have hnone := not_not.1 fun hne => hgone (hexists.2 hne)
    refine ⟨_, fs₁, rfl, iff_of_true rfl (by simp [hnone]), ?_, fun e _ => rfl⟩
    intro e _
    rw [if_neg]
    rintro ⟨hdir, -⟩
    rw [hnone] at hdir
    cases hdir

theorem alone_createParentWith {fault : Option Nat}
    (habove : ∀ e : Dir, (cache.trackAt c.toHlsCall).Within e → e ≠ [] → fs.shape e = some none) :
    ∃ r fs', (cache.createParentWith fault (cache.targetDir c.toHlsCall)).alone fs = (r, fs') ∧
      (r = .ok () ↔ fault = none) ∧
      (∀ e : Dir, e.Inside (cache.trackAt c.toHlsCall) → fs'.node e = fs.node e) ∧
      (r = .ok () → fs'.isDir (cache.trackAt c.toHlsCall) = true) := by
  have hparent : (cache.targetDir c.toHlsCall).parent? = some (cache.root.join c.trackId) := by
    rw [HlsCache.targetDir, variantDir, join_eq_child c.named, Path.child, Path.parent?, if_neg (by simp)]
    simp
  have hdir : cache.dirAt (cache.root.join c.trackId) = cache.trackAt c.toHlsCall := rfl
  unfold HlsCache.createParentWith
  rw [hparent]
  dsimp only
  rw [hdir]
  cases fault with
  | none =>
    have hclear : fs.Clear (cache.trackAt c.toHlsCall) := by
      intro e he hne size
      rw [habove e he hne]
      simp
    obtain ⟨fs', hcreate⟩ := FileSystem.createDirAll_iff.2 hclear
    refine ⟨_, fs', alone_change hcreate, iff_of_true rfl rfl, ?_, ?_⟩
    · exact fun e he => FileSystem.node_createDirAll hcreate (not_within_of_inside_trackAt he)
    · intro _
      rw [FileSystem.isDir_iff_shape trackAt_ne_nil, FileSystem.shape_createDirAll hcreate,
        if_pos ⟨List.suffix_refl _, trackAt_ne_nil⟩]
  | some k =>
    have hfails : some k ≠ none ∨ ¬ fs.Clear (cache.trackAt c.toHlsCall) := .inl (by simp)
    obtain ⟨msg, fs', hcreate, hsame⟩ := @alone_createDirAllWith_error fs _ .make _ hfails
    refine ⟨_, fs', hcreate, iff_of_false (by simp) (by simp), ?_, by simp⟩
    intro e he
    refine hsame e fun hwithin => not_within_of_inside_trackAt he ?_
    exact List.IsSuffix.trans hwithin (List.tail_suffix _)

/-- Up to the rename. -/
theorem alone_replaceTarget_cases {fs₁ : FileSystem} (h : Filled cache c.toHlsCall faults fs fs₁) :
    ∃ fs₃, (∀ e : Dir, e.Inside (cache.trackAt c.toHlsCall) → fs₃.node e =
        if RemovedAt fs faults.removeTarget (cache.targetAt c.toHlsCall) e then none else fs₁.node e) ∧
      ((∃ msg, (cache.replaceTarget faults (cache.tmpDir c.toHlsCall fs.clock) (cache.targetDir c.toHlsCall)).alone fs₁ =
          (.error msg, fs₃) ∧ ¬ cache.Completes c.toHlsCall faults fs) ∨
        (cache.replaceTarget faults (cache.tmpDir c.toHlsCall fs.clock) (cache.targetDir c.toHlsCall)).alone fs₁ =
            CacheTask.alone (do
              cache.renameWith faults.rename (cache.tmpDir c.toHlsCall fs.clock) (cache.targetDir c.toHlsCall)
              cache.openSegments (cache.targetDir c.toHlsCall)) fs₃ ∧
          fs₃.isDir (cache.trackAt c.toHlsCall) = true ∧
          ((cache.written c.toHlsCall faults fs).2 = true → faults.rename = false →
            cache.Completes c.toHlsCall faults fs)) := by
  obtain ⟨r, fs₂, hremove, hok, hnodes, hshape⟩ :=
    @alone_removeTarget cache c faults fs (.remove (cache.targetDir c.toHlsCall)) fs₁ h
  unfold HlsCache.replaceTarget
  cases r with
  | error msg =>
    refine ⟨fs₂, hnodes, .inl ⟨msg, alone_bind_error hremove, fun hcompletes => ?_⟩⟩
    cases hok.2 ⟨hcompletes.target, hcompletes.removed⟩
  | ok _ =>
    obtain ⟨htarget, hremoved⟩ := hok.1 rfl
    have habove : ∀ e : Dir, (cache.trackAt c.toHlsCall).Within e → e ≠ [] → fs₂.shape e = some none := by
      intro e he hne
      rw [hshape e ?_]
      · refine h.above e ?_ hne
        rw [tmpAt_eq]
        exact he.trans (List.suffix_cons _ _)
      · intro hwithin
        have hle := hwithin.length_le.trans he.length_le
        rw [targetAt_eq, List.length_cons] at hle
        omega
    obtain ⟨r, fs₃, hparent, hok', hsame, hdir⟩ :=
      @alone_createParentWith cache c fs₂ faults.parent habove
    refine ⟨fs₃, fun e he => (hsame e he).trans (hnodes e he), ?_⟩
    rw [alone_bind_ok hremove]
    cases r with
    | error msg =>
      refine .inl ⟨msg, alone_bind_error hparent, fun hcompletes => ?_⟩
      cases hok'.2 hcompletes.parent
    | ok _ =>
      rw [alone_bind_ok hparent]
      exact .inr ⟨rfl, hdir rfl, fun hwritten hrename => ⟨hwritten, htarget, hremoved, hok'.1 rfl, hrename⟩⟩

/-- All that is to be written is, when all is. -/
theorem written_output (hwritten : (cache.written c.toHlsCall faults fs).2 = true) :
    ∃ output, c.remuxed = .ok output ∧ output.segments ≠ [] ∧ ∀ file ∈ output.files, ∃ size, file.2 = .ok size ∧
      (file.1, size) ∈ (cache.written c.toHlsCall faults fs).1 := by
  unfold HlsCache.written at hwritten ⊢
  cases hremux : c.remuxed with
  | error msg =>
    rw [hremux] at hwritten
    cases hwritten
  | ok output =>
    rw [hremux] at hwritten
    dsimp only at hwritten ⊢
    by_cases hempty : output.segments = []
    · rw [if_pos hempty] at hwritten
      cases hwritten
    · rw [if_neg hempty] at hwritten
      refine ⟨output, rfl, hempty, ?_⟩
      rw [if_neg hempty]
      exact written_all hwritten

/-- The files of an output are enough to open the directory. -/
theorem alone_openSegments {path : Path} {output : HlsOutput} (hsegments : output.segments ≠ [])
    (hfiles : ∀ file ∈ output.files, fs.Has (file.1 :: cache.dirAt path)) :
    ∃ segments, (cache.openSegments path).alone fs = (.ok segments, fs) := by
  have hindex : fs.Has ("index.m3u8" :: cache.dirAt path) := hfiles ("index.m3u8", output.playlist) (by simp [HlsOutput.files])
  have hinit : fs.Has ("init.mp4" :: cache.dirAt path) := hfiles ("init.mp4", output.init) (by simp [HlsOutput.files])
  have hfirst : fs.Has (segName 0 :: cache.dirAt path) := by
    obtain ⟨segment, segments, hcons⟩ := List.exists_cons_of_ne_nil hsegments
    exact hfiles (segName 0, segment) (by simp [HlsOutput.files, hcons, segmentFiles])
  have hcount : segmentCount fs (cache.dirAt path) ≠ 0 := by
    intro hzero
    have hnot := @not_has_segmentCount (cache.dirAt path) fs
    rw [hzero] at hnot
    exact hnot hfirst
  unfold HlsCache.openSegments
  rw [alone_query]
  simp only [FileSystem.pathExists_cons, hindex, hinit, not_true_eq_false, or_self, if_false, hcount]
  exact ⟨_, rfl⟩

theorem alone_replaceTarget (tree : Tree) {fs₁ : FileSystem} (h : Filled cache c.toHlsCall faults tree.toFileSystem fs₁)
    (hcompletes : cache.Completes c.toHlsCall faults tree.toFileSystem) :
    ∃ segments fs', (cache.replaceTarget faults (cache.tmpDir c.toHlsCall tree.clock) (cache.targetDir c.toHlsCall)).alone fs₁ =
      (.ok segments, fs') ∧ cache.Completed c.toHlsCall tree.toFileSystem fs' := by
  obtain ⟨fs₃, hnodes, hstop | ⟨hrun, hdir, -⟩⟩ := alone_replaceTarget_cases h
  · obtain ⟨msg, -, hnot⟩ := hstop
    exact absurd hcompletes hnot
  have hstopped := h.stopped hcompletes.written hnodes
  have hsrc : fs₃.Has (cache.tmpAt c.toHlsCall tree.toFileSystem) := by
    rw [FileSystem.has_iff_shape, hstopped.tmp]
    simp
  have hdst : ¬ (cache.targetAt c.toHlsCall).Within (cache.tmpAt c.toHlsCall tree.toFileSystem) :=
    not_within_tmpAt (List.suffix_refl _)
  have hnone : ∀ e : Dir, e.Within (cache.targetAt c.toHlsCall) → fs₃.node e = none := by
    intro e he
    rw [hnodes e (inside_trackAt he)]
    split
    · rfl
    · rename_i hkept
      rw [h.outside e (inside_trackAt he) (not_within_tmpAt he), ← FileSystem.not_has_iff_node]
      intro hhas
      -- what is in the target lies in a directory there, which has been removed
      have hat : tree.toFileSystem.shape (cache.targetAt c.toHlsCall) = some none := by
        by_cases heq : e = cache.targetAt c.toHlsCall
        · rw [heq, FileSystem.has_iff_shape] at hhas
          obtain ⟨kind, hkind⟩ := Option.ne_none_iff_exists'.1 hhas
          cases kind with
          | none => exact hkind
          | some size => exact absurd hkind (hcompletes.target size)
        · exact (FileSystem.isDir_iff_shape targetAt_ne_nil).1 (tree.isDir_of_inside hhas ⟨he, heq⟩)
      exact hkept ⟨hat, he, by rw [hcompletes.removed hat]; rfl⟩
  obtain ⟨fs', hrename⟩ := FileSystem.rename_ok hsrc hdst (hnone _ (List.suffix_refl _))
    (fun e hhas hin => FileSystem.not_has_iff_node.2 (hnone e hin.1) hhas) (tail_targetAt ▸ hdir)
  obtain ⟨hmoved, hgone⟩ := FileSystem.shape_rename hrename fun heq => hdst (heq ▸ List.suffix_refl _)
  obtain ⟨output, hremux, hsegments, hfiles⟩ := written_output hcompletes.written
  have hthere : ∀ file ∈ output.files, ∃ size, file.2 = .ok size ∧
      fs'.shape (file.1 :: cache.targetAt c.toHlsCall) = some (some size) := by
    intro file hfile
    obtain ⟨size, hcontent, hmem⟩ := hfiles file hfile
    exact ⟨size, hcontent, (hmoved [file.1]).trans (hstopped.files _ hmem)⟩
  have hrename' : (cache.renameWith faults.rename (cache.tmpDir c.toHlsCall tree.clock)
      (cache.targetDir c.toHlsCall)).alone fs₃ = (.ok (), fs') := by
    rw [hcompletes.renamed]
    exact alone_change hrename
  obtain ⟨segments, hopen⟩ := @alone_openSegments cache fs' (cache.targetDir c.toHlsCall) output hsegments (by
    intro file hfile
    obtain ⟨size, -, hshape⟩ := hthere file hfile
    exact FileSystem.has_iff_shape.2 (by rw [HlsCache.targetAt] at hshape; simp [hshape]))
  refine ⟨segments, fs', ?_, ⟨output, hremux, hsegments, hthere⟩, ?_⟩
  · rw [hrun, alone_bind_ok hrename', hopen]
  · intro e he hhas
    exact FileSystem.has_iff_shape.1 hhas (hgone e he)

theorem alone_replaceTarget_error {fs₁ : FileSystem} (h : Filled cache c.toHlsCall faults fs fs₁)
    (hwritten : (cache.written c.toHlsCall faults fs).2 = true)
    (hcompletes : ¬ cache.Completes c.toHlsCall faults fs) :
    ∃ msg fs', (cache.replaceTarget faults (cache.tmpDir c.toHlsCall fs.clock) (cache.targetDir c.toHlsCall)).alone fs₁ =
      (.error msg, fs') ∧ Stopped cache c.toHlsCall faults fs fs' := by
  obtain ⟨fs₃, hnodes, hstop | ⟨hrun, -, hrest⟩⟩ := alone_replaceTarget_cases h
  · obtain ⟨msg, hrun, -⟩ := hstop
    exact ⟨msg, fs₃, hrun, h.stopped hwritten hnodes⟩
  · have hrename : faults.rename = true := by
      by_contra hno
      exact hcompletes (hrest hwritten (Bool.not_eq_true _ ▸ hno))
    rw [hrun, HlsCache.renameWith, hrename]
    exact ⟨"io error", fs₃, rfl, h.stopped hwritten hnodes⟩

end Parts

/-! ## The result -/

section Result

variable {cache : HlsCache} {faults : HlsFaults}

/-- The call has done all or nothing if it comes to no temporary directory, if no step fails, or if it fails
before it removes anything of the old variant and has found all that it wrote. -/
theorem all_or_nothing_iff (cache : HlsCache) (c : NamedCall) (faults : HlsFaults) (tree : Tree) :
    cache.AllOrNothing c.toHlsCall tree.toFileSystem
        ((cache.generateHlsWith faults c.toHlsCall).alone tree.toFileSystem) ↔
      ¬ cache.MakesTmp c.toHlsCall faults tree.toFileSystem ∨
        cache.Completes c.toHlsCall faults tree.toFileSystem ∨
        cache.Spares c.toHlsCall faults tree.toFileSystem ∧ cache.Found c.toHlsCall faults tree.toFileSystem := by
  rw [cache.generateHlsWith_eq]
  by_cases hmakes : cache.MakesTmp c.toHlsCall faults tree.toFileSystem
  · obtain ⟨fs₁, hmake, hmade⟩ := alone_makeTmpDir hmakes
    obtain ⟨r, fs₂, hfill, hok, hfilled⟩ := alone_fillTmpDir hmade
    rw [alone_bind_ok hmake, or_iff_right (not_not.2 hmakes)]
    by_cases hwritten : (cache.written c.toHlsCall faults tree.toFileSystem).2 = true
    · rw [hok.2 hwritten] at hfill
      rw [alone_bind_ok hfill]
      by_cases hcompletes : cache.Completes c.toHlsCall faults tree.toFileSystem
      · obtain ⟨segments, fs', hreplace, hcompleted⟩ := alone_replaceTarget tree hfilled hcompletes
        rw [hreplace]
        exact iff_of_true hcompleted (.inl hcompletes)
      · obtain ⟨msg, fs', hreplace, hstopped⟩ := alone_replaceTarget_error hfilled hwritten hcompletes
        rw [hreplace, or_iff_right hcompletes]
        exact hstopped.unchanged_iff
    · cases r with
      | ok _ => exact absurd (hok.1 rfl) hwritten
      | error msg =>
        rw [alone_bind_error hfill, or_iff_right fun hcompletes => hwritten hcompletes.written]
        have hstopped : Stopped cache c.toHlsCall faults tree.toFileSystem fs₂ := {
          outside := fun e he hout => by rw [hfilled.outside e he hout, if_neg fun hall => hwritten hall.1]
          tmp := hfilled.above _ (List.suffix_refl _) tmpAt_ne_nil
          files := hfilled.files
          others := hfilled.others }
        exact hstopped.unchanged_iff
  · obtain ⟨msg, fs', hmake, hunchanged⟩ := alone_makeTmpDir_error hmakes
    rw [alone_bind_error hmake]
    exact iff_of_true hunchanged (.inl hmakes)

def hlsCacheAt : HlsCache := ⟨⟨true, [.normal "c"]⟩, 100, [], 7⟩

/-- A track of which one variant is there. -/
def oneVariant : Tree where
  nodes := [(["c"], .dir 0), (["t", "c"], .dir 0), (["v", "t", "c"], .dir 1),
    (["seg0.m4s", "v", "t", "c"], .file 6 1), (["init.mp4", "v", "t", "c"], .file 6 1),
    (["index.m3u8", "v", "t", "c"], .file 6 1)]
  clock := 8
  names := by decide
  parents := by
    intro name d hhas
    unfold FileSystem.Has at hhas
    simp only [List.map_cons, List.map_nil, List.mem_cons, List.cons.injEq, List.not_mem_nil, or_false] at hhas
    rcases hhas with ⟨-, rfl⟩ | ⟨-, rfl⟩ | ⟨-, rfl⟩ | ⟨-, rfl⟩ | ⟨-, rfl⟩ | ⟨-, rfl⟩ <;> decide

/-- A source that cannot be read, and one that can. -/
def unreadable : HlsCall := ⟨"t", "v", .error "unsupported format"⟩

def readable : HlsCall := ⟨"t", "v", .ok ⟨[.ok 9], .ok 9, .ok 9⟩⟩

/-- Nothing fails but the source: the temporary directory stays. Nothing fails but the rename: the old variant is
lost as well. -/
theorem failed_call_leaves_traces :
    ¬ hlsCacheAt.AllOrNothing unreadable oneVariant.toFileSystem
        ((hlsCacheAt.generateHlsWith noFaults unreadable).alone oneVariant.toFileSystem) ∧
      ¬ hlsCacheAt.AllOrNothing readable oneVariant.toFileSystem
        ((hlsCacheAt.generateHlsWith { noFaults with rename := true } readable).alone oneVariant.toFileSystem) := by
  have hunreadable : ((hlsCacheAt.generateHlsWith noFaults unreadable).alone oneVariant.toFileSystem).1 =
      .error "unsupported format" := by decide +kernel
  have hreadable : ((hlsCacheAt.generateHlsWith { noFaults with rename := true } readable).alone
      oneVariant.toFileSystem).1 = .error "io error" := by decide +kernel
  refine ⟨?_, ?_⟩
  · intro h
    rw [HlsCache.AllOrNothing, hunreadable] at h
    have htmp := (h (hlsCacheAt.tmpAt unreadable oneVariant.toFileSystem) (by decide +kernel)).2
      (List.suffix_refl _) (by decide +kernel)
    exact absurd htmp (by decide +kernel)
  · intro h
    rw [HlsCache.AllOrNothing, hreadable] at h
    have htarget := (h (hlsCacheAt.targetAt readable) (by decide +kernel)).1 (by decide +kernel)
    exact absurd htarget (by decide +kernel)

end Result

end Kanade
