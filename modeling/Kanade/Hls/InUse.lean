import Mathlib.Data.Fintype.Basic
import Kanade.Hls.Evict

/-!
# Kanade.Hls.InUse

Which directories of the cache the calls of `get_or_generate` use, over every interleaving of any
number of them, and whether a sweep takes one.

The lock of a key is what no other call with the key holds. The phase of a call says which directory
it uses: the one it generates into, then the one that this has become or that it has opened.

`undisturbed_of_unlocked`: as long as a sweep only takes directories whose key nobody else has locked, it
takes none that another call uses, and what is returned is there when the lock is released.
`undisturbed_of_alone`: so it is when nobody else holds a lock while a sweep is over the limit.
-/

namespace Kanade

open Concur Files Fallible

/-- The files of the segments are there. -/
structure CachedSegments.Complete (segments : CachedSegments) (cwd : Dir) (fs : FileSystem) : Prop where
  playlist : fs.Has ("index.m3u8" :: segments.root.resolve cwd)
  init : fs.Has ("init.mp4" :: segments.root.resolve cwd)
  segment : ∀ i < segments.segmentCount, fs.Has (segName i :: segments.root.resolve cwd)

instance (segments : CachedSegments) (cwd : Dir) (fs : FileSystem) :
    Decidable (segments.Complete cwd fs) :=
  decidable_of_iff (fs.Has ("index.m3u8" :: segments.root.resolve cwd) ∧
      fs.Has ("init.mp4" :: segments.root.resolve cwd) ∧
      ∀ i < segments.segmentCount, fs.Has (segName i :: segments.root.resolve cwd))
    ⟨fun h => ⟨h.1, h.2.1, h.2.2⟩, fun h => ⟨h.playlist, h.init, h.segment⟩⟩

section Complete

variable {segments : CachedSegments} {cwd d : Dir} {fs fs' : FileSystem}

theorem CachedSegments.Complete.keeps (h : segments.Complete cwd fs) (hk : fs.Keeps fs') :
    segments.Complete cwd fs' :=
  ⟨hk _ h.playlist, hk _ h.init, fun i hi => hk _ (h.segment i hi)⟩

theorem CachedSegments.Complete.loses (h : segments.Complete cwd fs) (hl : fs.Loses d fs')
    (hapart : ¬ (segments.root.resolve cwd).Meets d) : segments.Complete cwd fs' :=
  ⟨hl.has_entry hapart h.playlist, hl.has_entry hapart h.init,
    fun i hi => hl.has_entry hapart (h.segment i hi)⟩

/-- One more than there are files at all: one of these segments is missing. -/
theorem exists_missing_segment (fs : FileSystem) (d : Dir) :
    ∃ i ∈ List.range (fs.nodes.length + 1), (!fs.pathExists (segName i :: d)) = true := by
  by_contra hall
  push Not at hall
  have hsub : (List.range (fs.nodes.length + 1)).map (fun i => segName i :: d) ⊆
      fs.nodes.map Prod.fst := by
    intro e he
    obtain ⟨i, hi, rfl⟩ := List.mem_map.1 he
    have hthere := hall i hi
    exact FileSystem.pathExists_cons fs |>.1 (by simpa using hthere)
  have hnodup : ((List.range (fs.nodes.length + 1)).map (fun i => segName i :: d)).Nodup :=
    List.nodup_range.map fun i j h => segName_injective (List.cons.inj h).1
  have hle := (hnodup.subperm hsub).length_le
  simp only [List.length_map, List.length_range] at hle
  omega

theorem has_of_lt_segmentCount {i : Nat} (h : i < segmentCount fs d) : fs.Has (segName i :: d) := by
  have hnot := List.not_of_lt_findIdx h
  exact (FileSystem.pathExists_cons fs).1 (by simpa using hnot)

/-- The count ends at a segment that is missing. -/
theorem not_has_segmentCount : ¬ fs.Has (segName (segmentCount fs d) :: d) := by
  obtain ⟨i, hi, hmissing⟩ := exists_missing_segment fs d
  have hlt := List.findIdx_lt_length_of_exists (p := fun i => !fs.pathExists (segName i :: d))
    ⟨i, hi, hmissing⟩
  have hat := List.findIdx_getElem (w := hlt)
  rw [List.getElem_range] at hat
  intro hhas
  have hthere := (FileSystem.pathExists_cons fs).2 hhas
  rw [segmentCount] at hthere
  simp [hthere] at hat

end Complete

/-! ## Phases -/

inductive CallPhase where
  /-- Without the lock. -/
  | out
  | idle
  | writing (tmpDir : Path)
  | generated (targetDir : Path)
  | opened (segments : CachedSegments)
deriving DecidableEq, Repr

namespace CallPhase

def next : CallPhase → CacheStep → CallPhase
  | _, .acquire => .idle
  | .out, _ => .out
  | _, .release _ => .out
  | _, .failed => .idle
  | _, .writing tmpDir => .writing tmpDir
  | _, .rename _ dst => .generated dst
  | _, .opened segments => .opened segments
  | p, .read | p, .make | p, .remove _ | p, .evict _ | p, .tick => p

/-- The directory that the call uses. -/
def dir? : CallPhase → Option Path
  | .out | .idle => none
  | .writing dir | .generated dir => some dir
  | .opened segments => some segments.root

/-- The call has not got its segments yet. -/
def Working : CallPhase → Prop
  | .idle | .writing _ => True
  | .out | .generated _ | .opened _ => False

variable {p : CallPhase}

@[simp] theorem next_read : p.next .read = p := by cases p <;> rfl

@[simp] theorem next_make : p.next .make = p := by cases p <;> rfl

@[simp] theorem next_remove {dir : Path} : p.next (.remove dir) = p := by cases p <;> rfl

@[simp] theorem next_evict {root : Path} : p.next (.evict root) = p := by cases p <;> rfl

@[simp] theorem next_tick : p.next .tick = p := by cases p <;> rfl

theorem next_failed (hp : p ≠ .out) : p.next .failed = .idle := by
  cases p
  · exact absurd rfl hp
  all_goals rfl

/-- Only the lock leads in. -/
theorem next_out {l : CacheStep} (hl : l ≠ .acquire) : CallPhase.out.next l = .out := by
  cases l
  · exact absurd rfl hl
  all_goals rfl

/-- Who has opened its segments has just done so, or had before. -/
theorem of_next_opened {l : CacheStep} {segments : CachedSegments} (h : p.next l = .opened segments) :
    p = .opened segments ∨ l = .opened segments ∧ p ≠ .out := by
  cases l <;> cases p <;> simp_all [next]

end CallPhase

/-! ## What the steps may do -/

/-- What is taken away. -/
def CacheStep.taken? : CacheStep → Option Path
  | .remove dir => some dir
  | .rename src _ => some src
  | .evict root => some root
  | .acquire | .release _ | .read | .make | .writing _ | .opened _ | .failed | .tick => none

def CacheStep.Effect (cwd : Dir) (l : CacheStep) (fs fs' : FileSystem) : Prop :=
  match l.taken? with
  | none => fs.Keeps fs'
  | some d => fs.Loses (d.resolve cwd) fs'

/-- The steps of a party that meets `rules`, whatever the file system is then. -/
def cacheProtocol (cwd : Dir) (rules : CallPhase → CacheStep → FileSystem → Prop) :
    Protocol FileSystem CacheStep Empty (Except String Unit) CallPhase where
  onSect p l _ _ := p.next l
  onCall p _ _ := p
  rely _ _ _ := True
  sectOk p l fs fs' := l.Effect cwd fs fs' ∧ rules p l fs
  callOk _ _ := True

namespace HlsCache

variable (cache : HlsCache) (c : HlsCall)

/-- A directory that the call may take away before it has its segments. -/
def Owns (dir : Path) : Prop := dir = cache.targetDir c ∨ ∃ secs, dir = cache.tmpDir c secs

def Rules (p : CallPhase) : CacheStep → FileSystem → Prop
  | .release result, _ => ∀ segments, result = some segments → p = .opened segments
  | .remove dir, _ => cache.Owns c dir ∧ p.Working
  | .rename src dst, _ => cache.Owns c src ∧ p.Working ∧ dst = cache.targetDir c
  | .writing tmpDir, _ => cache.Owns c tmpDir
  | .opened segments, fs => segments.root = cache.targetDir c ∧ segments.Complete cache.cwd fs
  | .evict root, _ =>
    (∃ t v, root = (cache.root.child t).child v) ∧ ∀ segments, p = .opened segments → root ≠ segments.root
  | .acquire, _ | .read, _ | .make, _ | .failed, _ | .tick, _ => True

def callProtocol : Protocol FileSystem CacheStep Empty (Except String Unit) CallPhase :=
  cacheProtocol cache.cwd (cache.Rules c)

end HlsCache

/-- A step leads to a directory of the call. -/
theorem owns_next {cache : HlsCache} {c : HlsCall} {p : CallPhase} {l : CacheStep} {fs : FileSystem}
    (hrules : cache.Rules c p l fs) (hp : ∀ dir ∈ p.dir?, cache.Owns c dir) :
    ∀ dir ∈ (p.next l).dir?, cache.Owns c dir := by
  intro dir hdir
  cases l with
  | writing tmpDir =>
    cases p with
    | out => cases hdir
    | _ =>
      cases hdir
      exact hrules
  | rename src dst =>
    cases p with
    | out => cases hdir
    | _ =>
      cases hdir
      exact .inl hrules.2.2
  | opened segments =>
    cases p with
    | out => cases hdir
    | _ =>
      cases hdir
      exact .inl hrules.1
  | read | make | remove | evict | tick => exact hp dir (by simpa using hdir)
  | acquire | release | failed => cases p <;> cases hdir

/-! ## The tasks -/

section Leads

variable {cache : HlsCache} {c : HlsCall} {α β : Type} {p : CallPhase}

/-- From phase `p`, under the lock, the task leads to a result and a phase with `Q`, or fails. -/
def Leads (cache : HlsCache) (c : HlsCall) (p : CallPhase) (Q : α → CallPhase → Prop)
    (t : CacheTask α) : Prop :=
  Fallible.Follows (cache.callProtocol c) (fun p' r => match r with
    | .ok a => Q a p'
    | .error _ => p' = .idle) p t

theorem Leads.bind {Q : α → CallPhase → Prop} {Q' : β → CallPhase → Prop} {t : CacheTask α}
    {f : α → CacheTask β} (ht : Leads cache c p Q t)
    (hf : ∀ a p', Q a p' → Leads cache c p' Q' (f a)) : Leads cache c p Q' (t >>= f) := by
  unfold Leads
  rw [Fallible.follows_bind]
  refine Fallible.Follows.mono ht fun p' r h => ?_
  cases r with
  | error e => exact h
  | ok a => exact hf a p' h

theorem leads_pure {Q : α → CallPhase → Prop} {a : α} (h : Q a p) :
    Leads cache c p Q (pure a : CacheTask α) := h

theorem Leads.mono {Q Q' : α → CallPhase → Prop} {t : CacheTask α} (ht : Leads cache c p Q t)
    (hQ : ∀ a p', Q a p' → Q' a p') : Leads cache c p Q' t := by
  refine Fallible.Follows.mono ht fun p' r h => ?_
  cases r with
  | error e => exact h
  | ok a => exact hQ a p' h

/-- A failure is a result as well. -/
theorem Leads.attempt {Q : α → CallPhase → Prop} {Q' : Except String α → CallPhase → Prop}
    {t : CacheTask α} (ht : Leads cache c p Q t) (hok : ∀ a p', Q a p' → Q' (.ok a) p')
    (herr : ∀ e, Q' (.error e) .idle) : Leads cache c p Q' t.attempt := by
  unfold Leads
  rw [Fallible.follows_attempt]
  refine Fallible.Follows.mono ht fun p' r h => ?_
  cases r with
  | error e =>
    obtain rfl : p' = .idle := h
    exact herr e
  | ok a => exact hok a p' h

theorem leads_query {Q : α → CallPhase → Prop} {lab : α → CacheStep}
    {op : FileSystem → Except String α} (hp : p ≠ .out)
    (h : ∀ fs a, op fs = .ok a →
      (lab a).taken? = none ∧ cache.Rules c p (lab a) fs ∧ Q a (p.next (lab a))) :
    Leads cache c p Q (CacheTask.query lab op) := by
  refine Fallible.follows_sect.2 fun fs _ => ?_
  cases hop : op fs with
  | error e => exact ⟨⟨FileSystem.Keeps.rfl, trivial⟩, CallPhase.next_failed hp⟩
  | ok a =>
    obtain ⟨htaken, hrules, hQ⟩ := h fs a hop
    refine ⟨⟨?_, hrules⟩, hQ⟩
    show CacheStep.Effect _ (lab a) _ _
    rw [CacheStep.Effect, htaken]
    exact FileSystem.Keeps.rfl

theorem follows_change {Q : CallPhase → Except String Unit → Prop} {lab : CacheStep}
    {op : FileSystem → Except String FileSystem}
    (hok : ∀ fs fs', op fs = .ok fs' → lab.Effect cache.cwd fs fs' ∧ cache.Rules c p lab fs)
    (hQ : Q (p.next lab) (.ok ())) (herr : ∀ e, Q (p.next .failed) (.error e)) :
    Fallible.Follows (cache.callProtocol c) Q p (CacheTask.change lab op) := by
  refine Fallible.follows_sect.2 fun fs _ => ?_
  cases hop : op fs with
  | error e => exact ⟨⟨FileSystem.Keeps.rfl, trivial⟩, herr e⟩
  | ok fs' => exact ⟨hok fs fs' hop, hQ⟩

theorem leads_change {Q : Unit → CallPhase → Prop} {lab : CacheStep}
    {op : FileSystem → Except String FileSystem} (hp : p ≠ .out) (hQ : Q () (p.next lab))
    (h : ∀ fs fs', op fs = .ok fs' → lab.Effect cache.cwd fs fs' ∧ cache.Rules c p lab fs) :
    Leads cache c p Q (CacheTask.change lab op) :=
  follows_change h hQ fun _ => CallPhase.next_failed hp

/-- The task stays in the phase. -/
def Rests (cache : HlsCache) (c : HlsCall) (p : CallPhase) (R : α → Prop) (t : CacheTask α) : Prop :=
  Leads cache c p (fun a p' => p' = p ∧ R a) t

theorem Rests.bind {R : α → Prop} {Q : β → CallPhase → Prop} {t : CacheTask α} {f : α → CacheTask β}
    (ht : Rests cache c p R t) (hf : ∀ a, R a → Leads cache c p Q (f a)) :
    Leads cache c p Q (t >>= f) := by
  refine Leads.bind ht fun a p' h => ?_
  obtain ⟨rfl, hR⟩ := h
  exact hf a hR

theorem rests_read {R : α → Prop} {op : FileSystem → Except String α} (hp : p ≠ .out)
    (h : ∀ fs a, op fs = .ok a → R a) : Rests cache c p R (CacheTask.query (fun _ => .read) op) :=
  leads_query hp fun fs a hop => ⟨rfl, trivial, CallPhase.next_read, h fs a hop⟩

/-- What is read does not matter. -/
theorem rests_read_any {op : FileSystem → Except String α} (hp : p ≠ .out) :
    Rests cache c p (fun _ => True) (CacheTask.query (fun _ => .read) op) :=
  rests_read hp fun _ _ _ => trivial

theorem rests_make {op : FileSystem → Except String FileSystem} (hp : p ≠ .out)
    (h : ∀ fs fs', op fs = .ok fs' → fs.Keeps fs') :
    Rests cache c p (fun _ => True) (CacheTask.change .make op) :=
  leads_change hp ⟨CallPhase.next_make, trivial⟩ fun fs fs' hop => ⟨h fs fs' hop, trivial⟩

end Leads

/-! ### The sweep -/

section Sweep

variable {cache : HlsCache} {c : HlsCall} {p : CallPhase}

theorem rests_ifExists {t : CacheTask Unit} (hp : p ≠ .out) (path : Path)
    (ht : Rests cache c p (fun _ => True) t) :
    Rests cache c p (fun _ => True) (cache.ifExists path t) := by
  refine Rests.bind (rests_read_any hp) fun there _ => ?_
  split
  · exact ht
  · exact leads_pure ⟨rfl, trivial⟩

theorem rests_lastAccess (hp : p ≠ .out) (root : Path) :
    Rests cache c p (fun _ => True) (cache.lastAccess root) := by
  refine Rests.bind (rests_read_any hp) fun stamp _ => ?_
  cases stamp with
  | some n => exact leads_pure ⟨rfl, trivial⟩
  | none => exact Rests.bind (rests_read_any hp) fun dir _ => leads_pure ⟨rfl, trivial⟩

/-- Two names below the root of the cache. -/
def Collected (cache : HlsCache) (root : Path) : Prop := ∃ t v, root = (cache.root.child t).child v

theorem rests_collectVariants (hp : p ≠ .out) (t : String) (names : List (String × Bool)) :
    Rests cache c p (fun entries => ∀ e ∈ entries, Collected cache e.root)
      (cache.collectVariants (cache.root.child t) names) := by
  induction names with
  | nil => exact leads_pure ⟨rfl, by simp⟩
  | cons entry names ih =>
    obtain ⟨name, isDir⟩ := entry
    unfold HlsCache.collectVariants
    split
    · exact ih
    refine Rests.bind (rests_read_any hp) fun cached _ => ?_
    split
    · exact ih
    refine Rests.bind (rests_read_any hp) fun size _ => ?_
    refine Rests.bind (rests_lastAccess hp _) fun lastAccess _ => ?_
    refine Rests.bind ih fun entries hentries => leads_pure ⟨rfl, ?_⟩
    exact List.forall_mem_cons.2 ⟨⟨t, name, rfl⟩, hentries⟩

theorem rests_collectTracks (hp : p ≠ .out) (names : List (String × Bool)) :
    Rests cache c p (fun entries => ∀ e ∈ entries, Collected cache e.root)
      (cache.collectTracks names) := by
  induction names with
  | nil => exact leads_pure ⟨rfl, by simp⟩
  | cons entry names ih =>
    obtain ⟨name, isDir⟩ := entry
    unfold HlsCache.collectTracks
    split
    · exact ih
    refine Rests.bind (rests_read_any hp) fun variants _ => ?_
    refine Rests.bind (rests_collectVariants hp name variants) fun entries hentries => ?_
    refine Rests.bind ih fun others hothers => leads_pure ⟨rfl, ?_⟩
    intro e he
    exact (List.mem_append.1 he).elim (hentries e) (hothers e)

theorem rests_collectCacheEntries (hp : p ≠ .out) :
    Rests cache c p (fun entries => ∀ e ∈ entries, Collected cache e.root)
      cache.collectCacheEntries := by
  refine Rests.bind (rests_read_any hp) fun there _ => ?_
  split
  · exact leads_pure ⟨rfl, by simp⟩
  · exact Rests.bind (rests_read_any hp) fun tracks _ => rests_collectTracks hp tracks

/-- Who has opened its segments sweeps around them. -/
theorem rests_evictEntries {preserve : Option Path} (hp : p ≠ .out)
    (hkeep : ∀ segments, p = .opened segments → preserve = some segments.root)
    {entries : List CacheEntryInfo} (hentries : ∀ e ∈ entries, Collected cache e.root) :
    ∀ totalSize, Rests cache c p (fun _ => True) (cache.evictEntries preserve entries totalSize) := by
  induction entries with
  | nil => exact fun _ => leads_pure ⟨rfl, trivial⟩
  | cons entry entries ih =>
    intro totalSize
    obtain ⟨hentry, hrest⟩ := List.forall_mem_cons.1 hentries
    unfold HlsCache.evictEntries
    split
    · exact leads_pure ⟨rfl, trivial⟩
    split
    · exact ih hrest totalSize
    rename_i hother
    refine Rests.bind (rests_ifExists hp entry.root ?_) fun _ _ => ih hrest _
    refine leads_change hp ⟨CallPhase.next_evict, trivial⟩ fun fs fs' hop => ?_
    refine ⟨FileSystem.loses_removeDirAll hop, hentry, fun segments hopened heq => hother ?_⟩
    rw [hkeep segments hopened, heq]

theorem rests_enforceSizeLimit {preserve : Option Path} (hp : p ≠ .out)
    (hkeep : ∀ segments, p = .opened segments → preserve = some segments.root) :
    Rests cache c p (fun _ => True) (cache.enforceSizeLimit preserve) := by
  refine Rests.bind (rests_collectCacheEntries hp) fun entries hentries => ?_
  refine rests_evictEntries hp hkeep (fun e he => hentries e ?_) _
  exact (List.perm_insertionSort _ _).mem_iff.1 he

end Sweep

/-! ### The calls -/

section Calls

variable {cache : HlsCache} {c : HlsCall} {p : CallPhase}

theorem rests_writeFile (hp : p ≠ .out) (path : Dir) (content : Except String Nat) :
    Rests cache c p (fun _ => True) (HlsCache.writeFile path content) := by
  refine rests_make hp fun fs fs' hop => ?_
  cases content with
  | error e => cases hop
  | ok size => exact FileSystem.keeps_write hop

theorem rests_writeSegments (hp : p ≠ .out) (dir : Path) (segments : List (Except String Nat)) :
    ∀ index, Rests cache c p (fun _ => True) (cache.writeSegments dir index segments) := by
  induction segments with
  | nil => exact fun _ => leads_pure ⟨rfl, trivial⟩
  | cons segment segments ih =>
    exact fun index => Rests.bind (rests_writeFile hp _ _) fun _ _ => ih (index + 1)

theorem rests_writeHlsOutput (hp : p ≠ .out) (dir : Path) (output : HlsOutput) :
    Rests cache c p (fun _ => True) (cache.writeHlsOutput dir output) := by
  refine Rests.bind (rests_read_any hp) fun _ _ => ?_
  refine Rests.bind (rests_writeSegments hp dir _ 0) fun _ _ => ?_
  exact Rests.bind (rests_writeFile hp _ _) fun _ _ => rests_writeFile hp _ _

theorem rests_touch (hp : p ≠ .out) (segments : CachedSegments) :
    Rests cache c p (fun _ => True) (cache.touch segments) :=
  Rests.bind (rests_read_any hp) fun _ _ => rests_make hp fun _ _ hop => FileSystem.keeps_write hop

theorem leads_openSegments (hp : p ≠ .out) :
    Leads cache c p (fun segments p' => p' = .opened segments)
      (cache.openSegments (cache.targetDir c)) := by
  refine leads_query hp fun fs segments hop => ?_
  split at hop
  · cases hop
  rename_i hfiles
  split at hop
  · cases hop
  cases hop
  simp only [not_or, not_not, FileSystem.pathExists_cons] at hfiles
  refine ⟨rfl, ⟨rfl, hfiles.1, hfiles.2, fun i hi => has_of_lt_segmentCount hi⟩, ?_⟩
  cases p
  · exact absurd rfl hp
  all_goals rfl

theorem rests_createParent (hp : p ≠ .out) (path : Path) :
    Rests cache c p (fun _ => True) (cache.createParent path) := by
  unfold HlsCache.createParent
  cases path.parent? with
  | none => exact leads_pure ⟨rfl, trivial⟩
  | some parent => exact rests_make hp fun _ _ hop => FileSystem.keeps_createDirAll hop

/-- Before it has its segments the call may take its own directories away. -/
theorem rests_remove {dir : Path} (hp : p.Working) (hdir : cache.Owns c dir) :
    Rests cache c p (fun _ => True)
      (CacheTask.change (.remove dir) fun fs => fs.removeDirAll (cache.dirAt dir)) := by
  have hin : p ≠ .out := fun h => by rw [h] at hp; exact hp
  exact leads_change hin ⟨CallPhase.next_remove, trivial⟩ fun fs fs' hop =>
    ⟨FileSystem.loses_removeDirAll hop, hdir, hp⟩

theorem leads_generateHls :
    Leads cache c .idle (fun segments p' => p' = .opened segments) (cache.generateHls c) := by
  have hidle : CallPhase.idle ≠ .out := nofun
  refine Rests.bind (rests_make hidle fun _ _ hop => FileSystem.keeps_createDirAll hop) fun _ _ => ?_
  refine Rests.bind (rests_read_any hidle) fun secs _ => ?_
  have htmp : cache.Owns c (cache.tmpDir c secs) := .inr ⟨secs, rfl⟩
  have hwriting : CallPhase.writing (cache.tmpDir c secs) ≠ .out := nofun
  have hgenerated : CallPhase.generated (cache.targetDir c) ≠ .out := nofun
  have hstale : Rests cache c .idle (fun _ => True)
      ((CacheTask.change (.remove (cache.tmpDir c secs)) fun fs =>
        fs.removeDirAll (cache.dirAt (cache.tmpDir c secs))).attempt >>= fun _ => pure ()) := by
    refine Rests.bind (R := fun _ => True) ?_ fun _ _ => leads_pure ⟨rfl, trivial⟩
    exact Leads.attempt (rests_remove trivial htmp) (fun _ p' h => ⟨h.1, trivial⟩)
      fun _ => ⟨rfl, trivial⟩
  refine Rests.bind (rests_ifExists hidle _ hstale) fun _ _ => ?_
  refine Leads.bind (leads_change hidle (Q := fun _ p' => p' = .writing (cache.tmpDir c secs)) rfl
    fun fs fs' hop => ⟨FileSystem.keeps_createDirAll hop, htmp⟩) fun _ p' hp' => ?_
  subst hp'
  refine Rests.bind (rests_read_any hwriting) fun output _ => ?_
  refine Rests.bind (rests_writeHlsOutput hwriting _ output) fun _ _ => ?_
  refine Rests.bind (rests_ifExists hwriting _ (rests_remove trivial (.inl rfl))) fun _ _ => ?_
  refine Rests.bind (rests_createParent hwriting _) fun _ _ => ?_
  refine Leads.bind (leads_change hwriting (Q := fun _ p' => p' = .generated (cache.targetDir c)) rfl
    fun fs fs' hop => ⟨FileSystem.loses_rename hop, htmp, trivial, rfl⟩) fun _ p' hp' => ?_
  subst hp'
  exact leads_openSegments hgenerated

theorem leads_serveLocked :
    Leads cache c .idle (fun segments p' => p' = .opened segments) (cache.serveLocked c) := by
  have hidle : CallPhase.idle ≠ .out := nofun
  have hopened : ∀ segments, CallPhase.opened segments ≠ .out := nofun
  refine Rests.bind (rests_enforceSizeLimit hidle nofun) fun _ _ => ?_
  refine Leads.bind (Q := fun r p' => (∀ segments, r = .ok segments → p' = .opened segments) ∧
    ∀ e, r = .error e → p' = .idle) ?_ fun r p' h => ?_
  · exact Leads.attempt (leads_openSegments hidle)
      (fun segments p' hp' => ⟨fun _ heq => by cases heq; exact hp', nofun⟩)
      fun _ => ⟨nofun, fun _ _ => rfl⟩
  cases r with
  | ok segments =>
    obtain rfl := h.1 segments rfl
    exact Rests.bind (rests_touch (hopened _) segments) fun _ _ => leads_pure rfl
  | error e =>
    obtain rfl := h.2 e rfl
    refine Leads.bind leads_generateHls fun generated p' hp' => ?_
    subst hp'
    refine Rests.bind (rests_touch (hopened _) generated) fun _ _ => ?_
    refine Rests.bind (rests_enforceSizeLimit (hopened _) ?_) fun _ _ => leads_pure rfl
    intro segments heq
    cases heq
    rfl

/-- The whole call, from before it has the lock until it has given it back. -/
theorem follows_getOrGenerate :
    Fallible.Follows (cache.callProtocol c) (fun _ _ => True) .out (cache.getOrGenerate c) := by
  unfold HlsCache.getOrGenerate
  rw [Fallible.follows_bind]
  refine follows_change (fun fs fs' hop => ⟨FileSystem.keeps_createDirAll hop, trivial⟩) ?_
    fun _ => trivial
  refine (Fallible.follows_bind _ _).2 (Fallible.follows_sect.2 fun fs _ => ?_)
  refine ⟨⟨FileSystem.Keeps.rfl, trivial⟩, (Fallible.follows_bind _ _).2 ?_⟩
  rw [Fallible.follows_attempt]
  refine Fallible.Follows.mono leads_serveLocked fun p r h => ?_
  refine (Fallible.follows_bind _ _).2 (Fallible.follows_sect.2 fun fs _ => ?_)
  refine ⟨⟨FileSystem.Keeps.rfl, fun segments hsome => ?_⟩, ?_⟩
  · cases r with
    | error e => cases hsome
    | ok generated =>
      cases hsome
      exact h
  · cases r <;> trivial

end Calls

/-! ## Runs -/

section Runs

variable {ι : Type} [DecidableEq ι]

abbrev CacheEntry (ι : Type) : Type := Entry (ι ⊕ Nat) FileSystem CacheStep Empty (Except String Unit)

/-- The calls, and the seconds. -/
def partyRules (cache : HlsCache) (calls : ι → HlsCall) :
    ι ⊕ Nat → CallPhase → CacheStep → FileSystem → Prop
  | .inl i => cache.Rules (calls i)
  | .inr _ => fun _ l _ => l = .tick

def partyProtocol (cache : HlsCache) (calls : ι → HlsCall) (who : ι ⊕ Nat) :
    Protocol FileSystem CacheStep Empty (Except String Unit) CallPhase :=
  cacheProtocol cache.cwd (partyRules cache calls who)

/-- Where the call is after the steps. -/
def phaseOf (cache : HlsCache) (calls : ι → HlsCall) (h : List (CacheEntry ι)) (i : ι) : CallPhase :=
  Pool.phases (partyProtocol cache calls) (fun _ => .out) h (.inl i)

/-- A lock is acquired when no other call with the key holds it. -/
def OneHolder (cache : HlsCache) (calls : ι → HlsCall) (h : List (CacheEntry ι)) (e : CacheEntry ι) :
    Prop :=
  ∀ i, e.who = .inl i → e.act = .sect .acquire →
    ∀ j, j ≠ i → (calls j).key = (calls i).key → phaseOf cache calls h j = .out

/-- What a sweep takes in the step, which it does only while it is over the limit. -/
def evicted? : Act CacheStep Empty (Except String Unit) → Option Path
  | .sect (.evict root) => some root
  | _ => none

/-- What is returned when the lock is released. -/
def returned? : Act CacheStep Empty (Except String Unit) → Option CachedSegments
  | .sect (.release result) => result
  | _ => none

theorem of_returned {act : Act CacheStep Empty (Except String Unit)} {segments : CachedSegments}
    (h : segments ∈ returned? act) : act = .sect (.release (some segments)) := by
  unfold returned? at h
  split at h
  · obtain rfl := h
    rfl
  · cases h

/-- No sweep takes a directory that another call uses. -/
def Spared (cache : HlsCache) (calls : ι → HlsCall) (h : List (CacheEntry ι)) (e : CacheEntry ι) :
    Prop :=
  ∀ root ∈ evicted? e.act, ∀ j, Sum.inl j ≠ e.who → ∀ dir ∈ (phaseOf cache calls h j).dir?,
    ¬ (cache.dirAt dir).Meets (cache.dirAt root)

/-- What is returned is there. -/
def Delivered (cache : HlsCache) (e : CacheEntry ι) : Prop :=
  ∀ segments ∈ returned? e.act, segments.Complete cache.cwd e.pre

def Undisturbed (cache : HlsCache) (calls : ι → HlsCall) (h : List (CacheEntry ι)) (e : CacheEntry ι) :
    Prop :=
  Spared cache calls h e ∧ Delivered cache e

/-- While a sweep is over the limit, nobody else holds a lock. -/
def Alone (cache : HlsCache) (calls : ι → HlsCall) (h : List (CacheEntry ι)) (e : CacheEntry ι) : Prop :=
  (evicted? e.act).isSome → ∀ j, Sum.inl j ≠ e.who → phaseOf cache calls h j = .out

/-- Nobody else has locked the key of a directory that a sweep takes. -/
def Unlocked (cache : HlsCache) (calls : ι → HlsCall) (h : List (CacheEntry ι)) (e : CacheEntry ι) :
    Prop :=
  ∀ root ∈ evicted? e.act, ∀ j, Sum.inl j ≠ e.who → ∀ dir, cache.Owns (calls j) dir →
    (cache.dirAt dir).Meets (cache.dirAt root) → phaseOf cache calls h j = .out

instance [Fintype ι] (cache : HlsCache) (calls : ι → HlsCall) (h : List (CacheEntry ι))
    (e : CacheEntry ι) : Decidable (OneHolder cache calls h e) :=
  inferInstanceAs (Decidable (∀ _, _ → _))

instance [Fintype ι] (cache : HlsCache) (calls : ι → HlsCall) (h : List (CacheEntry ι))
    (e : CacheEntry ι) : Decidable (Alone cache calls h e) :=
  inferInstanceAs (Decidable (_ → _))

instance [Fintype ι] (cache : HlsCache) (calls : ι → HlsCall) (h : List (CacheEntry ι))
    (e : CacheEntry ι) : Decidable (Spared cache calls h e) :=
  inferInstanceAs (Decidable (∀ root ∈ evicted? e.act, _))

instance (cache : HlsCache) (e : CacheEntry ι) : Decidable (Delivered cache e) :=
  inferInstanceAs (Decidable (∀ segments ∈ returned? e.act, _))

instance [Fintype ι] (cache : HlsCache) (calls : ι → HlsCall) (h : List (CacheEntry ι))
    (e : CacheEntry ι) : Decidable (Undisturbed cache calls h e) :=
  inferInstanceAs (Decidable (_ ∧ _))

/-- The keys lead to directories of their own. -/
structure HlsCache.Apart (cache : HlsCache) (calls : ι → HlsCall) : Prop where
  targets : ∀ i j, (calls i).key ≠ (calls j).key →
    ¬ (cache.dirAt (cache.targetDir (calls i))).Meets (cache.dirAt (cache.targetDir (calls j)))
  temps : ∀ i j secs, (calls i).key ≠ (calls j).key →
    ¬ (cache.dirAt (cache.targetDir (calls i))).Meets (cache.dirAt (cache.tmpDir (calls j) secs))
  own : ∀ i t v, (cache.root.child t).child v ≠ cache.targetDir (calls i) →
    ¬ (cache.dirAt (cache.targetDir (calls i))).Meets (cache.dirAt ((cache.root.child t).child v))

/-- Calls with one key take turns, they use their own directories, and who has opened its segments still
has them. -/
structure UseInv (cache : HlsCache) (calls : ι → HlsCall) (h : List (CacheEntry ι)) (fs : FileSystem) :
    Prop where
  alone : ∀ i j, i ≠ j → (calls i).key = (calls j).key →
    phaseOf cache calls h i = .out ∨ phaseOf cache calls h j = .out
  owns : ∀ i, ∀ dir ∈ (phaseOf cache calls h i).dir?, cache.Owns (calls i) dir
  complete : ∀ i segments, phaseOf cache calls h i = .opened segments →
    segments.root = cache.targetDir (calls i) ∧ segments.Complete cache.cwd fs

section Inv

variable {cache : HlsCache} {calls : ι → HlsCall} {h : List (CacheEntry ι)} {fs fs' : FileSystem}
  {l : CacheStep} {who : ι ⊕ Nat}

theorem phaseOf_cons {i : ι} :
    phaseOf cache calls (⟨who, .sect l, fs, fs'⟩ :: h) i =
      if who = .inl i then (phaseOf cache calls h i).next l else phaseOf cache calls h i := by
  unfold phaseOf
  rw [Pool.phases_sect]
  by_cases hwho : who = .inl i
  · subst hwho
    simp [partyProtocol, cacheProtocol]
  · rw [Function.update_of_ne fun heq => hwho heq.symm, if_neg hwho]

/-- A call that was out and is not has acquired the lock. -/
theorem out_cons {i : ι} (hl : who = .inl i → l ≠ .acquire) (hout : phaseOf cache calls h i = .out) :
    phaseOf cache calls (⟨who, .sect l, fs, fs'⟩ :: h) i = .out := by
  rw [phaseOf_cons, hout]
  split
  · rename_i hwho
    exact CallPhase.next_out (hl hwho)
  · rfl

theorem UseInv.alone_cons (hinv : UseInv cache calls h fs)
    (hexcl : OneHolder cache calls h ⟨who, .sect l, fs, fs'⟩) {i j : ι} (hij : i ≠ j)
    (hkey : (calls i).key = (calls j).key) :
    phaseOf cache calls (⟨who, .sect l, fs, fs'⟩ :: h) i = .out ∨
      phaseOf cache calls (⟨who, .sect l, fs, fs'⟩ :: h) j = .out := by
  by_cases hl : l = .acquire
  · subst hl
    by_cases hi : who = .inl i
    · have hout := hexcl i hi rfl j (fun heq => hij heq.symm) hkey.symm
      exact .inr (out_cons (fun hj => absurd (hi.symm.trans hj) (by simpa using hij)) hout)
    · by_cases hj : who = .inl j
      · exact .inl (out_cons (fun hwho => absurd hwho hi) (hexcl j hj rfl i hij hkey))
      · exact (hinv.alone i j hij hkey).imp (out_cons fun hwho => absurd hwho hi)
          (out_cons fun hwho => absurd hwho hj)
  · exact (hinv.alone i j hij hkey).imp (out_cons fun _ => hl) (out_cons fun _ => hl)

/-- A step that leads on goes to a directory of the call. -/
theorem UseInv.owns_cons (hinv : UseInv cache calls h fs)
    (hstep : ((partyProtocol cache calls who).sectOk
      (Pool.phases (partyProtocol cache calls) (fun _ => .out) h who) l fs fs')) (j : ι) :
    ∀ dir ∈ (phaseOf cache calls (⟨who, .sect l, fs, fs'⟩ :: h) j).dir?, cache.Owns (calls j) dir := by
  intro dir hdir
  rw [phaseOf_cons] at hdir
  split at hdir
  · rename_i hwho
    subst hwho
    have hrules : cache.Rules (calls j) (phaseOf cache calls h j) l fs := hstep.2
    exact owns_next hrules (hinv.owns j) dir hdir
  · exact hinv.owns j dir hdir

/-- What one takes away is not what another has opened. -/
theorem UseInv.apart_taken (hinv : UseInv cache calls h fs) (hapart : cache.Apart calls) {i j : ι}
    (hrules : cache.Rules (calls i) (phaseOf cache calls h i) l fs)
    (hfree : Unlocked cache calls h ⟨.inl i, .sect l, fs, fs'⟩) {segments : CachedSegments}
    (hj : phaseOf cache calls h j = .opened segments) {d : Path} (hd : l.taken? = some d) :
    ¬ (cache.dirAt segments.root).Meets (cache.dirAt d) := by
  have hroot := (hinv.complete j segments hj).1
  have howns : cache.Owns (calls i) d → (phaseOf cache calls h i).Working →
      ¬ (cache.dirAt segments.root).Meets (cache.dirAt d) := by
    intro hown hworking
    have hij : i ≠ j := by
      rintro rfl
      rw [hj] at hworking
      exact hworking
    have hkey : (calls j).key ≠ (calls i).key := by
      intro hkey
      rcases hinv.alone i j hij hkey.symm with hout | hout
      · rw [hout] at hworking
        exact hworking
      · rw [hj] at hout
        cases hout
    rw [hroot]
    rcases hown with rfl | ⟨secs, rfl⟩
    · exact hapart.targets j i hkey
    · exact hapart.temps j i secs hkey
  cases l <;> cases hd
  case remove => exact howns hrules.1 hrules.2
  case rename => exact howns hrules.1 hrules.2.1
  case evict =>
    obtain ⟨⟨t, v, rfl⟩, hown⟩ := hrules
    by_cases hij : j = i
    · subst hij
      have hne := hown segments hj
      rw [hroot] at hne ⊢
      exact hapart.own j t v hne
    · intro hmeets
      have hout := hfree _ rfl j (by simpa using hij) segments.root (.inl hroot) hmeets
      rw [hj] at hout
      cases hout

theorem UseInv.complete_cons (hinv : UseInv cache calls h fs) (hapart : cache.Apart calls)
    (hstep : ((partyProtocol cache calls who).sectOk
      (Pool.phases (partyProtocol cache calls) (fun _ => .out) h who) l fs fs'))
    (hfree : Unlocked cache calls h ⟨who, .sect l, fs, fs'⟩) {j : ι} {segments : CachedSegments}
    (hj : phaseOf cache calls (⟨who, .sect l, fs, fs'⟩ :: h) j = .opened segments) :
    segments.root = cache.targetDir (calls j) ∧ segments.Complete cache.cwd fs' := by
  rw [phaseOf_cons] at hj
  cases who with
  | inr n =>
    -- time passes
    obtain ⟨hkeeps, rfl⟩ : l.Effect cache.cwd fs fs' ∧ l = .tick := hstep
    rw [if_neg (by simp)] at hj
    exact ⟨(hinv.complete j segments hj).1, (hinv.complete j segments hj).2.keeps hkeeps⟩
  | inl i =>
    obtain ⟨heffect, hrules⟩ : l.Effect cache.cwd fs fs' ∧
      cache.Rules (calls i) (phaseOf cache calls h i) l fs := hstep
    have hcases : phaseOf cache calls h j = .opened segments ∨ i = j ∧ l = .opened segments := by
      split at hj
      · rename_i hij
        exact (CallPhase.of_next_opened hj).imp_right fun hopened => ⟨Sum.inl.inj hij, hopened.1⟩
      · exact .inl hj
    rcases hcases with hold | ⟨rfl, rfl⟩
    · obtain ⟨hroot, hcomplete⟩ := hinv.complete j segments hold
      refine ⟨hroot, ?_⟩
      unfold CacheStep.Effect at heffect
      cases htaken : l.taken? with
      | none =>
        rw [htaken] at heffect
        exact hcomplete.keeps heffect
      | some d =>
        rw [htaken] at heffect
        exact hcomplete.loses heffect (hinv.apart_taken hapart hrules hfree hold htaken)
    · exact ⟨hrules.1, hrules.2.keeps heffect⟩

end Inv

end Runs

/-! ## Plain keys -/

/-- The parts of the key are names, and that of the variant is not one of a temporary directory. -/
structure HlsCall.Plain (c : HlsCall) : Prop where
  trackId : IsName c.trackId
  variant : IsName c.variant
  visible : c.variant.toList.head? ≠ some '.'

section Plain

variable {cache : HlsCache} {c : HlsCall}

theorem targetDir_of_plain (h : c.Plain) :
    cache.targetDir c = (cache.root.child c.trackId).child c.variant := by
  rw [HlsCache.targetDir, variantDir, join_eq_child h.trackId, join_eq_child h.variant]

theorem tmpDir_of_plain (h : c.Plain) (secs : Nat) :
    cache.tmpDir c secs = (cache.root.child c.trackId).child (tmpName c.variant cache.pid secs) := by
  rw [HlsCache.tmpDir, join_eq_child h.trackId, join_eq_child (isName_tmpName h.variant.1)]

/-- Two names below the root against two others. -/
theorem not_meets_of_ne {t v t' v' : String} (h : (t, v) ≠ (t', v')) :
    ¬ (cache.dirAt ((cache.root.child t).child v)).Meets
      (cache.dirAt ((cache.root.child t').child v')) := by
  unfold HlsCache.dirAt
  simp only [resolve_child]
  intro hmeets
  have heq := hmeets.eq_of_length (by simp)
  simp only [List.cons.injEq, and_true] at heq
  exact h (by rw [heq.1, heq.2])

theorem apart_of_plain {ι : Type} {calls : ι → HlsCall} (h : ∀ i, (calls i).Plain) :
    cache.Apart calls where
  targets := by
    intro i j hkey
    rw [targetDir_of_plain (h i), targetDir_of_plain (h j)]
    refine not_meets_of_ne fun heq => hkey ?_
    obtain ⟨ht, hv⟩ := Prod.mk.inj heq
    rw [HlsCall.key, HlsCall.key, ht, hv]
  temps := by
    intro i j secs _
    rw [targetDir_of_plain (h i), tmpDir_of_plain (h j)]
    refine not_meets_of_ne fun heq => (h i).visible ?_
    rw [(Prod.mk.inj heq).2, tmpName_toList]
    rfl
  own := by
    intro i t v hne
    rw [targetDir_of_plain (h i)] at hne ⊢
    refine not_meets_of_ne fun heq => hne ?_
    obtain ⟨ht, hv⟩ := Prod.mk.inj heq
    rw [ht, hv]

end Plain

/-! ## All runs -/

section Main

variable {ι : Type} [DecidableEq ι] {cache : HlsCache} {calls : ι → HlsCall} {fs : FileSystem}
  {h : List (CacheEntry ι)}

omit [DecidableEq ι] in
theorem follows_cachePool (who : ι ⊕ Nat) :
    ((cachePool cache calls fs).task who).Follows (partyProtocol cache calls who) (fun _ _ => True)
      .out := by
  cases who with
  | inl i =>
    refine (Fallible.follows_bind _ _).2 (Fallible.Follows.mono follows_getOrGenerate ?_)
    intro p r _
    cases r <;> trivial
  | inr n => exact fun fs _ => ⟨⟨fun _ hd => hd, rfl⟩, trivial⟩

/-- Who has not the lock uses no directory, and what a call returns is what it has opened. -/
theorem UseInv.undisturbed {e : CacheEntry ι} (hinv : UseInv cache calls h e.pre)
    (hstep : ∀ l, e.act = .sect l → (partyProtocol cache calls e.who).sectOk
      (Pool.phases (partyProtocol cache calls) (fun _ => .out) h e.who) l e.pre e.post)
    (hfree : Unlocked cache calls h e) : Undisturbed cache calls h e := by
  obtain ⟨who, act, before, after⟩ := e
  constructor
  · intro root hroot j hj dir hdir hmeets
    have hout := hfree root hroot j hj dir (hinv.owns j dir hdir) hmeets
    rw [hout] at hdir
    cases hdir
  · intro segments hsegments
    obtain rfl := of_returned hsegments
    cases who with
    | inr n => cases (hstep _ rfl).2
    | inl i => exact (hinv.complete i segments ((hstep _ rfl).2 segments rfl)).2

/-- For keys that lead to directories of their own. -/
theorem undisturbed_of_unlocked (hapart : cache.Apart calls)
    {p : Pool (ι ⊕ Nat) FileSystem CacheStep Empty (Except String Unit) (Except String Unit)}
    (hr : Pool.Run (OneHolder cache calls) (cachePool cache calls fs) h p)
    (hfree : Pool.Met (Unlocked cache calls) h) : Pool.Met (Undisturbed cache calls) h := by
  obtain ⟨hinter, hexcl⟩ := Pool.run_iff.1 hr
  have hmet : Pool.Met (fun h e => OneHolder cache calls h e ∧ Unlocked cache calls h e) h :=
    Pool.met_iff.2 fun h₂ e h₁ heq =>
      ⟨Pool.met_iff.1 hexcl h₂ e h₁ heq, Pool.met_iff.1 hfree h₂ e h₁ heq⟩
  obtain ⟨-, -, hall⟩ := Pool.Run.invariant (J := UseInv cache calls)
    ⟨fun _ _ _ _ => .inl rfl, nofun, nofun⟩ follows_cachePool (fun _ _ _ _ _ => trivial)
    (fun h who l fs fs' hinv hstep hok => ⟨fun i j hij hkey => hinv.alone_cons hok.1 hij hkey,
      hinv.owns_cons hstep, fun j segments hj => hinv.complete_cons hapart hstep hok.2 hj⟩)
    (fun _ _ c _ _ _ _ _ => c.elim) (Pool.run_iff.2 ⟨hinter, hmet⟩)
  refine Pool.met_iff.2 fun h₂ e h₁ heq => ?_
  obtain ⟨hinv, hstep⟩ := hall h₂ e h₁ heq
  exact hinv.undisturbed hstep (Pool.met_iff.1 hfree h₂ e h₁ heq)

/-- For keys that lead to directories of their own: over every interleaving of any number of calls in
which nobody else holds a lock while a sweep is over the limit, no sweep takes a directory that another
call uses, and whatever is returned is there when the lock is released. -/
theorem undisturbed_of_alone (hapart : cache.Apart calls)
    {p : Pool (ι ⊕ Nat) FileSystem CacheStep Empty (Except String Unit) (Except String Unit)}
    (hr : Pool.Run (OneHolder cache calls) (cachePool cache calls fs) h p)
    (halone : Pool.Met (Alone cache calls) h) : Pool.Met (Undisturbed cache calls) h := by
  refine undisturbed_of_unlocked hapart hr (Pool.met_iff.2 fun h₂ e h₁ heq => ?_)
  intro root hroot j hj _ _ _
  exact Pool.met_iff.1 halone h₂ e h₁ heq (Option.isSome_of_mem hroot) j hj

end Main

/-! ## Two tracks in a small cache -/

/-- Room for one of two tracks. -/
def smallCache : HlsCache where
  root := ⟨true, [.normal "c"]⟩
  maxSizeBytes := 15
  cwd := []
  pid := 1

def twoCalls (second : Bool) : HlsCall where
  trackId := if second then "b" else "a"
  variant := "v"
  remuxed := .ok ⟨[.ok 3], .ok 2, .ok 5⟩

/-- The first track has its files. -/
def oneCached : FileSystem where
  nodes := [(["c"], .dir 0), (["a", "c"], .dir 0), (["v", "a", "c"], .dir 0),
    (["index.m3u8", "v", "a", "c"], .file 5 0), (["init.mp4", "v", "a", "c"], .file 2 0),
    (["seg0.m4s", "v", "a", "c"], .file 3 0)]
  clock := 0

/-- The steps of the calls, given who takes them. -/
def smallRun (schedule : List (Bool ⊕ Nat)) :=
  Pool.exec (schedule.map fun who => (who, .ok ())) ([], cachePool smallCache twoCalls oneCached)

theorem twoCalls_plain : ∀ second, (twoCalls second).Plain := by
  intro second
  cases second
  all_goals exact ⟨by decide +kernel, by decide +kernel, by decide +kernel⟩

theorem smallRun_run (schedule : List (Bool ⊕ Nat))
    (h : Pool.Met (OneHolder smallCache twoCalls) (smallRun schedule).1) :
    Pool.Run (OneHolder smallCache twoCalls) (cachePool smallCache twoCalls oneCached)
      (smallRun schedule).1 (smallRun schedule).2 :=
  Pool.run_iff.2 ⟨Pool.exec_run _ .init, h⟩

/-- The first call to its end, then the second. -/
def inTurn : List (Bool ⊕ Nat) := List.replicate 13 (.inl false) ++ List.replicate 60 (.inl true)

/-- The second before the first has released its lock. -/
def overlapping : List (Bool ⊕ Nat) :=
  List.replicate 12 (.inl false) ++ List.replicate 60 (.inl true) ++ [.inl false]

/-- The second track takes the place of the first when the first call is through. -/
theorem undisturbed_of_alone_through :
    Pool.Met (Undisturbed smallCache twoCalls) (smallRun inTurn).1 :=
  undisturbed_of_alone (apart_of_plain twoCalls_plain) (smallRun_run inTurn (by decide +kernel))
    (by decide +kernel)

/-- The first call has opened its segments, the second generates its own and sweeps, and what the
first returns is gone. -/
theorem opened_evicted :
    Pool.Run (OneHolder smallCache twoCalls) (cachePool smallCache twoCalls oneCached)
        (smallRun overlapping).1 (smallRun overlapping).2 ∧
      ¬ Pool.Met (Undisturbed smallCache twoCalls) (smallRun overlapping).1 ∧
      ¬ Pool.Met (fun _ => Delivered smallCache) (smallRun overlapping).1 := by
  refine ⟨smallRun_run overlapping ?_, ?_, ?_⟩
  · decide +kernel
  · decide +kernel
  · decide +kernel

end Kanade
