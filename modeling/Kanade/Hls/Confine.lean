import Kanade.Hls.Cache
import Kanade.Ws.MediaPath

/-!
# Kanade.Hls.Confine

Where the directories lie that a signed HLS path makes the server work on.

The check of a path is made before it is decoded, so that a variant may have any name at all.
`hls_confined_iff`: the directories of a pair lie inside the directory of its track exactly if the
decoded variant, and the name made of it for the temporary directory, lead down again what they lead
up. Of the variants without a `/` these are all but `.` and `..`.
-/

namespace Kanade

open Concur Files

/-- The call keeps inside the directory of the track, which itself, and the root of the cache, it may
only create. -/
def FileCall.KeepsTo (cwd : Dir) (root : Path) (trackDir : Dir) : FileCall → Prop
  | .createDirAll path => path = root ∨ (path.resolve cwd).Within trackDir
  | .removeDirAll path | .openSegments path | .touch path | .writeHlsOutput path =>
    (path.resolve cwd).Inside trackDir
  | .rename src dst => (src.resolve cwd).Inside trackDir ∧ (dst.resolve cwd).Inside trackDir
  | .exists _ | .remuxSource _ | .enforceSizeLimit _ => True

variable {cwd : Dir} {root : Path} {trackDir : Dir} {sourcePath trackId variant : String}
  {pid secs : Nat}

/-- The two directories named after the variant decide it. -/
theorem keepsTo_getOrGenerate_iff :
    (getOrGenerate root sourcePath trackId variant pid secs).Calls
        (FileCall.KeepsTo cwd root trackDir) ↔
      ((variantDir root trackId variant).resolve cwd).Inside trackDir ∧
        (((root.join trackId).join (tmpName variant pid secs)).resolve cwd).Inside trackDir := by
  rw [calls_getOrGenerate]
  constructor
  · rintro ⟨-, -, hopen, -, ⟨-, -, htmp, -⟩, -⟩
    exact ⟨hopen, htmp⟩
  · rintro ⟨htarget, htmp⟩
    have hparent : ∀ parent ∈ (variantDir root trackId variant).parent?,
        FileCall.KeepsTo cwd root trackDir (.createDirAll parent) :=
      fun parent hp => .inr (within_resolve_parent hp htarget)
    exact ⟨.inl rfl, trivial, htarget, htarget, ⟨.inl rfl, trivial, htmp, .inr htmp.within, trivial,
      htmp, trivial, htarget, hparent, ⟨htmp, htarget⟩, htarget⟩, trivial⟩

/-- An id that is a plain name is the name of a directory in the root. -/
theorem resolve_join_plain (hne : trackId ≠ "") (hslash : '/' ∉ trackId.toList)
    (hdot : '.' ∉ trackId.toList) : (root.join trackId).resolve cwd = trackId :: root.resolve cwd := by
  have hempty : trackId.toList ≠ [] := fun h => hne (String.toList_inj.1 h)
  have hcomponent : component? trackId.toList = some (.normal trackId) := by
    unfold component?
    have hone : trackId.toList ≠ ['.'] := fun h => hdot (h ▸ List.mem_cons_self)
    have htwo : trackId.toList ≠ ['.', '.'] := fun h => hdot (h ▸ List.mem_cons_self)
    rw [if_neg (not_or.2 ⟨hempty, hone⟩), if_neg htwo, String.ofList_toList]
  rw [resolve_join, ofString_of_not_mem hslash, hcomponent]
  rfl

/-- The temporary directory of a variant without a `/` is one too. -/
theorem inside_tmpName (hslash : '/' ∉ variant.toList) {d : Dir} :
    ((Path.ofString (tmpName variant pid secs)).resolve d).Inside d :=
  (inside_of_segment (isName_tmpName hslash).1).2 (isName_tmpName hslash).2

/-- The directories of a pair stay inside that of the track exactly if the decoded variant and its
temporary name descend; without a `/` in the variant, if it is neither `.` nor `..`. -/
theorem hls_confined_iff (library : MediaLibrary)
    (hids : ∀ id, library.isKnownTrackId id = true →
      id ≠ "" ∧ '/' ∉ id.toList ∧ '.' ∉ id.toList ∧ '%' ∉ id.toList)
    (path trackId variant : String) (hsign : isSignableMediaPath library path = some true)
    (hroute : hlsRoute path = some (trackId, variant)) (cwd : Dir) (root : Path)
    (sourcePath : String) (pid secs : Nat) :
    ((getOrGenerate root sourcePath trackId variant pid secs).Calls
        (FileCall.KeepsTo cwd root (trackId :: root.resolve cwd)) ↔
      (Path.ofString variant).Descends (trackId :: root.resolve cwd) ∧
        (Path.ofString (tmpName variant pid secs)).Descends (trackId :: root.resolve cwd)) ∧
    ('/' ∉ variant.toList →
      ((getOrGenerate root sourcePath trackId variant pid secs).Calls
        (FileCall.KeepsTo cwd root (trackId :: root.resolve cwd)) ↔ variant ≠ "." ∧ variant ≠ "..")) := by
  obtain ⟨hne, hslash, hdot, -⟩ :=
    hids trackId (known_of_hlsRoute (fun id hid => (hids id hid).2.2.2) hsign hroute)
  have hdir : (root.join trackId).resolve cwd = trackId :: root.resolve cwd :=
    resolve_join_plain hne hslash hdot
  have hjoin : ∀ s, ((root.join trackId).join s).resolve cwd =
      (Path.ofString s).resolve (trackId :: root.resolve cwd) := fun s => by rw [resolve_join, hdir]
  rw [keepsTo_getOrGenerate_iff, variantDir, hjoin, hjoin]
  refine ⟨and_congr inside_resolve_iff inside_resolve_iff, fun hv => ?_⟩
  rw [and_iff_left (inside_tmpName hv), inside_of_segment hv]
  exact and_iff_right (variant_ne_empty hsign hroute)

/-- A library with one track. -/
def oneTrack : MediaLibrary := ⟨fun id => id = "t", fun _ => false, fun _ => false⟩

def cacheRoot : Path := Path.ofString "/cache"

theorem hls_confined_iff_plain :
    ((getOrGenerate cacheRoot "/music/t.flac" "t" "flac" 7 8).Calls
        (FileCall.KeepsTo [] cacheRoot ("t" :: cacheRoot.resolve [])) ↔
      (Path.ofString "flac").Descends ("t" :: cacheRoot.resolve []) ∧
        (Path.ofString (tmpName "flac" 7 8)).Descends ("t" :: cacheRoot.resolve [])) ∧
    ('/' ∉ "flac".toList →
      ((getOrGenerate cacheRoot "/music/t.flac" "t" "flac" 7 8).Calls
        (FileCall.KeepsTo [] cacheRoot ("t" :: cacheRoot.resolve [])) ↔
          "flac" ≠ "." ∧ "flac" ≠ "..")) := by
  refine hls_confined_iff oneTrack (fun id hid => ?_) "/media/hls/t/flac/init.mp4" "t" "flac"
    (by decide +kernel) ?_ [] cacheRoot "/music/t.flac" 7 8
  · obtain rfl : id = "t" := of_decide_eq_true hid
    decide
  · exact hlsRoute_eq_some_iff.2 ⟨"t/flac/init.mp4", "t", "flac", "init.mp4", rfl,
      by decide +kernel, Percent.decode_of_not_mem (by decide),
      Percent.decode_of_not_mem (by decide), by rw [Percent.decode_of_not_mem (by decide)]; rfl⟩

/-- Two dots, encoded: the path can be signed, and its variant is the root of the cache. -/
theorem encoded_dots_not_confined :
    isSignableMediaPath oneTrack "/media/hls/t/%2e%2e/init.mp4" = some true ∧
      hlsRoute "/media/hls/t/%2e%2e/init.mp4" = some ("t", "..") ∧
      (variantDir cacheRoot "t" "..").resolve [] = ["cache"] ∧
      ¬ (getOrGenerate cacheRoot "/music/t.flac" "t" ".." 7 8).Calls
        (FileCall.KeepsTo [] cacheRoot ("t" :: cacheRoot.resolve [])) := by
  refine ⟨by decide +kernel, ?_, by decide +kernel, ?_⟩
  · exact hlsRoute_eq_some_iff.2 ⟨"t/%2e%2e/init.mp4", "t", "%2e%2e", "init.mp4", rfl,
      by decide +kernel, Percent.decode_of_not_mem (by decide),
      Percent.decode_eq_some_iff.2 (by decide +kernel),
      by rw [Percent.decode_of_not_mem (by decide)]; rfl⟩
  · rw [keepsTo_getOrGenerate_iff]
    exact fun h => absurd h.1 (by decide +kernel)

end Kanade
