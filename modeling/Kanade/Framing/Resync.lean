import Mathlib.Data.List.Basic

/-!
# Framing.Resync

A loop that looks for frames: one element on where none begins, behind a frame where one does. It stops before
a frame that does not fit, or that is refused.

* `scan_total`: it ends, and the frames it takes lie one behind the other.
* `scan_frames`: from a sequence of frames it takes these.
-/

namespace Framing

variable {α φ ε σ : Type}

/-- What the header of a frame says. -/
structure Reader (α φ ε : Type) where
  /-- There is no frame in less. -/
  least : Nat
  read : List α → Except ε (Option φ)
  length : φ → Nat
  accepts : φ → Bool

/-- The loop, with what is done with the frames; no result if it is not over within so many rounds. -/
def scan (r : Reader α φ ε) (take : σ → Nat → φ → σ) (xs : List α) :
    Nat → Nat → σ → Option (Except ε σ)
  | fuel, offset, s =>
    if offset + r.least ≤ xs.length then
      match fuel with
      | 0 => none
      | fuel + 1 =>
        match r.read (xs.drop offset) with
        | .error e => some (.error e)
        | .ok none => scan r take xs fuel (offset + 1) s
        | .ok (some frame) =>
          if xs.length < offset + r.length frame ∨ r.accepts frame = false then some (.ok s)
          else scan r take xs fuel (offset + r.length frame) (take s offset frame)
    else some (.ok s)

variable {r : Reader α φ ε} {take : σ → Nat → φ → σ} {xs : List α} {fuel offset : Nat} {s : σ}

/-- Frames in order from `offset` on, none empty, none over another and none over the end. -/
def Spaced (r : Reader α φ ε) (limit : Nat) : Nat → List (Nat × φ) → Prop
  | _, [] => True
  | offset, (start, frame) :: rest =>
    offset ≤ start ∧ start < start + r.length frame ∧ start + r.length frame ≤ limit ∧
      r.accepts frame = true ∧ Spaced r limit (start + r.length frame) rest

theorem Spaced.mono {limit offset' : Nat} {frames : List (Nat × φ)} (h : Spaced r limit offset' frames)
    (hle : offset ≤ offset') : Spaced r limit offset frames := by
  cases frames with
  | nil => trivial
  | cons frame rest =>
    obtain ⟨hstart, hrest⟩ := h
    exact ⟨Nat.le_trans hle hstart, hrest⟩

/-- Ranges in order from `a` to `b`, none empty and none over another. -/
def Apart : Nat → List (Nat × Nat) → Nat → Prop
  | a, [], b => a ≤ b
  | a, (start, stop) :: rest, b => a ≤ start ∧ start < stop ∧ Apart stop rest b

theorem Apart.length_le {a b : Nat} {ranges : List (Nat × Nat)} (h : Apart a ranges b) :
    a + ranges.length ≤ b := by
  induction ranges generalizing a with
  | nil => exact h
  | cons range ranges ih =>
    obtain ⟨hstart, hstop, hrest⟩ := h
    have hle := ih hrest
    rw [List.length_cons]
    omega

/-- What follows a header in each frame. -/
theorem Spaced.apart {limit : Nat} {frames : List (Nat × φ)} {skip : φ → Nat}
    (h : Spaced r limit offset frames) (hle : offset ≤ limit)
    (hskip : ∀ frame, r.accepts frame = true → 0 < r.length frame → skip frame < r.length frame) :
    Apart offset (frames.map fun p => (p.1 + skip p.2, p.1 + r.length p.2)) limit := by
  induction frames generalizing offset with
  | nil => exact hle
  | cons p frames ih =>
    obtain ⟨hstart, hpos, hstop, haccepts, hrest⟩ := h
    have hheader := hskip p.2 haccepts (Nat.pos_of_lt_add_right hpos)
    exact ⟨Nat.le_trans hstart (Nat.le_add_right _ _), Nat.add_lt_add_left hheader p.1, ih hrest hstop⟩

/-- A reader that answers for all that is long enough, and takes no empty frames. -/
structure Reader.Sound (r : Reader α φ ε) : Prop where
  least_pos : 0 < r.least
  answers : ∀ xs, r.least ≤ xs.length → ∃ found, r.read xs = .ok found
  length_pos : ∀ xs frame, r.read xs = .ok (some frame) → r.accepts frame = true → 0 < r.length frame

theorem scan_total (hr : r.Sound) (take : σ → Nat → φ → σ) (s : σ) (hfuel : xs.length ≤ offset + fuel) :
    ∃ frames, Spaced r xs.length offset frames ∧
      scan r take xs fuel offset s = some (.ok (frames.foldl (fun s p => take s p.1 p.2) s)) := by
  have hpos := hr.least_pos
  induction fuel generalizing offset s with
  | zero =>
    unfold scan
    rw [if_neg (by omega)]
    exact ⟨[], trivial, rfl⟩
  | succ fuel ih =>
    unfold scan
    split
    · rename_i hmore
      dsimp only
      obtain ⟨found, hfound⟩ := hr.answers (xs.drop offset) (by rw [List.length_drop]; omega)
      rw [hfound]
      cases found with
      | none =>
        obtain ⟨frames, hspaced, hscan⟩ := @ih (offset + 1) s (by omega)
        exact ⟨frames, hspaced.mono (Nat.le_succ offset), hscan⟩
      | some frame =>
        dsimp only
        split
        · exact ⟨[], trivial, rfl⟩
        · rename_i hfits
          rw [not_or, Nat.not_lt, Bool.not_eq_false] at hfits
          have hlength := hr.length_pos _ frame hfound hfits.2
          obtain ⟨frames, hspaced, hscan⟩ := @ih (offset + r.length frame) (take s offset frame) (by omega)
          refine ⟨(offset, frame) :: frames, ⟨Nat.le_refl offset, ?_, hfits.1, hfits.2, hspaced⟩, hscan⟩
          omega
    · exact ⟨[], trivial, rfl⟩

/-! ## Sequences of frames -/

/-- A block that is read as this frame, whatever follows. -/
structure Reader.Reads (r : Reader α φ ε) (frame : φ) (block : List α) : Prop where
  least : r.least ≤ block.length
  read : ∀ after, r.read (block ++ after) = .ok (some frame)
  length : r.length frame = block.length
  accepts : r.accepts frame = true

/-- Where the frames of a sequence begin. -/
def placed (r : Reader α φ ε) : Nat → List φ → List (Nat × φ)
  | _, [] => []
  | offset, frame :: frames => (offset, frame) :: placed r (offset + r.length frame) frames

theorem map_placed {γ : Type} (f : φ → γ) (frames : List φ) (offset : Nat) :
    (placed r offset frames).map (fun p => f p.2) = frames.map f := by
  induction frames generalizing offset with
  | nil => rfl
  | cons frame frames ih => rw [placed, List.map_cons, ih, List.map_cons]

variable {β : Type} {frame : β → φ} {block : β → List α}

theorem length_le_flatMap (hleast : 0 < r.least) (hreads : ∀ b, r.Reads (frame b) (block b)) (blocks : List β) :
    blocks.length ≤ (blocks.flatMap block).length := by
  induction blocks with
  | nil => exact Nat.le_refl 0
  | cons b blocks ih =>
    have hb := (hreads b).least
    rw [List.length_cons, List.flatMap_cons, List.length_append]
    omega

theorem scan_frames (hleast : 0 < r.least) (hreads : ∀ b, r.Reads (frame b) (block b)) {blocks : List β}
    (take : σ → Nat → φ → σ) (s : σ) (hfuel : blocks.length ≤ fuel)
    (hxs : xs.drop offset = blocks.flatMap block) :
    scan r take xs fuel offset s =
      some (.ok ((placed r offset (blocks.map frame)).foldl (fun s p => take s p.1 p.2) s)) := by
  induction blocks generalizing fuel offset s with
  | nil =>
    have hlength := congrArg List.length hxs
    rw [List.length_drop, List.flatMap_nil, List.length_nil] at hlength
    unfold scan
    rw [if_neg (by omega)]
    rfl
  | cons b blocks ih =>
    rw [List.flatMap_cons] at hxs
    have hb := hreads b
    have hlength := congrArg List.length hxs
    have hblock := hb.least
    rw [List.length_drop, List.length_append] at hlength
    have hrest : xs.drop (offset + r.length (frame b)) = blocks.flatMap block := by
      rw [← List.drop_drop, hxs, hb.length, List.drop_left]
    cases fuel with
    | zero => cases hfuel
    | succ fuel =>
      have hfits : ¬ (xs.length < offset + r.length (frame b) ∨ r.accepts (frame b) = false) := by
        rw [hb.length, hb.accepts]
        simp only [Bool.true_eq_false, or_false]
        omega
      unfold scan
      rw [if_pos (by omega), hxs, hb.read]
      dsimp only
      rw [if_neg hfits]
      exact ih (take s offset (frame b)) (Nat.le_of_succ_le_succ hfuel) hrest

/-- What lies behind the headers of the frames of a sequence. -/
theorem slices_placed (skip : φ → Nat) (hlength : ∀ b, r.length (frame b) = (block b).length)
    {blocks : List β} (hxs : xs.drop offset = blocks.flatMap block) :
    (placed r offset (blocks.map frame)).map
        (fun p => (xs.take (p.1 + r.length p.2)).drop (p.1 + skip p.2)) =
      blocks.map fun b => (block b).drop (skip (frame b)) := by
  induction blocks generalizing offset with
  | nil => rfl
  | cons b blocks ih =>
    rw [List.flatMap_cons] at hxs
    have hrest : xs.drop (offset + r.length (frame b)) = blocks.flatMap block := by
      rw [← List.drop_drop, hxs, hlength, List.drop_left]
    have hfirst : (xs.take (offset + r.length (frame b))).drop (offset + skip (frame b)) =
        (block b).drop (skip (frame b)) := by
      rw [← List.drop_drop, List.drop_take, Nat.add_sub_cancel_left, hxs, hlength, List.take_left]
    rw [List.map_cons, placed, List.map_cons, hfirst, ih hrest, List.map_cons]

end Framing
