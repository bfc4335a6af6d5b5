import Mathlib.Algebra.Group.Nat.Defs

/-!
# Lacing.Assembly

Packets cut into segments of at most `full` elements, and put together again: a segment that is not full is
the last one of its packet. The lengths of the segments come in pages, together with their elements.

* `assemble_lacing`: one packet.
* `assemble_packets`: any list of them.
* `foldl_pages`: the pages do not matter.
-/

namespace Lacing

variable {α : Type} {full : Nat}

/-! ## Segments -/

def total (ns : List Nat) : Nat := ns.foldr (fun n rest => n + rest) 0

/-- The lengths of the segments of a packet; the last one is not full, and may be empty. -/
def lacing (full length : Nat) : List Nat := List.replicate (length / full) full ++ [length % full]

@[simp] theorem total_nil : total [] = 0 := rfl

@[simp] theorem total_cons (n : Nat) (ns : List Nat) : total (n :: ns) = n + total ns := rfl

@[simp] theorem total_append (ms ns : List Nat) : total (ms ++ ns) = total ms + total ns := by
  induction ms with
  | nil => simp
  | cons m ms ih => simp [ih, Nat.add_assoc]

@[simp] theorem total_replicate (k n : Nat) : total (List.replicate k n) = n * k := by
  induction k with
  | zero => simp
  | succ k ih => simp [List.replicate_succ, ih, Nat.mul_succ, Nat.add_comm]

@[simp] theorem total_lacing (full length : Nat) : total (lacing full length) = length := by
  simp [lacing, Nat.div_add_mod]

theorem le_of_mem_lacing {length n : Nat} (hfull : 0 < full) (h : n ∈ lacing full length) : n ≤ full := by
  rw [lacing, List.mem_append, List.mem_singleton] at h
  rcases h with hmem | rfl
  · exact Nat.le_of_eq (List.eq_of_mem_replicate hmem)
  · exact Nat.le_of_lt (Nat.mod_lt length hfull)

theorem total_flatMap_lacing (full : Nat) (packets : List (List α)) :
    total (packets.flatMap fun packet => lacing full packet.length) = packets.flatten.length := by
  induction packets with
  | nil => rfl
  | cons packet packets ih => simp [ih]

/-! ## Assembly -/

/-- The packets that are complete, and the beginning of the next. -/
structure Assembly (α : Type) where
  packets : List (List α)
  current : List α
deriving DecidableEq, Repr

namespace Assembly

def empty : Assembly α := ⟨[], []⟩

/-- One more segment. -/
def add (s : Assembly α) (last : Bool) (segment : List α) : Assembly α :=
  if last then ⟨s.packets ++ [s.current ++ segment], []⟩ else ⟨s.packets, s.current ++ segment⟩

/-- At the end, what is there of a packet counts as one. -/
def finish (s : Assembly α) : List (List α) :=
  if s.current.isEmpty then s.packets else s.packets ++ [s.current]

@[simp] theorem add_last (packets : List (List α)) (current segment : List α) :
    add ⟨packets, current⟩ true segment = ⟨packets ++ [current ++ segment], []⟩ := rfl

@[simp] theorem add_full (packets : List (List α)) (current segment : List α) :
    add ⟨packets, current⟩ false segment = ⟨packets, current ++ segment⟩ := rfl

end Assembly

/-- Segments of these lengths, taken from the front. -/
def assemble (full : Nat) : List Nat → List α → Assembly α → Assembly α
  | [], _, s => s
  | n :: ns, xs, s => assemble full ns (xs.drop n) (s.add (n < full) (xs.take n))

@[simp] theorem assemble_nil (xs : List α) (s : Assembly α) : assemble full [] xs s = s := rfl

theorem assemble_cons (n : Nat) (ns : List Nat) (xs : List α) (s : Assembly α) :
    assemble full (n :: ns) xs s = assemble full ns (xs.drop n) (s.add (n < full) (xs.take n)) := rfl

theorem assemble_append {ms : List Nat} {xs : List α} (hlength : xs.length = total ms) (ns : List Nat)
    (ys : List α) (s : Assembly α) :
    assemble full (ms ++ ns) (xs ++ ys) s = assemble full ns ys (assemble full ms xs s) := by
  induction ms generalizing xs s with
  | nil =>
    obtain rfl : xs = [] := List.length_eq_zero_iff.1 hlength
    rfl
  | cons m ms ih =>
    rw [total_cons] at hlength
    have hle : m ≤ xs.length := by omega
    have hrest : (xs.drop m).length = total ms := by
      rw [List.length_drop]
      omega
    rw [List.cons_append, assemble_cons, assemble_cons, List.drop_append_of_le_length hle,
      List.take_append_of_le_length hle, ih hrest]

/-- What follows the last segment is not looked at. -/
theorem assemble_append_right {ns : List Nat} {xs : List α} (hlength : xs.length = total ns) (ys : List α)
    (s : Assembly α) : assemble full ns (xs ++ ys) s = assemble full ns xs s := by
  have h := @assemble_append α full ns xs hlength [] ys s
  rwa [List.append_nil] at h

/-! ## Packets -/

/-- Full segments go on with the packet. -/
theorem assemble_replicate {k : Nat} {xs : List α} (hlength : xs.length = full * k)
    (packets : List (List α)) (current : List α) :
    assemble full (List.replicate k full) xs ⟨packets, current⟩ = ⟨packets, current ++ xs⟩ := by
  induction k generalizing xs current with
  | zero =>
    obtain rfl : xs = [] := List.length_eq_zero_iff.1 hlength
    rw [List.append_nil]
    rfl
  | succ k ih =>
    rw [Nat.mul_succ] at hlength
    have hrest : (xs.drop full).length = full * k := by
      rw [List.length_drop]
      omega
    have hfull : decide (full < full) = false := decide_eq_false (Nat.lt_irrefl full)
    rw [List.replicate_succ, assemble_cons, hfull, Assembly.add_full, ih hrest, List.append_assoc,
      List.take_append_drop]

theorem assemble_lacing (hfull : 0 < full) (packets : List (List α)) (packet : List α) :
    assemble full (lacing full packet.length) packet ⟨packets, []⟩ = ⟨packets ++ [packet], []⟩ := by
  have hsplit := Nat.div_add_mod packet.length full
  have hmod := Nat.mod_lt packet.length hfull
  have hfront : (packet.take (full * (packet.length / full))).length = full * (packet.length / full) := by
    rw [List.length_take]
    omega
  have hback : (packet.drop (full * (packet.length / full))).length = packet.length % full := by
    rw [List.length_drop]
    omega
  have hlast : decide (packet.length % full < full) = true := decide_eq_true hmod
  calc assemble full (lacing full packet.length) packet ⟨packets, []⟩
      = assemble full (lacing full packet.length) (packet.take (full * (packet.length / full)) ++
          packet.drop (full * (packet.length / full))) ⟨packets, []⟩ := by rw [List.take_append_drop]
    _ = assemble full [packet.length % full] (packet.drop (full * (packet.length / full)))
          ⟨packets, packet.take (full * (packet.length / full))⟩ := by
        rw [lacing, assemble_append (by rw [hfront, total_replicate]), assemble_replicate hfront,
          List.nil_append]
    _ = ⟨packets ++ [packet], []⟩ := by
        rw [assemble_cons, hlast, Assembly.add_last, assemble_nil, ← hback, List.take_length,
          List.take_append_drop]

theorem assemble_packets (hfull : 0 < full) (done packets : List (List α)) :
    assemble full (packets.flatMap fun packet => lacing full packet.length) packets.flatten ⟨done, []⟩ =
      ⟨done ++ packets, []⟩ := by
  induction packets generalizing done with
  | nil =>
    rw [List.append_nil]
    rfl
  | cons packet packets ih =>
    rw [List.flatMap_cons, List.flatten_cons, assemble_append (total_lacing full packet.length).symm,
      assemble_lacing hfull, ih, List.append_assoc, List.singleton_append]

/-! ## Pages -/

section Pages

variable {π : Type} {lengths : π → List Nat} {elements : π → List α}

theorem foldl_pages (hpage : ∀ page, (elements page).length = total (lengths page)) (pages : List π)
    (s : Assembly α) :
    pages.foldl (fun s page => assemble full (lengths page) (elements page) s) s =
      assemble full (pages.flatMap lengths) (pages.flatMap elements) s := by
  induction pages generalizing s with
  | nil => rfl
  | cons page pages ih =>
    rw [List.foldl_cons, ih, List.flatMap_cons, List.flatMap_cons, assemble_append (hpage page)]

/-- Whatever the pages, the packets come out that have been cut. -/
theorem foldl_pages_packets (hfull : 0 < full)
    (hpage : ∀ page, (elements page).length = total (lengths page)) {pages : List π}
    {packets : List (List α)}
    (hlengths : pages.flatMap lengths = packets.flatMap fun packet => lacing full packet.length)
    (helements : pages.flatMap elements = packets.flatten) :
    pages.foldl (fun s page => assemble full (lengths page) (elements page) s) .empty =
      ⟨packets, []⟩ := by
  rw [foldl_pages hpage, hlengths, helements]
  exact assemble_packets hfull [] packets

end Pages

end Lacing
