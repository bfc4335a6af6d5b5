import Mathlib.Algebra.Group.Nat.Defs
import Mathlib.Data.List.Basic

/-!
# Text.Url

Cutting URLs and queries up, and numbers in them.

* `cut_append`: text without the separator, the separator, and anything comes apart there.
* `fields_query`: the fields of a query are what it was put together from.
* `parseU64_toDigits`: a number is read back.
* `eq_of_append_sep`: what stands after the last separator, and before it.
-/

namespace Url

/-- The text before the first `c`, and the text after it. -/
def cut (c : Char) : List Char → List Char × Option (List Char)
  | [] => ([], none)
  | d :: cs => if d = c then ([], some cs) else (d :: (cut c cs).1, (cut c cs).2)

/-- The fields of a query. -/
def fields (query : List Char) : List (List Char × List Char) :=
  (query.splitOn '&').map fun field => ((cut '=' field).1, ((cut '=' field).2).getD [])

/-- The text of a query. -/
def query (kvs : List (List Char × List Char)) : List Char :=
  ['&'].intercalate (kvs.map fun kv => kv.1 ++ '=' :: kv.2)

/-- The value of a field that is there once. -/
def field? (name : String) (kvs : List (List Char × List Char)) : Option (List Char) :=
  match kvs.filter fun kv => kv.1 = name.toList with
  | [kv] => some kv.2
  | _ => none

/-- `u64::from_str`, without a sign. -/
def parseU64 (cs : List Char) : Option UInt64 :=
  if cs ≠ [] ∧ cs.all Char.isDigit ∧ Nat.ofDigitChars 10 cs 0 < 2 ^ 64 then
    some (UInt64.ofNat (Nat.ofDigitChars 10 cs 0))
  else none

/-- `trim_end_matches`. -/
def trimEnd (c : Char) (cs : List Char) : List Char := (cs.reverse.dropWhile (· = c)).reverse

variable {c : Char} {pre rest : List Char}

/-- What is true of all characters of a text, checked one after the other. -/
theorem forall_of_all {P : Char → Prop} [DecidablePred P] {cs : List Char}
    (h : (cs.all fun c => decide (P c)) = true) : ∀ c ∈ cs, P c := by
  intro c hc
  exact of_decide_eq_true (List.all_eq_true.1 h c hc)

theorem cut_append (h : c ∉ pre) : cut c (pre ++ c :: rest) = (pre, some rest) := by
  induction pre with
  | nil => rw [List.nil_append, cut, if_pos rfl]
  | cons d pre ih =>
    have hd : d ≠ c := fun heq => h (heq ▸ List.mem_cons_self)
    rw [List.cons_append, cut, if_neg hd, ih fun hmem => h (List.mem_cons_of_mem _ hmem)]

theorem fields_query {kvs : List (List Char × List Char)} (hne : kvs ≠ [])
    (h : ∀ kv ∈ kvs, '=' ∉ kv.1 ∧ '&' ∉ kv.1 ∧ '&' ∉ kv.2) : fields (query kvs) = kvs := by
  have hsplit : (query kvs).splitOn '&' = kvs.map fun kv => kv.1 ++ '=' :: kv.2 := by
    refine List.splitOn_intercalate '&' ?_ (by simpa using hne)
    intro l hl
    obtain ⟨kv, hkv, rfl⟩ := List.mem_map.1 hl
    obtain ⟨-, hk, hv⟩ := h kv hkv
    simp [hk, hv]
  rw [fields, hsplit, List.map_map]
  refine (List.map_congr_left ?_).trans (List.map_id kvs)
  intro kv hkv
  simp [cut_append (h kv hkv).1]

theorem parseU64_toDigits (n : UInt64) : parseU64 (Nat.toDigits 10 n.toNat) = some n := by
  have hall : (Nat.toDigits 10 n.toNat).all Char.isDigit := by
    rw [List.all_eq_true]
    intro d hd
    exact Nat.isDigit_of_mem_toDigits (by omega) (by omega) hd
  have hof := Nat.ofDigitChars_toDigits (b := 10) (n := n.toNat) (by omega) (by omega)
  rw [parseU64, hof, if_pos ⟨Nat.toDigits_ne_nil, hall, n.toNat_lt⟩, UInt64.ofNat_toNat]

theorem eq_of_append_sep {pre pre' post post' : List Char} (hpost : c ∉ post) (hpost' : c ∉ post')
    (h : pre ++ c :: post = pre' ++ c :: post') : pre = pre' ∧ post = post' := by
  have hrev : post.reverse ++ c :: pre.reverse = post'.reverse ++ c :: pre'.reverse := by
    have hr := congrArg List.reverse h
    simpa using hr
  have hcut : cut c (post.reverse ++ c :: pre.reverse) = (post.reverse, some pre.reverse) :=
    cut_append (mt List.mem_reverse.1 hpost)
  rw [hrev, cut_append (mt List.mem_reverse.1 hpost')] at hcut
  obtain ⟨hpostrev, hprerev⟩ := Prod.mk.inj hcut
  exact ⟨(List.reverse_injective (Option.some.inj hprerev)).symm,
    (List.reverse_injective hpostrev).symm⟩

end Url
