import Mathlib.Data.List.Basic
import Mathlib.Data.Option.Basic

/-!
# Concur.Copies

A list and its copy at the other end of a link. The list is loaded anew or lengthened; the orders to
do the same to the copy are on their way, in order. Each load has a number, and the copy knows a tag
of it.

* `Behind`: the copy becomes the list by the orders on their way.
* `Behind.load`, `Behind.append`, `Behind.exec`: what the owner of the list does, and what the copy does.
* `Told`: what was once read from the copy, under the tag of its load. If that is still the last
  load it is true of the list: `Behind.told`, `Told.append`.
-/

namespace Concur

variable {γ α : Type}

inductive CopyOrder (γ α : Type) where
  | load (tag : γ) (items : List α)
  | append (items : List α)

structure Copy (γ α : Type) where
  tag : γ
  items : List α

def Copy.exec (copy : Copy γ α) : CopyOrder γ α → Copy γ α
  | .load tag items => ⟨tag, items⟩
  | .append items => { copy with items := copy.items ++ items }

variable (tag : ℕ → γ)

/-- A copy from load `number` (`none`: one that nothing was loaded to) comes to hold `list`, which is
from load `n`. `tag k` is the tag of load `k`. -/
def Leads (n : ℕ) (list : List α) : Option ℕ → List α → List (CopyOrder γ α) → Prop
  | number, items, [] => number = some n ∧ items = list ∨ number = none ∧ items = [] ∧ list = []
  | number, _, .load g items :: rest =>
    ∃ k, g = tag k ∧ (∀ j ∈ number, j < k) ∧ Leads n list (some k) items rest
  | number, items, .append more :: rest =>
    (number = none → more = []) ∧ Leads n list number (items ++ more) rest

structure Behind (n : ℕ) (list : List α) (copy : Copy γ α) (orders : List (CopyOrder γ α)) : Prop where
  leads : ∃ number : Option ℕ, (∀ k ∈ number, copy.tag = tag k) ∧ (number = none → copy.items = []) ∧
    Leads tag n list number copy.items orders

/-- Entry `i` of a copy with this tag was `a`, which is true of the list unless it was loaded again. -/
def Told (n : ℕ) (list : List α) (g : γ) (i : ℕ) (a : α) : Prop :=
  ∃ k ≤ n, g = tag k ∧ (k = n → list[i]? = some a)

variable {tag} {n : ℕ} {list items more : List α} {number : Option ℕ} {copy : Copy γ α}
  {orders : List (CopyOrder γ α)} {g : γ} {i : ℕ} {a : α}

/-! ## Orders on their way -/

theorem Leads.le (h : Leads tag n list number items orders) : ∀ k ∈ number, k ≤ n := by
  induction orders generalizing number items with
  | nil =>
    intro k hk
    obtain ⟨hnumber, -⟩ | ⟨hnumber, -⟩ := h
    · rw [hnumber, Option.mem_some_iff] at hk
      exact Nat.le_of_eq hk.symm
    · rw [hnumber] at hk
      cases hk
  | cons order orders ih =>
    intro k hk
    cases order with
    | load g items =>
      obtain ⟨k', -, hlt, hrest⟩ := h
      exact Nat.le_trans (Nat.le_of_lt (hlt k hk)) (ih hrest k' rfl)
    | append more => exact ih h.2 k hk

/-- With no load on its way the copy holds the first part of the list. -/
theorem Leads.isPrefix (h : Leads tag n list (some n) items orders) : items <+: list := by
  induction orders generalizing items with
  | nil =>
    obtain ⟨-, hitems⟩ | ⟨hnumber, -⟩ := h
    · exact hitems ▸ List.prefix_rfl
    · cases hnumber
  | cons order orders ih =>
    cases order with
    | load g items =>
      obtain ⟨k, -, hlt, hrest⟩ := h
      exact absurd (hlt n rfl) (Nat.not_lt_of_le (hrest.le k rfl))
    | append more => exact (List.prefix_append _ _).trans (ih h.2)

theorem Leads.load (h : Leads tag n list number items orders) (new : List α) :
    Leads tag (n + 1) new number items (orders ++ [.load (tag (n + 1)) new]) := by
  induction orders generalizing number items with
  | nil =>
    refine ⟨n + 1, rfl, fun j hj => ?_, .inl ⟨rfl, rfl⟩⟩
    exact Nat.lt_succ_of_le (Leads.le h j hj)
  | cons order orders ih =>
    cases order with
    | load g items =>
      obtain ⟨k, hg, hlt, hrest⟩ := h
      exact ⟨k, hg, hlt, ih hrest⟩
    | append more => exact ⟨h.1, ih h.2⟩

theorem Leads.append (h : Leads tag n list number items orders) (hlist : list ≠ []) (more : List α) :
    Leads tag n (list ++ more) number items (orders ++ [.append more]) := by
  induction orders generalizing number items with
  | nil =>
    obtain ⟨hnumber, hitems⟩ | ⟨-, -, hnil⟩ := h
    · rw [hnumber, hitems]
      exact ⟨fun hnone => (by cases hnone), .inl ⟨rfl, rfl⟩⟩
    · exact absurd hnil hlist
  | cons order orders ih =>
    cases order with
    | load g items =>
      obtain ⟨k, hg, hlt, hrest⟩ := h
      exact ⟨k, hg, hlt, ih hrest⟩
    | append more => exact ⟨h.1, ih h.2⟩

namespace Behind

theorem start (hcopy : copy.items = []) : Behind tag 0 [] copy [] :=
  ⟨none, fun _ hk => (by cases hk), fun _ => hcopy, .inr ⟨rfl, hcopy, rfl⟩⟩

theorem load (h : Behind tag n list copy orders) (new : List α) :
    Behind tag (n + 1) new copy (orders ++ [.load (tag (n + 1)) new]) := by
  obtain ⟨number, htag, hitems, hleads⟩ := h.leads
  exact ⟨number, htag, hitems, hleads.load new⟩

theorem append (h : Behind tag n list copy orders) (hlist : list ≠ []) (more : List α) :
    Behind tag n (list ++ more) copy (orders ++ [.append more]) := by
  obtain ⟨number, htag, hitems, hleads⟩ := h.leads
  exact ⟨number, htag, hitems, hleads.append hlist more⟩

theorem exec {order : CopyOrder γ α} (h : Behind tag n list copy (order :: orders)) :
    Behind tag n list (copy.exec order) orders := by
  obtain ⟨number, htag, hitems, hleads⟩ := h.leads
  cases order with
  | load g items =>
    obtain ⟨k, hg, -, hrest⟩ := hleads
    refine ⟨some k, fun k' hk' => ?_, fun hnone => (by cases hnone), hrest⟩
    rw [Option.mem_some_iff] at hk'
    exact hk' ▸ hg
  | append more =>
    refine ⟨number, htag, fun hnone => ?_, hleads.2⟩
    rw [Copy.exec, hitems hnone, hleads.1 hnone]
    rfl

/-- With nothing on its way. -/
theorem items_eq (h : Behind tag n list copy []) : copy.items = list := by
  obtain ⟨number, -, -, ⟨-, hitems⟩ | ⟨-, hitems, hlist⟩⟩ := h.leads
  · exact hitems
  · rw [hitems, hlist]

/-- What is read from the copy. -/
theorem told (h : Behind tag n list copy orders) (hread : copy.items[i]? = some a) :
    Told tag n list copy.tag i a := by
  obtain ⟨number, htag, hitems, hleads⟩ := h.leads
  cases number with
  | none =>
    rw [hitems rfl] at hread
    cases hread
  | some k =>
    refine ⟨k, hleads.le k rfl, htag k rfl, fun hk => ?_⟩
    subst hk
    obtain ⟨hi, rfl⟩ := List.getElem?_eq_some_iff.1 hread
    exact List.prefix_iff_getElem?.1 hleads.isPrefix i hi

end Behind

/-! ## What was read -/

theorem Told.load (h : Told tag n list g i a) (new : List α) : Told tag (n + 1) new g i a := by
  obtain ⟨k, hk, hg, -⟩ := h
  refine ⟨k, Nat.le_succ_of_le hk, hg, fun heq => ?_⟩
  subst heq
  exact absurd hk (Nat.not_succ_le_self n)

theorem Told.append (h : Told tag n list g i a) (more : List α) : Told tag n (list ++ more) g i a := by
  obtain ⟨k, hk, hg, htrue⟩ := h
  refine ⟨k, hk, hg, fun heq => ?_⟩
  have hread := htrue heq
  rw [List.getElem?_append_left (List.getElem?_eq_some_iff.1 hread).1]
  exact hread

/-- As long as tags tell loads apart. -/
theorem Told.eq (h : Told tag n list (tag n) i a) (htags : ∀ k ≤ n, tag n = tag k → k = n) :
    list[i]? = some a := by
  obtain ⟨k, hk, hg, htrue⟩ := h
  exact htrue (htags k hk hg)

end Concur
