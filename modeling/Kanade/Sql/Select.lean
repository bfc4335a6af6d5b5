import Mathlib.Data.List.Infix
import Mathlib.Data.List.Perm.Basic

/-!
# Sql.Select

The part of `SELECT` that a filter is compiled to: texts with placeholders, and what they are
documented to mean.

* `like`: patterns with an escape character. `covers_only`, `covers_any`: how they match.
* `Expr`: conditions on text columns, in three-valued logic, with the values of the placeholders in the
  order of the text.
* `sortRows`: rows in the order that the terms ask for.
* `Select.Answers`: the rows that meet the condition, in some order that `ORDER BY` allows, as many as
  `LIMIT` says.
-/

namespace Sql

/-! ## Patterns -/

/-- The texts with `sep` between them. -/
def joinWith (sep : String) : List String → String
  | [] => ""
  | part :: parts => parts.foldl (fun text part => text ++ sep ++ part) part

/-- What a pattern asks for next. -/
inductive Wild where
  | any
  | one
  | only (c : Char)
deriving DecidableEq, Repr

def wild (c : Char) : Wild :=
  if c = '%' then .any else if c = '_' then .one else .only c

/-- The escape character makes the next one stand for itself; at the end it matches nothing. -/
def wilds (escape : Char) : List Char → Option (List Wild)
  | [] => some []
  | [c] => if c = escape then none else some [wild c]
  | c :: d :: p =>
    if c = escape then (wilds escape p).map fun w => Wild.only d :: w
    else (wilds escape (d :: p)).map fun w => wild c :: w

/-- Letters of ASCII match in either case. -/
def covers : List Wild → List Char → Bool
  | [], s => s.isEmpty
  | .any :: p, s => s.tails.any (covers p)
  | .one :: _, [] => false
  | .one :: p, _ :: s => covers p s
  | .only _ :: _, [] => false
  | .only c :: p, x :: s => x.toLower == c.toLower && covers p s

/-- `s LIKE pattern ESCAPE escape`. -/
def like (escape : Char) (s pattern : String) : Bool :=
  (wilds escape pattern.toList).any fun p => covers p s.toList

section Patterns

variable {escape c : Char} {p : List Char} {w : List Wild} {s v : List Char}

theorem wilds_escaped (d : Char) :
    wilds escape (escape :: d :: p) = (wilds escape p).map fun w => Wild.only d :: w := by
  rw [wilds, if_pos rfl]

theorem wilds_cons (hc : c ≠ escape) : wilds escape (c :: p) = (wilds escape p).map fun w => wild c :: w := by
  cases p with
  | nil => simp [wilds, hc]
  | cons d p => rw [wilds, if_neg hc]

/-- A text, up to the case of its letters, and the rest of the pattern. -/
theorem covers_only : covers (v.map Wild.only ++ w) s ↔
    ∃ u t, s = u ++ t ∧ u.map Char.toLower = v.map Char.toLower ∧ covers w t := by
  induction v generalizing s with
  | nil =>
    constructor
    · intro h
      exact ⟨[], s, rfl, rfl, h⟩
    · rintro ⟨u, t, rfl, hu, ht⟩
      rw [List.map_nil, List.map_eq_nil_iff] at hu
      subst hu
      exact ht
  | cons c v ih =>
    cases s with
    | nil =>
      rw [List.map_cons, List.cons_append, covers]
      refine iff_of_false Bool.false_ne_true ?_
      rintro ⟨u, t, hs, hu, -⟩
      rw [(List.append_eq_nil_iff.1 hs.symm).1] at hu
      cases hu
    | cons x s =>
      rw [List.map_cons, List.cons_append, covers, Bool.and_eq_true, beq_iff_eq, ih]
      constructor
      · rintro ⟨hx, u, t, rfl, hu, ht⟩
        exact ⟨x :: u, t, rfl, by rw [List.map_cons, List.map_cons, hx, hu], ht⟩
      · rintro ⟨u, t, hs, hu, ht⟩
        cases u with
        | nil => cases hu
        | cons y u =>
          rw [List.map_cons, List.map_cons, List.cons.injEq] at hu
          rw [List.cons_append, List.cons.injEq] at hs
          obtain ⟨rfl, rfl⟩ := hs
          exact ⟨hu.1, u, t, rfl, hu.2, ht⟩

/-- Any text, and the rest of the pattern. -/
theorem covers_any : covers (.any :: w) s ↔ ∃ u t, s = u ++ t ∧ covers w t := by
  rw [covers, List.any_eq_true]
  constructor
  · rintro ⟨t, ht, h⟩
    obtain ⟨u, rfl⟩ := List.mem_tails _ _ |>.1 ht
    exact ⟨u, t, rfl, h⟩
  · rintro ⟨u, t, rfl, h⟩
    exact ⟨t, (List.mem_tails _ _).2 ⟨u, rfl⟩, h⟩

theorem covers_nil : covers [] s ↔ s = [] := List.isEmpty_iff

theorem covers_any_end : covers [.any] s := covers_any.2 ⟨s, [], (List.append_nil s).symm, rfl⟩

end Patterns

/-! ## Conditions -/

inductive Comparison where
  | eq
  | ne
  | like (escape : Char)
  | notLike (escape : Char)
deriving DecidableEq, Repr

def Comparison.keyword : Comparison → String
  | .eq => "="
  | .ne => "!="
  | .like _ => "LIKE"
  | .notLike _ => "NOT LIKE"

def Comparison.clause : Comparison → String
  | .eq | .ne => ""
  | .like escape | .notLike escape => " ESCAPE '" ++ String.singleton escape ++ "'"

/-- The comparison of two texts; that of `=` is exact. -/
def Comparison.holds : Comparison → String → String → Bool
  | .eq, s, v => s == v
  | .ne, s, v => s != v
  | .like escape, s, v => Sql.like escape s v
  | .notLike escape, s, v => !Sql.like escape s v

/-- Conditions on the text columns of a row. A comparison takes the value of the next placeholder. -/
inductive Expr where
  | isNotNull (column : String)
  | compare (column : String) (op : Comparison)
  | and (l r : Expr)
  | or (l r : Expr)
  | paren (e : Expr)
deriving DecidableEq, Repr

namespace Expr

def text : Expr → String
  | isNotNull column => column ++ " IS NOT NULL"
  | compare column op => column ++ " " ++ op.keyword ++ " ?" ++ op.clause
  | and l r => l.text ++ " AND " ++ r.text
  | or l r => l.text ++ " OR " ++ r.text
  | paren e => "(" ++ e.text ++ ")"

/-- How tightly the outermost operator binds. -/
def level : Expr → Nat
  | or _ _ => 0
  | and _ _ => 1
  | isNotNull _ | compare _ _ | paren _ => 2

/-- The text groups as the condition does: `AND` binds tighter than `OR`, and both to the left. -/
def Grouped : Expr → Prop
  | isNotNull _ | compare _ _ => True
  | and l r => l.Grouped ∧ r.Grouped ∧ 1 ≤ l.level ∧ 2 ≤ r.level
  | or l r => l.Grouped ∧ r.Grouped ∧ 1 ≤ r.level
  | paren e => e.Grouped

def placeholders : Expr → Nat
  | isNotNull _ => 0
  | compare _ _ => 1
  | and l r | or l r => l.placeholders + r.placeholders
  | paren e => e.placeholders

/-- `AND` and `OR` of truth values, `none` the unknown one. -/
def and3 : Option Bool → Option Bool → Option Bool
  | some false, _ | _, some false => some false
  | some true, b => b
  | none, _ => none

def or3 : Option Bool → Option Bool → Option Bool
  | some true, _ | _, some true => some true
  | some false, b => b
  | none, _ => none

theorem and3_true (b : Option Bool) : and3 (some true) b = b := by
  rcases b with _ | _ | _ <;> rfl

/-- The value on a row, and the values left for what follows in the text. A comparison with a null is
unknown, and a placeholder without a value is null. -/
def eval (row : String → Option String) : Expr → List String → Option Bool × List String
  | isNotNull column, vs => (some (row column).isSome, vs)
  | compare _ _, [] => (none, [])
  | compare column op, v :: vs => ((row column).map fun s => op.holds s v, vs)
  | and l r, vs => (and3 (l.eval row vs).1 (r.eval row (l.eval row vs).2).1,
      (r.eval row (l.eval row vs).2).2)
  | or l r, vs => (or3 (l.eval row vs).1 (r.eval row (l.eval row vs).2).1,
      (r.eval row (l.eval row vs).2).2)
  | paren e, vs => e.eval row vs

/-! ### Parts in a row -/

/-- The parts one after the other, all joined by `AND` or all by `OR`. -/
def joined (all : Bool) (first : Expr) (parts : List Expr) : Expr :=
  parts.foldl (if all then and else or) first

/-- The truth values of the parts, joined. -/
def joinedValue (all : Bool) (first : Bool) (values : List Bool) : Bool :=
  values.foldl (if all then Bool.and else Bool.or) first

section Joined

variable {all : Bool} {first : Expr} {parts : List Expr}

theorem text_joined : (joined all first parts).text =
    joinWith (if all then " AND " else " OR ") (first.text :: parts.map text) := by
  induction parts generalizing first with
  | nil => rfl
  | cons part parts ih =>
    rw [joined, List.foldl_cons]
    refine ih.trans ?_
    cases all <;> rfl

theorem grouped_joined (hfirst : first.Grouped ∧ first.level = 2)
    (hparts : ∀ e ∈ parts, e.Grouped ∧ e.level = 2) : (joined all first parts).Grouped := by
  have hjoined : ∀ e : Expr, e.Grouped → (1 ≤ e.level ∨ all = false) →
      (joined all e parts).Grouped := by
    induction parts with
    | nil => exact fun e he _ => he
    | cons part parts ih =>
      intro e he hlevel
      have hpart := hparts part List.mem_cons_self
      have hrest := ih fun e he => hparts e (List.mem_cons_of_mem _ he)
      rw [joined, List.foldl_cons]
      cases all with
      | false => exact hrest (or e part) ⟨he, hpart.1, by omega⟩ (.inr rfl)
      | true =>
        have hone : 1 ≤ e.level := hlevel.resolve_right Bool.noConfusion
        exact hrest (and e part) ⟨he, hpart.1, hone, by omega⟩ (.inl (Nat.le_refl 1))
  exact hjoined first hfirst.1 (.inl (by omega))

theorem placeholders_joined (hfirst : first.placeholders = 1)
    (hparts : ∀ e ∈ parts, e.placeholders = 1) :
    (joined all first parts).placeholders = parts.length + 1 := by
  have hjoined : ∀ e : Expr, (joined all e parts).placeholders = e.placeholders + parts.length := by
    induction parts with
    | nil => exact fun e => rfl
    | cons part parts ih =>
      intro e
      have hpart := hparts part List.mem_cons_self
      have hrest := ih fun e he => hparts e (List.mem_cons_of_mem _ he)
      rw [joined, List.foldl_cons]
      refine (hrest _).trans ?_
      rw [List.length_cons]
      cases all <;> (simp only [Bool.false_eq_true, if_false, if_true, placeholders]; omega)
  rw [hjoined, hfirst]
  omega

variable {ι : Type} {row : String → Option String} {part : ι → Expr} {value : ι → String}
  {holds : ι → Bool} {items : List ι}

/-- Parts that take one value each and are never unknown: every value goes to its own part. -/
theorem eval_joined
    (hparts : ∀ i ∈ items, ∀ vs, (part i).eval row (value i :: vs) = (some (holds i), vs))
    {vs : List String} {b : Bool} (hfirst : first.eval row vs = (some b, items.map value)) :
    ((joined all first (items.map part)).eval row vs).1 =
      some (joinedValue all b (items.map holds)) := by
  induction items generalizing first b with
  | nil => rw [List.map_nil, joined, List.foldl_nil, hfirst]; rfl
  | cons i items ih =>
    have hpart := hparts i List.mem_cons_self (items.map value)
    have hrest : ∀ i ∈ items, ∀ vs, (part i).eval row (value i :: vs) = (some (holds i), vs) :=
      fun i hi => hparts i (List.mem_cons_of_mem _ hi)
    rw [List.map_cons] at hfirst
    rw [List.map_cons, joined, List.foldl_cons, joinedValue, List.map_cons, List.foldl_cons]
    cases all with
    | false =>
      refine ih hrest (b := b || holds i) ?_
      simp only [Bool.false_eq_true, if_false, eval, hfirst, hpart]
      cases b <;> cases holds i <;> rfl
    | true =>
      refine ih hrest (b := b && holds i) ?_
      simp only [if_true, eval, hfirst, hpart]
      cases b <;> cases holds i <;> rfl

end Joined

theorem joinedValue_eq (all b : Bool) (values : List Bool) :
    joinedValue all b values = if all then (b :: values).all id else (b :: values).any id := by
  induction values generalizing b with
  | nil => cases all <;> simp [joinedValue]
  | cons v values ih =>
    rw [joinedValue, List.foldl_cons]
    refine (ih _).trans ?_
    cases all
    · simp [Bool.or_assoc]
    · simp [Bool.and_assoc]

end Expr

/-! ## Statements -/

/-- The columns that rows are ordered by, and the access to those of a row. -/
inductive OrderTerm where
  | text (column : String) (nocase : Bool)
  | integer (column : String)
deriving DecidableEq, Repr

structure Columns (ρ : Type) where
  text : ρ → String → Option String
  integer : ρ → String → Option Nat

def OrderTerm.sql : OrderTerm → String
  | .text column nocase => column ++ if nocase then " COLLATE NOCASE" else ""
  | .integer column => column

/-- Texts are ordered by their code points, with `NOCASE` those of ASCII in lower case. -/
def collate (nocase : Bool) (s : String) : List Nat :=
  s.toList.map fun c => (if nocase then c.toLower else c).toNat

/-- Nulls come first. -/
def OrderTerm.compare {ρ : Type} (columns : Columns ρ) (r r' : ρ) : OrderTerm → Ordering
  | .text column nocase =>
    Ord.compare ((columns.text r column).map (collate nocase))
      ((columns.text r' column).map (collate nocase))
  | .integer column => Ord.compare (columns.integer r column) (columns.integer r' column)

/-- The first term that tells two rows apart decides. -/
def rowOrder {ρ : Type} (columns : Columns ρ) (terms : List OrderTerm) (r r' : ρ) : Ordering :=
  terms.foldr (fun term rest => (term.compare columns r r').then rest) .eq

/-- Rows that no term tells apart stay in the order they come in. -/
def sortRows {ρ : Type} (columns : Columns ρ) (terms : List OrderTerm) (rows : List ρ) : List ρ :=
  rows.mergeSort fun r r' => (rowOrder columns terms r r').isLE

section Order

variable {ρ : Type} (columns : Columns ρ) (terms : List OrderTerm) (rows : List ρ)

theorem transCmp_compare (term : OrderTerm) : Std.TransCmp fun r r' => term.compare columns r r' := by
  cases term with
  | text column nocase =>
    exact inferInstanceAs (Std.TransCmp (compareOn fun r => (columns.text r column).map (collate nocase)))
  | integer column => exact inferInstanceAs (Std.TransCmp (compareOn fun r => columns.integer r column))

theorem transCmp_rowOrder : Std.TransCmp (rowOrder columns terms) := by
  induction terms with
  | nil =>
    have horiented : Std.OrientedCmp (rowOrder columns []) := ⟨rfl⟩
    exact ⟨fun h _ => h⟩
  | cons term terms ih =>
    have hterm := transCmp_compare columns term
    exact inferInstanceAs (Std.TransCmp
      (compareLex (fun r r' => term.compare columns r r') (rowOrder columns terms)))

theorem perm_sortRows : (sortRows columns terms rows).Perm rows := List.mergeSort_perm _ _

theorem pairwise_sortRows :
    (sortRows columns terms rows).Pairwise fun r r' => rowOrder columns terms r r' ≠ .gt := by
  have hcmp := transCmp_rowOrder columns terms
  have htrans : ∀ r₁ r₂ r₃, (rowOrder columns terms r₁ r₂).isLE → (rowOrder columns terms r₂ r₃).isLE →
      (rowOrder columns terms r₁ r₃).isLE := fun _ _ _ => Std.TransCmp.isLE_trans
  have htotal : ∀ r r', ((rowOrder columns terms r r').isLE || (rowOrder columns terms r' r).isLE) = true := by
    intro r r'
    have hswap : rowOrder columns terms r' r = (rowOrder columns terms r r').swap := Std.OrientedCmp.eq_swap
    rw [hswap]
    cases rowOrder columns terms r r' <;> rfl
  refine (List.pairwise_mergeSort htrans htotal rows).imp ?_
  intro r r' h hgt
  rw [hgt] at h
  cases h

end Order

/-- `columns` as they are laid out in the text. -/
structure Select where
  columns : String
  table : String
  condition : Expr
  order : List OrderTerm
  limit : Option Nat

namespace Select

def limitText : Option Nat → String
  | some n => " LIMIT " ++ toString n
  | none => ""

def text (q : Select) : String :=
  "SELECT " ++ q.columns ++ "\n               FROM " ++ q.table ++ "\n               WHERE " ++
    q.condition.text ++ "\n               ORDER BY " ++ joinWith ", " (q.order.map OrderTerm.sql) ++
    limitText q.limit

/-- `result` is an answer: which of two rows that no term tells apart comes first is left open. -/
def Answers {ρ : Type} (columns : Columns ρ) (q : Select) (values : List String) (rows result : List ρ) :
    Prop :=
  ∃ sorted : List ρ,
    sorted.Perm (rows.filter fun r => (q.condition.eval (columns.text r) values).1 = some true) ∧
      sorted.Pairwise (fun r r' => rowOrder columns q.order r r' ≠ .gt) ∧
      result = q.limit.elim sorted fun n => sorted.take n

end Select

end Sql
