import Mathlib.Data.List.Basic

/-!
# Text.Terminated

The first element of a list with a property, and a field up to the first terminator.
-/

namespace Terminated

variable {α : Type} {P : α → Prop} {xs ys xs' ys' field rest : List α} {x x' stop : α}

/-- Two places in one list: one is before the other, or they are the same. -/
theorem append_cons_cases (h : xs ++ x :: ys = xs' ++ x' :: ys') : x ∈ xs' ∨ x' ∈ xs ∨ (xs = xs' ∧ x = x') := by
  rcases List.append_eq_append_iff.1 h with ⟨zs, rfl, hrest⟩ | ⟨zs, rfl, hrest⟩
  · cases zs with
    | nil => exact .inr (.inr ⟨(List.append_nil _).symm, (List.cons.inj hrest).1⟩)
    | cons z zs =>
      rw [(List.cons.inj hrest).1]
      exact .inl (List.mem_append_right _ List.mem_cons_self)
  · cases zs with
    | nil => exact .inr (.inr ⟨List.append_nil _, (List.cons.inj hrest).1.symm⟩)
    | cons z zs =>
      rw [(List.cons.inj hrest).1]
      exact .inr (.inl (List.mem_append_right _ List.mem_cons_self))

theorem first_unique (h : xs ++ x :: ys = xs' ++ x' :: ys') (hxs : ∀ y ∈ xs, ¬ P y) (hxs' : ∀ y ∈ xs', ¬ P y)
    (hx : P x) (hx' : P x') : xs = xs' ∧ x = x' := by
  rcases append_cons_cases h with hmem | hmem | hsame
  · exact absurd hx (hxs' x hmem)
  · exact absurd hx' (hxs x' hmem)
  · exact hsame

theorem exists_first (h : ∃ x ∈ xs, P x) : ∃ before x after, xs = before ++ x :: after ∧ (∀ y ∈ before, ¬ P y) ∧ P x := by
  induction xs with
  | nil =>
    obtain ⟨x, hx, -⟩ := h
    cases hx
  | cons first xs ih =>
    by_cases hfirst : P first
    · exact ⟨[], first, xs, rfl, fun y hy => absurd hy List.not_mem_nil, hfirst⟩
    · obtain ⟨x, hx, hP⟩ := h
      rcases List.mem_cons.1 hx with rfl | hx
      · exact absurd hP hfirst
      · obtain ⟨before, x, after, rfl, hbefore, hP⟩ := ih ⟨x, hx, hP⟩
        refine ⟨first :: before, x, after, rfl, ?_, hP⟩
        intro y hy
        rcases List.mem_cons.1 hy with rfl | hy
        · exact hfirst
        · exact hbefore y hy

/-! ## Fields -/

/-- There is one field. -/
theorem terminated_inj {field' rest' : List α} (h : stop ∉ field) (h' : stop ∉ field')
    (heq : field ++ stop :: rest = field' ++ stop :: rest') : field = field' ∧ rest = rest' := by
  obtain ⟨rfl, -⟩ := @first_unique α (fun x => x = stop) _ _ _ _ _ _ heq (fun y hy hstop => h (hstop ▸ hy))
    (fun y hy hstop => h' (hstop ▸ hy)) rfl rfl
  exact ⟨rfl, (List.cons.inj (List.append_cancel_left heq)).2⟩

variable [DecidableEq α]

theorem idxOf?_terminated (h : stop ∉ field) : (field ++ stop :: rest).idxOf? stop = some field.length := by
  induction field with
  | nil =>
    rw [List.nil_append, List.idxOf?_cons, if_pos (beq_self_eq_true stop)]
    rfl
  | cons x field ih =>
    obtain ⟨hx, hfield⟩ := List.ne_and_not_mem_of_not_mem_cons h
    have hbeq : ¬ (x == stop) = true := by
      intro heq
      exact hx (eq_of_beq heq).symm
    rw [List.cons_append, List.idxOf?_cons, if_neg hbeq, ih hfield]
    rfl

/-- Without a terminator there is no field. -/
theorem cases_terminated (stop : α) (xs : List α) :
    (stop ∉ xs ∧ xs.idxOf? stop = none) ∨
      ∃ field rest, xs = field ++ stop :: rest ∧ stop ∉ field ∧ xs.idxOf? stop = some field.length := by
  by_cases hmem : stop ∈ xs
  · obtain ⟨field, rest, rfl, hfield⟩ := List.eq_append_cons_of_mem hmem
    exact .inr ⟨field, rest, rfl, hfield, idxOf?_terminated hfield⟩
  · exact .inl ⟨hmem, List.idxOf?_eq_none_iff.2 hmem⟩

/-- Two fields with `x` between them are not the same fields behind something else: either the first terminator is
elsewhere, or there are more terminators. -/
theorem ne_shifted {skipped text ending : List α} {first : α} (hfield : stop ∉ field) (hrest : stop ∉ rest)
    (hending : stop ∈ ending) :
    skipped ++ first :: (field ++ stop :: x :: (text ++ ending)) ≠ field ++ stop :: x :: (rest ++ [stop]) := by
  intro heq
  by_cases hskipped : stop ∈ skipped ++ [first]
  · have hcount := congrArg (List.count stop) heq
    have hmore := List.count_pos_iff.2 hskipped
    have hmore' := List.count_pos_iff.2 hending
    simp only [List.count_append, List.count_cons, List.count_nil, List.count_eq_zero.2 hfield,
      List.count_eq_zero.2 hrest, beq_self_eq_true, if_true] at hcount hmore
    omega
  · have hfirst : stop ∉ skipped ++ [first] ++ field := by
      intro hmem
      rcases List.mem_append.1 hmem with h | h
      · exact hskipped h
      · exact hfield h
    have hshift : skipped ++ [first] ++ field ++ stop :: x :: (text ++ ending) =
        field ++ stop :: x :: (rest ++ [stop]) := by
      rw [← heq]
      simp
    obtain ⟨hlist, -⟩ := terminated_inj hfirst hfield hshift
    have hlength := congrArg List.length hlist
    simp only [List.length_append, List.length_cons, List.length_nil] at hlength
    omega

end Terminated
