import Mathlib.Data.List.Forall2
/-!
# Computations that may fail

* `bind_eq_ok_iff`, `bind_eq_error_iff` : what is known of the steps of a computation.
* `mapError_eq_ok_iff`, `mapError_eq_error_iff` : another wording of a failure changes nothing else.
* `forall₂_of_mapM_eq_ok`, `mapM_eq_ok_of_forall₂` : what is known of a computation on each member of a
  list.
* `of_foldlM_eq_ok` : what each step over a list keeps holds in the end.
-/

namespace AccessGraph

variable {ε α β : Type}

/-- The steps of a computation that does not fail do not fail. -/
theorem bind_eq_ok_iff {x : Except ε α} {f : α → Except ε β} {b : β} :
    (x >>= f) = .ok b ↔ ∃ a, x = .ok a ∧ f a = .ok b := by
  cases x with
  | error e => simp [bind, Except.bind]
  | ok a => simp [bind, Except.bind]

/-- A computation fails at its first step that does. -/
theorem bind_eq_error_iff {x : Except ε α} {f : α → Except ε β} {e : ε} :
    (x >>= f) = .error e ↔ x = .error e ∨ ∃ a, x = .ok a ∧ f a = .error e := by
  cases x with
  | error e => simp [bind, Except.bind]
  | ok a => simp [bind, Except.bind]

/-- A computation whose failures are worded differently succeeds as before. -/
theorem mapError_eq_ok_iff {ε' : Type} {f : ε → ε'} {x : Except ε α} {a : α} :
    x.mapError f = .ok a ↔ x = .ok a := by
  cases x <;> simp [Except.mapError]

/-- A computation whose failures are worded differently fails as before. -/
theorem mapError_eq_error_iff {ε' : Type} {f : ε → ε'} {x : Except ε α} {e' : ε'} :
    x.mapError f = .error e' ↔ ∃ e, x = .error e ∧ f e = e' := by
  cases x <;> simp [Except.mapError]

/-- Each member of a list has its result. -/
theorem forall₂_of_mapM_eq_ok {f : α → Except ε β} {xs : List α} {ys : List β}
    (h : xs.mapM f = .ok ys) : List.Forall₂ (fun x y => f x = .ok y) xs ys := by
  induction xs generalizing ys with
  | nil =>
    cases h
    exact .nil
  | cons x xs ih =>
    rw [List.mapM_cons] at h
    obtain ⟨y, hfirst, h⟩ := bind_eq_ok_iff.1 h
    obtain ⟨ys, hrest, h⟩ := bind_eq_ok_iff.1 h
    cases h
    exact .cons hfirst (ih hrest)

/-- The members of a list may be replaced by others with the same results. -/
theorem mapM_eq_ok_of_forall₂ {f : α → Except ε β} {xs xs' : List α} {ys : List β}
    (hxs : List.Forall₂ (fun x x' => ∀ y, f x = .ok y → f x' = .ok y) xs xs')
    (h : xs.mapM f = .ok ys) : xs'.mapM f = .ok ys := by
  induction hxs generalizing ys with
  | nil => exact h
  | cons hx _ ih =>
    rw [List.mapM_cons] at h ⊢
    obtain ⟨y, hfirst, h⟩ := bind_eq_ok_iff.1 h
    obtain ⟨ys, hrest, h⟩ := bind_eq_ok_iff.1 h
    exact bind_eq_ok_iff.2 ⟨y, hx y hfirst, bind_eq_ok_iff.2 ⟨ys, ih hrest, h⟩⟩

/-- What each step over a list keeps holds in the end. -/
theorem of_foldlM_eq_ok {P : β → Prop} {f : β → α → Except ε β} {xs : List α}
    (hstep : ∀ x ∈ xs, ∀ b b', P b → f b x = .ok b' → P b') {b b' : β} (hb : P b)
    (h : xs.foldlM f b = .ok b') : P b' := by
  induction xs generalizing b with
  | nil =>
    cases h
    exact hb
  | cons x xs ih =>
    rw [List.foldlM_cons] at h
    obtain ⟨c, hfirst, hrest⟩ := bind_eq_ok_iff.1 h
    refine ih (fun y hy => hstep y (List.mem_cons_of_mem x hy)) ?_ hrest
    exact hstep x List.mem_cons_self b c hb hfirst

end AccessGraph
