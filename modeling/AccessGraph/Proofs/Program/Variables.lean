import AccessGraph.Program.Variables
import Mathlib.Data.List.Dedup
import Mathlib.Data.List.Sort
/-!
# The variables of an expression, sorted

* `Var.before_trans`, `Var.before_total` : the order of variables is a strict total order.
* `Var.Increasing` : a list of variables is strictly increasing.
* `Expr.reads` : the variables that an expression reads, once for each time that it reads them.
* `Expr.collect_eq` : collecting puts these in place, one after the other.
* `Expr.vars_eq` : **the variables of an expression are those that it reads**, each once, in order.
-/

namespace AccessGraph

namespace Var

/-! ### The order of variables -/

theorem before_irrefl (v : Var) : v.before v = false := by
  simp [before]

theorem before_trans {u v w : Var} (h : u.before v = true) (h' : v.before w = true) :
    u.before w = true := by
  simp only [before, Bool.or_eq_true, Bool.and_eq_true, decide_eq_true_eq, beq_iff_eq] at h h' ⊢
  rcases h with h | ⟨hname, hid⟩
  · left
    rcases h' with h' | ⟨hname', -⟩
    · exact String.lt_trans h h'
    · exact hname' ▸ h
  · rcases h' with h' | ⟨hname', hid'⟩
    · exact .inl (hname ▸ h')
    · exact .inr ⟨hname.trans hname', UInt32.lt_trans hid hid'⟩

theorem before_asymm {v w : Var} (h : v.before w = true) : w.before v = false := by
  by_contra h'
  have := before_trans h (by simpa using h')
  rw [before_irrefl] at this
  contradiction

theorem before_total {v w : Var} (h : v ≠ w) : v.before w = true ∨ w.before v = true := by
  obtain ⟨name, id⟩ := v
  obtain ⟨name', id'⟩ := w
  simp only [before, Bool.or_eq_true, Bool.and_eq_true, decide_eq_true_eq, beq_iff_eq]
  by_cases hname : name = name'
  · subst hname
    have hid : id ≠ id' := fun hid => h (by rw [hid])
    rcases UInt32.lt_or_lt_of_ne hid with hid | hid
    · exact .inl (.inr ⟨rfl, hid⟩)
    · exact .inr (.inr ⟨rfl, hid⟩)
  · rcases String.le_total name name' with hle | hle
    · left
      left
      exact String.not_le.1 fun hle' => hname (String.le_antisymm hle hle')
    · right
      left
      exact String.not_le.1 fun hle' => hname (String.le_antisymm hle' hle)

/-- A variable does not come after another one. -/
def NotAfter (v w : Var) : Prop := w.before v = false

instance : DecidableRel NotAfter := fun v w => inferInstanceAs (Decidable (w.before v = false))

instance : Std.Total NotAfter where
  total v w := by
    unfold NotAfter
    cases h : w.before v with
    | true => exact .inr (before_asymm h)
    | false => exact .inl rfl

instance : IsTrans Var NotAfter where
  trans u v w h h' := by
    unfold NotAfter at h h' ⊢
    by_contra hlt
    have hlt : w.before u = true := by simpa using hlt
    -- `v` is neither before `u` nor after `w`, and these are the wrong way around
    by_cases heq : u = v
    · rw [heq, h'] at hlt
      contradiction
    · have huv := (before_total heq).resolve_right (by simp [h])
      rw [before_trans hlt huv] at h'
      contradiction

/-! ### Strictly increasing lists -/

/-- A list of variables is strictly increasing. -/
def Increasing (vs : List Var) : Prop := vs.Pairwise (·.before ·)

/-- The distinct variables of a list, in increasing order. -/
def sorted (vs : List Var) : List Var := vs.dedup.insertionSort NotAfter

theorem mem_insert {v w : Var} {vs : List Var} : w ∈ insert v vs ↔ w = v ∨ w ∈ vs := by
  induction vs with
  | nil => simp [insert]
  | cons u vs ih =>
    rw [insert]
    split
    · rename_i heq
      subst heq
      simp
    · split
      · simp
      · simp only [List.mem_cons, ih, or_left_comm]

theorem Increasing.insert {vs : List Var} (h : Increasing vs) (v : Var) :
    Increasing (v.insert vs) := by
  induction vs with
  | nil => simp [Var.insert, Increasing]
  | cons u vs ih =>
    obtain ⟨hfirst, hrest⟩ := List.pairwise_cons.1 h
    rw [Var.insert]
    split
    · exact h
    · rename_i hne
      split
      · rename_i hbefore
        refine List.pairwise_cons.2 ⟨fun w hw => ?_, h⟩
        rcases List.mem_cons.1 hw with rfl | hw
        · exact hbefore
        · exact before_trans hbefore (hfirst w hw)
      · rename_i hnot
        refine List.pairwise_cons.2 ⟨fun w hw => ?_, ih hrest⟩
        rcases mem_insert.1 hw with rfl | hw
        · exact (before_total hne).resolve_left hnot
        · exact hfirst w hw

theorem Increasing.nodup {vs : List Var} (h : Increasing vs) : vs.Nodup :=
  List.Pairwise.imp (fun {v w} hlt heq => by
    rw [heq, before_irrefl] at hlt
    contradiction) h

/-- An increasing list is determined by its members. -/
theorem Increasing.eq_of_mem_iff {vs ws : List Var} (h : Increasing vs) (h' : Increasing ws)
    (hmem : ∀ v, v ∈ vs ↔ v ∈ ws) : vs = ws := by
  have hperm : vs.Perm ws := (List.perm_ext_iff_of_nodup h.nodup h'.nodup).2 hmem
  refine hperm.eq_of_pairwise (fun v w _ _ hlt hlt' => ?_) h h'
  rw [before_asymm hlt] at hlt'
  contradiction

theorem mem_sorted {v : Var} {vs : List Var} : v ∈ sorted vs ↔ v ∈ vs := by
  rw [sorted, (List.perm_insertionSort _ _).mem_iff, List.mem_dedup]

theorem increasing_sorted (vs : List Var) : Increasing (sorted vs) := by
  have hpairwise : (sorted vs).Pairwise NotAfter := List.pairwise_insertionSort _ _
  have hnodup : (sorted vs).Nodup := (List.perm_insertionSort _ _).nodup_iff.2 (List.nodup_dedup vs)
  refine (hpairwise.and hnodup).imp fun {v w} h => ?_
  exact (before_total h.2).resolve_right (by simp [show w.before v = false from h.1])

end Var

namespace Expr

/-! ### Collecting -/

mutual

/-- The variables that an expression reads, in the order of its text. -/
def reads : Expr → List Var
  | .var v => [v]
  | .int _ => []
  | .float _ => []
  | .binary _ a b => reads a ++ reads b
  | .select c t f => reads c ++ reads t ++ reads f
  | .load _ index predicate => reads index ++ readsOption predicate
  | .call _ args => readsList args

/-- The variables that an expression reads, if there is one. -/
def readsOption : Option Expr → List Var
  | none => []
  | some e => reads e

/-- The variables that several expressions read. -/
def readsList : List Expr → List Var
  | [] => []
  | e :: es => reads e ++ readsList es

end

/-- Put variables in place in an increasing list, one after the other. -/
def insertAll (vs seen : List Var) : List Var := vs.foldl (fun seen v => v.insert seen) seen

theorem insertAll_append (vs ws seen : List Var) :
    insertAll (vs ++ ws) seen = insertAll ws (insertAll vs seen) :=
  List.foldl_append

mutual

/-- Collecting puts the variables in place one after the other. -/
theorem collect_eq : ∀ (e : Expr) (seen : List Var), e.collect seen = insertAll e.reads seen
  | .var _, _ => rfl
  | .int _, _ => rfl
  | .float _, _ => rfl
  | .binary _ a b, seen => by
    rw [collect, reads, insertAll_append, collect_eq a, collect_eq b]
  | .select c t f, seen => by
    rw [collect, reads, insertAll_append, insertAll_append, collect_eq c, collect_eq t,
      collect_eq f]
  | .load _ index predicate, seen => by
    rw [collect, reads, insertAll_append, collect_eq index, collectOption_eq predicate]
  | .call _ args, seen => by
    rw [collect, reads, collectList_eq args]

theorem collectOption_eq :
    ∀ (e : Option Expr) (seen : List Var), collectOption e seen = insertAll (readsOption e) seen
  | none, _ => rfl
  | some e, seen => by
    rw [collectOption, readsOption, collect_eq e]

theorem collectList_eq :
    ∀ (es : List Expr) (seen : List Var), collectList es seen = insertAll (readsList es) seen
  | [], _ => rfl
  | e :: es, seen => by
    rw [collectList, readsList, insertAll_append, collect_eq e, collectList_eq es]

end

theorem mem_insertAll {v : Var} {vs seen : List Var} :
    v ∈ insertAll vs seen ↔ v ∈ vs ∨ v ∈ seen := by
  induction vs generalizing seen with
  | nil => simp [insertAll]
  | cons w vs ih =>
    have hstep : insertAll (w :: vs) seen = insertAll vs (w.insert seen) := rfl
    rw [hstep, ih, Var.mem_insert, List.mem_cons]
    tauto

theorem increasing_insertAll {vs seen : List Var} (h : Var.Increasing seen) :
    Var.Increasing (insertAll vs seen) := by
  induction vs generalizing seen with
  | nil => exact h
  | cons v vs ih => exact ih (h.insert v)

/-- **The variables of an expression** are those that it reads, each once, in order. -/
theorem vars_eq (e : Expr) : e.vars = Var.sorted e.reads := by
  rw [vars, collect_eq]
  refine (increasing_insertAll .nil).eq_of_mem_iff (Var.increasing_sorted _) fun v => ?_
  rw [mem_insertAll, Var.mem_sorted]
  simp

end Expr

end AccessGraph
