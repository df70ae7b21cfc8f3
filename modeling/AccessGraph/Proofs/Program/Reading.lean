import AccessGraph.Proofs.Program.Variables
import AccessGraph.Proofs.Text.ByteOrder
import Mathlib.Data.Set.Insert
/-!
# The set of variables that an expression reads

Which variables are collected is a matter of the nodes of an expression alone, and the list of them
is determined by their set.

* `Var.Precedes` : the order of variables, by the bytes of their names and then by number.
* `Var.Lists` : a list holds the variables of a set in this order, each once.
* `Expr.NodeOf` : an expression stands at some place in another one.
* `Expr.varSet` : the variables that stand at some place in an expression.
* `Expr.lists_collect` : collecting adds these variables to a set.
* `Expr.vars_listed` : **the variables of an expression are its set of variables in order**, and
  expressions that have the same set have the same list.
-/

namespace AccessGraph

namespace Var

/-! ### Sets in order -/

/-- The order of variables: the bytes of the names decide, and among variables of one name the
numbers. -/
def Precedes (v w : Var) : Prop :=
  utf8Bytes v.name < utf8Bytes w.name ∨ v.name = w.name ∧ v.id < w.id

theorem precedes_iff_before {v w : Var} : Precedes v w ↔ v.before w = true := by
  simp [Precedes, before, Text.utf8Bytes_lt_iff]

theorem pairwise_precedes_iff {vs : List Var} : vs.Pairwise Precedes ↔ Increasing vs := by
  have h : Precedes = fun v w => v.before w = true := by
    funext v w
    exact propext precedes_iff_before
  rw [h, Increasing]

/-- A list holds the variables of a set, each of them once and in order. -/
structure Lists (vs : List Var) (S : Set Var) : Prop where
  /-- Each variable precedes all later ones. -/
  ordered : vs.Pairwise Precedes
  /-- The members of the list are those of the set. -/
  mem_iff : ∀ v, v ∈ vs ↔ v ∈ S

theorem lists_nil : Lists [] ∅ := ⟨.nil, by simp⟩

theorem lists_singleton (v : Var) : Lists [v] {v} := ⟨List.pairwise_singleton _ _, by simp⟩

theorem Lists.increasing {vs : List Var} {S : Set Var} (h : Lists vs S) : Increasing vs :=
  pairwise_precedes_iff.1 h.ordered

/-- There is one list for each set. -/
theorem Lists.unique {vs ws : List Var} {S : Set Var} (h : Lists vs S) (h' : Lists ws S) :
    vs = ws :=
  h.increasing.eq_of_mem_iff h'.increasing fun v => (h.mem_iff v).trans (h'.mem_iff v).symm

end Var

namespace Expr

/-! ### Nodes -/

/-- An expression is a node of another one: it is that expression, or a node of an operand, of a part
of a choice, of an argument, or of the index or the predicate of a load. The buffer of a load is
none. -/
inductive NodeOf (d : Expr) : Expr → Prop
  | self : NodeOf d d
  | left {op : Operator} {a b : Expr} : NodeOf d a → NodeOf d (.binary op a b)
  | right {op : Operator} {a b : Expr} : NodeOf d b → NodeOf d (.binary op a b)
  | condition {c t f : Expr} : NodeOf d c → NodeOf d (.select c t f)
  | whenTrue {c t f : Expr} : NodeOf d t → NodeOf d (.select c t f)
  | whenFalse {c t f : Expr} : NodeOf d f → NodeOf d (.select c t f)
  | index {buffer : Var} {i : Expr} {p : Option Expr} : NodeOf d i → NodeOf d (.load buffer i p)
  | predicate {buffer : Var} {i p : Expr} : NodeOf d p → NodeOf d (.load buffer i (some p))
  | argument {name : String} {args : List Expr} {arg : Expr} :
      arg ∈ args → NodeOf d arg → NodeOf d (.call name args)

/-- The variables that are nodes of an expression. -/
def varSet (e : Expr) : Set Var := {v | NodeOf (.var v) e}

theorem mem_readsList {v : Var} {es : List Expr} :
    v ∈ readsList es ↔ ∃ e ∈ es, v ∈ e.reads := by
  induction es with
  | nil => simp [readsList]
  | cons e es ih => simp [readsList, ih]

mutual

theorem nodeOf_of_mem_reads {v : Var} : ∀ e : Expr, v ∈ e.reads → NodeOf (.var v) e
  | .var w, h => by
    obtain rfl : v = w := by simpa [reads] using h
    exact .self
  | .int _, h => by simp [reads] at h
  | .float _, h => by simp [reads] at h
  | .binary _ a b, h => by
    rcases List.mem_append.1 h with h | h
    · exact .left (nodeOf_of_mem_reads a h)
    · exact .right (nodeOf_of_mem_reads b h)
  | .select c t f, h => by
    rcases List.mem_append.1 h with h | h
    · rcases List.mem_append.1 h with h | h
      · exact .condition (nodeOf_of_mem_reads c h)
      · exact .whenTrue (nodeOf_of_mem_reads t h)
    · exact .whenFalse (nodeOf_of_mem_reads f h)
  | .load _ i none, h => by
    rcases List.mem_append.1 h with h | h
    · exact .index (nodeOf_of_mem_reads i h)
    · simp [readsOption] at h
  | .load _ i (some p), h => by
    rcases List.mem_append.1 h with h | h
    · exact .index (nodeOf_of_mem_reads i h)
    · exact .predicate (nodeOf_of_mem_reads p h)
  | .call _ args, h => by
    obtain ⟨arg, harg, hnode⟩ := nodeOf_of_mem_readsList args h
    exact .argument harg hnode

theorem nodeOf_of_mem_readsList {v : Var} :
    ∀ es : List Expr, v ∈ readsList es → ∃ e ∈ es, NodeOf (.var v) e
  | [], h => by simp [readsList] at h
  | e :: es, h => by
    rcases List.mem_append.1 h with h | h
    · exact ⟨e, List.mem_cons_self, nodeOf_of_mem_reads e h⟩
    · obtain ⟨arg, harg, hnode⟩ := nodeOf_of_mem_readsList es h
      exact ⟨arg, List.mem_cons_of_mem e harg, hnode⟩

end

/-- **The variables that are read are those that are nodes.** -/
theorem mem_reads_iff {v : Var} {e : Expr} : v ∈ e.reads ↔ v ∈ e.varSet := by
  refine ⟨nodeOf_of_mem_reads e, fun h => ?_⟩
  induction h with
  | self => exact List.mem_singleton.2 rfl
  | left _ ih => exact List.mem_append_left _ ih
  | right _ ih => exact List.mem_append_right _ ih
  | condition _ ih => exact List.mem_append_left _ (List.mem_append_left _ ih)
  | whenTrue _ ih => exact List.mem_append_left _ (List.mem_append_right _ ih)
  | whenFalse _ ih => exact List.mem_append_right _ ih
  | index _ ih => exact List.mem_append_left _ ih
  | predicate _ ih => exact List.mem_append_right _ ih
  | argument harg _ ih => exact mem_readsList.2 ⟨_, harg, ih⟩

/-! ### Collecting -/

/-- **Collecting adds the variables of an expression to a set.** -/
theorem lists_collect (e : Expr) {seen : List Var} {S : Set Var} (h : Var.Lists seen S) :
    Var.Lists (e.collect seen) (S ∪ e.varSet) := by
  rw [collect_eq]
  refine ⟨Var.pairwise_precedes_iff.2 (increasing_insertAll h.increasing), fun v => ?_⟩
  rw [mem_insertAll, mem_reads_iff, h.mem_iff, Set.mem_union, or_comm]

theorem lists_vars (e : Expr) : Var.Lists e.vars e.varSet := by
  have h := lists_collect e Var.lists_nil
  rwa [Set.empty_union] at h

/-- **The variables of an expression are its set of variables in order**, each once. Collecting into
a list of a set adds them to the set. Where expressions have the same set of variables, whatever the
order, the depth and the number of the places where these stand, the lists are the same. -/
theorem vars_listed (e : Expr) :
    Var.Lists e.vars e.varSet ∧ e.vars.Nodup ∧
      (∀ seen S, Var.Lists seen S → Var.Lists (e.collect seen) (S ∪ e.varSet)) ∧
      ∀ d : Expr, d.varSet = e.varSet →
        d.vars = e.vars ∧ ∀ seen S, Var.Lists seen S → d.collect seen = e.collect seen := by
  refine ⟨lists_vars e, (lists_vars e).increasing.nodup, fun _ _ => lists_collect e,
    fun d hset => ⟨?_, fun seen S hseen => ?_⟩⟩
  · exact (lists_vars d).unique (hset ▸ lists_vars e)
  · exact (lists_collect d hseen).unique (hset ▸ lists_collect e hseen)

/-- A sum of two variables of one name and a third one, and a load whose buffer goes by the name of
no variable, with a predicate that loads from a buffer with the name of one. -/
def tangle : Expr :=
  .call "max" [
    .binary .add (.var ⟨"j", 2⟩) (.binary .mul (.var ⟨"é", 0⟩) (.var ⟨"j", 1⟩)),
    .load (.named "B") (.select (.named "Z") (.var ⟨"j", 2⟩) (.int 3))
      (some (.load (.named "Z") (.int 0) none))]

/-- The variables of `tangle` in another order and at other places. -/
def untangled : Expr :=
  .select (.var ⟨"j", 1⟩) (.binary .sub (.named "Z") (.named "Z"))
    (.call "min" [.var ⟨"é", 0⟩, .int 1, .var ⟨"j", 2⟩])

theorem vars_listed_tangle :
    Var.Lists [.named "k"] {.named "k"} ∧ untangled.varSet = tangle.varSet ∧
      tangle.vars = [⟨"Z", 0⟩, ⟨"j", 1⟩, ⟨"j", 2⟩, ⟨"é", 0⟩] ∧ tangle.vars.Nodup ∧
      Var.Lists (tangle.collect [.named "k"]) ({.named "k"} ∪ tangle.varSet) ∧
      untangled.vars = tangle.vars ∧
      untangled.collect [.named "k"] = tangle.collect [.named "k"] := by
  have hset : untangled.varSet = tangle.varSet := by
    ext v
    rw [← mem_reads_iff, ← mem_reads_iff]
    simp only [untangled, tangle, reads, readsOption, readsList, named, List.mem_append,
      List.mem_cons, List.not_mem_nil, or_false, false_or]
    tauto
  obtain ⟨-, hnodup, hcollect, hsame⟩ := vars_listed tangle
  have hseen := Var.lists_singleton (.named "k")
  obtain ⟨hvars, hcollected⟩ := hsame untangled hset
  exact ⟨hseen, hset, by decide, hnodup, hcollect _ _ hseen, hvars, hcollected _ _ hseen⟩

end Expr

end AccessGraph
