import AccessGraph.Proofs.Extraction
/-!
# Programs in fewer words

Loops, stores, sequences and the evaluation of expressions are enough to write any program with the
same graph: a thread binding is a loop from zero on, and all other attributes, bindings and
conditionals are sequences of what they hold.

* `Stmt.inSequence` : statements one after the other, without sequences directly in sequences.
* `Stmt.Desugars` : a program is rewritten everywhere.
* `Stmt.isCore` : nothing is left to rewrite.
* `Stmt.Desugars.nodes_eq` : a statement keeps its nodes.
* `Stmt.desugar` : one way to rewrite a program.
* `Stmt.desugaring_extraction` : **a program can be rewritten, and is extracted to the same as
  before.**
-/

namespace AccessGraph

namespace Stmt

/-- The statements of a sequence; any other statement stands alone. -/
def items : Stmt → List Stmt
  | .sequence stmts => stmts
  | s => [s]

/-- Statements one after the other. Sequences among them are spliced in, and a statement that is
left alone is not put into a sequence. -/
def inSequence (ss : List Stmt) : Stmt :=
  match ss.flatMap items with
  | [s] => s
  | ss => .sequence ss

mutual

/-- A program is rewritten everywhere, from the inside out: thread bindings become loops, of
whatever kind, and other attributes, bindings and conditionals become sequences. -/
inductive Desugars : Stmt → Stmt → Prop
  | loop {v : Var} {min extent : Expr} {kind : LoopKind} {body body' : Stmt}
      (hbody : Desugars body body') :
      Desugars (.loop v min extent kind body) (.loop v min extent kind body')
  | thread {key tag : String} {v : Var} {value : Expr} {body body' : Stmt} (kind : LoopKind)
      (hkey : bindsThreads key = true) (hbody : Desugars body body') :
      Desugars (.attribute key (some v) tag value body) (.loop v (.int 0) value kind body')
  | plain {key tag : String} {iterVar : Option Var} {value : Expr} {body body' : Stmt}
      (hplain : opensLoop key iterVar = false) (hbody : Desugars body body') :
      Desugars (.attribute key iterVar tag value body) (inSequence [.evaluate value, body'])
  | store {buffer : Var} {value index : Expr} {predicate : Option Expr} :
      Desugars (.store buffer value index predicate) (.store buffer value index predicate)
  | binding {x : Var} {value : Expr} {body body' : Stmt} (hbody : Desugars body body') :
      Desugars (.binding x value body) (inSequence [.evaluate value, body'])
  | conditional {condition : Expr} {thenCase thenCase' : Stmt} {elseCase : Option Stmt}
      {elseCase' : List Stmt} (hthen : Desugars thenCase thenCase')
      (helse : DesugarsList elseCase.toList elseCase') :
      Desugars (.conditional condition thenCase elseCase)
        (inSequence (.evaluate condition :: thenCase' :: elseCase'))
  | sequence {ss ss' : List Stmt} (hs : DesugarsList ss ss') :
      Desugars (.sequence ss) (inSequence ss')
  | evaluate {value : Expr} : Desugars (.evaluate value) (.evaluate value)

/-- The statements of a list are rewritten, one by one. -/
inductive DesugarsList : List Stmt → List Stmt → Prop
  | nil : DesugarsList [] []
  | cons {s s' : Stmt} {ss ss' : List Stmt} (h : Desugars s s') (hs : DesugarsList ss ss') :
      DesugarsList (s :: ss) (s' :: ss')

end

/-! ### Nodes -/

theorem nodes_items (inLoop : Bool) (s : Stmt) : nodesList inLoop s.items = s.nodes inLoop := by
  cases s with
  | sequence stmts => rw [items, nodes]
  | _ => exact List.append_nil _

/-- A sequence has the nodes of its statements, however it is written. -/
theorem nodes_inSequence (inLoop : Bool) (ss : List Stmt) :
    (inSequence ss).nodes inLoop = nodesList inLoop ss := by
  have hspliced : nodesList inLoop (ss.flatMap items) = nodesList inLoop ss := by
    induction ss with
    | nil => rfl
    | cons s ss ih => rw [List.flatMap_cons, nodesList_append, nodes_items, ih, nodesList]
  rw [inSequence, ← hspliced]
  split
  · rename_i s hs
    rw [hs, nodesList, nodesList, List.append_nil]
  · rw [nodes]

mutual

/-- **A statement that is rewritten keeps its nodes**, inside and outside of loops. -/
theorem Desugars.nodes_eq (inLoop : Bool) :
    ∀ {s d : Stmt}, Desugars s d → s.nodes inLoop = d.nodes inLoop
  | _, _, .loop hbody => by
    rw [nodes, nodes, hbody.nodes_eq true]
  | _, _, .thread _ hkey hbody => by
    rw [nodes_attribute_thread hkey, nodes, hbody.nodes_eq true]
    -- the lower bound that is added accesses nothing
    rfl
  | _, _, .plain hplain hbody => by
    rw [nodes_attribute_plain hplain, nodes_inSequence, hbody.nodes_eq inLoop]
    simp [nodesList, nodes]
  | _, _, .store => rfl
  | _, _, .binding hbody => by
    rw [nodes, nodes_inSequence, hbody.nodes_eq inLoop]
    simp [nodesList, nodes]
  | _, _, .conditional hthen helse => by
    rw [nodes, nodes_inSequence, hthen.nodes_eq inLoop, nodesOption_eq_nodesList,
      helse.nodes_eq inLoop, nodesList, nodesList, nodes, List.append_assoc]
  | _, _, .sequence hs => by
    rw [nodes, nodes_inSequence, hs.nodes_eq inLoop]
  | _, _, .evaluate => rfl

theorem DesugarsList.nodes_eq (inLoop : Bool) :
    ∀ {ss ds : List Stmt}, DesugarsList ss ds → nodesList inLoop ss = nodesList inLoop ds
  | _, _, .nil => rfl
  | _, _, .cons h hs => by
    rw [nodesList, nodesList, h.nodes_eq inLoop, hs.nodes_eq inLoop]

end

/-! ### What is left -/

/-- The statement is a sequence. -/
def isSequence : Stmt → Bool
  | .sequence _ => true
  | _ => false

mutual

/-- A statement is made of loops, stores, evaluated expressions and sequences. No sequence stands
directly inside of another one, and none holds a single statement. -/
def isCore : Stmt → Bool
  | .loop _ _ _ _ body => isCore body
  | .attribute _ _ _ _ _ => false
  | .store _ _ _ _ => true
  | .binding _ _ _ => false
  | .conditional _ _ _ => false
  | .sequence stmts => stmts.length != 1 && areCore stmts
  | .evaluate _ => true

/-- Several statements may stand in such a sequence. -/
def areCore : List Stmt → Bool
  | [] => true
  | s :: ss => !isSequence s && isCore s && areCore ss

end

theorem areCore_iff {ss : List Stmt} :
    areCore ss = true ↔ ∀ s ∈ ss, s.isSequence = false ∧ s.isCore = true := by
  induction ss with
  | nil => simp [areCore]
  | cons s ss ih => simp [areCore, ih, and_assoc]

theorem areCore_items {s : Stmt} (h : s.isCore = true) : areCore s.items = true := by
  cases s <;> simp_all [items, areCore, isCore, isSequence]

theorem isCore_inSequence {ss : List Stmt} (h : ∀ s ∈ ss, s.isCore = true) :
    (inSequence ss).isCore = true := by
  have hspliced : areCore (ss.flatMap items) = true := by
    -- what is spliced in stands in a sequence that is core already
    rw [areCore_iff]
    intro t ht
    obtain ⟨s, hs, ht⟩ := List.mem_flatMap.1 ht
    exact areCore_iff.1 (areCore_items (h s hs)) t ht
  rw [inSequence]
  split
  · rename_i s hs
    rw [hs, areCore_iff] at hspliced
    exact (hspliced s List.mem_cons_self).2
  · rename_i hmany
    have hlength : (ss.flatMap items).length ≠ 1 := by
      intro hone
      obtain ⟨s, hs⟩ := List.length_eq_one_iff.1 hone
      exact hmany s hs
    rw [isCore, hspliced, Bool.and_true, bne_iff_ne]
    exact hlength

mutual

/-- **After a program is rewritten, nothing is left to rewrite.** -/
theorem Desugars.isCore : ∀ {s d : Stmt}, Desugars s d → d.isCore = true
  | _, _, .loop hbody => hbody.isCore
  | _, _, .thread _ _ hbody => hbody.isCore
  | _, _, .plain _ hbody =>
    isCore_inSequence (by simpa [Stmt.isCore] using hbody.isCore)
  | _, _, .store => rfl
  | _, _, .binding hbody =>
    isCore_inSequence (by simpa [Stmt.isCore] using hbody.isCore)
  | _, _, .conditional hthen helse =>
    isCore_inSequence (by simpa [Stmt.isCore] using ⟨hthen.isCore, helse.isCore⟩)
  | _, _, .sequence hs => isCore_inSequence hs.isCore
  | _, _, .evaluate => rfl

theorem DesugarsList.isCore :
    ∀ {ss ds : List Stmt}, DesugarsList ss ds → ∀ d ∈ ds, d.isCore = true
  | _, _, .nil => nofun
  | _, _, .cons h hs => List.forall_mem_cons.2 ⟨h.isCore, hs.isCore⟩

end

/-! ### A way to rewrite -/

mutual

/-- Rewrite a program everywhere, with all thread bindings as loops of one kind. -/
def desugar (kind : LoopKind) : Stmt → Stmt
  | .loop v min extent own body => .loop v min extent own (desugar kind body)
  | .attribute key iterVar _ value body =>
    match iterVar, bindsThreads key with
    | some v, true => .loop v (.int 0) value kind (desugar kind body)
    | _, _ => inSequence [.evaluate value, desugar kind body]
  | .store buffer value index predicate => .store buffer value index predicate
  | .binding _ value body => inSequence [.evaluate value, desugar kind body]
  | .conditional condition thenCase elseCase =>
    inSequence (.evaluate condition :: desugar kind thenCase :: desugarOption kind elseCase)
  | .sequence stmts => inSequence (desugarList kind stmts)
  | .evaluate value => .evaluate value

/-- Rewrite a statement that may be absent. -/
def desugarOption (kind : LoopKind) : Option Stmt → List Stmt
  | none => []
  | some s => [desugar kind s]

/-- Rewrite several statements. -/
def desugarList (kind : LoopKind) : List Stmt → List Stmt
  | [] => []
  | s :: ss => desugar kind s :: desugarList kind ss

end

mutual

/-- Every program can be rewritten, with thread bindings as loops of any kind. -/
theorem desugars_desugar (kind : LoopKind) : ∀ s : Stmt, s.Desugars (s.desugar kind)
  | .loop _ _ _ _ body => .loop (desugars_desugar kind body)
  | .attribute key iterVar _ _ body => by
    have hbody := desugars_desugar kind body
    cases iterVar with
    | none => exact .plain (Bool.and_false _) hbody
    | some v =>
      cases hkey : bindsThreads key with
      | false =>
        simp only [desugar, hkey]
        exact .plain (by simp [opensLoop, hkey]) hbody
      | true =>
        simp only [desugar, hkey]
        exact .thread kind hkey hbody
  | .store _ _ _ _ => .store
  | .binding _ _ body => .binding (desugars_desugar kind body)
  | .conditional _ thenCase elseCase =>
    .conditional (desugars_desugar kind thenCase) (desugars_desugarOption kind elseCase)
  | .sequence stmts => .sequence (desugars_desugarList kind stmts)
  | .evaluate _ => .evaluate

theorem desugars_desugarOption (kind : LoopKind) :
    ∀ s : Option Stmt, DesugarsList s.toList (desugarOption kind s)
  | none => .nil
  | some s => .cons (desugars_desugar kind s) .nil

theorem desugars_desugarList (kind : LoopKind) :
    ∀ ss : List Stmt, DesugarsList ss (desugarList kind ss)
  | [] => .nil
  | s :: ss => .cons (desugars_desugar kind s) (desugars_desugarList kind ss)

end

/-- **A program can be rewritten, and is extracted to the same as before.** Whatever kinds of loops
the thread bindings become, nothing is left to rewrite, and the tree, the table, the layout, the
buffer and the outline of the program stay the same, or it fails in the same way. -/
theorem desugaring_extraction (s : Stmt) :
    (∀ kind, s.Desugars (s.desugar kind)) ∧ ∀ d, s.Desugars d → d.isCore = true ∧
      s.tree? = d.tree? ∧ s.extract = d.extract ∧
      ∀ room, s.extractInto room = d.extractInto room := by
  refine ⟨fun kind => desugars_desugar kind s, fun d hd => ⟨hd.isCore, ?_⟩⟩
  exact extract_eq_of_nodes_eq fun inLoop => hd.nodes_eq inLoop

/-- A guarded store over threads, in two sequences that hold one statement each. -/
def guarded : Stmt :=
  .sequence [.sequence [
    .attribute "thread_extent" (some (.named "t")) "threadIdx.x" (.int 4) <|
      .binding (.named "n") (.loadFrom "length" (.named "t")) <|
        .conditional (.binary .lt (.named "t") (.named "n"))
          (.storeTo "out" (.named "t") (.int 1))
          (some (.attribute "pragma_unroll" (some (.named "t")) "" (.int 2) .empty))]]

/-- The same store in a parallel loop. -/
def unguarded : Stmt :=
  .loop (.named "t") (.int 0) (.int 4) .parallel <| .sequence [
    .evaluate (.loadFrom "length" (.named "t")),
    .evaluate (.binary .lt (.named "t") (.named "n")),
    .storeTo "out" (.named "t") (.int 1),
    .evaluate (.int 2)]

theorem desugaring_extraction_guarded :
    guarded.Desugars unguarded ∧ unguarded.isCore = true ∧
      ∃ x, guarded.extract = .ok x ∧ unguarded.extract = .ok x ∧
        x.table.labels = ["t", "t", "length", "t", "out", "for", "root"] := by
  have hsize : Layout.size (Table.ofTree guarded.graph) < Word.limit := by
    rw [Table.ofTree_eq]
    decide
  obtain ⟨x, hx, htable, -⟩ := extract_eq_ok hsize
  have hdesugars : guarded.Desugars unguarded := desugars_desugar .parallel guarded
  obtain ⟨hcore, -, hextract, -⟩ := (desugaring_extraction guarded).2 unguarded hdesugars
  refine ⟨hdesugars, hcore, x, hx, hextract ▸ hx, ?_⟩
  rw [htable, Table.ofTree_eq]
  decide

end Stmt

end AccessGraph
