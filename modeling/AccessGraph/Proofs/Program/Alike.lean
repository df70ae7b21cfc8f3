import AccessGraph.Proofs.Extraction
/-!
# What the graph of a program depends on

The nodes of a program show its nesting, the names of loop variables and of buffers, and the
variables of indices. They do not show literals, operators, the kinds of loops, or the numbers that
tell apart loop variables or buffers of one name.

* `Expr.Alike`, `Stmt.Alike` : two expressions or programs differ only in what nodes do not show.
* `Expr.Alike.reads_eq` : alike expressions read the same variables.
* `Stmt.Alike.nodes_eq` : alike statements have the same nodes.
* `Stmt.Alike.extraction_eq` : **alike programs are extracted to the same, byte by byte.**
-/

namespace AccessGraph

namespace Expr

/-- A literal, of whatever type. -/
def isLiteral : Expr → Bool
  | .int _ => true
  | .float _ => true
  | _ => false

mutual

/-- Two expressions are alike if they differ at most in their literals, in their operators, in the
names of the functions that they call and in the numbers of their buffers. -/
inductive Alike : Expr → Expr → Prop
  /-- A variable keeps its name and its number. -/
  | var (v : Var) : Alike (.var v) (.var v)
  /-- Any literal may stand for any other. -/
  | literal {x y : Expr} (hx : x.isLiteral = true) (hy : y.isLiteral = true) : Alike x y
  | binary {op op' : Operator} {a b a' b' : Expr} (ha : Alike a a') (hb : Alike b b') :
      Alike (.binary op a b) (.binary op' a' b')
  | select {c t f c' t' f' : Expr} (hc : Alike c c') (ht : Alike t t') (hf : Alike f f') :
      Alike (.select c t f) (.select c' t' f')
  | load {buffer buffer' : Var} {index index' : Expr} {predicate predicate' : Option Expr}
      (hbuffer : buffer.name = buffer'.name) (hindex : Alike index index')
      (hpredicate : AlikeOption predicate predicate') :
      Alike (.load buffer index predicate) (.load buffer' index' predicate')
  | call {name name' : String} {args args' : List Expr} (hargs : AlikeList args args') :
      Alike (.call name args) (.call name' args')

/-- Two expressions that may be absent are alike. -/
inductive AlikeOption : Option Expr → Option Expr → Prop
  | none : AlikeOption none none
  | some {x y : Expr} (h : Alike x y) : AlikeOption (some x) (some y)

/-- The expressions of two lists are alike, one by one. -/
inductive AlikeList : List Expr → List Expr → Prop
  | nil : AlikeList [] []
  | cons {x y : Expr} {xs ys : List Expr} (h : Alike x y) (hs : AlikeList xs ys) :
      AlikeList (x :: xs) (y :: ys)

end

mutual

/-- Alike expressions read the same variables. -/
theorem Alike.reads_eq : ∀ {x y : Expr}, Alike x y → x.reads = y.reads
  | _, _, .var _ => rfl
  | x, y, .literal hx hy => by
    cases x <;> cases y <;> simp_all [isLiteral, reads]
  | _, _, .binary ha hb => by
    rw [reads, reads, ha.reads_eq, hb.reads_eq]
  | _, _, .select hc ht hf => by
    rw [reads, reads, hc.reads_eq, ht.reads_eq, hf.reads_eq]
  | _, _, .load _ hindex hpredicate => by
    rw [reads, reads, hindex.reads_eq, hpredicate.reads_eq]
  | _, _, .call hargs => by
    rw [reads, reads, hargs.reads_eq]

theorem AlikeOption.reads_eq :
    ∀ {x y : Option Expr}, AlikeOption x y → readsOption x = readsOption y
  | _, _, .none => rfl
  | _, _, .some h => by
    rw [readsOption, readsOption, h.reads_eq]

theorem AlikeList.reads_eq :
    ∀ {xs ys : List Expr}, AlikeList xs ys → readsList xs = readsList ys
  | _, _, .nil => rfl
  | _, _, .cons h hs => by
    rw [readsList, readsList, h.reads_eq, hs.reads_eq]

end

/-- The node of an access depends on the name of the buffer and on what the index reads. -/
theorem Alike.access_eq {buffer buffer' : Var} {index index' : Expr}
    (hbuffer : buffer.name = buffer'.name) (hindex : Alike index index') :
    Tree.access buffer index = Tree.access buffer' index' := by
  rw [Tree.access, Tree.access, hbuffer, hindex.reads_eq]

mutual

/-- Alike expressions have the same nodes. -/
theorem Alike.accesses_eq : ∀ {x y : Expr}, Alike x y → x.accesses = y.accesses
  | _, _, .var _ => rfl
  | x, y, .literal hx hy => by
    cases x <;> cases y <;> simp_all [isLiteral, accesses]
  | _, _, .binary ha hb => by
    rw [accesses, accesses, ha.accesses_eq, hb.accesses_eq]
  | _, _, .select hc ht hf => by
    rw [accesses, accesses, hc.accesses_eq, ht.accesses_eq, hf.accesses_eq]
  | _, _, .load hbuffer hindex hpredicate => by
    rw [accesses, accesses, hindex.access_eq hbuffer, hindex.accesses_eq, hpredicate.accesses_eq]
  | _, _, .call hargs => by
    rw [accesses, accesses, hargs.accesses_eq]

theorem AlikeOption.accesses_eq :
    ∀ {x y : Option Expr}, AlikeOption x y → accessesOption x = accessesOption y
  | _, _, .none => rfl
  | _, _, .some h => by
    rw [accessesOption, accessesOption, h.accesses_eq]

theorem AlikeList.accesses_eq :
    ∀ {xs ys : List Expr}, AlikeList xs ys → accessesList xs = accessesList ys
  | _, _, .nil => rfl
  | _, _, .cons h hs => by
    rw [accessesList, accessesList, h.accesses_eq, hs.accesses_eq]

end

end Expr

namespace Stmt

mutual

/-- Two programs are alike if they differ at most in their expressions as far as these are alike, in
the kinds of their loops, in their thread tags, in which key binds threads, in the keys and
variables of attributes that bind none, in the variables that stand for values, and in the numbers
of the variables of loops and of buffers. -/
inductive Alike : Stmt → Stmt → Prop
  | loop {v v' : Var} {min extent min' extent' : Expr} {kind kind' : LoopKind} {body body' : Stmt}
      (hv : v.name = v'.name) (hmin : min.Alike min') (hextent : extent.Alike extent')
      (hbody : Alike body body') :
      Alike (.loop v min extent kind body) (.loop v' min' extent' kind' body')
  /-- Two attributes that both bind threads. -/
  | thread {key key' tag tag' : String} {v v' : Var} {value value' : Expr} {body body' : Stmt}
      (hkey : bindsThreads key = true) (hkey' : bindsThreads key' = true)
      (hv : v.name = v'.name) (hvalue : value.Alike value') (hbody : Alike body body') :
      Alike (.attribute key (some v) tag value body) (.attribute key' (some v') tag' value' body')
  /-- Two attributes that both bind no threads. -/
  | plain {key key' tag tag' : String} {iterVar iterVar' : Option Var} {value value' : Expr}
      {body body' : Stmt} (hplain : opensLoop key iterVar = false)
      (hplain' : opensLoop key' iterVar' = false) (hvalue : value.Alike value')
      (hbody : Alike body body') :
      Alike (.attribute key iterVar tag value body) (.attribute key' iterVar' tag' value' body')
  | store {buffer buffer' : Var} {value index value' index' : Expr}
      {predicate predicate' : Option Expr} (hbuffer : buffer.name = buffer'.name)
      (hvalue : value.Alike value') (hindex : index.Alike index')
      (hpredicate : Expr.AlikeOption predicate predicate') :
      Alike (.store buffer value index predicate) (.store buffer' value' index' predicate')
  | binding {x x' : Var} {value value' : Expr} {body body' : Stmt} (hvalue : value.Alike value')
      (hbody : Alike body body') : Alike (.binding x value body) (.binding x' value' body')
  | conditional {condition condition' : Expr} {thenCase thenCase' : Stmt}
      {elseCase elseCase' : Option Stmt} (hcondition : condition.Alike condition')
      (hthen : Alike thenCase thenCase') (helse : AlikeOption elseCase elseCase') :
      Alike (.conditional condition thenCase elseCase) (.conditional condition' thenCase' elseCase')
  | sequence {ss ss' : List Stmt} (hs : AlikeList ss ss') : Alike (.sequence ss) (.sequence ss')
  | evaluate {value value' : Expr} (hvalue : value.Alike value') :
      Alike (.evaluate value) (.evaluate value')

/-- Two statements that may be absent are alike. -/
inductive AlikeOption : Option Stmt → Option Stmt → Prop
  | none : AlikeOption none none
  | some {s s' : Stmt} (h : Alike s s') : AlikeOption (some s) (some s')

/-- The statements of two lists are alike, one by one. -/
inductive AlikeList : List Stmt → List Stmt → Prop
  | nil : AlikeList [] []
  | cons {s s' : Stmt} {ss ss' : List Stmt} (h : Alike s s') (hs : AlikeList ss ss') :
      AlikeList (s :: ss) (s' :: ss')

end

/-- The node of a loop depends on the name of its variable and on what hangs below it. -/
theorem loopNode_eq {v v' : Var} (hv : v.name = v'.name) (nodes : List Tree) :
    loopNode v nodes = loopNode v' nodes := by
  rw [loopNode, loopNode, hv]

mutual

/-- **Alike statements have the same nodes**, inside and outside of loops. -/
theorem Alike.nodes_eq (inLoop : Bool) :
    ∀ {s s' : Stmt}, Alike s s' → s.nodes inLoop = s'.nodes inLoop
  | _, _, .loop hv hmin hextent hbody => by
    rw [nodes, nodes, loopNode_eq hv, hmin.accesses_eq, hextent.accesses_eq, hbody.nodes_eq true]
  | _, _, .thread hkey hkey' hv hvalue hbody => by
    rw [nodes_attribute_thread hkey, nodes_attribute_thread hkey', loopNode_eq hv,
      hvalue.accesses_eq, hbody.nodes_eq true]
  | _, _, .plain hplain hplain' hvalue hbody => by
    rw [nodes_attribute_plain hplain, nodes_attribute_plain hplain', hvalue.accesses_eq,
      hbody.nodes_eq inLoop]
  | _, _, .store hbuffer hvalue hindex hpredicate => by
    rw [nodes, nodes, hindex.access_eq hbuffer, hvalue.accesses_eq, hindex.accesses_eq,
      hpredicate.accesses_eq]
  | _, _, .binding hvalue hbody => by
    rw [nodes, nodes, hvalue.accesses_eq, hbody.nodes_eq inLoop]
  | _, _, .conditional hcondition hthen helse => by
    rw [nodes, nodes, hcondition.accesses_eq, hthen.nodes_eq inLoop, helse.nodes_eq inLoop]
  | _, _, .sequence hs => by
    rw [nodes, nodes, hs.nodes_eq inLoop]
  | _, _, .evaluate hvalue => by
    rw [nodes, nodes, hvalue.accesses_eq]

theorem AlikeOption.nodes_eq (inLoop : Bool) :
    ∀ {s s' : Option Stmt}, AlikeOption s s' → nodesOption inLoop s = nodesOption inLoop s'
  | _, _, .none => rfl
  | _, _, .some h => by
    rw [nodesOption, nodesOption, h.nodes_eq inLoop]

theorem AlikeList.nodes_eq (inLoop : Bool) :
    ∀ {ss ss' : List Stmt}, AlikeList ss ss' → nodesList inLoop ss = nodesList inLoop ss'
  | _, _, .nil => rfl
  | _, _, .cons h hs => by
    rw [nodesList, nodesList, h.nodes_eq inLoop, hs.nodes_eq inLoop]

end

/-- **The graph of a program depends on its structure and on names only.** Alike programs have the
same tree, and are extracted to the same table, layout and buffer, with the same outline, or fail
in the same way. -/
theorem Alike.extraction_eq {s s' : Stmt} (h : s.Alike s') :
    s.tree? = s'.tree? ∧ s.extract = s'.extract ∧
      ∀ room, s.extractInto room = s'.extractInto room :=
  extract_eq_of_nodes_eq fun inLoop => h.nodes_eq inLoop

/-- A kernel over threads, with a guard, a local value and an indirect access. -/
def scaled : Stmt :=
  .attribute "thread_extent" (some (.named "t")) "threadIdx.x" (.int 4) <|
    .attribute "pragma_unroll" none "" (.int 1) <|
      .loop (.named "i") (.int 0) (.loadFrom "length" (.named "t")) .serial <|
        .binding (.named "scale") (.float 0.5) <|
          .conditional (.binary .lt (.named "i") (.int 8))
            (.store (.named "out") (.call "exp" [.named "scale"])
              (.binary .add (.named "i") (.loadFrom "index" (.named "t"))) none)
            none

/-- The same kernel over virtual threads, vectorized, with other literals, operators and numbers. -/
def rescaled : Stmt :=
  .attribute "virtual_thread" (some ⟨"t", 7⟩) "vthread" (.float 2.5) <|
    .attribute "thread_extent" none "blockIdx.x" (.int 0) <|
      .loop ⟨"i", 3⟩ (.int 1) (.load ⟨"length", 5⟩ (.named "t") none) .vectorized <|
        .binding ⟨"factor", 1⟩ (.int 2) <|
          .conditional (.binary .ge (.named "i") (.float 0.25))
            (.store ⟨"out", 9⟩ (.call "log" [.named "scale"])
              (.binary .mul (.named "i") (.load ⟨"index", 4⟩ (.named "t") none)) none)
            none

theorem scaled_alike_rescaled : scaled.Alike rescaled := by
  have hindex : (Expr.loadFrom "index" (.named "t")).Alike (.load ⟨"index", 4⟩ (.named "t") none) :=
    .load rfl (.var _) .none
  refine .thread rfl rfl rfl (.literal rfl rfl) (.plain rfl rfl (.literal rfl rfl) ?_)
  refine .loop rfl (.literal rfl rfl) (.load rfl (.var _) .none) (.binding (.literal rfl rfl) ?_)
  refine .conditional (.binary (.var _) (.literal rfl rfl)) ?_ .none
  exact .store rfl (.call (.cons (.var _) .nil)) (.binary (.var _) hindex) .none

theorem Alike.extraction_eq_rescaled :
    scaled.Alike rescaled ∧ ∃ x, scaled.extract = .ok x ∧ rescaled.extract = .ok x ∧
      x.table.labels =
        ["t", "i", "t", "length", "i", "t", "out", "t", "index", "for", "for", "root"] := by
  have hsize : Layout.size (Table.ofTree scaled.graph) < Word.limit := by
    rw [Table.ofTree_eq]
    decide
  obtain ⟨x, hx, htable, -⟩ := extract_eq_ok hsize
  refine ⟨scaled_alike_rescaled, x, hx, ?_, ?_⟩
  · rw [← (Alike.extraction_eq scaled_alike_rescaled).2.1, hx]
  · rw [htable, Table.ofTree_eq]
    decide

end Stmt

end AccessGraph
