import AccessGraph.Proofs.Extraction
import Mathlib.Algebra.GroupWithZero.Nat
/-!
# The parts of a program

The parts of a program are the statements and expressions that stand anywhere in it. A part that
opens a scope is a loop, a thread binding or an access.

* `Part.children` : the parts directly inside of a part.
* `Part.occurrences` : all parts inside of a part, once for each place where they stand, and
  whether a loop stands around that place.
* `Part.entered_eq`, `Part.size_eq` : what one part adds to the scopes that are entered and to the
  nodes of the graph, besides what its children add.
* `Stmt.scopes_counted` : **each part that opens a scope is entered once**, and the size of the
  graph is the sum of what the loops and the accesses inside of loops add.
-/

namespace AccessGraph

/-- A statement or an expression. -/
inductive Part where
  | stmt (s : Stmt)
  | expr (e : Expr)

/-- A scope that is entered, by a loop over a variable or by an access. -/
inductive Entered where
  | loop (var : Var)
  | access (buffer : Var) (index : Expr)

/-- The scope that an event enters, if it enters one. -/
def Event.entered? : Event → Option Entered
  | .enterLoop v _ _ => some (.loop v)
  | .enterMemory buffer index => some (.access buffer index)
  | .exitLoop => none
  | .exitMemory => none

namespace Part

/-- The parts directly inside of a part, in the order of the text. -/
def children : Part → List Part
  | .stmt (.loop _ min extent _ body) => [.expr min, .expr extent, .stmt body]
  | .stmt (.attribute _ _ _ value body) => [.expr value, .stmt body]
  | .stmt (.store _ value index predicate) =>
    .expr value :: .expr index :: predicate.toList.map .expr
  | .stmt (.binding _ value body) => [.expr value, .stmt body]
  | .stmt (.conditional condition thenCase elseCase) =>
    .expr condition :: .stmt thenCase :: elseCase.toList.map .stmt
  | .stmt (.sequence stmts) => stmts.map .stmt
  | .stmt (.evaluate value) => [.expr value]
  | .expr (.var _) => []
  | .expr (.int _) => []
  | .expr (.float _) => []
  | .expr (.binary _ a b) => [.expr a, .expr b]
  | .expr (.select c t f) => [.expr c, .expr t, .expr f]
  | .expr (.load _ index predicate) => .expr index :: predicate.toList.map .expr
  | .expr (.call _ args) => args.map .expr

/-- The scope that a part opens by itself, if it opens one. -/
def opens? : Part → Option Entered
  | .stmt (.loop v _ _ _ _) => some (.loop v)
  | .stmt (.attribute key (some v) _ _ _) => if Stmt.bindsThreads key then some (.loop v) else none
  | .stmt (.store buffer _ index _) => some (.access buffer index)
  | .expr (.load buffer index _) => some (.access buffer index)
  | _ => none

/-- The part is a loop or a thread binding. -/
def isLoop (p : Part) : Bool :=
  match p.opens? with
  | some (.loop _) => true
  | _ => false

/-- The buffer and the index of an access. -/
def access? (p : Part) : Option (Var × Expr) :=
  match p.opens? with
  | some (.access buffer index) => some (buffer, index)
  | _ => none

theorem sizeOf_lt_of_mem_children {p q : Part} (h : q ∈ p.children) : sizeOf q < sizeOf p := by
  rcases p with s | e
  · cases s <;>
      simp only [children, List.mem_cons, List.mem_map, Option.mem_toList, List.not_mem_nil,
        or_false] at h
    case store | conditional =>
      obtain rfl | rfl | ⟨_, rfl, rfl⟩ := h <;> simp <;> omega
    case sequence =>
      obtain ⟨_, hmem, rfl⟩ := h
      have := List.sizeOf_lt_of_mem hmem
      simp
      omega
    all_goals
      obtain rfl | rfl | rfl := h <;> simp <;> omega
  · cases e <;>
      simp only [children, List.mem_cons, List.mem_map, Option.mem_toList, List.not_mem_nil,
        or_false] at h
    case load =>
      obtain rfl | ⟨_, rfl, rfl⟩ := h <;> simp <;> omega
    case call =>
      obtain ⟨_, hmem, rfl⟩ := h
      have := List.sizeOf_lt_of_mem hmem
      simp
      omega
    all_goals
      obtain rfl | rfl | rfl := h <;> simp <;> omega

/-- What holds of a part whenever it holds of its children holds of all parts. -/
theorem induction {motive : Part → Prop}
    (step : ∀ p, (∀ q ∈ p.children, motive q) → motive p) (p : Part) : motive p :=
  step p fun q _ => induction step q
termination_by sizeOf p
decreasing_by exact sizeOf_lt_of_mem_children ‹_›

end Part

/-- A part at a place in a program. -/
structure Occurrence where
  /-- A loop or a thread binding stands around the place. -/
  inLoop : Bool
  /-- What stands there. -/
  part : Part

namespace Part

/-- All parts inside of a part, itself included, each once for each place where it stands. All that
stands inside of a loop has the loop around it, its bounds as well. -/
def occurrences (inLoop : Bool) (p : Part) : List Occurrence :=
  ⟨inLoop, p⟩ :: p.children.attach.flatMap fun ⟨q, _⟩ => occurrences (inLoop || p.isLoop) q
termination_by sizeOf p
decreasing_by exact sizeOf_lt_of_mem_children ‹_›

theorem occurrences_eq (inLoop : Bool) (p : Part) :
    p.occurrences inLoop =
      ⟨inLoop, p⟩ :: p.children.flatMap (occurrences (inLoop || p.isLoop)) := by
  rw [occurrences]
  simp only [List.flatMap_subtype, List.unattach_attach]

end Part

/-! ### Scopes that are entered -/

theorem Expr.eventsList_eq_flatMap (es : List Expr) : eventsList es = es.flatMap events := by
  induction es with
  | nil => rfl
  | cons e es ih => rw [eventsList, ih, List.flatMap_cons]

theorem Expr.eventsOption_eq_eventsList (e : Option Expr) :
    eventsOption e = eventsList e.toList := by
  cases e with
  | none => rfl
  | some e => exact (List.append_nil _).symm

theorem Stmt.eventsList_eq_flatMap (ss : List Stmt) : eventsList ss = ss.flatMap events := by
  induction ss with
  | nil => rfl
  | cons s ss ih => rw [eventsList, ih, List.flatMap_cons]

theorem Stmt.eventsOption_eq_eventsList (s : Option Stmt) :
    eventsOption s = eventsList s.toList := by
  cases s with
  | none => rfl
  | some s => exact (List.append_nil _).symm

namespace Part

/-- The events of a part. -/
def events : Part → List Event
  | .stmt s => s.events
  | .expr e => e.events

/-- The scopes that a part enters, in the order of its events. -/
def entered (p : Part) : List Entered := p.events.filterMap Event.entered?

theorem flatMap_entered_expr (es : List Expr) :
    (es.map Part.expr).flatMap entered = (Expr.eventsList es).filterMap Event.entered? := by
  rw [Expr.eventsList_eq_flatMap, List.filterMap_flatMap, List.flatMap_map]
  rfl

theorem flatMap_entered_stmt (ss : List Stmt) :
    (ss.map Part.stmt).flatMap entered = (Stmt.eventsList ss).filterMap Event.entered? := by
  rw [Stmt.eventsList_eq_flatMap, List.filterMap_flatMap, List.flatMap_map]
  rfl

/-- A part enters the scope that it opens, if it opens one, and then those of its children. -/
theorem entered_eq : ∀ p : Part, p.entered = p.opens?.toList ++ p.children.flatMap entered
  | .stmt (.loop v min extent kind body) => by
    simp [entered, events, Stmt.events, opens?, children, Event.entered?]
  | .stmt (.attribute key iterVar tag value body) => by
    cases iterVar with
    | none => simp [entered, events, Stmt.events, opens?, children]
    | some v =>
      -- the events ask for the execution, the part for the key alone
      have hkey := Stmt.isSome_threadExecution? key tag
      cases hbinds : Stmt.threadExecution? key tag with
      | none =>
        rw [hbinds, Option.isSome_none] at hkey
        simp [entered, events, Stmt.events, hbinds, opens?, ← hkey, children]
      | some execution =>
        rw [hbinds, Option.isSome_some] at hkey
        simp [entered, events, Stmt.events, hbinds, opens?, ← hkey, children, Event.entered?]
  | .stmt (.store buffer value index predicate) => by
    simp only [children, List.flatMap_cons, flatMap_entered_expr]
    simp [entered, events, Stmt.events, opens?, Event.entered?, Expr.eventsOption_eq_eventsList]
  | .stmt (.binding _ value body) => by
    simp [entered, events, Stmt.events, opens?, children]
  | .stmt (.conditional condition thenCase elseCase) => by
    simp only [children, List.flatMap_cons, flatMap_entered_stmt]
    simp [entered, events, Stmt.events, opens?, Stmt.eventsOption_eq_eventsList]
  | .stmt (.sequence stmts) => (flatMap_entered_stmt stmts).symm
  | .stmt (.evaluate value) => (List.append_nil _).symm
  | .expr (.var _) => rfl
  | .expr (.int _) => rfl
  | .expr (.float _) => rfl
  | .expr (.binary _ a b) => by
    simp [entered, events, Expr.events, opens?, children]
  | .expr (.select c t f) => by
    simp [entered, events, Expr.events, opens?, children]
  | .expr (.load buffer index predicate) => by
    simp only [children, List.flatMap_cons, flatMap_entered_expr]
    simp [entered, events, Expr.events, opens?, Event.entered?, Expr.eventsOption_eq_eventsList]
  | .expr (.call _ args) => (flatMap_entered_expr args).symm

/-- **The scopes that a part enters are those that the parts inside of it open**, in the order of
the text. -/
theorem entered_eq_occurrences (inLoop : Bool) (p : Part) :
    p.entered = (p.occurrences inLoop).filterMap (·.part.opens?) := by
  -- over the parts directly inside, of which a call or a sequence has any number
  induction p using Part.induction generalizing inLoop with
  | step p ih =>
    rw [entered_eq, occurrences_eq, List.filterMap_cons, List.filterMap_flatMap]
    have hchildren : p.children.flatMap entered = p.children.flatMap fun q =>
        (q.occurrences (inLoop || p.isLoop)).filterMap (·.part.opens?) :=
      List.flatMap_congr fun q hq => ih q hq _
    rw [hchildren]
    cases p.opens? <;> rfl

end Part

/-! ### Nodes -/

namespace Tree

/-- The number of nodes of several trees. -/
def total (ts : List Tree) : Nat := (ts.map size).sum

@[simp] theorem total_append (ts us : List Tree) : total (ts ++ us) = total ts + total us := by
  simp [total]

theorem total_cons (t : Tree) (ts : List Tree) : total (t :: ts) = t.size + total ts := by
  simp [total]

theorem sizeList_map_structural (ts : List Tree) :
    sizeList (ts.map (EdgeKind.structural, ·)) = total ts := by
  induction ts with
  | nil => rfl
  | cons t ts ih => rw [List.map_cons, sizeList, ih, total_cons]

/-- A scope has a node of its own, one for each leaf, and those that hang below it. -/
theorem size_ofScope (label : String) (leaves : List String) (hanging : List Tree) :
    (ofScope label leaves hanging).size = 1 + leaves.length + total hanging := by
  have hleaves : total (leaves.map leaf) = leaves.length := by
    induction leaves with
    | nil => rfl
    | cons name leaves ih =>
      rw [List.map_cons, total_cons, ih, List.length_cons, leaf, size, sizeList]
      omega
  rw [ofScope, size, sizeList_map_structural, total_append, hleaves, Nat.add_assoc]

end Tree

namespace Stmt

@[simp] theorem total_loopNode (v : Var) (nodes : List Tree) :
    Tree.total [loopNode v nodes] = 2 + Tree.total nodes := by
  rw [Tree.total_cons, loopNode, Tree.size_ofScope]
  rfl

@[simp] theorem total_kept_access (inLoop : Bool) (buffer : Var) (index : Expr)
    (accesses : List Tree) :
    Tree.total (kept inLoop (.access buffer index :: accesses)) =
      (if inLoop then 1 + index.reads.dedup.length else 0) +
        Tree.total (kept inLoop accesses) := by
  cases inLoop with
  | false => rfl
  | true =>
    rw [kept_true, kept_true, Tree.total_cons, Tree.access, Tree.size_ofScope, List.length_map,
      Var.sorted, List.length_insertionSort]
    rfl

end Stmt

/-- How many nodes an occurrence adds to the graph, besides those of the parts inside of it: two for
a loop, and for an access inside of a loop one and another one for each variable of its index. -/
def Occurrence.cost (o : Occurrence) : Nat :=
  match o.part.opens? with
  | some (.loop _) => 2
  | some (.access _ index) => if o.inLoop then 1 + index.reads.dedup.length else 0
  | none => 0

namespace Part

/-- The number of nodes of a part that stands inside or outside of loops. -/
def size (inLoop : Bool) : Part → Nat
  | .stmt s => Tree.total (s.nodes inLoop)
  | .expr e => Tree.total (Stmt.kept inLoop e.accesses)

theorem sum_size_expr (inLoop : Bool) (es : List Expr) :
    ((es.map Part.expr).map (size inLoop)).sum =
      Tree.total (Stmt.kept inLoop (Expr.accessesList es)) := by
  induction es with
  | nil => cases inLoop <;> rfl
  | cons e es ih =>
    rw [List.map_cons, List.map_cons, List.sum_cons, ih, Expr.accessesList, Stmt.kept_append,
      Tree.total_append, size]

theorem sum_size_stmt (inLoop : Bool) (ss : List Stmt) :
    ((ss.map Part.stmt).map (size inLoop)).sum = Tree.total (Stmt.nodesList inLoop ss) := by
  induction ss with
  | nil => rfl
  | cons s ss ih =>
    rw [List.map_cons, List.map_cons, List.sum_cons, ih, Stmt.nodesList, Tree.total_append, size]

/-- The nodes of a part are its own and those of its children. -/
theorem size_eq (inLoop : Bool) : ∀ p : Part, p.size inLoop =
    Occurrence.cost ⟨inLoop, p⟩ + (p.children.map (size (inLoop || p.isLoop))).sum
  | .stmt (.loop v min extent kind body) => by
    simp [size, Stmt.nodes, Occurrence.cost, opens?, isLoop, children]
  | .stmt (.attribute key iterVar tag value body) => by
    cases iterVar with
    | none => simp [size, Stmt.nodes, Occurrence.cost, opens?, isLoop, children]
    | some v =>
      cases hbinds : Stmt.bindsThreads key <;>
        simp [size, Stmt.nodes, hbinds, Occurrence.cost, opens?, isLoop, children]
  | .stmt (.store buffer value index predicate) => by
    simp only [children, List.map_cons, List.sum_cons, sum_size_expr]
    simp [size, Stmt.nodes, Occurrence.cost, opens?, isLoop, Expr.accessesOption_eq_accessesList]
  | .stmt (.binding _ value body) => by
    simp [size, Stmt.nodes, Occurrence.cost, opens?, isLoop, children]
  | .stmt (.conditional condition thenCase elseCase) => by
    simp only [children, List.map_cons, List.sum_cons, sum_size_stmt]
    simp [size, Stmt.nodes, Occurrence.cost, opens?, isLoop, Stmt.nodesOption_eq_nodesList]
  | .stmt (.sequence stmts) => by
    rw [children, sum_size_stmt]
    simp [size, Stmt.nodes, Occurrence.cost, opens?, isLoop]
  | .stmt (.evaluate value) => by
    simp [size, Stmt.nodes, Occurrence.cost, opens?, isLoop, children]
  | .expr (.var _) => by cases inLoop <;> rfl
  | .expr (.int _) => by cases inLoop <;> rfl
  | .expr (.float _) => by cases inLoop <;> rfl
  | .expr (.binary _ a b) => by
    simp [size, Expr.accesses, Occurrence.cost, opens?, isLoop, children]
  | .expr (.select c t f) => by
    simp [size, Expr.accesses, Occurrence.cost, opens?, isLoop, children]
  | .expr (.load buffer index predicate) => by
    simp only [children, List.map_cons, List.sum_cons, sum_size_expr]
    simp [size, Expr.accesses, Occurrence.cost, opens?, isLoop,
      Expr.accessesOption_eq_accessesList]
  | .expr (.call _ args) => by
    rw [children, sum_size_expr]
    simp [size, Expr.accesses, Occurrence.cost, opens?, isLoop]

/-- **The nodes of a part are those that the parts inside of it add.** -/
theorem size_eq_sum_cost (inLoop : Bool) (p : Part) :
    p.size inLoop = ((p.occurrences inLoop).map (·.cost)).sum := by
  induction p using Part.induction generalizing inLoop with
  | step p ih =>
    have hchildren : p.children.map (size (inLoop || p.isLoop)) = p.children.map fun q =>
        ((q.occurrences (inLoop || p.isLoop)).map (·.cost)).sum :=
      List.map_congr_left fun q hq => ih q hq _
    rw [size_eq, occurrences_eq, List.map_cons, List.sum_cons, hchildren, List.map_flatMap,
      List.flatMap_def, List.sum_flatten, List.map_map]
    rfl

end Part

/-! ### Programs -/

/-- What occurrences add to a graph: two nodes for each loop, and for each access inside of a loop
one and another one for each variable of its index. -/
theorem Occurrence.sum_cost (os : List Occurrence) :
    (os.map (·.cost)).sum = 2 * os.countP (·.part.isLoop) +
      (((os.filter (·.inLoop)).filterMap (·.part.access?)).map fun access =>
        1 + access.2.reads.dedup.length).sum := by
  induction os with
  | nil => rfl
  | cons o os ih =>
    rw [List.map_cons, List.sum_cons, ih, List.countP_cons, List.filter_cons, cost]
    rcases hopens : o.part.opens? with _ | ⟨v⟩ | ⟨buffer, index⟩
    · cases o.inLoop <;> simp [Part.isLoop, Part.access?, hopens]
    · cases o.inLoop <;> simp [Part.isLoop, Part.access?, hopens] <;> omega
    · cases o.inLoop
      · simp [Part.isLoop, hopens]
      · simp [Part.isLoop, Part.access?, hopens]
        omega

namespace Stmt

/-- All parts of a program, each once for each place where it stands. -/
def occurrences (s : Stmt) : List Occurrence := (Part.stmt s).occurrences false

/-- The number of loops and thread bindings of a program. -/
def loopCount (s : Stmt) : Nat := s.occurrences.countP (·.part.isLoop)

/-- The buffers and indices of the accesses that stand inside of a loop. -/
def innerAccesses (s : Stmt) : List (Var × Expr) :=
  (s.occurrences.filter (·.inLoop)).filterMap (·.part.access?)

theorem size_graph (s : Stmt) :
    s.graph.size = 1 + 2 * s.loopCount +
      (s.innerAccesses.map fun access => 1 + access.2.reads.dedup.length).sum := by
  have htotal : Tree.total (s.nodes false) = (s.occurrences.map (·.cost)).sum :=
    Part.size_eq_sum_cost false (.stmt s)
  rw [graph, Tree.size_ofScope, htotal, Occurrence.sum_cost]
  simp [loopCount, innerAccesses, Nat.add_assoc]

/-- **No loop and no access is lost, and none is counted twice.** The scopes that the events of a
program enter are those of its loops, thread bindings and accesses, one for each place where such a
part stands, with the variable, or with the buffer and the index, that stand there. And the graph
has one node for the root, two for each loop, and for each access inside of a loop one and another
one for each variable of its index. -/
theorem scopes_counted (s : Stmt) :
    s.events.filterMap Event.entered? = s.occurrences.filterMap (·.part.opens?) ∧
    ∃ t, s.tree? = .ok t ∧
      t.size = 1 + 2 * s.loopCount +
        (s.innerAccesses.map fun access => 1 + access.2.reads.dedup.length).sum ∧
      ∀ x, s.extract = .ok x → x.table.count = t.size := by
  refine ⟨Part.entered_eq_occurrences false (.stmt s), s.graph, tree?_eq s, size_graph s, ?_⟩
  intro x hx
  rw [table_of_extract hx, Table.ofTree_eq]
  simp [Table.ofRows, Table.count, Numbering.length_rowsFrom]

theorem scopes_counted_gather : ∃ x, gather.extract = .ok x ∧ x.table.count = 15 := by
  have hsize : Layout.size (Table.ofTree gather.graph) < Word.limit := by
    rw [Table.ofTree_eq]
    decide
  obtain ⟨x, hx, -⟩ := extract_eq_ok hsize
  obtain ⟨-, t, ht, -, hcount⟩ := scopes_counted gather
  obtain rfl : gather.graph = t := Except.ok.inj ((tree?_eq gather).symm.trans ht)
  exact ⟨x, hx, (hcount x hx).trans (by decide)⟩

end Stmt

end AccessGraph
