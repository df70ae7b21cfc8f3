import AccessGraph.Proofs.Extraction
/-!
# Programs open and close their scopes properly

Every scope that a program enters is left again before the scope around it is, and a loop is never
entered inside of a memory access: an access holds operands only, and operands have no loops.

* `Event.LoopsOutside` : no loop is entered while a memory scope is open.
* `Stmt.nested_events`, `Stmt.loopsOutside_events` : both hold of the events of a program.
* `Stmt.extract_structure` : **nothing but the size of its buffer keeps a program from being
  extracted.**
-/

namespace AccessGraph

open Word (limit)

namespace Event

/-- While scopes of some kinds are open to begin with, no loop is entered inside a memory scope. -/
def LoopsOutside (kinds : List ScopeKind) (es : List Event) : Prop :=
  ∀ before enter after, es = before ++ enter :: after → enter.bracket = .opening .loop →
    ∀ inside, openKinds? kinds before = some inside → .memory ∉ inside

theorem loopsOutside_nil (kinds : List ScopeKind) : LoopsOutside kinds [] := by
  intro before enter after h
  simp at h

/-- What the first event does, and then the others. -/
theorem LoopsOutside.cons {kinds : List ScopeKind} {e : Event} {es : List Event}
    (hfirst : e.bracket = .opening .loop → .memory ∉ kinds)
    (hrest : ∀ next, follow? kinds e = some next → LoopsOutside next es) :
    LoopsOutside kinds (e :: es) := by
  intro before enter after h henter inside hinside
  cases before with
  | nil =>
    obtain ⟨rfl, -⟩ := List.cons.inj h
    obtain rfl : kinds = inside := Option.some.inj hinside
    exact hfirst henter
  | cons first before =>
    obtain ⟨rfl, hes⟩ := List.cons.inj h
    obtain ⟨next, hnext, hlater⟩ := Option.bind_eq_some_iff.1 hinside
    exact hrest next hnext before enter after hes henter inside hlater

/-- A well-nested stream leaves the open scopes as they were, so that another one can follow it. -/
theorem LoopsOutside.append {kinds : List ScopeKind} {es fs : List Event} (hnested : Nested es)
    (hes : LoopsOutside kinds es) (hfs : LoopsOutside kinds fs) :
    LoopsOutside kinds (es ++ fs) := by
  intro before enter after h henter inside hinside
  rcases List.append_eq_append_iff.1 h with ⟨more, rfl, hmore⟩ | ⟨more, rfl, hmore⟩
  · -- the event stands in the second stream
    rw [openKinds?_append, hnested.openKinds?, Option.bind_some] at hinside
    exact hfs more enter after hmore henter inside hinside
  · cases more with
    | nil =>
      rw [List.append_nil] at hnested
      rw [hnested.openKinds?] at hinside
      exact hfs [] enter after hmore.symm henter inside hinside
    | cons first more =>
      obtain ⟨rfl, -⟩ := List.cons.inj hmore
      exact hes before enter more rfl henter inside hinside

/-- A stream without loops is fine anywhere. -/
theorem loopsOutside_of_forall {es : List Event} (h : ∀ e ∈ es, e.bracket ≠ .opening .loop)
    (kinds : List ScopeKind) : LoopsOutside kinds es := by
  intro before enter after hes henter
  exact absurd henter (h enter (hes ▸ by simp))

/-- A loop that is not inside of a memory scope. -/
theorem LoopsOutside.around {kinds : List ScopeKind} {v : Var} {n : Int64} {x : Execution}
    {es : List Event} (hkinds : .memory ∉ kinds) (hnested : Nested es)
    (hes : LoopsOutside (.loop :: kinds) es) :
    LoopsOutside kinds (.enterLoop v n x :: (es ++ [.exitLoop])) := by
  refine .cons (fun _ => hkinds) fun next hnext => ?_
  obtain rfl : .loop :: kinds = next := Option.some.inj hnext
  exact hes.append hnested (loopsOutside_of_forall (by simp [bracket]) _)

end Event

/-! ### Expressions -/

namespace Expr

theorem nested_events (e : Expr) : Event.Nested e.events :=
  eventsList_blocks e ▸ Block.nested_eventsList e.blocks

mutual

/-- Expressions have no loops. -/
theorem bracket_ne_opening_loop : ∀ e : Expr, ∀ x ∈ e.events, x.bracket ≠ .opening .loop
  | .var _ => nofun
  | .int _ => nofun
  | .float _ => nofun
  | .binary _ a b => by
    intro x hx
    rw [events, List.mem_append] at hx
    rcases hx with hx | hx
    · exact bracket_ne_opening_loop a x hx
    · exact bracket_ne_opening_loop b x hx
  | .select c t f => by
    intro x hx
    rw [events, List.mem_append, List.mem_append] at hx
    rcases hx with (hx | hx) | hx
    · exact bracket_ne_opening_loop c x hx
    · exact bracket_ne_opening_loop t x hx
    · exact bracket_ne_opening_loop f x hx
  | .load buffer index predicate => by
    intro x hx
    rw [events, List.mem_cons, List.mem_append, List.mem_append, List.mem_singleton] at hx
    rcases hx with rfl | (hx | hx) | rfl
    · simp [Event.bracket]
    · exact bracket_ne_opening_loop index x hx
    · exact bracket_ne_opening_loop_option predicate x hx
    · simp [Event.bracket]
  | .call _ args => bracket_ne_opening_loop_list args

theorem bracket_ne_opening_loop_option :
    ∀ e : Option Expr, ∀ x ∈ eventsOption e, x.bracket ≠ .opening .loop
  | none => nofun
  | some e => bracket_ne_opening_loop e

theorem bracket_ne_opening_loop_list :
    ∀ es : List Expr, ∀ x ∈ eventsList es, x.bracket ≠ .opening .loop
  | [] => nofun
  | e :: es => by
    intro x hx
    rw [eventsList, List.mem_append] at hx
    rcases hx with hx | hx
    · exact bracket_ne_opening_loop e x hx
    · exact bracket_ne_opening_loop_list es x hx

end

theorem loopsOutside_events (e : Expr) (kinds : List ScopeKind) :
    Event.LoopsOutside kinds e.events :=
  Event.loopsOutside_of_forall (bracket_ne_opening_loop e) kinds

end Expr

/-! ### Statements -/

namespace Stmt

/-- **Every scope of a program is closed** by an event of its kind, before the one around it is. -/
theorem nested_events (s : Stmt) : Event.Nested s.events :=
  eventsList_blocks s ▸ Block.nested_eventsList s.blocks

mutual

/-- **No loop of a program is entered inside of a memory scope.** -/
theorem loopsOutside_events {kinds : List ScopeKind} (hkinds : .memory ∉ kinds) :
    ∀ s : Stmt, Event.LoopsOutside kinds s.events
  | .loop v min extent kind body => by
    have hbounds : Event.Nested (min.events ++ extent.events) :=
      min.nested_events.append extent.nested_events
    rw [events]
    refine .around hkinds (hbounds.append (nested_events body)) (.append hbounds ?_ ?_)
    · exact .append min.nested_events (min.loopsOutside_events _) (extent.loopsOutside_events _)
    · exact loopsOutside_events (by simpa using hkinds) body
  | .attribute key iterVar tag value body => by
    have hplain : Event.LoopsOutside kinds (value.events ++ events body) :=
      .append value.nested_events (value.loopsOutside_events _) (loopsOutside_events hkinds body)
    cases iterVar with
    | none => exact hplain
    | some v =>
      cases hbinds : threadExecution? key tag with
      | none => simpa only [events, hbinds] using hplain
      | some execution =>
        simp only [events, hbinds]
        refine .around hkinds (value.nested_events.append (nested_events body)) ?_
        exact .append value.nested_events (value.loopsOutside_events _)
          (loopsOutside_events (by simpa using hkinds) body)
  | .store buffer value index predicate => by
    -- a store enters one memory scope, and there are only operands inside of it
    refine Event.loopsOutside_of_forall (fun x hx => ?_) kinds
    simp only [events, List.mem_cons, List.mem_append, List.mem_nil_iff, or_false] at hx
    rcases hx with rfl | ((hx | hx) | hx) | rfl
    · simp [Event.bracket]
    · exact value.bracket_ne_opening_loop x hx
    · exact index.bracket_ne_opening_loop x hx
    · exact Expr.bracket_ne_opening_loop_option predicate x hx
    · simp [Event.bracket]
  | .binding _ value body => by
    rw [events]
    exact .append value.nested_events (value.loopsOutside_events _)
      (loopsOutside_events hkinds body)
  | .conditional condition thenCase elseCase => by
    rw [events]
    refine .append (condition.nested_events.append (nested_events thenCase)) ?_
      (loopsOutside_eventsOption hkinds elseCase)
    exact .append condition.nested_events (condition.loopsOutside_events _)
      (loopsOutside_events hkinds thenCase)
  | .sequence stmts => loopsOutside_eventsList hkinds stmts
  | .evaluate value => value.loopsOutside_events kinds

theorem loopsOutside_eventsOption {kinds : List ScopeKind} (hkinds : .memory ∉ kinds) :
    ∀ s : Option Stmt, Event.LoopsOutside kinds (eventsOption s)
  | none => Event.loopsOutside_nil kinds
  | some s => loopsOutside_events hkinds s

theorem loopsOutside_eventsList {kinds : List ScopeKind} (hkinds : .memory ∉ kinds) :
    ∀ ss : List Stmt, Event.LoopsOutside kinds (eventsList ss)
  | [] => Event.loopsOutside_nil kinds
  | s :: ss => by
    rw [eventsList]
    exact .append (nested_events s) (loopsOutside_events hkinds s)
      (loopsOutside_eventsList hkinds ss)

end

/-! ### Extraction -/

/-- **Nothing but the size of its buffer keeps a program from being extracted.** Its events are
well-nested, no loop is entered while a memory scope is open, the table of its tree passes all
checks, and there is an extraction exactly if the buffer is small enough. The only failure is a
number that does not fit into a word. -/
theorem extract_structure (s : Stmt) :
    Event.Nested s.events ∧
    (∀ before v n x after, s.events = before ++ .enterLoop v n x :: after →
      ∃ kinds, Event.openKinds? [] before = some kinds ∧ .memory ∉ kinds) ∧
    (∃ t, s.tree? = .ok t ∧ (Table.ofTree t).check = .ok () ∧
      ((∃ x, s.extract = .ok x) ↔ Layout.size (Table.ofTree t) < limit)) ∧
    (∀ failure, s.extract = .error failure →
      ∃ what value, failure = .table (.overflow what value) ∧ limit ≤ value) := by
  refine ⟨nested_events s, fun before v n x after h => ?_, ⟨s.graph, tree?_eq s, ?_, ?_⟩, ?_⟩
  · -- a beginning of a well-nested stream can be followed
    have hextendable : Event.Extendable before :=
      (nested_events s).extendable.of_prefix ⟨_, h.symm⟩
    obtain ⟨kinds, hkinds⟩ := Event.extendable_iff_openKinds?.1 hextendable
    exact ⟨kinds, hkinds, loopsOutside_events (by simp) s before _ after h rfl kinds hkinds⟩
  · exact Table.check_eq_ok_iff.2 (Table.wellFormed_ofTree s.graph)
  · constructor
    · rintro ⟨x, hx⟩
      rw [extract_eq] at hx
      cases hextraction : Extraction.ofTree s.graph with
      | error defect => simp [hextraction, Except.mapError] at hx
      | ok y => exact Extraction.size_lt_of_ofTree hextraction
    · intro hsize
      obtain ⟨x, hx, -⟩ := extract_eq_ok hsize
      exact ⟨x, hx⟩
  · intro failure hfailure
    rw [extract_eq] at hfailure
    cases hextraction : Extraction.ofTree s.graph with
    | error defect =>
      obtain ⟨what, value, rfl, hvalue⟩ :=
        Extraction.onlyOverflows_ofTree s.graph defect hextraction
      rw [hextraction] at hfailure
      exact ⟨what, value, (Except.error.inj hfailure).symm, hvalue⟩
    | ok y => simp [hextraction, Except.mapError] at hfailure

end Stmt

end AccessGraph
