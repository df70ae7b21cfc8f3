import AccessGraph.Assembly.Basic
import Mathlib.Data.List.Basic
import Mathlib.Data.List.Induction
/-!
# Well-nested streams of events

An event opens a scope or closes one, so a stream of events is a word over two kinds of brackets.

* `Event.Nested` : the balanced words.
* `Event.Extendable` : the beginnings of balanced words.
* `Event.openKinds?` : the kinds of the scopes that are open after some events, found by following
  the events one by one.

Following the events decides both notions: `Event.nested_iff_openKinds?` and
`Event.extendable_iff_openKinds?`. When it goes well, the scope that is open innermost is the one
whose opening is followed by a balanced word (`Event.exists_innermost`).
-/

namespace AccessGraph

/-- What an event does to the open scopes. -/
inductive Bracket where
  /-- A scope of this kind is opened. -/
  | opening (kind : ScopeKind)
  /-- A scope of this kind is closed. -/
  | closing (kind : ScopeKind)
  deriving DecidableEq, Repr

namespace Event

/-- What an event does to the open scopes. -/
def bracket : Event → Bracket
  | enterLoop .. => .opening .loop
  | exitLoop => .closing .loop
  | enterMemory .. => .opening .memory
  | exitMemory => .closing .memory

/-- The event opens a scope. -/
def isOpening (e : Event) : Bool :=
  match e.bracket with
  | .opening _ => true
  | .closing _ => false

/-- The event closes a scope. -/
def isClosing (e : Event) : Bool := !e.isOpening

/-- Every scope that is opened is closed by an event of its kind, before the scope around it is. -/
inductive Nested : List Event → Prop
  | nil : Nested []
  | scope {enter leave : Event} {kind : ScopeKind} {inside rest : List Event} :
      enter.bracket = .opening kind → leave.bracket = .closing kind →
      Nested inside → Nested rest → Nested (enter :: inside ++ leave :: rest)

/-- Some further events make the stream well-nested. -/
def Extendable (es : List Event) : Prop := ∃ later, Nested (es ++ later)

/-- The event that closes a scope of some kind. -/
def leaving : ScopeKind → Event
  | .memory => exitMemory
  | _ => exitLoop

theorem bracket_ne_opening_root (e : Event) : e.bracket ≠ .opening .root := by
  cases e <;> simp [bracket]

theorem bracket_leaving {kind : ScopeKind} (h : kind ≠ .root) :
    (leaving kind).bracket = .closing kind := by
  cases kind with
  | root => exact absurd rfl h
  | loop => rfl
  | memory => rfl

theorem Nested.append {es fs : List Event} (he : Nested es) (hf : Nested fs) :
    Nested (es ++ fs) := by
  induction he with
  | nil => exact hf
  | scope hopen hclose hinside _ _ ih =>
    simpa using Nested.scope hopen hclose hinside ih

/-- A scope around a well-nested stream. -/
theorem Nested.around {enter leave : Event} {kind : ScopeKind} {es : List Event}
    (hopen : enter.bracket = .opening kind) (hclose : leave.bracket = .closing kind)
    (h : Nested es) : Nested (enter :: es ++ [leave]) :=
  .scope hopen hclose h .nil

/-! ### Following the open scopes -/

/-- The kinds of the open scopes, innermost first, when a scope of kind `kind` has been closed. -/
def leave? (kind : ScopeKind) : List ScopeKind → Option (List ScopeKind)
  | [] => none
  | innermost :: outer => if innermost = kind then some outer else none

/-- The kinds of the open scopes after one more event. -/
def follow? (kinds : List ScopeKind) (e : Event) : Option (List ScopeKind) :=
  match e.bracket with
  | .opening kind => some (kind :: kinds)
  | .closing kind => leave? kind kinds

/-- The kinds of the open scopes after some more events. -/
def openKinds? (kinds : List ScopeKind) : List Event → Option (List ScopeKind)
  | [] => some kinds
  | e :: es => (follow? kinds e).bind fun kinds => openKinds? kinds es

theorem follow?_opening {e : Event} {kind : ScopeKind} (h : e.bracket = .opening kind)
    (kinds : List ScopeKind) : follow? kinds e = some (kind :: kinds) := by
  simp [follow?, h]

theorem follow?_closing {e : Event} {kind : ScopeKind} (h : e.bracket = .closing kind)
    (kinds : List ScopeKind) : follow? kinds e = leave? kind kinds := by
  simp [follow?, h]

@[simp] theorem leave?_self (kind : ScopeKind) (kinds : List ScopeKind) :
    leave? kind (kind :: kinds) = some kinds := by
  simp [leave?]

theorem eq_cons_of_leave? {kind : ScopeKind} {kinds outer : List ScopeKind}
    (h : leave? kind kinds = some outer) : kinds = kind :: outer := by
  cases kinds with
  | nil => simp [leave?] at h
  | cons innermost kinds =>
    simp only [leave?] at h
    split at h
    · rename_i heq
      simp only [Option.some.injEq] at h
      rw [heq, h]
    · simp at h

/-- **What one event does**: it opens a scope inside of the others, or closes the innermost one. -/
theorem follow?_cases {kinds next : List ScopeKind} {e : Event} (h : follow? kinds e = some next) :
    (∃ kind, e.bracket = .opening kind ∧ next = kind :: kinds) ∨
      (∃ kind, e.bracket = .closing kind ∧ kinds = kind :: next) := by
  cases hb : e.bracket with
  | opening kind =>
    rw [follow?_opening hb] at h
    exact .inl ⟨kind, rfl, (Option.some.inj h).symm⟩
  | closing kind =>
    rw [follow?_closing hb] at h
    exact .inr ⟨kind, rfl, eq_cons_of_leave? h⟩

@[simp] theorem openKinds?_singleton (kinds : List ScopeKind) (e : Event) :
    openKinds? kinds [e] = follow? kinds e := by
  simp [openKinds?]

theorem openKinds?_append (kinds : List ScopeKind) (es fs : List Event) :
    openKinds? kinds (es ++ fs) = (openKinds? kinds es).bind fun kinds => openKinds? kinds fs := by
  induction es generalizing kinds with
  | nil => rfl
  | cons e es ih =>
    simp only [List.cons_append, openKinds?, Option.bind_assoc]
    exact congrArg _ (funext ih)

/-- A well-nested stream leaves the open scopes as they were. -/
theorem Nested.openKinds? {es : List Event} (h : Nested es) (kinds : List ScopeKind) :
    openKinds? kinds es = some kinds := by
  induction h generalizing kinds with
  | nil => rfl
  | @scope enter leave kind inside rest hopen hclose _ _ ihInside ihRest =>
    rw [openKinds?_append]
    simp [Event.openKinds?, follow?_opening hopen, follow?_closing hclose, ihInside, ihRest]

/-- The events close the scopes of the given kinds, innermost first, and are well-nested in between
and after the last one. -/
def Closes : List ScopeKind → List Event → Prop
  | [], es => Nested es
  | kind :: kinds, es => ∃ inside leave rest, es = inside ++ leave :: rest ∧ Nested inside ∧
      leave.bracket = .closing kind ∧ Closes kinds rest

theorem Closes.append_left {es fs : List Event} {kinds : List ScopeKind} (he : Nested es)
    (hf : Closes kinds fs) : Closes kinds (es ++ fs) := by
  cases kinds with
  | nil => exact he.append hf
  | cons kind kinds =>
    obtain ⟨inside, leave, rest, rfl, hinside, hleave, hrest⟩ := hf
    exact ⟨es ++ inside, leave, rest, by simp, he.append hinside, hleave, hrest⟩

/-- Events after which no scope is open have closed all that were open before. -/
theorem closes_of_openKinds? {kinds : List ScopeKind} {es : List Event}
    (h : openKinds? kinds es = some []) : Closes kinds es := by
  induction es generalizing kinds with
  | nil =>
    obtain rfl : kinds = [] := by simpa [openKinds?] using h
    exact .nil
  | cons e es ih =>
    obtain ⟨next, hnext, hlater⟩ := Option.bind_eq_some_iff.1 h
    rcases follow?_cases hnext with ⟨kind, hb, rfl⟩ | ⟨kind, hb, rfl⟩
    · -- the scope that is opened is the first one to be closed
      obtain ⟨inside, leave, rest, rfl, hinside, hleave, hrest⟩ := ih hlater
      simpa using hrest.append_left (hinside.around hb hleave)
    · exact ⟨[], e, es, rfl, .nil, hb, ih hlater⟩

/-- **A stream is well-nested exactly when following it ends without open scopes.** -/
theorem nested_iff_openKinds? {es : List Event} : Nested es ↔ openKinds? [] es = some [] :=
  ⟨fun h => h.openKinds? [], fun h => closes_of_openKinds? h⟩

/-- No event opens a scope of the kind of the root. -/
theorem root_not_mem_of_openKinds? {kinds kinds' : List ScopeKind} {es : List Event}
    (hroot : .root ∉ kinds) (h : openKinds? kinds es = some kinds') : .root ∉ kinds' := by
  induction es generalizing kinds with
  | nil =>
    obtain rfl : kinds = kinds' := by simpa [openKinds?] using h
    exact hroot
  | cons e es ih =>
    obtain ⟨next, hnext, hrest⟩ := Option.bind_eq_some_iff.1 h
    refine ih ?_ hrest
    rcases follow?_cases hnext with ⟨kind, hb, rfl⟩ | ⟨kind, -, rfl⟩
    · have hne : kind ≠ .root := fun hk => bracket_ne_opening_root e (hk ▸ hb)
      simpa [Ne.symm hne] using hroot
    · exact fun hmem => hroot (List.mem_cons_of_mem _ hmem)

/-- Closing the open scopes one by one, innermost first. -/
theorem openKinds?_map_leaving {kinds : List ScopeKind} (h : .root ∉ kinds) :
    openKinds? kinds (kinds.map leaving) = some [] := by
  induction kinds with
  | nil => rfl
  | cons kind kinds ih =>
    have hne : kind ≠ .root := fun hk => h (hk ▸ List.mem_cons_self)
    rw [List.map_cons, openKinds?, follow?_closing (bracket_leaving hne), leave?_self]
    exact ih fun hmem => h (List.mem_cons_of_mem _ hmem)

/-- **A stream can be extended to a well-nested one exactly when following it goes well.** -/
theorem extendable_iff_openKinds? {es : List Event} :
    Extendable es ↔ ∃ kinds, openKinds? [] es = some kinds := by
  constructor
  · rintro ⟨later, h⟩
    rw [nested_iff_openKinds?, openKinds?_append] at h
    obtain ⟨kinds, hkinds, -⟩ := Option.bind_eq_some_iff.1 h
    exact ⟨kinds, hkinds⟩
  · rintro ⟨kinds, h⟩
    have hroot : .root ∉ kinds := root_not_mem_of_openKinds? (by simp) h
    refine ⟨kinds.map leaving, nested_iff_openKinds?.2 ?_⟩
    rw [openKinds?_append, h]
    exact openKinds?_map_leaving hroot

theorem Nested.extendable {es : List Event} (h : Nested es) : Extendable es :=
  ⟨[], by simpa using h⟩

theorem Extendable.of_prefix {p es : List Event} (h : Extendable es) (hp : p <+: es) :
    Extendable p := by
  obtain ⟨q, rfl⟩ := hp
  obtain ⟨later, hnested⟩ := h
  exact ⟨q ++ later, by simpa using hnested⟩

/-- A stream that cannot be extended has a shortest beginning that cannot. -/
theorem exists_shortest_of_not_extendable {es : List Event} (h : ¬ Extendable es) :
    ∃ p e q, es = p ++ e :: q ∧ Extendable p ∧ ¬ Extendable (p ++ [e]) := by
  induction es using List.reverseRecOn with
  | nil => exact absurd Nested.nil.extendable h
  | append_singleton es e ih =>
    by_cases hes : Extendable es
    · exact ⟨es, e, [], rfl, hes, h⟩
    · obtain ⟨p, e', q, rfl, hp, hpe⟩ := ih hes
      exact ⟨p, e', q ++ [e], by simp, hp, hpe⟩

/-- **The innermost open scope** is the one whose opening is followed by a well-nested stream. -/
theorem exists_innermost {es : List Event} {kind : ScopeKind} {outer : List ScopeKind}
    (h : openKinds? [] es = some (kind :: outer)) :
    ∃ before enter inside, es = before ++ enter :: inside ∧ enter.bracket = .opening kind ∧
      Nested inside ∧ openKinds? [] before = some outer := by
  -- by the last event: an opening is the scope itself; before a closing stands a whole scope
  induction hn : es.length using Nat.strongRecOn generalizing es kind outer with
  | ind n ih =>
    subst hn
    obtain rfl | ⟨es, e, rfl⟩ := es.eq_nil_or_concat'
    · simp [openKinds?] at h
    rw [openKinds?_append] at h
    obtain ⟨kinds, hkinds, hlast⟩ := Option.bind_eq_some_iff.1 h
    rw [openKinds?_singleton] at hlast
    rcases follow?_cases hlast with ⟨kind', hb, heq⟩ | ⟨kind', hb, rfl⟩
    · obtain ⟨rfl, rfl⟩ := List.cons.inj heq
      exact ⟨es, e, [], rfl, hb, .nil, hkinds⟩
    · -- the scope that is closed stands behind the opening of the one that is left
      obtain ⟨front, enter, inside, rfl, henter, hinside, hfront⟩ :=
        ih es.length (by simp) hkinds rfl
      obtain ⟨before, enter', inside', rfl, henter', hinside', hbefore⟩ :=
        ih front.length (by simp) hfront rfl
      refine ⟨before, enter', inside' ++ (enter :: inside ++ [e]), by simp, henter', ?_, hbefore⟩
      exact hinside'.append (hinside.around henter hb)

/-- An extendable stream has as many open scopes as openings without a closing. -/
theorem length_add_countP_of_openKinds? {kinds kinds' : List ScopeKind} {es : List Event}
    (h : openKinds? kinds es = some kinds') :
    kinds'.length + es.countP isClosing = kinds.length + es.countP isOpening := by
  induction es generalizing kinds with
  | nil =>
    obtain rfl : kinds = kinds' := by simpa [openKinds?] using h
    rfl
  | cons e es ih =>
    obtain ⟨next, hnext, hrest⟩ := Option.bind_eq_some_iff.1 h
    have hlater := ih hrest
    rcases follow?_cases hnext with ⟨kind, hb, rfl⟩ | ⟨kind, hb, rfl⟩
    · simp only [List.countP_cons, isClosing, isOpening, hb, List.length_cons] at hlater ⊢
      simp at hlater ⊢
      omega
    · simp only [List.countP_cons, isClosing, isOpening, hb, List.length_cons] at hlater ⊢
      simp at hlater ⊢
      omega

end Event

end AccessGraph
