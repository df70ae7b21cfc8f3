import AccessGraph.Assembly.Readout
import AccessGraph.Proofs.Event.Nesting
/-!
# Which streams of events assemble

An assembly that has taken events without a violation keeps the kinds of its open scopes, above the
root, exactly as `Event.openKinds?` follows them (`Assembly.Follows`). The first event that cannot
be followed is the one that is reported, and nothing that comes after it is heard.

* `Assembly.Commits` : the violation that leaving a scope commits after some events, told by
  well-nested streams only.
* `Assembly.verdict` : **a tree comes out of exactly the well-nested streams; otherwise the first
  violation is reported, or the number of scopes left open.**
-/

namespace AccessGraph

namespace Assembly

/-- Nothing has been violated, and these are the kinds of the open scopes, the root left out. -/
structure Follows (s : Assembly) (kinds : List ScopeKind) : Prop where
  sound : s.violation = none
  scopes : s.scopes.map (·.kind) = kinds ++ [.root]
  inner : .root ∉ kinds

/-- The violation of leaving a scope of kind `left` while scopes of some kinds are open. -/
def violationOf (left : ScopeKind) : List ScopeKind → Violation
  | [] => .underflow left
  | found :: _ => .mismatch left found

theorem follows_start : start.Follows [] := ⟨rfl, rfl, by simp⟩

theorem Follows.depth_eq {s : Assembly} {kinds : List ScopeKind} (h : s.Follows kinds) :
    s.depth = kinds.length := by
  have hlength := congrArg List.length h.scopes
  simp only [List.length_map, List.length_append, List.length_singleton] at hlength
  rw [depth, hlength, Nat.add_sub_cancel]

theorem run_append (s : Assembly) (es fs : List Event) : s.run (es ++ fs) = (s.run es).run fs :=
  List.foldl_append

theorem run_cons (s : Assembly) (e : Event) (es : List Event) :
    s.run (e :: es) = (s.step e).run es := rfl

/-! ### One event -/

theorem step_of_violation {s : Assembly} {v : Violation} (h : s.violation = some v) (e : Event) :
    s.step e = { s with events := s.events + 1 } := by
  simp [step, h]

theorem step_of_sound {s : Assembly} (h : s.violation = none) (e : Event) :
    s.step e = { s with events := s.events + 1 }.apply e := by
  simp [step, h]

theorem apply_closing {e : Event} {kind : ScopeKind} (h : e.bracket = .closing kind)
    (s : Assembly) : s.apply e = s.exit kind := by
  cases e <;> simp_all [Event.bracket, apply]

theorem Follows.counted {s : Assembly} {kinds : List ScopeKind} (h : s.Follows kinds) (n : Nat) :
    { s with events := n }.Follows kinds :=
  ⟨h.sound, h.scopes, h.inner⟩

theorem Follows.openScope {s : Assembly} {kinds : List ScopeKind} (h : s.Follows kinds)
    {kind : ScopeKind} (hkind : kind ≠ .root) (label : String) (leaves : List String)
    (parent : Option Scope) : (s.openScope kind label leaves parent).Follows (kind :: kinds) where
  sound := h.sound
  scopes := by simp [Assembly.openScope, h.scopes]
  inner := by simp [Ne.symm hkind, h.inner]

theorem Follows.apply_opening {s : Assembly} {kinds : List ScopeKind} (h : s.Follows kinds)
    {e : Event} {kind : ScopeKind} (he : e.bracket = .opening kind) :
    (s.apply e).Follows (kind :: kinds) := by
  cases e with
  | enterLoop v n x =>
    obtain rfl : .loop = kind := by simpa [Event.bracket] using he
    exact h.openScope (by decide) _ _ _
  | enterMemory buffer index =>
    obtain rfl : .memory = kind := by simpa [Event.bracket] using he
    exact h.openScope (by decide) _ _ _
  | exitLoop => simp [Event.bracket] at he
  | exitMemory => simp [Event.bracket] at he

theorem Follows.exit {s : Assembly} {kind : ScopeKind} {kinds : List ScopeKind}
    (h : s.Follows (kind :: kinds)) : (s.exit kind).Follows kinds := by
  obtain ⟨scope, outer, hs, rfl, houter⟩ := List.map_eq_cons_iff.1 h.scopes
  have hne : scope.kind ≠ .root := fun hk => h.inner (hk ▸ List.mem_cons_self)
  have hexit : s.exit scope.kind = { s with scopes := outer } := by simp [Assembly.exit, hs, hne]
  rw [hexit]
  exact ⟨h.sound, houter, fun hmem => h.inner (List.mem_cons_of_mem _ hmem)⟩

/-- A scope that is not the innermost cannot be left. -/
theorem Follows.exit_of_leave?_eq_none {s : Assembly} {left : ScopeKind} {kinds : List ScopeKind}
    (h : s.Follows kinds) (hleave : Event.leave? left kinds = none) :
    s.exit left = { s with violation := some (violationOf left kinds) } := by
  cases kinds with
  | nil =>
    obtain ⟨scope, outer, hs, hroot, -⟩ := List.map_eq_cons_iff.1 h.scopes
    simp [Assembly.exit, hs, hroot, violationOf]
  | cons found kinds =>
    obtain ⟨scope, outer, hs, rfl, -⟩ := List.map_eq_cons_iff.1 h.scopes
    have hroot : scope.kind ≠ .root := fun hk => h.inner (hk ▸ List.mem_cons_self)
    have hleft : scope.kind ≠ left := by
      rintro rfl
      simp at hleave
    simp [Assembly.exit, hs, hroot, hleft, violationOf]

/-- **An event that can be followed** changes the open scopes as `Event.follow?` says. -/
theorem Follows.step {s : Assembly} {kinds next : List ScopeKind} {e : Event}
    (h : s.Follows kinds) (hnext : Event.follow? kinds e = some next) :
    (s.step e).Follows next := by
  rw [step_of_sound h.sound]
  rcases Event.follow?_cases hnext with ⟨kind, hb, rfl⟩ | ⟨kind, hb, rfl⟩
  · exact (h.counted _).apply_opening hb
  · rw [apply_closing hb]
    exact (h.counted _).exit

/-- **An event that cannot be followed** closes a scope of the wrong kind, and nothing is left of it
but the violation. -/
theorem Follows.step_of_follow?_eq_none {s : Assembly} {kinds : List ScopeKind} {e : Event}
    (h : s.Follows kinds) (hnone : Event.follow? kinds e = none) :
    ∃ left, e.bracket = .closing left ∧ Event.leave? left kinds = none ∧
      (s.step e).violation = some (violationOf left kinds) ∧ (s.step e).scopes = s.scopes := by
  cases hb : e.bracket with
  | opening kind => simp [Event.follow?_opening hb] at hnone
  | closing left =>
    rw [Event.follow?_closing hb] at hnone
    refine ⟨left, rfl, hnone, ?_⟩
    rw [step_of_sound h.sound, apply_closing hb, (h.counted _).exit_of_leave?_eq_none hnone]
    exact ⟨rfl, rfl⟩

/-! ### Many events -/

theorem Follows.run {s : Assembly} {kinds next : List ScopeKind} {es : List Event}
    (h : s.Follows kinds) (hnext : Event.openKinds? kinds es = some next) :
    (s.run es).Follows next := by
  induction es generalizing s kinds with
  | nil =>
    obtain rfl : kinds = next := by simpa [Event.openKinds?] using hnext
    exact h
  | cons e es ih =>
    obtain ⟨kinds', hfirst, hrest⟩ := Option.bind_eq_some_iff.1 hnext
    rw [run_cons]
    exact ih (h.step hfirst) hrest

/-- After a violation the events are only counted. -/
theorem run_of_violation {s : Assembly} {v : Violation} (h : s.violation = some v)
    (es : List Event) : s.run es = { s with events := s.events + es.length } := by
  induction es generalizing s with
  | nil => rfl
  | cons e es ih =>
    have hnext : { s with events := s.events + 1 }.violation = some v := h
    rw [run_cons, step_of_violation h, ih hnext]
    simp [Nat.add_assoc, Nat.add_comm 1]

theorem finish_of_violation {s : Assembly} {v : Violation} (h : s.violation = some v) :
    s.finish = .error v := by
  simp [finish, h]

/-- With no open scopes there is a tree, otherwise their number is reported. -/
theorem Follows.finish {s : Assembly} {kinds : List ScopeKind} (h : s.Follows kinds) :
    s.finish = if kinds = [] then .ok s.tree else .error (.unterminated kinds.length) := by
  have hlength : s.scopes.length = kinds.length + 1 := by
    simpa using congrArg List.length h.scopes
  rw [Assembly.finish, h.sound, h.depth_eq, hlength]
  simp

/-! ### The verdict -/

/-- The violation that leaving a scope of kind `left` commits after some events. -/
inductive Commits (es : List Event) (left : ScopeKind) : Violation → Prop
  /-- No scope is open: each one that was opened has been closed again. -/
  | underflow : Event.Nested es → Commits es left (.underflow left)
  /-- The innermost open scope, inside of which all is well-nested, is of another kind. -/
  | mismatch {before inside : List Event} {enter : Event} {found : ScopeKind} :
      es = before ++ enter :: inside → enter.bracket = .opening found → Event.Nested inside →
      found ≠ left → Commits es left (.mismatch left found)

theorem commits_of_openKinds? {es : List Event} {left : ScopeKind} {kinds : List ScopeKind}
    (h : Event.openKinds? [] es = some kinds) (hleave : Event.leave? left kinds = none) :
    Commits es left (violationOf left kinds) := by
  cases kinds with
  | nil => exact .underflow (Event.nested_iff_openKinds?.2 h)
  | cons found outer =>
    obtain ⟨before, enter, inside, hes, henter, hinside, -⟩ := Event.exists_innermost h
    refine .mismatch hes henter hinside ?_
    rintro rfl
    simp at hleave

/-- The first event that makes a stream impossible to extend is reported, whatever follows it. -/
theorem ofEvents_of_not_extendable {es : List Event} {e : Event} (hes : Event.Extendable es)
    (he : ¬ Event.Extendable (es ++ [e])) :
    ∃ left violation, e.bracket = .closing left ∧ Commits es left violation ∧
      ∀ later, ofEvents (es ++ e :: later) = .error violation ∧
        (start.run (es ++ e :: later)).depth = (start.run es).depth := by
  obtain ⟨kinds, hkinds⟩ := Event.extendable_iff_openKinds?.1 hes
  have hfollows : (start.run es).Follows kinds := follows_start.run hkinds
  have hnone : Event.follow? kinds e = none := by
    by_contra hsome
    obtain ⟨next, hnext⟩ := Option.ne_none_iff_exists'.1 hsome
    refine he (Event.extendable_iff_openKinds?.2 ⟨next, ?_⟩)
    rw [Event.openKinds?_append, hkinds]
    simpa using hnext
  obtain ⟨left, hb, hleave, hviolation, hscopes⟩ := hfollows.step_of_follow?_eq_none hnone
  refine ⟨left, _, hb, commits_of_openKinds? hkinds hleave, fun later => ?_⟩
  have hrun : start.run (es ++ e :: later) = { (start.run es).step e with
      events := ((start.run es).step e).events + later.length } := by
    rw [run_append, run_cons, run_of_violation hviolation]
  constructor
  · rw [ofEvents, hrun]
    exact finish_of_violation hviolation
  · rw [hrun, depth, depth, hscopes]

theorem ofEvents_of_openKinds? {es : List Event} {kinds : List ScopeKind}
    (h : Event.openKinds? [] es = some kinds) :
    ofEvents es = if kinds = [] then .ok (start.run es).tree
      else .error (.unterminated kinds.length) :=
  (follows_start.run h).finish

/-- **A tree comes out exactly if the stream is well-nested.** -/
theorem exists_ofEvents_eq_ok_iff {es : List Event} :
    (∃ t, ofEvents es = .ok t) ↔ Event.Nested es := by
  constructor
  · rintro ⟨t, ht⟩
    by_cases hes : Event.Extendable es
    · obtain ⟨kinds, hkinds⟩ := Event.extendable_iff_openKinds?.1 hes
      rw [ofEvents_of_openKinds? hkinds] at ht
      split at ht
      · rename_i hnil
        exact Event.nested_iff_openKinds?.2 (hnil ▸ hkinds)
      · simp at ht
    · obtain ⟨p, e, q, rfl, hp, hpe⟩ := Event.exists_shortest_of_not_extendable hes
      obtain ⟨_, violation, -, -, hlater⟩ := ofEvents_of_not_extendable hp hpe
      rw [(hlater q).1] at ht
      simp at ht
  · intro h
    exact ⟨_, ofEvents_of_openKinds? (Event.nested_iff_openKinds?.1 h)⟩

/-- **The verdict on a stream of events.** A tree comes out exactly if the stream is well-nested. If
some beginning cannot be extended to a well-nested stream, the shortest one ends with the leaving of
a scope, the violation of which is reported, and no later event changes that report or the depth. If
all beginnings can be extended, the number of open scopes is reported. Up to a violation the depth
is the number of scopes that were opened without those that were closed. -/
theorem verdict (es : List Event) :
    ((∃ t, ofEvents es = .ok t) ↔ Event.Nested es) ∧
    (¬ Event.Extendable es → ∃ p e q left violation, es = p ++ e :: q ∧
      (∀ p', p' <+: p → Event.Extendable p') ∧ ¬ Event.Extendable (p ++ [e]) ∧
      e.bracket = .closing left ∧ Commits p left violation ∧
      ∀ later, ofEvents (p ++ e :: later) = .error violation ∧
        (start.run (p ++ e :: later)).depth = (start.run p).depth) ∧
    (Event.Extendable es → ¬ Event.Nested es →
      ofEvents es = .error (.unterminated (start.run es).depth)) ∧
    (∀ p, p <+: es → Event.Extendable p →
      (start.run p).depth + p.countP Event.isClosing = p.countP Event.isOpening) := by
  refine ⟨exists_ofEvents_eq_ok_iff, fun hes => ?_, fun hes hnested => ?_, fun p _ hp => ?_⟩
  · obtain ⟨p, e, q, heq, hp, hpe⟩ := Event.exists_shortest_of_not_extendable hes
    obtain ⟨left, violation, hb, hcommits, hlater⟩ := ofEvents_of_not_extendable hp hpe
    exact ⟨p, e, q, left, violation, heq, fun p' => hp.of_prefix, hpe, hb, hcommits, hlater⟩
  · obtain ⟨kinds, hkinds⟩ := Event.extendable_iff_openKinds?.1 hes
    have hne : kinds ≠ [] := by
      rintro rfl
      exact hnested (Event.nested_iff_openKinds?.2 hkinds)
    rw [ofEvents_of_openKinds? hkinds, if_neg hne, (follows_start.run hkinds).depth_eq]
  · obtain ⟨kinds, hkinds⟩ := Event.extendable_iff_openKinds?.1 hp
    rw [(follows_start.run hkinds).depth_eq]
    simpa using Event.length_add_countP_of_openKinds? hkinds

end Assembly

end AccessGraph
