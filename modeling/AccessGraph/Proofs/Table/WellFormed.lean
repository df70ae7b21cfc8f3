import AccessGraph.Table.Basic
import Mathlib.Data.List.Basic
/-!
# Tables whose rows belong together

What can be wrong with a table is looked for in a fixed order: the rows that both the children and
the edge kinds have, the numbers of rows, the root, and the children row by row.

* `Table.WellFormed` : every row has as many edge kinds as children, there are as many rows as labels,
  and all numbers name a node.
* `Table.FirstDefect` : a defect, with all that has to be in order before it is found.
* `Table.misaligned?_eq_some_iff` : the search for a row finds the first one that is not aligned.
* `Table.check_cases` : **the check finds nothing in a well-formed table, and otherwise the first
  defect**; hence `Table.check_eq_ok_iff` and `Table.check_eq_error_iff`.
-/

namespace AccessGraph

namespace Table

/-- All rows belong together, and all numbers name a node. -/
structure WellFormed (t : Table) : Prop where
  /-- Each row has as many edge kinds as children. -/
  aligned : t.children.map List.length = t.edges.map List.length
  /-- There is a row for each label. -/
  rows : t.children.length = t.count
  /-- The root is a node. -/
  root : t.rootId < t.count
  /-- All children are nodes. -/
  ids : ∀ id ∈ t.children.flatten, id < t.count

/-- The rows of number `i` belong together, if both lists have one. -/
def AlignedAt (children : List (List Nat)) (edges : List (List EdgeKind)) (i : Nat) : Prop :=
  ∀ ids kinds, children[i]? = some ids → edges[i]? = some kinds → ids.length = kinds.length

/-- All rows that both lists have belong together. -/
def Aligned (t : Table) : Prop := ∀ i, AlignedAt t.children t.edges i

/-- There is a row for each label in both lists. -/
def Counted (t : Table) : Prop := t.children.length = t.count ∧ t.edges.length = t.count

/-- The first defect of a table. Each kind of defect asks that there is none of the kinds before. -/
inductive FirstDefect (t : Table) : Defect → Prop
  /-- Of the rows that both lists have, this is the first one that is not aligned. -/
  | row {i : Nat} {ids : List Nat} {kinds : List EdgeKind} :
      t.children[i]? = some ids → t.edges[i]? = some kinds → ids.length ≠ kinds.length →
      (∀ j < i, AlignedAt t.children t.edges j) →
      FirstDefect t (.misaligned i ids.length kinds.length)
  /-- The three lists have different numbers of rows. -/
  | counts : t.Aligned → ¬ t.Counted →
      FirstDefect t (.misaligned t.count t.children.length t.edges.length)
  /-- The root is no row. -/
  | root : t.Aligned → t.Counted → t.count ≤ t.rootId →
      FirstDefect t (.danglingRoot t.rootId t.count)
  /-- Of the children, row by row, this is the first one that is no row. -/
  | child {before after : List Nat} {id : Nat} :
      t.Aligned → t.Counted → t.rootId < t.count →
      t.children.flatten = before ++ id :: after → (∀ other ∈ before, other < t.count) →
      t.count ≤ id →
      FirstDefect t (.danglingChild id t.count)

theorem WellFormed.edges_length {t : Table} (h : t.WellFormed) : t.edges.length = t.count := by
  have hlength := congrArg List.length h.aligned
  rw [List.length_map, List.length_map] at hlength
  rw [← hlength, h.rows]

/-! ### Rows -/

@[simp] theorem alignedAt_cons_zero {ids : List Nat} {kinds : List EdgeKind}
    {children : List (List Nat)} {edges : List (List EdgeKind)} :
    AlignedAt (ids :: children) (kinds :: edges) 0 ↔ ids.length = kinds.length := by
  simp [AlignedAt]

@[simp] theorem alignedAt_cons_succ {ids : List Nat} {kinds : List EdgeKind}
    {children : List (List Nat)} {edges : List (List EdgeKind)} {i : Nat} :
    AlignedAt (ids :: children) (kinds :: edges) (i + 1) ↔ AlignedAt children edges i := by
  simp [AlignedAt]

/-- **The search for a row that is not aligned finds the first one.** -/
theorem misaligned?_eq_some_iff {row : Nat} {children : List (List Nat)}
    {edges : List (List EdgeKind)} {d : Defect} :
    misaligned? row children edges = some d ↔
      ∃ i ids kinds, children[i]? = some ids ∧ edges[i]? = some kinds ∧
        ids.length ≠ kinds.length ∧ (∀ j < i, AlignedAt children edges j) ∧
        d = .misaligned (row + i) ids.length kinds.length := by
  induction children generalizing row edges with
  | nil => simp [misaligned?]
  | cons ids children ih =>
    cases edges with
    | nil => simp [misaligned?]
    | cons kinds edges =>
      rw [misaligned?]
      constructor
      · intro h
        split at h
        · rename_i hne
          refine ⟨0, ids, kinds, rfl, rfl, hne, by simp, ?_⟩
          simpa using h.symm
        · rename_i heq
          obtain ⟨i, ids', kinds', hids, hkinds, hne, hbefore, rfl⟩ := ih.1 h
          refine ⟨i + 1, ids', kinds', hids, hkinds, hne, fun j hj => ?_, by
            rw [Nat.add_assoc, Nat.add_comm 1]⟩
          cases j with
          | zero => simpa using heq
          | succ j => exact alignedAt_cons_succ.2 (hbefore j (by omega))
      · rintro ⟨i, ids', kinds', hids, hkinds, hne, hbefore, rfl⟩
        cases i with
        | zero =>
          obtain rfl : ids = ids' := by simpa using hids
          obtain rfl : kinds = kinds' := by simpa using hkinds
          rw [if_pos hne]
          rfl
        | succ i =>
          have hfirst : ids.length = kinds.length := alignedAt_cons_zero.1 (hbefore 0 (by omega))
          rw [if_neg (by simpa using hfirst)]
          refine ih.2 ⟨i, ids', kinds', hids, hkinds, hne, fun j hj => ?_, by
            rw [Nat.add_assoc, Nat.add_comm 1]⟩
          exact alignedAt_cons_succ.1 (hbefore (j + 1) (by omega))

/-- The search finds no row exactly if all rows that both lists have are aligned. -/
theorem misaligned?_eq_none_iff {row : Nat} {children : List (List Nat)}
    {edges : List (List EdgeKind)} :
    misaligned? row children edges = none ↔ ∀ i, AlignedAt children edges i := by
  constructor
  · intro h i
    -- a row that is not aligned, with none before it, would be found
    induction i using Nat.strongRecOn with
    | ind i ih =>
      intro ids kinds hids hkinds
      by_contra hne
      have hfound := (@misaligned?_eq_some_iff row children edges _).2
        ⟨i, ids, kinds, hids, hkinds, hne, ih, rfl⟩
      simp [h] at hfound
  · intro h
    refine Option.eq_none_iff_forall_ne_some.2 fun d hd => ?_
    obtain ⟨i, ids, kinds, hids, hkinds, hne, -, -⟩ := misaligned?_eq_some_iff.1 hd
    exact hne (h i ids kinds hids hkinds)

theorem alignedAt_iff_map {children : List (List Nat)} {edges : List (List EdgeKind)}
    (h : children.length = edges.length) :
    (∀ i, AlignedAt children edges i) ↔ children.map List.length = edges.map List.length := by
  constructor
  · intro haligned
    refine List.ext_getElem (by simpa using h) fun i hi hi' => ?_
    rw [List.getElem_map, List.getElem_map]
    exact haligned i _ _ (List.getElem?_eq_getElem _) (List.getElem?_eq_getElem _)
  · intro hmap i ids kinds hids hkinds
    have hrow := congrArg (·[i]?) hmap
    simpa [hids, hkinds] using hrow

theorem wellFormed_iff {t : Table} : t.WellFormed ↔
    t.Aligned ∧ t.Counted ∧ t.rootId < t.count ∧ ∀ id ∈ t.children.flatten, id < t.count := by
  constructor
  · intro h
    have hcounted : t.Counted := ⟨h.rows, h.edges_length⟩
    exact ⟨(alignedAt_iff_map (hcounted.1.trans hcounted.2.symm)).2 h.aligned, hcounted, h.root,
      h.ids⟩
  · rintro ⟨haligned, hcounted, hroot, hids⟩
    exact ⟨(alignedAt_iff_map (hcounted.1.trans hcounted.2.symm)).1 haligned, hcounted.1, hroot,
      hids⟩

/-! ### Children -/

theorem danglingChild?_eq_none_iff {count : Nat} {children : List (List Nat)} :
    danglingChild? count children = none ↔ ∀ id ∈ children.flatten, id < count := by
  rw [danglingChild?, List.find?_eq_none]
  simp only [decide_eq_true_eq, Nat.not_le]

/-- The search for a child that is no row finds the first one. -/
theorem danglingChild?_eq_some_iff {count id : Nat} {children : List (List Nat)} :
    danglingChild? count children = some id ↔
      ∃ before after, children.flatten = before ++ id :: after ∧
        (∀ other ∈ before, other < count) ∧ count ≤ id := by
  rw [danglingChild?, List.find?_eq_some_iff_append]
  simp only [decide_eq_true_eq, Bool.not_eq_true', decide_eq_false_iff_not, Nat.not_le]
  constructor
  · rintro ⟨hid, before, after, hids, hbefore⟩
    exact ⟨before, after, hids, hbefore, hid⟩
  · rintro ⟨before, after, hids, hbefore, hid⟩
    exact ⟨hid, before, after, hids, hbefore⟩

/-! ### The check -/

/-- **The check finds nothing in a well-formed table, and otherwise the first defect.** -/
theorem check_cases (t : Table) :
    (t.check = .ok () ∧ t.WellFormed) ∨ ∃ d, t.check = .error d ∧ t.FirstDefect d := by
  -- each defect is looked for after the ones before it have been excluded
  cases hrow : misaligned? 0 t.children t.edges with
  | some d =>
    obtain ⟨i, ids, kinds, hids, hkinds, hne, hbefore, rfl⟩ := misaligned?_eq_some_iff.1 hrow
    rw [Nat.zero_add] at hrow
    exact .inr ⟨_, by rw [check, hrow], .row hids hkinds hne hbefore⟩
  | none =>
    have haligned : t.Aligned := misaligned?_eq_none_iff.1 hrow
    by_cases hcounted : t.Counted
    · obtain ⟨hchildren, hedges⟩ := id hcounted
      by_cases hroot : t.rootId < t.count
      · cases hchild : danglingChild? t.count t.children with
        | some id =>
          obtain ⟨before, after, hids, hbefore, hid⟩ := danglingChild?_eq_some_iff.1 hchild
          refine .inr ⟨_, ?_, .child haligned hcounted hroot hids hbefore hid⟩
          simp [check, hrow, hchildren, hedges, Nat.not_le_of_lt hroot, hchild]
        | none =>
          have hids := danglingChild?_eq_none_iff.1 hchild
          refine .inl ⟨?_, wellFormed_iff.2 ⟨haligned, hcounted, hroot, hids⟩⟩
          simp [check, hrow, hchildren, hedges, Nat.not_le_of_lt hroot, hchild]
      · have hroot := Nat.le_of_not_lt hroot
        refine .inr ⟨_, ?_, .root haligned hcounted hroot⟩
        simp [check, hrow, hchildren, hedges, hroot]
    · refine .inr ⟨_, ?_, .counts haligned hcounted⟩
      rw [check, hrow]
      exact if_pos (not_and_or.1 hcounted)

/-- **The check accepts exactly the well-formed tables.** -/
theorem check_eq_ok_iff {t : Table} : t.check = .ok () ↔ t.WellFormed := by
  constructor
  · intro h
    obtain ⟨-, hwell⟩ | ⟨d, herror, -⟩ := check_cases t
    · exact hwell
    · simp [herror] at h
  · intro h
    obtain ⟨haligned, ⟨hchildren, hedges⟩, hroot, hids⟩ := wellFormed_iff.1 h
    rw [check, misaligned?_eq_none_iff.2 haligned]
    simp [hchildren, hedges, Nat.not_le_of_lt hroot, danglingChild?_eq_none_iff.2 hids]

/-- **The check reports the first defect**, and nothing else. -/
theorem check_eq_error_iff {t : Table} {d : Defect} : t.check = .error d ↔ t.FirstDefect d := by
  constructor
  · intro h
    obtain ⟨hok, -⟩ | ⟨d', herror, hfirst⟩ := check_cases t
    · simp [hok] at h
    · obtain rfl := Except.error.inj (herror.symm.trans h)
      exact hfirst
  · intro h
    unfold check
    cases h with
    | row hids hkinds hne hbefore =>
      rw [misaligned?_eq_some_iff.2 ⟨_, _, _, hids, hkinds, hne, hbefore, rfl⟩, Nat.zero_add]
    | counts haligned hcounted =>
      rw [misaligned?_eq_none_iff.2 haligned]
      exact if_pos (not_and_or.1 hcounted)
    | root haligned hcounted hroot =>
      rw [misaligned?_eq_none_iff.2 haligned]
      simp [hcounted.1, hcounted.2, hroot]
    | child haligned hcounted hroot hids hbefore hid =>
      rw [misaligned?_eq_none_iff.2 haligned]
      simp [hcounted.1, hcounted.2, hroot, danglingChild?_eq_some_iff.2 ⟨_, _, hids, hbefore, hid⟩]

end Table

end AccessGraph
