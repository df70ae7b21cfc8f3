import AccessGraph.Proofs.Buffer.Word
import AccessGraph.Proofs.Result
import AccessGraph.Proofs.Table.WellFormed
/-!
# Which tables have a buffer

* `Layout.exact` : the layout of a table, each number of which stands for itself if it fits.
* `Layout.ofTable_eq_ok_iff` : **a table has a layout exactly if it is well-formed and its buffer is
  small enough**, because no number in the layout is larger than the size of the buffer.
-/

namespace AccessGraph

namespace Layout

open Word (limit)

/-- The layout of a table, if all its numbers fit. -/
def exact (t : Table) : Layout where
  rootId := .ofNat t.rootId
  nodeCount := .ofNat t.count
  offsetChildren := .ofNat headerSize
  offsetEdges := .ofNat (edgesStart t)
  offsetLabels := .ofNat (labelsStart t)
  totalSize := .ofNat (size t)

/-! ### Single numbers -/

theorem fit_eq_ok_iff {what : String} {value : Nat} {w : Int32} :
    fit what value = .ok w ↔ value < limit ∧ w = .ofNat value := by
  unfold fit limit
  split
  · rename_i h
    simp only [Except.ok.injEq, h, true_and]
    exact eq_comm
  · rename_i h
    simp [h]

theorem fit_of_lt {what : String} {value : Nat} (h : value < limit) :
    fit what value = .ok (.ofNat value) :=
  fit_eq_ok_iff.2 ⟨h, rfl⟩

theorem fit_eq_error_iff {what : String} {value : Nat} {d : Defect} :
    fit what value = .error d ↔ limit ≤ value ∧ d = .overflow what value := by
  unfold fit limit
  split
  · rename_i h
    simp only [reduceCtorEq, false_iff, not_and]
    exact fun hle => absurd h (Nat.not_lt.2 hle)
  · rename_i h
    simp only [Except.error.injEq, Nat.le_of_not_lt h, true_and]
    exact eq_comm

theorem discard_fit_eq_ok_iff {what : String} {value : Nat} :
    discard (fit what value) = .ok () ↔ value < limit := by
  unfold fit limit
  split <;> rename_i h <;> simp [discard, Functor.discard, Functor.mapConst, Except.map, h]

theorem forM_fit_eq_ok_iff {what : String} {labels : List String} :
    (labels.forM fun label => discard (fit what label.utf8ByteSize)) = .ok () ↔
      ∀ label ∈ labels, label.utf8ByteSize < limit := by
  induction labels with
  | nil => simp [List.forM_nil, pure, Except.pure]
  | cons label labels ih =>
    rw [List.forM_eq_forM] at ih ⊢
    rw [List.forM_cons, bind_eq_ok_iff, List.forall_mem_cons]
    constructor
    · rintro ⟨⟨⟩, hfirst, hrest⟩
      exact ⟨discard_fit_eq_ok_iff.1 hfirst, ih.1 hrest⟩
    · rintro ⟨hfirst, hrest⟩
      exact ⟨(), discard_fit_eq_ok_iff.2 hfirst, ih.2 hrest⟩

/-! ### All numbers -/

theorem utf8ByteSize_le_join {label : String} {labels : List String} (h : label ∈ labels) :
    label.utf8ByteSize ≤ (String.join labels).utf8ByteSize := by
  induction labels with
  | nil => simp at h
  | cons first labels ih =>
    rw [String.join_cons, String.utf8ByteSize_append]
    rcases List.mem_cons.1 h with rfl | hmem
    · omega
    · have := ih hmem
      omega

theorem utf8ByteSize_le_size (t : Table) {label : String} (h : label ∈ t.labels) :
    label.utf8ByteSize ≤ size t := by
  have := utf8ByteSize_le_join h
  unfold size labelsSize
  omega

theorem length_le_flatten {α : Type} {row : List α} {rows : List (List α)} (h : row ∈ rows) :
    row.length ≤ rows.flatten.length :=
  (List.sublist_flatten_of_mem h).length_le

theorem length_row_le_size {t : Table} {ids : List Nat} (h : ids ∈ t.children) :
    ids.length ≤ size t := by
  have := length_le_flatten h
  unfold size labelsStart edgesStart childrenSize wordSize
  omega

theorem length_kinds_le_size {t : Table} {kinds : List EdgeKind} (h : kinds ∈ t.edges) :
    kinds.length ≤ size t := by
  have := length_le_flatten h
  unfold size labelsStart edgesSize wordSize
  omega

theorem count_le_size (t : Table) : t.count ≤ size t := by
  unfold size labelsSize wordSize
  omega

theorem starts_le (t : Table) :
    headerSize ≤ edgesStart t ∧ edgesStart t ≤ labelsStart t ∧ labelsStart t ≤ size t :=
  ⟨Nat.le_add_right _ _, Nat.le_add_right _ _, Nat.le_add_right _ _⟩

/-- The starts of the sections are what their fields stand for. -/
theorem toNatClampNeg_exact {t : Table} (h : size t < limit) :
    (exact t).offsetChildren.toNatClampNeg = headerSize ∧
      (exact t).offsetEdges.toNatClampNeg = edgesStart t ∧
      (exact t).offsetLabels.toNatClampNeg = labelsStart t := by
  have hstarts := starts_le t
  exact ⟨Int32.toNatClampNeg_ofNat_of_lt (show headerSize < limit by decide),
    Int32.toNatClampNeg_ofNat_of_lt (show edgesStart t < limit by omega),
    Int32.toNatClampNeg_ofNat_of_lt (show labelsStart t < limit by omega)⟩

/-- **A table has a layout exactly if it is well-formed and its buffer is small enough.** -/
theorem ofTable_eq_ok_iff {t : Table} {layout : Layout} :
    ofTable t = .ok layout ↔ t.WellFormed ∧ size t < limit ∧ layout = exact t := by
  constructor
  · intro h
    unfold ofTable at h
    obtain ⟨⟨⟩, hcheck, h⟩ := bind_eq_ok_iff.1 h
    obtain ⟨⟨⟩, -, h⟩ := bind_eq_ok_iff.1 h
    obtain ⟨rootId, hroot, h⟩ := bind_eq_ok_iff.1 h
    obtain ⟨nodeCount, hcount, h⟩ := bind_eq_ok_iff.1 h
    obtain ⟨offsetChildren, hchildren, h⟩ := bind_eq_ok_iff.1 h
    obtain ⟨offsetEdges, hedges, h⟩ := bind_eq_ok_iff.1 h
    obtain ⟨offsetLabels, hlabels, h⟩ := bind_eq_ok_iff.1 h
    obtain ⟨totalSize, htotal, h⟩ := bind_eq_ok_iff.1 h
    obtain rfl := (Except.ok.inj h).symm
    refine ⟨Table.check_eq_ok_iff.1 hcheck, (fit_eq_ok_iff.1 htotal).1, ?_⟩
    rw [(fit_eq_ok_iff.1 hroot).2, (fit_eq_ok_iff.1 hcount).2, (fit_eq_ok_iff.1 hchildren).2,
      (fit_eq_ok_iff.1 hedges).2, (fit_eq_ok_iff.1 hlabels).2, (fit_eq_ok_iff.1 htotal).2]
    rfl
  · rintro ⟨hwell, hsize, rfl⟩
    have hcount := count_le_size t
    have hroot := hwell.root
    have hstarts := starts_le t
    have hlabels : ∀ label ∈ t.labels, label.utf8ByteSize < limit := fun label hlabel =>
      Nat.lt_of_le_of_lt (utf8ByteSize_le_size t hlabel) hsize
    rw [ofTable, Table.check_eq_ok_iff.2 hwell, forM_fit_eq_ok_iff.2 hlabels,
      fit_of_lt (by omega), fit_of_lt (by omega), fit_of_lt (by omega), fit_of_lt (by omega),
      fit_of_lt (by omega), fit_of_lt hsize]
    rfl

/-! ### What can go wrong -/

/-- Nothing can go wrong but that a number does not fit. -/
def OnlyOverflows {α : Type} (x : Except Defect α) : Prop :=
  ∀ d, x = .error d → ∃ what value, d = .overflow what value ∧ limit ≤ value

theorem onlyOverflows_ok {α : Type} (a : α) : OnlyOverflows (.ok a) := by
  intro d h
  simp at h

theorem onlyOverflows_fit (what : String) (value : Nat) : OnlyOverflows (fit what value) := by
  intro d h
  obtain ⟨hvalue, hd⟩ := fit_eq_error_iff.1 h
  exact ⟨what, value, hd, hvalue⟩

theorem OnlyOverflows.bind {α β : Type} {x : Except Defect α} {f : α → Except Defect β}
    (hx : OnlyOverflows x) (hf : ∀ a, OnlyOverflows (f a)) : OnlyOverflows (x >>= f) := by
  intro d h
  rcases bind_eq_error_iff.1 h with h | ⟨a, -, h⟩
  · exact hx d h
  · exact hf a d h

theorem onlyOverflows_forM (labels : List String) :
    OnlyOverflows (labels.forM fun label => discard (fit "label length" label.utf8ByteSize)) := by
  induction labels with
  | nil => exact onlyOverflows_ok ()
  | cons label labels ih =>
    rw [List.forM_eq_forM] at ih ⊢
    rw [List.forM_cons]
    refine .bind (fun d h => ?_) fun _ => ih
    refine onlyOverflows_fit "label length" label.utf8ByteSize d ?_
    cases hfit : fit "label length" label.utf8ByteSize with
    | error e => simpa [hfit, discard, Functor.discard, Functor.mapConst, Except.map] using h
    | ok w => simp [hfit, discard, Functor.discard, Functor.mapConst, Except.map] at h

/-- **Nothing can be wrong with a well-formed table** but that a number does not fit. -/
theorem onlyOverflows_ofTable {t : Table} (h : t.WellFormed) : OnlyOverflows (ofTable t) := by
  rw [ofTable, Table.check_eq_ok_iff.2 h]
  refine .bind (onlyOverflows_ok ()) fun _ => .bind (onlyOverflows_forM t.labels) fun _ => ?_
  refine .bind (onlyOverflows_fit _ _) fun _ => .bind (onlyOverflows_fit _ _) fun _ => ?_
  refine .bind (onlyOverflows_fit _ _) fun _ => .bind (onlyOverflows_fit _ _) fun _ => ?_
  refine .bind (onlyOverflows_fit _ _) fun _ => .bind (onlyOverflows_fit _ _) fun _ => ?_
  exact onlyOverflows_ok _

end Layout

end AccessGraph
