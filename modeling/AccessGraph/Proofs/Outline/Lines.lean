import AccessGraph.Proofs.Dot.Drawing
import AccessGraph.Render.Outline
/-!
# The lines of an outline

An outline is one text, in which a reader has to find the lines again. Where no label holds a newline,
they are the lines that it has been put together from.

* `Outline.textLines` : the lines of a text that ends with a newline.
* `Outline.treeSection` : the lines of an outline from behind `tree:` on.
* `Outline.visit_cons`, `Outline.treeLines_eq_unfolding` : the walk lists what lies below the first of
  the nodes to visit, and then goes on with the others.
* `Outline.treeSection_outline` : **the lines behind `tree:` are those of the tree.**
-/

namespace AccessGraph

namespace Outline

/-! ### The walk and the recursion -/

/-- The lines of several nodes on one level and of those below them. -/
def unfoldingAll (t : Table) (levels depth : Nat) (ids : List Nat) : List String :=
  ids.flatMap fun id => unfolding t levels depth id

theorem unfolding_none {t : Table} {id : Nat} (h : t.labels[id]? = none) (levels depth : Nat) :
    unfolding t levels depth id = [] := by
  cases levels with
  | zero => rfl
  | succ levels => rw [unfolding, h]

theorem unfolding_some {t : Table} {id : Nat} {label : String} (h : t.labels[id]? = some label)
    (levels depth : Nat) :
    unfolding t (levels + 1) depth id =
      line depth label :: unfoldingAll t levels (depth + 1) (row t id) := by
  rw [unfolding, h]
  rfl

/-- **The walk lists what lies below the first node**, down to the last level, and then goes on. -/
theorem visit_cons (t : Table) (levels depth : Nat) (h : t.count - depth = levels) (id : Nat)
    (lines : List String) (pending : List Visit) :
    visit t lines (⟨id, depth⟩ :: pending) =
      visit t ((unfolding t levels depth id).reverse ++ lines) pending := by
  induction levels generalizing depth id lines pending with
  | zero =>
    rw [visit, unfolding]
    split
    · rfl
    · rw [if_neg (by simp only; omega)]
      rfl
  | succ levels ih =>
    have hall : ∀ (ids : List Nat) (lines : List String),
        visit t lines (ids.map (⟨·, depth + 1⟩) ++ pending) =
          visit t ((unfoldingAll t levels (depth + 1) ids).reverse ++ lines) pending := by
      intro ids
      induction ids with
      | nil => exact fun _ => rfl
      | cons id ids ihids =>
        intro lines
        rw [List.map_cons, List.cons_append, ih (depth + 1) (by omega), ihids]
        simp [unfoldingAll]
    rw [visit]
    cases hlabel : t.labels[id]? with
    | none =>
      rw [unfolding_none hlabel]
      rfl
    | some label =>
      rw [unfolding_some hlabel, List.reverse_cons, List.append_assoc]
      exact (if_pos (by simp only; omega)).trans (hall (row t id) _)

/-- **The walk lists the same lines as the recursion**, which ends on the same level. -/
theorem treeLines_eq_unfolding (t : Table) (root : Nat) :
    treeLines t root = unfolding t t.count 0 root := by
  rw [treeLines, visit_cons t t.count 0 (Nat.sub_zero _), visit, List.append_nil,
    List.reverse_reverse]

/-- Each line of the tree shows a label. -/
theorem exists_of_mem_unfolding {t : Table} {levels depth id : Nat} {text : String}
    (h : text ∈ unfolding t levels depth id) : ∃ depth, ∃ label ∈ t.labels, text = line depth label := by
  induction levels generalizing depth id with
  | zero => simp [unfolding] at h
  | succ levels ih =>
    cases hlabel : t.labels[id]? with
    | none =>
      rw [unfolding_none hlabel] at h
      simp at h
    | some label =>
      rw [unfolding_some hlabel] at h
      rcases List.mem_cons.1 h with rfl | h
      · exact ⟨depth, label, List.mem_of_getElem? hlabel, rfl⟩
      · obtain ⟨child, -, hchild⟩ := List.mem_flatMap.1 h
        exact ih hchild

/-! ### No line breaks -/

/-- The lines of an outline in front of those of the tree, the one that announces it apart. -/
def heading (t : Table) (layout : Layout) : List String :=
  layoutLines layout ++ "children:" :: childrenLines t ++ "labels:" :: labelLines t

theorem newline_not_mem_repr (n : Int) : '\n' ∉ n.repr.toList := by
  cases n with
  | ofNat n =>
    show '\n' ∉ n.repr.toList
    rw [Nat.toList_repr]
    exact Dot.newline_not_mem_toDigits n
  | negSucc n =>
    show '\n' ∉ ("-" ++ (n + 1).repr).toList
    simp [Nat.toList_repr, Dot.newline_not_mem_toDigits]

theorem not_mem_intercalate {c : Char} {sep : List Char} (hsep : c ∉ sep) {parts : List (List Char)}
    (h : ∀ part ∈ parts, c ∉ part) : c ∉ sep.intercalate parts := by
  induction parts with
  | nil => simp [List.intercalate]
  | cons part parts ih =>
    have hpart := h part List.mem_cons_self
    cases parts with
    | nil => simpa [List.intercalate] using hpart
    | cons next parts =>
      have hrest := ih fun part hmem => h part (List.mem_cons_of_mem _ hmem)
      simp [List.intercalate_cons_cons, hsep, hpart, hrest]

/-- No line in front of the tree has a newline, unless it comes from a label, and none is the one that
announces the tree. -/
theorem not_mem_of_mem_heading {t : Table} {layout : Layout} {text : String}
    (h : text ∈ heading t layout) :
    ((∀ label ∈ t.labels, '\n' ∉ label.toList) → '\n' ∉ text.toList) ∧ text ≠ "tree:" := by
  simp only [heading, List.mem_append, List.mem_cons] at h
  rcases h with (h | rfl | h) | rfl | h
  · simp only [layoutLines, List.map_cons, List.map_nil, List.mem_cons, List.not_mem_nil,
      or_false] at h
    rcases h with rfl | rfl | rfl | rfl | rfl | rfl <;>
      exact ⟨fun _ => by simp [newline_not_mem_repr], fun heq => by
        simpa using congrArg String.toList heq⟩
  · exact ⟨fun _ => by decide, by decide⟩
  · obtain ⟨⟨ids, id⟩, -, rfl⟩ := List.mem_map.1 h
    have hids : '\n' ∉ [',', ' '].intercalate (ids.map (String.toList ∘ toString)) := by
      refine not_mem_intercalate (by decide) ?_
      simp [Nat.toList_repr, Dot.newline_not_mem_toDigits]
    refine ⟨fun _ => ?_, fun heq => by simpa using congrArg String.toList heq⟩
    simp [Dot.newline_not_mem_toDigits, hids]
  · exact ⟨fun _ => by decide, by decide⟩
  · obtain ⟨⟨label, id⟩, hmem, rfl⟩ := List.mem_map.1 h
    refine ⟨fun hlabels => ?_, fun heq => by simpa using congrArg String.toList heq⟩
    have hlabel := hlabels label (List.fst_mem_of_mem_zipIdx hmem)
    simp [Dot.newline_not_mem_toDigits, hlabel]

theorem newline_not_mem_line (depth : Nat) {label : String} (h : '\n' ∉ label.toList) :
    '\n' ∉ (line depth label).toList := by
  simp [line, h]

/-! ### Reading an outline -/

/-- The lines of a text that ends with a newline. -/
def textLines (text : String) : List String :=
  (text.toList.splitOn '\n').dropLast.map String.ofList

/-- The lines of an outline that show the tree: those behind the first one that announces it. -/
def treeSection (text : String) : List String :=
  ((textLines text).dropWhile (· ≠ "tree:")).drop 1

/-- Lines with a newline behind each are found again. -/
theorem textLines_intercalate {lines : List String} (hne : lines ≠ [])
    (h : ∀ text ∈ lines, '\n' ∉ text.toList) :
    textLines ("\n".intercalate lines ++ "\n") = lines := by
  have hlast : ∀ parts : List (List Char), parts ≠ [] →
      ['\n'].intercalate parts ++ ['\n'] = ['\n'].intercalate (parts ++ [[]]) := by
    intro parts hparts
    induction parts with
    | nil => exact absurd rfl hparts
    | cons part parts ih =>
      cases parts with
      | nil => simp [List.intercalate]
      | cons next parts =>
        rw [List.cons_append, List.cons_append, List.intercalate_cons_cons,
          List.intercalate_cons_cons, List.append_assoc, ih (List.cons_ne_nil _ _)]
        rfl
  have htext : ("\n".intercalate lines ++ "\n").toList =
      ['\n'].intercalate (lines.map String.toList ++ [[]]) := by
    rw [String.toList_append, String.toList_intercalate]
    exact hlast _ (by simpa using hne)
  rw [textLines, htext, List.splitOn_intercalate '\n' _ (by simp), List.dropLast_concat, List.map_map]
  · exact (List.map_congr_left fun text _ => String.ofList_toList).trans (List.map_id _)
  · intro part hpart
    rcases List.mem_append.1 hpart with hpart | hpart
    · obtain ⟨text, htext, rfl⟩ := List.mem_map.1 hpart
      exact h text htext
    · rw [List.mem_singleton.1 hpart]
      exact List.not_mem_nil

/-- **The lines behind `tree:` are those of the tree**, if no label holds a newline. -/
theorem treeSection_outline {t : Table} (layout : Layout)
    (h : ∀ label ∈ t.labels, '\n' ∉ label.toList) :
    treeSection (t.outline layout) = treeLines t t.rootId := by
  have hlines : textLines (t.outline layout) =
      heading t layout ++ "tree:" :: treeLines t t.rootId := by
    refine textLines_intercalate (by simp) fun text htext => ?_
    rcases List.mem_append.1 htext with htext | htext
    · exact (not_mem_of_mem_heading htext).1 h
    · rcases List.mem_cons.1 htext with rfl | htext
      · decide
      · rw [treeLines_eq_unfolding] at htext
        obtain ⟨depth, label, hlabel, rfl⟩ := exists_of_mem_unfolding htext
        exact newline_not_mem_line depth (h label hlabel)
  have hheading : ∀ text ∈ heading t layout, decide (text ≠ "tree:") = true := fun text htext =>
    decide_eq_true (not_mem_of_mem_heading htext).2
  rw [treeSection, hlines, List.dropWhile_append_of_pos hheading]
  rfl

end Outline

end AccessGraph
