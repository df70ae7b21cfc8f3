import AccessGraph.Program.Decode
import AccessGraph.Program.Encode
import AccessGraph.Proofs.Json.Variant
/-!
# Programs are read back from JSON

* `Shape.Stands` : a value stands for a part of a program, and is decoded to it at any depth that
  its nesting allows.
* `Expr.given`, `Stmt.given` : **the object of an expression or a statement stands for it.**
* `Expr.floats`, `Stmt.floats` : the float literals of a program.
* `Expr.readable`, `Stmt.readable` : a program whose float literals are read back has a readable
  object.
* `Stmt.ofJson_write` : **a program is read back from its text**, however that is spaced, exactly if
  its brackets lie no deeper inside each other than is allowed.
-/

namespace AccessGraph

open Json

/-! ### Values that stand for parts -/

namespace Shape

/-- The value stands for the part, to which it is decoded at any depth that its nesting allows. -/
def Stands (s : Shape) (v : Value) (x : s.Carrier) : Prop :=
  ∀ depth, v.nesting ≤ depth → decode depth s v = .ok x

/-- At every depth a part is decoded by `decodeWith`. -/
theorem decode_eq_decodeWith (depth : Nat) : ∃ part, decode depth = decodeWith part := by
  cases depth with
  | zero => exact ⟨_, rfl⟩
  | succ depth => exact ⟨_, rfl⟩

/-- Parts that are decoded on the spot. -/
theorem stands_of_decodeWith {s : Shape} {v : Value} {x : s.Carrier}
    (h : ∀ part, decodeWith part s v = .ok x) : s.Stands v x := by
  intro depth _
  obtain ⟨part, hpart⟩ := decode_eq_decodeWith depth
  rw [hpart, h part]

/-- Parts that are decoded one bracket further in. -/
theorem stands_of_decode {s : Shape} {v : Value} {x : s.Carrier} {nesting : Nat}
    (hnesting : v.nesting = 1 + nesting)
    (h : ∀ depth, nesting ≤ depth → decodeWith (decode depth) s v = .ok x) : s.Stands v x := by
  intro depth hdepth
  cases depth with
  | zero =>
    -- a value with a bracket is nested too deep already
    omega
  | succ depth => exact h depth (by omega)

theorem stands_string (s : String) : Stands .string (.string s) s :=
  stands_of_decodeWith fun _ => rfl

theorem stands_int (n : Int64) : Stands .int (.number (.int n.toInt)) n := by
  refine stands_of_decodeWith fun part => ?_
  have hrange : Int64.minValue.toInt ≤ n.toInt ∧ n.toInt ≤ Int64.maxValue.toInt :=
    ⟨n.minValue_le_toInt, n.toInt_le⟩
  show (decodeInteger Int64.minValue.toInt Int64.maxValue.toInt "i64" (.number (.int n.toInt)) >>=
    fun n => .ok (Int64.ofInt n)) = _
  rw [decodeInteger, if_pos hrange]
  exact congrArg Except.ok (Int64.ofInt_toInt n)

theorem stands_word (n : UInt32) : Stands .word (.number (.int n.toNat)) n := by
  refine stands_of_decodeWith fun part => ?_
  have hrange : (0 : Int) ≤ n.toNat ∧ (n.toNat : Int) ≤ 0xffffffff := by
    have := n.toNat_lt
    omega
  show (decodeInteger 0 0xffffffff "u32" (.number (.int n.toNat)) >>=
    fun n => .ok (UInt32.ofNat n.toNat)) = _
  rw [decodeInteger, if_pos hrange]
  exact congrArg Except.ok UInt32.ofNat_toNat

theorem stands_float (x : Float) : Stands .float (.number (.double x)) x :=
  stands_of_decodeWith fun _ => rfl

theorem stands_loopKind (k : LoopKind) : Stands .loopKind (.string k.name) k := by
  refine stands_of_decodeWith fun part => ?_
  cases k <;> rfl

theorem stands_operator (o : Operator) : Stands .operator (.string o.name) o := by
  refine stands_of_decodeWith fun part => ?_
  cases o <;> rfl

theorem stands_none (s : Shape) : Stands (.option s) .null none :=
  stands_of_decodeWith fun _ => rfl

/-- A part that may be absent is present where its value is an object. -/
theorem stands_some {s : Shape} {v : Value} {x : s.Carrier} (hv : ∃ members, v = .object members)
    (h : s.Stands v x) : Stands (.option s) v (some x) := by
  obtain ⟨members, rfl⟩ := hv
  intro depth hdepth
  have hx := h depth hdepth
  obtain ⟨part, hpart⟩ := decode_eq_decodeWith depth
  rw [hpart] at hx ⊢
  show (decodeWith part s (.object members) >>= fun x => .ok (some x)) = _
  rw [hx]
  rfl

/-- The items of an array stand for the parts of a list. -/
theorem stands_list {s : Shape} {vs : List Value} {xs : List s.Carrier}
    (h : List.Forall₂ s.Stands vs xs) : Stands (.list s) (.array vs) xs := by
  refine stands_of_decode (by rw [Value.nesting]) fun depth hdepth => ?_
  show vs.mapM (decode depth s) = .ok xs
  induction h with
  | nil => rfl
  | cons hfirst _ ih =>
    rw [Value.nestingItems] at hdepth
    obtain ⟨hv, hvs⟩ := Nat.max_le.1 hdepth
    rw [List.mapM_cons, hfirst depth hv]
    show (List.mapM (decode depth s) _ >>= fun xs => .ok (_ :: xs)) = _
    rw [ih hvs]
    rfl

/-! ### Objects -/

/-- Members that stand for the fields of a record are decoded to these. -/
theorem decode_of_stands {fs : List (Field Carrier)} {members : List (String × Value)}
    {record : Record Carrier fs} (h : Record.Given Stands fs members record) {depth : Nat}
    (hdepth : Value.nestingMembers members ≤ depth) :
    Record.Given (fun s v x => decode depth s v = .ok x) fs members record :=
  h.imp fun _ hm _ _ hx => hx depth (Nat.le_trans (Value.nesting_le_nestingMembers hm) hdepth)

theorem stands_var (v : Var) : Stands .var v.toJson v := by
  have hfields : Record.Given Stands Var.fields v.toFields (v.name, v.id, ()) :=
    ⟨rfl, stands_string v.name, rfl, stands_word v.id, trivial⟩
  let variant : Variant Carrier Var := ⟨"", Var.title, Var.fields, Var.ofFields⟩
  have hnames : (variant.fields.map (·.name)).Nodup := by decide
  refine stands_of_decode (by rw [Var.toJson, Value.nesting]) fun depth hdepth => ?_
  exact Tagged.decode_of_given hnames (decode_of_stands hfields hdepth)

/-- The tag takes no bracket. -/
theorem nesting_tagged (tag : String) (fields : List (String × Value)) :
    (tagged tag fields).nesting = 1 + Value.nestingMembers fields := by
  simp [tagged, Value.nesting, Value.nestingMembers]

/-- A value of several variants is decoded to what it stands for. -/
theorem ofValue_of_stands {α : Type} {choice : Choice Carrier α} (hchoice : choice.Distinct)
    {v : Value} {x : α} (h : choice.Given Stands v x) :
    ∃ nesting, v.nesting = 1 + nesting ∧ ∀ depth, nesting ≤ depth →
      (Tagged.ofValue choice v >>= Tagged.decode (decode depth)) = .ok x := by
  obtain ⟨variant, hmem, fields, record, hrecord, hv, hx⟩ := h
  refine ⟨Value.nestingMembers fields, ?_, fun depth hdepth => ?_⟩
  · rw [hv]
    exact nesting_tagged variant.name fields
  · exact Choice.Given.ofValue hchoice
      ⟨variant, hmem, fields, record, decode_of_stands hrecord hdepth, hv, hx⟩

end Shape

/-! ### Expressions and statements -/

open Shape

namespace Expr

theorem choice_distinct : choice.Distinct := ⟨by decide, by decide⟩

/-- An object that stands for an expression is decoded to it. -/
theorem stands_of_given {v : Value} {e : Expr} (h : choice.Given Stands v e) :
    Stands .expr v e := by
  obtain ⟨nesting, hnesting, hdecode⟩ := ofValue_of_stands choice_distinct h
  exact stands_of_decode hnesting hdecode

mutual

/-- **The object of an expression stands for it.** The numbers are the positions of the variants. -/
theorem given : ∀ e : Expr, choice.Given Stands e.toJson e
  | .var v => choice.given_at 0 (by decide) (v.name, v.id, ())
      ⟨rfl, stands_string v.name, rfl, stands_word v.id, trivial⟩
  | .int value => choice.given_at 1 (by decide) (value, ()) ⟨rfl, stands_int value, trivial⟩
  | .float value => choice.given_at 2 (by decide) (value, ()) ⟨rfl, stands_float value, trivial⟩
  | .binary op a b => choice.given_at 3 (by decide) (op, a, b, ())
      ⟨rfl, stands_operator op, rfl, stands_of_given (given a), rfl, stands_of_given (given b),
        trivial⟩
  | .select c t f => choice.given_at 4 (by decide) (c, t, f, ())
      ⟨rfl, stands_of_given (given c), rfl, stands_of_given (given t),
        rfl, stands_of_given (given f), trivial⟩
  | .load buffer index predicate => choice.given_at 5 (by decide) (buffer, index, predicate, ())
      ⟨rfl, stands_var buffer, rfl, stands_of_given (given index), rfl, stands_option predicate,
        trivial⟩
  | .call name args => choice.given_at 6 (by decide) (name, args, ())
      ⟨rfl, stands_string name, rfl, stands_list (stands_items args), trivial⟩

theorem stands_option : ∀ e : Option Expr, Stands (.option .expr) (toJsonOption e) e
  | none => stands_none .expr
  | some e => stands_some (given e).isObject (stands_of_given (given e))

theorem stands_items : ∀ es : List Expr, List.Forall₂ (Stands .expr) (toJsonList es) es
  | [] => .nil
  | e :: es => .cons (stands_of_given (given e)) (stands_items es)

end

/-- The object of an expression is decoded to it. -/
theorem stands (e : Expr) : Stands .expr e.toJson e := stands_of_given e.given

end Expr

namespace Stmt

theorem choice_distinct : choice.Distinct := ⟨by decide, by decide⟩

/-- An object that stands for a statement is decoded to it. -/
theorem stands_of_given {v : Value} {s : Stmt} (h : choice.Given Stands v s) :
    Stands .stmt v s := by
  obtain ⟨nesting, hnesting, hdecode⟩ := ofValue_of_stands choice_distinct h
  exact stands_of_decode hnesting hdecode

theorem stands_iterVar (v : Option Var) :
    Stands (.option .var) ((v.map Var.toJson).getD .null) v := by
  cases v with
  | none => exact stands_none .var
  | some v => exact stands_some ⟨v.toFields, rfl⟩ (stands_var v)

mutual

/-- **The object of a statement stands for it.** The numbers are the positions of the variants. -/
theorem given : ∀ s : Stmt, choice.Given Stands s.toJson s
  | .loop v min extent kind body => choice.given_at 0 (by decide) (v, min, extent, kind, body, ())
      ⟨rfl, stands_var v, rfl, min.stands, rfl, extent.stands, rfl, stands_loopKind kind,
        rfl, stands_of_given (given body), trivial⟩
  | .attribute key iterVar threadTag value body =>
    choice.given_at 1 (by decide) (key, iterVar, threadTag, value, body, ())
      ⟨rfl, stands_string key, rfl, stands_iterVar iterVar, rfl, stands_string threadTag,
        rfl, value.stands, rfl, stands_of_given (given body), trivial⟩
  | .store buffer value index predicate =>
    choice.given_at 2 (by decide) (buffer, value, index, predicate, ())
      ⟨rfl, stands_var buffer, rfl, value.stands, rfl, index.stands,
        rfl, Expr.stands_option predicate, trivial⟩
  | .binding v value body => choice.given_at 3 (by decide) (v, value, body, ())
      ⟨rfl, stands_var v, rfl, value.stands, rfl, stands_of_given (given body), trivial⟩
  | .conditional condition thenCase elseCase =>
    choice.given_at 4 (by decide) (condition, thenCase, elseCase, ())
      ⟨rfl, condition.stands, rfl, stands_of_given (given thenCase),
        rfl, stands_option elseCase, trivial⟩
  | .sequence stmts => choice.given_at 5 (by decide) (stmts, ())
      ⟨rfl, stands_list (stands_items stmts), trivial⟩
  | .evaluate value => choice.given_at 6 (by decide) (value, ()) ⟨rfl, value.stands, trivial⟩

theorem stands_option : ∀ s : Option Stmt, Stands (.option .stmt) (toJsonOption s) s
  | none => stands_none .stmt
  | some s => stands_some (given s).isObject (stands_of_given (given s))

theorem stands_items : ∀ ss : List Stmt, List.Forall₂ (Stands .stmt) (toJsonList ss) ss
  | [] => .nil
  | s :: ss => .cons (stands_of_given (given s)) (stands_items ss)

end

end Stmt

/-! ### Float literals -/

namespace Expr

mutual

/-- The float literals of an expression, in order. -/
def floats : Expr → List Float
  | .var _ => []
  | .int _ => []
  | .float value => [value]
  | .binary _ a b => floats a ++ floats b
  | .select c t f => floats c ++ floats t ++ floats f
  | .load _ index predicate => floats index ++ floatsOption predicate
  | .call _ args => floatsList args

/-- The float literals of an expression that may be absent. -/
def floatsOption : Option Expr → List Float
  | none => []
  | some e => floats e

/-- The float literals of several expressions. -/
def floatsList : List Expr → List Float
  | [] => []
  | e :: es => floats e ++ floatsList es

end

end Expr

namespace Stmt

mutual

/-- The float literals of a statement, in order. -/
def floats : Stmt → List Float
  | .loop _ min extent _ body => min.floats ++ extent.floats ++ floats body
  | .attribute _ _ _ value body => value.floats ++ floats body
  | .store _ value index predicate =>
    value.floats ++ index.floats ++ Expr.floatsOption predicate
  | .binding _ value body => value.floats ++ floats body
  | .conditional condition thenCase elseCase =>
    condition.floats ++ floats thenCase ++ floatsOption elseCase
  | .sequence stmts => floatsList stmts
  | .evaluate value => value.floats

/-- The float literals of a statement that may be absent. -/
def floatsOption : Option Stmt → List Float
  | none => []
  | some s => floats s

/-- The float literals of several statements. -/
def floatsList : List Stmt → List Float
  | [] => []
  | s :: ss => floats s ++ floatsList ss

end

end Stmt

/-- All of these doubles are finite and read back from their texts as the same doubles. -/
def AllReadBack (xs : List Float) : Prop := ∀ x ∈ xs, (Number.double x).ReadsBack

theorem allReadBack_append {xs ys : List Float} :
    AllReadBack (xs ++ ys) ↔ AllReadBack xs ∧ AllReadBack ys := List.forall_mem_append

/-- The integers in the object of a variable are read back. -/
theorem Var.readable (v : Var) : Value.ReadableMembers v.toFields := by
  have := v.id.toNat_lt
  exact ⟨trivial, readsBack_int (by omega) (by simp only [UInt64.size]; omega), trivial⟩

namespace Expr

mutual

/-- An expression whose float literals are read back has a readable object. -/
theorem readable : ∀ e : Expr, AllReadBack e.floats → e.toJson.Readable
  | .var v => fun _ => ⟨trivial, v.readable⟩
  | .int value => by
    intro _
    have hlow := value.le_toInt
    have hhigh := value.toInt_lt
    refine ⟨trivial, readsBack_int ?_ ?_, trivial⟩
    · simp only [Int64.size]
      omega
    · simp only [UInt64.size]
      omega
  | .float value => fun h => ⟨trivial, h value List.mem_cons_self, trivial⟩
  | .binary op a b => by
    intro h
    rw [floats, allReadBack_append] at h
    exact ⟨trivial, trivial, readable a h.1, readable b h.2, trivial⟩
  | .select c t f => by
    intro h
    rw [floats, allReadBack_append, allReadBack_append] at h
    exact ⟨trivial, readable c h.1.1, readable t h.1.2, readable f h.2, trivial⟩
  | .load buffer index predicate => by
    intro h
    rw [floats, allReadBack_append] at h
    exact ⟨trivial, buffer.readable, readable index h.1, readable_option predicate h.2, trivial⟩
  | .call name args => fun h => ⟨trivial, trivial, readable_items args h, trivial⟩

theorem readable_option : ∀ e : Option Expr, AllReadBack (floatsOption e) →
    (toJsonOption e).Readable
  | none => fun _ => trivial
  | some e => readable e

theorem readable_items : ∀ es : List Expr, AllReadBack (floatsList es) →
    Value.ReadableItems (toJsonList es)
  | [] => fun _ => trivial
  | e :: es => by
    intro h
    rw [floatsList, allReadBack_append] at h
    exact ⟨readable e h.1, readable_items es h.2⟩

end

end Expr

namespace Stmt

theorem readable_iterVar (v : Option Var) : ((v.map Var.toJson).getD .null).Readable := by
  cases v with
  | none => exact trivial
  | some v => exact v.readable

mutual

/-- A program whose float literals are read back has a readable object. -/
theorem readable : ∀ s : Stmt, AllReadBack s.floats → s.toJson.Readable
  | .loop v min extent kind body => by
    intro h
    rw [floats, allReadBack_append, allReadBack_append] at h
    exact ⟨trivial, v.readable, min.readable h.1.1, extent.readable h.1.2, trivial,
      readable body h.2, trivial⟩
  | .attribute key iterVar threadTag value body => by
    intro h
    rw [floats, allReadBack_append] at h
    exact ⟨trivial, trivial, readable_iterVar iterVar, trivial, value.readable h.1,
      readable body h.2, trivial⟩
  | .store buffer value index predicate => by
    intro h
    rw [floats, allReadBack_append, allReadBack_append] at h
    exact ⟨trivial, buffer.readable, value.readable h.1.1, index.readable h.1.2,
      Expr.readable_option predicate h.2, trivial⟩
  | .binding v value body => by
    intro h
    rw [floats, allReadBack_append] at h
    exact ⟨trivial, v.readable, value.readable h.1, readable body h.2, trivial⟩
  | .conditional condition thenCase elseCase => by
    intro h
    rw [floats, allReadBack_append, allReadBack_append] at h
    exact ⟨trivial, condition.readable h.1.1, readable thenCase h.1.2,
      readable_option elseCase h.2, trivial⟩
  | .sequence stmts => fun h => ⟨trivial, readable_items stmts h, trivial⟩
  | .evaluate value => fun h => ⟨trivial, value.readable h, trivial⟩

theorem readable_option : ∀ s : Option Stmt, AllReadBack (floatsOption s) →
    (toJsonOption s).Readable
  | none => fun _ => trivial
  | some s => readable s

theorem readable_items : ∀ ss : List Stmt, AllReadBack (floatsList ss) →
    Value.ReadableItems (toJsonList ss)
  | [] => fun _ => trivial
  | s :: ss => by
    intro h
    rw [floatsList, allReadBack_append] at h
    exact ⟨readable s h.1, readable_items ss h.2⟩

end

end Stmt

/-! ### Whole programs -/

section Write

variable {spacing : Spacing}

/-- A value of several variants is read back from its text. -/
theorem readTagged_write (hs : spacing.IsBlank) {α : Type} {choice : Choice Shape.Carrier α}
    (hchoice : choice.Distinct) {v : Value} {x : α} (h : choice.Given Stands v x)
    (hreadable : v.Readable) {fuel : Nat} (level : Nat) (rest : List Char)
    (hfuel : (v.write spacing level).length ≤ fuel) :
    readTagged choice fuel (v.write spacing level ++ rest) =
      within nestingLimit v.nesting (x, rest) := by
  obtain ⟨variant, hmem, fields, record, hrecord, rfl, rfl⟩ := h
  obtain ⟨htag, hnames⟩ := List.nodup_cons.1 (hchoice.members variant hmem)
  rw [← hrecord.names] at htag
  have hnesting := nesting_tagged variant.name fields
  rw [tagged] at hnesting
  rw [readTagged, Tagged.read_write hs hchoice hmem hreadable.2 htag level rest hfuel, hnesting]
  by_cases hdepth : 1 + Value.nestingMembers fields ≤ nestingLimit
  · -- what the reader has let through is not too deep for the decoder
    have hfields : Value.nestingMembers fields ≤ nestingLimit := by omega
    have hdecode := Tagged.decode_of_given hnames (decode_of_stands hrecord hfields)
    rw [within_of_le hdepth, within_of_le hdepth]
    show (Tagged.decode (decode nestingLimit) _ >>= fun x => .ok (x, rest)) = _
    rw [hdecode]
    rfl
  · -- the reader refuses the text before anything is decoded
    rw [within, within, if_neg hdepth, if_neg hdepth]
    rfl

/-- **An expression is read back from its text**, exactly if its brackets lie no deeper inside each
other than is allowed. -/
theorem Expr.ofJson_write (hs : spacing.IsBlank) {e : Expr} (h : AllReadBack e.floats) :
    Expr.ofJson (String.ofList (e.toJson.write spacing 0)) =
      within nestingLimit e.toJson.nesting e := by
  refine readText_ofList fun fuel hfuel => ?_
  have hread := readTagged_write hs choice_distinct e.given (e.readable h) 0 [] hfuel
  rwa [List.append_nil] at hread

/-- **A program is read back from its text**, exactly if its brackets lie no deeper inside each
other than is allowed. -/
theorem Stmt.ofJson_write (hs : spacing.IsBlank) {s : Stmt} (h : AllReadBack s.floats) :
    Stmt.ofJson (String.ofList (s.toJson.write spacing 0)) =
      within nestingLimit s.toJson.nesting s := by
  refine readText_ofList fun fuel hfuel => ?_
  have hread := readTagged_write hs choice_distinct s.given (s.readable h) 0 [] hfuel
  rwa [List.append_nil] at hread

end Write

/-- **A program is read back from its text on one line** exactly if at most 127 arrays and objects
lie inside each other in it; otherwise the text is refused. -/
theorem Stmt.ofJson_compact {s : Stmt} (h : AllReadBack s.floats) :
    (Stmt.ofJson s.toJson.compact = .ok s ↔ s.toJson.nesting ≤ 127) ∧
      (127 < s.toJson.nesting → Stmt.ofJson s.toJson.compact = .error .tooDeep) := by
  have hread := Stmt.ofJson_write Spacing.isBlank_none h
  rw [Value.compact, hread, within, nestingLimit]
  by_cases hnesting : s.toJson.nesting ≤ 127
  · rw [if_pos hnesting]
    exact ⟨iff_of_true rfl hnesting, fun hdeep => absurd hnesting (by omega)⟩
  · rw [if_neg hnesting]
    exact ⟨iff_of_false nofun hnesting, fun _ => rfl⟩

/-- A program with whatever a text has to escape, and with numbers at the ends of their ranges. -/
def Stmt.awkward : Stmt :=
  .attribute "\"\\\x01\t/é😀" (some ⟨"", 0xffffffff⟩) "\u2028" (.int Int64.minValue) <|
    .conditional (.select (.float 0.1) (.float (-0.0)) (.float 1.25e-7))
      (.store (.named "\n") (.call "" []) (.int Int64.maxValue) none) none

set_option maxRecDepth 1000 in
theorem Stmt.ofJson_compact_awkward :
    AllReadBack awkward.floats ∧ awkward.toJson.nesting ≤ 127 ∧
      Stmt.ofJson awkward.toJson.compact = .ok awkward := by
  have hfloats : AllReadBack awkward.floats := by
    intro x hx
    have hx : x ∈ [0.1, -0.0, 1.25e-7] := hx
    simp only [List.mem_cons, List.not_mem_nil, or_false] at hx
    rcases hx with rfl | rfl | rfl <;> rfl
  have hnesting : awkward.toJson.nesting ≤ 127 := by decide
  exact ⟨hfloats, hnesting, (Stmt.ofJson_compact hfloats).1.2 hnesting⟩

end AccessGraph
