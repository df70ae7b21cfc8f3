import AccessGraph.Proofs.Json.Decoding
import AccessGraph.Proofs.Json.Tag
import AccessGraph.Proofs.Program.RoundTrip
/-!
# Programs are written out in one way

A text may give a program in many ways: members in any order, with unknown ones among them, or items
of an array, and absent where there is a default. Written out again, the program has one text, and that
text nests at most one deeper than the first one did: a call without arguments gets an empty array.

* `Shape.toJson` : what a part of a program is written as.
* `Writes` : values of several variants are written as the description of their format says, and what
  absent fields are taken to be nests no deeper than `1`.
* `Shape.deepens_decode` : **a part is written as a value that nests at most one deeper than the value
  that it has been decoded from.**
* `Stmt.nesting_of_ofJson` : the same of whole texts.
* `Stmt.recode` : the text of the program that a text stands for.
* `Stmt.exists_recode_tooDeep` : a text that nests 127 arrays and objects may be written out as one that
  is refused.
* `Stmt.recode_canonical` : **a text that nests at most 126 is written out as a text of the same
  program, which is written out as itself.**
-/

namespace AccessGraph

open Json

/-! ### What parts are written as -/

namespace Shape

/-- What a part of a program is written as. -/
def toJson : (s : Shape) → s.Carrier → Value
  | .string, x => .string x
  | .int, n => .number (.int n.toInt)
  | .word, n => .number (.int n.toNat)
  | .float, x => .number (.double x)
  | .loopKind, k => .string k.name
  | .operator, o => .string o.name
  | .var, v => v.toJson
  | .expr, e => e.toJson
  | .stmt, s => s.toJson
  | .option _, none => .null
  | .option s, some x => toJson s x
  | .list s, xs => .array (xs.map (toJson s))

/-- The part is written as a value that nests at most so deep. -/
def Within (nesting : Nat) (s : Shape) (x : s.Carrier) : Prop := (s.toJson x).nesting ≤ nesting

instance (nesting : Nat) (s : Shape) (x : s.Carrier) : Decidable (Within nesting s x) :=
  inferInstanceAs (Decidable ((s.toJson x).nesting ≤ nesting))

/-- The fields of a record as members in order. -/
def toMembers : (fs : List (Field Carrier)) → Record Carrier fs → List (String × Value)
  | [], _ => []
  | f :: fs, (x, record) => (f.name, f.shape.toJson x) :: toMembers fs record

theorem nestingMembers_toMembers {fs : List (Field Carrier)} {record : Record Carrier fs}
    {nesting : Nat} (h : Record.All (Within nesting) fs record) :
    Value.nestingMembers (toMembers fs record) ≤ nesting := by
  induction fs with
  | nil => exact Nat.zero_le _
  | cons f fs ih =>
    obtain ⟨x, record⟩ := record
    rw [toMembers, Value.nestingMembers]
    exact Nat.max_le.2 ⟨h.1, ih h.2⟩

end Shape

open Shape

/-- The values of a choice are written with all of their fields in order, and what absent fields are
taken to be has no more than one bracket. -/
structure Writes {α : Type} (choice : Choice Carrier α) (toJson : α → Value) : Prop where
  /-- What the fields of a variant make up is written as its tag and its fields. -/
  build : ∀ variant ∈ choice.variants, ∀ record,
    toJson (variant.build record) = tagged variant.name (toMembers variant.fields record)
  /-- The defaults. -/
  defaults : ∀ variant ∈ choice.variants, DefaultsHave (Within 1) variant.fields

namespace Expr

theorem toJsonList_eq (es : List Expr) : toJsonList es = es.map toJson := by
  induction es with
  | nil => rfl
  | cons e es ih => rw [toJsonList, ih, List.map_cons]

/-- **Expressions are written as the description of their format says.** -/
theorem writes : Writes choice toJson := by
  have hdefaults : ∀ variant ∈ choice.variants, ∀ f ∈ variant.fields, ∀ x ∈ f.default,
      Within 1 f.shape x := by decide
  refine ⟨fun variant h record => ?_, hdefaults⟩
  simp only [choice, List.mem_cons, List.not_mem_nil, or_false] at h
  rcases h with rfl | rfl | rfl | rfl | rfl | rfl | rfl
  · rfl
  · rfl
  · rfl
  · rfl
  · rfl
  · rcases record with ⟨buffer, index, _ | predicate, ⟨⟩⟩ <;> rfl
  · obtain ⟨name, args, ⟨⟩⟩ := record
    exact congrArg (fun vs => tagged "call" [("name", .string name), ("args", .array vs)])
      (toJsonList_eq args)

end Expr

namespace Stmt

theorem toJsonList_eq (ss : List Stmt) : toJsonList ss = ss.map toJson := by
  induction ss with
  | nil => rfl
  | cons s ss ih => rw [toJsonList, ih, List.map_cons]

/-- **Statements are written as the description of their format says.** -/
theorem writes : Writes choice toJson := by
  have hdefaults : ∀ variant ∈ choice.variants, ∀ f ∈ variant.fields, ∀ x ∈ f.default,
      Within 1 f.shape x := by decide
  refine ⟨fun variant h record => ?_, hdefaults⟩
  simp only [choice, List.mem_cons, List.not_mem_nil, or_false] at h
  rcases h with rfl | rfl | rfl | rfl | rfl | rfl | rfl
  · rfl
  · rcases record with ⟨key, _ | iterVar, threadTag, value, body, ⟨⟩⟩ <;> rfl
  · rcases record with ⟨buffer, value, index, _ | predicate, ⟨⟩⟩ <;> rfl
  · rfl
  · rcases record with ⟨condition, thenCase, _ | elseCase, ⟨⟩⟩ <;> rfl
  · obtain ⟨stmts, ⟨⟩⟩ := record
    exact congrArg (fun vs => tagged "seq" [("stmts", .array vs)]) (toJsonList_eq stmts)
  · rfl

end Stmt

/-! ### How deep parts nest -/

namespace Shape

theorem Within.mono {n m : Nat} {s : Shape} {x : s.Carrier} (h : Within n s x) (hle : n ≤ m) :
    Within m s x := Nat.le_trans h hle

/-- What the decoder makes of a value is written as one that nests at most one deeper. -/
def Deepens (part : (s : Shape) → Value → Except Fault s.Carrier) : Prop :=
  ∀ (s : Shape) (v : Value) (x : s.Carrier), part s v = .ok x → Within (v.nesting + 1) s x

variable {α : Type} {part : (s : Shape) → Value → Except Fault s.Carrier}

/-- A value of several variants is written one deeper than its fields. -/
theorem nesting_of_decode {choice : Choice Carrier α} {toJson : α → Value}
    (hwrites : Writes choice toJson) (hpart : Deepens part) {t : Tagged Carrier α} {x : α}
    (hmem : t.variant ∈ choice.variants) (h : Tagged.decode part t = .ok x) :
    (toJson x).nesting ≤ 1 + t.body.nesting + 1 := by
  have hvalue : ∀ v, v.nesting ≤ t.body.nesting → ∀ s x, part s v = .ok x →
      Within (t.body.nesting + 1) s x := fun v hv s x hx =>
    (hpart s v x hx).mono (Nat.add_le_add_right hv 1)
  have hdefaults : DefaultsHave (Within (t.body.nesting + 1)) t.variant.fields := fun f hf x hx =>
    (hwrites.defaults t.variant hmem f hf x hx).mono (Nat.le_add_left 1 _)
  obtain ⟨record, hrecord, rfl⟩ := Tagged.all_of_decode hvalue hdefaults h
  rw [hwrites.build t.variant hmem record, nesting_tagged, Nat.add_assoc]
  exact Nat.add_le_add_left (nestingMembers_toMembers hrecord) 1

/-- So it is written at most one deeper than the value that it has been decoded from. -/
theorem nesting_of_ofValue {choice : Choice Carrier α} {toJson : α → Value}
    (hwrites : Writes choice toJson) (hpart : Deepens part) {v : Value} {x : α}
    (h : (Tagged.ofValue choice v >>= Tagged.decode part) = .ok x) :
    (toJson x).nesting ≤ v.nesting + 1 := by
  obtain ⟨t, ht, h⟩ := bind_eq_ok_iff.1 h
  obtain ⟨hmem, hnesting⟩ := Tagged.of_ofValue ht
  have hx := nesting_of_decode hwrites hpart hmem h
  omega

theorem nestingItems_map {s : Shape} {vs : List Value} {xs : List s.Carrier}
    (h : List.Forall₂ (fun v x => Within (v.nesting + 1) s x) vs xs) :
    Value.nestingItems (xs.map s.toJson) ≤ Value.nestingItems vs + 1 := by
  induction h with
  | nil => exact Nat.zero_le _
  | @cons v x vs xs hfirst _ ih =>
    have hfirst : (s.toJson x).nesting ≤ v.nesting + 1 := hfirst
    rw [List.map_cons, Value.nestingItems, Value.nestingItems]
    omega

/-- **What is made of a value with brackets nests at most one deeper**, if what is made of the values
inside of it does. -/
theorem deepens_decodeWith (hpart : Deepens part) : Deepens (decodeWith part) := by
  intro s
  induction s with
  | string => exact fun _ _ _ => Nat.zero_le _
  | int => exact fun _ _ _ => Nat.zero_le _
  | word => exact fun _ _ _ => Nat.zero_le _
  | float => exact fun _ _ _ => Nat.zero_le _
  | loopKind => exact fun _ _ _ => Nat.zero_le _
  | operator => exact fun _ _ _ => Nat.zero_le _
  | var => exact fun v _ _ => Nat.le_add_left 1 v.nesting
  | expr => exact fun _ _ h => nesting_of_ofValue Expr.writes hpart h
  | stmt => exact fun _ _ h => nesting_of_ofValue Stmt.writes hpart h
  | option s ih =>
    intro v x h
    cases x with
    | none => exact Nat.zero_le _
    | some x =>
      have hx : decodeWith part s v = .ok x := by
        cases v with
        | null => cases h
        | _ =>
          obtain ⟨y, hy, h⟩ := bind_eq_ok_iff.1 h
          cases h
          exact hy
      exact ih v x hx
  | list s =>
    intro v xs h
    obtain ⟨vs, hvs, h⟩ := bind_eq_ok_iff.1 h
    cases v with
    | array _ =>
      cases hvs
      have hparts := (forall₂_of_mapM_eq_ok h).imp fun v x => hpart s v x
      have hitems := nestingItems_map hparts
      show (Value.array (xs.map s.toJson)).nesting ≤ (Value.array vs).nesting + 1
      rw [Value.nesting, Value.nesting]
      omega
    | _ => cases hvs

/-- **A part is written as a value that nests at most one deeper than the value that it has been
decoded from.** -/
theorem deepens_decode (depth : Nat) : Deepens (decode depth) := by
  induction depth with
  | zero => exact deepens_decodeWith fun _ _ _ h => by cases h
  | succ depth ih => exact deepens_decodeWith ih

/-- What is read from a text is written as a value that nests at most one deeper than the text. -/
theorem nesting_of_readTagged {choice : Choice Carrier α} {toJson : α → Value}
    (hwrites : Writes choice toJson) {text : String} {x : α}
    (h : readText (readTagged choice) text = .ok x) :
    (toJson x).nesting ≤ textNesting text + 1 := by
  obtain ⟨⟨y, rest⟩, hread, h⟩ := bind_eq_ok_iff.1 h
  obtain ⟨⟨t, _⟩, ht, hread⟩ := bind_eq_ok_iff.1 hread
  obtain ⟨_, hdecode, hread⟩ := bind_eq_ok_iff.1 hread
  cases hread
  dsimp only at h
  split at h
  · rename_i hrest
    cases h
    obtain ⟨hmem, htakes⟩ := Tagged.takes_of_read ht
    have htext := textNesting_of_takes htakes (List.isEmpty_iff.1 hrest)
    have hx := nesting_of_decode hwrites (deepens_decode nestingLimit) hmem hdecode
    omega
  · cases h

end Shape

/-! ### Whole programs -/

namespace Stmt

/-- **A program is written as a text that nests at most one deeper than the text that it has been read
from.** -/
theorem nesting_of_ofJson {text : String} {s : Stmt} (h : Stmt.ofJson text = .ok s) :
    s.toJson.nesting ≤ textNesting text + 1 := nesting_of_readTagged writes h

/-- The text of the program that a text stands for. -/
def recode (spacing : Spacing) (text : String) : Except Fault String := do
  .ok (String.ofList ((← Stmt.ofJson text).toJson.write spacing 0))

theorem recode_of_ofJson {text : String} {s : Stmt} (h : Stmt.ofJson text = .ok s)
    (spacing : Spacing) :
    recode spacing text = .ok (String.ofList (s.toJson.write spacing 0)) := by
  rw [recode, h]
  rfl

/-! ### The deepest texts -/

/-- Loads one inside the other, around a call that has no array of arguments. -/
def bareLoads : Nat → Value
  | 0 => tagged "call" [("name", .string "")]
  | depth + 1 =>
    tagged "load" [("buffer_var", (Var.named "").toJson), ("index", bareLoads depth),
      ("predicate", .null)]

/-- The expression that these stand for. -/
def loads : Nat → Expr
  | 0 => .call "" []
  | depth + 1 => .load (.named "") (loads depth) none

theorem stands_bareLoads (depth : Nat) : Stands .expr (bareLoads depth) (loads depth) := by
  induction depth with
  | zero =>
    have hnesting : (bareLoads 0).nesting = 1 + 0 := rfl
    refine stands_of_decode hnesting fun depth _ => ?_
    obtain ⟨part, hpart⟩ := decode_eq_decodeWith depth
    rw [hpart]
    rfl
  | succ depth ih =>
    exact Expr.stands_of_given (Expr.choice.given_at 5 (by decide) (.named "", loads depth, none, ())
      ⟨rfl, stands_var (.named ""), rfl, ih, rfl, stands_none .expr, trivial⟩)

theorem readable_bareLoads (depth : Nat) : (bareLoads depth).Readable := by
  induction depth with
  | zero => exact ⟨trivial, trivial, trivial⟩
  | succ depth ih => exact ⟨trivial, (Var.named "").readable, ih, trivial, trivial⟩

/-- The program nests one deeper than the value: its call has an array of arguments. -/
theorem nesting_loads (depth : Nat) :
    (bareLoads depth).nesting = depth + 1 ∧ (loads depth).toJson.nesting = depth + 2 := by
  induction depth with
  | zero => exact ⟨rfl, rfl⟩
  | succ depth ih =>
    have hbuffer : (Var.named "").toJson.nesting = 1 := rfl
    rw [bareLoads, loads, Expr.toJson, nesting_tagged, nesting_tagged]
    simp only [Value.nestingMembers, ih, hbuffer, Expr.toJsonOption, Value.nesting]
    omega

theorem floats_loads (depth : Nat) : (loads depth).floats = [] := by
  induction depth with
  | zero => rfl
  | succ depth ih =>
    rw [loads, Expr.floats, ih]
    rfl

/-- A value that nests 127 arrays and objects. -/
def bareProgram : Value := tagged "evaluate" [("value", bareLoads 125)]

/-- The program that it stands for. -/
def deepProgram : Stmt := .evaluate (loads 125)

theorem given_bareProgram : choice.Given Stands bareProgram deepProgram :=
  choice.given_at 6 (by decide) (loads 125, ()) ⟨rfl, stands_bareLoads 125, trivial⟩

theorem readable_bareProgram : bareProgram.Readable := ⟨trivial, readable_bareLoads 125, trivial⟩

theorem nesting_bareProgram : bareProgram.nesting = 127 := by
  rw [bareProgram, nesting_tagged, Value.nestingMembers, Value.nestingMembers, (nesting_loads 125).1]
  rfl

theorem nesting_deepProgram : deepProgram.toJson.nesting = 128 := by
  rw [deepProgram, toJson, nesting_tagged, Value.nestingMembers, Value.nestingMembers,
    (nesting_loads 125).2]
  rfl

/-- Its text is just shallow enough to be read. -/
theorem ofJson_bareProgram : Stmt.ofJson bareProgram.compact = .ok deepProgram := by
  rw [← within_of_le (Nat.le_of_eq nesting_bareProgram) deepProgram]
  refine readText_ofList fun fuel hfuel => ?_
  have hread := readTagged_write Spacing.isBlank_none choice_distinct given_bareProgram
    readable_bareProgram 0 [] hfuel
  rwa [List.append_nil] at hread

/-- **A text that nests 127 arrays and objects may be written out as one that is refused.** -/
theorem exists_recode_tooDeep : ∃ text s, Stmt.ofJson text = .ok s ∧ textNesting text = 127 ∧
    AllReadBack s.floats ∧ ∀ spacing : Spacing, spacing.IsBlank → ∃ canonical,
      recode spacing text = .ok canonical ∧ Stmt.ofJson canonical = .error .tooDeep := by
  have hfloats : AllReadBack deepProgram.floats := by
    rw [deepProgram, floats, floats_loads]
    exact nofun
  have hnesting : textNesting bareProgram.compact = 127 :=
    (textNesting_write Spacing.isBlank_none readable_bareProgram).trans nesting_bareProgram
  refine ⟨_, _, ofJson_bareProgram, hnesting, hfloats, fun spacing hs => ?_⟩
  refine ⟨_, recode_of_ofJson ofJson_bareProgram spacing, ?_⟩
  rw [Stmt.ofJson_write hs hfloats, nesting_deepProgram]
  rfl

/-! ### Canonical texts -/

/-- **A text that nests at most 126 arrays and objects is written out as a text of the same program,
which is written out as itself**, provided that the float literals of the program are read back. At 127
the text that is written out may be refused. -/
theorem recode_canonical :
    (∀ (text : String) (s : Stmt), Stmt.ofJson text = .ok s → textNesting text ≤ 126 →
      AllReadBack s.floats → ∀ spacing : Spacing, spacing.IsBlank → ∃ canonical,
        recode spacing text = .ok canonical ∧ Stmt.ofJson canonical = .ok s ∧
          recode spacing canonical = .ok canonical) ∧
      ∃ text s, Stmt.ofJson text = .ok s ∧ textNesting text = 127 ∧ AllReadBack s.floats ∧
        ∀ spacing : Spacing, spacing.IsBlank → ∃ canonical,
          recode spacing text = .ok canonical ∧ Stmt.ofJson canonical = .error .tooDeep := by
  refine ⟨fun text s h hnesting hfloats spacing hs => ?_, exists_recode_tooDeep⟩
  have hle := nesting_of_ofJson h
  have hwritten := Stmt.ofJson_write hs hfloats
  rw [within_of_le (by rw [nestingLimit]; omega)] at hwritten
  exact ⟨_, recode_of_ofJson h spacing, hwritten, recode_of_ofJson hwritten spacing⟩

/-- A loop in an unusual spelling: its parts in another order, as arrays, with an unknown one among
them, and without those that have a default. -/
def scattered : String :=
  "\x7b\"body\" :[\"evaluate\",[\"float\",2]],\n\"?\":[\x7b\x7d],\"extent\":[\"call\",\"n\"],
    \t\"kind\":\"for\",\"loop_var\":[\"\\u0069\"]\x7d\n"

/-- The value that it spells. -/
def scatteredValue : Value := .object
  [("body", .array [.string "evaluate", .array [.string "float", .number (.int 2)]]),
    ("?", .array [.object []]), ("extent", .array [.string "call", .string "n"]),
    ("kind", .string "for"), ("loop_var", .array [.string "i"])]

/-- The loop. -/
def gathered : Stmt :=
  .loop (.named "i") (.int 0) (.call "n" []) .serial (.evaluate (.float (Float.ofInt 2)))

/-- The text is put together from those of its parts. -/
theorem textSpells_scattered : TextSpells scattered scatteredValue := by
  have hcomma : Separates false [','] := separates_comma blanks_nil
  have hfloat := Spells.array <| .item blanks_nil (spells_writeString "float") <|
    .item hcomma (.scalar (rfl : readScalar ['2'] = _)) (.close blanks_nil)
  have hbody := Spells.array <| .item blanks_nil (spells_writeString "evaluate") <|
    .item hcomma hfloat (.close blanks_nil)
  have hunknown := Spells.array <|
    .item blanks_nil (.object (.close blanks_nil)) (.close blanks_nil)
  have hextent := Spells.array <| .item blanks_nil (spells_writeString "call") <|
    .item hcomma (spells_writeString "n") (.close blanks_nil)
  have hname : readString ['\\', 'u', '0', '0', '6', '9', '"'] = .ok ("i", []) :=
    (readCharacters_escape rfl []).trans (readCharacters_quote ['i'] [])
  have hvar := Spells.array <|
    .item blanks_nil (spells_string_iff.2 ⟨_, rfl, hname⟩) (.close blanks_nil)
  have hobject := Spells.object <|
    .member blanks_nil (readString_escaped "body" []) (blanks_of_all [' '] rfl) blanks_nil hbody <|
    .member (separates_comma (blanks_of_all ['\n'] rfl)) (readString_escaped "?" [])
      blanks_nil blanks_nil hunknown <|
    .member hcomma (readString_escaped "extent" []) blanks_nil blanks_nil hextent <|
    .member (separates_comma (blanks_of_all "\n    \t".toList rfl)) (readString_escaped "kind" [])
      blanks_nil blanks_nil (spells_writeString "for") <|
    .member hcomma (readString_escaped "loop_var" []) blanks_nil blanks_nil hvar <|
    .close blanks_nil
  exact ⟨[], _, ['\n'], blanks_nil, hobject, blanks_of_all _ rfl, rfl⟩

theorem recode_canonical_scattered :
    Stmt.ofJson scattered = .ok gathered ∧ textNesting scattered ≤ 126 ∧
      AllReadBack gathered.floats ∧ ∃ canonical, recode .none scattered = .ok canonical ∧
        Stmt.ofJson canonical = .ok gathered ∧ recode .none canonical = .ok canonical := by
  have htag : scatteredValue.TagNamed := by
    simp [scatteredValue, Value.TagNamed, TagsNamed, tagName]
  have hread : Stmt.ofJson scattered = .ok gathered :=
    readText_tagged_iff.2 ⟨scatteredValue, textSpells_scattered, by decide, htag, rfl⟩
  have hnesting : textNesting scattered ≤ 126 := by decide
  have hfloats : AllReadBack gathered.floats := by
    intro x hx
    obtain rfl : x = Float.ofInt 2 := List.mem_singleton.1 hx
    rfl
  exact ⟨hread, hnesting, hfloats,
    recode_canonical.1 _ _ hread hnesting hfloats .none Spacing.isBlank_none⟩

end Stmt

end AccessGraph
