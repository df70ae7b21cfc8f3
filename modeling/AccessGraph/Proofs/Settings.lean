import AccessGraph.Proofs.Result
import AccessGraph.Settings.Basic
import Mathlib.Data.List.Induction
/-!
# What the settings of a document are

Each of the three settings is what the document says of it, or its default. No order of the entries and
no entry of another key has a part in that.

* `Settings.Sets`, `Settings.set_eq_ok_iff` : what an entry sets.
* `Settings.TakenFrom` : the settings that a document describes.
* `Settings.TakenFrom.unique` : a document describes no two settings.
* `Settings.ofToml_eq_ok_iff` : **the settings of a document are those that it describes.**
-/

namespace AccessGraph

namespace Settings

/-- What an entry sets. -/
inductive Sets (s : Settings) : String × Toml.Value → Settings → Prop where
  | dump (dump : Bool) : Sets s ("dump", .boolean dump) { s with dump }
  | format {v : Toml.Value} {format : Format} (h : formatOf v = .ok format) :
      Sets s ("format", v) { s with format }
  | logFilter (logFilter : String) : Sets s ("log_filter", .string logFilter) { s with logFilter }

/-- What can be set in one place can be set in another. -/
theorem Sets.exists_of {s s' : Settings} {entry : String × Toml.Value} (h : s.Sets entry s')
    (t : Settings) : ∃ t', t.Sets entry t' := by
  cases h with
  | dump dump => exact ⟨_, .dump dump⟩
  | format hformat => exact ⟨_, .format hformat⟩
  | logFilter logFilter => exact ⟨_, .logFilter logFilter⟩

/-- An entry has the effect that it sets something. -/
theorem set_eq_ok_iff {s s' : Settings} {entry : String × Toml.Value} :
    s.set entry = .ok s' ↔ s.Sets entry s' := by
  obtain ⟨key, v⟩ := entry
  constructor
  · intro h
    simp only [set] at h
    split_ifs at h with hdump hformat hfilter
    · subst hdump
      cases v with
      | boolean dump =>
        obtain rfl := Except.ok.inj h
        exact .dump dump
      | _ => cases h
    · subst hformat
      obtain ⟨format, hformat, h⟩ := bind_eq_ok_iff.1 h
      obtain rfl := Except.ok.inj h
      exact .format hformat
    · subst hfilter
      cases v with
      | string logFilter =>
        obtain rfl := Except.ok.inj h
        exact .logFilter logFilter
      | _ => cases h
  · intro h
    cases h with
    | dump | logFilter => rfl
    | format hformat => exact bind_eq_ok_iff.2 ⟨_, hformat, rfl⟩

/-- The settings that a document describes. Should there be several entries of a key, the last one
counts. -/
structure TakenFrom (entries : Toml.Entries) (s : Settings) : Prop where
  /-- Every entry can be taken. -/
  taken : ∀ entry ∈ entries, ∃ s', default.Sets entry s'
  /-- The outline is printed if the document says so. -/
  dump : (Toml.find? entries.reverse "dump").getD (.boolean false) = .boolean s.dump
  /-- The format is the one of the document, or the buffer. -/
  format : formatOf ((Toml.find? entries.reverse "format").getD (.string "binary")) = .ok s.format
  /-- The log filter is the one of the document, or that for information. -/
  logFilter : (Toml.find? entries.reverse "log_filter").getD (.string "info") = .string s.logFilter

/-- A document describes no two settings. -/
theorem TakenFrom.unique {entries : Toml.Entries} {s s' : Settings} (h : TakenFrom entries s)
    (h' : TakenFrom entries s') : s = s' := by
  obtain ⟨dump, format, logFilter⟩ := s
  obtain ⟨dump', format', logFilter'⟩ := s'
  have hdump := h.dump.symm.trans h'.dump
  have hformat := h.format.symm.trans h'.format
  have hfilter := h.logFilter.symm.trans h'.logFilter
  simp_all

/-- The first entry is found by its key. -/
theorem find?_cons (entry : String × Toml.Value) (entries : Toml.Entries) (key : String) :
    Toml.find? (entry :: entries) key =
      if entry.1 = key then some entry.2 else Toml.find? entries key := by
  rw [Toml.find?, List.find?_cons]
  by_cases h : entry.1 = key <;> simp [h, Toml.find?]

/-- Another entry is taken from a longer document. -/
theorem TakenFrom.append {entries : Toml.Entries} {s s' : Settings} {entry : String × Toml.Value}
    (h : TakenFrom entries s) (hset : s.Sets entry s') : TakenFrom (entries ++ [entry]) s' := by
  have htaken : ∀ e ∈ entries ++ [entry], ∃ s', default.Sets e s' := by
    intro e he
    rcases List.mem_append.1 he with he | he
    · exact h.taken e he
    · obtain rfl := List.mem_singleton.1 he
      exact hset.exists_of default
  cases hset with
  | dump | logFilter | format hformat =>
    refine ⟨htaken, ?_, ?_, ?_⟩ <;> simp [find?_cons, h.dump, h.format, h.logFilter, *]

/-- The settings of a document are described by it. -/
theorem takenFrom_of_ofToml {entries : Toml.Entries} {s : Settings} (h : ofToml entries = .ok s) :
    TakenFrom entries s := by
  induction entries using List.reverseRecOn generalizing s with
  | nil =>
    obtain rfl := Except.ok.inj h
    exact ⟨by simp, rfl, rfl, rfl⟩
  | append_singleton entries entry ih =>
    rw [ofToml, List.foldlM_append] at h
    obtain ⟨before, hbefore, h⟩ := bind_eq_ok_iff.1 h
    obtain ⟨after, hset, h⟩ := bind_eq_ok_iff.1 h
    obtain rfl := Except.ok.inj h
    exact (ih hbefore).append (set_eq_ok_iff.1 hset)

/-- Entries that can be taken one by one can be taken one after another. -/
theorem exists_ofToml {entries : Toml.Entries}
    (h : ∀ entry ∈ entries, ∃ s', default.Sets entry s') : ∃ s, ofToml entries = .ok s := by
  induction entries using List.reverseRecOn with
  | nil => exact ⟨default, rfl⟩
  | append_singleton entries entry ih =>
    obtain ⟨s, hs⟩ := ih fun e he => h e (List.mem_append_left _ he)
    obtain ⟨after, hset⟩ : ∃ after, s.Sets entry after := by
      obtain ⟨s', hset⟩ := h entry (List.mem_append_right _ (List.mem_singleton_self entry))
      exact hset.exists_of s
    refine ⟨after, ?_⟩
    rw [ofToml, List.foldlM_append]
    exact bind_eq_ok_iff.2 ⟨s, hs, bind_eq_ok_iff.2 ⟨after, set_eq_ok_iff.2 hset, rfl⟩⟩

/-- **The settings of a document are those that it describes.** -/
theorem ofToml_eq_ok_iff {entries : Toml.Entries} {s : Settings} :
    ofToml entries = .ok s ↔ TakenFrom entries s := by
  refine ⟨takenFrom_of_ofToml, fun h => ?_⟩
  obtain ⟨s', hs'⟩ := exists_ofToml h.taken
  rw [hs', h.unique (takenFrom_of_ofToml hs')]

end Settings

end AccessGraph
