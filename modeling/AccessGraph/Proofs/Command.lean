import AccessGraph.Command.Run
import AccessGraph.Proofs.FileSystem
import AccessGraph.Proofs.Outline.Text
import AccessGraph.Proofs.Program.RoundTrip
import AccessGraph.Proofs.Settings
/-!
# What a run leaves

A run reads all that it needs before it writes, and writes before it reports. So it either writes what it
has been asked for, or leaves all files as they are, as long as no write breaks off.

* `Format.Shows` : how a table is shown in a format.
* `LogFilter.InForce` : the filter for log messages that counts.
* `Request.Configured`, `Request.Starts`, `Request.Names` : the settings of a request, whether it gets to
  its program, and the program.
* `Command.Answer`, `Request.Answered` : what is to be printed and written for a request.
* `Request.Hindered` : the first thing that keeps a request from being answered.
* `Request.prepare_eq_ok_iff`, `Request.prepare_eq_error_iff` : a run prepares the answer to its request,
  and fails for the first thing that hinders it.
* `Command.run_leaves` : **what is left after a run.**
* `Command.run_writes_or_leaves` : **a run writes what is asked for, or changes no file.**
-/

namespace AccessGraph

/-! ### What is asked for -/

/-- How a table is shown in a format: the name of the format in reports, and the content. -/
inductive Format.Shows (table : Table) : Format → String → List UInt8 → Prop where
  | binary {buffer : List UInt8} (h : table.encode = .ok buffer) : Shows table .binary "Binary" buffer
  | json : Shows table .json "Json" (utf8Bytes (Listing.ofTable table).toJson.pretty)
  | dot : Shows table .dot "Dot" (utf8Bytes table.dot)

/-- The filter for log messages that counts. The one from outside does unless it is faulty, and also if
it cannot be taken apart. -/
inductive LogFilter.InForce (given : Option String) (filter : String) : String → Prop where
  | given {text : String} (hgiven : given = some text)
      (h : ∀ fault, fault? text = some fault → fault = .cut) : InForce given filter text
  | settings (h : ∀ text, given = some text → ∃ fault, fault? text = some fault ∧ fault ≠ .cut) :
      InForce given filter filter

namespace Command

/-- What is to be printed and written for a request. -/
structure Answer where
  /-- The outline is asked for. -/
  dump : Bool
  /-- The graph of the program. -/
  tree : Tree
  /-- The buffer of the graph. -/
  buffer : List UInt8
  /-- The name of the format in reports. -/
  title : String
  /-- The content of the output. -/
  content : List UInt8

/-- What is printed before the output is written. -/
def Answer.dumped (a : Answer) : String :=
  if a.dump then String.join ((a.tree.outlineLines a.buffer.length).map (· ++ "\n")) else ""

/-- What is printed after the output has been written to a path. -/
def Answer.completion (a : Answer) (path : String) : String :=
  "Extraction completed! " ++ toString a.tree.size ++ " nodes, output written to " ++ path ++
    " (format: " ++ a.title ++ ")\n"

end Command

namespace Request

variable (around : Command.Surroundings) (files : Files) (r : Request)

/-- The settings of a request, before its own options count. -/
inductive Configured : Settings → Prop where
  | absent (hpath : r.config = none) : Configured ⟨false, .binary, "info"⟩
  | present {path text : String} {entries : Toml.Entries} {s : Settings} (hpath : r.config = some path)
      (hread : around.system.ReadsText files path (.ok text))
      (hdocument : Toml.ofText? text = some entries) (htaken : s.TakenFrom entries) : Configured s

/-- The settings of a request are known, and the filter for log messages is one. -/
structure Starts (s : Settings) : Prop where
  configured : r.Configured around files s
  filtered : ∃ filter, LogFilter.InForce around.logFilter s.logFilter filter ∧
    LogFilter.fault? filter = none

/-- The program that a request names. -/
inductive Names (program : Stmt) : Prop where
  | intro {text : String} (hread : around.system.ReadsText files r.input (.ok text))
      (hprogram : Stmt.ofJson text = .ok program)

/-- The answer to a request. Its own format prevails over that of the settings, and the outline is asked
for in either place. -/
inductive Answered : Command.Answer → Prop where
  | intro {s : Settings} {program : Stmt} {x : Extraction} {title : String} {content : List UInt8}
      (hstarts : r.Starts around files s) (hnames : r.Names around files program)
      (hextraction : program.extract = .ok x)
      (hshows : (r.format.getD s.format).Shows x.table title content) :
      Answered ⟨s.dump || r.dump, program.graph, x.buffer, title, content⟩

/-- The first thing that keeps a request from being answered. -/
inductive Hindered : Command.Failure → Prop where
  | configUnread {path : String} {fault : Files.Fault} (hpath : r.config = some path)
      (h : around.system.ReadsText files path (.error fault)) : Hindered (.configUnread path fault)
  | configRefused {path text : String} {fault : Settings.Fault} (hpath : r.config = some path)
      (hread : around.system.ReadsText files path (.ok text)) (h : Settings.ofText text = .error fault) :
      Hindered (.configRefused path fault)
  | logFilter {s : Settings} {filter : String} {fault : LogFilter.Fault}
      (hs : r.Configured around files s)
      (hfilter : LogFilter.InForce around.logFilter s.logFilter filter)
      (h : LogFilter.fault? filter = some fault) : Hindered (.logFilter filter fault)
  | inputUnread {s : Settings} {fault : Files.Fault} (hstarts : r.Starts around files s)
      (h : around.system.ReadsText files r.input (.error fault)) : Hindered (.inputUnread r.input fault)
  | inputRefused {s : Settings} {text : String} {fault : Json.Fault} (hstarts : r.Starts around files s)
      (hread : around.system.ReadsText files r.input (.ok text)) (h : Stmt.ofJson text = .error fault) :
      Hindered (.inputRefused r.input fault)
  | extraction {s : Settings} {program : Stmt} {failure : Failure} (hstarts : r.Starts around files s)
      (hnames : r.Names around files program) (h : program.extract = .error failure) :
      Hindered (.extraction failure)

end Request

/-! ### What is prepared -/

/-- There is always a filter that counts. -/
theorem LogFilter.exists_inForce (given : Option String) (filter : String) :
    ∃ text, InForce given filter text := by
  by_cases h : ∀ text, given = some text → ∃ fault, fault? text = some fault ∧ fault ≠ .cut
  · exact ⟨filter, .settings h⟩
  · push Not at h
    obtain ⟨text, hgiven, h⟩ := h
    exact ⟨text, .given hgiven h⟩

namespace Request

open FileSystem (readText_eq_iff)

variable {around : Command.Surroundings} {files : Files} {r : Request} {given : Option String}

/-- The settings that are read are those that the request names. -/
theorem configured_eq_ok_iff {s : Settings} :
    r.configured (around.system.readText files) = .ok s ↔ r.Configured around files s := by
  rw [configured]
  cases hpath : r.config with
  | none =>
    constructor
    · intro h
      obtain rfl := Except.ok.inj h
      exact .absent hpath
    · intro h
      cases h with
      | absent => rfl
      | present hpath' => simp [hpath] at hpath'
  | some path =>
    constructor
    · intro h
      obtain ⟨text, hread, h⟩ := bind_eq_ok_iff.1 h
      have htext := mapError_eq_ok_iff.1 h
      unfold Settings.ofText at htext
      split at htext
      case h_1 entries hdocument =>
        exact .present hpath (readText_eq_iff.1 (mapError_eq_ok_iff.1 hread)) hdocument
          (Settings.ofToml_eq_ok_iff.1 htext)
      case h_2 => cases htext
    · intro h
      cases h with
      | absent hpath' => simp [hpath] at hpath'
      | present hpath' hread hdocument htaken =>
        obtain rfl : path = _ := Option.some.inj (hpath.symm.trans hpath')
        refine bind_eq_ok_iff.2 ⟨_, mapError_eq_ok_iff.2 (readText_eq_iff.2 hread), ?_⟩
        refine mapError_eq_ok_iff.2 ?_
        simp only [Settings.ofText, hdocument]
        exact Settings.ofToml_eq_ok_iff.2 htaken

/-- The filter that counts is the one that is checked. -/
theorem checkFilter_eq {filter text : String} (h : LogFilter.InForce given filter text) :
    checkFilter given filter = checkFallback text := by
  cases h with
  | given hgiven h =>
    subst hgiven
    cases hfault : LogFilter.fault? text with
    | none => simp only [checkFilter, checkFallback, hfault]
    | some fault =>
      obtain rfl := h fault hfault
      simp only [checkFilter, checkFallback, hfault]
  | settings h =>
    cases given with
    | none => rfl
    | some text =>
      obtain ⟨fault, hfault, hother⟩ := h text rfl
      cases fault <;> simp_all [checkFilter]

/-- A filter passes if the one that counts has no fault. -/
theorem checkFilter_eq_ok_iff {filter : String} {u : Unit} : checkFilter given filter = .ok u ↔
    ∃ text, LogFilter.InForce given filter text ∧ LogFilter.fault? text = none := by
  have hfallback (text : String) : checkFallback text = .ok u ↔ LogFilter.fault? text = none := by
    unfold checkFallback
    split <;> simp [*]
  constructor
  · intro h
    obtain ⟨text, htext⟩ := LogFilter.exists_inForce given filter
    rw [checkFilter_eq htext] at h
    exact ⟨text, htext, (hfallback text).1 h⟩
  · rintro ⟨text, htext, h⟩
    rw [checkFilter_eq htext]
    exact (hfallback text).2 h

/-- A filter is refused for the fault of the one that counts. -/
theorem checkFilter_eq_error_iff {filter : String} {failure : Command.Failure} :
    checkFilter given filter = .error failure ↔ ∃ text fault, LogFilter.InForce given filter text ∧
      LogFilter.fault? text = some fault ∧ failure = .logFilter text fault := by
  constructor
  · intro h
    obtain ⟨text, htext⟩ := LogFilter.exists_inForce given filter
    rw [checkFilter_eq htext, checkFallback] at h
    split at h
    case h_1 fault hfault => exact ⟨text, fault, htext, hfault, (Except.error.inj h).symm⟩
    case h_2 => cases h
  · rintro ⟨text, fault, htext, hfault, rfl⟩
    simp only [checkFilter_eq htext, checkFallback, hfault]

/-- The extraction is that of the program that the request names. -/
theorem extraction_eq_ok_iff {x : Extraction} : r.extraction (around.system.readText files) = .ok x ↔
    ∃ program, r.Names around files program ∧ program.extract = .ok x := by
  constructor
  · intro h
    obtain ⟨text, hread, h⟩ := bind_eq_ok_iff.1 h
    obtain ⟨program, hprogram, h⟩ := bind_eq_ok_iff.1 h
    exact ⟨program, ⟨readText_eq_iff.1 (mapError_eq_ok_iff.1 hread), mapError_eq_ok_iff.1 hprogram⟩,
      mapError_eq_ok_iff.1 h⟩
  · rintro ⟨program, ⟨hread, hprogram⟩, h⟩
    exact bind_eq_ok_iff.2 ⟨_, mapError_eq_ok_iff.2 (readText_eq_iff.2 hread), bind_eq_ok_iff.2
      ⟨_, mapError_eq_ok_iff.2 hprogram, mapError_eq_ok_iff.2 h⟩⟩

/-- Formats show a table under their titles by what is written in them. -/
theorem shows_iff {program : Stmt} {x : Extraction} (hx : program.extract = .ok x) {format : Format}
    {title : String} {content : List UInt8} : format.Shows x.table title content ↔
      title = format.title ∧ content = format.render x := by
  have hbuffer := (Extraction.encode_of_ofTree (Stmt.ofTree_of_extract hx)).2
  constructor
  · intro h
    cases h with
    | binary h => exact ⟨rfl, Except.ok.inj (h.symm.trans hbuffer)⟩
    | json | dot => exact ⟨rfl, rfl⟩
  · rintro ⟨rfl, rfl⟩
    cases format with
    | binary => exact .binary hbuffer
    | json => exact .json
    | dot => exact .dot

/-- The answer that is made of the settings and the extraction. -/
def answer (r : Request) (s : Settings) (program : Stmt) (x : Extraction) : Command.Answer where
  dump := s.dump || r.dump
  tree := program.graph
  buffer := x.buffer
  title := (r.format.getD s.format).title
  content := (r.format.getD s.format).render x

/-- There is one answer to what the request comes to. -/
theorem answered_iff {a : Command.Answer} : r.Answered around files a ↔
    ∃ s program x, r.Starts around files s ∧ r.Names around files program ∧ program.extract = .ok x ∧
      a = r.answer s program x := by
  constructor
  · rintro ⟨hstarts, hnames, hx, hshows⟩
    obtain ⟨rfl, rfl⟩ := (shows_iff hx).1 hshows
    exact ⟨_, _, _, hstarts, hnames, hx, rfl⟩
  · rintro ⟨s, program, x, hstarts, hnames, hx, rfl⟩
    exact ⟨hstarts, hnames, hx, (shows_iff hx).2 ⟨rfl, rfl⟩⟩

/-- What there is to do once everything has been read. -/
def work (r : Request) (s : Settings) (x : Extraction) : Command.Work where
  outline := if s.dump || r.dump then x.outline else ""
  content := (r.format.getD s.format).render x
  completion := r.completion (r.format.getD s.format) x

/-- What there is to do is to print and to write the answer. -/
theorem work_eq {s : Settings} {program : Stmt} {x : Extraction} (hx : program.extract = .ok x) :
    r.work s x = ⟨(r.answer s program x).dumped, (r.answer s program x).content,
      (r.answer s program x).completion r.output⟩ := by
  have htree := Stmt.ofTree_of_extract hx
  have hcount : x.table.count = program.graph.size := by
    rw [Extraction.table_of_ofTree htree, Table.count_ofTree_eq_size]
  unfold work completion answer Command.Answer.dumped Command.Answer.completion
  rw [Extraction.outline_eq htree, hcount]

/-- Once there are settings, the log filter is checked and the program is read. -/
theorem prepare_eq {s : Settings} (hs : r.Configured around files s) :
    r.prepare around.logFilter (around.system.readText files) = (do
      checkFilter around.logFilter s.logFilter
      let x ← r.extraction (around.system.readText files)
      .ok (r.work s x)) := by
  rw [prepare, settings, configured_eq_ok_iff.2 hs]
  rfl

/-- A run prepares the answer to its request. -/
theorem prepare_eq_ok_iff {w : Command.Work} :
    r.prepare around.logFilter (around.system.readText files) = .ok w ↔
      ∃ a, r.Answered around files a ∧ w = ⟨a.dumped, a.content, a.completion r.output⟩ := by
  constructor
  · intro h
    obtain ⟨_, hsettings, -⟩ := bind_eq_ok_iff.1 h
    obtain ⟨s, hs, -⟩ := bind_eq_ok_iff.1 hsettings
    have hs := configured_eq_ok_iff.1 hs
    rw [prepare_eq hs] at h
    obtain ⟨_, hfilter, h⟩ := bind_eq_ok_iff.1 h
    obtain ⟨x, hx, h⟩ := bind_eq_ok_iff.1 h
    obtain ⟨program, hnames, hx⟩ := extraction_eq_ok_iff.1 hx
    have hanswered : r.Answered around files (r.answer s program x) :=
      answered_iff.2 ⟨s, program, x, ⟨hs, checkFilter_eq_ok_iff.1 hfilter⟩, hnames, hx, rfl⟩
    exact ⟨_, hanswered, (Except.ok.inj h).symm.trans (work_eq hx)⟩
  · rintro ⟨a, ha, rfl⟩
    obtain ⟨s, program, x, ⟨hs, hfilter⟩, hnames, hx, rfl⟩ := answered_iff.1 ha
    rw [prepare_eq hs, ← work_eq hx]
    refine bind_eq_ok_iff.2 ⟨(), checkFilter_eq_ok_iff.2 hfilter, ?_⟩
    exact bind_eq_ok_iff.2 ⟨x, extraction_eq_ok_iff.2 ⟨program, hnames, hx⟩, rfl⟩

/-- The settings cannot be read for the first thing that hinders a request. -/
theorem hindered_of_configured {failure : Command.Failure}
    (h : r.configured (around.system.readText files) = .error failure) :
    r.Hindered around files failure := by
  unfold configured at h
  split at h
  case h_1 => cases h
  case h_2 path hpath =>
    rcases bind_eq_error_iff.1 h with h | ⟨text, hread, h⟩
    · obtain ⟨fault, hfault, rfl⟩ := mapError_eq_error_iff.1 h
      exact .configUnread hpath (readText_eq_iff.1 hfault)
    · obtain ⟨fault, hfault, rfl⟩ := mapError_eq_error_iff.1 h
      exact .configRefused hpath (readText_eq_iff.1 (mapError_eq_ok_iff.1 hread)) hfault

/-- There is no extraction for the first thing that hinders a request. -/
theorem hindered_of_extraction {s : Settings} (hstarts : r.Starts around files s)
    {failure : Command.Failure} (h : r.extraction (around.system.readText files) = .error failure) :
    r.Hindered around files failure := by
  rcases bind_eq_error_iff.1 h with h | ⟨text, hread, h⟩
  · obtain ⟨fault, hfault, rfl⟩ := mapError_eq_error_iff.1 h
    exact .inputUnread hstarts (readText_eq_iff.1 hfault)
  have hread := readText_eq_iff.1 (mapError_eq_ok_iff.1 hread)
  rcases bind_eq_error_iff.1 h with h | ⟨program, hprogram, h⟩
  · obtain ⟨fault, hfault, rfl⟩ := mapError_eq_error_iff.1 h
    exact .inputRefused hstarts hread hfault
  · obtain ⟨failure, hfault, rfl⟩ := mapError_eq_error_iff.1 h
    exact .extraction hstarts ⟨hread, mapError_eq_ok_iff.1 hprogram⟩ hfault

/-- A run that prepares nothing is hindered. -/
theorem hindered_of_prepare {failure : Command.Failure}
    (h : r.prepare around.logFilter (around.system.readText files) = .error failure) :
    r.Hindered around files failure := by
  cases hs : r.configured (around.system.readText files) with
  | error cause =>
    -- without settings nothing else is looked at
    have hprepare : r.prepare around.logFilter (around.system.readText files) = .error cause :=
      bind_eq_error_iff.2 (.inl (bind_eq_error_iff.2 (.inl hs)))
    obtain rfl := Except.error.inj (h.symm.trans hprepare)
    exact hindered_of_configured hs
  | ok s =>
    have hs := configured_eq_ok_iff.1 hs
    rw [prepare_eq hs] at h
    rcases bind_eq_error_iff.1 h with h | ⟨_, hfilter, h⟩
    · obtain ⟨text, fault, hforce, hfault, rfl⟩ := checkFilter_eq_error_iff.1 h
      exact .logFilter hs hforce hfault
    rcases bind_eq_error_iff.1 h with h | ⟨x, -, h⟩
    · exact hindered_of_extraction ⟨hs, checkFilter_eq_ok_iff.1 hfilter⟩ h
    · cases h

/-- The run of a request that gets to its program fails if that has no extraction. -/
theorem prepare_of_extraction {s : Settings} (hstarts : r.Starts around files s)
    {failure : Command.Failure} (h : r.extraction (around.system.readText files) = .error failure) :
    r.prepare around.logFilter (around.system.readText files) = .error failure := by
  rw [prepare_eq hstarts.configured]
  refine bind_eq_error_iff.2 (.inr ⟨(), checkFilter_eq_ok_iff.2 hstarts.filtered, ?_⟩)
  exact bind_eq_error_iff.2 (.inl h)

/-- A run that is hindered prepares nothing. -/
theorem prepare_of_hindered {failure : Command.Failure} (h : r.Hindered around files failure) :
    r.prepare around.logFilter (around.system.readText files) = .error failure := by
  cases h with
  | configUnread hpath h =>
    refine bind_eq_error_iff.2 (.inl (bind_eq_error_iff.2 (.inl ?_)))
    rw [configured, hpath]
    exact bind_eq_error_iff.2 (.inl (mapError_eq_error_iff.2 ⟨_, readText_eq_iff.2 h, rfl⟩))
  | configRefused hpath hread h =>
    refine bind_eq_error_iff.2 (.inl (bind_eq_error_iff.2 (.inl ?_)))
    rw [configured, hpath]
    exact bind_eq_error_iff.2 (.inr ⟨_, mapError_eq_ok_iff.2 (readText_eq_iff.2 hread),
      mapError_eq_error_iff.2 ⟨_, h, rfl⟩⟩)
  | logFilter hs hforce h =>
    rw [prepare_eq hs]
    exact bind_eq_error_iff.2 (.inl (checkFilter_eq_error_iff.2 ⟨_, _, hforce, h, rfl⟩))
  | inputUnread hstarts h =>
    refine prepare_of_extraction hstarts (bind_eq_error_iff.2 (.inl ?_))
    exact mapError_eq_error_iff.2 ⟨_, readText_eq_iff.2 h, rfl⟩
  | inputRefused hstarts hread h =>
    refine prepare_of_extraction hstarts ?_
    refine bind_eq_error_iff.2 (.inr ⟨_, mapError_eq_ok_iff.2 (readText_eq_iff.2 hread), ?_⟩)
    exact bind_eq_error_iff.2 (.inl (mapError_eq_error_iff.2 ⟨_, h, rfl⟩))
  | extraction hstarts hnames h =>
    obtain ⟨hread, hprogram⟩ := hnames
    refine prepare_of_extraction hstarts ?_
    refine bind_eq_error_iff.2 (.inr ⟨_, mapError_eq_ok_iff.2 (readText_eq_iff.2 hread), ?_⟩)
    refine bind_eq_error_iff.2 (.inr ⟨_, mapError_eq_ok_iff.2 hprogram, ?_⟩)
    exact mapError_eq_error_iff.2 ⟨_, h, rfl⟩

/-- A run fails for the first thing that hinders it. -/
theorem prepare_eq_error_iff {failure : Command.Failure} :
    r.prepare around.logFilter (around.system.readText files) = .error failure ↔
      r.Hindered around files failure :=
  ⟨hindered_of_prepare, prepare_of_hindered⟩

/-- There is at most one answer to a request. -/
theorem Answered.unique {a a' : Command.Answer} (h : r.Answered around files a)
    (h' : r.Answered around files a') : a = a' := by
  obtain ⟨s, program, x, hstarts, ⟨hread, hprogram⟩, hx, rfl⟩ := answered_iff.1 h
  obtain ⟨s', program', x', hstarts', ⟨hread', hprogram'⟩, hx', rfl⟩ := answered_iff.1 h'
  have hs := (configured_eq_ok_iff.2 hstarts.configured).symm.trans
    (configured_eq_ok_iff.2 hstarts'.configured)
  obtain rfl := Except.ok.inj hs
  obtain rfl := Except.ok.inj ((readText_eq_iff.2 hread).symm.trans (readText_eq_iff.2 hread'))
  obtain rfl := Except.ok.inj (hprogram.symm.trans hprogram')
  obtain rfl := Except.ok.inj (hx.symm.trans hx')
  rfl

/-- A request that has an answer is not hindered. -/
theorem Answered.not_hindered {a : Command.Answer} (h : r.Answered around files a)
    {failure : Command.Failure} : ¬ r.Hindered around files failure := by
  intro hhindered
  have hprepare := prepare_of_hindered hhindered
  rw [prepare_eq_ok_iff.2 ⟨a, h, rfl⟩] at hprepare
  cases hprepare

end Request

namespace Command

variable {around : Surroundings} {files : Files} {r : Request}

/-- A run that fails is known by another number than one that does not. -/
theorem Ending.status_ofFailure (failure : Failure) : (Ending.ofFailure failure).status ≠ 0 := by
  unfold ofFailure
  split <;> simp [status]

/-- What can be left after a run. -/
inductive Leaves (around : Surroundings) (files : Files) (r : Request) : Outcome → Prop where
  /-- The output has been written, and the whole report has been printed. -/
  | completed {a : Answer} {after : Files}
      (ha : r.Answered around files a)
      (h : around.system.Written files r.output a.content after) :
      Leaves around files r ⟨.completed, a.dumped ++ a.completion r.output, after⟩
  /-- Nothing has been printed or written. -/
  | hindered {failure : Failure}
      (h : r.Hindered around files failure) :
      Leaves around files r ⟨.ofFailure failure, "", files⟩
  /-- The output cannot be written. -/
  | unwritable {a : Answer} {fault : Files.Fault}
      (ha : r.Answered around files a)
      (h : around.system.Unwritable files r.output fault) :
      Leaves around files r ⟨.failed (.output fault), a.dumped, files⟩
  /-- The output has not been written to its end. -/
  | cutOff {a : Answer} {fault : Files.Fault} {after : Files}
      (ha : r.Answered around files a)
      (h : around.system.CutOff files r.output a.content fault after) :
      Leaves around files r ⟨.failed (.output fault), a.dumped, after⟩

/-- **What is left after a run.** -/
theorem run_leaves (around : Surroundings) (files : Files) {arguments : List String} {r : Request}
    (h : Request.ofArguments? arguments = some r) :
    Leaves around files r (run files arguments around) := by
  simp only [run, h, perform]
  cases hprepare : r.prepare around.logFilter (around.system.readText files) with
  | error failure => exact .hindered (Request.prepare_eq_error_iff.1 hprepare)
  | ok work =>
    obtain ⟨a, ha, rfl⟩ := Request.prepare_eq_ok_iff.1 hprepare
    have hwrite := FileSystem.write_leaves around.system files r.output a.content
    dsimp only
    generalize around.system.write files r.output a.content = result at hwrite ⊢
    cases hwrite with
    | written h => exact .completed ha h
    | unwritable h => exact .unwritable ha h
    | cutOff h => exact .cutOff ha h

/-- **A run writes what is asked for, or changes no file**, where no write breaks off. It ends well only
with the output written and the whole report printed. Otherwise it has been hindered and prints nothing,
or the output cannot be written and nothing but the outline has been printed. -/
theorem run_writes_or_leaves (hwhole : around.system.WritesWhole) (files : Files)
    {arguments : List String} {r : Request} (h : Request.ofArguments? arguments = some r) :
    ((run files arguments around).ending.status = 0 ∧
      ∃ a, r.Answered around files a ∧
        (run files arguments around).printed = a.dumped ++ a.completion r.output ∧
        around.system.Written files r.output a.content (run files arguments around).files) ∨
    ((run files arguments around).ending.status ≠ 0 ∧ (run files arguments around).files = files ∧
      ((∃ failure, r.Hindered around files failure ∧
        (run files arguments around).ending = .ofFailure failure ∧
        (run files arguments around).printed = "") ∨
      ∃ a fault, r.Answered around files a ∧
        around.system.Unwritable files r.output fault ∧
        (run files arguments around).ending = .failed (.output fault) ∧
        (run files arguments around).printed = a.dumped)) := by
  have hleaves := run_leaves around files h
  generalize run files arguments around = outcome at hleaves ⊢
  cases hleaves with
  | completed ha h => exact .inl ⟨rfl, _, ha, rfl, h⟩
  | hindered h => exact .inr ⟨Ending.status_ofFailure _, rfl, .inl ⟨_, h, rfl, rfl⟩⟩
  | unwritable ha h => exact .inr ⟨Nat.one_ne_zero, rfl, .inr ⟨_, _, ha, h, rfl, rfl⟩⟩
  | cutOff ha h =>
    obtain ⟨-, hcut, -⟩ := h
    simp [hwhole _ _] at hcut

/-- A loop in which nothing happens. -/
def idleLoop : Stmt := .loop (.named "i") (.int 0) (.int 4) .serial (.sequence [])

/-- Settings that ask for a listing and the outline. Their log filter is not one. -/
def misfiltered : String := "dump = true\nformat = \"json\"\nlog_filter = \"a=b=c\"\n"

/-- The files of a program and of settings. -/
def filesOf (program settings : String) : Files :=
  ⟨[(["home", "p"], utf8Bytes program), (["home", "s"], utf8Bytes settings)]⟩

/-- The loop, and settings whose log filter does not count. -/
def idleFiles : Files := filesOf idleLoop.toJson.compact misfiltered

/-- Paths start in the directory of the program, to which a link leads as well, and a log filter is given
from outside. -/
def linked : Surroundings where
  system := { FileSystem.plain with workingDirectory := ["home"], links := [(["out"], "/home")] }
  logFilter := some "debug"

/-- The buffer is to be written below the link, which is over the program. -/
def overProgram : List String := ["--input=p", "-c", "./s", "-fbinary", "-o", "/home/../out/p"]

/-- The graph of the loop: the root, the loop, and its variable. -/
def idleTree : Tree := .node "root" [(.structural, .node "for" [(.structural, .leaf "i")])]

/-- The buffer of the graph: the header, the children, the kinds of edges, and the labels. -/
def idleBuffer : List UInt8 :=
  [2, 0, 0, 0, 3, 0, 0, 0, 20, 0, 0, 0, 40, 0, 0, 0, 60, 0, 0, 0] ++
  [0, 0, 0, 0, 1, 0, 0, 0, 1, 0, 0, 0, 0, 0, 0, 0, 1, 0, 0, 0] ++
  [0, 0, 0, 0, 1, 0, 0, 0, 1, 0, 0, 0, 0, 0, 0, 0, 0, 0, 0, 0] ++
  [1, 0, 0, 0, 3, 0, 0, 0, 4, 0, 0, 0, 105, 102, 111, 114, 114, 111, 111, 116]

/-- The lines of the outline. -/
def idleLines : List String :=
  ["root_id: 2", "node_count: 3", "offset_children: 20", "offset_edges: 40", "offset_labels: 60",
    "total_size: 80", "children:", "  0: []", "  1: [0]", "  2: [1]", "labels:", "  0: i",
    "  1: for", "  2: root", "tree:", "root", " for", "  i"]

theorem locate_filesOf (program settings : String) :
    linked.system.locate (filesOf program settings) "p" = .file ["home", "p"] (utf8Bytes program) ∧
    linked.system.locate (filesOf program settings) "./s" = .file ["home", "s"] (utf8Bytes settings) ∧
    linked.system.locate (filesOf program settings) "/home/../out/p" =
      .file ["home", "p"] (utf8Bytes program) :=
  ⟨rfl, rfl, rfl⟩

theorem ofJson_idleLoop : Stmt.ofJson idleLoop.toJson.compact = .ok idleLoop := by
  have hfloats : AllReadBack idleLoop.floats := by
    intro x hx
    cases hx
  rw [Json.Value.compact, Stmt.ofJson_write Json.Spacing.isBlank_none hfloats]
  exact Json.within_of_le (by decide) _

theorem ofText_misfiltered : Settings.ofText misfiltered = .ok ⟨true, .json, "a=b=c"⟩ := by
  have h : (Settings.ofText misfiltered).toOption = some ⟨true, .json, "a=b=c"⟩ := by
    decide +kernel
  cases hsettings : Settings.ofText misfiltered with
  | error fault => simp [hsettings, Except.toOption] at h
  | ok s => simpa [hsettings, Except.toOption] using h

theorem table_idleTree : Table.ofTree idleTree = {
    rootId := 2
    children := [[], [0], [1]]
    edges := [[], [.structural], [.structural]]
    labels := ["i", "for", "root"] } := by
  rw [Table.ofTree_eq]
  decide

theorem outlineLines_idleTree : idleTree.outlineLines idleBuffer.length = idleLines := by
  rw [Tree.outlineLines, table_idleTree]
  rfl

theorem extract_idleLoop : ∃ x, idleLoop.extract = .ok x ∧ x.table.encode = .ok idleBuffer ∧
    x.buffer = idleBuffer := by
  have hgraph : idleLoop.graph = idleTree := by decide
  obtain ⟨x, hx, htable, hbuffer⟩ := Stmt.extract_eq_ok (s := idleLoop)
    (by rw [hgraph, table_idleTree]; decide)
  have hencode : x.table.encode = .ok idleBuffer := by
    rw [htable, hgraph, table_idleTree]
    rfl
  exact ⟨x, hx, hencode, Except.ok.inj (hbuffer.symm.trans hencode)⟩

theorem answered_overProgram {program settings : String}
    (hprogram : Stmt.ofJson program = .ok idleLoop)
    (hsettings : Settings.ofText settings = .ok ⟨true, .json, "a=b=c"⟩) :
    Request.Answered linked (filesOf program settings)
      ⟨"p", "/home/../out/p", some .binary, false, some "./s"⟩
      ⟨true, idleTree, idleBuffer, "Binary", idleBuffer⟩ := by
  obtain ⟨hinput, hconfig, -⟩ := locate_filesOf program settings
  have hread := FileSystem.readText_eq_iff.2 (.text (.file hconfig rfl))
  have hconfigured : Request.Configured linked (filesOf program settings)
      ⟨"p", "/home/../out/p", some .binary, false, some "./s"⟩ ⟨true, .json, "a=b=c"⟩ := by
    refine Request.configured_eq_ok_iff.1 ?_
    refine bind_eq_ok_iff.2 ⟨settings, mapError_eq_ok_iff.2 hread, ?_⟩
    exact mapError_eq_ok_iff.2 hsettings
  -- the filter of the settings would be refused, but is not looked at
  have hforce : LogFilter.InForce linked.logFilter "a=b=c" "debug" :=
    .given rfl (by simp [show LogFilter.fault? "debug" = none by decide])
  have hgraph : idleLoop.graph = idleTree := by decide
  obtain ⟨x, hx, hencode, hbuffer⟩ := extract_idleLoop
  have hanswered := Request.Answered.intro ⟨hconfigured, "debug", hforce, by decide⟩
    ⟨.text (.file hinput rfl), hprogram⟩ hx (.binary hencode)
  rw [hbuffer, hgraph] at hanswered
  exact hanswered

theorem run_writes_or_leaves_over :
    linked.system.WritesWhole ∧
      Request.ofArguments? overProgram =
        some ⟨"p", "/home/../out/p", some .binary, false, some "./s"⟩ ∧
      (run idleFiles overProgram linked).ending.status = 0 ∧
      (run idleFiles overProgram linked).printed =
        String.join ((idleLines ++ ["Extraction completed! 3 nodes, output written to /home/../out/p " ++
          "(format: Binary)"]).map (· ++ "\n")) ∧
      (run idleFiles overProgram linked).files.find? ["home", "p"] = some idleBuffer ∧
      (run idleFiles overProgram linked).files.find? ["home", "s"] =
        some (utf8Bytes misfiltered) := by
  have hwhole : linked.system.WritesWhole := fun _ _ => rfl
  have harguments : Request.ofArguments? overProgram =
      some ⟨"p", "/home/../out/p", some .binary, false, some "./s"⟩ := by decide
  have hplace : (linked.system.locate idleFiles "/home/../out/p").IsOf ["home", "p"] := by
    rw [idleFiles, (locate_filesOf _ _).2.2]
    constructor
  have hanswered := answered_overProgram ofJson_idleLoop ofText_misfiltered
  rcases run_writes_or_leaves hwhole idleFiles harguments with
    ⟨hstatus, a, ha, hprinted, hwritten⟩ |
    ⟨-, -, ⟨failure, hhindered, -⟩ | ⟨a, fault, -, hunwritable, -⟩⟩
  · obtain rfl := ha.unique hanswered
    have hstores := hwritten.stores hplace
    refine ⟨hwhole, harguments, hstatus, hprinted.trans ?_, hstores.found, ?_⟩
    · rw [Answer.dumped, if_pos rfl, outlineLines_idleTree]
      rfl
    · exact hstores.others ["home", "s"] (by decide)
  · exact absurd hhindered hanswered.not_hindered
  · exact absurd hunwritable (FileSystem.not_unwritable hplace rfl)

end Command

end AccessGraph
