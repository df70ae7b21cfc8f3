import AccessGraph.FileSystem
import AccessGraph.Proofs.Files
import AccessGraph.Proofs.Result
/-!
# Files that are read and written

Writing to a path changes the one file that the path leads to, whether it has been there or not, and
the same path leads to it afterwards. A write that fails has changed nothing, or has left a beginning
of the content in that file.

* `FileSystem.Place.IsOf` : a place is that of a file.
* `FileSystem.Takes` : a file is in a place, or can be made there.
* `FileSystem.walk_put_of_arrived`, `FileSystem.walk_put_of_linked` : the way to such a place stays
  the same when a file is written there.
* `FileSystem.locate_put` : the path leads to the file that has been written.
* `FileSystem.Reads`, `FileSystem.ReadsText` : what is read from a path, or why nothing is.
* `FileSystem.read_eq_iff`, `FileSystem.readText_eq_iff` : **that is what is read.**
* `FileSystem.Written`, `FileSystem.CutOff` : what a write leaves that succeeds, and one that breaks
  off.
* `FileSystem.Unwritable` : why nothing can be written to a path.
* `FileSystem.write_leaves` : **a write succeeds, changes nothing, or breaks off.**
-/

namespace AccessGraph

namespace FileSystem

open Files (Fault)

variable {system : FileSystem} {files : Files} {place : List String}

/-! ### Where a path leads -/

/-- A place is that of a file, which may be there or not. -/
inductive Place.IsOf (place : List String) : Place → Prop where
  | file (old : List UInt8) : IsOf place (.file place old)
  | free : IsOf place (.free place)

/-- A place is that of one file only. -/
theorem Place.IsOf.unique {p : Place} {place other : List String} (h : p.IsOf place)
    (h' : p.IsOf other) : place = other := by
  cases h <;> cases h' <;> rfl

/-- A path leads to the place of a file only where it ends. -/
theorem stopAt_eq_arrived {p q : Place} {fault : Fault} {rest : List String}
    (h : stopAt p fault rest = .arrived q) (hq : q.IsOf place) : rest = [] ∧ p = q := by
  cases rest with
  | nil => exact ⟨rfl, Step.arrived.inj h⟩
  | cons name rest =>
    obtain rfl := Step.arrived.inj h
    simp only [List.isEmpty_cons, Bool.false_eq_true, if_false] at hq
    split at hq <;> cases hq

/-- A file is in a place, or can be made there, since nothing else is there. -/
def Takes (system : FileSystem) (files : Files) (place : List String) : Prop :=
  files.find? place = none →
    system.devices.lookup place = none ∧ system.isDirectory files place = false

/-- No file can be made where a directory is. -/
theorem Takes.ne_of_isDirectory {other : List String} (h : Takes system files place)
    (hother : files.find? other = none) (hdirectory : system.isDirectory files other) :
    other ≠ place := by
  rintro rfl
  rw [(h hother).2] at hdirectory
  cases hdirectory

/-- Directories stay. -/
theorem isDirectory_put {other : List String} (content : List UInt8)
    (h : system.isDirectory files other) :
    system.isDirectory (files.put place content) other := by
  rw [isDirectory, Bool.or_eq_true] at h ⊢
  exact h.imp_left (Files.isDirectory_put content)

/-- The way to the place of a file leads to the file that is written there. -/
theorem walk_put_of_arrived {here names : List String} {p : Place} (content : List UInt8)
    (h : system.walk files here names = .arrived p) (hp : p.IsOf place) :
    system.Takes files place ∧
      system.walk (files.put place content) here names = .arrived (.file place content) := by
  fun_induction walk system files here names with
  | case1 =>
    obtain rfl := Step.arrived.inj h
    cases hp
  | case2 here name rest hname ih =>
    rw [walk, if_pos hname]
    exact ih h
  | case3 here rest hname ih =>
    rw [walk, if_neg hname, if_pos rfl]
    exact ih h
  | case4 here name rest hname hup hlong =>
    obtain ⟨-, rfl⟩ := stopAt_eq_arrived h hp
    cases hp
  | case5 => cases h
  | case6 here name rest hname hup hlong next hlink old hold =>
    obtain ⟨rfl, rfl⟩ := stopAt_eq_arrived h hp
    obtain rfl : place = here ++ [name] := hp.unique (.file old)
    refine ⟨fun hnone => by simp [next, hnone] at hold, ?_⟩
    simp [walk, hname, hup, hlong, next, hlink, Files.find?_put, stopAt]
  | case7 here name rest hname hup hlong next hlink hold device hdevice =>
    obtain ⟨-, rfl⟩ := stopAt_eq_arrived h hp
    cases hp
  | case8 here name rest hname hup hlong next hlink hold hdevice hdirectory ih =>
    obtain ⟨htakes, ih⟩ := ih h
    have hnext := htakes.ne_of_isDirectory hold hdirectory
    refine ⟨htakes, ?_⟩
    simp [walk, hname, hup, hlong, next, hlink, Files.find?_put, hnext, hold, hdevice,
      isDirectory_put content hdirectory, ih]
  | case9 here name rest hname hup hlong next hlink hold hdevice hdirectory =>
    obtain ⟨rfl, rfl⟩ := stopAt_eq_arrived h hp
    obtain rfl : place = here ++ [name] := hp.unique .free
    refine ⟨fun _ => ⟨hdevice, by simpa using hdirectory⟩, ?_⟩
    simp [walk, hname, hup, hlong, next, hlink, Files.find?_put, stopAt]

/-- The way to a link does not lead through a place where a file can be made. -/
theorem walk_put_of_linked {here names there rest : List String} (content : List UInt8)
    (htakes : system.Takes files place) (h : system.walk files here names = .linked there rest) :
    system.walk (files.put place content) here names = .linked there rest := by
  fun_induction walk system files here names with
  | case1 => cases h
  | case2 here name rest hname ih =>
    rw [walk, if_pos hname]
    exact ih h
  | case3 here rest hname ih =>
    rw [walk, if_neg hname, if_pos rfl]
    exact ih h
  | case4 => cases h
  | case5 here name rest hname hup hlong next path hlink =>
    rw [← h]
    simp [walk, hname, hup, hlong, next, hlink]
  | case6 | case7 | case9 => cases h
  | case8 here name rest hname hup hlong next hlink hold hdevice hdirectory ih =>
    have hnext := htakes.ne_of_isDirectory hold hdirectory
    simp [walk, hname, hup, hlong, next, hlink, Files.find?_put, hnext, hold, hdevice,
      isDirectory_put content hdirectory, ih h]

/-- Through any links, the way to the place of a file leads to the file that is written there. -/
theorem follow_put {links : Nat} {here names : List String} (content : List UInt8)
    (h : (system.follow files links (system.walk files here names)).IsOf place) :
    system.Takes files place ∧
      system.follow (files.put place content) links
        (system.walk (files.put place content) here names) = .file place content := by
  -- the walk up to the next link comes first, and then the induction on the links that may follow
  induction links generalizing here names <;> cases hwalk : system.walk files here names
  case zero.arrived p | succ.arrived links ih p =>
    rw [hwalk, follow] at h
    obtain ⟨htakes, hput⟩ := walk_put_of_arrived content hwalk h
    exact ⟨htakes, by rw [hput, follow]⟩
  case zero.linked there rest =>
    rw [hwalk] at h
    cases h
  case succ.linked links ih there rest =>
    rw [hwalk, follow] at h
    obtain ⟨htakes, hput⟩ := ih h
    exact ⟨htakes, by rw [walk_put_of_linked content htakes hwalk, follow, hput]⟩

/-- The place that a path leads to is the same after writing there. -/
theorem locate_put {path : String} (content : List UInt8)
    (h : (system.locate files path).IsOf place) :
    system.locate (files.put place content) path = .file place content := by
  unfold locate at h ⊢
  by_cases hempty : path.isEmpty
  · rw [if_pos hempty] at h
    cases h
  by_cases hlong : pathLimit ≤ path.utf8ByteSize
  · rw [if_neg hempty, if_pos hlong] at h
    cases h
  -- whether a path is too long does not depend on the files
  simp only [if_neg hempty, if_neg hlong] at h ⊢
  exact (follow_put content h).2

/-! ### Reading -/

/-- The place of a file is allowed unless it is refused. -/
theorem allowed_of_isOf {access : Access} {p : Place} (hp : p.IsOf place) :
    system.allowed access p = (system.refusal access place).elim p .nowhere := by
  cases hp <;> rfl

/-- What is read from a path, or why nothing is. -/
inductive Reads (system : FileSystem) (files : Files) (path : String) :
    Except Fault (List UInt8) → Prop where
  | file {place : List String} {content : List UInt8}
      (h : system.locate files path = .file place content)
      (hrefusal : system.refusal .reading place = none) : Reads system files path (.ok content)
  | absent {place : List String} (h : system.locate files path = .free place)
      (hrefusal : system.refusal .reading place = none) :
      Reads system files path (.error .notFound)
  | refused {place : List String} {fault : Fault} (h : (system.locate files path).IsOf place)
      (hrefusal : system.refusal .reading place = some fault) :
      Reads system files path (.error fault)
  | device {device : Device} (h : system.locate files path = .device device) :
      Reads system files path device.content
  | directory (h : system.locate files path = .directory) :
      Reads system files path (.error .isDirectory)
  | slashed {fault : Fault} (h : system.locate files path = .slashed fault) :
      Reads system files path (.error fault)
  | nowhere {fault : Fault} (h : system.locate files path = .nowhere fault) :
      Reads system files path (.error fault)

/-- A path is read as it is said to be. -/
theorem read_eq_iff {path : String} {result : Except Fault (List UInt8)} :
    system.read files path = result ↔ Reads system files path result := by
  constructor
  · rintro rfl
    cases hplace : system.locate files path with
    | file place content =>
      have hisOf : (system.locate files path).IsOf place := hplace ▸ .file content
      rw [read, allowed_of_isOf hisOf, hplace]
      cases hrefusal : system.refusal .reading place with
      | none => exact .file hplace hrefusal
      | some fault => exact .refused hisOf hrefusal
    | free place =>
      have hisOf : (system.locate files path).IsOf place := hplace ▸ .free
      rw [read, allowed_of_isOf hisOf, hplace]
      cases hrefusal : system.refusal .reading place with
      | none => exact .absent hplace hrefusal
      | some fault => exact .refused hisOf hrefusal
    | device device =>
      rw [read, hplace]
      exact .device hplace
    | directory =>
      rw [read, hplace]
      exact .directory hplace
    | slashed fault =>
      rw [read, hplace]
      exact .slashed hplace
    | nowhere fault =>
      rw [read, hplace]
      exact .nowhere hplace
  · intro h
    cases h with
    | file h hrefusal | absent h hrefusal =>
      simp only [read, h, allowed, hrefusal, Option.elim_none]
    | refused h hrefusal =>
      rw [read, allowed_of_isOf h, hrefusal]
      rfl
    | device h | directory h | slashed h | nowhere h =>
      rw [read, h]
      rfl

/-- What text is read from a path, or why none is. -/
inductive ReadsText (system : FileSystem) (files : Files) (path : String) :
    Except Fault String → Prop where
  | text {text : String} (h : Reads system files path (.ok (utf8Bytes text))) :
      ReadsText system files path (.ok text)
  | notText {content : List UInt8} (h : Reads system files path (.ok content))
      (hcontent : ∀ text, content ≠ utf8Bytes text) :
      ReadsText system files path (.error .notText)
  | unread {fault : Fault} (h : Reads system files path (.error fault)) :
      ReadsText system files path (.error fault)

/-- The text of a path is read as it is said to be. -/
theorem readText_eq_iff {path : String} {result : Except Fault String} :
    system.readText files path = result ↔ ReadsText system files path result := by
  constructor
  · intro h
    cases result with
    | ok text =>
      obtain ⟨content, hread, htext⟩ := bind_eq_ok_iff.1 h
      obtain rfl := Files.textOf_eq_ok_iff.1 htext
      exact .text (read_eq_iff.1 hread)
    | error fault =>
      rcases bind_eq_error_iff.1 h with hread | ⟨content, hread, htext⟩
      · exact .unread (read_eq_iff.1 hread)
      · obtain ⟨rfl, hcontent⟩ := Files.textOf_eq_error_iff.1 htext
        exact .notText (read_eq_iff.1 hread) hcontent
  · intro h
    cases h with
    | text h => exact bind_eq_ok_iff.2 ⟨_, read_eq_iff.2 h, Files.textOf_eq_ok_iff.2 rfl⟩
    | notText h hcontent =>
      exact bind_eq_error_iff.2
        (.inr ⟨_, read_eq_iff.2 h, Files.textOf_eq_error_iff.2 ⟨rfl, hcontent⟩⟩)
    | unread h => exact bind_eq_error_iff.2 (.inl (read_eq_iff.2 h))

/-! ### Writing -/

/-- The file that a path leads to has been given some content, and no other file has been touched. -/
structure Stores (system : FileSystem) (before : Files) (path : String) (place : List String)
    (content : List UInt8) (after : Files) : Prop where
  /-- The path has led to the file, or to where it has been made. -/
  located : (system.locate before path).IsOf place
  /-- The file has the content. -/
  found : after.find? place = some content
  /-- The path leads to it. -/
  kept : system.locate after path = .file place content
  /-- All other files are there as they have been, and no others. -/
  others : ∀ other, other ≠ place → after.find? other = before.find? other

theorem stores_put {path : String} (h : (system.locate files path).IsOf place)
    (content : List UInt8) : Stores system files path place content (files.put place content) where
  located := h
  found := by rw [Files.find?_put, if_pos rfl]
  kept := locate_put content h
  others other hother := by rw [Files.find?_put, if_neg hother]

/-- What is left after some content has been written: the file that the path leads to has it, or a device
has taken it. -/
inductive Written (system : FileSystem) (before : Files) (path : String) (content : List UInt8) :
    Files → Prop where
  | file {place : List String} {after : Files} (hrefusal : system.refusal .writing place = none)
      (hcut : system.cut place content = none) (h : Stores system before path place content after) :
      Written system before path content after
  | device {shown : Except Fault (List UInt8)}
      (h : system.locate before path = .device ⟨shown, none⟩) :
      Written system before path content before

/-- What has been written to the place of a file is in that file. -/
theorem Written.stores {path : String} {content : List UInt8} {after : Files}
    (h : Written system files path content after) (hplace : (system.locate files path).IsOf place) :
    Stores system files path place content after := by
  cases h with
  | file _ _ h =>
    obtain rfl := h.located.unique hplace
    exact h
  | device h =>
    rw [h] at hplace
    cases hplace

/-- What is left after writing has broken off: the file that the path leads to has the first bytes of the
content. -/
inductive CutOff (system : FileSystem) (before : Files) (path : String) (content : List UInt8)
    (fault : Fault) (after : Files) : Prop where
  | intro {place : List String} {count : Nat} (hrefusal : system.refusal .writing place = none)
      (hcut : system.cut place content = some (count, fault))
      (h : Stores system before path place (content.take count) after)

/-- Nothing that is written to a file breaks off. -/
def WritesWhole (system : FileSystem) : Prop := ∀ place content, system.cut place content = none

/-- Why nothing can be written to a path. -/
inductive Unwritable (system : FileSystem) (files : Files) (path : String) : Fault → Prop where
  | refused {place : List String} {fault : Fault} (h : (system.locate files path).IsOf place)
      (hrefusal : system.refusal .writing place = some fault) : Unwritable system files path fault
  | device {shown : Except Fault (List UInt8)} {fault : Fault}
      (h : system.locate files path = .device ⟨shown, some fault⟩) :
      Unwritable system files path fault
  | directory (h : system.locate files path = .directory) : Unwritable system files path .isDirectory
  | slashed {fault : Fault} (h : system.locate files path = .slashed fault) :
      Unwritable system files path .isDirectory
  | nowhere {fault : Fault} (h : system.locate files path = .nowhere fault) :
      Unwritable system files path fault

/-- Something can be written to the place of a file that may be opened or made. -/
theorem not_unwritable {path : String} {fault : Fault} (hplace : (system.locate files path).IsOf place)
    (hrefusal : system.refusal .writing place = none) : ¬ Unwritable system files path fault := by
  intro h
  cases h with
  | refused h hrefused =>
    obtain rfl := h.unique hplace
    rw [hrefusal] at hrefused
    cases hrefused
  | device h | directory h | slashed h | nowhere h =>
    rw [h] at hplace
    cases hplace

/-- What can be left after a write, and what it can result in. -/
inductive Leaves (system : FileSystem) (before : Files) (path : String) (content : List UInt8) :
    Files × Except Fault Unit → Prop where
  | written {after : Files} (h : Written system before path content after) :
      Leaves system before path content (after, .ok ())
  | unwritable {fault : Fault} (h : Unwritable system before path fault) :
      Leaves system before path content (before, .error fault)
  | cutOff {fault : Fault} {after : Files} (h : CutOff system before path content fault after) :
      Leaves system before path content (after, .error fault)

/-- A write to the place of a file succeeds, is refused, or breaks off. -/
theorem write_leaves_of_isOf {path : String} (content : List UInt8)
    (hplace : (system.locate files path).IsOf place) :
    Leaves system files path content (system.write files path content) := by
  rw [write, allowed_of_isOf hplace]
  cases hrefusal : system.refusal .writing place with
  | some fault => exact .unwritable (.refused hplace hrefusal)
  | none =>
    have hstores := stores_put hplace
    rw [Option.elim_none]
    generalize system.locate files path = p at hplace
    cases hcut : system.cut place content with
    | none =>
      have hwritten := Written.file hrefusal hcut (hstores content)
      cases hplace <;> simpa only [hcut] using .written hwritten
    | some broken =>
      obtain ⟨count, fault⟩ := broken
      have hbroken := CutOff.intro hrefusal hcut (hstores (content.take count))
      cases hplace <;> simpa only [hcut] using .cutOff hbroken

/-- **A write succeeds, changes nothing, or breaks off.** -/
theorem write_leaves (system : FileSystem) (files : Files) (path : String) (content : List UInt8) :
    Leaves system files path content (system.write files path content) := by
  cases hplace : system.locate files path with
  | file place old =>
    have hisOf : (system.locate files path).IsOf place := hplace ▸ .file old
    exact write_leaves_of_isOf content hisOf
  | free place =>
    have hisOf : (system.locate files path).IsOf place := hplace ▸ .free
    exact write_leaves_of_isOf content hisOf
  | device device =>
    obtain ⟨shown, refusal⟩ := device
    rw [write, hplace]
    cases refusal with
    | none => exact .written (.device hplace)
    | some fault => exact .unwritable (.device hplace)
  | directory =>
    rw [write, hplace]
    exact .unwritable (.directory hplace)
  | slashed fault =>
    rw [write, hplace]
    exact .unwritable (.slashed hplace)
  | nowhere fault =>
    rw [write, hplace]
    exact .unwritable (.nowhere hplace)

end FileSystem

end AccessGraph
