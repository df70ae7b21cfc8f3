import AccessGraph.Files
import AccessGraph.Proofs.Buffer.RoundTrip
/-!
# The texts of files, and files after one has been given some content

* `Files.textOf_eq_ok_iff`, `Files.textOf_eq_error_iff` : the text of some bytes is the one that they
  stand for.
* `Files.find?_put` : the content of all files.
* `Files.isDirectory_put` : directories stay.
-/

namespace AccessGraph

namespace Files

/-- Bytes are read as the text that they stand for. -/
theorem textOf_eq_ok_iff {content : List UInt8} {text : String} :
    textOf content = .ok text ↔ content = utf8Bytes text := by
  unfold textOf
  constructor
  · intro h
    split at h
    case h_1 other hother =>
      obtain rfl := Except.ok.inj h
      unfold String.fromUTF8? at hother
      split at hother
      case isTrue =>
        obtain rfl := Option.some.inj hother
        rfl
      case isFalse => cases hother
    case h_2 => cases h
  · rintro rfl
    rw [Section.fromUTF8?_utf8Bytes]

/-- Bytes that do not stand for a text are not read as one. -/
theorem textOf_eq_error_iff {content : List UInt8} {fault : Fault} :
    textOf content = .error fault ↔ fault = .notText ∧ ∀ text, content ≠ utf8Bytes text := by
  constructor
  · intro h
    refine ⟨?_, fun text htext => ?_⟩
    · unfold textOf at h
      split at h <;> cases h
      rfl
    · rw [textOf_eq_ok_iff.2 htext] at h
      cases h
  · rintro ⟨rfl, h⟩
    unfold textOf
    split
    case h_1 text htext => exact absurd (textOf_eq_ok_iff.1 (by rw [textOf, htext])) (h text)
    case h_2 => rfl

/-- What is found in a place is in that place. -/
theorem fst_of_find? {entries : List (List String × List UInt8)} {place : List String}
    {entry : List String × List UInt8} (h : entries.find? (·.1 = place) = some entry) :
    entry.1 = place := by
  simpa using List.find?_some h

/-- The file has the content, and all others have the content that they had. -/
theorem find?_put (files : Files) (place : List String) (content : List UInt8) (other : List String) :
    (files.put place content).find? other =
      if other = place then some content else files.find? other := by
  rw [put]
  split
  case isTrue hfound =>
    have hkeys : ((fun entry : List String × List UInt8 => decide (entry.1 = other)) ∘
        fun (p, old) => if p = place then (p, content) else (p, old)) =
          fun entry => decide (entry.1 = other) := by
      funext ⟨p, old⟩
      by_cases hp : p = place <;> simp [hp]
    rw [find?, List.find?_map, hkeys, find?]
    rw [find?] at hfound
    split
    case isTrue h =>
      subst h
      rw [Option.isSome_map] at hfound
      obtain ⟨entry, hentry⟩ := Option.isSome_iff_exists.1 hfound
      simp [hentry, fst_of_find? hentry]
    case isFalse h =>
      cases hold : files.entries.find? (·.1 = other) with
      | none => rfl
      | some entry => simp [fst_of_find? hold, h]
  case isFalse hfound =>
    simp only [Bool.not_eq_true, Option.isSome_eq_false_iff, Option.isNone_iff_eq_none] at hfound
    by_cases h : other = place
    · subst h
      simp only [find?, Option.map_eq_none_iff] at hfound
      simp [find?, hfound]
    · have hplace : place ≠ other := Ne.symm h
      cases hold : files.entries.find? (·.1 = other) <;> simp [find?, hold, h, hplace]

/-- A place is that of a directory if it is on the way to that of a file. -/
theorem isDirectory_iff {files : Files} {place : List String} : files.isDirectory place ↔
    ∃ other, (files.find? other).isSome ∧ place <+: other ∧ place ≠ other := by
  simp only [isDirectory, List.any_eq_true, find?, Option.isSome_map, List.find?_isSome]
  constructor
  · rintro ⟨entry, hentry, h⟩
    exact ⟨entry.1, ⟨entry, hentry, by simp⟩, by simpa using h⟩
  · rintro ⟨other, ⟨entry, hentry, hother⟩, h⟩
    obtain rfl : entry.1 = other := by simpa using hother
    exact ⟨entry, hentry, by simpa using h⟩

/-- Directories stay. -/
theorem isDirectory_put {files : Files} {place : List String} (content : List UInt8)
    {other : List String} (h : files.isDirectory other) :
    (files.put place content).isDirectory other := by
  obtain ⟨below, hbelow, hprefix⟩ := isDirectory_iff.1 h
  refine isDirectory_iff.2 ⟨below, ?_, hprefix⟩
  rw [find?_put]
  split
  · rfl
  · exact hbelow

end Files

end AccessGraph
