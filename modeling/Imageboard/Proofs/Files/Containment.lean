import Imageboard.Proofs.Lifecycle.Respelling

namespace Imageboard.Site

variable {s : Site} {href path rest : String}

theorem fileOf?_eq_some_iff_leadsDown : s.fileOf? href = some path ↔
    ∃ rel names, href = s.config.origin ++ "/" ++ rel ∧ rel ≠ s.config.placeholder ∧
      Path.LeadsDown rel names ∧ path = Path.join s.filesRoot rel := by
  rw [fileOf?_eq_some_iff]
  constructor
  · rintro ⟨rel, rfl, hne, hother, hplain, rfl⟩
    obtain ⟨names, down⟩ := Path.isPlain_iff.1 ⟨hne, hplain⟩
    exact ⟨rel, names, rfl, hother, down, rfl⟩
  · rintro ⟨rel, names, rfl, hother, down, rfl⟩
    obtain ⟨hne, hplain⟩ := Path.isPlain_iff.2 ⟨names, down⟩
    exact ⟨rel, rfl, hne, hother, hplain, rfl⟩

theorem components_of_leadsDown {rel : String} {names : List String}
    (h : Path.LeadsDown rel names) (root : String) :
    Path.components (Path.join root rel) = Path.components root ++ names.map .name := by
  obtain ⟨-, hplain⟩ := Path.isPlain_iff.2 ⟨names, h⟩
  rw [Path.components_join root hplain, h.components]

theorem fileOf?_of_unslashed (h : rest.toList.head? ≠ some '/') :
    s.fileOf? (s.config.origin ++ rest) = none := by
  refine Option.eq_none_iff_forall_ne_some.2 fun path hfile => ?_
  obtain ⟨rel, he, -⟩ := fileOf?_eq_some_iff.1 hfile
  rw [String.append_assoc, String.append_right_inj] at he
  refine h ?_
  rw [he, String.toList_append]
  rfl

/-- The path behind an address is the files root joined with what the address has behind the origin
and a slash. To the components of the root it adds names alone, and at least one. An address that
goes on behind the origin without a slash has no file, and neither has that of the placeholder. -/
theorem media_below_filesRoot (s : Site) :
    (∀ href path, s.fileOf? href = some path ↔
      ∃ rel names, href = s.config.origin ++ "/" ++ rel ∧ rel ≠ s.config.placeholder ∧
        Path.LeadsDown rel names ∧ path = Path.join s.filesRoot rel ∧
        Path.components path = Path.components s.filesRoot ++ names.map .name) ∧
      (∀ rest, rest.toList.head? ≠ some '/' → s.fileOf? (s.config.origin ++ rest) = none) ∧
      s.fileOf? s.config.placeholderHref = none := by
  refine ⟨fun href path => ?_, fun rest => fileOf?_of_unslashed, fileOf?_placeholderHref⟩
  rw [fileOf?_eq_some_iff_leadsDown]
  constructor
  · rintro ⟨rel, names, hhref, hother, down, rfl⟩
    exact ⟨rel, names, hhref, hother, down, rfl, components_of_leadsDown down s.filesRoot⟩
  · rintro ⟨rel, names, hhref, hother, down, hpath, -⟩
    exact ⟨rel, names, hhref, hother, down, hpath⟩

theorem media_below_filesRoot_of_dotted_root :
    let s : Site :=
      { config := { domain := " http://b// " }, boardFile := "", filesRoot := "../d/." }
    s.config.validate = .ok () ∧
      (∃ names : List String,
        Path.components "../d/./m//cat" = Path.components "../d/." ++ names.map .name) ∧
      ".evil/m/cat".toList.head? ≠ some '/' ∧ s.fileOf? ("http://b" ++ ".evil/m/cat") = none := by
  intro s
  have origin : s.config.origin = "http://b" := by decide
  have file : s.fileOf? "http://b/m//cat" = some "../d/./m//cat" := by decide +kernel
  obtain ⟨below, siblings, -⟩ := media_below_filesRoot s
  obtain ⟨-, names, -, -, -, -, components⟩ := (below _ _).1 file
  have apart : ".evil/m/cat".toList.head? ≠ some '/' := by decide
  have sibling := siblings ".evil/m/cat" apart
  rw [origin] at sibling
  exact ⟨by decide, ⟨names, components⟩, apart, sibling⟩

end Imageboard.Site
