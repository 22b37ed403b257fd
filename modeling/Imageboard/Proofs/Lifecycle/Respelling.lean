import Imageboard.Proofs.Board.Tiers
import Imageboard.Proofs.Files
import Imageboard.Proofs.Operation
import Imageboard.Proofs.Path.Components

namespace Imageboard

theorem Config.placeholder_not_isAbsolute (c : Config) : Path.isAbsolute c.placeholder = false := by
  have trimmed (p : String) : Path.isAbsolute (Text.trimStartOf '/' p) = false := by
    rw [← Bool.not_eq_true, Path.isAbsolute_iff, Text.trimStartOf, String.toList_ofList]
    intro hhead
    have h := List.head?_dropWhile_not (· == '/') p.toList
    rw [hhead] at h
    simp at h
  unfold placeholder
  split
  · decide
  · dsimp only
    split
    · decide
    · exact trimmed _

namespace Files

variable {fs : Files} {p : String} {here steps ns : List String} {slashed slashed' : Bool}

theorem follow_name (h : fs.follow slashed here steps = .ok (.name ns slashed')) :
    ns = steps.foldl Path.step here := by
  induction steps generalizing here with
  | nil => cases h
  | cons s rest ih =>
    rw [List.foldl_cons]
    unfold follow at h
    dsimp only at h
    split at h
    next => exact ih h
    next =>
      split at h
      next => cases h
      next =>
        split at h
        next hlast =>
          cases h
          rw [List.isEmpty_iff.1 hlast]
          rfl
        next =>
          split at h
          next => cases h
          next => cases h
          next => exact ih h

theorem names_of_textAt (h : fs.textAt? p = some ns) : ns = Path.names p := by
  obtain ⟨hl, -⟩ := textAt?_eq_some_iff.1 h
  rw [locate_eq_follow (followed_of_locate hl)] at hl
  exact follow_name hl

end Files

theorem Text.rest?_eq_some_iff {front s back : String} :
    Text.rest? front s = some back ↔ s = front ++ back := by
  rw [Text.rest?, Option.map_eq_some_iff, ← String.toList_inj, String.toList_append]
  constructor
  · rintro ⟨cs, hcs, rfl⟩
    rw [Text.after?_eq_some_iff.1 hcs, String.toList_ofList]
  · intro h
    exact ⟨back.toList, Text.after?_eq_some_iff.2 h, String.ofList_toList⟩

theorem Row.href_of_entry (r : Row) {t : Tier} {href : String}
    (h : (r.entry t).href? = some href) : r.href = href := by
  have shown : (r.entry t).href? = none ∨ (r.entry t).href? = nonEmpty? r.href := by
    unfold Entry.href? Row.entry
    dsimp only
    cases ObjectType.ofText r.type <;> simp
  rcases shown with hnone | hrow
  · rw [hnone] at h
    cases h
  · rw [hrow, nonEmpty?] at h
    split at h
    · cases h
    · exact Option.some.inj h

namespace Site

variable {s : Site} {href path rel : String}

theorem fileOf?_eq_some_iff : s.fileOf? href = some path ↔
    ∃ rel, href = s.config.origin ++ "/" ++ rel ∧ rel ≠ "" ∧ rel ≠ s.config.placeholder ∧
      Path.isPlain rel = true ∧ path = Path.join s.filesRoot rel := by
  unfold fileOf?
  simp only [Option.bind_eq_bind, Option.bind_eq_some_iff, Text.rest?_eq_some_iff]
  constructor
  · rintro ⟨rest, rfl, rel, rfl, h⟩
    split at h
    next => cases h
    next hne =>
      obtain ⟨hempty, hother⟩ := not_or.1 hne
      split at h
      next hplain =>
        cases h
        exact ⟨rel, (String.append_assoc ..).symm, hempty, hother, hplain, rfl⟩
      next => cases h
  · rintro ⟨rel, rfl, hempty, hother, hplain, rfl⟩
    refine ⟨"/" ++ rel, String.append_assoc .., rel, rfl, ?_⟩
    rw [if_neg (not_or.2 ⟨hempty, hother⟩), if_pos hplain]

theorem fileOf?_placeholderHref : s.fileOf? s.config.placeholderHref = none := by
  refine Option.eq_none_iff_forall_ne_some.2 fun path h => ?_
  obtain ⟨rel, he, -, hother, -⟩ := fileOf?_eq_some_iff.1 h
  exact hother ((String.append_right_inj _).1 he).symm

/-- A path below the files root that has the components of the placeholder's in another spelling. -/
structure Respells (s : Site) (rel : String) : Prop where
  nonempty : rel ≠ ""
  other : rel ≠ s.config.placeholder
  plain : Path.isPlain rel = true
  same : Path.inner rel = Path.inner s.config.placeholder

def placeholderFile (s : Site) : String :=
  Path.join s.filesRoot s.config.placeholder

/-- The path of the placeholder starts with a dot that counts, for want of a files root. -/
def Dotted (s : Site) : Prop :=
  s.filesRoot = "" ∧ Path.lead s.config.placeholder ≠ []

theorem fileOf?_placeholderFile_iff :
    (∃ path, s.fileOf? href = some path ∧
      Path.components path = Path.components s.placeholderFile) ↔
    ¬ s.Dotted ∧ ∃ rel, href = s.config.origin ++ "/" ++ rel ∧ s.Respells rel := by
  have same {rel : String} (hplain : Path.isPlain rel = true) :
      Path.components (Path.join s.filesRoot rel) = Path.components s.placeholderFile ↔
        ¬ s.Dotted ∧ Path.inner rel = Path.inner s.config.placeholder := by
    unfold placeholderFile Dotted
    by_cases hroot : s.filesRoot = ""
    · rw [hroot, Path.join_empty, Path.join_empty, Path.components_eq_iff_of_isPlain hplain]
      simp
    · rw [Path.components_join_eq_iff hroot (Path.isAbsolute_of_isPlain hplain)
        s.config.placeholder_not_isAbsolute]
      simp [hroot]
  simp only [fileOf?_eq_some_iff]
  constructor
  · rintro ⟨path, ⟨rel, rfl, hempty, hother, hplain, rfl⟩, hsame⟩
    obtain ⟨hdot, hinner⟩ := (same hplain).1 hsame
    exact ⟨hdot, rel, rfl, hempty, hother, hplain, hinner⟩
  · rintro ⟨hdot, rel, rfl, h⟩
    exact ⟨_, ⟨rel, rfl, h.nonempty, h.other, h.plain, rfl⟩, (same h.plain).2 ⟨hdot, h.same⟩⟩

/-- A path below the files root that leads where the placeholder's does, in another spelling. -/
structure Detours (s : Site) (rel : String) : Prop where
  nonempty : rel ≠ ""
  other : rel ≠ s.config.placeholder
  plain : Path.isPlain rel = true
  names : Path.names (Path.join s.filesRoot rel) = Path.names s.placeholderFile

theorem Detours.respells (h : s.Detours rel) (undotted : .up ∉ Path.inner s.config.placeholder) :
    s.Respells rel where
  nonempty := h.nonempty
  other := h.other
  plain := h.plain
  same := (Path.names_join_eq_iff s.filesRoot (Path.isAbsolute_of_isPlain h.plain)
    s.config.placeholder_not_isAbsolute (Path.up_not_mem_of_isPlain h.plain) undotted).1 h.names

def Serves (s : Site) (b : Board) (path : String) : Prop :=
  ∃ t, ∃ r ∈ (b.tier t).rows, s.fileOf? r.href = some path

section

variable {b : Board} {id : String} {time : Int} {n : Node} {ids : List String} {f : FileEntry}

theorem serves_of_mediaFiles (h : path ∈ s.mediaFiles b id) : s.Serves b path := by
  obtain ⟨e, he, hfile⟩ := List.mem_filterMap.1 h
  obtain ⟨href, hhref, hpath⟩ := Option.bind_eq_some_iff.1 hfile
  have row : ∃ t, ∃ r ∈ (b.tier t).rows, r.entry t = e := by
    rcases List.mem_append.1 he with he | he
    · obtain ⟨r, hr, rfl⟩ := List.mem_map.1 he
      exact ⟨.authored, r, (List.mem_filter.1 hr).1, rfl⟩
    · obtain ⟨r, hr, rfl⟩ := List.mem_map.1 he
      exact ⟨.replica, r, (List.mem_filter.1 hr).1, rfl⟩
  obtain ⟨t, r, hr, rfl⟩ := row
  exact ⟨t, r, hr, r.href_of_entry hhref ▸ hpath⟩

theorem serves_of_bury (h : s.Serves (b.bury s.config.placeholderHref time id).1 path) :
    s.Serves b path := by
  obtain ⟨t, r, hr, hpath⟩ := h
  obtain ⟨q, hq, rfl⟩ := Board.mem_bury.1 hr
  rcases q.buried_cases (Board.isMediaOf (b.tier t) id q) id s.config.placeholderHref time with
    ⟨same, -⟩ | ⟨-, -, ⟨-, shown⟩ | ⟨-, -, kept⟩⟩
  · exact ⟨t, q, hq, same ▸ hpath⟩
  · rw [shown, fileOf?_placeholderHref] at hpath
    cases hpath
  · exact ⟨t, q, hq, kept ▸ hpath⟩

theorem serves_of_erase (h : s.Serves (b.erase id).1 path) : s.Serves b path := by
  obtain ⟨t, r, hr, hpath⟩ := h
  rw [Board.tier_erase, Table.mem_filter] at hr
  exact ⟨t, r, (Table.mem_filter.1 hr.1).1, hpath⟩

/-- A cascade takes down no file but those that addresses on the board lead to. -/
theorem serves_of_cascade {g : Board → String → Board × Nat}
    (hg : ∀ b id path, s.Serves (g b id).1 path → s.Serves b path) (c : Cascade)
    (h : path ∈ (ids.foldl (s.cascadeStep g) c).files) :
    path ∈ c.files ∨ s.Serves c.board path := by
  induction ids generalizing c with
  | nil => exact .inl h
  | cons id ids ih =>
    rcases ih (s.cascadeStep g c id) h with h | h
    · exact (List.mem_append.1 h).imp_right serves_of_mediaFiles
    · exact .inr (hg c.board id path h)

theorem serves_of_removed {g : Board → String → Board × Nat}
    (hg : ∀ b id path, s.Serves (g b id).1 path → s.Serves b path) (hf : f ∈ n.files.rows)
    (gone : f ∉ (s.cascade g ids n).1.files.rows) :
    ∃ path, s.Serves n.board path ∧ n.files.textAt? path = some f.path := by
  by_contra hno
  refine gone (Files.mem_removeAll.2 ⟨hf, fun path hpath hat => hno ⟨path, ?_, hat⟩⟩)
  exact (serves_of_cascade hg { board := n.board } hpath).resolve_left List.not_mem_nil

end

end Site

namespace Operation

/-- The operations that spread from an object to its media and their files. -/
def cascades : Operation → Bool
  | tombstone .. | tombstoneThread .. | delete .. | deleteThread .. => true
  | _ => false

variable {s : Site} {n : Node} {f : FileEntry} {op : Operation}

theorem serves_of_removed (hop : op.cascades = true) (hf : f ∈ n.files.rows)
    (gone : f ∉ (op.perform s n).files.rows) :
    ∃ path, s.Serves n.board path ∧ n.files.textAt? path = some f.path := by
  cases op with
  | tombstone | tombstoneThread =>
    exact Site.serves_of_removed (fun _ _ _ => Site.serves_of_bury) hf gone
  | delete | deleteThread =>
    exact Site.serves_of_removed (fun _ _ _ => Site.serves_of_erase) hf gone
  | _ => cases hop

/-- An address leads to the placeholder's file by its components exactly if it spells its path in
another way. A cascade takes down the placeholder's file only where a stored address leads there on
a detour, which has the same components unless there are double dots in the placeholder. -/
theorem placeholder_taken_by_respelling (s : Site) :
    (∀ href, (∃ path, s.fileOf? href = some path ∧
        Path.components path = Path.components s.placeholderFile) ↔
      ¬ s.Dotted ∧ ∃ rel, href = s.config.origin ++ "/" ++ rel ∧ s.Respells rel) ∧
    ∀ (op : Operation) (n : Node) (f : FileEntry), op.cascades = true → f ∈ n.files.rows →
      n.files.textAt? s.placeholderFile = some f.path → f ∉ (op.perform s n).files.rows →
        ∃ t, ∃ r ∈ (n.board.tier t).rows, ∃ rel, r.href = s.config.origin ++ "/" ++ rel ∧
          s.Detours rel ∧ (.up ∉ Path.inner s.config.placeholder → s.Respells rel) := by
  refine ⟨fun href => s.fileOf?_placeholderFile_iff, ?_⟩
  intro op n f hop hf hat gone
  obtain ⟨path, ⟨t, r, hr, hpath⟩, hat'⟩ := serves_of_removed hop hf gone
  obtain ⟨rel, hhref, hempty, hother, hplain, rfl⟩ := Site.fileOf?_eq_some_iff.1 hpath
  have detours : s.Detours rel :=
    ⟨hempty, hother, hplain, (Files.names_of_textAt hat').symm.trans (Files.names_of_textAt hat)⟩
  exact ⟨t, r, hr, rel, hhref, detours, detours.respells⟩

section Specimen

def specimenSite : Site where
  config := { domain := "http://b", filesRoot := some "d" }
  boardFile := ""
  filesRoot := "d"

def specimenFile : FileEntry :=
  ⟨["d", "static", "notfound.png"], .text ""⟩

def specimenNode : Node :=
  run specimenSite
    [create .epoch [⟨"aaaaaaaa", rfl, rfl⟩, ⟨"bbbbbbbb", rfl, rfl⟩]
      { actor := "u", attachment := [{ href := "http://b/static//notfound.png" }] }]
    { files := .ofList [⟨["d"], .directory⟩, ⟨["d", "static"], .directory⟩, specimenFile] }

theorem placeholder_taken_by_respelling_of_doubled_slash :
    ∃ t, ∃ r ∈ (specimenNode.board.tier t).rows, ∃ rel,
      r.href = "http://b" ++ "/" ++ rel ∧ specimenSite.Respells rel := by
  obtain ⟨t, r, hr, rel, hhref, -, respells⟩ := (placeholder_taken_by_respelling specimenSite).2
    (tombstone .epoch "u/aaaaaaaa") specimenNode specimenFile rfl (by decide +kernel)
    (by decide +kernel)
    (by decide +kernel)
  exact ⟨t, r, hr, rel, hhref, respells (by decide +kernel)⟩

/-- The placeholder's file goes by an address with a slash too many. -/
theorem not_placeholder_kept_of_doubled_slash :
    specimenSite.config.validate = .ok () ∧
      specimenSite.config.filesDirectory (fun _ => none) = .ok specimenSite.filesRoot ∧
      (∃ path, specimenSite.fileOf? "http://b/static//notfound.png" = some path ∧
        Path.components path = Path.components specimenSite.placeholderFile) ∧
      specimenNode.files.textAt? specimenSite.placeholderFile = some specimenFile.path ∧
      ((tombstone .epoch "u/aaaaaaaa").perform specimenSite specimenNode).files.textAt?
        specimenSite.placeholderFile = none := by
  refine ⟨rfl, rfl, ⟨"d/static//notfound.png", ?_, ?_⟩, ?_, ?_⟩ <;> decide +kernel

end Specimen

end Operation
end Imageboard
