import Imageboard.Proofs.Authority
import Imageboard.Proofs.Files

namespace Imageboard

/-- An activity deletes an object if it is a deletion by the owner of the object's replica. -/
def Activity.Deletes (a : Activity) (b : Board) (id : String) : Prop :=
  a.verb? = some .delete ∧ a.object.map ObjectRef.target = some id ∧
    Site.ownsReplica b id a.actorId = true

/-- A file stands behind an object if the address of a piece of its media leads to the file. -/
def Site.StandsBehind (s : Site) (n : Node) (id : String) (f : FileEntry) : Prop :=
  ∃ e ∈ n.board.mediaOf id, ∃ href path,
    e.href? = some href ∧ s.fileOf? href = some path ∧ n.files.textAt? path = some f.path

namespace Operation

open Serving

variable {s : Site} {around : Surroundings} {now : Instant} {log : Log} {resident : String}
  {a : Activity} {n : Node} {id : String} {f : FileEntry}

theorem mem_files_tombstone_iff :
    f ∈ (s.tombstone now id n).1.files.rows ↔ f ∈ n.files.rows ∧ ¬ s.StandsBehind n id f := by
  have files : (s.tombstone now id n).1.files =
    (n.files.removeAll (s.mediaFiles n.board id)).1 := rfl
  rw [files, Files.mem_removeAll]
  refine and_congr_right fun _ => ?_
  simp only [Site.mediaFiles, List.mem_filterMap, Option.bind_eq_some_iff, Site.StandsBehind]
  constructor
  · rintro h ⟨e, he, href, path, hhref, hpath, hf⟩
    exact h path ⟨e, he, href, hhref, hpath⟩ hf
  · rintro h path ⟨e, he, href, hhref, hpath⟩ hf
    exact h ⟨e, he, href, path, hhref, hpath, hf⟩

theorem files_receive (hv : a.verb? ≠ some .delete) :
    ((receive around now log resident a).perform s n).files = n.files := by
  suffices h : Ends (s.apply around now resident a) n fun _ n' => n'.files = n.files from h log
  refine Site.apply_ends.mono fun _ _ applied => ?_
  cases applied with
  | tombstoned target hd => exact absurd hd hv
  | _ => rfl

/-- An activity adds no file and changes none. The files that it takes away are those behind an
object that it deletes. -/
theorem mem_files_receive_iff (s : Site) (n : Node) (around : Surroundings) (now : Instant)
    (log : Log) (resident : String) (a : Activity) (f : FileEntry) :
    f ∈ ((receive around now log resident a).perform s n).files.rows ↔
      f ∈ n.files.rows ∧ ¬ ∃ id, a.Deletes n.board id ∧ s.StandsBehind n id f := by
  by_cases hv : a.verb? = some .delete
  · rw [perform_receive_delete hv]
    unfold Activity.Deletes
    cases a.object with
    | none => simp
    | some target =>
      by_cases hown : Site.ownsReplica n.board target.target a.actorId = true
      · simp [hv, hown, mem_files_tombstone_iff]
      · simp [hown]
  · rw [files_receive hv]
    exact (and_iff_left fun ⟨_, ⟨hd, _⟩, _⟩ => hv hd).symm

/-- Someone else who sends an object with an attachment at the address of a file here, and then
deletes that object, takes down the file. -/
theorem not_files_kept_of_borrowed_href :
    let s : Site := { config := { domain := "http://b" }, boardFile := "", filesRoot := "" }
    let around : Surroundings :=
      { web := fun _ _ => .dropped
        graph := ⟨fun _ _ _ => return ["http://b/u"]⟩
        sender := fun _ _ _ => return {} }
    let sends (type : String) (o : ObjectRef) : Activity :=
      { type, actor := some (.bare "http://v"), object := some o }
    let mirrored := sends "Create" (.object
      { id := "http://v/p", attachment := [{ id := "http://v/m", href := "http://b/cat" }] })
    let n := run s [receive around .epoch [] "http://b/u" mirrored]
      { files := .ofList [⟨["cat"], .text ""⟩] }
    let a := sends "Delete" (.bare "http://v/p")
    ¬ ((receive around .epoch [] "http://b/u" a).perform s n).files = n.files := by
  intro s around sends mirrored n a h
  have before : n.files.rows = [⟨["cat"], .text ""⟩] := by decide +kernel
  have after : ((receive around .epoch [] "http://b/u" a).perform s n).files.rows = [] := by
    decide +kernel
  rw [h, before] at after
  cases after

end Operation
end Imageboard
