import Imageboard.Proofs.Board.Selection
import Imageboard.Proofs.Operation
import Mathlib.Data.List.Perm.Subperm

namespace Imageboard

theorem Row.isPost_entry (r : Row) (t : Tier) : (r.entry t).isPost = r.isPost := by
  unfold isPost entry Entry.isPost ObjectType.ofText
  dsimp only
  by_cases note : r.type = "Note"
  · simp [note]
  by_cases archive : r.type = "Archive"
  · simp [archive]
  -- all other types are those of media and tombstones
  by_cases tombstone : r.type = "Tombstone"
  · simp [tombstone]
  by_cases preview : r.type = "Preview"
  · simp [preview]
  by_cases attachment : r.type = "Attachment"
  · simp [attachment]
  · simp [note, archive, tombstone, preview, attachment]

namespace Board

variable {b : Board} {t : Tier} {r : Row} {x : Tier × Row} {p : String → Bool} {id : String}
  {es : List Entry}

theorem get_of_authored (h : r ∈ b.authored.rows) : b.get r.id = some (r.entry .authored) := by
  rw [get, getIn_of_mem (t := .authored) h, Option.orElse_some]

/-- The authored copy of an id hides the replica. -/
theorem get_eq_replica_iff (h : r ∈ b.replicas.rows) :
    b.get r.id = some (r.entry .replica) ↔ ∀ o ∈ b.authored.rows, o.id ≠ r.id := by
  constructor
  · intro hget o ho hid
    rw [← hid, get_of_authored ho] at hget
    exact absurd (congrArg Entry.tier (Option.some.inj hget)) nofun
  · intro alone
    rw [get, getIn_eq_none (t := .authored) alone, Option.orElse_none,
      getIn_of_mem (t := .replica) h]

theorem get_eq_iff_of_mem_select (hx : x ∈ b.select fun r => r.isPost && p r.id) :
    b.get x.2.id = some (x.2.entry x.1) ↔
      ∀ o ∈ b.authored.rows, o.id = x.2.id → o.isPost = true := by
  obtain ⟨hr, hp, alone⟩ := mem_select.1 hx
  obtain ⟨t, r⟩ := x
  simp only [Bool.and_eq_true] at hp
  cases t with
  | authored =>
    refine iff_of_true (get_of_authored hr) fun o ho hid => ?_
    have same : o = r := Table.eq_of_key ho hr (congrArg (fun id => [id]) hid)
    exact same ▸ hp.1
  | replica =>
    refine (get_eq_replica_iff hr).trans (forall₂_congr fun o ho => ?_)
    constructor
    · exact fun hne hid => absurd hid hne
    · intro hpost hid
      refine alone rfl o ho ?_ hid
      rw [hpost hid, hid, hp.2, Bool.and_self]

/-- The listings of posts that a board gives to its readers. -/
inductive Listed (b : Board) : List Entry → Prop
  | start (text : String) : Listed b (b.getByStart text).toList
  | children (parent : String) : Listed b (b.children parent)
  | newest (parent : String) (n : UInt64) : Listed b (b.newestChildren parent n)
  | nested {parent v : String} {es : List Entry} (h : (v, es) ∈ b.grandchildren parent) :
      Listed b es

theorem children_selected (b : Board) (parent : String) : ∃ xs : List (Tier × Row),
    b.children parent = xs.map (fun x => x.2.entry x.1) ∧
      xs.Subperm (b.select fun r => r.isPost && b.isChild parent r.id) :=
  ⟨_, rfl, (List.mergeSort_perm _ _).subperm⟩

/-- A listing shows a part of a selection of posts by their ids. -/
theorem Listed.selected (h : b.Listed es) : ∃ (p : String → Bool) (xs : List (Tier × Row)),
    es = xs.map (fun x => x.2.entry x.1) ∧ xs.Subperm (b.select fun r => r.isPost && p r.id) := by
  cases h with
  | start text =>
    let found := (b.select fun r =>
      r.isPost && startsLike text.toList r.id.toList).mergeSort isLater
    have first : found.head?.toList.Sublist found := by
      cases found with
      | nil => exact .slnil
      | cons x xs => exact (List.nil_sublist xs).cons_cons x
    refine ⟨fun id => startsLike text.toList id.toList, found.head?.toList, ?_, ?_⟩
    · cases h : found.head? <;> simp [getByStart, found, h]
    · exact first.subperm.trans (List.mergeSort_perm _ _).subperm
  | children parent => exact ⟨b.isChild parent, b.children_selected parent⟩
  | newest parent n =>
    obtain ⟨xs, hxs, hsub⟩ := b.children_selected parent
    refine ⟨b.isChild parent, ?_⟩
    rw [newestChildren_eq, hxs]
    split
    · exact ⟨xs.drop _, List.map_drop.symm, ((List.drop_sublist _ _).subperm).trans hsub⟩
    · exact ⟨xs, rfl, hsub⟩
  | @nested parent v es h =>
    obtain ⟨-, rfl, -⟩ := mem_grandchildren.1 h
    exact ⟨b.isChild v, b.children_selected v⟩

/-- A listing names no id twice and shows posts only, each as its tier has it. It is also what a
look-up finds exactly where no authored copy of the id is anything but a post. -/
theorem listed_agrees_iff (b : Board) (es : List Entry) (h : b.Listed es) :
    (es.map Entry.id).Nodup ∧ ∀ e ∈ es, e.isPost = true ∧ b.getIn e.tier e.id = some e ∧
      (b.get e.id = some e ↔ ∀ o ∈ b.authored.rows, o.id = e.id → o.isPost = true) := by
  obtain ⟨p, xs, rfl, ys, hperm, hsub⟩ := h.selected
  constructor
  · have distinct : (ys.map (·.2.id)).Nodup := (b.nodup_select _).sublist (hsub.map _)
    rw [List.map_map]
    exact (hperm.map _).nodup_iff.1 distinct
  · intro e he
    obtain ⟨x, hx, rfl⟩ := List.mem_map.1 he
    have selected := hsub.subset (hperm.mem_iff.2 hx)
    obtain ⟨hr, hp, -⟩ := mem_select.1 selected
    have post : x.2.isPost = true := by
      simp only [Bool.and_eq_true] at hp
      exact hp.1
    exact ⟨(x.2.isPost_entry x.1).trans post, getIn_of_mem hr, get_eq_iff_of_mem_select selected⟩

theorem listed_agrees_iff_of_removed_reply :
    let note (id : String) : Row := { id, type := "Note", published := 1 }
    let removed : Row := { id := "r", type := "Tombstone", published := 1, deleted := some 2 }
    let board : Board :=
      { authored := .ofList [note "p", note "q", removed]
        replicas := .ofList [note "q", note "r"]
        edges := .ofList [⟨"q", "p"⟩, ⟨"r", "p"⟩] }
    let es := board.children "p"
    board.Listed es ∧ es = [(note "q").entry .authored, (note "r").entry .replica] ∧
      (es.map Entry.id).Nodup ∧ ∀ e ∈ es, e.isPost = true ∧ board.getIn e.tier e.id = some e ∧
        (board.get e.id = some e ↔ ∀ o ∈ board.authored.rows, o.id = e.id → o.isPost = true) := by
  intro note removed board es
  have h : board.Listed es := .children "p"
  have found : (board.select fun r => r.isPost && board.isChild "p" r.id) =
      [(.authored, note "q"), (.replica, note "r")] := by decide +kernel
  have listed : es = [(note "q").entry .authored, (note "r").entry .replica] := by
    show (List.mergeSort _ _).map _ = _
    rw [found, List.mergeSort_of_pairwise (by decide +kernel)]
    rfl
  exact ⟨h, listed, listed_agrees_iff board es h⟩

end Board

namespace Operation

/-- A replica that comes under the id of a reply which was removed here stands in the thread, where
a look-up finds the tombstone. -/
theorem not_listed_agrees_of_removed_reply :
    let s : Site := { config := {}, boardFile := "", filesRoot := "" }
    let root := "u/aaaaaaaa"
    let id := "u/bbbbbbbb"
    let n := run s [create .epoch [⟨"aaaaaaaa", rfl, rfl⟩] { actor := "u" },
      create .epoch [⟨"bbbbbbbb", rfl, rfl⟩] { actor := "u", inReplyTo := [.reference root] },
      tombstone .epoch id, replicate .epoch { id, actor := "v" }] {}
    ¬ ∀ es, n.board.Listed es → ∀ e ∈ es, n.board.get e.id = some e := by
  intro s root id n h
  let reply : Row := { id, type := "Note", actor := "v", published := 0, updated := some 0 }
  have listed : n.board.children root = [reply.entry .replica] := by decide +kernel
  have found : n.board.get id ≠ some (reply.entry .replica) := by decide +kernel
  exact found (h _ (.children root) _ (listed ▸ List.mem_singleton_self _))

end Operation
end Imageboard
