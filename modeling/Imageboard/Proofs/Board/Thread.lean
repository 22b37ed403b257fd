import Imageboard.Board.Thread
import Imageboard.Proofs.Board.Selection
import Mathlib.Data.List.DropRight

namespace Imageboard

def Listing.keepLast {α : Type} (k : Nat) (l : Listing α) : Listing α :=
  { l with orderedItems := l.orderedItems.rtake k }

def Collection.keepNewest (k : Nat) (c : Collection) : Collection :=
  let cut (head : Object) : Object := { head with replies := head.replies.map (Listing.keepLast k) }
  { c with listing := { c.listing with orderedItems := c.listing.orderedItems.map cut } }

theorem Entry.id_toWire (e : Entry) : e.toWire.id = e.id := by
  unfold toWire
  cases e.payload <;> rfl

theorem Entry.replies_toWire (e : Entry) : e.toWire.replies = none := by
  unfold toWire
  cases e.payload <;> rfl

namespace Board

variable {b : Board} {e : Entry} {o : Object} {id parent : String} {n : UInt64}

structure ListsReplies (b : Board) (parent : String) (l : Listing Object) : Prop where
  total : l.totalItems = UInt64.ofNat l.orderedItems.length
  ids : l.orderedItems.map Object.id = (b.children parent).map Entry.id
  answers : ∀ o ∈ l.orderedItems, o.inReplyTo = [.reference parent]

structure ShowsReplies (b : Board) (o : Object) : Prop where
  isSome_iff : o.replies.isSome = true ↔ b.children o.id ≠ []
  listed : ∀ l, o.replies = some l → b.ListsReplies o.id l

/-- The head of a thread lists its replies even if there are none, and each of them shows its own.
-/
structure HeadsThread (b : Board) (id : String) (head : Object) : Prop where
  id_eq : head.id = id
  replies : ∃ l, head.replies = some l ∧ b.ListsReplies id l ∧
    ∀ o ∈ l.orderedItems, b.ShowsReplies o

theorem replyCounts_fst (b : Board) (parent : String) :
    (b.replyCounts parent).1 = (b.children parent).length := by
  simp only [replyCounts, children, posts, List.length_map, List.length_mergeSort]

theorem listsReplies_map {f : Entry → Object} (hid : ∀ e, (f e).id = e.id)
    (hanswers : ∀ e, (f e).inReplyTo = [.reference parent]) :
    b.ListsReplies parent (b.listing parent ((b.children parent).map f)) where
  total := by
    show UInt64.ofNat (b.replyCounts parent).1 = _
    rw [replyCounts_fst]
    exact congrArg UInt64.ofNat (List.length_map f).symm
  ids := by
    show ((b.children parent).map f).map Object.id = _
    rw [List.map_map]
    exact List.map_congr_left fun e _ => hid e
  answers := by
    intro o ho
    obtain ⟨e, -, rfl⟩ := List.mem_map.1 ho
    exact hanswers e

theorem id_replyWith (b : Board) (parent : String) (nested : List (String × List Entry))
    (e : Entry) :
    (b.replyWith parent nested e).id = e.id := by
  unfold replyWith
  dsimp only
  split <;> exact e.id_toWire

theorem inReplyTo_replyWith (b : Board) (parent : String) (nested : List (String × List Entry))
    (e : Entry) : (b.replyWith parent nested e).inReplyTo = [.reference parent] := by
  unfold replyWith
  dsimp only
  split <;> rfl

/-- The one batch of replies to replies has under each reply all that the board has. -/
theorem replies_replyWith (h : b.Answers e.id parent) :
    (b.replyWith parent (b.grandchildren parent) e).replies =
      if b.children e.id = [] then none
      else some (b.listing e.id ((b.children e.id).map fun g => replyTo (b.expand g) e.id)) := by
  have below := lookup_grandchildren (mem_childIds.2 h)
  have counted : (b.replyCounts e.id).1 = 0 ↔ b.children e.id = [] := by
    rw [replyCounts_fst, List.length_eq_zero_iff]
  unfold replyWith
  simp only [below, counted]
  split
  next => exact e.replies_toWire
  next => rfl

theorem showsReplies_replyWith (h : b.Answers e.id parent) :
    b.ShowsReplies (b.replyWith parent (b.grandchildren parent) e) where
  isSome_iff := by
    rw [id_replyWith, replies_replyWith h]
    split
    next unanswered => simp [unanswered]
    next answered => simp [answered]
  listed := by
    intro l hl
    rw [replies_replyWith h] at hl
    split at hl
    next => cases hl
    next =>
      obtain rfl := Option.some.inj hl
      rw [id_replyWith]
      exact listsReplies_map (fun g => g.id_toWire) fun _ => rfl

theorem headsThread_assemble (b : Board) (e : Entry) :
    ∃ head, (b.assemble e (b.children e.id)).listing.orderedItems = [head] ∧
      b.HeadsThread e.id head := by
  let reply := b.replyWith e.id (b.grandchildren e.id)
  refine ⟨_, rfl, e.id_toWire, _, rfl, ?_, fun o ho => ?_⟩
  · exact listsReplies_map (b.id_replyWith e.id _) (b.inReplyTo_replyWith e.id _)
  · obtain ⟨r, hr, rfl⟩ : ∃ r ∈ b.children e.id, reply r = o := List.mem_map.1 ho
    exact showsReplies_replyWith (answers_of_mem_children hr)

theorem keepLast_listing (b : Board) (parent : String) (k : Nat) (es : List Entry)
    (f : Entry → Object) :
    (b.listing parent (es.map f)).keepLast k = b.listing parent ((es.rtake k).map f) := by
  unfold listing Listing.keepLast List.rtake
  simp only [List.map_drop, List.length_map]

/-- The batch of replies to replies is the same for all replies and for the newest of them. -/
theorem assemble_newest (h : n.toNat < 0x8000000000000000 ∨ (b.children e.id).length ≤ n.toNat) :
    b.assemble e (b.newestChildren e.id n) =
      (b.assemble e (b.children e.id)).keepNewest n.toNat := by
  have newest : b.newestChildren e.id n = (b.children e.id).rtake n.toNat := by
    rw [newestChildren_eq]
    split
    next => rfl
    next big =>
      have all := h.resolve_left big
      rw [List.rtake, Nat.sub_eq_zero_of_le all, List.drop_zero]
  rw [newest]
  unfold assemble
  dsimp only
  rw [← keepLast_listing]
  rfl

theorem getPost_eq_some_iff : b.getPost id = some e ↔ b.get id = some e ∧ e.isPost = true := by
  rw [getPost, Option.filter_eq_some_iff]

/-- A thread is there for a post, with all replies to it and to these, and all counts are the
lengths of what is listed. The recent thread is the same with only the newest replies. A bound that
reads as negative is none, which makes a difference only to a listing longer than that. -/
theorem thread_assembled (b : Board) (id : String) (n : UInt64) :
    ((b.thread id).isSome = true ↔ ∃ e, b.get id = some e ∧ e.isPost = true) ∧
    ((b.recentThread id n).isSome = true ↔ ∃ e, b.get id = some e ∧ e.isPost = true) ∧
    (n.toNat < 0x8000000000000000 ∨ (b.children id).length ≤ n.toNat →
      b.recentThread id n = (b.thread id).map (Collection.keepNewest n.toNat)) ∧
    ∀ c, b.thread id = some c → ∃ head, c.listing.orderedItems = [head] ∧
      b.HeadsThread id head := by
  have present : (b.getPost id).isSome = true ↔ ∃ e, b.get id = some e ∧ e.isPost = true := by
    rw [Option.isSome_iff_exists]
    exact exists_congr fun e => getPost_eq_some_iff
  refine ⟨?_, ?_, ?_, ?_⟩
  · rw [thread, Option.isSome_map, present]
  · rw [recentThread, Option.isSome_map, present]
  · intro h
    unfold recentThread thread
    rw [Option.map_map]
    refine Option.map_congr fun e he => assemble_newest ?_
    rw [id_of_get (getPost_eq_some_iff.1 he).1]
    exact h
  · intro c hc
    obtain ⟨e, he, rfl⟩ := Option.map_eq_some_iff.1 hc
    obtain rfl := id_of_get (getPost_eq_some_iff.1 he).1
    exact b.headsThread_assemble e

theorem thread_assembled_of_cycle :
    let note (id : String) : Row := { id, type := "Note", published := 1 }
    let board : Board :=
      { authored := .ofList [note "p", note "q"]
        replicas := .ofList [note "r"]
        edges := .ofList [⟨"p", "q"⟩, ⟨"q", "p"⟩, ⟨"r", "p"⟩, ⟨"r", "q"⟩] }
    (∃ e, board.get "p" = some e ∧ e.isPost = true) ∧
    board.recentThread "p" 1 = (board.thread "p").map (Collection.keepNewest 1) ∧
    ∃ c head, board.thread "p" = some c ∧ c.listing.orderedItems = [head] ∧
      board.HeadsThread "p" head := by
  intro note board
  have small : (1 : UInt64).toNat < 0x8000000000000000 := by decide
  obtain ⟨present, -, recent, heads⟩ := thread_assembled board "p" 1
  have post : ∃ e, board.get "p" = some e ∧ e.isPost = true :=
    ⟨(note "p").entry .authored, by decide +kernel, by decide +kernel⟩
  obtain ⟨c, hc⟩ := Option.isSome_iff_exists.1 (present.2 post)
  obtain ⟨head, hhead⟩ := heads c hc
  exact ⟨post, recent (.inl small), c, head, hc, hhead⟩

end Board
end Imageboard
