import Imageboard.Proofs.Crypto.KeyFile
import Imageboard.Proofs.Files.Writes
import Imageboard.Proofs.Keys.Registry
import Imageboard.Proofs.Text.Letters

namespace Imageboard

open Imageboard.Path (IsLeaf)

namespace Text

variable {mark : Char} {front head tail new : List Char} {fuel : Nat}

/-- A text is replaced where it ends another one, if a sign in it stands nowhere before. -/
theorem replaceAll_append (hfront : mark ∉ front) (hhead : mark ∉ head)
    (hfuel : front.length < fuel) :
    replaceAll (head ++ mark :: tail) new fuel (front ++ (head ++ mark :: tail)) =
      front ++ new := by
  induction front generalizing fuel with
  | nil =>
    obtain ⟨fuel, rfl⟩ : ∃ k, fuel = k + 1 := ⟨fuel - 1, by omega⟩
    obtain ⟨c, cs, hold⟩ : ∃ c cs, head ++ mark :: tail = c :: cs := by
      cases head with
      | nil => exact ⟨_, _, rfl⟩
      | cons c cs => exact ⟨_, _, rfl⟩
    have all : after? (c :: cs) (c :: cs) = some [] := after?_eq_some_iff.2 (List.append_nil _).symm
    rw [List.nil_append, hold, replaceAll, all]
    cases fuel <;> simp [replaceAll]
  | cons c front ih =>
    obtain ⟨fuel, rfl⟩ : ∃ k, fuel = k + 1 := ⟨fuel - 1, by omega⟩
    -- a match here would put the sign before the place where it first stands
    have later : after? (head ++ mark :: tail) (c :: (front ++ (head ++ mark :: tail))) = none := by
      cases ha : after? (head ++ mark :: tail) (c :: (front ++ (head ++ mark :: tail))) with
      | none => rfl
      | some rest =>
        have he := after?_eq_some_iff.1 ha
        rw [List.append_assoc, List.cons_append, ← List.append_assoc, ← List.cons_append] at he
        have before : mark ∉ c :: (front ++ head) := by
          rw [← List.cons_append, List.mem_append]
          exact not_or.2 ⟨hfront, hhead⟩
        have hlen := congrArg List.length (append_sep_inj he before hhead).1
        simp at hlen
        omega
    rw [List.cons_append, replaceAll, later]
    dsimp only
    rw [ih (fun hm => hfront (List.mem_cons_of_mem c hm)) (by simpa using hfuel)]
    rfl

end Text

def Board.storedName (b : Board) (id : String) : Option String :=
  (b.residents.get? [id]).map (·.actor.name)

namespace Site.KeyRing

variable {k : KeyRing} {name name' : String}

theorem not_mem_actorName (h : isActorName name = true) {c : Char}
    (hc : (Text.isAlphanumeric c || c == '-' || c == '_') = false) : c ∉ name.toList := by
  unfold isActorName at h
  rw [Bool.and_eq_true] at h
  exact Text.not_mem_of_all h.2 hc

theorem isLeaf_key (h : isActorName name = true) {suffix : String} (hs : '/' ∉ suffix.toList)
    (hlong : 3 ≤ suffix.toList.length) : IsLeaf (name ++ suffix) := by
  have other (s : String) (hshort : s.toList.length ≤ 2) : name ++ suffix ≠ s := by
    rintro rfl
    rw [String.toList_append, List.length_append] at hshort
    omega
  constructor
  case unslashed =>
    rw [String.toList_append, List.mem_append]
    exact not_or.2 ⟨not_mem_actorName h (by decide), hs⟩
  case nonempty => exact other _ (by decide)
  case named => exact ⟨other _ (by decide), other _ (by decide)⟩

theorem isLeaf_public (h : isActorName name = true) : IsLeaf (name ++ "-public.pem") :=
  isLeaf_key h (by decide) (by decide)

theorem isLeaf_private (h : isActorName name = true) : IsLeaf (name ++ "-private.pem") :=
  isLeaf_key h (by decide) (by decide)

def publicNames (k : KeyRing) (name : String) : List String :=
  Path.names k.directory ++ [name ++ "-public.pem"]

def privateNames (k : KeyRing) (name : String) : List String :=
  Path.names k.directory ++ [name ++ "-private.pem"]

theorem names_inj {suffix suffix' : String}
    (h : Path.names k.directory ++ [name ++ suffix] =
      Path.names k.directory ++ [name' ++ suffix']) :
    name ++ suffix = name' ++ suffix' :=
  List.head_eq_of_cons_eq (List.append_cancel_left h)

theorem publicNames_inj (h : k.publicNames name = k.publicNames name') : name = name' :=
  (String.append_left_inj _).1 (names_inj h)

theorem publicNames_ne_privateNames : k.publicNames name ≠ k.privateNames name' := by
  intro h
  have h := congrArg (fun s => s.toList.reverse.drop 4 |>.head?) (names_inj h)
  simp only [String.toList_append, List.reverse_append] at h
  revert h
  simp

theorem publicFile_inj (h : isActorName name = true) (h' : isActorName name' = true)
    (he : k.publicFile name = k.publicFile name') : name = name' := by
  have hnames := congrArg Path.names he
  rw [publicFile, publicFile, Path.names_join _ (isLeaf_public h),
    Path.names_join _ (isLeaf_public h')] at hnames
  exact publicNames_inj hnames

/-- The private half is found beside the public one: by a path that leads where its own leads. -/
theorem privateFileOf_publicFile (h : isActorName name = true) :
    Path.Shortens (privateFileOf (k.publicFile name)) (k.privateFile name) := by
  have replaced : Text.replaceAll "public.pem".toList "private.pem".toList
      ((name ++ "-public.pem").toList.length + 1) (name ++ "-public.pem").toList =
        (name ++ "-private.pem").toList := by
    have front : '.' ∉ name.toList ++ ['-'] := by
      rw [List.mem_append]
      exact not_or.2 ⟨not_mem_actorName h (by decide), by decide⟩
    have file : (name ++ "-public.pem").toList =
        name.toList ++ ['-'] ++ ("public".toList ++ '.' :: "pem".toList) := by
      simp
    have long : (name.toList ++ ['-']).length < (name ++ "-public.pem").toList.length + 1 := by
      rw [file]
      simp only [List.length_append]
      omega
    have old : "public.pem".toList = "public".toList ++ '.' :: "pem".toList := by decide
    rw [file] at long ⊢
    rw [old, Text.replaceAll_append front (by decide) long]
    simp
  unfold privateFileOf publicFile
  rw [Path.fileName?_join _ (isLeaf_public h), Option.getD_some]
  dsimp only
  rw [replaced, String.ofList_toList]
  exact Path.shortens_withFileName _ (isLeaf_public h) (isLeaf_private h)

variable {actor : Actor} {draw : KeyDraw} {n n' : Node} {fs fs' fs'' : Files}
  {pair : Rsa.PrivateKey} {disk : Disk} {left : List FileEntry} {path text : String}
  {f : Fault}

theorem writeNew_ok (h : fs.Gains fs' left) (hw : writeNew disk path text fs' = (.ok (), fs'')) :
    disk.cut? path text = none ∧ ∃ ns, fs.locate path = .ok (.name ns false) ∧
      fs.Gains fs'' (left ++ [⟨ns, .text text⟩]) := by
  unfold writeNew at hw
  split at hw
  next f hf => cases hw
  next ns hns =>
    obtain ⟨-, hl, hfree⟩ := Files.openNew_eq_ok_iff.1 hns
    rw [Files.fill_eq] at hw
    cases hcut : disk.cut? path text with
    | none =>
      rw [hcut, Disk.taken_eq_iff.2 hcut] at hw
      cases hw
      exact ⟨rfl, ns, h.locate_eq_ok_iff.1 hl, h.put hfree text⟩
    | some part =>
      rw [hcut] at hw
      cases hw

/-- A file that cannot be created is not there, but one that was cut short is. -/
theorem writeNew_error (h : fs.Gains fs' left)
    (hw : writeNew disk path text fs' = (.error f, fs'')) :
    f.tasks = [.creatingFile path] ∧ fs'' = fs' ∨
      f.tasks = [.writingFile path] ∧ (disk.cut? path text).isSome = true ∧
        ∃ ns, fs.locate path = .ok (.name ns false) ∧
          fs.Gains fs'' (left ++ [⟨ns, .text (disk.taken path text)⟩]) := by
  unfold writeNew at hw
  split at hw
  next g hg =>
    cases hw
    exact .inl ⟨rfl, rfl⟩
  next ns hns =>
    obtain ⟨-, hl, hfree⟩ := Files.openNew_eq_ok_iff.1 hns
    rw [Files.fill_eq] at hw
    cases hcut : disk.cut? path text with
    | none =>
      rw [hcut] at hw
      cases hw
    | some part =>
      rw [hcut] at hw
      cases hw
      exact .inr ⟨rfl, rfl, ns, h.locate_eq_ok_iff.1 hl, h.put hfree _⟩

/-- Of new files that are discarded those stay that the disk does not remove. -/
theorem discard_outcome (h : fs.Gains fs' left) (disk : Disk) (paths : List String)
    (hpaths : ∀ p ∈ paths, ∃ e ∈ left, fs'.textAt? p = some e.path) :
    ∃ left', fs.Gains (discard disk paths fs') left' ∧ left' ⊆ left ∧
      (left' = [] ↔ ∀ e ∈ left, ∃ p ∈ paths, disk.removing p = none ∧
        fs'.textAt? p = some e.path) := by
  refine ⟨_, h.removeAll fun p hp => hpaths p (List.mem_of_mem_filter hp),
    fun e he => List.mem_of_mem_filter he, ?_⟩
  rw [List.filter_eq_nil_iff]
  refine forall₂_congr fun e _ => ?_
  simp only [List.mem_filter, Option.isNone_iff_eq_none, decide_eq_true_iff, not_forall, not_not,
    exists_prop, and_assoc]

def privateHalf (k : KeyRing) (disk : Disk) (name : String) (pair : Rsa.PrivateKey) : FileEntry :=
  ⟨k.privateNames name, .text (disk.taken (k.privateFile name) pair.toPem)⟩

def publicHalf (k : KeyRing) (disk : Disk) (name : String) (pair : Rsa.PrivateKey) : FileEntry :=
  ⟨k.publicNames name, .text (disk.taken (k.publicFile name) pair.public.toPem)⟩

/-- Whether a failed call leaves a file behind: one that was cut short, or one that cannot be taken
away again. -/
def spoils (k : KeyRing) (disk : Disk) (name : String) (f : Fault) : Bool :=
  match f.tasks with
  | [.writingFile _] => true
  | [.creatingFile path] =>
    path == k.publicFile name && (disk.removing (k.privateFile name)).isSome
  | [.storingActor _] | [.registeringKey _] =>
    (disk.removing (k.privateFile name)).isSome || (disk.removing (k.publicFile name)).isSome
  | _ => false

structure Remains (k : KeyRing) (disk : Disk) (name : String) (pair : Rsa.PrivateKey) (f : Fault)
    (fs fs' : Files) (left : List FileEntry) : Prop where
  gains : fs.Gains fs' left
  halves : left ⊆ [k.privateHalf disk name pair, k.publicHalf disk name pair]
  clean_iff : left = [] ↔ k.spoils disk name f = false
  cut : ∀ path, f.tasks = [.writingFile path] → ∃ text, (disk.cut? path text).isSome = true

structure WrittenPair (k : KeyRing) (disk : Disk) (name : String) (pair : Rsa.PrivateKey)
    (fs fs' : Files) : Prop where
  private_located : fs.locate (k.privateFile name) = .ok (.name (k.privateNames name) false)
  public_located : fs.locate (k.publicFile name) = .ok (.name (k.publicNames name) false)
  private_whole : disk.cut? (k.privateFile name) pair.toPem = none
  public_whole : disk.cut? (k.publicFile name) pair.public.toPem = none
  gains : fs.Gains fs' [⟨k.privateNames name, .text pair.toPem⟩,
    ⟨k.publicNames name, .text pair.public.toPem⟩]

theorem publicFile_ne_privateFile (h : isActorName name = true) :
    k.publicFile name ≠ k.privateFile name := by
  intro he
  have hnames := congrArg Path.names he
  rw [publicFile, privateFile, Path.names_join _ (isLeaf_public h),
    Path.names_join _ (isLeaf_private h)] at hnames
  exact publicNames_ne_privateNames hnames

theorem located_private (h : isActorName name = true) {ns : List String}
    (hl : fs.locate (k.privateFile name) = .ok (.name ns false)) : ns = k.privateNames name :=
  (Spot.name.inj (Files.locate_join (isLeaf_private h) hl)).1

theorem located_public (h : isActorName name = true) {ns : List String}
    (hl : fs.locate (k.publicFile name) = .ok (.name ns false)) : ns = k.publicNames name :=
  (Spot.name.inj (Files.locate_join (isLeaf_public h) hl)).1

theorem remains_of_public (hname : isActorName name = true)
    (hl : fs.locate (k.privateFile name) = .ok (.name (k.privateNames name) false))
    (hwhole : disk.cut? (k.privateFile name) pair.toPem = none)
    (h : fs.Gains fs' [⟨k.privateNames name, .text pair.toPem⟩])
    (hw : writeNew disk (k.publicFile name) pair.public.toPem fs' = (.error f, fs'')) :
    ∃ left, Remains k disk name pair f fs (discard disk [k.privateFile name] fs'') left := by
  have half : k.privateHalf disk name pair = ⟨k.privateNames name, .text pair.toPem⟩ := by
    rw [privateHalf, Disk.taken_eq_iff.2 hwhole]
  rcases writeNew_error h hw with ⟨htasks, rfl⟩ | ⟨htasks, hcut, ns, hl', gains⟩
  -- the public half is not there, so the private one is all that may stay
  · have there := h.textAt? List.mem_cons_self hl
    obtain ⟨left, gains, hsub, hnil⟩ := discard_outcome h disk [k.privateFile name]
      fun p hp => ⟨_, List.mem_cons_self, by rwa [List.mem_singleton.1 hp]⟩
    refine ⟨left, gains, ?_, ?_, ?_⟩
    · rw [half]
      exact List.Subset.trans hsub (List.cons_subset_cons _ (List.nil_subset _))
    · rw [hnil]
      simp [spoils, htasks, there]
    · simp [htasks]
  -- the public half is there in part, and nothing takes it away
  · obtain rfl := located_public hname hl'
    have there := gains.textAt? List.mem_cons_self hl
    obtain ⟨left, gains', hsub, hnil⟩ := discard_outcome gains disk [k.privateFile name]
      fun p hp => ⟨_, List.mem_cons_self, by rwa [List.mem_singleton.1 hp]⟩
    refine ⟨left, gains', ?_, ?_, ?_⟩
    · rw [half]
      exact hsub
    · rw [hnil]
      simp [spoils, htasks, there, publicNames_ne_privateNames.symm]
    · intro path hpath
      rw [htasks] at hpath
      cases hpath
      exact ⟨_, hcut⟩

/-- Both halves are written to new files, or the call fails and the disk decides what stays. -/
theorem writePair_outcome (hname : isActorName name = true) (disk : Disk) (pair : Rsa.PrivateKey)
    (fs : Files) :
    (k.writePair disk name pair fs).1 = .ok () ∧
        WrittenPair k disk name pair fs (k.writePair disk name pair fs).2 ∨
      ∃ f left, (k.writePair disk name pair fs).1 = .error f ∧
        Remains k disk name pair f fs (k.writePair disk name pair fs).2 left := by
  unfold writePair
  split
  next f fs₁ h₁ =>
    refine .inr ⟨f, ?_⟩
    rcases writeNew_error (.refl fs) h₁ with ⟨htasks, rfl⟩ | ⟨htasks, hcut, ns, hl, gains⟩
    · refine ⟨[], rfl, .refl _, List.nil_subset _, ?_, ?_⟩
      · simp [spoils, htasks, (publicFile_ne_privateFile hname).symm]
      · simp [htasks]
    · obtain rfl := located_private hname hl
      refine ⟨_, rfl, gains, List.cons_subset_cons _ (List.nil_subset _), ?_, ?_⟩
      · simp [spoils, htasks]
      · intro path hpath
        rw [htasks] at hpath
        cases hpath
        exact ⟨_, hcut⟩
  next fs₁ h₁ =>
    obtain ⟨hwhole, ns, hl, gains⟩ := writeNew_ok (.refl fs) h₁
    obtain rfl := located_private hname hl
    split
    next f fs₂ h₂ =>
      obtain ⟨left, remains⟩ := remains_of_public hname hl hwhole gains h₂
      exact .inr ⟨f, left, rfl, remains⟩
    next fs₂ h₂ =>
      obtain ⟨hwhole', ns', hl', gains'⟩ := writeNew_ok gains h₂
      obtain rfl := located_public hname hl'
      exact .inl ⟨rfl, hl, hl', hwhole, hwhole', gains'⟩

theorem WrittenPair.remains (h : WrittenPair k disk name pair fs fs')
    (htasks : (∃ id, f.tasks = [.storingActor id]) ∨ ∃ id, f.tasks = [.registeringKey id]) :
    ∃ left, Remains k disk name pair f fs
      (discard disk [k.privateFile name, k.publicFile name] fs') left := by
  have private_there := h.gains.textAt? List.mem_cons_self h.private_located
  have public_there :=
    h.gains.textAt? (List.mem_cons_of_mem _ List.mem_cons_self) h.public_located
  obtain ⟨left, gains, hsub, hnil⟩ :=
    discard_outcome h.gains disk [k.privateFile name, k.publicFile name] <| by
      simp [private_there, public_there]
  refine ⟨left, gains, ?_, ?_, ?_⟩
  · rwa [privateHalf, publicHalf, Disk.taken_eq_iff.2 h.private_whole,
      Disk.taken_eq_iff.2 h.public_whole]
  · rw [hnil]
    have other : k.publicNames name ≠ k.privateNames name := publicNames_ne_privateNames
    rcases htasks with ⟨id, htasks⟩ | ⟨id, htasks⟩ <;>
      simp [spoils, htasks, private_there, public_there, other, other.symm]
  · rcases htasks with ⟨id, htasks⟩ | ⟨id, htasks⟩ <;> simp [htasks]

/-- Everything that a call does that gives an actor its key. -/
structure Provided (k : KeyRing) (disk : Disk) (actor : Actor) (draw : KeyDraw) (n n' : Node)
    (pair : Rsa.PrivateKey) : Prop where
  named : isActorName actor.name = true
  drawn : Rsa.PrivateKey.generate? k.bits draw.1 draw.2 = some pair
  files : ∃ made, n.files.makeDirectories k.directory = (.ok (), made) ∧
    WrittenPair k disk actor.name pair made n'.files
  keys : n'.board.keys = n.board.keys.put (k.recordOf actor)
  fresh : ∀ r ∈ n.board.keys.rows, r.id ≠ actor.keyId ∧ r.owner ≠ actor.id
  names : ∀ id, n'.board.storedName id =
    if actor.id = id then some ((n.board.storedName id).getD actor.name)
    else n.board.storedName id

theorem addResident_eq_some {b b' : Board} {r : Resident} (h : b.addResident r = some b') :
    b'.keys = b.keys ∧ b'.residents = b.residents.put r := by
  unfold Board.addResident at h
  split at h
  next => cases h
  next =>
    obtain ⟨residents, hinsert, rfl⟩ := Option.map_eq_some_iff.1 h
    exact ⟨rfl, (Table.insert?_eq_some_iff.1 hinsert).2.symm⟩

theorem storeResident_eq_ok {b b' : Board} {keyId : String}
    (h : b.storeResident actor keyId = .ok b') :
    b'.keys = b.keys ∧ ∀ id, b'.storedName id =
      if actor.id = id then some ((b.storedName id).getD actor.name) else b.storedName id := by
  have put (s : Resident) (hresidents : b'.residents = b.residents.put s)
      (hid : s.actor.id = actor.id)
      (hname : s.actor.name = (b.storedName actor.id).getD actor.name) (id : String) :
      b'.storedName id =
        if actor.id = id then some ((b.storedName id).getD actor.name) else b.storedName id := by
    have same : Keyed.key s = [id] ↔ actor.id = id := by
      rw [← hid]
      exact ⟨List.head_eq_of_cons_eq, congrArg ([·])⟩
    unfold Board.storedName
    rw [hresidents, Table.get?_put]
    simp only [same]
    split
    next he =>
      subst he
      exact congrArg some hname
    next => rfl
  unfold Board.storeResident at h
  split at h
  next r hr =>
    obtain rfl := Except.ok.inj h
    have hid : r.actor.id = actor.id := List.head_eq_of_cons_eq (Table.get?_eq_some_iff.1 hr).2
    exact ⟨rfl, put _ rfl hid (by rw [Board.storedName, hr]; rfl)⟩
  next hnone =>
    dsimp only at h
    split at h
    next h₁ =>
      obtain rfl := Except.ok.inj h
      obtain ⟨hkeys, hresidents⟩ := addResident_eq_some h₁
      exact ⟨hkeys, put _ hresidents rfl (by rw [Board.storedName, hnone]; rfl)⟩
    next => cases h

theorem storeResident_error {b : Board} {keyId : String}
    (h : b.storeResident actor keyId = .error f) : f.tasks = [.storingActor actor.id] := by
  unfold Board.storeResident at h
  split at h
  next => cases h
  next =>
    dsimp only at h
    split at h
    next => cases h
    next =>
      cases h
      rfl

theorem registerKey_eq_ok {b b' : Board} {r : KeyRecord} (h : b.registerKey r = .ok b') :
    b'.residents = b.residents ∧ b'.keys = b.keys.put r ∧
      ∀ s ∈ b.keys.rows, s.id ≠ r.id ∧ s.owner ≠ r.owner := by
  unfold Board.registerKey at h
  split at h
  next keys hkeys =>
    obtain rfl := Except.ok.inj h
    split at hkeys
    next => cases hkeys
    next howner =>
      obtain ⟨hfree, rfl⟩ := Table.insert?_eq_some_iff.1 hkeys
      refine ⟨rfl, rfl, fun s hs => ⟨fun hid => hfree s hs (congrArg ([·]) hid), ?_⟩⟩
      intro ho
      apply howner
      unfold Board.keyOf
      rw [List.find?_isSome]
      exact ⟨s, hs, beq_iff_eq.2 ho⟩
  next => cases h

theorem registerKey_error {b : Board} {r : KeyRecord} (h : b.registerKey r = .error f) :
    f.tasks = [.registeringKey r.id] := by
  unfold Board.registerKey at h
  split at h
  next => cases h
  next =>
    cases h
    rfl

theorem named_of_admits {b : Board} (h : admits b actor = .ok ()) :
    isActorName actor.name = true := by
  unfold admits at h
  split at h
  next => cases h
  next hname => simpa using hname

theorem tasks_of_admits {b : Board} (h : admits b actor = .error f) : f.tasks = [] := by
  unfold admits at h
  split at h
  next =>
    cases h
    rfl
  next =>
    split at h
    next =>
      cases h
      rfl
    next =>
      split at h
      next =>
        split at h
        next => cases h
        next =>
          cases h
          rfl
      next => cases h

/-- A call that fails: no row is changed, and but for the directory of the keys and what the disk
leaves of this one no file either. -/
structure Aborted (k : KeyRing) (disk : Disk) (actor : Actor) (draw : KeyDraw) (f : Fault)
    (n n' : Node) : Prop where
  board : n'.board = n.board
  files : ∃ made left, (made = n.files ∨ made = (n.files.makeDirectories k.directory).2) ∧
    made.Gains n'.files left ∧
    (∀ e ∈ left, ∃ pair, Rsa.PrivateKey.generate? k.bits draw.1 draw.2 = some pair ∧
      e ∈ [k.privateHalf disk actor.name pair, k.publicHalf disk actor.name pair]) ∧
    (left = [] ↔ k.spoils disk actor.name f = false)
  cut : ∀ path, f.tasks = [.writingFile path] → ∃ text, (disk.cut? path text).isSome = true

theorem Aborted.of_gains {made : Files}
    (hmade : made = n.files ∨ made = (n.files.makeDirectories k.directory).2)
    (hclean : k.spoils disk actor.name f = false)
    (hcut : ∀ path, f.tasks ≠ [.writingFile path]) :
    Aborted k disk actor draw f n { n with files := made } :=
  ⟨rfl, ⟨made, [], hmade, .refl made, nofun, iff_of_true rfl hclean⟩,
    fun path hpath => absurd hpath (hcut path)⟩

theorem Remains.aborted {made files : Files}
    (hmade : n.files.makeDirectories k.directory = (.ok (), made))
    (hdrawn : Rsa.PrivateKey.generate? k.bits draw.1 draw.2 = some pair)
    (h : Remains k disk actor.name pair f made files left) :
    Aborted k disk actor draw f n { n with files } :=
  ⟨rfl, ⟨made, left, .inr (congrArg Prod.snd hmade).symm, h.gains,
    fun _ he => ⟨pair, hdrawn, h.halves he⟩, h.clean_iff⟩, h.cut⟩

/-- A call gives the actor its key, or it fails and changes no row. -/
theorem provision_outcome (k : KeyRing) (disk : Disk) (actor : Actor) (draw : KeyDraw) (n : Node) :
    (∃ pair, (k.provision disk actor draw n).1 = .ok (k.recordOf actor) ∧
        Provided k disk actor draw n (k.provision disk actor draw n).2 pair) ∨
      ∃ f, (k.provision disk actor draw n).1 = .error f ∧
        Aborted k disk actor draw f n (k.provision disk actor draw n).2 := by
  unfold provision
  split
  next f hf =>
    have htasks := tasks_of_admits hf
    exact .inr ⟨f, rfl, .of_gains (.inl rfl) (by simp [spoils, htasks]) (by simp [htasks])⟩
  next hadmits =>
    have hname := named_of_admits hadmits
    split
    next g made hmade =>
      exact .inr ⟨_, rfl, .of_gains (.inr (congrArg Prod.snd hmade).symm) rfl nofun⟩
    next made hmade =>
      split
      next => exact .inr ⟨_, rfl, .of_gains (.inr (congrArg Prod.snd hmade).symm) rfl nofun⟩
      next pair hpair =>
        have outcome := writePair_outcome (k := k) hname disk pair made
        split
        next f files hw =>
          rw [hw] at outcome
          rcases outcome with ⟨hok, -⟩ | ⟨g, left, hfail, remains⟩
          · cases hok
          · cases hfail
            exact .inr ⟨f, rfl, remains.aborted hmade hpair⟩
        next files hw =>
          rw [hw] at outcome
          rcases outcome with ⟨-, written⟩ | ⟨g, left, hfail, -⟩
          · dsimp only
            split
            next board hboard =>
              obtain ⟨b, hstored, hregistered⟩ := except_bind_eq_ok.1 hboard
              obtain ⟨hresidents, hkeys, hfresh⟩ := registerKey_eq_ok hregistered
              obtain ⟨hkeys', hnames⟩ := storeResident_eq_ok hstored
              rw [hkeys'] at hkeys hfresh
              refine .inl ⟨pair, rfl, hname, hpair, ⟨made, hmade, written⟩, hkeys, hfresh, ?_⟩
              intro id
              rw [← hnames id, Board.storedName, Board.storedName, hresidents]
            next f hboard =>
              have htasks : (∃ id, f.tasks = [.storingActor id]) ∨
                  ∃ id, f.tasks = [.registeringKey id] := by
                cases hstored : n.board.storeResident actor actor.keyId with
                | error g =>
                  rw [recordOf, hstored] at hboard
                  cases hboard
                  exact .inl ⟨_, storeResident_error hstored⟩
                | ok b =>
                  rw [recordOf, hstored] at hboard
                  exact .inr ⟨_, registerKey_error hboard⟩
              obtain ⟨left, remains⟩ := written.remains htasks
              exact .inr ⟨f, rfl, remains.aborted hmade hpair⟩
          · cases hfail

end Site.KeyRing
end Imageboard
