import Imageboard.Proofs.Keys.Provision

namespace Imageboard.Site

/-- What happens to the keys of a board: calls, with the disk as it is at the time, and harm to the
file of a registered public key, which is taken away or gets another text. -/
inductive KeyEvent where
  | provision (disk : Disk) (actor : Actor) (draw : KeyDraw)
  | recover (disk : Disk) (keyId : String)
  | harm (keyId : String) (text : Option String)

namespace KeyRing

variable {k : KeyRing} {n n' : Node} {disk : Disk} {actor other : Actor} {pair : Rsa.PrivateKey}
  {draw : KeyDraw} {keyId : String} {e : KeyEvent} {events after : List KeyEvent}
  {ns : List String} {left : List FileEntry} {f : Fault}

def harm (n : Node) (keyId : String) (text : Option String) : Node :=
  match n.board.key keyId with
  | none => n
  | some r =>
    match text.elim (n.files.remove r.file) (n.files.store r.file) with
    | .error _ => n
    | .ok files => { n with files }

def apply (k : KeyRing) (n : Node) : KeyEvent → Node
  | .provision disk actor draw => (k.provision disk actor draw n).2
  | .recover disk keyId => (n.recoverKey disk keyId).2
  | .harm keyId text => harm n keyId text

def run (k : KeyRing) (n : Node) (events : List KeyEvent) : Node :=
  events.foldl k.apply n

/-- Whether the public half of a key may be other than it was written, after something happened.
A recovery that opens the file harms it if the disk does not take all of the text, and undoes all
harm if it does. -/
def harmedBy (k : KeyRing) (actor : Actor) (pair : Rsa.PrivateKey) (harmed : Bool) :
    KeyEvent → Bool
  | .provision _ _ _ => harmed
  | .recover disk keyId =>
    if keyId = actor.keyId ∧ disk.opening (k.publicFile actor.name) = none then
      (disk.cut? (k.publicFile actor.name) pair.public.toPem).isSome
    else harmed
  | .harm keyId _ => harmed || keyId == actor.keyId

def harmed (k : KeyRing) (actor : Actor) (pair : Rsa.PrivateKey) (events : List KeyEvent) : Bool :=
  events.foldl (k.harmedBy actor pair) false

/-- An actor has a key: its row, its private half, and room for its public one. -/
structure Held (k : KeyRing) (n : Node) (actor : Actor) (pair : Rsa.PrivateKey) : Prop where
  named : isActorName actor.name = true
  sound : pair.isSound = true
  secret_lt : pair.secret < 2 ^ Rsa.maxBits
  row : k.recordOf actor ∈ n.board.keys.rows
  private_located : n.files.locate (k.privateFile actor.name) =
    .ok (.name (k.privateNames actor.name) false)
  public_located : n.files.locate (k.publicFile actor.name) =
    .ok (.name (k.publicNames actor.name) false)
  private_text : n.files.node? (k.privateNames actor.name) = some (.text pair.toPem)
  public_file : n.files.node? (k.publicNames actor.name) ≠ some .directory

def Intact (k : KeyRing) (n : Node) (actor : Actor) (pair : Rsa.PrivateKey) : Prop :=
  n.files.node? (k.publicNames actor.name) = some (.text pair.public.toPem)

theorem Held.touched (h : Held k n actor pair) (ht : n.files.Touched n'.files ns)
    (hne : ns ≠ k.privateNames actor.name) (hrow : k.recordOf actor ∈ n'.board.keys.rows) :
    Held k n' actor pair where
  named := h.named
  sound := h.sound
  secret_lt := h.secret_lt
  row := hrow
  private_located := ht.locate_eq_ok_iff.2 h.private_located
  public_located := ht.locate_eq_ok_iff.2 h.public_located
  private_text := (ht.others _ hne.symm).trans h.private_text
  public_file := (ht.node?_eq_directory_iff _).not.2 h.public_file

theorem Intact.touched (h : Intact k n actor pair) (ht : n.files.Touched n'.files ns)
    (hne : ns ≠ k.publicNames actor.name) : Intact k n' actor pair :=
  (ht.others _ hne.symm).trans h

theorem Held.gains (h : Held k n actor pair) (hg : n.files.Gains n'.files left)
    (hrow : k.recordOf actor ∈ n'.board.keys.rows) : Held k n' actor pair where
  named := h.named
  sound := h.sound
  secret_lt := h.secret_lt
  row := hrow
  private_located := hg.locate_eq_ok_iff.2 h.private_located
  public_located := hg.locate_eq_ok_iff.2 h.public_located
  private_text := hg.node? h.private_text
  public_file := (hg.node?_eq_directory_iff _).not.2 h.public_file

structure Sound (k : KeyRing) (n : Node) : Prop where
  held : ∀ r ∈ n.board.keys.rows, ∃ actor pair, r = k.recordOf actor ∧ Held k n actor pair
  owners : ∀ r ∈ n.board.keys.rows, ∀ s ∈ n.board.keys.rows, r.owner = s.owner → r = s
  files : ∀ r ∈ n.board.keys.rows, ∀ s ∈ n.board.keys.rows, r.file = s.file → r = s

theorem Held.read (h : Held k n actor pair) :
    n.files.read (k.privateFile actor.name) = .ok pair.toPem :=
  Files.read_eq_ok_iff.2 ⟨_, h.private_located, h.private_text⟩

theorem Held.located (h : Held k n actor pair) :
    n.files.locate (privateFileOf (k.publicFile actor.name)) =
      .ok (.name (k.privateNames actor.name) false) :=
  Files.locate_of_shortens (privateFileOf_publicFile h.named) h.private_located

theorem Held.read_beside (h : Held k n actor pair) :
    n.files.read (privateFileOf (k.publicFile actor.name)) = .ok pair.toPem :=
  Files.read_eq_ok_iff.2 ⟨_, h.located, h.private_text⟩

theorem Held.key (h : Held k n actor pair) : n.board.key actor.keyId = some (k.recordOf actor) :=
  Table.get?_eq_some_iff.2 ⟨h.row, rfl⟩

theorem Held.privateKey (h : Held k n actor pair) (hs : Sound k n) :
    n.privateKey actor.id = .ok pair.toPem := by
  have found : n.board.keyOf actor.id = some (k.recordOf actor) := by
    cases hf : n.board.keyOf actor.id with
    | none => simpa [recordOf] using List.find?_eq_none.1 hf _ h.row
    | some r =>
      have howner : r.owner = actor.id := by simpa using List.find?_some hf
      rw [hs.owners r (List.mem_of_find?_eq_some hf) _ h.row howner]
  unfold Node.privateKey
  rw [found]
  exact fileStep_eq_ok.2 h.read_beside

theorem Held.publicKey (h : Held k n actor pair) {text : String}
    (ht : n.files.node? (k.publicNames actor.name) = some (.text text)) :
    n.publicKey actor.keyId = .ok (some ⟨actor.keyId, actor.id, text⟩) := by
  have read : n.files.read (k.publicFile actor.name) = .ok text :=
    Files.read_eq_ok_iff.2 ⟨_, h.public_located, ht⟩
  unfold Node.publicKey
  rw [h.key]
  exact except_bind_eq_ok.2 ⟨_, fileStep_eq_ok.2 read, rfl⟩

theorem Held.pairBeside (h : Held k n actor pair) :
    n.pairBeside (k.publicFile actor.name) = .ok pair := by
  have here : n.files.present (privateFileOf (k.publicFile actor.name)) = true := by
    obtain ⟨node, hfind, -⟩ := except_bind_eq_ok.1 h.read_beside
    unfold Files.present
    rw [hfind]
  have decoded : privateKeyOf pair.toPem = .ok pair := by
    unfold privateKeyOf
    rw [Rsa.PrivateKey.ofPem?_toPem h.sound h.secret_lt]
    rfl
  unfold Node.pairBeside
  dsimp only
  rw [here]
  exact except_bind_eq_ok.2 ⟨_, fileStep_eq_ok.2 h.read_beside, decoded⟩

/-- The public half of a key is written anew: nothing but its file is touched, and what the disk
takes is there after. -/
structure Rewritten (k : KeyRing) (n : Node) (disk : Disk) (actor : Actor) (pair : Rsa.PrivateKey)
    (result : Except Fault String × Node) : Prop where
  board : result.2.board = n.board
  touched : n.files.Touched result.2.files (k.publicNames actor.name)
  done_iff : result.1 = .ok (k.publicFile actor.name) ↔
    disk.opening (k.publicFile actor.name) = none ∧
      disk.cut? (k.publicFile actor.name) pair.public.toPem = none
  unopened : disk.opening (k.publicFile actor.name) ≠ none → result.2 = n
  text : disk.opening (k.publicFile actor.name) = none →
    result.2.files.node? (k.publicNames actor.name) =
      some (.text (disk.taken (k.publicFile actor.name) pair.public.toPem))
  unchanged : Intact k n actor pair →
    disk.cut? (k.publicFile actor.name) pair.public.toPem = none → result.2 = n

theorem Held.recoverKey (h : Held k n actor pair) (disk : Disk) :
    Rewritten k n disk actor pair (n.recoverKey disk actor.keyId) := by
  have beside := h.pairBeside
  unfold Node.recoverKey Files.write
  rw [h.key]
  dsimp only [recordOf]
  rw [beside]
  dsimp only
  cases hopen : n.files.openOver disk (k.publicFile actor.name) with
  | error f =>
    have closed : disk.opening (k.publicFile actor.name) ≠ none := by
      intro hfree
      rw [Files.openOver_eq_ok_iff.2 ⟨hfree, h.public_located, h.public_file⟩] at hopen
      cases hopen
    exact ⟨rfl, ⟨fun _ _ => rfl, h.public_file, h.public_file⟩,
      iff_of_false nofun fun hfree => closed hfree.1, fun _ => rfl,
      fun hfree => absurd hfree closed, fun _ _ => rfl⟩
  | ok ns =>
    obtain ⟨hfree, hl, -⟩ := Files.openOver_eq_ok_iff.1 hopen
    cases h.public_located.symm.trans hl
    obtain ⟨touched, text⟩ := Files.touched_put h.public_file
      (disk.taken (k.publicFile actor.name) pair.public.toPem)
    dsimp only
    rw [Files.fill_eq]
    refine ⟨rfl, touched, ?_, fun hne => absurd hfree hne, fun _ => text, fun hi hwhole => ?_⟩
    · rw [and_iff_right hfree]
      cases disk.cut? (k.publicFile actor.name) pair.public.toPem with
      | none => exact iff_of_true rfl rfl
      | some part => exact iff_of_false nofun nofun
    · -- the text that is put is the one that is there
      have named : k.publicNames actor.name ≠ [] :=
        List.append_ne_nil_of_right_ne_nil _ (List.cons_ne_nil _ [])
      have there := Files.node?_eq_some_iff.1 hi
      rw [if_neg named] at there
      rw [Disk.taken_eq_iff.2 hwhole, Table.put_of_mem there]

theorem Provided.held (h : Provided k disk actor draw n n' pair) :
    Held k n' actor pair ∧ Intact k n' actor pair := by
  obtain ⟨made, -, written⟩ := h.files
  obtain ⟨hsound, hsecret⟩ := Rsa.PrivateKey.of_generate? h.drawn
  have private_text := written.gains.node?_of_mem List.mem_cons_self
  have public_text := written.gains.node?_of_mem (List.mem_cons_of_mem _ List.mem_cons_self)
  refine ⟨?_, public_text⟩
  constructor
  case named => exact h.named
  case sound => exact hsound
  case secret_lt => exact hsecret
  case row =>
    rw [h.keys, Table.mem_put]
    exact .inl rfl
  case private_located => exact written.gains.locate_eq_ok_iff.2 written.private_located
  case public_located => exact written.gains.locate_eq_ok_iff.2 written.public_located
  case private_text => exact private_text
  case public_file =>
    rw [public_text]
    exact nofun

theorem Held.makeDirectories (h : Held k n actor pair) :
    n.files.makeDirectories k.directory = (.ok (), n.files) :=
  Files.makeDirectories_of_located (isLeaf_private h.named) h.private_located

theorem Held.of_aborted (h : Held k n actor pair) (ha : Aborted k disk other draw f n n') :
    Held k n' actor pair ∧ (Intact k n actor pair → Intact k n' actor pair) := by
  obtain ⟨made, left, hmade, gains, -⟩ := ha.files
  obtain rfl : made = n.files := by
    rcases hmade with rfl | rfl
    · rfl
    · rw [h.makeDirectories]
  exact ⟨h.gains gains (ha.board ▸ h.row), gains.node?⟩

theorem Held.of_provided (h : Held k n actor pair) {given : Rsa.PrivateKey}
    (hp : Provided k disk other draw n n' given) : Held k n' actor pair ∧
      actor.name ≠ other.name ∧ (Intact k n actor pair → Intact k n' actor pair) := by
  obtain ⟨made, hmade, written⟩ := hp.files
  cases h.makeDirectories.symm.trans hmade
  have row : k.recordOf actor ∈ n'.board.keys.rows := by
    rw [hp.keys, Table.mem_put]
    exact .inr ⟨h.row, fun hk => (hp.fresh _ h.row).1 (List.head_eq_of_cons_eq hk)⟩
  refine ⟨h.gains written.gains row, fun he => ?_, written.gains.node?⟩
  have free := written.gains.free _ List.mem_cons_self
  rw [← he, h.private_text] at free
  cases free

inductive Step (k : KeyRing) (n : Node) : KeyEvent → Node → Prop where
  | provided {disk : Disk} {actor : Actor} {draw : KeyDraw} {pair : Rsa.PrivateKey} {n' : Node}
      (done : (k.provision disk actor draw n).1 = .ok (k.recordOf actor))
      (provided : Provided k disk actor draw n n' pair) : Step k n (.provision disk actor draw) n'
  | aborted {disk : Disk} {actor : Actor} {draw : KeyDraw} {f : Fault} {n' : Node}
      (aborted : Aborted k disk actor draw f n n') : Step k n (.provision disk actor draw) n'
  | rewritten {disk : Disk} {actor : Actor} {pair : Rsa.PrivateKey}
      {result : Except Fault String × Node} (held : Held k n actor pair)
      (rewritten : Rewritten k n disk actor pair result) :
      Step k n (.recover disk actor.keyId) result.2
  | unknown {disk : Disk} {keyId : String} (none : n.board.key keyId = none) :
      Step k n (.recover disk keyId) n
  | harmed {actor : Actor} {pair : Rsa.PrivateKey} {text : Option String} {n' : Node}
      (held : Held k n actor pair) (board : n'.board = n.board)
      (touched : n.files.Touched n'.files (k.publicNames actor.name)) :
      Step k n (.harm actor.keyId text) n'
  | spared {keyId : String} {text : Option String} : Step k n (.harm keyId text) n

theorem Sound.held_key (h : Sound k n) {r : KeyRecord} (hr : n.board.key keyId = some r) :
    ∃ actor pair, r = k.recordOf actor ∧ actor.keyId = keyId ∧ Held k n actor pair := by
  obtain ⟨hmem, hid⟩ := Table.get?_eq_some_iff.1 hr
  obtain ⟨actor, pair, rfl, held⟩ := h.held r hmem
  exact ⟨actor, pair, rfl, List.head_eq_of_cons_eq hid, held⟩

theorem Held.touched_of_harm (h : Held k n actor pair) {text : Option String} {files : Files}
    (hf : text.elim (n.files.remove (k.publicFile actor.name))
      (n.files.store (k.publicFile actor.name)) = .ok files) :
    n.files.Touched files (k.publicNames actor.name) := by
  cases text with
  | none => exact Files.touched_remove h.public_located hf
  | some text =>
    obtain ⟨ns, hl, -, rfl⟩ := Files.store_eq_ok_iff.1 hf
    cases h.public_located.symm.trans hl
    exact (Files.touched_put h.public_file text).1

theorem Sound.step (h : Sound k n) (e : KeyEvent) : Step k n e (k.apply n e) := by
  cases e with
  | provision disk actor draw =>
    rcases provision_outcome k disk actor draw n with ⟨pair, done, provided⟩ | ⟨f, -, aborted⟩
    · exact .provided done provided
    · exact .aborted aborted
  | recover disk keyId =>
    cases hr : n.board.key keyId with
    | none =>
      have same : (n.recoverKey disk keyId).2 = n := by
        unfold Node.recoverKey
        rw [hr]
      unfold apply
      dsimp only
      rw [same]
      exact .unknown hr
    | some r =>
      obtain ⟨actor, pair, rfl, rfl, held⟩ := h.held_key hr
      exact .rewritten held (held.recoverKey disk)
  | harm keyId text =>
    unfold apply harm
    dsimp only
    split
    next => exact .spared
    next r hr =>
      obtain ⟨actor, pair, rfl, rfl, held⟩ := h.held_key hr
      split
      next => exact .spared
      next files hfiles => exact .harmed held rfl (held.touched_of_harm hfiles)

theorem Held.step (h : Held k n actor pair) (hs : Step k n e n') : Held k n' actor pair := by
  cases hs with
  | provided done provided => exact (h.of_provided provided).1
  | aborted aborted => exact (h.of_aborted aborted).1
  | rewritten held rewritten =>
    exact h.touched rewritten.touched publicNames_ne_privateNames (rewritten.board ▸ h.row)
  | harmed held board touched =>
    exact h.touched touched publicNames_ne_privateNames (board ▸ h.row)
  | unknown | spared => exact h

theorem Sound.of_step (h : Sound k n) (hs : Step k n e n') : Sound k n' := by
  have old (r : KeyRecord) (hr : r ∈ n.board.keys.rows) :
      ∃ actor pair, r = k.recordOf actor ∧ Held k n' actor pair := by
    obtain ⟨actor, pair, he, held⟩ := h.held r hr
    exact ⟨actor, pair, he, held.step hs⟩
  have same (hboard : n'.board = n.board) : Sound k n' := by
    constructor <;> rw [hboard]
    case held => exact old
    case owners => exact h.owners
    case files => exact h.files
  cases hs with
  | aborted aborted => exact same aborted.board
  | rewritten held rewritten => exact same rewritten.board
  | harmed held board => exact same board
  | unknown | spared => exact h
  | @provided disk actor draw pair n' done provided =>
    have rows (r : KeyRecord) (hr : r ∈ n'.board.keys.rows) :
        r = k.recordOf actor ∨ r ∈ n.board.keys.rows := by
      rw [provided.keys, Table.mem_put] at hr
      exact hr.imp_right And.left
    have distinct (f : KeyRecord → String)
        (hold : ∀ r ∈ n.board.keys.rows, ∀ s ∈ n.board.keys.rows, f r = f s → r = s)
        (hnew : ∀ r ∈ n.board.keys.rows, f r ≠ f (k.recordOf actor)) :
        ∀ r ∈ n'.board.keys.rows, ∀ s ∈ n'.board.keys.rows, f r = f s → r = s := by
      intro r hr s hs he
      rcases rows r hr with rfl | hr <;> rcases rows s hs with rfl | hs
      · rfl
      · exact absurd he.symm (hnew s hs)
      · exact absurd he (hnew r hr)
      · exact hold r hr s hs he
    constructor
    case held =>
      intro r hr
      rcases rows r hr with rfl | hr
      · exact ⟨actor, pair, rfl, provided.held.1⟩
      · exact old r hr
    case owners => exact distinct _ h.owners fun r hr => (provided.fresh r hr).2
    case files =>
      refine distinct _ h.files fun r hr he => ?_
      obtain ⟨other, _, rfl, held⟩ := h.held r hr
      exact (held.of_provided provided).2.1 (publicFile_inj held.named provided.named he)

theorem Held.pair_eq {given : Rsa.PrivateKey} (h : Held k n actor pair) (h' : Held k n other given)
    (he : actor.name = other.name) : pair = given := by
  have same : pair.toPem = given.toPem := by
    have text := h.private_text
    rw [he, h'.private_text] at text
    exact (FileNode.text.inj (Option.some.inj text)).symm
  have decoded := Rsa.PrivateKey.ofPem?_toPem h.sound h.secret_lt
  rw [same, Rsa.PrivateKey.ofPem?_toPem h'.sound h'.secret_lt] at decoded
  exact (Option.some.inj decoded).symm

theorem Held.same_key {given : Rsa.PrivateKey} (h : Held k n actor pair) (h' : Held k n other given)
    (he : other.keyId = actor.keyId) : other.name = actor.name ∧ given = pair := by
  have row : k.recordOf other = k.recordOf actor :=
    Table.eq_of_key h'.row h.row (congrArg ([·]) he)
  have name := publicFile_inj h'.named h.named (congrArg KeyRecord.file row)
  exact ⟨name, h'.pair_eq h name⟩

theorem Held.other_file {given : Rsa.PrivateKey} (h : Held k n actor pair)
    (h' : Held k n other given) (hsound : Sound k n) (hne : other.keyId ≠ actor.keyId) :
    k.publicNames other.name ≠ k.publicNames actor.name := by
  intro hn
  have file := congrArg k.publicFile (publicNames_inj hn)
  exact hne (congrArg KeyRecord.id (hsound.files _ h'.row _ h.row file))

/-- The public half stays where it was written while nothing harms its file, and it is there again
after all of it was recovered. -/
theorem Held.intact_step (h : Held k n actor pair) (hsound : Sound k n) (hs : Step k n e n')
    {harm : Bool} (hi : harm = false → Intact k n actor pair)
    (hharm : k.harmedBy actor pair harm e = false) : Intact k n' actor pair := by
  cases hs with
  | provided done provided => exact (h.of_provided provided).2.2 (hi hharm)
  | aborted aborted => exact (h.of_aborted aborted).2 (hi hharm)
  | @rewritten disk other given result held rewritten =>
    rw [harmedBy] at hharm
    -- another document may have the id of this key, but the file is the same then
    by_cases hid : other.keyId = actor.keyId
    · obtain ⟨hname, rfl⟩ := h.same_key held hid
      by_cases hopen : disk.opening (k.publicFile actor.name) = none
      · rw [if_pos ⟨hid, hopen⟩, Option.isSome_eq_false_iff, Option.isNone_iff_eq_none] at hharm
        rw [← hname] at hopen hharm
        have text := rewritten.text hopen
        rwa [Disk.taken_eq_iff.2 hharm, hname] at text
      · rw [if_neg fun hc => hopen hc.2] at hharm
        rw [← hname] at hopen
        rw [rewritten.unopened hopen]
        exact hi hharm
    · rw [if_neg fun hc => hid hc.1] at hharm
      exact (hi hharm).touched rewritten.touched (h.other_file held hsound hid)
  | @unknown disk keyId hnone =>
    have hid : keyId ≠ actor.keyId := by
      rintro rfl
      rw [h.key] at hnone
      cases hnone
    rw [harmedBy, if_neg fun hc => hid hc.1] at hharm
    exact hi hharm
  | harmed held board touched =>
    obtain ⟨before, hid⟩ := Bool.or_eq_false_iff.1 hharm
    exact (hi before).touched touched (h.other_file held hsound (by simpa using hid))
  | spared => exact hi (Bool.or_eq_false_iff.1 hharm).1

/-- A run gave an actor a key, and something happened after. -/
def Given (k : KeyRing) (n : Node) (events : List KeyEvent) (actor : Actor) (pair : Rsa.PrivateKey)
    (after : List KeyEvent) : Prop :=
  ∃ before disk draw, events = before ++ .provision disk actor draw :: after ∧
    Rsa.PrivateKey.generate? k.bits draw.1 draw.2 = some pair ∧
    (k.provision disk actor draw (k.run n before)).1 = .ok (k.recordOf actor)

/-- What a recovery comes to: nothing but the file of the public half changes, and what the disk
takes of its text is there after. -/
structure Recovered (k : KeyRing) (m : Node) (disk : Disk) (actor : Actor) (pair : Rsa.PrivateKey)
    (result : Except Fault String × Node) : Prop where
  board : result.2.board = m.board
  touched : m.files.Touched result.2.files (k.publicNames actor.name)
  private_key : result.2.privateKey actor.id = .ok pair.toPem
  done_iff : result.1 = .ok (k.publicFile actor.name) ↔
    disk.opening (k.publicFile actor.name) = none ∧
      disk.cut? (k.publicFile actor.name) pair.public.toPem = none
  unopened : disk.opening (k.publicFile actor.name) ≠ none → result.2 = m
  public_key : disk.opening (k.publicFile actor.name) = none →
    result.2.publicKey actor.keyId = .ok (some ⟨actor.keyId, actor.id,
      disk.taken (k.publicFile actor.name) pair.public.toPem⟩)

/-- What a failed call comes to: no row changes and no file that was there, and whether there are
new files is decided by what failed and what the disk removes. -/
structure Failed (k : KeyRing) (m : Node) (disk : Disk) (actor : Actor) (draw : KeyDraw)
    (f : Fault) (m' : Node) : Prop where
  board : m'.board = m.board
  kept : ∀ e ∈ m.files.rows, e ∈ m'.files.rows
  new : ∀ e ∈ m'.files.rows, e ∈ m.files.rows ∨ e.node = .directory ∨
    ∃ pair, Rsa.PrivateKey.generate? k.bits draw.1 draw.2 = some pair ∧
      e ∈ [k.privateHalf disk actor.name pair, k.publicHalf disk actor.name pair]
  clean_iff : m.files.Grown m'.files ↔ k.spoils disk actor.name f = false
  cut : ∀ path, f.tasks = [.writingFile path] → ∃ text, (disk.cut? path text).isSome = true

theorem sound_run (h : Sound k n) (events : List KeyEvent) : Sound k (k.run n events) := by
  induction events generalizing n with
  | nil => exact h
  | cons e events ih => exact ih (h.of_step (h.step e))

theorem Held.run (h : Held k n actor pair) (hsound : Sound k n) {harm : Bool}
    (hi : harm = false → Intact k n actor pair) : Held k (k.run n after) actor pair ∧
      (after.foldl (k.harmedBy actor pair) harm = false →
        Intact k (k.run n after) actor pair) := by
  induction after generalizing n harm with
  | nil => exact ⟨h, hi⟩
  | cons e after ih =>
    have step := hsound.step e
    exact ih (h.step step) (hsound.of_step step) fun hharm => h.intact_step hsound step hi hharm

theorem Given.held (hn : Sound k n) (h : Given k n events actor pair after) :
    Held k (k.run n events) actor pair ∧
      (k.harmed actor pair after = false → Intact k (k.run n events) actor pair) := by
  obtain ⟨before, disk, draw, rfl, hdrawn, hdone⟩ := h
  have hsound := sound_run hn before
  have hrun : k.run n (before ++ .provision disk actor draw :: after) =
      k.run (k.provision disk actor draw (k.run n before)).2 after := by
    rw [run, List.foldl_append]
    rfl
  rw [hrun]
  rcases provision_outcome k disk actor draw (k.run n before) with
    ⟨pair', -, provided⟩ | ⟨f, hf, -⟩
  · cases hdrawn.symm.trans provided.drawn
    obtain ⟨held, intact⟩ := provided.held
    exact held.run (hsound.of_step (.provided hdone provided)) fun _ => intact
  · rw [hdone] at hf
    cases hf

theorem Given.concat (h : Given k n events actor pair after) (e : KeyEvent) :
    Given k n (events ++ [e]) actor pair (after ++ [e]) := by
  obtain ⟨before, disk, draw, rfl, hdrawn, hdone⟩ := h
  exact ⟨before, disk, draw, by rw [List.append_assoc]; rfl, hdrawn, hdone⟩

/-- Actors that were stored keep their names, and the others are stored with their keys, under the
names of the files of these. -/
structure Names (k : KeyRing) (n m : Node) : Prop where
  kept : ∀ id name, n.board.storedName id = some name → m.board.storedName id = some name
  stored : ∀ id, n.board.storedName id = none → ∀ file,
    (m.board.storedName id).map k.publicFile = some file ↔
      ∃ r ∈ m.board.keys.rows, r.owner = id ∧ r.file = file

theorem Names.of_provided {m m' : Node} (h : Names k n m)
    (hp : Provided k disk actor draw m m' pair) : Names k n m' := by
  have rows (r : KeyRecord) : r ∈ m'.board.keys.rows ↔
      r = k.recordOf actor ∨ r ∈ m.board.keys.rows := by
    rw [hp.keys, Table.mem_put]
    exact or_congr_right ⟨And.left, fun hr =>
      ⟨hr, fun hk => (hp.fresh r hr).1 (List.head_eq_of_cons_eq hk)⟩⟩
  constructor
  case kept =>
    intro id name hname
    rw [hp.names, h.kept id name hname]
    split <;> rfl
  case stored =>
    intro id hnone file
    have before := h.stored id hnone
    rw [hp.names]
    split
    next he =>
      subst he
      -- were it stored by now, it would have a key
      have unstored : m.board.storedName actor.id = none := by
        cases hs : m.board.storedName actor.id with
        | none => rfl
        | some name =>
          rw [hs] at before
          obtain ⟨r, hr, howner, -⟩ := (before (k.publicFile name)).1 rfl
          exact absurd howner (hp.fresh r hr).2
      rw [unstored]
      constructor
      · intro hfile
        exact ⟨_, (rows _).2 (.inl rfl), rfl, Option.some.inj hfile⟩
      · rintro ⟨r, hr, howner, rfl⟩
        rcases (rows r).1 hr with rfl | hr
        · rfl
        · exact absurd howner (hp.fresh r hr).2
    next hne =>
      rw [before]
      constructor
      · intro ⟨r, hr, hrest⟩
        exact ⟨r, (rows r).2 (.inr hr), hrest⟩
      · intro ⟨r, hr, howner, hfile⟩
        rcases (rows r).1 hr with rfl | hr
        · exact absurd howner hne
        · exact ⟨r, hr, howner, hfile⟩

theorem Names.of_step {m m' : Node} (h : Names k n m) (hs : Step k m e m') : Names k n m' := by
  have same (hboard : m'.board = m.board) : Names k n m' := by
    constructor <;> rw [hboard]
    · exact h.kept
    · exact h.stored
  cases hs with
  | provided done provided => exact h.of_provided provided
  | aborted aborted => exact same aborted.board
  | rewritten held rewritten => exact same rewritten.board
  | harmed held board => exact same board
  | unknown | spared => exact h

theorem Names.run {m : Node} (h : Names k n m) (hsound : Sound k m) (events : List KeyEvent) :
    Names k n (k.run m events) := by
  induction events generalizing m with
  | nil => exact h
  | cons e events ih =>
    have step := hsound.step e
    exact ih (h.of_step step) (hsound.of_step step)

theorem Held.recovered (h : Held k n actor pair) (hsound : Sound k n) (disk : Disk) :
    Recovered k n disk actor pair (n.recoverKey disk actor.keyId) := by
  have rewritten := h.recoverKey disk
  have step : Step k n (.recover disk actor.keyId) (n.recoverKey disk actor.keyId).2 :=
    .rewritten h rewritten
  have held' := h.step step
  refine ⟨rewritten.board, rewritten.touched, held'.privateKey (hsound.of_step step),
    rewritten.done_iff, rewritten.unopened, fun hopen => ?_⟩
  exact held'.publicKey (rewritten.text hopen)

theorem Aborted.failed {m m' : Node} (h : Aborted k disk actor draw f m m') :
    Failed k m disk actor draw f m' := by
  obtain ⟨made, left, hmade, gains, halves, clean⟩ := h.files
  have grown : m.files.Grown made := by
    rcases hmade with rfl | rfl
    · exact .refl m.files
    · exact Files.grown_makeDirectories m.files k.directory
  constructor
  case board => exact h.board
  case kept => exact fun e he => (gains.mem e).2 (.inl (grown.kept e he))
  case new =>
    intro e he
    rcases (gains.mem e).1 he with hmade | hleft
    · exact (grown.new e hmade).imp_right .inl
    · exact .inr (.inr (halves e hleft))
  case clean_iff => exact (grown.gains_iff gains).trans clean
  case cut => exact h.cut

section Specimen

end Specimen

end KeyRing
end Imageboard.Site
