import Imageboard.Board.Contacts
import Imageboard.Crypto.RsaKeyPair
import Imageboard.Signature.Request
import Imageboard.Site

namespace Imageboard

namespace Text

def replaceAll (old new : List Char) : Nat → List Char → List Char
  | 0, cs => cs
  | _, [] => []
  | fuel + 1, c :: cs =>
    match after? old (c :: cs) with
    | some rest => new ++ replaceAll old new fuel rest
    | none => c :: replaceAll old new fuel cs

end Text

def privateFileOf (publicFile : String) : String :=
  let name := ((Path.fileName? publicFile).getD "").toList
  let name := Text.replaceAll "public.pem".toList "private.pem".toList (name.length + 1) name
  Path.withFileName publicFile (String.ofList name)

def isActorName (name : String) : Bool :=
  name != "" && name.toList.all fun c => Text.isAlphanumeric c || c == '-' || c == '_'

namespace Board

def key (b : Board) (keyId : String) : Option KeyRecord :=
  b.keys.get? [keyId]

def keyOf (b : Board) (owner : String) : Option KeyRecord :=
  b.keys.rows.find? fun k => k.owner == owner

/-- Stores an actor unless it is there, and notes its key. -/
def storeResident (b : Board) (actor : Actor) (keyId : String) : Except Fault Board :=
  match b.residents.get? [actor.id] with
  | some r => .ok { b with residents := b.residents.put { r with keyId } }
  | none =>
    let actor := { actor with
      type := if actor.type = "" then "Group" else actor.type
      publicKey := none }
    match b.addResident { actor, keyId } with
    | some b => .ok b
    | none => .error ((Fault.broke .storage).doing (.storingActor actor.id))

def registerKey (b : Board) (k : KeyRecord) : Except Fault Board :=
  match if (b.keyOf k.owner).isSome then none else b.keys.insert? k with
  | some keys => .ok { b with keys }
  | none => .error ((Fault.broke .storage).doing (.registeringKey k.id))

end Board

namespace Site

structure KeyRing where
  directory : String
  bits : Nat

abbrev KeyDraw := Nat × Nat

namespace KeyRing

def ofConfig (config : Config) (env : Config.Environment) : Except Fault KeyRing := do
  return { directory := ← config.keyDirectory env, bits := config.keySize }

def admits (b : Board) (actor : Actor) : Except Fault Unit :=
  if !isActorName actor.name then .error (.refused (.invalidActorName actor.name))
  else if (b.keyOf actor.id).isSome then .error (.refused (.keyExists actor.id))
  else
    match b.residentNamed actor.name with
    | some r =>
      if r.actor.id = actor.id then .ok ()
      else .error (.refused (.nameTaken actor.name r.actor.id))
    | none => .ok ()

def publicFile (k : KeyRing) (name : String) : String :=
  Path.join k.directory (name ++ "-public.pem")

def privateFile (k : KeyRing) (name : String) : String :=
  Path.join k.directory (name ++ "-private.pem")

/-- Writes a text to a new file. One that takes only a part of the text stays there with it. -/
def writeNew (disk : Disk) (path text : String) (fs : Files) : Except Fault Unit × Files :=
  match fs.openNew disk path with
  | .error f => (fileStep (.creatingFile path) (.error f), fs)
  | .ok names =>
    let (result, fs) := fs.fill disk path text names
    (fileStep (.writingFile path) result, fs)

/-- Takes files away that were written for nothing, those that can be taken away. -/
def discard (disk : Disk) (paths : List String) (fs : Files) : Files :=
  (fs.removeAll (paths.filter fun p => (disk.removing p).isNone)).1

/-- Writes both halves of a key. If the public one cannot be written, the private one goes again. -/
def writePair (k : KeyRing) (disk : Disk) (name : String) (pair : Rsa.PrivateKey) (fs : Files) :
    Except Fault Unit × Files :=
  match writeNew disk (k.privateFile name) pair.toPem fs with
  | (.error f, fs) => (.error f, fs)
  | (.ok (), fs) =>
    match writeNew disk (k.publicFile name) pair.public.toPem fs with
    | (.error f, fs) => (.error f, discard disk [k.privateFile name] fs)
    | (.ok (), fs) => (.ok (), fs)

def recordOf (k : KeyRing) (actor : Actor) : KeyRecord :=
  { id := actor.keyId, owner := actor.id, file := k.publicFile actor.name }

/-- Gives an actor its key. A failure leaves no row behind. -/
def provision (k : KeyRing) (disk : Disk) (actor : Actor) (draw : KeyDraw) (n : Node) :
    Except Fault KeyRecord × Node :=
  match admits n.board actor with
  | .error f => (.error f, n)
  | .ok () =>
    match n.files.makeDirectories k.directory with
    | (.error f, files) =>
      (.error ((Fault.broke (.file f)).doing (.creatingKeyDirectory k.directory)), { n with files })
    | (.ok (), files) =>
      match Rsa.PrivateKey.generate? k.bits draw.1 draw.2 with
      | none => (.error ((Fault.broke .keySize).doing .generatingKey), { n with files })
      | some pair =>
        match k.writePair disk actor.name pair files with
        | (.error f, files) => (.error f, { n with files })
        | (.ok (), files) =>
          let record := k.recordOf actor
          match (n.board.storeResident actor record.id).bind (·.registerKey record) with
          | .ok board => (.ok record, { board, files })
          | .error f =>
            let files := discard disk [k.privateFile actor.name, record.file] files
            (.error f, { n with files })

end KeyRing
end Site

namespace Node

def publicKey (n : Node) (keyId : String) : Except Fault (Option PublicKey) :=
  match n.board.key keyId with
  | none => .ok none
  | some k => do
    let pem ← fileStep (.readingPublicKey k.file) (n.files.read k.file)
    return some { id := k.id, owner := k.owner, pem }

def privateKey (n : Node) (actor : String) : Except Fault String :=
  match n.board.keyOf actor with
  | none => .error (.refused (.noKeyOf actor))
  | some k =>
    let path := privateFileOf k.file
    fileStep (.readingPrivateKey path) (n.files.read path)

def pairBeside (n : Node) (publicFile : String) : Except Fault Rsa.PrivateKey := do
  let path := privateFileOf publicFile
  if !n.files.present path then .error (.refused (.privateKeyMissing path))
  else
    let pem ← fileStep (.readingPrivateKey path) (n.files.read path)
    privateKeyOf pem

def recoverKey (n : Node) (disk : Disk) (keyId : String) : Except Fault String × Node :=
  match n.board.key keyId with
  | none => (.error (.refused (.noKeyNamed keyId)), n)
  | some k =>
    match n.pairBeside k.file with
    | .error f => (.error f, n)
    | .ok pair =>
      let (result, files) := n.files.write disk k.file pair.public.toPem
      ((fileStep (.writingFile k.file) result).map fun () => k.file, { n with files })

def actor (n : Node) (id : String) : Except Fault (Option Actor) :=
  match n.board.residents.get? [id] with
  | none => .ok none
  | some r => do
    return some { r.actor with publicKey := ← n.publicKey r.actor.keyId }

def actorNamed (n : Node) (name : String) : Except Fault (Option Actor) :=
  match n.board.residentNamed name with
  | none => .ok none
  | some r => n.actor r.actor.id

end Node
end Imageboard
