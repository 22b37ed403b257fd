import Imageboard.Federation.Outbox
import Imageboard.Lifecycle.Retype

namespace Imageboard.Admin

open Text

def usage : String :=
  "usage: chanfed_admin <config.json> <command> [args]\n\ncommands:\n" ++
  "  provision <name> [summary]\n" ++
  "  recover-key <name>\n" ++
  "  tripcode <input>\n" ++
  "  sticky <actor-id> <id>\n" ++
  "  lock <actor-id> <id>\n" ++
  "  tombstone <id>\n" ++
  "  tombstone-thread <id>\n" ++
  "  delete <id>\n" ++
  "  delete-all <id>"

/-- What a command finds: the variables of its environment, the time, the other nodes, the disk, and
what it may draw. -/
structure Session where
  env : Config.Environment
  time : Time
  web : Web
  disk : Disk := {}
  keyDraw : Site.KeyDraw := (0, 0)
  draws : Draws := {}

/-- An argument without the blanks around it; a blank one is missing. -/
def argument (args : List String) (i : Nat) : Except Fault String :=
  match args[i]? with
  | some a => if isBlankText a then .error (.refused (.usage usage)) else .ok (trim a)
  | none => .error (.refused (.usage usage))

def loadConfig (path : String) (files : Files) : Except Fault Config := do
  let text ← fileStep (.readingConfig path) (files.read path)
  Config.ofText text

def line (name value : String) : String :=
  name ++ "=" ++ value ++ "\n"

def switchText : FlagSwitch → String
  | .set => "Set"
  | .cleared => "Cleared"
  | .notRoot => "NotRoot"

def reportText (r : CascadeReport) : String :=
  "CascadeReport \x7b rows: " ++ toString r.rows ++ ", files_removed: " ++
    toString r.filesRemoved ++ " \x7d\n"

def Session.surroundings (s : Session) : Surroundings :=
  { web := s.web
    graph := .federated s.web
    sender := Delivery.overWeb s.web s.time.now }

def execute (session : Session) (site : Site) (command : String) (args : List String) (n : Node) :
    StateM Log (Except Fault String × Node) := do
  let now := session.time.now
  let argument := argument args
  let settled (r : Except Fault (String × Node)) : Except Fault String × Node :=
    match r with
    | .ok (out, n) => (.ok out, n)
    | .error f => (.error f, n)
  let onBoard (r : Board × FlagSwitch) : String × Node :=
    (switchText r.2 ++ "\n", { n with board := r.1 })
  let onNode (r : Node × CascadeReport) : String × Node := (reportText r.2, r.1)
  match command with
  | "provision" =>
    let prepared : Except Fault (Site.KeyRing × Actor) := do
      let name ← argument 2
      let ring ← Site.KeyRing.ofConfig site.config session.env
      return (ring, .board site.config.origin name (args[3]?.getD ""))
    match prepared with
    | .error f => return (.error f, n)
    | .ok (ring, actor) =>
      let (record, n) := ring.provision session.disk actor session.keyDraw n
      return (record.map fun k =>
        line "actor" actor.id ++ line "key_id" k.id ++ line "public_key" k.file, n)
  | "recover-key" =>
    let found : Except Fault Actor := do
      let name ← argument 2
      match ← n.actorNamed name with
      | none => throw (.refused (.noActorNamed name))
      | some actor => return actor
    match found with
    | .error f => return (.error f, n)
    | .ok actor =>
      let (path, n) := n.recoverKey session.disk actor.keyId
      return (path.map (line "public_key"), n)
  | "sticky" => return settled do
      return onBoard (n.board.switchFlag .sticky (← argument 2) (← argument 3))
  | "lock" => return settled do
      return onBoard (n.board.switchFlag .locked (← argument 2) (← argument 3))
  | "tombstone" => return settled do return onNode (site.tombstone now (← argument 2) n)
  | "tombstone-thread" => return settled do
      return onNode (site.tombstoneThread now (← argument 2) n)
  | "delete" => return settled do return onNode (site.delete (← argument 2) n)
  | "delete-all" =>
    match argument 2 with
    | .error f => return (.error f, n)
    | .ok id =>
      match ← site.deleteAll session.surroundings id n session.draws with
      | (.error f, _) => return (.error f, n)
      | (.ok (report, n), _) => return (.ok (reportText report), n)
  | other => return (.error (.refused (.unknownCommand other usage)), n)

def run (session : Session) (args : List String) (files : Files) :
    StateM Log (Except Fault String × Files) := do
  let opened : Except Fault (String × Config) := do
    let path ← argument args 0
    let command ← argument args 1
    return (command, ← (loadConfig path files).doing (.loadingConfig path))
  match opened with
  | .error f => return (.error f, files)
  | .ok (command, config) =>
    if command = "tripcode" then
      let out : Except Fault String := do
        let t ← Tripcode.ofName (← argument args 2) config.tripcodeSalt
        return line "name" t.name ++ line "trip" t.trip
      return (out, files)
    else
      match Site.start config session.env (fun _ => false) files with
      | .error f => return (.error f, files)
      | .ok (site, n) =>
        let (out, n) ← execute session site command args n
        match n.files.store (Site.tableFile site.boardFile) n.board.render with
        | .ok files => return (out, files)
        | .error _ => return (out, n.files)

/-- The paths that a command line leads to, as far as the files that are known tell. -/
def paths (env : Config.Environment) (args : List String) (files : Files) : List String :=
  match argument args 0 with
  | .error _ => []
  | .ok path =>
    let further : Except Fault (List String) := do
      let config ← loadConfig path files
      let (site, n) ← Site.start config env (fun _ => false) files
      let ring ← Site.KeyRing.ofConfig config env
      let name := trim (args[2]?.getD "")
      let media := (n.board.authored.rows ++ n.board.replicas.rows).filterMap fun r =>
        site.fileOf? r.href
      let keys := n.board.keys.rows.flatMap fun k => [k.file, privateFileOf k.file]
      return Site.tableFile site.boardFile :: site.boardFile :: ring.publicFile name ::
        ring.privateFile name :: keys ++ media
    path :: further.toOption.getD []

def errorText (f : Fault) : String :=
  "Error: " ++ f.texts.headD "a part of the board failed"

end Imageboard.Admin
