import Imageboard.Admin
import Std.Time.DateTime.Timestamp

namespace Imageboard

/-- What stands at a path. A file that is not text counts as an empty one. -/
def look (path : String) : IO (Option FileNode) := do
  match ← (IO.FS.readBinFile path).toBaseIO with
  | .ok bytes => return some (.text ((String.fromUTF8? bytes).getD ""))
  | .error (.inappropriateType none _ _) => return some .directory
  | .error _ => return none

def learn (files : Files) (path : String) : IO Files := do
  let (files, _) ← (Path.steps path).foldlM
    (fun (files, names) s => do
      let names := Path.step names s
      if names.isEmpty || files.contains names then return (files, names)
      else
        match ← look (Path.spell names) with
        | some node => return (files.put ⟨names, node⟩, names)
        | none => return (files, names))
    (files, Path.start path)
  return files

/-- The picture that a command line needs. The configuration leads to the board, and the board to
keys and media. -/
def gather (env : Config.Environment) (args : List String) : IO Files :=
  (List.range 3).foldlM (fun files _ => (Admin.paths env args files).foldlM learn files) {}

def writeBack (before after : Files) : IO Unit := do
  for e in after.rows do
    if before.get? e.path != some e then
      match e.node with
      | .directory => IO.FS.createDirAll (Path.spell e.path)
      | .text text => IO.FS.writeFile (Path.spell e.path) text
  for e in before.rows do
    if !after.contains e.path then IO.FS.removeFile (Path.spell e.path)

def randomBytes (n : USize) : IO Bytes := do
  return (← IO.getRandomBytes n).toList

def newSession (env : Config.Environment) : IO Admin.Session := do
  let ms := (← Std.Time.Timestamp.now).toMillisecondsSinceUnixEpoch.toInt
  return {
    env
    time := { now := (Instant.ofMillis? ms).getD .epoch }
    web := fun _ _ => .dropped
    keyDraw := (Text.toNumber (← randomBytes 256), Text.toNumber (← randomBytes 256))
    draws := { activities := [← randomBytes 16] } }

def environment : IO Config.Environment := do
  let names := ["CHANFED_DATA_DIR", "XDG_DATA_HOME", "HOME"]
  let values ← names.mapM fun name => do return (name, ← IO.getEnv name)
  return fun name => (values.lookup name).join

end Imageboard

open Imageboard

def main (args : List String) : IO UInt32 := do
  let env ← environment
  let session ← newSession env
  let before ← gather env args
  let ((out, after), _) := (Admin.run session args before).run []
  writeBack before after
  match out with
  | .ok text =>
    IO.print text
    return 0
  | .error fault =>
    IO.eprintln (Admin.errorText fault)
    return 1
