import Imageboard.Board.Tables
import Imageboard.Config
import Imageboard.Files

namespace Imageboard

structure Site where
  config : Config
  boardFile : String
  filesRoot : String
  blocks : String → Bool := fun _ => false

structure Node where
  board : Board := {}
  files : Files := {}

namespace Site

/-- The file that holds the tables of a board: dots in the board's path are taken at their word, and
a slash at its end counts for nothing. -/
def tableFile (path : String) : String :=
  Path.spell (Path.names path)

def maxTablePath : Nat := 504

/-- The most bytes of the name of a table file. Its journal has a name that is longer by 8. -/
def maxTableName : Nat := Files.maxName - 8

/-- The text of a table file, which a new board starts empty; none if there can be no such file. -/
def tableText? (file : String) (files : Files) : Option (String × Files) :=
  if file.utf8ByteSize > maxTablePath then none
  else
    match files.find? file with
    | .ok (.text text) => some (text, files)
    | .ok .directory => none
    | .error _ => (files.store file "").toOption.map fun files => ("", files)

def openBoard (path : String) (files : Files) : Except Fault (Board × Files) := do
  let (made, files) := match Path.parent? path with
    | none => (.ok (), files)
    | some dir =>
      let (made, files) := files.makeDirectories dir
      (fileStep (.creatingBoardDirectory dir) made, files)
  made
  let file := tableFile path
  let (text, files) ← ((tableText? file files).orBreak .storage).doing (.openingTables path)
  let name := (Path.fileName? file).getD ""
  let board := if name.utf8ByteSize > maxTableName then none else Board.parse? text
  return (← (board.orBreak .storage).doing .layingOutTables, files)

def start (config : Config) (env : Config.Environment) (blocks : String → Bool) (files : Files) :
    Except Fault (Site × Node) := do
  config.validate
  let boardFile ← config.boardFile env
  let (board, files) ← (openBoard boardFile files).doing (.openingBoard boardFile)
  let filesRoot ← config.filesDirectory env
  return ({ config, boardFile, filesRoot, blocks }, { board, files })

/-- The file behind the address of a piece of media that this site serves. Other addresses and the
placeholder have none. -/
def fileOf? (s : Site) (href : String) : Option String := do
  let path ← Text.rest? "/" (← Text.rest? s.config.origin href)
  if path = "" ∨ path = s.config.placeholder then none
  else if Path.isPlain path then some (Path.join s.filesRoot path)
  else none

end Site
end Imageboard
