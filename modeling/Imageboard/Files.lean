import Imageboard.Board.Table
import Imageboard.Fault
import Imageboard.Path

namespace Imageboard

inductive FileNode where
  | directory
  | text (content : String)
deriving DecidableEq, Repr

structure FileEntry where
  path : List String
  node : FileNode
deriving DecidableEq, Repr

instance : Keyed FileEntry := ⟨FileEntry.path⟩

abbrev Files := Table FileEntry

/-- What goes wrong on a disk, by the path of a file. -/
structure Disk where
  opening : String → Option FileFault := fun _ => none
  /-- How many characters are taken at most, and why there are no more. -/
  room : String → Option (Nat × FileFault) := fun _ => none
  removing : String → Option FileFault := fun _ => none

def Disk.cut? (disk : Disk) (p text : String) : Option (String × FileFault) := do
  let (taken, f) ← disk.room p
  if text.length ≤ taken then none else some (String.ofList (text.toList.take taken), f)

inductive Spot where
  /-- A directory that is there, reached by dots or as the root. -/
  | directory
  /-- A last name in a directory that is there, given by all names; `slashed` if a slash follows. -/
  | name (names : List String) (slashed : Bool)
deriving DecidableEq, Repr

namespace Files

def maxName : Nat := 255

def maxPath : Nat := 4095

/-- What stands at the end of some names; the place of the program is a directory. -/
def node? (fs : Files) (names : List String) : Option FileNode :=
  if names.isEmpty then some .directory else (fs.get? names).map FileEntry.node

def follow (fs : Files) (slashed : Bool) (here : List String) :
    List String → Except FileFault Spot
  | [] => .ok .directory
  | s :: rest =>
    let next := Path.step here s
    if s = "." ∨ s = ".." then follow fs slashed next rest
    else if s.utf8ByteSize > maxName then .error .nameTooLong
    else if rest.isEmpty then .ok (.name next slashed)
    else
      match fs.node? next with
      | none => .error .notFound
      | some (.text _) => .error .notDirectory
      | some .directory => follow fs slashed next rest

def locate (fs : Files) (p : String) : Except FileFault Spot :=
  if p.toList.contains '\x00' then .error .badName
  else if p = "" then .error .notFound
  else if p.utf8ByteSize > maxPath then .error .nameTooLong
  else fs.follow (p.toList.getLast? == some '/') (Path.start p) (Path.steps p)

def find? (fs : Files) (p : String) : Except FileFault FileNode := do
  match ← fs.locate p with
  | .directory => return .directory
  | .name names slashed =>
    match fs.node? names with
    | none => throw .notFound
    | some (.text t) => if slashed then throw .notDirectory else return .text t
    | some .directory => return .directory

def present (fs : Files) (p : String) : Bool :=
  match fs.find? p with
  | .ok _ => true
  | .error _ => false

def isDirectory (fs : Files) (p : String) : Bool :=
  match fs.find? p with
  | .ok .directory => true
  | _ => false

def read (fs : Files) (p : String) : Except FileFault String := do
  match ← fs.find? p with
  | .directory => throw .isDirectory
  | .text t => return t

def openOver (fs : Files) (disk : Disk) (p : String) : Except FileFault (List String) := do
  match disk.opening p with
  | some f => throw f
  | none =>
    match ← fs.locate p with
    | .directory => throw .isDirectory
    | .name names slashed =>
      if slashed || fs.node? names == some .directory then throw .isDirectory else return names

def openNew (fs : Files) (disk : Disk) (p : String) : Except FileFault (List String) := do
  match disk.opening p with
  | some f => throw f
  | none =>
    match ← fs.locate p with
    | .directory => throw .alreadyExists
    | .name names slashed =>
      if slashed then throw .isDirectory
      else if (fs.node? names).isSome then throw .alreadyExists
      else return names

/-- Writes a text to an open file. What was there is gone, and what the disk took of the text stays,
also where it did not take all. -/
def fill (fs : Files) (disk : Disk) (p text : String) (names : List String) :
    Except FileFault Unit × Files :=
  match disk.cut? p text with
  | none => (.ok (), fs.put ⟨names, .text text⟩)
  | some (part, f) => (.error f, fs.put ⟨names, .text part⟩)

def write (fs : Files) (disk : Disk) (p text : String) : Except FileFault Unit × Files :=
  match fs.openOver disk p with
  | .error f => (.error f, fs)
  | .ok names => fs.fill disk p text names

/-- Puts a text in the place of a file, all of it or nothing. -/
def store (fs : Files) (p text : String) : Except FileFault Files := do
  return fs.put ⟨← fs.openOver {} p, .text text⟩

def remove (fs : Files) (p : String) : Except FileFault Files := do
  match ← fs.locate p with
  | .directory => throw .isDirectory
  | .name names slashed =>
    match fs.node? names with
    | none => throw .notFound
    | some .directory => throw .isDirectory
    | some (.text _) =>
      if slashed then throw .notDirectory else return fs.filter fun e => e.path != names

def removeAll (fs : Files) (paths : List String) : Files × Nat :=
  paths.foldl
    (fun (fs, n) p =>
      match fs.remove p with
      | .ok fs => (fs, n + 1)
      | .error _ => (fs, n))
    (fs, 0)

def makeDirectory (fs : Files) (p : String) : Except FileFault Files := do
  match ← fs.locate p with
  | .directory => throw .alreadyExists
  | .name names _ =>
    if (fs.node? names).isSome then throw .alreadyExists
    else return fs.put ⟨names, .directory⟩

/-- What becomes of a directory that could not be made: it may be there. -/
def made (fs : Files) (p : String) (f : FileFault) : Except FileFault Unit :=
  if fs.isDirectory p then .ok () else .error f

def makeUpTo (fs : Files) : List String → Except FileFault Unit × Files
  | [] => (.ok (), fs)
  | p :: above =>
    match fs.makeDirectory p with
    | .ok fs => (.ok (), fs)
    | .error .notFound =>
      match fs.makeUpTo above with
      | (.error f, fs) => (.error f, fs)
      | (.ok (), fs) =>
        match fs.makeDirectory p with
        | .ok fs => (.ok (), fs)
        | .error f => (fs.made p f, fs)
    | .error f => (fs.made p f, fs)

/-- Makes a directory unless it is there, and before it those above it that are missing. What was
made stays when a later one fails. -/
def makeDirectories (fs : Files) (p : String) : Except FileFault Unit × Files :=
  fs.makeUpTo (Path.ancestors p)

end Files

def fileStep (task : Task) : Except FileFault α → Except Fault α
  | .ok a => .ok a
  | .error f => .error ((Fault.broke (.file f)).doing task)

end Imageboard
