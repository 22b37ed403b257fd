import Imageboard.Fault
import Imageboard.Json.Parser
import Imageboard.Json.Record
import Imageboard.Path
import Imageboard.Wire.Decode

namespace Imageboard

def defaultPlaceholder : String := "static/notfound.png"

structure Config where
  domain : String := "http://localhost:3000"
  dataDir : Option String := none
  boardPath : Option String := none
  keyDir : Option String := none
  filesRoot : Option String := none
  placeholderPath : Option String := some defaultPlaceholder
  /-- Without it there are no secure tripcodes. -/
  tripcodeSalt : Option String := none
  keyBits : Option UInt64 := some 2048
  httpTimeout : Option UInt64 := some 15
  maxDateSkew : Option UInt64 := some 43200
deriving DecidableEq, Repr

namespace Config

open Json (Value)
open Text

def fields : List String :=
  ["domain", "data_dir", "db_path", "key_dir", "files_root", "placeholder_path", "tripcode_salt",
   "key_bits", "http_timeout_secs", "max_date_skew_secs"]

/-- A field that was not given keeps its default; `null` stands for none. -/
def decode? (v : Value) : Option Config := do
  let ms ← v.members? fields
  let base : Config := {}
  let text (field : String) (missing : Option String) :=
    ms.read field missing (Value.nullable? Value.text?)
  let word (field : String) (missing : Option UInt64) :=
    ms.read field missing (Value.nullable? Value.word64?)
  return {
    domain := ← ms.read "domain" base.domain Value.text?
    dataDir := ← text "data_dir" base.dataDir
    boardPath := ← text "db_path" base.boardPath
    keyDir := ← text "key_dir" base.keyDir
    filesRoot := ← text "files_root" base.filesRoot
    placeholderPath := ← text "placeholder_path" base.placeholderPath
    tripcodeSalt := ← text "tripcode_salt" base.tripcodeSalt
    keyBits := ← word "key_bits" base.keyBits
    httpTimeout := ← word "http_timeout_secs" base.httpTimeout
    maxDateSkew := ← word "max_date_skew_secs" base.maxDateSkew }

def minKeyBits : UInt64 := 1024

def validate (c : Config) : Except Fault Unit :=
  let domain := trim c.domain
  if startsWith "http://" domain || startsWith "https://" domain then
    match c.keyBits with
    | some bits => if bits < minKeyBits then .error (.refused (.keyTooShort bits.toNat)) else .ok ()
    | none => .ok ()
  else .error (.refused (.domainNotWeb domain))

def ofText (text : String) : Except Fault Config := do
  let config ← (((Json.parse? text).bind decode?).orBreak .json).doing .parsingConfig
  config.validate
  return config

/-- The domain without blanks around it and slashes at its end. -/
def origin (c : Config) : String :=
  trimEndOf '/' (trim c.domain)

def given? (setting : Option String) : Option String :=
  match setting with
  | none => none
  | some s => if trim s = "" then none else some (trim s)

abbrev Environment := String → Option String

def defaultDataDir (env : Environment) : Except Fault String :=
  match env "CHANFED_DATA_DIR" with
  | some dir => .ok dir
  | none =>
    match (env "XDG_DATA_HOME").filter Path.isAbsolute with
    | some dir => .ok (Path.join dir "chanfed")
    | none =>
      match (env "HOME").filter (· != "") with
      | some home => .ok (Path.join home ".local/share/chanfed")
      | none => .error (.refused .noDataDirectory)

def dataDirectory (c : Config) (env : Environment) : Except Fault String :=
  match given? c.dataDir with
  | some dir => .ok dir
  | none => defaultDataDir env

def resolve (c : Config) (env : Environment) (setting : Option String) (default : String) :
    Except Fault String := do
  match given? setting with
  | some p => if Path.isAbsolute p then return p else return Path.join (← c.dataDirectory env) p
  | none => return Path.join (← c.dataDirectory env) default

def boardFile (c : Config) (env : Environment) : Except Fault String :=
  c.resolve env c.boardPath "chanfed.sqlite"

def keyDirectory (c : Config) (env : Environment) : Except Fault String :=
  c.resolve env c.keyDir "pem/board"

def filesDirectory (c : Config) (env : Environment) : Except Fault String :=
  match given? c.filesRoot with
  | some dir => .ok dir
  | none => c.dataDirectory env

def placeholder (c : Config) : String :=
  match c.placeholderPath with
  | none => defaultPlaceholder
  | some p =>
    let p := trimStartOf '/' (trim p)
    if p = "" then defaultPlaceholder else p

def placeholderHref (c : Config) : String :=
  c.origin ++ "/" ++ c.placeholder

def keySize (c : Config) : Nat :=
  (c.keyBits.getD 2048).toNat

def timeout (c : Config) : Nat :=
  max 1 (c.httpTimeout.getD 15).toNat

def dateSkew (c : Config) : Nat :=
  (c.maxDateSkew.getD 43200).toNat

end Config
end Imageboard
