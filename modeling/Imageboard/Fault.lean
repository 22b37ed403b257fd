import Imageboard.Text.Quoted
import Imageboard.Text.Blank

namespace Imageboard

inductive FileFault where
  | notFound
  | alreadyExists
  | isDirectory
  | notDirectory
  | nameTooLong
  | badName
  | device (word : String)
deriving DecidableEq, Repr

/-- A part that the board stands on gave up. Its own words are not passed on. -/
inductive Breakdown where
  | json
  | storage
  | base64
  | date
  | salt
  | uri
  | method
  /-- A text cannot be the name or the value of a header, or a value is not plain ASCII. -/
  | header
  | keyFile
  | signature
  | keySize
  | connection
  | file (fault : FileFault)
deriving DecidableEq, Repr

inductive Refusal where
  | noTripcodeSalt
  | domainNotWeb (domain : String)
  | keyTooShort (bits : Nat)
  | noDataDirectory
  | noKeyId
  | noSignature
  | unknownAlgorithm (name : String)
  | noPublicKey
  | otherKey (actor published wanted : String)
  | headerMissing (name : String)
  | digestUnreadable
  | digestAlgorithm (name : String)
  | digestMismatch
  | noDate
  | dateSkew (seconds : Nat)
  | invalidActorName (name : String)
  | keyExists (actor : String)
  | nameTaken (name holder : String)
  | noKeyOf (actor : String)
  | noKeyNamed (keyId : String)
  | privateKeyMissing (path : String)
  | noCollection (actor relation : String)
  | createWithoutActor
  | createAttachments (count : Nat)
  | createNotPost (type : String)
  | retypeNotPost (type : String)
  | noFreshId
  | noSignatureHeader
  | actorMismatch (actor signer : String)
  | createWithoutObject (activity : String)
  | followWithoutActor
  | notHosted (actor : String)
  | notProvisioned (actor : String)
  | nothingToDelete (id : String)
  | noInbox
  | inboxRefused (inbox status text : String)
  | activityWithoutActor
  | usage (text : String)
  | unknownCommand (name help : String)
  | noActorNamed (name : String)
  /-- What a collaborator outside the board reports in its own words. -/
  | reported (text : String)
deriving DecidableEq, Repr

inductive Task where
  | hashing (salt : String)
  | parsingConfig
  | readingConfig (path : String)
  | loadingConfig (path : String)
  | openingBoard (path : String)
  | creatingBoardDirectory (path : String)
  | openingTables (path : String)
  | layingOutTables
  | decodingSignature
  | namingHeader (name : String)
  | readingHeader (name : String)
  | readingDigest
  | decodingDigest
  | readingDate
  | parsingDate
  | parsingPublicKey
  | parsingPrivateKey
  | verifyingSignature
  | settingHeader (name : String)
  | fetchingActor (url : String)
  | acceptingActor (url : String)
  | parsingActor (url : String)
  | fetching (url : String)
  | accepting (url : String)
  | parsingJson (url : String)
  | readingActor (id : String)
  | followersOf (actor : String)
  | followingOf (actor : String)
  | creatingKeyDirectory (path : String)
  | generatingKey
  | creatingFile (path : String)
  | writingFile (path : String)
  | registeringKey (keyId : String)
  | storingActor (id : String)
  | readingPublicKey (path : String)
  | readingPrivateKey (path : String)
  | insertingLocal (id : String)
  | checkingDigest
  | checkingDate
  | readingSignature
  | checkingSignature
  | checkingSignedHeaders
  | resolvingKey (keyId : String)
  | verifyingFor (keyId : String)
  | parsingActivity
  | parsingInbox
  | posting (url : String)
deriving DecidableEq, Repr

inductive Cause where
  | refused (why : Refusal)
  | broke (what : Breakdown)
deriving DecidableEq, Repr

/-- A cause and what was being done, outermost first. -/
structure Fault where
  tasks : List Task := []
  cause : Cause
deriving DecidableEq, Repr

open Text (quote)

def Refusal.message : Refusal → String
  | noTripcodeSalt => "secure tripcode requested but no tripcode_salt is configured"
  | domainNotWeb domain => "domain must be an http(s) url, got " ++ quote domain
  | keyTooShort bits => "key_bits too small: " ++ toString bits
  | noDataDirectory => "unable to determine platform data dir"
  | noKeyId => "Signature missing keyId"
  | noSignature => "Signature missing signature"
  | unknownAlgorithm name => "unsupported signature algorithm: " ++ name
  | noPublicKey => "actor missing publicKey"
  | otherKey actor published wanted =>
    "actor " ++ actor ++ " publishes " ++ published ++ ", not " ++ wanted
  | headerMissing name => "missing signed header: " ++ name
  | digestUnreadable => "invalid Digest header"
  | digestAlgorithm name => "unsupported digest alg: " ++ name
  | digestMismatch => "digest mismatch"
  | noDate => "missing Date header"
  | dateSkew seconds => "Date skew too large: " ++ toString seconds ++ "s"
  | invalidActorName name => "invalid actor name: " ++ quote name
  | keyExists actor => "already storing public key for actor " ++ actor
  | nameTaken name holder => "actor name " ++ quote name ++ " already belongs to " ++ holder
  | noKeyOf actor => "no key registered for actor " ++ actor
  | noKeyNamed keyId => "no key registered as " ++ keyId
  | privateKeyMissing path => "private key missing: " ++ path
  | noCollection actor relation =>
    "actor " ++ actor ++ " has no " ++ relation ++ " collection"
  | createWithoutActor => "create: object has no actor"
  | createAttachments count =>
    "create: at most one attachment per post, got " ++ toString count
  | createNotPost type => "create: " ++ type ++ " is not a post type"
  | retypeNotPost type => "set_thread_type: " ++ type ++ " is not a post type"
  | noFreshId => "no fresh id was drawn"
  | noSignatureHeader => "missing Signature header"
  | actorMismatch actor signer =>
    "activity actor " ++ actor ++ " does not match signer " ++ signer
  | createWithoutObject activity => "Create " ++ activity ++ " without embedded object"
  | followWithoutActor => "follow activity without actor"
  | notHosted actor => actor ++ " is not hosted here"
  | notProvisioned actor => "publish: " ++ actor ++ " is not provisioned here"
  | nothingToDelete id => "delete_all: no object " ++ id
  | noInbox => "actor missing inbox"
  | inboxRefused inbox status text =>
    "inbox " ++ inbox ++ " refused activity: " ++ status ++ " " ++ text
  | activityWithoutActor => "activity has no actor"
  | usage text => text
  | unknownCommand name help => "unknown command " ++ quote name ++ "\n" ++ help
  | noActorNamed name => "no local actor named " ++ name
  | reported text => text

def Task.text : Task → String
  | hashing salt => "md5-crypt with salt " ++ quote salt
  | parsingConfig => "parse config json"
  | readingConfig path => "read config: " ++ path
  | loadingConfig path => "load config " ++ path
  | openingBoard path => "open board db " ++ path
  | creatingBoardDirectory path => "create db dir: " ++ path
  | openingTables path => "open db: " ++ path
  | layingOutTables => "init db schema"
  | decodingSignature => "decode signature"
  | namingHeader name => "bad signed header name: " ++ name
  | readingHeader name => "invalid header value for " ++ name
  | readingDigest => "Digest header not utf8"
  | decodingDigest => "decode digest"
  | readingDate => "Date header not utf8"
  | parsingDate => "parse Date header"
  | parsingPublicKey => "parse public key pem"
  | parsingPrivateKey => "parse private key pem"
  | verifyingSignature => "signature verify failed"
  | settingHeader name => "set " ++ name
  | fetchingActor url => "fetch actor: " ++ url
  | acceptingActor url => "actor not ok: " ++ url
  | parsingActor url => "parse actor json from " ++ url
  | fetching url => "fetch " ++ url
  | accepting url => "not ok: " ++ url
  | parsingJson url => "parse json from " ++ url
  | readingActor id => "parse actor " ++ id
  | followersOf actor => "followers of " ++ actor
  | followingOf actor => "following of " ++ actor
  | creatingKeyDirectory path => "create key dir: " ++ path
  | generatingKey => "generate rsa key"
  | creatingFile path => "create " ++ path
  | writingFile path => "write " ++ path
  | registeringKey keyId => "register key " ++ keyId
  | storingActor id => "store actor " ++ id
  | readingPublicKey path => "read public key " ++ path
  | readingPrivateKey path => "read private key " ++ path
  | insertingLocal id => "insert local object " ++ id
  | checkingDigest => "digest invalid"
  | checkingDate => "date invalid"
  | readingSignature => "Signature header not utf8"
  | checkingSignature => "bad Signature"
  | checkingSignedHeaders => "bad signed headers"
  | resolvingKey keyId => "key resolve failed: " ++ keyId
  | verifyingFor keyId => "signature invalid for " ++ keyId
  | parsingActivity => "parse activity json"
  | parsingInbox => "parse inbox url"
  | posting url => "post to " ++ url

namespace Fault

def refused (why : Refusal) : Fault :=
  { cause := .refused why }

def broke (what : Breakdown) : Fault :=
  { cause := .broke what }

def doing (task : Task) (f : Fault) : Fault :=
  { f with tasks := task :: f.tasks }

def texts (f : Fault) : List String :=
  f.tasks.map Task.text ++
    match f.cause with
    | .refused why => [why.message]
    | .broke _ => []

/-- All texts in one line; none where only a part gave up. -/
def message? (f : Fault) : Option String :=
  if f.texts.isEmpty then none else some (Text.join ": " f.texts)

end Fault

end Imageboard

open Imageboard

def Except.doing (task : Task) : Except Fault α → Except Fault α
  | .ok a => .ok a
  | .error f => .error (f.doing task)

def Option.orBreak (what : Breakdown) : Option α → Except Fault α
  | some a => .ok a
  | none => .error (.broke what)
