import Imageboard.Board.Table
import Imageboard.Federation.Web
import Imageboard.Json.Record
import Imageboard.Signature.Header
import Imageboard.Wire.Decode

namespace Imageboard

structure ResolvedKey where
  actorUrl : String
  keyId : String
  pem : String
deriving DecidableEq, Repr

structure CachedKey where
  resolved : ResolvedKey
  expires : Int
deriving DecidableEq, Repr

instance : Keyed CachedKey := ⟨fun c => [c.resolved.actorUrl]⟩

abbrev KeyCache := Table CachedKey

def keyLifetime : Int := 300000

namespace KeyCache

def live? (c : KeyCache) (tick : Int) (actorUrl : String) : Option ResolvedKey :=
  match c.get? [actorUrl] with
  | some k => if tick < k.expires then some k.resolved else none
  | none => none

def expire (c : KeyCache) (tick : Int) (actorUrl : String) : KeyCache :=
  c.filter fun k => k.resolved.actorUrl != actorUrl || tick < k.expires

end KeyCache

open Json (Value Members)

def publishedKey? (document : Value) : Option (Option (String × String)) := do
  let key (v : Value) : Option (String × String) := do
    let ms ← v.allMembers? ["id", "publicKeyPem"]
    return (← ms.required "id" Value.text?, ← ms.required "publicKeyPem" Value.text?)
  let ms ← document.allMembers? ["publicKey"]
  ms.read "publicKey" none (Value.nullable? key)

def fetchKey (web : Web) (actorUrl : String) (wanted : Option String) : Outward ResolvedKey := do
  let text ← web.fetch actorUrl (.fetchingActor actorUrl) (.acceptingActor actorUrl)
  match (Json.parse? text).bind publishedKey? with
  | none => throw ((Fault.broke .json).doing (.parsingActor actorUrl))
  | some none => throw (.refused .noPublicKey)
  | some (some (keyId, pem)) =>
    match wanted with
    | some w =>
      if w = keyId then return { actorUrl, keyId, pem }
      else throw (.refused (.otherKey actorUrl keyId w))
    | none => return { actorUrl, keyId, pem }

/-- The key of a key id, from the cache or from the web, and the cache after it. -/
def resolveKey (web : Web) (tick : Int) (keyId : String) (cache : KeyCache) :
    StateM Log (Except Fault ResolvedKey × KeyCache) := do
  let actorUrl := SignatureHeader.withoutFragment keyId
  let wanted := if actorUrl = keyId then none else some keyId
  let hit := (cache.live? tick actorUrl).filter fun k => wanted.all (· == k.keyId)
  match hit with
  | some k => return (.ok k, cache)
  | none =>
    let cache := cache.expire tick actorUrl
    match ← (fetchKey web actorUrl wanted).run with
    | .error f => return (.error f, cache)
    | .ok k => return (.ok k, cache.put { resolved := k, expires := tick + keyLifetime })

end Imageboard
