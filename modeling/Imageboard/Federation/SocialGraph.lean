import Imageboard.Board.Contacts
import Imageboard.Federation.Web
import Imageboard.Json.Record
import Imageboard.Wire.Decode

namespace Imageboard

structure SocialGraph where
  contacts : Board → Relation → String → Outward (List String)

namespace SocialGraph

def followers (g : SocialGraph) (b : Board) (actor : String) : Outward (List String) :=
  g.contacts b .follower actor

def following (g : SocialGraph) (b : Board) (actor : String) : Outward (List String) :=
  g.contacts b .following actor

def hosted : SocialGraph :=
  ⟨fun b r actor => return b.contactsOf r actor⟩

open Json (Value Members)

def fetchJson (web : Web) (url : String) : Outward Value := do
  let text ← web.fetch url (.fetching url) (.accepting url)
  match (Json.parse? text).filter (·.fits maxDepth) with
  | some v => return v.sorted
  | none => throw ((Fault.broke .json).doing (.parsingJson url))

def itemIds : Value → List String
  | .arr vs => vs.filterMap fun v =>
    match v with
    | .str s => some s
    | .obj ms => (Value.get? "id" (.obj ms)).bind Value.text?
    | _ => none
  | _ => []

/-- The ids that a collection lists, those in order first. -/
def collectionIds (v : Value) : List String :=
  ["orderedItems", "items"].flatMap fun field =>
    match v.get? field with
    | some items => itemIds items
    | none => []

def collections? (document : Value) : Option (Option String × Option String) := do
  let ms ← document.allMembers? ["followers", "following"]
  let address (field : String) := ms.read field none (Value.nullable? Value.text?)
  return (← address "followers", ← address "following")

def distinct (ids : List String) : List String :=
  (ids.mergeSort (· ≤ ·)).eraseDups

def collection (web : Web) (r : Relation) (actor : String) : Outward (List String) := do
  match collections? (← fetchJson web actor) with
  | none => throw ((Fault.broke .json).doing (.readingActor actor))
  | some (followers, following) =>
    let address := match r with
      | .follower => followers
      | .following => following
    match address with
    | none => throw (.refused (.noCollection actor r.text))
    | some url =>
      let document ← fetchJson web url
      let ids := collectionIds document
      if ids.isEmpty then
        match document.get? "first" with
        | some (.str page) => return distinct (collectionIds (← fetchJson web page))
        | some (.obj ms) => return distinct (collectionIds (.obj ms))
        | _ => return []
      else return distinct ids

def remote (web : Web) : SocialGraph :=
  ⟨fun _ r actor => collection web r actor⟩

/-- The tables for actors hosted here, the documents for all others. -/
def federated (web : Web) : SocialGraph :=
  ⟨fun b r actor =>
    if b.hosts actor then hosted.contacts b r actor else (remote web).contacts b r actor⟩

end SocialGraph
end Imageboard
