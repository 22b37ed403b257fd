import Imageboard.Http.Header
import Imageboard.Wire.Encode
import Imageboard.Fault

namespace Imageboard

structure WebRequest where
  method : String
  /-- As it is known here, whether or not it is an address on the web. -/
  url : String
  headers : Headers := []
  body : String := ""

inductive WebReply where
  | dropped
  | answered (status : Nat) (body : String)
deriving DecidableEq, Repr

inductive Event where
  | requested (request : WebRequest)
  | sent (activity : Activity) (recipients : List String)
  | notified (recipients : List String) (post : Object)

abbrev Log := List Event

/-- What the other nodes answer to a request after all that came before it. -/
abbrev Web := Log → WebRequest → WebReply

/-- Work that may send things out and may fail; what was sent stays on record. -/
abbrev Outward := ExceptT Fault (StateM Log)

namespace Outward

def record (e : Event) : Outward Unit :=
  modify (· ++ [e])

def attempt (x : Outward α) : Outward (Except Fault α) :=
  ExceptT.mk (do return .ok (← x.run))

def doing (task : Task) (x : Outward α) : Outward α :=
  ExceptT.mk (do return (← x.run).doing task)

end Outward

namespace Web

def send (web : Web) (request : WebRequest) : Outward WebReply := do
  let log ← get
  Outward.record (.requested request)
  return web log request

def activityTypes : HeaderValue :=
  ⟨"application/activity+json, application/ld+json; " ++
    "profile=\"https://www.w3.org/ns/activitystreams\"", by decide⟩

def isFailure (status : Nat) : Bool :=
  400 ≤ status && status < 600

def fetch (web : Web) (url : String) (asking accepting : Task) : Outward String := do
  let failed (task : Task) : Fault := (Fault.broke .connection).doing task
  let request : WebRequest := { method := "GET", url, headers := [(.accept, activityTypes)] }
  match ← web.send request with
  | .dropped => throw (failed asking)
  | .answered status body => if isFailure status then throw (failed accepting) else return body

end Web
end Imageboard
