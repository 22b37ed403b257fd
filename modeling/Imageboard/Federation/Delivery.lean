import Imageboard.Federation.Web
import Imageboard.Keys.Registry
import Imageboard.Json.Record

namespace Imageboard

structure DeliveryReport where
  delivered : Nat := 0
  /-- Recipients whose inbox was not found or did not take the request. -/
  failed : List String := []
deriving DecidableEq, Repr

abbrev Sender := Node → Activity → List String → Outward DeliveryReport

namespace Delivery

open Json (Value Members)

def inboxes? (document : Value) : Option (Option String × Option String) := do
  let shared (v : Value) : Option (Option String) := do
    let ms ← v.allMembers? ["sharedInbox"]
    ms.read "sharedInbox" none (Value.nullable? Value.text?)
  let ms ← document.allMembers? ["inbox", "endpoints"]
  let inbox ← ms.read "inbox" none (Value.nullable? Value.text?)
  let endpoints ← ms.read "endpoints" none (Value.nullable? shared)
  return (inbox, endpoints.join)

def resolveInbox (web : Web) (actorUrl : String) : Outward String := do
  let text ← web.fetch actorUrl (.fetchingActor actorUrl) (.acceptingActor actorUrl)
  match (Json.parse? text).bind inboxes? with
  | none => throw ((Fault.broke .json).doing (.parsingActor actorUrl))
  | some (_, some shared) => return shared
  | some (some inbox, none) => return inbox
  | some (none, none) => throw (.refused .noInbox)

def signedHeaders : List String :=
  ["(request-target)", "host", "date", "digest", "content-type"]

def activityType : HeaderValue :=
  ⟨"application/activity+json", by decide⟩

def reasons : List (Nat × String) :=
  [(100, "Continue"), (101, "Switching Protocols"), (102, "Processing"), (200, "OK"),
   (201, "Created"), (202, "Accepted"), (203, "Non Authoritative Information"),
   (204, "No Content"), (205, "Reset Content"), (206, "Partial Content"), (207, "Multi-Status"),
   (208, "Already Reported"), (226, "IM Used"), (300, "Multiple Choices"),
   (301, "Moved Permanently"), (302, "Found"), (303, "See Other"), (304, "Not Modified"),
   (305, "Use Proxy"), (307, "Temporary Redirect"), (308, "Permanent Redirect"),
   (400, "Bad Request"), (401, "Unauthorized"), (402, "Payment Required"), (403, "Forbidden"),
   (404, "Not Found"), (405, "Method Not Allowed"), (406, "Not Acceptable"),
   (407, "Proxy Authentication Required"), (408, "Request Timeout"), (409, "Conflict"),
   (410, "Gone"), (411, "Length Required"), (412, "Precondition Failed"),
   (413, "Payload Too Large"), (414, "URI Too Long"), (415, "Unsupported Media Type"),
   (416, "Range Not Satisfiable"), (417, "Expectation Failed"), (418, "I'm a teapot"),
   (421, "Misdirected Request"), (422, "Unprocessable Entity"), (423, "Locked"),
   (424, "Failed Dependency"), (425, "Too Early"), (426, "Upgrade Required"),
   (428, "Precondition Required"), (429, "Too Many Requests"),
   (431, "Request Header Fields Too Large"), (451, "Unavailable For Legal Reasons"),
   (500, "Internal Server Error"), (501, "Not Implemented"), (502, "Bad Gateway"),
   (503, "Service Unavailable"), (504, "Gateway Timeout"), (505, "HTTP Version Not Supported"),
   (506, "Variant Also Negotiates"), (507, "Insufficient Storage"), (508, "Loop Detected"),
   (510, "Not Extended"), (511, "Network Authentication Required")]

def statusText (status : Nat) : String :=
  toString status ++ " " ++ (reasons.lookup status).getD "<unknown status code>"

def post (web : Web) (now : Instant) (pem keyId inbox body : String) : Outward Unit := do
  let uri ← ((Uri.parse? inbox).orBreak .uri).doing .parsingInbox
  let request : RequestHead :=
    { method := .post
      uri
      headers := [(.accept, activityType), (.contentType, activityType)] }
  let request ← request.sign pem keyId signedHeaders (Text.utf8 body) now
  let failed : Fault := (Fault.broke .connection).doing (.posting inbox)
  match ← web.send { method := "POST", url := inbox, headers := request.headers, body } with
  | .dropped => throw failed
  | .answered status text =>
    if 200 ≤ status && status < 300 then return ()
    else throw (.refused (.inboxRefused inbox (statusText status) text))

/-- Sends a body to the inboxes of recipients in turn. A recipient whose inbox had its turn already
counts neither as reached nor as failed. -/
def toEach (web : Web) (send : String → Outward Unit) (tried : List String) :
    List String → DeliveryReport → Outward DeliveryReport
  | [], report => return report
  | r :: rs, report => do
    match ← Outward.attempt (resolveInbox web r) with
    | .error _ => toEach web send tried rs { report with failed := report.failed ++ [r] }
    | .ok inbox =>
      if inbox ∈ tried then toEach web send tried rs report
      else
        match ← Outward.attempt (send inbox) with
        | .ok () =>
          toEach web send (inbox :: tried) rs { report with delivered := report.delivered + 1 }
        | .error _ =>
          toEach web send (inbox :: tried) rs { report with failed := report.failed ++ [r] }

/-- Sends an activity under the key of its actor to all recipients but the actor and everyone. -/
def overWeb (web : Web) (now : Instant) : Sender := fun n activity recipients => do
  let actor := activity.actorId
  if actor = "" then throw (.refused .activityWithoutActor)
  else
    let pem ← n.privateKey actor
    let body := activity.encode.render
    let others := recipients.filter fun r => r != everyone && r != actor
    toEach web (fun inbox => post web now pem (Actor.mainKey actor) inbox body) [] others {}

end Delivery
end Imageboard
