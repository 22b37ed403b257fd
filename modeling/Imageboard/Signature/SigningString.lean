import Imageboard.Fault
import Imageboard.Http.Header
import Imageboard.Http.Uri

namespace Imageboard

/-- A request as far as signatures look at it. -/
structure RequestHead where
  method : Method
  uri : Uri
  headers : Headers

namespace RequestHead

/-- Stands for method and target in a list of signed headers. -/
def requestTarget : String := "(request-target)"

def signedLine (r : RequestHead) (name : String) : Except Fault String :=
  if name = requestTarget then
    .ok (name ++ ": " ++ Text.lower r.method.text ++ " " ++ r.uri.target)
  else do
    let key ← ((HeaderName.of? name).orBreak .header).doing (.namingHeader name)
    match r.headers.get? key with
    | none => .error (.refused (.headerMissing name))
    | some value =>
      let text ← (value.plain?.orBreak .header).doing (.readingHeader name)
      return name ++ ": " ++ Text.trim text

def signingString (r : RequestHead) (names : List String) : Except Fault String := do
  return Text.join "\n" (← names.mapM r.signedLine)

end RequestHead
end Imageboard
