namespace Imageboard

/-- The `type` of an object. Names used by other implementations, media types among them, are kept
as they are. -/
inductive ObjectType where
  | note
  | archive
  | tombstone
  | preview
  | attachment
  | other (name : String)
deriving DecidableEq, Repr, Inhabited

namespace ObjectType

def text : ObjectType → String
  | note => "Note"
  | archive => "Archive"
  | tombstone => "Tombstone"
  | preview => "Preview"
  | attachment => "Attachment"
  | other name => name

def ofText (s : String) : ObjectType :=
  if s = "Note" then note
  else if s = "Archive" then archive
  else if s = "Tombstone" then tombstone
  else if s = "Preview" then preview
  else if s = "Attachment" then attachment
  else other s

def isPost : ObjectType → Bool
  | note | archive => true
  | _ => false

theorem text_ofText (s : String) : (ofText s).text = s := by
  unfold ofText
  repeat' split
  all_goals simp_all [text]

end ObjectType

inductive Verb where
  | create
  | update
  | delete
  | follow
  | accept
  | reject
  | undo
deriving DecidableEq, Repr

namespace Verb

def text : Verb → String
  | create => "Create"
  | update => "Update"
  | delete => "Delete"
  | follow => "Follow"
  | accept => "Accept"
  | reject => "Reject"
  | undo => "Undo"

def all : List Verb := [create, update, delete, follow, accept, reject, undo]

def ofText? (s : String) : Option Verb :=
  all.find? fun v => v.text == s

end Verb
end Imageboard
