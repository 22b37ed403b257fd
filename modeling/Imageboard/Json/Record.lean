import Imageboard.Json.Value

namespace Imageboard.Json

namespace Value

/-- The members of a record. An object may have others besides, but none of these twice; an array
has the fields in order, and the last ones may be missing. -/
def members? (fields : List String) : Value → Option Members
  | .obj ms =>
    if fields.all fun f => (ms.filter fun m => m.1 == f).length ≤ 1 then some ms else none
  | .arr vs => if vs.length ≤ fields.length then some (fields.zip vs) else none
  | _ => none

def allMembers? (fields : List String) : Value → Option Members
  | .arr vs => if vs.length = fields.length then some (fields.zip vs) else none
  | v => members? fields v

def text? : Value → Option String
  | .str s => some s
  | _ => none

def bool? : Value → Option Bool
  | .bool b => some b
  | _ => none

def int64? : Value → Option Int64
  | .num (.int n) =>
    if -0x8000000000000000 ≤ n ∧ n < 0x8000000000000000 then some (Int64.ofInt n) else none
  | _ => none

def word64? : Value → Option UInt64
  | .num (.int n) =>
    if 0 ≤ n ∧ n < 0x10000000000000000 then some (UInt64.ofNat n.toNat) else none
  | _ => none

def texts? : Value → Option (List String)
  | .arr vs => vs.mapM text?
  | _ => none

def nullable? (read : Value → Option α) : Value → Option (Option α)
  | .null => some none
  | v => (read v).map some

/-- Any value, in its sorted form; `null` counts as none. -/
def any? (depth : Nat) (v : Value) : Option (Option Value) :=
  match v with
  | .null => some none
  | v => if v.fits depth then some (some v.sorted) else none

end Value

namespace Members

def read (ms : Members) (field : String) (missing : α) (read : Value → Option α) : Option α :=
  match ms.lookup field with
  | some v => read v
  | none => some missing

def required (ms : Members) (field : String) (read : Value → Option α) : Option α :=
  (ms.lookup field).bind read

def text (ms : Members) (field : String) : Option String :=
  ms.read field "" Value.text?

def flag (ms : Members) (field : String) : Option Bool :=
  ms.read field false Value.bool?

end Members
end Imageboard.Json
