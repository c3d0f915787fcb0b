import PathSieve.Number.Shortest
import PathSieve.Text.Quoted

/-!
# JSON values

Integers keep their exact value; any other number is a double. The members of an object are
ordered by key, each key once.
-/

namespace PathSieve.Json

set_option autoImplicit false

inductive Value
  | null
  | flag (b : Bool)
  | integer (n : Int)
  | real (negative : Bool) (magnitude : Binary64)
  | string (s : String)
  | array (items : List Value)
  | object (members : List (String × Value))
  deriving Inhabited

def insertMember (key : String) (value : Value) : List (String × Value) → List (String × Value)
  | [] => [(key, value)]
  | (k, v) :: rest =>
    if key < k then (key, value) :: (k, v) :: rest
    else if key = k then (key, value) :: rest
    else (k, v) :: insertMember key value rest

/-- Of several members with one key, the last one counts. -/
def Value.ofMembers (members : List (String × Value)) : Value :=
  .object (members.foldl (fun sorted member => insertMember member.1 member.2 sorted) [])

def Value.label : Value → String
  | .null => "null"
  | .flag b => "boolean `" ++ (if b then "true" else "false") ++ "`"
  | .integer n => "integer `" ++ toString n ++ "`"
  | .real negative magnitude => "floating point `" ++ Shortest.text negative magnitude ++ "`"
  | .string s => "string " ++ Text.quoted s
  | .array _ => "sequence"
  | .object _ => "map"

end PathSieve.Json
