import PathSieve.Json.Value
import PathSieve.Sieve

/-!
# Settings, summaries and origins as JSON values

Settings are read leniently: what is missing keeps its standard value, and unknown members are
passed over. A summary must be complete. Either may also be given as an array of its fields in
order. Members are looked at in the order of their keys, and the first fault is reported.
-/

namespace PathSieve

set_option autoImplicit false

open Json (Value)

inductive Wanted
  | text
  | flag
  | count
  | settings
  | summary
  | variant
  | nothing
  deriving DecidableEq

def Wanted.label : Wanted → String
  | .text => "a string"
  | .flag => "a boolean"
  | .count => "usize"
  | .settings => "struct IgnoreConfig"
  | .summary => "struct FilterInfo"
  | .variant => "string or map"
  | .nothing => "unit"

inductive ShapeFault
  | wrongType (got : String) (wanted : Wanted)
  | outOfRange (n : Int)
  | missing (field : String)
  | tooShort (length : Nat)
  | tooLong (length : Nat)
  | unknownVariant (name : String)
  | notOneKey
  deriving DecidableEq

namespace ShapeFault

def ofValue (value : Value) (wanted : Wanted) : ShapeFault := .wrongType value.label wanted

def message : ShapeFault → String
  | .wrongType got wanted => "invalid type: " ++ got ++ ", expected " ++ wanted.label
  | .outOfRange n =>
    "invalid value: integer `" ++ toString n ++ "`, expected " ++ Wanted.count.label
  | .missing field => "missing field `" ++ field ++ "`"
  | .tooShort length =>
    "invalid length " ++ toString length ++ ", expected " ++ Wanted.summary.label ++
      " with 2 elements"
  | .tooLong length =>
    "invalid length " ++ toString length ++ ", expected fewer elements in array"
  | .unknownVariant name => "unknown variant `" ++ name ++ "`, expected `Default` or `Custom`"
  | .notOneKey => "invalid value: map, expected map with a single key"

end ShapeFault

def textOf (value : Value) : Except ShapeFault String :=
  match value with
  | .string s => .ok s
  | other => .error (.ofValue other .text)

def flagOf (value : Value) : Except ShapeFault Bool :=
  match value with
  | .flag b => .ok b
  | other => .error (.ofValue other .flag)

def countOf (value : Value) : Except ShapeFault Nat :=
  match value with
  | .integer n => if 0 ≤ n ∧ n.toNat < Nat.pow 2 64 then .ok n.toNat else .error (.outOfRange n)
  | other => .error (.ofValue other .count)

namespace Settings

def fileNameKey : String := "file_name"

def withBuiltinsKey : String := "include_defaults"

def toValue (settings : Settings) : Value :=
  .ofMembers
    [(fileNameKey, .string settings.fileName), (withBuiltinsKey, .flag settings.withBuiltins)]

def readMember (settings : Settings) (member : String × Value) : Except ShapeFault Settings :=
  if member.1 = fileNameKey then
    (textOf member.2).map fun fileName => { settings with fileName }
  else if member.1 = withBuiltinsKey then
    (flagOf member.2).map fun withBuiltins => { settings with withBuiltins }
  else .ok settings

def ofMembers (members : List (String × Value)) : Except ShapeFault Settings :=
  members.foldlM readMember standard

def ofItems (items : List Value) : Except ShapeFault Settings :=
  match items with
  | [] => .ok standard
  | [fileName] => do
    let fileName ← textOf fileName
    return { standard with fileName }
  | fileName :: withBuiltins :: rest => do
    let fileName ← textOf fileName
    let withBuiltins ← flagOf withBuiltins
    if rest.isEmpty then return ⟨fileName, withBuiltins⟩ else throw (.tooLong items.length)

def ofValue (value : Value) : Except ShapeFault Settings :=
  match value with
  | .object members => ofMembers members
  | .array items => ofItems items
  | other => .error (.ofValue other .settings)

end Settings

namespace Summary

def builtinCountKey : String := "default_patterns_count"

def fileReadKey : String := "custom_patterns_loaded"

def toValue (summary : Summary) : Value :=
  .ofMembers
    [(builtinCountKey, .integer summary.builtinCount), (fileReadKey, .flag summary.fileRead)]

structure Draft where
  builtinCount? : Option Nat
  fileRead? : Option Bool
  deriving DecidableEq

def Draft.readMember (draft : Draft) (member : String × Value) : Except ShapeFault Draft :=
  if member.1 = builtinCountKey then
    (countOf member.2).map fun count => { draft with builtinCount? := some count }
  else if member.1 = fileReadKey then
    (flagOf member.2).map fun fileRead => { draft with fileRead? := some fileRead }
  else .ok draft

def Draft.finish (draft : Draft) : Except ShapeFault Summary :=
  match draft.builtinCount?, draft.fileRead? with
  | none, _ => .error (.missing builtinCountKey)
  | some _, none => .error (.missing fileReadKey)
  | some builtinCount, some fileRead => .ok ⟨builtinCount, fileRead⟩

def ofMembers (members : List (String × Value)) : Except ShapeFault Summary :=
  (members.foldlM Draft.readMember ⟨none, none⟩).bind Draft.finish

def ofItems (items : List Value) : Except ShapeFault Summary :=
  match items with
  | [] => .error (.tooShort 0)
  | [count] => do
    let _ ← countOf count
    throw (.tooShort 1)
  | count :: fileRead :: rest => do
    let count ← countOf count
    let fileRead ← flagOf fileRead
    if rest.isEmpty then return ⟨count, fileRead⟩ else throw (.tooLong items.length)

def ofValue (value : Value) : Except ShapeFault Summary :=
  match value with
  | .object members => ofMembers members
  | .array items => ofItems items
  | other => .error (.ofValue other .summary)

end Summary

namespace Origin

def variant : Origin → String
  | .builtin => "Default"
  | .custom => "Custom"

def toValue (origin : Origin) : Value := .string origin.variant

def ofVariant (name : String) : Except ShapeFault Origin :=
  if name = builtin.variant then .ok .builtin
  else if name = custom.variant then .ok .custom
  else .error (.unknownVariant name)

/-- The name of a variant stands alone, or as the one key of an object, over null. -/
def ofValue (value : Value) : Except ShapeFault Origin :=
  match value with
  | .string name => ofVariant name
  | .object [(name, payload)] => do
    let origin ← ofVariant name
    match payload with
    | .null => return origin
    | other => throw (.ofValue other .nothing)
  | .object _ => .error .notOneKey
  | other => .error (.ofValue other .variant)

end Origin

end PathSieve
