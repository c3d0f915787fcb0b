import PathSieve.Exchange
import PathSieve.Json.Reader

/-!
# Reading settings from JSON text

The text is read from left to right and the first fault is reported, also where it stands within
a value that has the wrong type. A setting may not be given twice; unknown members are skipped.
-/

namespace PathSieve.Settings

set_option autoImplicit false

open Json

/-- The fault of a value of another type: its own fault, if it is a scalar that has one. -/
def otherType (cs : List Char) : Fault :=
  match cs with
  | '[' :: _ => .mismatched
  | '{' :: _ => .mismatched
  | '"' :: rest =>
    match readString true rest with
    | .error fault => fault
    | .ok _ => .mismatched
  | rest =>
    match readScalar rest with
    | .error fault => fault
    | .ok _ => .mismatched

def readName (cs : List Char) : Reading String :=
  match skipSpace cs with
  | '"' :: rest => (readString true rest).map fun read => (String.ofList read.1, read.2)
  | rest => .error (otherType rest)

def readFlag (cs : List Char) : Reading Bool :=
  match skipSpace cs with
  | 't' :: rest => (readWord ['r', 'u', 'e'] rest).map fun rest => (true, rest)
  | 'f' :: rest => (readWord ['a', 'l', 's', 'e'] rest).map fun rest => (false, rest)
  | rest => .error (otherType rest)

structure Draft where
  fileName? : Option String
  withBuiltins? : Option Bool
  deriving DecidableEq

def Draft.empty : Draft := ⟨none, none⟩

def Draft.finish (draft : Draft) : Settings := standard.overlay draft.fileName? draft.withBuiltins?

def nextItem (first : Bool) (cs : List Char) : Except Fault (Option (List Char)) :=
  match skipSpace cs with
  | [] => .error .endedEarly
  | ']' :: _ => .ok none
  | c :: rest =>
    if first then .ok (some (c :: rest))
    else if c == ',' then
      match skipSpace rest with
      | [] => .error .endedEarly
      | ']' :: _ => .error .malformed
      | rest => .ok (some rest)
    else .error .malformed

def closeItems (cs : List Char) : Except Fault (List Char) :=
  match skipSpace cs with
  | [] => .error .endedEarly
  | ']' :: rest => .ok rest
  | _ => .error .malformed

/-- Takes the settings in order; later ones may be left out. -/
def readItems (cs : List Char) : Except Fault (Draft × List Char) := do
  match ← nextItem true cs with
  | none => return (.empty, ← closeItems cs)
  | some rest =>
    let (fileName, rest) ← readName rest
    match ← nextItem false rest with
    | none => return (⟨some fileName, none⟩, ← closeItems rest)
    | some rest =>
      let (withBuiltins, rest) ← readFlag rest
      return (⟨some fileName, some withBuiltins⟩, ← closeItems rest)

def nextMember (first : Bool) (cs : List Char) : Except Fault (Option (List Char)) :=
  match skipSpace cs with
  | [] => .error .endedEarly
  | '}' :: _ => .ok none
  | '"' :: rest => if first then .ok (some rest) else .error .malformed
  | ',' :: rest =>
    if first then .error .malformed
    else
      match skipSpace rest with
      | [] => .error .endedEarly
      | '"' :: rest => .ok (some rest)
      | _ => .error .malformed
  | _ => .error .malformed

def readColon (cs : List Char) : Except Fault (List Char) :=
  match skipSpace cs with
  | [] => .error .endedEarly
  | ':' :: rest => .ok rest
  | _ => .error .malformed

/-- Takes the rest of a member. A name given twice is refused before its value is looked at. -/
def Draft.readMember (draft : Draft) (name : String) (cs : List Char) :
    Except Fault (Draft × List Char) :=
  if name = fileNameKey then
    if draft.fileName?.isSome then .error .mismatched
    else do
      let (fileName, rest) ← readName (← readColon cs)
      return ({ draft with fileName? := some fileName }, rest)
  else if name = withBuiltinsKey then
    if draft.withBuiltins?.isSome then .error .mismatched
    else do
      let (withBuiltins, rest) ← readFlag (← readColon cs)
      return ({ draft with withBuiltins? := some withBuiltins }, rest)
  else do
    let rest ← skipValue (← readColon cs)
    return (draft, rest)

/-- Every member takes at least one character, so the length of the text is fuel enough. -/
def readMembers (fuel : Nat) (first : Bool) (draft : Draft) (cs : List Char) :
    Except Fault (Draft × List Char) :=
  match fuel with
  | 0 => .error .malformed
  | fuel + 1 =>
    match nextMember first cs with
    | .error fault => .error fault
    | .ok none => .ok (draft, (skipSpace cs).tail)
    | .ok (some rest) =>
      match readString true rest with
      | .error fault => .error fault
      | .ok (name, rest) =>
        match draft.readMember (String.ofList name) rest with
        | .error fault => .error fault
        | .ok (draft, rest) => readMembers fuel false draft rest

def readDraft (cs : List Char) : Except Fault (Draft × List Char) :=
  match skipSpace cs with
  | [] => .error .endedEarly
  | '[' :: rest => readItems rest
  | '{' :: rest => readMembers (rest.length + 1) true .empty rest
  | rest => .error (otherType rest)

def ofText (text : String) : Except Fault Settings :=
  match readDraft text.toList with
  | .error fault => .error fault
  | .ok (draft, rest) =>
    if (skipSpace rest).isEmpty then .ok draft.finish else .error .malformed

end PathSieve.Settings
