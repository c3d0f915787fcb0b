import PathSieve.Json.Scan
import PathSieve.Json.Value

/-!
# Reading JSON values

`read` takes a whole text as one value. `skipValue` takes a value off the front of a text without
keeping it, however deep it is nested.
-/

namespace PathSieve.Json

set_option autoImplicit false

def Number.value : Number → Value
  | .integer n => .integer n
  | .real negative magnitude => .real negative magnitude

def startsNumber (c : Char) : Bool := c == '-' || isDigit c

def readScalar (cs : List Char) : Reading Value :=
  match cs with
  | [] => .error .endedEarly
  | 'n' :: rest => (readWord ['u', 'l', 'l'] rest).map fun rest => (.null, rest)
  | 't' :: rest => (readWord ['r', 'u', 'e'] rest).map fun rest => (.flag true, rest)
  | 'f' :: rest => (readWord ['a', 'l', 's', 'e'] rest).map fun rest => (.flag false, rest)
  | c :: _ =>
    if startsNumber c then (readNumber cs).map fun read => (read.1.value, read.2)
    else .error .malformed

mutual

/-- Every call takes at least one character, so the length of the text is fuel enough. -/
def readValue (fuel : Nat) (cs : List Char) : Reading Value :=
  match fuel with
  | 0 => .error .malformed
  | fuel + 1 =>
    match skipSpace cs with
    | '"' :: rest => (readString true rest).map fun read => (.string (String.ofList read.1), read.2)
    | '[' :: rest =>
      match skipSpace rest with
      | ']' :: rest => .ok (.array [], rest)
      | rest => readItems fuel [] rest
    | '{' :: rest =>
      match skipSpace rest with
      | '}' :: rest => .ok (.ofMembers [], rest)
      | rest => readMembers fuel [] rest
    | rest => readScalar rest

def readItems (fuel : Nat) (done : List Value) (cs : List Char) : Reading Value :=
  match fuel with
  | 0 => .error .malformed
  | fuel + 1 =>
    match readValue fuel cs with
    | .error fault => .error fault
    | .ok (value, rest) =>
      match skipSpace rest with
      | [] => .error .endedEarly
      | ',' :: rest => readItems fuel (value :: done) rest
      | ']' :: rest => .ok (.array (value :: done).reverse, rest)
      | _ => .error .malformed

def readMembers (fuel : Nat) (done : List (String × Value)) (cs : List Char) : Reading Value :=
  match fuel with
  | 0 => .error .malformed
  | fuel + 1 =>
    match skipSpace cs with
    | [] => .error .endedEarly
    | '"' :: rest =>
      match readString true rest with
      | .error fault => .error fault
      | .ok (key, rest) =>
        match skipSpace rest with
        | [] => .error .endedEarly
        | ':' :: rest =>
          match readValue fuel rest with
          | .error fault => .error fault
          | .ok (value, rest) =>
            let done := (String.ofList key, value) :: done
            match skipSpace rest with
            | [] => .error .endedEarly
            | ',' :: rest => readMembers fuel done rest
            | '}' :: rest => .ok (.ofMembers done.reverse, rest)
            | _ => .error .malformed
        | _ => .error .malformed
    | _ => .error .malformed

end

def read (text : String) : Except Fault Value :=
  let cs := text.toList
  match readValue (cs.length + 1) cs with
  | .error fault => .error fault
  | .ok (value, rest) => if (skipSpace rest).isEmpty then .ok value else .error .malformed

inductive Bracket
  | array
  | object
  deriving DecidableEq

/-- What a skipping reader expects next: a value, what may follow a bracket, or what may follow a
value. -/
inductive Expect
  | value
  | opened
  | closed

def skipKey (cs : List Char) : Except Fault (List Char) :=
  match skipSpace cs with
  | [] => .error .endedEarly
  | '"' :: rest =>
    match readString false rest with
    | .error fault => .error fault
    | .ok (_, rest) =>
      match skipSpace rest with
      | [] => .error .endedEarly
      | ':' :: rest => .ok rest
      | _ => .error .malformed
  | _ => .error .malformed

/-- Takes a word, a number or a string without keeping it. A number may not end with the text, and
need not be in range. -/
def skipScalar (cs : List Char) : Except Fault (List Char) :=
  match cs with
  | [] => .error .endedEarly
  | 'n' :: rest => readWord ['u', 'l', 'l'] rest
  | 't' :: rest => readWord ['r', 'u', 'e'] rest
  | 'f' :: rest => readWord ['a', 'l', 's', 'e'] rest
  | '"' :: rest => (readString false rest).map Prod.snd
  | c :: _ =>
    if startsNumber c then (readNumeral .malformed cs).map Prod.snd else .error .malformed

def skipInto (bracket : Bracket) (cs : List Char) : Except Fault (List Char) :=
  match bracket with
  | .array => .ok cs
  | .object => skipKey cs

/-- A character is taken at least every second step, so twice the length is fuel enough. -/
def skipFrom (fuel : Nat) (around : List Bracket) (expect : Expect) (cs : List Char) :
    Except Fault (List Char) :=
  match fuel with
  | 0 => .error .malformed
  | fuel + 1 =>
    match expect with
    | .value =>
      match skipSpace cs with
      | '[' :: rest => skipFrom fuel (.array :: around) .opened rest
      | '{' :: rest => skipFrom fuel (.object :: around) .opened rest
      | rest =>
        match skipScalar rest with
        | .error fault => .error fault
        | .ok rest => skipFrom fuel around .closed rest
    | .opened =>
      match around, skipSpace cs with
      | _, [] => .error .endedEarly
      | .array :: outer, ']' :: rest => skipFrom fuel outer .closed rest
      | .object :: outer, '}' :: rest => skipFrom fuel outer .closed rest
      | [], rest => .ok rest
      | bracket :: _, rest =>
        match skipInto bracket rest with
        | .error fault => .error fault
        | .ok rest => skipFrom fuel around .value rest
    | .closed =>
      match around, skipSpace cs with
      | [], _ => .ok cs
      | _, [] => .error .endedEarly
      | .array :: outer, ']' :: rest => skipFrom fuel outer .closed rest
      | .object :: outer, '}' :: rest => skipFrom fuel outer .closed rest
      | bracket :: _, ',' :: rest =>
        match skipInto bracket rest with
        | .error fault => .error fault
        | .ok rest => skipFrom fuel around .value rest
      | _, _ => .error .malformed

def skipValue (cs : List Char) : Except Fault (List Char) :=
  skipFrom (2 * cs.length + 2) [] .value cs

end PathSieve.Json
