import PathSieve.Number.Binary64
import PathSieve.Text.Utf8

/-!
# Reading JSON tokens

Readers take a token off the front of a text and give the rest. A text may end too early or be
malformed; a reader that expects a type may also find another one. The first fault from the left
is the one reported.
-/

namespace PathSieve.Json

set_option autoImplicit false

inductive Fault
  | endedEarly
  | malformed
  | mismatched
  deriving DecidableEq, Inhabited

namespace Fault

def name : Fault → String
  | .endedEarly => "Eof"
  | .malformed => "Syntax"
  | .mismatched => "Data"

end Fault

abbrev Reading (α : Type) := Except Fault (α × List Char)

def isSpace (c : Char) : Bool := c == ' ' || c == '\n' || c == '\t' || c == '\r'

def skipSpace (cs : List Char) : List Char := cs.dropWhile isSpace

def readWord : List Char → List Char → Except Fault (List Char)
  | [], rest => .ok rest
  | _ :: _, [] => .error .endedEarly
  | w :: word, c :: rest => if w == c then readWord word rest else .error .malformed

def hexValue? (c : Char) : Option Nat :=
  if '0' ≤ c ∧ c ≤ '9' then some (c.toNat - '0'.toNat)
  else if 'a' ≤ c ∧ c ≤ 'f' then some (c.toNat - 'a'.toNat + 10)
  else if 'A' ≤ c ∧ c ≤ 'F' then some (c.toNat - 'A'.toNat + 10)
  else none

/-- Takes four hexadecimal digits. A text with fewer than four bytes left has ended, whatever they
are. -/
def readHex (cs : List Char) : Reading Nat :=
  match cs with
  | a :: b :: c :: d :: rest =>
    match hexValue? a, hexValue? b, hexValue? c, hexValue? d with
    | some a, some b, some c, some d => .ok (((a * 16 + b) * 16 + c) * 16 + d, rest)
    | _, _, _, _ => .error .malformed
  | short => if Text.byteSize short < 4 then .error .endedEarly else .error .malformed

def isLowSurrogate (n : Nat) : Bool := 0xDC00 ≤ n && n ≤ 0xDFFF

def isHighSurrogate (n : Nat) : Bool := 0xD800 ≤ n && n ≤ 0xDBFF

def readPair (high : Nat) (cs : List Char) : Reading Char :=
  match cs with
  | [] => .error .endedEarly
  | '\\' :: [] => .error .endedEarly
  | '\\' :: 'u' :: rest =>
    match readHex rest with
    | .error fault => .error fault
    | .ok (low, rest) =>
      if isLowSurrogate low then
        .ok (Char.ofNat (0x10000 + (high - 0xD800) * 0x400 + (low - 0xDC00)), rest)
      else .error .malformed
  | _ => .error .malformed

/-- Takes the character of a `\u` escape. Where the text is only skipped, surrogates go
unchecked. -/
def readUnit (checked : Bool) (cs : List Char) : Reading Char :=
  match readHex cs with
  | .error fault => .error fault
  | .ok (n, rest) =>
    if !checked then .ok (Char.ofNat n, rest)
    else if isLowSurrogate n then .error .malformed
    else if isHighSurrogate n then readPair n rest
    else .ok (Char.ofNat n, rest)

def readEscape (checked : Bool) (cs : List Char) : Reading Char :=
  match cs with
  | [] => .error .endedEarly
  | '"' :: rest => .ok ('"', rest)
  | '\\' :: rest => .ok ('\\', rest)
  | '/' :: rest => .ok ('/', rest)
  | 'b' :: rest => .ok ('\x08', rest)
  | 'f' :: rest => .ok ('\x0c', rest)
  | 'n' :: rest => .ok ('\n', rest)
  | 'r' :: rest => .ok ('\r', rest)
  | 't' :: rest => .ok ('\t', rest)
  | 'u' :: rest => readUnit checked rest
  | _ => .error .malformed

/-- Takes the characters up to the closing quote. Each step takes at least one of the text, so its
length is fuel enough. -/
def readStringFrom (checked : Bool) (fuel : Nat) (done : List Char) (cs : List Char) :
    Reading (List Char) :=
  match fuel with
  | 0 => .error .endedEarly
  | fuel + 1 =>
    match cs with
    | [] => .error .endedEarly
    | '"' :: rest => .ok (done.reverse, rest)
    | '\\' :: rest =>
      match readEscape checked rest with
      | .error fault => .error fault
      | .ok (c, rest) => readStringFrom checked fuel (c :: done) rest
    | c :: rest =>
      if c.toNat < 0x20 then .error .malformed else readStringFrom checked fuel (c :: done) rest

def readString (checked : Bool) (cs : List Char) : Reading (List Char) :=
  readStringFrom checked (cs.length + 1) [] cs

structure Numeral where
  negative : Bool
  whole : List Char
  fraction : Option (List Char)
  exponent : Option Int
  deriving DecidableEq

def isDigit (c : Char) : Bool := '0' ≤ c && c ≤ '9'

/-- Takes at least one digit; `early` is the fault of a text that ends before it. -/
def readDigits (early : Fault) (cs : List Char) : Reading (List Char) :=
  match cs with
  | [] => .error early
  | c :: _ =>
    if isDigit c then .ok (cs.takeWhile isDigit, cs.dropWhile isDigit) else .error .malformed

def natOfDigits (digits : List Char) : Nat :=
  digits.foldl (fun n c => n * 10 + (c.toNat - '0'.toNat)) 0

def readFraction (early : Fault) (cs : List Char) : Reading (Option (List Char)) :=
  match cs with
  | '.' :: rest => (readDigits early rest).map fun read => (some read.1, read.2)
  | rest => .ok (none, rest)

def readSign (cs : List Char) : Bool × List Char :=
  match cs with
  | '+' :: rest => (false, rest)
  | '-' :: rest => (true, rest)
  | rest => (false, rest)

def readExponent (early : Fault) (cs : List Char) : Reading (Option Int) :=
  match cs with
  | c :: rest =>
    if c == 'e' || c == 'E' then
      let signed := readSign rest
      (readDigits early signed.2).map fun read =>
        let n : Int := natOfDigits read.1
        (some (if signed.1 then -n else n), read.2)
    else .ok (none, cs)
  | [] => .ok (none, [])

def readWhole (early : Fault) (cs : List Char) : Reading (List Char) :=
  match cs with
  | '0' :: rest =>
    if (rest.head?.map isDigit).getD false then .error .malformed else .ok (['0'], rest)
  | rest => readDigits early rest

def readNumeral (early : Fault) (cs : List Char) : Except Fault (Numeral × List Char) := do
  let negative := cs.head? == some '-'
  let (whole, rest) ← readWhole early (if negative then cs.tail else cs)
  let (fraction, rest) ← readFraction early rest
  let (exponent, rest) ← readExponent early rest
  return (⟨negative, whole, fraction, exponent⟩, rest)

def wordLimit : Nat := Nat.pow 2 64

/-- Appends digits to a number as long as it fits a word, and counts them. -/
def takeDigits (start : Nat) (digits : List Char) : Nat × Nat :=
  let result := digits.foldl (fun (acc : Nat × Nat × Bool) c =>
    let next := acc.1 * 10 + (c.toNat - '0'.toNat)
    if acc.2.2 && next < wordLimit then (next, acc.2.1 + 1, true) else (acc.1, acc.2.1, false))
    (start, 0, true)
  (result.1, result.2.1)

/-- The double of a numeral: digits beyond a word are dropped, and a number out of range is
none. -/
def Numeral.real? (numeral : Numeral) : Option Binary64 :=
  let whole := takeDigits 0 numeral.whole
  let all := takeDigits whole.1 (numeral.fraction.getD [])
  Binary64.ofDecimal? all.1
    ((numeral.whole.length : Int) - whole.2 - all.2 + numeral.exponent.getD 0)

inductive Number
  | integer (n : Int)
  | real (negative : Bool) (magnitude : Binary64)
  deriving DecidableEq

/-- A numeral without point and exponent is an integer if it fits a word, signed where it is
negative; a negative zero is a double. -/
def Numeral.integer? (numeral : Numeral) : Option Int :=
  if numeral.fraction.isSome || numeral.exponent.isSome then none
  else
    let n := natOfDigits numeral.whole
    if numeral.negative then if 0 < n ∧ n ≤ Nat.pow 2 63 then some (-(n : Int)) else none
    else if n < wordLimit then some n else none

def Numeral.number (numeral : Numeral) : Except Fault Number :=
  match numeral.integer? with
  | some n => .ok (.integer n)
  | none =>
    match numeral.real? with
    | some x => .ok (.real numeral.negative x)
    | none => .error .malformed

def readNumber (cs : List Char) : Except Fault (Number × List Char) := do
  let (numeral, rest) ← readNumeral .endedEarly cs
  let number ← numeral.number
  return (number, rest)

end PathSieve.Json
