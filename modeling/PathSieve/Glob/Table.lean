import PathSieve.Glob.Basic

/-!
# Tables of states

A glob of plain characters is looked up as it is. Any other glob is written out as an expression
over bytes and compiled to a table of states, and a glob whose table would grow beyond a limit is
rejected. The size of a table is known from the glob alone: every part of the expression adds a
fixed number of states, byte ranges and branches.
-/

namespace PathSieve

set_option autoImplicit false

namespace Glob

/-- Whether a glob needs a table. Plain characters need none, also behind a `**` or in front of
one, and neither does an extension below any directory. -/
def needsTable (glob : Glob) : Bool :=
  !(glob.isPlain || glob.isPlainAfterDirs || glob.isPlainBeforeDirs || glob.isExtensionAfterDirs)

def tableBytes (states ranges branches : Nat) : Nat := 32 * states + 8 * ranges + 4 * branches

end Glob

/-- A character takes one state for each byte. A byte other than a slash takes a state of two
ranges and a state behind it, and a run of them a branching state as well. Directories in front
may be left out together with their slash; those between two names keep one slash at least. -/
def Token.tableSize : Token → Nat
  | .exact c => Glob.tableBytes c.utf8Size 0 0
  | .one => Glob.tableBytes 2 2 0
  | .run => Glob.tableBytes 3 2 2
  | .dirsBefore => Glob.tableBytes 9 1 6
  | .dirsBetween => Glob.tableBytes 8 1 4
  | .dirsAfter => Glob.tableBytes 4 1 2

namespace Glob

/-- Both ends of the candidate and of the match, the entry and the verdict take a state each. -/
def frameSize : Nat := tableBytes 6 0 0

def tableSize (glob : Glob) : Nat :=
  frameSize +
    if glob.isDirsAlone then tableBytes 3 1 2
    else glob.tokens.foldl (fun size token => size + token.tableSize) 0

def tableLimit : Nat := 10 * 1024 * 1024

def isOversized (glob : Glob) : Bool := glob.needsTable && tableLimit < glob.tableSize

end Glob

def expressionMarks : List Char := "\\.+*?()|[]\x7b\x7d^$#&-~".toList

def expressionOfByte (b : UInt8) : List Char :=
  if b < 0x80 then
    let c := Char.ofNat b.toNat
    if expressionMarks.contains c then ['\\', c] else [c]
  else '\\' :: 'x' :: Nat.toDigits 16 b.toNat

/-- Brackets and braces are written as sets of one character. -/
def Token.expression (token : Token) : List Char :=
  match token with
  | .exact c =>
    let bytes := (String.utf8EncodeChar c).flatMap expressionOfByte
    if token.isPlain then bytes else ['['] ++ bytes ++ [']']
  | .one => "[^/]".toList
  | .run => "[^/]*".toList
  | .dirsBefore => "(?:/?|.*/)".toList
  | .dirsBetween => "(?:/|/.*/)".toList
  | .dirsAfter => "/.*".toList

namespace Glob

def expression (glob : Glob) : List Char :=
  "(?-u)^".toList ++
    (if glob.isDirsAlone then ".*".toList else glob.tokens.flatMap Token.expression) ++ ['$']

/-- Why an oversized glob is rejected. The expression is named when candidates are sorted out by
their extension first. -/
def rejection (glob : Glob) : String :=
  let cause := "error building NFA"
  if glob.endsInPlainDot then
    "error parsing glob '" ++ String.ofList glob.expression ++ "': " ++ cause
  else cause

end Glob

end PathSieve
