import PathSieve.Glob.Piece
import PathSieve.Text.Split
import PathSieve.Text.Utf8

/-!
# Globs

A glob body is read from left to right as a sequence of tokens. Two stars that make up a whole
component stand for any number of directories, or for everything below when the body ends with
them. Elsewhere a star stands for a run of bytes, `?` for one byte, and every other character for
itself.
-/

namespace PathSieve

set_option autoImplicit false

/-- A character, any byte but a slash, a run of such bytes, or directories: in front of the first
name, between two names with the slashes around them, or everything behind a slash. -/
inductive Token
  | exact (c : Char)
  | one
  | run
  | dirsBefore
  | dirsBetween
  | dirsAfter
  deriving DecidableEq, Inhabited

structure Glob where
  tokens : List Token
  deriving DecidableEq, Inhabited

namespace Token

def ofChar (c : Char) : Token :=
  match c with
  | '*' => .run
  | '?' => .one
  | c => .exact c

/-- Brackets and braces stand for themselves, but not as plain characters. -/
def isPlain : Token → Bool
  | .exact c => !(c == '[' || c == ']' || c == '{' || c == '}')
  | _ => false

def isPlainInName (token : Token) : Bool := token.isPlain && token != .exact '/'

def pieces : Token → List Glob.Piece
  | .exact c => (String.utf8EncodeChar c).map .byte
  | .one => [.one]
  | .run => [.run]
  | .dirsBefore => [.dirs]
  | .dirsBetween => [.byte Glob.slash, .dirs]
  | .dirsAfter => [.byte Glob.slash, .all]

end Token

namespace Glob

/-- Puts directories behind the tokens read so far, the last one first. In front of everything
they need no slash; elsewhere they take the place of the token that holds the slash before them,
and directories in front of everything take up all that follow. -/
def joinDirs (dirs : Token) : List Token → List Token
  | [] => [.dirsBefore]
  | .dirsBefore :: done => .dirsBefore :: done
  | _ :: done => dirs :: done

/-- Reads a body behind the tokens read so far. Where a component begins, which is what `fresh`
says, two stars followed by a slash or by the end stand for directories and take the slash with
them. -/
def scan (done : List Token) (fresh : Bool) : List Char → List Token
  | [] => done.reverse
  | ['*', '*'] => (if fresh then joinDirs .dirsAfter done else .run :: .run :: done).reverse
  | '*' :: '*' :: '/' :: rest =>
    if fresh then scan (joinDirs .dirsBetween done) true rest
    else scan (.exact '/' :: .run :: .run :: done) true rest
  | '*' :: '*' :: rest => scan (.run :: .run :: done) false rest
  | c :: rest => scan (.ofChar c :: done) (c == '/') rest

def ofBody (body : List Char) : Glob := ⟨scan [] true body⟩

/-- Nothing but directories, which stand for everything. -/
def isDirsAlone (glob : Glob) : Bool := glob.tokens == [.dirsBefore]

def pieces (glob : Glob) : List Piece :=
  if glob.isDirsAlone then [.all] else glob.tokens.flatMap Token.pieces

def isPlain (glob : Glob) : Bool := glob.tokens.all Token.isPlain

def isPlainAfterDirs (glob : Glob) : Bool :=
  match glob.tokens with
  | .dirsBefore :: rest => rest.all Token.isPlain
  | _ => false

def isPlainBeforeDirs (glob : Glob) : Bool :=
  match glob.tokens.reverse with
  | .dirsAfter :: rest => rest.all Token.isPlain
  | _ => false

/-- Directories, then one name that is `*.` and a plain extension without a dot. -/
def isExtensionAfterDirs (glob : Glob) : Bool :=
  match glob.tokens with
  | .dirsBefore :: .run :: .exact '.' :: rest =>
    rest.all fun token => token.isPlainInName && token != .exact '.'
  | _ => false

def isPlainName (glob : Glob) : Bool :=
  match glob.tokens with
  | .dirsBefore :: token :: rest => (token :: rest).all Token.isPlainInName
  | _ => false

/-- Whether a dot occurs in the last name, behind every token that is not plain. -/
def endsInPlainDot (glob : Glob) : Bool :=
  (glob.tokens.reverse.takeWhile Token.isPlainInName).contains (.exact '.')

def lastComponent (w : List UInt8) : List UInt8 := (w.reverse.takeWhile (· != slash)).reverse

def parentName : List UInt8 := [0x2E, 0x2E]

/-- Names and extensions are looked up by the last component of a candidate, and `..` has
neither. -/
def missesParent (glob : Glob) : Bool :=
  glob.isPlainName || (!glob.isPlain && !glob.isPlainAfterDirs && glob.endsInPlainDot)

def accepts (glob : Glob) (w : List UInt8) : Bool :=
  fits glob.pieces w && !(glob.missesParent && lastComponent w == parentName)

end Glob

end PathSieve
