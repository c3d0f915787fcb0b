import PathSieve.Text.Split
import PathSieve.Text.Utf8

/-!
# File trees

A file tree maps places to files and directories. A path is followed from the top one component
at a time: what it passes through must be directories, and a slash at its end asks for one. Only
a slash separates here; a backslash may be part of a name.
-/

namespace PathSieve

set_option autoImplicit false

inductive Entry
  | file (bytes : List UInt8)
  | directory
  deriving DecidableEq, Inhabited

/-- The names that lead to a place, the last one first; the top has none. -/
abbrev Place := List String

structure FileTree where
  entries : List (Place × Entry)
  deriving DecidableEq, Inhabited

/-- Why reading fails. Beyond the faults of a tree there are others, such as missing permissions,
each with the kind and the message that it is reported by. -/
inductive ReadFault
  | notFound
  | isDirectory
  | notDirectory
  | nameTooLong
  | nulInName
  | other (kind message : String)
  deriving DecidableEq, Inhabited

namespace ReadFault

def kind : ReadFault → String
  | .notFound => "NotFound"
  | .isDirectory => "IsADirectory"
  | .notDirectory => "NotADirectory"
  | .nameTooLong => "InvalidFilename"
  | .nulInName => "InvalidInput"
  | .other kind _ => kind

def message : ReadFault → String
  | .notFound => "No such file or directory (os error 2)"
  | .isDirectory => "Is a directory (os error 21)"
  | .notDirectory => "Not a directory (os error 20)"
  | .nameTooLong => "File name too long (os error 36)"
  | .nulInName => "file name contained an unexpected NUL byte"
  | .other _ message => message

/-- Whether there is nothing to read at the path. -/
def isMissing (fault : ReadFault) : Bool := fault.kind == "NotFound"

end ReadFault

namespace FileTree

def empty : FileTree := ⟨[]⟩

def at? (tree : FileTree) (place : Place) : Option Entry :=
  match place with
  | [] => some .directory
  | place => tree.entries.lookup place

def put (tree : FileTree) (place : Place) (entry : Entry) : FileTree :=
  ⟨(place, entry) :: tree.entries.filter fun e => e.1 != place⟩

def nameLimit : Nat := 255

def pathLimit : Nat := 4095

/-- The components of a path. A slash at the end counts as a last component `.`. -/
def components (path : List Char) : List String :=
  let parts := Text.splitBy (· == '/') path
  let named := (parts.filter fun part => !part.isEmpty).map String.ofList
  if parts.getLast? = some [] then named ++ ["."] else named

def enter (tree : FileTree) (place : Place) (name : String) : Except ReadFault Place :=
  if tree.at? place ≠ some .directory then .error .notDirectory
  else if name = "." then .ok place
  else if name = ".." then .ok place.tail
  else if nameLimit < Text.byteSize name.toList then .error .nameTooLong
  else if (tree.at? (name :: place)).isSome then .ok (name :: place)
  else .error .notFound

def follow (tree : FileTree) (place : Place) : List String → Except ReadFault Place
  | [] => .ok place
  | name :: names =>
    match tree.enter place name with
    | .ok next => follow tree next names
    | .error fault => .error fault

def locate (tree : FileTree) (path : List Char) : Except ReadFault Place :=
  if path.contains '\x00' then .error .nulInName
  else if path.isEmpty then .error .notFound
  else if pathLimit < Text.byteSize path then .error .nameTooLong
  else tree.follow [] (components path)

def read (tree : FileTree) (path : List Char) : Except ReadFault (List UInt8) :=
  match tree.locate path with
  | .error fault => .error fault
  | .ok place =>
    match tree.at? place with
    | some (.file bytes) => .ok bytes
    | some .directory => .error .isDirectory
    | none => .error .notFound

def enterOrMake (state : FileTree × Place) (name : String) : FileTree × Place :=
  if name = "." then state
  else if name = ".." then (state.1, state.2.tail)
  else
    let place := name :: state.2
    (if (state.1.at? place).isSome then state.1 else state.1.put place .directory, place)

def makeDirectory (tree : FileTree) (path : List Char) : FileTree :=
  ((components path).foldl enterOrMake (tree, [])).1

def write (tree : FileTree) (path : List Char) (bytes : List UInt8) : FileTree :=
  let names := components path
  let parent := names.dropLast.foldl enterOrMake (tree, [])
  match names.getLast? with
  | some name => parent.1.put (name :: parent.2) (.file bytes)
  | none => parent.1

def remove? (tree : FileTree) (path : List Char) : Option FileTree :=
  match tree.locate path with
  | .ok place => some ⟨tree.entries.filter fun e => !place.isSuffixOf e.1⟩
  | .error _ => none

/-- A relative path continues the root; an absolute one replaces it. -/
def join (root path : List Char) : List Char :=
  if path.head? = some '/' then path
  else if root.isEmpty || root.getLast? = some '/' then root ++ path
  else root ++ '/' :: path

end FileTree

end PathSieve
