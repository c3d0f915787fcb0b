import PathSieve.Text.Split
import PathSieve.Text.Utf8

/-!
# Candidate paths

A path is kept as its segments joined by slashes, together with the byte offset at which each
segment begins, so that a run of segments is one cut of the text. Either separator may be used
on input; empty and `.` segments are dropped, and `..` is a segment like any other.
-/

namespace PathSieve

set_option autoImplicit false

structure Path where
  chars : List Char
  starts : List Nat
  deriving DecidableEq, Inhabited

namespace Path

def isNamed (segment : List Char) : Bool := !segment.isEmpty && segment != ['.']

/-- The offset of each segment in the joined text; a slash takes one byte. -/
def offsets (segments : List (List Char)) : List Nat :=
  (segments.foldl (fun acc segment => (acc.2 :: acc.1, acc.2 + Text.byteSize segment + 1))
    (([], 0) : List Nat × Nat)).1.reverse

def ofSegments (segments : List (List Char)) : Path where
  chars := Text.joinWith '/' segments
  starts := offsets segments

def toSlash (c : Char) : Char := if c = '\\' then '/' else c

def stripDotSlashes : List Char → List Char
  | '.' :: '/' :: rest => stripDotSlashes rest
  | rest => rest

/-- Backslashes become slashes, `./` groups in front are taken off, and the named pieces between
the slashes that remain are the segments. -/
def ofString (raw : String) : Path :=
  ofSegments ((Text.splitBy (· == '/') (stripDotSlashes (raw.toList.map toSlash))).filter isNamed)

def text (path : Path) : String := String.ofList path.chars

def isEmpty (path : Path) : Bool := path.starts.isEmpty

def segmentCount (path : Path) : Nat := path.starts.length

def dropBytes? : Nat → List Char → Option (List Char)
  | 0, cs => some cs
  | _ + 1, [] => none
  | n + 1, c :: cs => if c.utf8Size ≤ n + 1 then dropBytes? (n + 1 - c.utf8Size) cs else none

/-- Keeps the first `n` bytes after those already taken, if a character ends there. -/
def takeBytes? (taken : List Char) : Nat → List Char → Option (List Char)
  | 0, _ => some taken.reverse
  | _ + 1, [] => none
  | n + 1, c :: cs =>
    if c.utf8Size ≤ n + 1 then takeBytes? (c :: taken) (n + 1 - c.utf8Size) cs else none

def cut? (first last : Nat) (cs : List Char) : Option (List Char) :=
  (dropBytes? first cs).bind (takeBytes? [] (last - first))

/-- The segments from `start` up to `stop`, joined by slashes. An empty or overlong range gives
nothing. -/
def range? (path : Path) (start stop : Nat) : Option (List Char) :=
  if start < stop ∧ stop ≤ path.segmentCount then
    path.starts[start]?.bind fun first =>
      let last := match path.starts[stop]? with
        | some next => next - 1
        | none => Text.byteSize path.chars
      cut? first last path.chars
  else none

def slice? (path : Path) (start stop : Nat) : Option String :=
  (path.range? start stop).map String.ofList

/-- An index is a machine word; the end of the range wraps to zero after the last one. -/
def segment? (path : Path) (index : UInt64) : Option String :=
  path.slice? index.toNat (index + 1).toNat

def segments (path : Path) : List String :=
  (List.range path.segmentCount).filterMap fun i => path.slice? i (i + 1)

def last? (path : Path) : Option String :=
  path.slice? (path.segmentCount - 1) path.segmentCount

theorem range?_eq_none_of_not_lt (path : Path) (start stop : Nat) (h : ¬ start < stop) :
    path.range? start stop = none := by
  simp [range?, h]

theorem range?_eq_none_of_count_lt (path : Path) (start stop : Nat)
    (h : path.segmentCount < stop) : path.range? start stop = none := by
  simp [range?, Nat.not_le_of_lt h]

end Path

end PathSieve
