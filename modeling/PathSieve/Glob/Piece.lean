/-!
# Glob pieces

A glob is matched as a sequence of pieces over bytes. `Spans` says which byte strings one piece
stands for, and `Matches` which ones a sequence does. `fits` decides `Matches`: reading the
sequence from its end, it keeps for every tail of the candidate whether the pieces read so far
match that tail.
-/

namespace PathSieve.Glob

set_option autoImplicit false

def slash : UInt8 := 0x2F

/-- What stands for a stretch of bytes: itself, any byte but a slash, any run of such bytes, any
run of whole directories with their slashes, or anything. -/
inductive Piece
  | byte (b : UInt8)
  | one
  | run
  | dirs
  | all
  deriving DecidableEq, Inhabited

def Piece.Spans : Piece → List UInt8 → Prop
  | .byte b, w => w = [b]
  | .one, w => ∃ b, b ≠ slash ∧ w = [b]
  | .run, w => slash ∉ w
  | .dirs, w => w = [] ∨ ∃ u, w = u ++ [slash]
  | .all, _ => True

def Matches : List Piece → List UInt8 → Prop
  | [], w => w = []
  | p :: ps, w => ∃ u v, w = u ++ v ∧ p.Spans u ∧ Matches ps v

/-- A column holds one truth value for each tail of a word, the whole word first and the empty
tail last. -/
abbrev Column := List Bool

/-- Whether a tail of `w` begins with an accepted byte and goes on with a tail of the column. -/
def stepOver (accepts : UInt8 → Bool) (w : List UInt8) (column : Column) : Column :=
  w.zipWith (fun b next => accepts b && next) column.tail ++ [false]

/-- Whether accepted bytes lead from a tail of `w` to some tail of the column. -/
def reach (accepts : UInt8 → Bool) (w : List UInt8) (column : Column) : Column :=
  (w.zip column).foldr
    (fun entry found => (entry.2 || (accepts entry.1 && found.headD false)) :: found)
    [column.getLastD false]

def pointwiseOr (column other : Column) : Column := column.zipWith (· || ·) other

def Piece.column (p : Piece) (w : List UInt8) (column : Column) : Column :=
  match p with
  | .byte b => stepOver (· == b) w column
  | .one => stepOver (· != slash) w column
  | .run => reach (· != slash) w column
  | .dirs =>
    pointwiseOr column (reach (fun _ => true) w (stepOver (· == slash) w column))
  | .all => reach (fun _ => true) w column

def endColumn (w : List UInt8) : Column := w.map (fun _ => false) ++ [true]

def columnOf (ps : List Piece) (w : List UInt8) : Column :=
  ps.foldr (fun p column => p.column w column) (endColumn w)

/-- Takes plain bytes off the front of pieces and word alike, as long as they agree. -/
def peel : List Piece → List UInt8 → Option (List Piece × List UInt8)
  | .byte b :: ps, c :: w => if c == b then peel ps w else none
  | .byte _ :: _, [] => none
  | ps, w => some (ps, w)

def fits (ps : List Piece) (w : List UInt8) : Bool :=
  match peel ps w with
  | none => false
  | some (ps, w) =>
    match peel ps.reverse w.reverse with
    | none => false
    | some (ps, w) => (columnOf ps.reverse w.reverse).headD false

end PathSieve.Glob
