import PathSieve.Number.Binary64

/-!
# The shortest decimal of a double

The digits of a double are the fewest that read back as it. For each count of digits the two
neighbours of the value on the decimal grid of that count are tried; of two hits the nearer one
is taken, and of equally near ones the even one.
-/

namespace PathSieve.Shortest

set_option autoImplicit false

/-- The numbers that round to a double, over a common denominator. Both ends count exactly when
the mantissa is even. -/
structure Range where
  low : Nat
  value : Nat
  high : Nat
  den : Nat
  closed : Bool

/-- Below a power of two the doubles lie twice as close. -/
def rangeOf (x : Binary64) : Range :=
  let e := x.exponent - 2
  let up := Nat.pow 2 e.toNat
  let below := if x.mantissa = Nat.pow 2 52 ∧ Binary64.leastExponent < x.exponent then 1 else 2
  { low := (4 * x.mantissa - below) * up
    value := 4 * x.mantissa * up
    high := (4 * x.mantissa + 2) * up
    den := Nat.pow 2 (-e).toNat
    closed := x.mantissa % 2 = 0 }

def gridUnit (exponent : Int) : Nat × Nat :=
  (Nat.pow 10 exponent.toNat, Nat.pow 10 (-exponent).toNat)

def Range.holds (range : Range) (exponent : Int) (point : Nat) : Bool :=
  let unit := gridUnit exponent
  let x := point * unit.1 * range.den
  let low := range.low * unit.2
  let high := range.high * unit.2
  if range.closed then low ≤ x && x ≤ high else low < x && x < high

def Range.floor (range : Range) (exponent : Int) : Nat :=
  let unit := gridUnit exponent
  range.value * unit.2 / (unit.1 * range.den)

/-- Twice the distance of the value from a grid point, and the grid step, in common units. -/
def Range.remainder (range : Range) (exponent : Int) : Nat × Nat :=
  let unit := gridUnit exponent
  (2 * (range.value * unit.2 % (unit.1 * range.den)), unit.1 * range.den)

def Range.point? (range : Range) (exponent : Int) : Option Nat :=
  let down := range.floor exponent
  let gap := range.remainder exponent
  match range.holds exponent down, range.holds exponent (down + 1) with
  | true, true =>
    if gap.1 < gap.2 then some down
    else if gap.2 < gap.1 then some (down + 1)
    else some (down + down % 2)
  | true, false => some down
  | false, true => some (down + 1)
  | false, false => none

def leadingExponent (num den : Nat) : Int :=
  if den ≤ num then ((Nat.toDigits 10 (num / den)).length : Int) - 1
  else
    let missing := (List.range 400).find? fun n => den ≤ num * Nat.pow 10 n
    Int.negOfNat (missing.getD 0)

def digitsOf (x : Binary64) : List Char × Int :=
  let range := rangeOf x
  let lead := leadingExponent range.value range.den
  let found := (List.range 17).findSome? fun (n : Nat) =>
    (range.point? (lead - n)).map fun point => (point, lead - (n : Int))
  match found with
  | none => (['0'], 0)
  | some (point, exponent) =>
    let digits := Nat.toDigits 10 point
    let kept := (digits.reverse.dropWhile (· == '0')).reverse
    (kept, exponent + (digits.length : Int) - 1)

/-- A decimal exponent always shows its sign. -/
def exponentText (lead : Int) : List Char :=
  if lead < 0 then (toString lead).toList else '+' :: (toString lead).toList

/-- Positional notation holds for leading exponents from -5 to 15, and keeps one decimal place. -/
def layout (digits : List Char) (lead : Int) : List Char :=
  if lead < -5 ∨ 15 < lead then
    digits.take 1 ++ (if digits.length ≤ 1 then [] else '.' :: digits.drop 1) ++
      'e' :: exponentText lead
  else if lead < 0 then
    ['0', '.'] ++ List.replicate ((-lead).toNat - 1) '0' ++ digits
  else
    let whole := lead.toNat + 1
    if digits.length ≤ whole then
      digits ++ List.replicate (whole - digits.length) '0' ++ ['.', '0']
    else digits.take whole ++ '.' :: digits.drop whole

def text (negative : Bool) (x : Binary64) : String :=
  String.ofList ((if negative then ['-'] else []) ++
    if x.mantissa = 0 then ['0', '.', '0'] else layout (digitsOf x).1 (digitsOf x).2)

end PathSieve.Shortest
