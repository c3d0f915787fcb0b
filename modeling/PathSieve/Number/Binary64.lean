/-!
# Double-precision numbers

A double is a natural mantissa times a power of two. `ofRatio?` rounds a quotient to the nearest
double, a tie to the even mantissa. A decimal is read in steps, each rounded in this way: first
its digits, then a power of ten, then their product or quotient.
-/

namespace PathSieve

set_option autoImplicit false

/-- The magnitude `mantissa * 2 ^ exponent`. -/
structure Binary64 where
  mantissa : Nat
  exponent : Int
  deriving DecidableEq, Inhabited

namespace Binary64

def zero : Binary64 := ⟨0, 0⟩

def leastExponent : Int := -1074

def mantissaLimit : Nat := Nat.pow 2 53

def roundQuotient (num den : Nat) : Nat :=
  let q := num / den
  let r := num % den
  if 2 * r < den then q else if den < 2 * r then q + 1 else q + q % 2

/-- The quotient of `num` and `den * 2 ^ exponent`, as a quotient of natural numbers. -/
def scale (num den : Nat) (exponent : Int) : Nat × Nat :=
  (num * Nat.pow 2 (-exponent).toNat, den * Nat.pow 2 exponent.toNat)

/-- An exponent that leaves at least 53 bits, unless it is the least one. -/
def startExponent (num den : Nat) : Int :=
  max leastExponent ((Nat.log2 num : Int) - (Nat.log2 den : Int) - 53)

/-- The nearest double, if it is below `2 ^ 1024`. -/
def ofRatio? (num den : Nat) : Option Binary64 :=
  if num = 0 then some zero
  else
    let low := startExponent num den
    let first := scale num den low
    let exponent := if first.1 / first.2 < mantissaLimit then low else low + 1
    let scaled := scale num den exponent
    let mantissa := roundQuotient scaled.1 scaled.2
    if Nat.log2 mantissa + exponent < 1024 then some ⟨mantissa, exponent⟩ else none

def mul? (a b : Binary64) : Option Binary64 :=
  let e := a.exponent + b.exponent
  ofRatio? (a.mantissa * b.mantissa * Nat.pow 2 e.toNat) (Nat.pow 2 (-e).toNat)

def div? (a b : Binary64) : Option Binary64 :=
  let e := a.exponent - b.exponent
  ofRatio? (a.mantissa * Nat.pow 2 e.toNat) (b.mantissa * Nat.pow 2 (-e).toNat)

def powerStep : Nat := 308

def powerOfTen? (n : Nat) : Option Binary64 := ofRatio? (Nat.pow 10 n) 1

/-- Divides by a power of ten, by the largest step as long as the power exceeds it. Once a
quotient is zero it stays zero. -/
def scaleDown? (x : Binary64) (n : Nat) : Option Binary64 :=
  if x.mantissa = 0 then some zero
  else if n ≤ powerStep then do
    let power ← powerOfTen? n
    x.div? power
  else do
    let power ← powerOfTen? powerStep
    let next ← x.div? power
    scaleDown? next (n - powerStep)
termination_by n
decreasing_by simp only [powerStep] at *; omega

def ofDecimal? (digits : Nat) (exponent : Int) : Option Binary64 := do
  let start ← ofRatio? digits 1
  if start.mantissa = 0 then some zero
  else if exponent < 0 then start.scaleDown? (-exponent).toNat
  else if powerStep < exponent.toNat then none
  else
    let power ← powerOfTen? exponent.toNat
    start.mul? power

end Binary64

end PathSieve
