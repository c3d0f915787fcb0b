import PathSieve.Settings
import PathSieve.Text.Split

/-!
# Sieves

A sieve is a rulebook together with the knowledge whether an ignore file was read for it. It
keeps the paths that its rulebook does not ignore, in their order and spelling.
-/

namespace PathSieve

set_option autoImplicit false

structure Sieve where
  rulebook : Rulebook
  fileRead : Bool
  deriving DecidableEq, Inhabited

structure Summary where
  builtinCount : Nat
  fileRead : Bool
  deriving DecidableEq, Inhabited

/-- The lines of a pattern text; one byte-order mark in front is no part of them. -/
def patternLines (text : List Char) : List String :=
  let body := if text.head? = some '\uFEFF' then text.tail else text
  (Text.lines body).map String.ofList

namespace Sieve

def ofLines (settings : Settings) (lines : List String) : Traced Sieve :=
  (settings.rulebook lines).map (⟨·, false⟩)

def ofSettings (settings : Settings) : Traced Sieve := ofLines settings []

def ofText (text : String) : Traced Sieve := ofLines .standard (patternLines text.toList)

def ofFile (settings : Settings) (lines : List String) : Traced Sieve :=
  (settings.rulebook lines).map (⟨·, true⟩)

def explain (sieve : Sieve) (raw : String) : Traced Verdict := sieve.rulebook.decide raw

def ignores (sieve : Sieve) (raw : String) : Bool := (sieve.explain raw).value.isIgnored

/-- A path in bytes is read leniently first. -/
def ignoresBytes (sieve : Sieve) (raw : List UInt8) : Bool :=
  sieve.ignores (String.ofList (Text.decodeLenient raw))

def keep (sieve : Sieve) (paths : List String) : Traced (List String) :=
  (Traced.collect (paths.map fun raw =>
      (sieve.explain raw).map fun verdict => if verdict.isIgnored then none else some raw)).map
    (·.filterMap id)

def summary (sieve : Sieve) : Summary :=
  ⟨sieve.rulebook.builtinCount, sieve.fileRead⟩

end Sieve

end PathSieve
