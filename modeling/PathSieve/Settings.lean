import PathSieve.Rulebook

/-!
# Settings

The name of the ignore file in a workspace, and whether the built-in patterns stand in front of
the custom ones.
-/

namespace PathSieve

set_option autoImplicit false

structure Settings where
  fileName : String
  withBuiltins : Bool
  deriving DecidableEq

namespace Settings

def standard : Settings := ⟨".syncignore", true⟩

instance : Inhabited Settings := ⟨standard⟩

/-- Without the built-in patterns, the name of the ignore file adds no rule either. -/
def rulebook (settings : Settings) (lines : List String) : Traced Rulebook :=
  if settings.withBuiltins then Rulebook.withBuiltins settings.fileName lines
  else Rulebook.ofLines lines

def setFileName (settings : Settings) (fileName : String) : Settings := { settings with fileName }

def setWithBuiltins (settings : Settings) (withBuiltins : Bool) : Settings :=
  { settings with withBuiltins }

def overlay (settings : Settings) (fileName? : Option String) (withBuiltins? : Option Bool) :
    Settings :=
  ⟨fileName?.getD settings.fileName, withBuiltins?.getD settings.withBuiltins⟩

theorem overlay_eq_setters (settings : Settings) (fileName? : Option String)
    (withBuiltins? : Option Bool) :
    settings.overlay fileName? withBuiltins? =
      withBuiltins?.toList.foldl setWithBuiltins (fileName?.toList.foldl setFileName settings) := by
  cases fileName? <;> cases withBuiltins? <;> rfl

end Settings

end PathSieve
