import PathSieve.Text.Quoted

/-!
# Diagnostic events

Compiling lines, building rulebooks, loading ignore files and deciding paths leave a log. A
`Traced` value is a result together with the log of its making, oldest event first.
-/

namespace PathSieve

set_option autoImplicit false

inductive Event
  | lineSkipped (ordinal : Nat)
  | ruleCompiled (raw : String) (ordinal : Nat) (negated directory : Bool)
  | comparedVerbatim (body reason : String)
  | rulebookBuilt (builtinCount customCount : Nat)
  | decided (path : String) (ignored : Bool) (rule : Option String)
  | fileLoaded (path : String) (lines : Nat)
  | fileMissing (path : String)
  deriving DecidableEq, Inhabited

namespace Event

inductive Level
  | debug
  | trace
  deriving DecidableEq, Inhabited

def Level.name : Level → String
  | .debug => "DEBUG"
  | .trace => "TRACE"

def level : Event → Level
  | .lineSkipped _ => .trace
  | .decided _ _ _ => .trace
  | _ => .debug

def target : String := "syncignore::filter"

def name : Event → String
  | .lineSkipped _ => "line_skipped"
  | .ruleCompiled _ _ _ _ => "rule_compiled"
  | .comparedVerbatim _ _ => "literal_fallback"
  | .rulebookBuilt _ _ => "rule_set_built"
  | .decided _ _ _ => "filter_decision"
  | .fileLoaded _ _ => "ignore_file_loaded"
  | .fileMissing _ => "ignore_file_missing"

def flag (b : Bool) : String := if b then "true" else "false"

/-- A rule is shown quoted, so that its absence differs from every rule. -/
def shownRule : Option String → String
  | none => "None"
  | some raw => "Some(" ++ Text.quoted raw ++ ")"

def fields : Event → List (String × String)
  | .lineSkipped ordinal => [("ordinal", toString ordinal)]
  | .ruleCompiled raw ordinal negated directory =>
    [("pattern", raw), ("ordinal", toString ordinal), ("negate", flag negated),
      ("directory_anchored", flag directory)]
  | .comparedVerbatim body reason => [("pattern", body), ("reason", reason)]
  | .rulebookBuilt builtinCount customCount =>
    [("default_rules", toString builtinCount), ("custom_rules", toString customCount)]
  | .decided path ignored rule =>
    [("path", path), ("ignored", flag ignored), ("matching_rule", shownRule rule)]
  | .fileLoaded path lines => [("path", path), ("lines", toString lines)]
  | .fileMissing path => [("path", path)]

end Event

structure Traced (α : Type) where
  value : α
  log : List Event
  deriving Inhabited

namespace Traced

def map {α β : Type} (f : α → β) (traced : Traced α) : Traced β := ⟨f traced.value, traced.log⟩

def bind {α β : Type} (traced : Traced α) (next : α → Traced β) : Traced β :=
  ⟨(next traced.value).value, traced.log ++ (next traced.value).log⟩

def collect {α : Type} (all : List (Traced α)) : Traced (List α) :=
  ⟨all.map Traced.value, all.flatMap Traced.log⟩

@[simp] theorem map_value {α β : Type} (f : α → β) (traced : Traced α) :
    (traced.map f).value = f traced.value := rfl

@[simp] theorem map_log {α β : Type} (f : α → β) (traced : Traced α) :
    (traced.map f).log = traced.log := rfl

@[simp] theorem bind_value {α β : Type} (traced : Traced α) (next : α → Traced β) :
    (traced.bind next).value = (next traced.value).value := rfl

@[simp] theorem bind_log {α β : Type} (traced : Traced α) (next : α → Traced β) :
    (traced.bind next).log = traced.log ++ (next traced.value).log := rfl

@[simp] theorem collect_value {α : Type} (all : List (Traced α)) :
    (collect all).value = all.map Traced.value := rfl

@[simp] theorem collect_log {α : Type} (all : List (Traced α)) :
    (collect all).log = all.flatMap Traced.log := rfl

end Traced

end PathSieve
