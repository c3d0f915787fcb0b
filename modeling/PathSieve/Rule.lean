import PathSieve.Event
import PathSieve.Matcher
import PathSieve.Path
import PathSieve.Pattern

/-!
# Rules

A rule is a compiled pattern line, or the name of the ignore file itself. Its scope says which
part of a path its matcher is asked about; a directory rule asks about every leading run of
segments, and so carries whole subtrees.
-/

namespace PathSieve

set_option autoImplicit false

inductive Origin
  | builtin
  | custom
  deriving DecidableEq, Inhabited

def Origin.label : Origin → String
  | .builtin => "default"
  | .custom => "custom"

/-- What a matcher is asked about: the last segment, any run of segments at the end, or all
segments, where only some patterns say so by a leading slash. -/
inductive Scope
  | basename
  | anyDepth
  | rooted
  | wholePath
  deriving DecidableEq, Inhabited

def Scope.ofPattern (pattern : Pattern) : Scope :=
  if pattern.isRooted then .rooted
  else if pattern.isAnyDepth then .anyDepth
  else if pattern.isBasename then .basename
  else .wholePath

/-- The ordinal counts the lines of the source of a rule from one. -/
structure Rule where
  raw : String
  body : String
  ordinal : Nat
  origin : Origin
  negated : Bool
  directory : Bool
  scope : Scope
  matcher : Matcher
  deriving DecidableEq, Inhabited

namespace Rule

def ofPattern (raw : String) (pattern : Pattern) (ordinal : Nat) : Rule where
  raw := raw
  body := String.ofList pattern.body
  ordinal := ordinal
  origin := .custom
  negated := pattern.negated
  directory := pattern.isDirectory
  scope := Scope.ofPattern pattern
  matcher := Matcher.ofBody pattern.body

def compiledEvent (rule : Rule) : Event :=
  .ruleCompiled rule.raw rule.ordinal rule.negated rule.directory

/-- Compiles a line. Blank lines, comments and bare markers give no rule. -/
def compile (line : String) (ordinal : Nat) : Traced (Option Rule) :=
  let trimmed := Text.trim line.toList
  match Pattern.ofTrimmed? trimmed with
  | none => ⟨none, [.lineSkipped ordinal]⟩
  | some pattern =>
    let rule := ofPattern (String.ofList trimmed) pattern ordinal
    let glob := Glob.ofBody pattern.body
    ⟨some rule,
      (if glob.isOversized then [.comparedVerbatim rule.body glob.rejection] else []) ++
        [rule.compiledEvent]⟩

theorem compile_value (line : String) (ordinal : Nat) :
    (compile line ordinal).value = (Pattern.ofTrimmed? (Text.trim line.toList)).map
      fun pattern => ofPattern (String.ofList (Text.trim line.toList)) pattern ordinal := by
  rw [compile]
  cases Pattern.ofTrimmed? (Text.trim line.toList) <;> rfl

/-- The rule for a file of a given name: at any depth for a single segment, at that one place for
several. No character of the name is a marker or a wildcard. -/
def ofFileName (name : String) (ordinal : Nat) : Traced (Option Rule) :=
  let path := Path.ofString name
  if path.isEmpty then ⟨none, [.lineSkipped ordinal]⟩
  else
    let rule : Rule :=
      { raw := name, body := path.text, ordinal, origin := .custom, negated := false,
        directory := false, scope := if path.segmentCount = 1 then .basename else .rooted,
        matcher := .verbatim path.chars }
    ⟨some rule, [rule.compiledEvent]⟩

def asBuiltin (rule : Rule) : Rule := { rule with origin := .builtin }

def matchesLeading (rule : Rule) (path : Path) (count : Nat) : Bool :=
  match rule.scope with
  | .basename => (path.range? (count - 1) count).any rule.matcher.accepts
  | .anyDepth =>
    (List.range count).any fun start => (path.range? start count).any rule.matcher.accepts
  | .rooted => (path.range? 0 count).any rule.matcher.accepts
  | .wholePath => (path.range? 0 count).any rule.matcher.accepts

def matchesPath (rule : Rule) (path : Path) : Bool :=
  if path.isEmpty then false
  else if rule.directory then
    (List.range path.segmentCount).any fun i => rule.matchesLeading path (i + 1)
  else rule.matchesLeading path path.segmentCount

def label (rule : Rule) : String :=
  rule.origin.label ++ " rule #" ++ toString rule.ordinal ++ " '" ++ rule.raw ++ "'"

theorem matchesPath_of_isEmpty (rule : Rule) (path : Path) (h : path.isEmpty = true) :
    rule.matchesPath path = false := by
  simp [matchesPath, h]

end Rule

end PathSieve
