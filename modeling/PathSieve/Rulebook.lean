import PathSieve.Builtin
import PathSieve.Rule

/-!
# Rulebooks and verdicts

A rulebook holds built-in rules in front of custom ones, in one list and with their number. A path
is re-included by the first negated rule that matches it, whatever the other rules say; otherwise
the first matching rule ignores it.
-/

namespace PathSieve

set_option autoImplicit false

inductive Verdict
  | ignored (rule : Rule)
  | reincluded (rule : Rule)
  | unmatched
  deriving DecidableEq, Inhabited

namespace Verdict

def isIgnored : Verdict → Bool
  | .ignored _ => true
  | .reincluded _ => false
  | .unmatched => false

def rule? : Verdict → Option Rule
  | .ignored rule => some rule
  | .reincluded rule => some rule
  | .unmatched => none

end Verdict

/-- The rules in the order of their loading; the first `builtinCount` of them are built in. -/
structure Rulebook where
  rules : List Rule
  builtinCount : Nat
  deriving DecidableEq, Inhabited

namespace Rulebook

/-- The first `count` rules, if there are as many. -/
def leading? (rules : List Rule) (count : Nat) : Option (List Rule) :=
  if count ≤ rules.length then some (rules.take count) else none

/-- The rules behind the first `count`, if there are as many. -/
def behind? (rules : List Rule) (count : Nat) : Option (List Rule) :=
  if count ≤ rules.length then some (rules.drop count) else none

def builtin (book : Rulebook) : List Rule := (leading? book.rules book.builtinCount).getD []

def custom (book : Rulebook) : List Rule := (behind? book.rules book.builtinCount).getD []

def empty : Rulebook := ⟨[], 0⟩

/-- The rules of a list of lines; the ordinal of a rule is the number of its line. -/
def compileLines (lines : List String) : Traced (List Rule) :=
  (Traced.collect (lines.mapIdx fun i line => Rule.compile line (i + 1))).map
    (·.filterMap id)

def ofCompiled (rules : List Rule) (builtinCount : Nat) : Traced Rulebook :=
  ⟨⟨rules, builtinCount⟩, [.rulebookBuilt builtinCount (rules.length - builtinCount)]⟩

/-- The built-in rules, with the rule of the ignore file after the pattern table. -/
def builtinRules (fileName : String) : Traced (List Rule) :=
  (compileLines Builtin.patterns).bind fun table =>
    (Rule.ofFileName fileName (table.length + 1)).map fun fileRule =>
      (table ++ fileRule.toList).map Rule.asBuiltin

def withBuiltins (fileName : String) (lines : List String) : Traced Rulebook :=
  (builtinRules fileName).bind fun builtin =>
    (compileLines lines).bind fun custom => ofCompiled (builtin ++ custom) builtin.length

def ofLines (lines : List String) : Traced Rulebook :=
  (compileLines lines).bind fun rules => ofCompiled rules 0

def firstMatch? (rules : List Rule) (path : Path) (negated : Bool) : Option Rule :=
  rules.find? fun rule => rule.negated == negated && rule.matchesPath path

theorem firstMatch?_append (rules more : List Rule) (path : Path) (negated : Bool) :
    firstMatch? (rules ++ more) path negated =
      (firstMatch? rules path negated).or (firstMatch? more path negated) := by
  simp [firstMatch?, List.find?_append]

theorem firstMatch?_eq_none_iff (rules : List Rule) (path : Path) (negated : Bool) :
    firstMatch? rules path negated = none ↔
      ∀ rule ∈ rules, rule.negated = negated → rule.matchesPath path = false := by
  simp [firstMatch?, List.find?_eq_none]

def judge (book : Rulebook) (path : Path) : Verdict :=
  if path.isEmpty then .unmatched
  else match firstMatch? book.rules path true with
    | some rule => .reincluded rule
    | none => match firstMatch? book.rules path false with
      | some rule => .ignored rule
      | none => .unmatched

theorem judge_eq_unmatched_iff (book : Rulebook) (path : Path) :
    book.judge path = .unmatched ↔ ∀ rule ∈ book.rules, rule.matchesPath path = false := by
  rw [judge]
  split
  · rename_i hEmpty
    simp only [true_iff]
    intro rule _
    exact rule.matchesPath_of_isEmpty path hEmpty
  · constructor
    · intro h rule hRule
      split at h
      · cases h
      · rename_i hNegated
        split at h
        · cases h
        · rename_i hPlain
          cases hSign : rule.negated with
          | true => exact (firstMatch?_eq_none_iff _ _ _).mp hNegated rule hRule hSign
          | false => exact (firstMatch?_eq_none_iff _ _ _).mp hPlain rule hRule hSign
    · intro h
      have hNone : ∀ negated, firstMatch? book.rules path negated = none := fun negated =>
        (firstMatch?_eq_none_iff _ _ _).mpr fun rule hRule _ => h rule hRule
      rw [hNone true, hNone false]

def decideEvent (path : Path) (verdict : Verdict) : Event :=
  .decided path.text verdict.isIgnored (verdict.rule?.map Rule.raw)

def decide (book : Rulebook) (raw : String) : Traced Verdict :=
  let path := Path.ofString raw
  let verdict := book.judge path
  ⟨verdict, [decideEvent path verdict]⟩

def ignores (book : Rulebook) (raw : String) : Bool := (book.decide raw).value.isIgnored

end Rulebook

end PathSieve
