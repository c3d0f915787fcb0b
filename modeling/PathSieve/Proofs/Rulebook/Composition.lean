import PathSieve.Proofs.Rulebook.Lines

/-!
# Rulebooks compose

Lines added behind others can be judged on their own. `decide_append` states that the verdict of
the longer list is merged from the verdicts of its two parts, rule and ordinal included.
-/

namespace PathSieve

set_option autoImplicit false

namespace Verdict

/-- A re-inclusion wins on either side, the left one before the right one; then an ignoring rule
does in the same order. -/
def merge : Verdict → Verdict → Verdict
  | .reincluded rule, _ => .reincluded rule
  | .ignored _, .reincluded rule => .reincluded rule
  | .ignored rule, .ignored _ => .ignored rule
  | .ignored rule, .unmatched => .ignored rule
  | .unmatched, right => right

def later (count : Nat) : Verdict → Verdict
  | .ignored rule => .ignored (rule.later count)
  | .reincluded rule => .reincluded (rule.later count)
  | .unmatched => .unmatched

end Verdict

namespace Rulebook

theorem firstMatch?_map_later (count : Nat) (rules : List Rule) (path : Path) (negated : Bool) :
    firstMatch? (rules.map (Rule.later count)) path negated =
      (firstMatch? rules path negated).map (Rule.later count) := by
  rw [firstMatch?, List.find?_map]
  simp only [Function.comp_def, Rule.negated_later, Rule.matchesPath_later]
  rfl

/-- Two scans of opposite sign over rules in two parts give one of nine pairs of outcomes, and
`merge` decides each. -/
theorem judge_append (book first second : Rulebook) (count : Nat) (path : Path)
    (h : book.rules = first.rules ++ second.rules.map (Rule.later count)) :
    book.judge path = (first.judge path).merge ((second.judge path).later count) := by
  rw [judge, judge, judge]
  cases path.isEmpty with
  | true => rfl
  | false =>
    simp only [Bool.false_eq_true, if_false, h, firstMatch?_append, firstMatch?_map_later]
    cases firstMatch? first.rules path true with
    | some rule => rfl
    | none =>
      cases firstMatch? second.rules path true with
      | some rule => cases firstMatch? first.rules path false <;> rfl
      | none =>
        cases firstMatch? first.rules path false with
        | some rule => cases firstMatch? second.rules path false <;> rfl
        | none => cases firstMatch? second.rules path false <;> rfl

theorem decide_append (fileName : String) (lines more : List String) (path : String) :
    ((withBuiltins fileName (lines ++ more)).value.decide path).value =
        ((withBuiltins fileName lines).value.decide path).value.merge
          (((ofLines more).value.decide path).value.later lines.length) ∧
      ((ofLines (lines ++ more)).value.decide path).value =
        ((ofLines lines).value.decide path).value.merge
          (((ofLines more).value.decide path).value.later lines.length) := by
  have hRules := compileLines_append lines more
  constructor
  · apply judge_append
    rw [withBuiltins_value, withBuiltins_value, ofLines_value, rules, rules, rules, hRules,
      List.append_assoc]
  · apply judge_append
    rw [ofLines_value, ofLines_value, ofLines_value, rules, rules, rules, hRules]

end Rulebook

end PathSieve
