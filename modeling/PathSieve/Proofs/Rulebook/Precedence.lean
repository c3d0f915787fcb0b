import PathSieve.Path.Lemmas
import PathSieve.Proofs.Rulebook.Rearrangement

/-!
# Precedence

A negated rule that matches decides, and otherwise a plain one; among the rules of one sign the
first in load order does. `decide_precedence` states this for every rulebook, and that lines of
one sign can move a verdict in one direction only, wherever they are put.
-/

namespace PathSieve

set_option autoImplicit false

namespace Rulebook

def IsFirstMatch (rules : List Rule) (path : Path) (negated : Bool) (rule : Rule) : Prop :=
  rule.negated = negated ∧ rule.matchesPath path = true ∧
    ∃ before after, rules = before ++ rule :: after ∧
      ∀ other ∈ before, other.negated = negated → other.matchesPath path = false

theorem firstMatch?_eq_some_iff (rules : List Rule) (path : Path) (negated : Bool) (rule : Rule) :
    firstMatch? rules path negated = some rule ↔ IsFirstMatch rules path negated rule := by
  have hFails : ∀ other : Rule, (!(other.negated == negated && other.matchesPath path)) = true ↔
      (other.negated = negated → other.matchesPath path = false) := by
    intro other
    by_cases hSign : other.negated = negated <;> simp [hSign]
  rw [firstMatch?, List.find?_eq_some_iff_append, Bool.and_eq_true, beq_iff_eq, and_assoc]
  simp only [hFails, IsFirstMatch]

theorem hasMatch_iff_exists_first (rules : List Rule) (path : Path) (negated : Bool) :
    HasMatch rules path negated ↔ ∃ rule, IsFirstMatch rules path negated rule := by
  rw [← isSome_firstMatch?_iff, Option.isSome_iff_exists]
  simp only [firstMatch?_eq_some_iff]

theorem firstMatch?_eq_none_iff_not_hasMatch (rules : List Rule) (path : Path) (negated : Bool) :
    firstMatch? rules path negated = none ↔ ¬ HasMatch rules path negated := by
  rw [← isSome_firstMatch?_iff, Bool.not_eq_true, Option.isSome_eq_false_iff,
    Option.isNone_iff_eq_none]

/-- The shortcut for empty paths hides no match, so that two scans alone decide. -/
theorem judge_eq (book : Rulebook) (path : Path) :
    book.judge path =
      match firstMatch? book.rules path true with
      | some rule => .reincluded rule
      | none => match firstMatch? book.rules path false with
        | some rule => .ignored rule
        | none => .unmatched := by
  rw [judge]
  split
  · rename_i hEmpty
    have hNone : ∀ negated, firstMatch? book.rules path negated = none := fun negated =>
      (firstMatch?_eq_none_iff _ _ _).mpr fun rule _ _ => rule.matchesPath_of_isEmpty path hEmpty
    rw [hNone true, hNone false]
  · rfl

theorem judge_eq_reincluded_iff (book : Rulebook) (path : Path) (rule : Rule) :
    book.judge path = .reincluded rule ↔ IsFirstMatch book.rules path true rule := by
  rw [judge_eq, ← firstMatch?_eq_some_iff]
  cases firstMatch? book.rules path true with
  | some first => simp
  | none => cases firstMatch? book.rules path false <;> simp

theorem judge_eq_ignored_iff (book : Rulebook) (path : Path) (rule : Rule) :
    book.judge path = .ignored rule ↔
      ¬ HasMatch book.rules path true ∧ IsFirstMatch book.rules path false rule := by
  rw [judge_eq, ← firstMatch?_eq_some_iff, ← firstMatch?_eq_none_iff_not_hasMatch]
  cases firstMatch? book.rules path true with
  | some first => simp
  | none => cases firstMatch? book.rules path false <;> simp

theorem judge_eq_unmatched_iff_not_hasMatch (book : Rulebook) (path : Path) :
    book.judge path = .unmatched ↔ ∀ negated, ¬ HasMatch book.rules path negated := by
  rw [judge_eq_unmatched_iff]
  constructor
  · rintro h negated ⟨rule, hRule, _, hMatch⟩
    rw [h rule hRule] at hMatch
    cases hMatch
  · intro h rule hRule
    rw [← Bool.not_eq_true]
    intro hMatch
    exact h rule.negated ⟨rule, hRule, rfl, hMatch⟩

theorem ignores_eq_true_iff (book : Rulebook) (raw : String) :
    book.ignores raw = true ↔ ¬ HasMatch book.rules (Path.ofString raw) true ∧
      HasMatch book.rules (Path.ofString raw) false := by
  have hIgnored : book.ignores raw = true ↔
      ∃ rule, book.judge (Path.ofString raw) = .ignored rule := by
    rw [ignores, decide]
    cases book.judge (Path.ofString raw) <;> simp [Verdict.isIgnored]
  simp only [hIgnored, judge_eq_ignored_iff, exists_and_left, ← hasMatch_iff_exists_first]

/-! ## Lines of one sign -/

def IsNegatedLine (line : String) : Prop := (Text.trim line.toList).head? = some '!'

instance : DecidablePred IsNegatedLine := fun line =>
  inferInstanceAs (Decidable ((Text.trim line.toList).head? = some '!'))

theorem exists_line_of_hasMatch {lines : List String} {path : Path} {negated : Bool}
    (h : HasMatch (compileLines lines).value path negated) :
    ∃ line ∈ lines, (negated = true ↔ IsNegatedLine line) := by
  obtain ⟨text, hText, pattern, hPattern, hNegated, _⟩ :=
    (hasMatch_compileLines_iff lines path negated).mp h
  obtain ⟨line, hLine, rfl⟩ := List.mem_map.mp (List.mem_filter.mp hText).1
  refine ⟨line, hLine, ?_⟩
  rw [Pattern.read?] at hPattern
  split at hPattern
  · cases hPattern
  · rw [← hNegated, ← Option.some.inj hPattern]
    exact beq_iff_eq

theorem hasMatch_compileLines_perm_iff {lines more merged : List String}
    (h : merged.Perm (lines ++ more)) (path : Path) (negated : Bool) :
    HasMatch (compileLines merged).value path negated ↔
      HasMatch (compileLines lines).value path negated ∨
        HasMatch (compileLines more).value path negated := by
  have hTexts : ∀ text, text ∈ textsOf merged ↔ text ∈ textsOf lines ∨ text ∈ textsOf more := by
    intro text
    have hPerm := (h.map fun line => Text.trim line.toList).filter fun text =>
      !(text.isEmpty || Pattern.isComment text)
    rw [List.map_append, List.filter_append] at hPerm
    exact hPerm.mem_iff.trans List.mem_append
  simp only [hasMatch_compileLines_iff, hTexts, or_and_right, exists_or]

/-- What matches in the larger rulebook matches in the smaller one or among the added rules. -/
def AddsMatchesOf (other book : Rulebook) (added : List Rule) : Prop :=
  ∀ path negated, HasMatch other.rules path negated ↔
    HasMatch book.rules path negated ∨ HasMatch added path negated

theorem addsMatchesOf_merged {lines more merged : List String}
    (h : merged.Perm (lines ++ more)) (fileName : String) :
    AddsMatchesOf (withBuiltins fileName merged).value (withBuiltins fileName lines).value
        (compileLines more).value ∧
      AddsMatchesOf (ofLines merged).value (ofLines lines).value (compileLines more).value := by
  constructor
  · intro path negated
    rw [withBuiltins_value, withBuiltins_value, rules, rules, hasMatch_append_iff,
      hasMatch_append_iff, hasMatch_compileLines_perm_iff h, or_assoc]
  · exact hasMatch_compileLines_perm_iff h

/-- Added negated rules leave the plain matches alone. -/
theorem ignores_of_added_negated {book other : Rulebook} {more : List String}
    (hAdds : AddsMatchesOf other book (compileLines more).value)
    (hMore : ∀ line ∈ more, IsNegatedLine line) {raw : String}
    (h : other.ignores raw = true) : book.ignores raw = true := by
  rw [ignores_eq_true_iff, hAdds, hAdds] at h
  obtain ⟨hNegated, hPlain⟩ := h
  rw [ignores_eq_true_iff]
  refine ⟨fun hMatch => hNegated (.inl hMatch), hPlain.resolve_right ?_⟩
  intro hMatch
  obtain ⟨line, hLine, hSign⟩ := exists_line_of_hasMatch hMatch
  exact Bool.false_ne_true (hSign.mpr (hMore line hLine))

/-- Added plain rules leave the negated matches alone. -/
theorem ignores_of_added_plain {book other : Rulebook} {more : List String}
    (hAdds : AddsMatchesOf other book (compileLines more).value)
    (hMore : ∀ line ∈ more, ¬ IsNegatedLine line) {raw : String}
    (h : book.ignores raw = true) : other.ignores raw = true := by
  rw [ignores_eq_true_iff] at h
  obtain ⟨hNegated, hPlain⟩ := h
  rw [ignores_eq_true_iff, hAdds, hAdds]
  refine ⟨?_, .inl hPlain⟩
  rintro (hMatch | hMatch)
  · exact hNegated hMatch
  · obtain ⟨line, hLine, hSign⟩ := exists_line_of_hasMatch hMatch
    exact hMore line hLine (hSign.mp rfl)

/-- The verdict names the first negated rule that matches, or else the first plain one. No rule
matches a path without segments. Added negated lines never make a kept path ignored, and added
plain lines never make an ignored path kept, wherever they stand among the others. -/
theorem decide_precedence (book : Rulebook) (raw : String) :
    (∀ rule, (book.decide raw).value = .reincluded rule ↔
      IsFirstMatch book.rules (Path.ofString raw) true rule) ∧
    ((∃ rule, (book.decide raw).value = .reincluded rule) ↔
      HasMatch book.rules (Path.ofString raw) true) ∧
    (∀ rule, (book.decide raw).value = .ignored rule ↔
      ¬ HasMatch book.rules (Path.ofString raw) true ∧
        IsFirstMatch book.rules (Path.ofString raw) false rule) ∧
    ((∃ rule, (book.decide raw).value = .ignored rule) ↔
      ¬ HasMatch book.rules (Path.ofString raw) true ∧
        HasMatch book.rules (Path.ofString raw) false) ∧
    ((book.decide raw).value = .unmatched ↔
      ∀ negated, ¬ HasMatch book.rules (Path.ofString raw) negated) ∧
    ((Path.ofString raw).isEmpty = true ↔ (Path.ofString raw).segments = []) ∧
    ((Path.ofString raw).segments = [] →
      ∀ rule : Rule, rule.matchesPath (Path.ofString raw) = false) ∧
    ∀ fileName lines more merged, List.Perm merged (lines ++ more) →
      ((∀ line ∈ more, IsNegatedLine line) →
        ((withBuiltins fileName lines).value.ignores raw = false →
          (withBuiltins fileName merged).value.ignores raw = false) ∧
        ((ofLines lines).value.ignores raw = false →
          (ofLines merged).value.ignores raw = false)) ∧
      ((∀ line ∈ more, ¬ IsNegatedLine line) →
        ((withBuiltins fileName lines).value.ignores raw = true →
          (withBuiltins fileName merged).value.ignores raw = true) ∧
        ((ofLines lines).value.ignores raw = true →
          (ofLines merged).value.ignores raw = true)) := by
  refine ⟨judge_eq_reincluded_iff book _, ?_, judge_eq_ignored_iff book _, ?_,
    judge_eq_unmatched_iff_not_hasMatch book _, Path.isEmpty_ofString_iff raw, ?_, ?_⟩
  · rw [hasMatch_iff_exists_first]
    exact exists_congr (judge_eq_reincluded_iff book _)
  · rw [hasMatch_iff_exists_first _ _ false, ← exists_and_left]
    exact exists_congr (judge_eq_ignored_iff book _)
  · intro hSegments rule
    exact rule.matchesPath_of_isEmpty _ ((Path.isEmpty_ofString_iff raw).mpr hSegments)
  · intro fileName lines more merged hMerged
    obtain ⟨hTable, hAlone⟩ := addsMatchesOf_merged hMerged fileName
    constructor
    · intro hMore
      simp only [← Bool.not_eq_true]
      exact ⟨mt (ignores_of_added_negated hTable hMore),
        mt (ignores_of_added_negated hAlone hMore)⟩
    · intro hMore
      exact ⟨ignores_of_added_plain hTable hMore, ignores_of_added_plain hAlone hMore⟩

theorem decide_precedence_interleaved :
    List.Perm [" !keep.*", "*.log", "!src/"] (["*.log", "!src/"] ++ [" !keep.*"]) ∧
      (∀ line ∈ [" !keep.*"], IsNegatedLine line) ∧
      (ofLines ["*.log", "!src/"]).value.ignores "src/a.log" = false ∧
      (ofLines [" !keep.*", "*.log", "!src/"]).value.ignores "src/a.log" = false ∧
      List.Perm ["# logs", "*.log", "a*", "!src/"] (["*.log", "!src/"] ++ ["# logs", "a*"]) ∧
      (∀ line ∈ ["# logs", "a*"], ¬ IsNegatedLine line) ∧
      (ofLines ["*.log", "!src/"]).value.ignores "lib/a.log" = true ∧
      (ofLines ["# logs", "*.log", "a*", "!src/"]).value.ignores "lib/a.log" = true ∧
      (Path.ofString "./\\/.").segments = [] ∧
      ∀ rule : Rule, rule.matchesPath (Path.ofString "./\\/.") = false := by
  obtain ⟨_, _, _, _, _, _, _, hKept⟩ := decide_precedence empty "src/a.log"
  obtain ⟨_, _, _, _, _, _, _, hIgnored⟩ := decide_precedence empty "lib/a.log"
  obtain ⟨_, _, _, _, _, _, hNoSegment, _⟩ := decide_precedence empty "./\\/."
  have hFirst : List.Perm [" !keep.*", "*.log", "!src/"] (["*.log", "!src/"] ++ [" !keep.*"]) := by
    decide
  have hSecond : List.Perm ["# logs", "*.log", "a*", "!src/"]
      (["*.log", "!src/"] ++ ["# logs", "a*"]) := by decide
  have hNegated : ∀ line ∈ [" !keep.*"], IsNegatedLine line := by decide
  have hPlain : ∀ line ∈ ["# logs", "a*"], ¬ IsNegatedLine line := by decide
  have hBefore : (ofLines ["*.log", "!src/"]).value.ignores "src/a.log" = false := by decide
  have hBefore' : (ofLines ["*.log", "!src/"]).value.ignores "lib/a.log" = true := by decide
  have hEmpty : (Path.ofString "./\\/.").segments = [] := by decide
  exact ⟨hFirst, hNegated, hBefore, ((hKept "" _ _ _ hFirst).1 hNegated).2 hBefore,
    hSecond, hPlain, hBefore', ((hIgnored "" _ _ _ hSecond).2 hPlain).2 hBefore',
    hEmpty, hNoSegment hEmpty⟩

end Rulebook

end PathSieve
