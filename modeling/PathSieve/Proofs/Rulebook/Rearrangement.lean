import PathSieve.Proofs.Rulebook.Lines

/-!
# Rearranged lines

The kind of a verdict only asks whether some rule of each sign matches. So it depends on the set
of pattern texts among the lines, and not on their order, their number or what stands between
them, as `kind_eq_of_texts` states.
-/

namespace PathSieve

set_option autoImplicit false

inductive Verdict.Kind
  | ignored
  | reincluded
  | unmatched
  deriving DecidableEq, Inhabited

def Verdict.kind : Verdict → Verdict.Kind
  | .ignored _ => .ignored
  | .reincluded _ => .reincluded
  | .unmatched => .unmatched

namespace Rulebook

/-- The trimmed lines that are neither empty nor comments. -/
def textsOf (lines : List String) : List (List Char) :=
  (lines.map fun line => Text.trim line.toList).filter fun text =>
    !(text.isEmpty || Pattern.isComment text)

def HasMatch (rules : List Rule) (path : Path) (negated : Bool) : Prop :=
  ∃ rule ∈ rules, rule.negated = negated ∧ rule.matchesPath path = true

theorem isSome_firstMatch?_iff (rules : List Rule) (path : Path) (negated : Bool) :
    (firstMatch? rules path negated).isSome = true ↔ HasMatch rules path negated := by
  rw [firstMatch?, List.find?_isSome]
  simp [HasMatch]

theorem hasMatch_append_iff (rules more : List Rule) (path : Path) (negated : Bool) :
    HasMatch (rules ++ more) path negated ↔
      HasMatch rules path negated ∨ HasMatch more path negated := by
  constructor
  · rintro ⟨rule, hRule, hMatch⟩
    rcases List.mem_append.mp hRule with hRule | hRule
    · exact .inl ⟨rule, hRule, hMatch⟩
    · exact .inr ⟨rule, hRule, hMatch⟩
  · rintro (⟨rule, hRule, hMatch⟩ | ⟨rule, hRule, hMatch⟩)
    · exact ⟨rule, List.mem_append_left _ hRule, hMatch⟩
    · exact ⟨rule, List.mem_append_right _ hRule, hMatch⟩

theorem kind_judge (book : Rulebook) (path : Path) :
    (book.judge path).kind =
      if path.isEmpty then .unmatched
      else if (firstMatch? book.rules path true).isSome then .reincluded
      else if (firstMatch? book.rules path false).isSome then .ignored
      else .unmatched := by
  rw [judge]
  cases path.isEmpty with
  | true => rfl
  | false =>
    cases firstMatch? book.rules path true with
    | some rule => rfl
    | none => cases firstMatch? book.rules path false <;> rfl

theorem kind_judge_congr (book other : Rulebook) (path : Path)
    (h : ∀ negated, HasMatch book.rules path negated ↔ HasMatch other.rules path negated) :
    (book.judge path).kind = (other.judge path).kind := by
  have hSome : ∀ negated, (firstMatch? book.rules path negated).isSome =
      (firstMatch? other.rules path negated).isSome := by
    intro negated
    rw [Bool.eq_iff_iff, isSome_firstMatch?_iff, isSome_firstMatch?_iff, h]
  rw [kind_judge, kind_judge, hSome true, hSome false]

theorem hasMatch_compileLines_iff (lines : List String) (path : Path) (negated : Bool) :
    HasMatch (compileLines lines).value path negated ↔ ∃ text ∈ textsOf lines,
      ∃ pattern, Pattern.read? text = some pattern ∧ pattern.negated = negated ∧
        (Rule.ofPattern (String.ofList text) pattern 0).matchesPath path = true := by
  constructor
  · rintro ⟨rule, hRule, hNegated, hMatch⟩
    obtain ⟨i, line, hLine, hCompile⟩ := (mem_compileLines_iff lines rule).mp hRule
    rw [Rule.compile_value] at hCompile
    obtain ⟨pattern, hPattern, rfl⟩ := Option.map_eq_some_iff.mp hCompile
    rw [Pattern.ofTrimmed?] at hPattern
    split at hPattern
    · cases hPattern
    · rename_i hText
      refine ⟨Text.trim line.toList, ?_, pattern, hPattern, hNegated, hMatch⟩
      refine List.mem_filter.mpr ⟨?_, by simpa using hText⟩
      exact List.mem_map.mpr ⟨line, List.mem_of_getElem? hLine, rfl⟩
  · rintro ⟨text, hText, pattern, hPattern, hNegated, hMatch⟩
    obtain ⟨hMem, hKept⟩ := List.mem_filter.mp hText
    obtain ⟨line, hLine, rfl⟩ := List.mem_map.mp hMem
    obtain ⟨i, hi⟩ := List.getElem?_of_mem hLine
    refine ⟨Rule.ofPattern (String.ofList (Text.trim line.toList)) pattern (i + 1),
      (mem_compileLines_iff lines _).mpr ⟨i, line, hi, ?_⟩, hNegated, hMatch⟩
    rw [Rule.compile_value, Pattern.ofTrimmed?, if_neg (by simpa using hKept), hPattern]
    rfl

theorem hasMatch_compileLines_congr {lines other : List String}
    (h : ∀ text, text ∈ textsOf lines ↔ text ∈ textsOf other) (path : Path) (negated : Bool) :
    HasMatch (compileLines lines).value path negated ↔
      HasMatch (compileLines other).value path negated := by
  rw [hasMatch_compileLines_iff, hasMatch_compileLines_iff]
  simp only [h]

/-- Lists of lines with the same texts give verdicts of the same kind on every path, behind the
built-in rules and without them. -/
theorem kind_eq_of_texts {lines other : List String}
    (h : ∀ text, text ∈ textsOf lines ↔ text ∈ textsOf other) (fileName path : String) :
    ((withBuiltins fileName lines).value.decide path).value.kind =
        ((withBuiltins fileName other).value.decide path).value.kind ∧
      ((ofLines lines).value.decide path).value.kind =
        ((ofLines other).value.decide path).value.kind := by
  have hMatch := hasMatch_compileLines_congr h (Path.ofString path)
  constructor
  · apply kind_judge_congr
    intro negated
    rw [rules, rules, withBuiltins_value, withBuiltins_value, hasMatch_append_iff,
      hasMatch_append_iff, hMatch]
  · apply kind_judge_congr
    intro negated
    exact hMatch negated

theorem kind_eq_of_texts_logs :
    textsOf ["*.log", "# logs", "  !keep.log\t"] = ["*.log".toList, "!keep.log".toList] ∧
      textsOf ["!keep.log", "", "*.log ", "*.log"] =
        ["!keep.log".toList, "*.log".toList, "*.log".toList] ∧
      ((withBuiltins ".syncignore" ["*.log", "# logs", "  !keep.log\t"]).value.decide
          "a/keep.log").value.kind =
        ((withBuiltins ".syncignore" ["!keep.log", "", "*.log ", "*.log"]).value.decide
          "a/keep.log").value.kind := by
  have hLines : textsOf ["*.log", "# logs", "  !keep.log\t"] =
      ["*.log".toList, "!keep.log".toList] := by decide
  have hOther : textsOf ["!keep.log", "", "*.log ", "*.log"] =
      ["!keep.log".toList, "*.log".toList, "*.log".toList] := by decide
  refine ⟨hLines, hOther, (kind_eq_of_texts ?_ ".syncignore" "a/keep.log").1⟩
  intro text
  rw [hLines, hOther]
  simp only [List.mem_cons, List.not_mem_nil, or_false, or_self]
  exact or_comm

end Rulebook

end PathSieve
