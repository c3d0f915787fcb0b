import PathSieve.Proofs.Glob.Literal
import PathSieve.Proofs.Rule.Reading

/-!
# Comparing a body verbatim

Every component of a body reads itself, a `**` as one segment of that name, so a glob accepts its
own text unless the look-up by name denies it. What a body accepts verbatim its glob accepts too,
and `matchesPath_of_verbatim` states this for whole rules: a rule that compares its body verbatim,
because the glob is oversized, only ever matches less.
-/

namespace PathSieve

open Text

set_option autoImplicit false

namespace Glob

theorem spells_self (name : List Char) : Spells name (encode name) := by
  induction name with
  | nil => rfl
  | cons c name ih =>
    rw [encode_cons]
    by_cases hStar : c = '*'
    · rw [hStar]
      exact ⟨_, _, rfl, ih⟩
    · by_cases hOne : c = '?'
      · rw [hOne]
        exact ⟨_, _, rfl, ih⟩
      · rw [Spells]
        · exact ⟨_, rfl, ih⟩
        · exact hStar
        · exact hOne

theorem reads_self (components : List (List Char)) : Reads components components := by
  induction components using componentsInduction with
  | nil => exact .done
  | dirs rest ih =>
    by_cases hRest : rest = []
    · rw [hRest]
      exact .dirsLast (List.cons_ne_nil _ _)
    · exact .dirs [dirsComponent] hRest ih
  | name component rest hName ih => exact .name hName (spells_self component) ih

variable {body : List Char}

theorem fits_self (hLast : (splitBy (· == '/') body).getLast? ≠ some []) :
    fits (ofBody body).pieces (encode body) = true := by
  have hReads := fits_ofBody_iff_reads body (splitBy (· == '/') body) hLast (splitBy_ne_nil _ _)
    (not_mem_of_mem_components body)
  rw [joinWith_splitBy] at hReads
  exact hReads.mpr (reads_self _)

theorem accepts_self_iff (hLast : (splitBy (· == '/') body).getLast? ≠ some []) :
    (ofBody body).accepts (encode body) = true ↔
      ¬ ((ofBody body).missesParent = true ∧ EndsInParent body) := by
  rw [accepts, fits_self hLast, Bool.true_and, Bool.not_eq_true', Bool.and_eq_false_iff,
    Bool.eq_false_iff, beq_eq_false_iff_ne, Ne, Ne, lastComponent_encode_eq_iff,
    Decidable.not_and_iff_not_or_not]

end Glob

theorem Matcher.accepts_of_verbatim {body candidate : List Char}
    (hLast : (splitBy (· == '/') body).getLast? ≠ some []) (hParent : ¬ Glob.EndsInParent body)
    (h : (verbatim body).accepts candidate = true) :
    (wildcards (Glob.ofBody body)).accepts candidate = true := by
  rw [accepts, beq_iff_eq] at h
  rw [accepts, ← h, Glob.accepts_self_iff hLast]
  exact fun hMisses => hParent hMisses.2

namespace Rule

def comparedVerbatim (rule : Rule) : Rule :=
  { rule with matcher := .verbatim rule.body.toList }

def readAsGlob (rule : Rule) : Rule :=
  { rule with matcher := .wildcards (Glob.ofBody rule.body.toList) }

theorem eq_of_compile {line : String} {ordinal : Nat} {rule : Rule}
    (hRule : (compile line ordinal).value = some rule) :
    rule.matcher.isVerbatim = true ∧ rule = rule.comparedVerbatim ∨
      rule.matcher.isVerbatim = false ∧ rule = rule.readAsGlob := by
  have hMatcher := matcher_of_compile hRule
  rw [comparedVerbatim, readAsGlob]
  rcases Matcher.ofBody_cases rule.body.toList with ⟨hVerbatim, hBody⟩ | ⟨hGlob, hBody⟩
  · rw [← hMatcher] at hVerbatim
    rw [← hBody, ← hMatcher]
    exact .inl ⟨hVerbatim, rfl⟩
  · rw [← hMatcher] at hGlob
    rw [← hBody, ← hMatcher]
    exact .inr ⟨hGlob, rfl⟩

/-- Unless a body ends in the component `..`, its glob accepts the body itself, and with it
whatever comparing verbatim accepts. Of the two ways to match a compiled line, by its glob or
verbatim where the glob is oversized, the latter matches no path that the former does not. -/
theorem matchesPath_of_verbatim {line : String} {ordinal : Nat} {rule : Rule}
    (hRule : (compile line ordinal).value = some rule)
    (hParent : ¬ Glob.EndsInParent rule.body.toList) :
    (rule.matcher.isVerbatim = false →
      rule.matcher.accepts rule.body.toList = true ∧
      ∀ candidate, (Matcher.verbatim rule.body.toList).accepts candidate = true →
        rule.matcher.accepts candidate = true) ∧
    (rule.matcher.isVerbatim = true ∧ rule = rule.comparedVerbatim ∨
      rule.matcher.isVerbatim = false ∧ rule = rule.readAsGlob) ∧
    ∀ path : String, rule.comparedVerbatim.matchesPath (Path.ofString path) = true →
      rule.readAsGlob.matchesPath (Path.ofString path) = true := by
  have hAccepts : ∀ candidate, rule.comparedVerbatim.matcher.accepts candidate = true →
      rule.readAsGlob.matcher.accepts candidate = true := fun _ =>
    Matcher.accepts_of_verbatim (getLast?_components_of_compile hRule) hParent
  refine ⟨?_, eq_of_compile hRule, ?_⟩
  · intro hGlob
    have hMatcher := matcher_of_compile hRule
    rw [hMatcher] at hGlob
    rw [hMatcher, Matcher.ofBody_eq_wildcards hGlob]
    exact ⟨hAccepts _ (beq_self_eq_true _), hAccepts⟩
  · intro path hMatches
    exact matchesPath_of_accepts hAccepts rfl rfl hMatches

theorem matchesPath_of_verbatim_dirs : ∃ rule : Rule,
    (compile "**/a**/**/?é/**" 4).value = some rule ∧
      ¬ Glob.EndsInParent rule.body.toList ∧ rule.matcher.isVerbatim = false ∧
      rule.matcher.accepts "a**/**/?é/**".toList = true ∧
      rule.comparedVerbatim.matchesPath (Path.ofString "x\\a**/**/?é/**") = true ∧
      rule.readAsGlob.matchesPath (Path.ofString "x\\a**/**/?é/**") = true := by
  have hRule : (compile "**/a**/**/?é/**" 4).value =
      some (ofPattern "**/a**/**/?é/**" ⟨false, 0, 1, "a**/**/?é/**".toList, 0⟩ 4) := by decide
  obtain ⟨hSelf, _, hMatches⟩ := matchesPath_of_verbatim hRule (by decide)
  exact ⟨_, hRule, by decide, by decide, (hSelf (by decide)).1, by decide, hMatches _ (by decide)⟩

end Rule

end PathSieve
