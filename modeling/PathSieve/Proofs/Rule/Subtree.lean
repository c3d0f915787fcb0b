import PathSieve.Proofs.Rule.Matching
import PathSieve.Proofs.Rulebook.Precedence

/-!
# Whole subtrees

A directory rule looks in every leading run of segments, so what it finds in a path it finds again
when more segments follow. A rule that looks from the end finds it behind other segments as well.
`matchesPath_subtree` states both for all spellings of the longer path, and what they mean for the
verdict of a rulebook.
-/

namespace PathSieve

open Text

set_option autoImplicit false

theorem Path.segmentsOf_slash (before after : String) :
    segmentsOf (before ++ "/" ++ after).toList =
      segmentsOf before.toList ++ segmentsOf after.toList := by
  rw [String.toList_append, String.toList_append, List.append_assoc]
  exact segmentsOf_append_cons _ _ '/' rfl

/-- Whether a scope looks from the end of a path, wherever the path begins. -/
def Scope.looksFromEnd : Scope → Bool
  | .basename => true
  | .anyDepth => true
  | .rooted => false
  | .wholePath => false

theorem Scope.Finds.append_left {scope : Scope} {test : List (List Char) → Prop}
    {segments : List (List Char)} (h : scope.Finds test segments)
    (hScope : scope.looksFromEnd = true) (before : List (List Char)) :
    scope.Finds test (before ++ segments) := by
  cases scope with
  | basename =>
    obtain ⟨segment, hLast, hTest⟩ := h
    refine ⟨segment, ?_, hTest⟩
    rw [List.getLast?_append, hLast, Option.some_or]
  | anyDepth =>
    obtain ⟨run, hSome, hSuffix, hTest⟩ := h
    exact ⟨run, hSome, hSuffix.trans (List.suffix_append before segments), hTest⟩
  | rooted => cases hScope
  | wholePath => cases hScope

namespace Rule

theorem Covers.append_right {rule : Rule} {test : List (List Char) → Prop}
    {segments : List (List Char)} (h : rule.Covers test segments)
    (hDirectory : rule.directory = true) (after : List (List Char)) :
    rule.Covers test (segments ++ after) := by
  rw [Covers, if_pos hDirectory] at h ⊢
  obtain ⟨leading, hSome, hPrefix, hFinds⟩ := h
  exact ⟨leading, hSome, hPrefix.trans (List.prefix_append segments after), hFinds⟩

theorem Covers.append_left {rule : Rule} {test : List (List Char) → Prop}
    {segments : List (List Char)} (h : rule.Covers test segments)
    (hScope : rule.scope.looksFromEnd = true) (before : List (List Char)) :
    rule.Covers test (before ++ segments) := by
  unfold Covers at h ⊢
  split at h
  · rename_i hDirectory
    obtain ⟨leading, hSome, hPrefix, hFinds⟩ := h
    rw [if_pos hDirectory]
    exact ⟨before ++ leading, List.append_ne_nil_of_right_ne_nil before hSome,
      (List.prefix_append_right_inj before).mpr hPrefix, hFinds.append_left hScope before⟩
  · rename_i hDirectory
    rw [if_neg hDirectory]
    exact h.append_left hScope before

/-- The paths below one that a rule matches, and below the same segments deeper in a workspace if
the rule does not look from the root. -/
inductive InSubtree (rule : Rule) (inner : String) : String → Prop
  | below (after : String) : InSubtree rule inner (inner ++ "/" ++ after)
  | deeper (before after : String) (hScope : rule.scope = .basename ∨ rule.scope = .anyDepth) :
      InSubtree rule inner (before ++ "/" ++ inner ++ "/" ++ after)

theorem matchesPath_of_inSubtree {rule : Rule} {inner longer : String}
    (hDirectory : rule.directory = true) (hMatch : rule.matchesPath (Path.ofString inner) = true)
    (hLonger : rule.InSubtree inner longer) : rule.matchesPath (Path.ofString longer) = true := by
  rw [Path.ofString_eq_ofSegments, matchesPath_ofSegments_iff] at hMatch ⊢
  obtain ⟨hSome, hCovers⟩ := hMatch
  cases hLonger with
  | below after =>
    rw [Path.segmentsOf_slash]
    exact ⟨List.append_ne_nil_of_left_ne_nil hSome _, hCovers.append_right hDirectory _⟩
  | deeper before after hScope =>
    have hFromEnd : rule.scope.looksFromEnd = true := by
      rcases hScope with hScope | hScope <;> rw [hScope] <;> rfl
    rw [Path.segmentsOf_slash, Path.segmentsOf_slash]
    exact ⟨List.append_ne_nil_of_left_ne_nil (List.append_ne_nil_of_right_ne_nil _ hSome) _,
      (hCovers.append_left hFromEnd _).append_right hDirectory _⟩

end Rule

theorem Rulebook.decide_of_matchesPath {book : Rulebook} {rule : Rule} {raw : String}
    (hRule : rule ∈ book.rules) (hPlain : rule.negated = false)
    (hMatch : rule.matchesPath (Path.ofString raw) = true) :
    (book.decide raw).value ≠ .unmatched ∧
      (¬ HasMatch book.rules (Path.ofString raw) true →
        ∃ first, (book.decide raw).value = .ignored first) := by
  have hHas : HasMatch book.rules (Path.ofString raw) false := ⟨rule, hRule, hPlain, hMatch⟩
  constructor
  · intro hUnmatched
    exact (book.judge_eq_unmatched_iff_not_hasMatch _).mp hUnmatched false hHas
  · intro hNegated
    obtain ⟨first, hFirst⟩ := (hasMatch_iff_exists_first _ _ _).mp hHas
    exact ⟨first, (book.judge_eq_ignored_iff _ first).mpr ⟨hNegated, hFirst⟩⟩

/-- A directory rule matches the whole subtree of what it matches. So a plain one leaves no path
there unmatched, and only a negated rule that matches the path keeps it. -/
theorem Rule.matchesPath_subtree {rule : Rule} {inner longer : String}
    (hDirectory : rule.directory = true) (hMatch : rule.matchesPath (Path.ofString inner) = true)
    (hLonger : rule.InSubtree inner longer) :
    rule.matchesPath (Path.ofString longer) = true ∧
      ∀ book : Rulebook, rule ∈ book.rules → rule.negated = false →
        (book.decide longer).value ≠ .unmatched ∧
          (¬ Rulebook.HasMatch book.rules (Path.ofString longer) true →
            ∃ first, (book.decide longer).value = .ignored first) := by
  have hPath := matchesPath_of_inSubtree hDirectory hMatch hLonger
  refine ⟨hPath, ?_⟩
  intro book hRule hPlain
  exact Rulebook.decide_of_matchesPath hRule hPlain hPath

theorem Rule.matchesPath_subtree_build : ∃ rule : Rule,
    (compile " **/b*/out//" 2).value = some rule ∧ rule.directory = true ∧
      rule.matchesPath (Path.ofString "x\\./build//out") = true ∧
      rule.InSubtree "x\\./build//out" "a/../x\\./build//out/./c//d" ∧
      rule.matchesPath (Path.ofString "a/../x\\./build//out/./c//d") = true ∧
      rule ∈ (Rulebook.ofLines ["!keep/", " **/b*/out//"]).value.rules ∧ rule.negated = false ∧
      ∃ first, ((Rulebook.ofLines ["!keep/", " **/b*/out//"]).value.decide
        "a/../x\\./build//out/./c//d").value = .ignored first := by
  have hRule : (compile " **/b*/out//" 2).value =
      some (ofPattern "**/b*/out//" ⟨false, 0, 1, "b*/out".toList, 2⟩ 2) := by decide
  have hMatch : (ofPattern "**/b*/out//" ⟨false, 0, 1, "b*/out".toList, 2⟩ 2).matchesPath
      (Path.ofString "x\\./build//out") = true := by decide
  have hLonger : (ofPattern "**/b*/out//" ⟨false, 0, 1, "b*/out".toList, 2⟩ 2).InSubtree
      "x\\./build//out" "a/../x\\./build//out/./c//d" := .deeper "a/.." "./c//d" (.inr rfl)
  have hMem : ofPattern "**/b*/out//" ⟨false, 0, 1, "b*/out".toList, 2⟩ 2 ∈
      (Rulebook.ofLines ["!keep/", " **/b*/out//"]).value.rules := by decide
  have hNegated : ¬ Rulebook.HasMatch (Rulebook.ofLines ["!keep/", " **/b*/out//"]).value.rules
      (Path.ofString "a/../x\\./build//out/./c//d") true := by
    rw [← Rulebook.firstMatch?_eq_none_iff_not_hasMatch]
    decide
  obtain ⟨hPath, hVerdict⟩ := matchesPath_subtree rfl hMatch hLonger
  exact ⟨_, hRule, rfl, hMatch, hLonger, hPath, hMem, rfl, (hVerdict _ hMem rfl).2 hNegated⟩

end PathSieve
