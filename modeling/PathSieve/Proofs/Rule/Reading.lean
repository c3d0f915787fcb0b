import PathSieve.Proofs.Glob.Reading
import PathSieve.Proofs.Rule.Matching

/-!
# Patterns read by segments

`matchesPath_iff_reads` states what a compiled line matches without any bytes, tokens or offsets:
its scope finds segments that the components of its body read.
-/

namespace PathSieve

open Text

set_option autoImplicit false

theorem Path.parent_not_mem_segmentsOf {raw : String} (h : ".." ∉ (ofString raw).segments) :
    ['.', '.'] ∉ segmentsOf raw.toList := by
  rw [segments_ofString] at h
  intro hMem
  exact h (List.mem_map.mpr ⟨_, hMem, rfl⟩)

namespace Rule

theorem toList_body_ofPattern (raw : String) (pattern : Pattern) (ordinal : Nat) :
    (ofPattern raw pattern ordinal).body.toList = pattern.body := String.toList_ofList

theorem exists_pattern_of_compile {line : String} {ordinal : Nat} {rule : Rule}
    (h : (compile line ordinal).value = some rule) :
    ∃ pattern, rule = ofPattern (String.ofList (trim line.toList)) pattern ordinal ∧
      pattern = Pattern.ofMarked (trim line.toList) ∧ pattern.body ≠ [] := by
  rw [compile_value] at h
  obtain ⟨pattern, hPattern, rfl⟩ := Option.map_eq_some_iff.mp h
  obtain ⟨rfl, hBody⟩ := Pattern.eq_ofMarked_of_ofTrimmed? hPattern
  exact ⟨_, rfl, rfl, hBody⟩

/-- No slash is left at the end of a body, so its last component is not empty. -/
theorem getLast?_components_of_compile {line : String} {ordinal : Nat} {rule : Rule}
    (h : (compile line ordinal).value = some rule) :
    (splitBy (· == '/') rule.body.toList).getLast? ≠ some [] := by
  obtain ⟨pattern, rfl, hPattern, hBody⟩ := exists_pattern_of_compile h
  intro hEmpty
  rw [toList_body_ofPattern] at hEmpty
  rcases getLast?_of_getLast?_splitBy '/' _ hEmpty with hNil | hEnd
  · exact hBody hNil
  · rw [hPattern] at hEnd
    exact Pattern.getLast?_body_ne_slash _ hEnd

theorem matcher_of_compile {line : String} {ordinal : Nat} {rule : Rule}
    (h : (compile line ordinal).value = some rule) :
    rule.matcher = Matcher.ofBody rule.body.toList := by
  obtain ⟨pattern, rfl, _, _⟩ := exists_pattern_of_compile h
  rw [toList_body_ofPattern]
  rfl

theorem accepts_iff_reads {line : String} {ordinal : Nat} {rule : Rule}
    {segments : List (List Char)} (hRule : (compile line ordinal).value = some rule)
    (hGlob : rule.matcher.isVerbatim = false) (hSome : segments ≠ [])
    (hSlash : ∀ segment ∈ segments, '/' ∉ segment) (hParent : ['.', '.'] ∉ segments) :
    rule.Accepts segments ↔ Glob.Reads (splitBy (· == '/') rule.body.toList) segments := by
  have hMatcher := matcher_of_compile hRule
  rw [hMatcher] at hGlob
  rw [← Glob.fits_ofBody_iff_reads _ _ (getLast?_components_of_compile hRule) hSome hSlash,
    ← Glob.accepts_joinWith _ hSome hSlash hParent, Accepts, hMatcher,
    Matcher.ofBody_eq_wildcards hGlob]
  rfl

theorem matchesPath_iff_covers_reads {line path : String} {ordinal : Nat} {rule : Rule}
    (hRule : (compile line ordinal).value = some rule) (hGlob : rule.matcher.isVerbatim = false)
    (hParent : ".." ∉ (Path.ofString path).segments) :
    rule.matchesPath (Path.ofString path) = true ↔
      Path.segmentsOf path.toList ≠ [] ∧
        rule.Covers (Glob.Reads (splitBy (· == '/') rule.body.toList))
          (Path.segmentsOf path.toList) := by
  have hSlash := Path.slash_not_mem_of_mem_segmentsOf path.toList
  have hDots := Path.parent_not_mem_segmentsOf hParent
  rw [Path.ofString_eq_ofSegments, matchesPath_ofSegments_iff]
  generalize Path.segmentsOf path.toList = segments at hSlash hDots
  apply and_congr_right
  intro hSome
  apply covers_congr rule hSome
  intro run hRun hInfix
  apply accepts_iff_reads hRule hGlob hRun
  · intro segment hMem
    exact hSlash segment (hInfix.subset hMem)
  · intro hMem
    exact hDots (hInfix.subset hMem)

/-- A compiled line matches a path without `..` exactly if its scope finds segments that the
components of its body read; a directory rule may find them in any leading run of segments. -/
theorem matchesPath_iff_reads {line path : String} {ordinal : Nat} {rule : Rule}
    (hRule : (compile line ordinal).value = some rule)
    (hGlob : rule.matcher.isVerbatim = false)
    (hParent : ".." ∉ (Path.ofString path).segments) :
    rule.matchesPath (Path.ofString path) = true ↔
      rule.Covers (Glob.Reads (splitBy (· == '/') rule.body.toList))
        ((Path.ofString path).segments.map String.toList) := by
  have hSegments : (Path.ofString path).segments.map String.toList =
      Path.segmentsOf path.toList := by
    rw [Path.segments_ofString, List.map_map]
    exact (List.map_congr_left fun _ _ => String.toList_ofList).trans (List.map_id _)
  have hBody : ¬ Glob.Reads (splitBy (· == '/') rule.body.toList) [] := by
    intro hReads
    exact splitBy_ne_nil _ _ (Glob.eq_nil_of_reads_nil hReads rfl)
  rw [hSegments, matchesPath_iff_covers_reads hRule hGlob hParent]
  apply and_iff_right_of_imp
  intro hCovers hNil
  rw [hNil] at hCovers
  exact not_covers_nil rule hBody hCovers

theorem matchesPath_iff_reads_sources : ∃ rule : Rule,
    (compile "!**/src/**/?*[1].rs/ " 7).value = some rule ∧ rule.matcher.isVerbatim = false ∧
      ".." ∉ (Path.ofString "x/./src\\lib/deep/ab[1].rs//tail").segments ∧
      rule.matchesPath (Path.ofString "x/./src\\lib/deep/ab[1].rs//tail") = true ∧
      rule.Covers (Glob.Reads (splitBy (· == '/') rule.body.toList))
        ((Path.ofString "x/./src\\lib/deep/ab[1].rs//tail").segments.map String.toList) := by
  have hRule : (compile "!**/src/**/?*[1].rs/ " 7).value =
      some (ofPattern "!**/src/**/?*[1].rs/" ⟨true, 0, 1, "src/**/?*[1].rs".toList, 1⟩ 7) := by
    decide
  exact ⟨_, hRule, by decide, by decide, by decide,
    (matchesPath_iff_reads hRule (by decide) (by decide)).mp (by decide)⟩

end Rule

end PathSieve
