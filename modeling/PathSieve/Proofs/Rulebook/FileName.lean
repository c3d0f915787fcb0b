import PathSieve.Proofs.Glob.Literal
import PathSieve.Proofs.Path.Canonical
import PathSieve.Proofs.Rule.Subtree
import PathSieve.Proofs.Rulebook.Provenance
import PathSieve.Sieve

/-!
# The rule of the ignore file

The rule of a file name compares segments and knows no markers. So a rulebook with a file name is
the one without it but for the paths that name the file, as `ignores_withBuiltins_iff_namesFile`
states, and of these a negated rule keeps what it matches. Among the built-in rules only one is
negated; `ignores_ownFile_iff` states which files it leaves to be ignored by their own name.
-/

namespace PathSieve

open Text

set_option autoImplicit false

namespace Path

/-- A name of one segment stands for the files of that name in every directory, and a longer one
for a single place. -/
inductive NamesFile (fileName raw : String) : Prop
  | anywhere {segment : String} (hName : namesIn fileName = [segment])
      (hLast : (namesIn raw).getLast? = some segment)
  | inPlace (hName : 1 < (namesIn fileName).length) (hSame : namesIn raw = namesIn fileName)

theorem segmentsOf_joinWith_of_subset {raw : List Char} {run : List (List Char)}
    (h : run ⊆ segmentsOf raw) : segmentsOf (joinWith '/' run) = run :=
  segmentsOf_joinWith run (fun _ hMem => (List.mem_filter.mp (h hMem)).2)
    fun _ hMem _ hc => isSeparator_of_mem_segmentsOf (h hMem) hc

theorem joinWith_segmentsOf_eq_iff {name raw : List Char} {run : List (List Char)}
    (h : run ⊆ segmentsOf raw) :
    joinWith '/' (segmentsOf name) = joinWith '/' run ↔ segmentsOf name = run := by
  constructor
  · intro hJoined
    rw [← segmentsOf_joinWith_of_subset h, ← hJoined,
      segmentsOf_joinWith_of_subset (List.Subset.refl _)]
  · intro hSame
    rw [hSame]

theorem getLast?_namesIn_eq_some_iff {raw : String} {segment : List Char} :
    (namesIn raw).getLast? = some (String.ofList segment) ↔
      (segmentsOf raw.toList).getLast? = some segment := by
  rw [namesIn, List.getLast?_map, Option.map_eq_some_iff]
  simp only [String.ofList_inj, exists_eq_right]

theorem namesFile_iff (fileName raw : String) : NamesFile fileName raw ↔
    (∃ segment, segmentsOf fileName.toList = [segment] ∧
      (segmentsOf raw.toList).getLast? = some segment) ∨
    1 < (segmentsOf fileName.toList).length ∧
      segmentsOf raw.toList = segmentsOf fileName.toList := by
  constructor
  · rintro (⟨hName, hLast⟩ | ⟨hName, hSame⟩)
    · obtain ⟨segment, hSegment, rfl⟩ := List.map_eq_singleton_iff.mp hName
      exact .inl ⟨segment, hSegment, getLast?_namesIn_eq_some_iff.mp hLast⟩
    · rw [namesIn, List.length_map] at hName
      exact .inr ⟨hName, map_ofList_inj.mp hSame⟩
  · rintro (⟨segment, hName, hLast⟩ | ⟨hName, hSame⟩)
    · refine .anywhere ?_ (getLast?_namesIn_eq_some_iff.mpr hLast)
      rw [namesIn, hName, List.map_singleton]
    · refine .inPlace ?_ (map_ofList_inj.mpr hSame)
      rwa [namesIn, List.length_map]

theorem namesFile_of_namesIn_eq {fileName raw : String} (hName : namesIn fileName ≠ [])
    (hSame : namesIn raw = namesIn fileName) : NamesFile fileName raw := by
  rcases Nat.lt_or_eq_of_le (List.length_pos_iff.mpr hName) with hLong | hOne
  · exact .inPlace hLong hSame
  · obtain ⟨segment, hSegment⟩ := List.length_eq_one_iff.mp hOne.symm
    refine .anywhere hSegment ?_
    rw [hSame, hSegment, List.getLast?_singleton]

theorem getLast?_namesIn_slash (dir : String) {fileName : String} (hName : namesIn fileName ≠ []) :
    (namesIn (dir ++ "/" ++ fileName)).getLast? = (namesIn fileName).getLast? := by
  rw [namesIn, segmentsOf_slash, List.map_append, ← namesIn, ← namesIn, List.getLast?_append,
    Option.or_of_isSome]
  rwa [List.getLast?_isSome]

end Path

namespace Rule

theorem fields_of_ofFileName {name : String} {ordinal : Nat} {rule : Rule}
    (h : (ofFileName name ordinal).value = some rule) :
    Path.segmentsOf name.toList ≠ [] ∧ rule.negated = false ∧ rule.directory = false ∧
      rule.scope = (if (Path.segmentsOf name.toList).length = 1 then .basename else .rooted) ∧
      rule.matcher = .verbatim (joinWith '/' (Path.segmentsOf name.toList)) := by
  rcases ofFileName_value name ordinal with ⟨_, hNone⟩ | ⟨hName, _⟩
  · rw [hNone] at h
    cases h
  rw [Path.segments_ofString, Ne, List.map_eq_nil_iff] at hName
  refine ⟨hName, ?_⟩
  rw [ofFileName, Path.ofString_eq_ofSegments] at h
  split at h
  · cases h
  · cases h
    rw [Path.segmentCount_ofSegments]
    exact ⟨rfl, rfl, rfl, rfl⟩

theorem matchesPath_ofFileName_iff {name : String} {ordinal : Nat} {rule : Rule}
    (h : (ofFileName name ordinal).value = some rule) (raw : String) :
    rule.matchesPath (Path.ofString raw) = true ↔ Path.NamesFile name raw := by
  obtain ⟨hSome, _, hDirectory, hScope, hMatcher⟩ := fields_of_ofFileName h
  rw [Path.namesFile_iff]
  by_cases hOne : (Path.segmentsOf name.toList).length = 1
  · obtain ⟨segment, hName⟩ := List.length_eq_one_iff.mp hOne
    rw [if_pos hOne] at hScope
    rw [matchesPath_basename_iff hScope hDirectory, hMatcher, hName, joinWith_singleton]
    simp [Matcher.accepts]
  · have hLong : 1 < (Path.segmentsOf name.toList).length := by
      have hPositive := List.length_pos_iff.mpr hSome
      omega
    rw [if_neg hOne] at hScope
    rw [matchesPath_rooted_iff hScope hDirectory, hMatcher, Matcher.accepts, beq_iff_eq,
      Path.joinWith_segmentsOf_eq_iff (List.Subset.refl _)]
    constructor
    · rintro ⟨_, hSame⟩
      exact .inr ⟨hLong, hSame.symm⟩
    · rintro (⟨segment, hName, _⟩ | ⟨_, hSame⟩)
      · rw [hName] at hOne
        exact absurd rfl hOne
      · exact ⟨hSame ▸ hSome, hSame.symm⟩

end Rule

namespace Rulebook

theorem decide_value (book : Rulebook) (raw : String) :
    (book.decide raw).value = book.judge (Path.ofString raw) := rfl

theorem hasMatch_map_asBuiltin_iff (rules : List Rule) (path : Path) (negated : Bool) :
    HasMatch (rules.map Rule.asBuiltin) path negated ↔ HasMatch rules path negated := by
  constructor
  · rintro ⟨_, hMem, hMatch⟩
    obtain ⟨rule, hRule, rfl⟩ := List.mem_map.mp hMem
    exact ⟨rule, hRule, hMatch⟩
  · rintro ⟨rule, hRule, hMatch⟩
    exact ⟨rule.asBuiltin, List.mem_map_of_mem hRule, hMatch⟩

/-- The built-in rules in front of the one of the file name. -/
def tableRules : List Rule := (compileLines Builtin.patterns).value.map Rule.asBuiltin

/-- The rule of the file name, if the name has a segment. -/
def fileRules (fileName : String) : List Rule :=
  (Rule.ofFileName fileName (tableRules.length + 1)).value.toList.map Rule.asBuiltin

theorem rules_withBuiltins (fileName : String) (lines : List String) :
    (withBuiltins fileName lines).value.rules =
      tableRules ++ (fileRules fileName ++ (compileLines lines).value) := by
  rw [withBuiltins_value, rules, builtinRules_value, List.map_append, List.append_assoc, fileRules,
    tableRules, List.length_map]

theorem hasMatch_fileRules_iff (fileName raw : String) (negated : Bool) :
    HasMatch (fileRules fileName) (Path.ofString raw) negated ↔
      negated = false ∧ Path.NamesFile fileName raw := by
  rw [fileRules, hasMatch_map_asBuiltin_iff]
  cases hRule : (Rule.ofFileName fileName (tableRules.length + 1)).value with
  | none =>
    rcases Rule.ofFileName_value fileName (tableRules.length + 1) with
      ⟨hName, _⟩ | ⟨_, rule, hSome, _⟩
    · rw [Path.segments_ofString, ← Path.namesIn] at hName
      refine iff_of_false ?_ ?_
      · rintro ⟨_, hMem, _⟩
        cases hMem
      · rintro ⟨_, hNamed | hNamed⟩ <;> simp [hName] at hNamed
    · rw [hRule] at hSome
      cases hSome
  | some rule =>
    rw [← Rule.matchesPath_ofFileName_iff hRule, eq_comm, ← (Rule.fields_of_ofFileName hRule).2.1]
    simp [HasMatch]

theorem hasMatch_withBuiltins_iff (fileName : String) (lines : List String) (raw : String)
    (negated : Bool) :
    HasMatch (withBuiltins fileName lines).value.rules (Path.ofString raw) negated ↔
      HasMatch (withBuiltins "" lines).value.rules (Path.ofString raw) negated ∨
        negated = false ∧ Path.NamesFile fileName raw := by
  have hNoName : fileRules "" = [] := rfl
  rw [rules_withBuiltins, rules_withBuiltins, hNoName, List.nil_append, hasMatch_append_iff,
    hasMatch_append_iff, hasMatch_append_iff, hasMatch_fileRules_iff, or_assoc,
    or_comm (a := _ ∧ _)]

/-- Where the rule of the file name does not match, the first match is another one. -/
theorem firstMatch?_withBuiltins {fileName raw : String} {negated : Bool}
    (h : negated = false → ¬ Path.NamesFile fileName raw) (lines : List String) :
    firstMatch? (withBuiltins fileName lines).value.rules (Path.ofString raw) negated =
      firstMatch? (withBuiltins "" lines).value.rules (Path.ofString raw) negated := by
  have hNone : firstMatch? (fileRules fileName) (Path.ofString raw) negated = none := by
    rw [firstMatch?_eq_none_iff_not_hasMatch, hasMatch_fileRules_iff, not_and]
    exact h
  have hNoName : fileRules "" = [] := rfl
  rw [rules_withBuiltins, rules_withBuiltins, hNoName, List.nil_append, firstMatch?_append,
    firstMatch?_append, firstMatch?_append, hNone, Option.none_or]

/-- A file name adds the paths that name the file to the ignored ones, unless a negated rule keeps
them. It re-includes nothing, and leaves the verdict on every other path as it was. -/
theorem ignores_withBuiltins_iff_namesFile (fileName : String) (lines : List String)
    (raw : String) :
    ((withBuiltins fileName lines).value.ignores raw = true ↔
      (withBuiltins "" lines).value.ignores raw = true ∨ Path.NamesFile fileName raw ∧
        ¬ HasMatch (withBuiltins "" lines).value.rules (Path.ofString raw) true) ∧
    (∀ rule, ((withBuiltins fileName lines).value.decide raw).value = .reincluded rule ↔
      ((withBuiltins "" lines).value.decide raw).value = .reincluded rule) ∧
    (¬ Path.NamesFile fileName raw →
      (withBuiltins fileName lines).value.decide raw =
        (withBuiltins "" lines).value.decide raw) := by
  refine ⟨?_, ?_, ?_⟩
  · have hNegated := hasMatch_withBuiltins_iff fileName lines raw true
    have hPlain := hasMatch_withBuiltins_iff fileName lines raw false
    simp only [Bool.true_eq_false, false_and, or_false, true_and] at hNegated hPlain
    rw [ignores_eq_true_iff, ignores_eq_true_iff, hNegated, hPlain, and_or_left,
      and_comm (b := Path.NamesFile _ _)]
  · intro rule
    have hFirst : firstMatch? (withBuiltins fileName lines).value.rules (Path.ofString raw) true =
        firstMatch? (withBuiltins "" lines).value.rules (Path.ofString raw) true :=
      firstMatch?_withBuiltins (fun hSign => absurd hSign (by decide)) lines
    rw [decide_value, decide_value, judge_eq_reincluded_iff, judge_eq_reincluded_iff,
      ← firstMatch?_eq_some_iff, ← firstMatch?_eq_some_iff, hFirst]
  · intro hName
    rw [decide, decide, judge_eq, judge_eq, firstMatch?_withBuiltins fun _ => hName,
      firstMatch?_withBuiltins fun _ => hName]

theorem ignores_withBuiltins_iff_namesFile_sign :
    ¬ Path.NamesFile "!dist/" "dist/main.js" ∧
      (withBuiltins "!dist/" ["!*.md"]).value.decide "dist/main.js" =
        (withBuiltins "" ["!*.md"]).value.decide "dist/main.js" ∧
      (withBuiltins "!dist/" ["!*.md"]).value.ignores "sub\\!dist" = true := by
  have hOther : ¬ Path.NamesFile "!dist/" "dist/main.js" := by
    rw [Path.namesFile_iff]
    rintro (⟨segment, hName, hLast⟩ | ⟨hName, _⟩)
    · cases hLast
      exact absurd hName (by decide)
    · exact absurd hName (by decide)
  have hNames : Path.NamesFile "!dist/" "sub\\!dist" := .anywhere rfl (by decide)
  have hKept : ¬ HasMatch (withBuiltins "" ["!*.md"]).value.rules (Path.ofString "sub\\!dist")
      true := by
    rw [← firstMatch?_eq_none_iff_not_hasMatch]
    decide
  obtain ⟨_, _, hSame⟩ := ignores_withBuiltins_iff_namesFile "!dist/" ["!*.md"] "dist/main.js"
  obtain ⟨hIgnores, _⟩ := ignores_withBuiltins_iff_namesFile "!dist/" ["!*.md"] "sub\\!dist"
  exact ⟨hOther, hSame hOther, hIgnores.mpr (.inr ⟨hNames, hKept⟩)⟩

/-! ## The file's own name -/

theorem hasMatch_negated_iff (rules : List Rule) (path : Path) :
    HasMatch rules path true ↔
      ∃ rule ∈ rules.filter Rule.negated, rule.matchesPath path = true := by
  simp only [HasMatch, List.mem_filter, and_assoc]

theorem filter_negated_tableRules : tableRules.filter Rule.negated =
    [(Rule.ofPattern "!.env.example" ⟨true, 0, 0, ".env.example".toList, 0⟩ 26).asBuiltin] := by
  decide

theorem hasMatch_tableRules_negated_iff (raw : String) :
    HasMatch tableRules (Path.ofString raw) true ↔
      (Path.namesIn raw).getLast? = some ".env.example" := by
  have hLast : (Path.namesIn raw).getLast? = some ".env.example" ↔
      (Path.segmentsOf raw.toList).getLast? = some ".env.example".toList := by
    rw [← Path.getLast?_namesIn_eq_some_iff, String.ofList_toList]
  rw [hasMatch_negated_iff, filter_negated_tableRules, hLast]
  simp only [List.mem_singleton, exists_eq_left]
  rw [Rule.matchesPath_basename_iff rfl rfl]
  change (∃ segment, _ ∧ (Matcher.ofBody ".env.example".toList).accepts segment = true) ↔ _
  simp only [Matcher.accepts_ofBody_of_plain
    (by decide : '*' ∉ ".env.example".toList) (by decide : '?' ∉ ".env.example".toList)
    (by decide : ".env.example".toList.any Glob.isBracket = false), exists_eq_right]

theorem rules_withBuiltins_alone : (withBuiltins "" []).value.rules = tableRules := by
  rw [rules_withBuiltins]
  exact List.append_nil _

end Rulebook

namespace Sieve

theorem rulebook_ofSettings {settings : Settings} (h : settings.withBuiltins = true) :
    (ofSettings settings).value.rulebook =
      (Rulebook.withBuiltins settings.fileName []).value := by
  rw [ofSettings, ofLines, Traced.map_value, Settings.rulebook, if_pos h]

theorem ignores_of_namesFile_iff {settings : Settings} (h : settings.withBuiltins = true)
    {raw : String} (hNames : Path.NamesFile settings.fileName raw) :
    (ofSettings settings).value.ignores raw = true ↔
      (Path.namesIn raw).getLast? ≠ some ".env.example" := by
  have hNegated := Rulebook.hasMatch_withBuiltins_iff settings.fileName [] raw true
  have hPlain := Rulebook.hasMatch_withBuiltins_iff settings.fileName [] raw false
  rw [Rulebook.rules_withBuiltins_alone, Rulebook.hasMatch_tableRules_negated_iff] at hNegated
  change Rulebook.ignores _ _ = true ↔ _
  rw [rulebook_ofSettings h, Rulebook.ignores_eq_true_iff, hNegated, hPlain]
  simp [hNames]

/-- The built-in rules ignore the file that they are configured with, however its name is written,
and in every directory if the name is a single segment. Only a file called `.env.example` is kept,
by the built-in rule that re-includes it everywhere. -/
theorem ignores_ownFile_iff {settings : Settings} (h : settings.withBuiltins = true)
    (hName : Path.namesIn settings.fileName ≠ []) :
    (∀ raw, Path.namesIn raw = Path.namesIn settings.fileName →
      ((ofSettings settings).value.ignores raw = true ↔
        (Path.namesIn settings.fileName).getLast? ≠ some ".env.example")) ∧
    ((Path.namesIn settings.fileName).length = 1 → ∀ dir : String,
      ((ofSettings settings).value.ignores (dir ++ "/" ++ settings.fileName) = true ↔
        (Path.namesIn settings.fileName).getLast? ≠ some ".env.example")) := by
  constructor
  · intro raw hSame
    rw [ignores_of_namesFile_iff h (Path.namesFile_of_namesIn_eq hName hSame), hSame]
  · intro hOne dir
    have hLast := Path.getLast?_namesIn_slash dir hName
    obtain ⟨segment, hSegment⟩ := List.length_eq_one_iff.mp hOne
    have hNames : Path.NamesFile settings.fileName (dir ++ "/" ++ settings.fileName) := by
      refine .anywhere hSegment ?_
      rw [hLast, hSegment, List.getLast?_singleton]
    rw [ignores_of_namesFile_iff h hNames, hLast]

theorem ignores_ownFile_iff_sign : Path.namesIn "./!*[x]" = ["!*[x]"] ∧
    Path.namesIn "!*[x]\\." = Path.namesIn "./!*[x]" ∧
      (ofSettings ⟨"./!*[x]", true⟩).value.ignores "!*[x]\\." = true ∧
      (ofSettings ⟨"./!*[x]", true⟩).value.ignores ("src/lib" ++ "/" ++ "./!*[x]") = true := by
  have hName : Path.namesIn "./!*[x]" = ["!*[x]"] := by decide
  have hSame : Path.namesIn "!*[x]\\." = Path.namesIn "./!*[x]" := by decide
  have hLast : (Path.namesIn "./!*[x]").getLast? ≠ some ".env.example" := by decide
  have hSome : Path.namesIn "./!*[x]" ≠ [] := by
    rw [hName]
    exact List.cons_ne_nil _ _
  obtain ⟨hSpelled, hBelow⟩ := @ignores_ownFile_iff ⟨"./!*[x]", true⟩ rfl hSome
  exact ⟨hName, hSame, (hSpelled _ hSame).mpr hLast, (hBelow (by rw [hName]; rfl) _).mpr hLast⟩

theorem keeps_example_ownFile : Path.namesIn ".env.example" = [".env.example"] ∧
    (ofSettings ⟨".env.example", true⟩).value.ignores ".env.example" = false := by
  decide

end Sieve

end PathSieve
