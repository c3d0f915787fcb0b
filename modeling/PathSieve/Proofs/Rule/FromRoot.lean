import PathSieve.Proofs.Pattern.Marking
import PathSieve.Proofs.Rule.Reading

/-!
# Rules read from the root

A rule that tries every run of segments at the end of a path does what a `**` in front of its
components does, and a rule that tries every leading run does what a `**` behind them does. So
lines that ask for the one or the other give rules that match the same paths.
-/

namespace PathSieve

open Text

set_option autoImplicit false

theorem Scope.finds_anyDepth_iff {components : List (List Char)} (hSome : components ≠ [])
    (segments : List (List Char)) :
    Scope.anyDepth.Finds (Glob.Reads components) segments ↔
      Glob.Reads (Glob.dirsComponent :: components) segments := by
  rw [Glob.reads_dirs_iff segments hSome]
  constructor
  · rintro ⟨run, _, ⟨skipped, rfl⟩, hReads⟩
    exact ⟨skipped, run, rfl, hReads⟩
  · rintro ⟨skipped, run, rfl, hReads⟩
    refine ⟨run, ?_, List.suffix_append skipped run, hReads⟩
    intro hNil
    exact hSome (Glob.eq_nil_of_reads_nil hReads hNil)

namespace Rule

/-- A rule that matches what components read from the root on: a whole path, or some leading run
of its segments if it is a directory rule. -/
def ReadsFromRoot (rule : Rule) (components : List (List Char)) : Prop :=
  ∀ path : String, ".." ∉ (Path.ofString path).segments →
    (rule.matchesPath (Path.ofString path) = true ↔
      if rule.directory then
        ∃ leading, leading <+: Path.segmentsOf path.toList ∧ Glob.Reads components leading
      else Glob.Reads components (Path.segmentsOf path.toList))

theorem readsFromRoot_of_finds {line : String} {ordinal : Nat} {rule : Rule}
    {components : List (List Char)} (hRule : (compile line ordinal).value = some rule)
    (hGlob : rule.matcher.isVerbatim = false) (hSome : components ≠ [])
    (hFinds : ∀ run, rule.scope.Finds (Glob.Reads (splitBy (· == '/') rule.body.toList)) run ↔
      Glob.Reads components run) : rule.ReadsFromRoot components := by
  intro path hParent
  have hEmpty : ∀ run, Glob.Reads components run → run ≠ [] := by
    intro run hReads hNil
    exact hSome (Glob.eq_nil_of_reads_nil hReads hNil)
  rw [matchesPath_iff_covers_reads hRule hGlob hParent, Covers]
  simp only [hFinds]
  split
  · constructor
    · rintro ⟨_, leading, _, hPrefix, hReads⟩
      exact ⟨leading, hPrefix, hReads⟩
    · rintro ⟨leading, hPrefix, hReads⟩
      have hLeading := hEmpty leading hReads
      refine ⟨?_, leading, hLeading, hPrefix, hReads⟩
      intro hNil
      rw [hNil] at hPrefix
      exact hLeading (List.prefix_nil.mp hPrefix)
  · exact and_iff_right_of_imp (hEmpty _)

theorem ReadsFromRoot.matchesPath_eq {rule other : Rule} {components : List (List Char)}
    (h : rule.ReadsFromRoot components) (hOther : other.ReadsFromRoot components)
    (hDirectory : rule.directory = other.directory) {path : String}
    (hParent : ".." ∉ (Path.ofString path).segments) :
    rule.matchesPath (Path.ofString path) = other.matchesPath (Path.ofString path) := by
  rw [Bool.eq_iff_iff, h path hParent, hOther path hParent, hDirectory]

/-! ## Marked lines -/

open Pattern

theorem compile_rooted {line : String} {body : List Char} {slashes : Nat} (hName : EndsInName body)
    (hFirst : body.head? ≠ some '/')
    (hLine : line.toList = '/' :: (body ++ List.replicate slashes '/'))
    (hEnd : endsBlank line.toList = false) (ordinal : Nat) :
    ∃ rule, (compile line ordinal).value = some rule ∧ rule.scope = .rooted ∧
      rule.directory = (slashes != 0) ∧
      (rule.matcher.isVerbatim = false → rule.ReadsFromRoot (splitBy (· == '/') body)) := by
  rw [← text_rooted] at hLine
  rw [hLine] at hEnd
  have hRule := compile_text (canonical_rooted hName hFirst slashes) hLine
    (fun hComment => absurd (Option.some.inj hComment) (by decide : '/' ≠ '#')) rfl hEnd ordinal
  refine ⟨_, hRule, rfl, rfl, ?_⟩
  intro hGlob
  apply readsFromRoot_of_finds hRule hGlob (splitBy_ne_nil _ _)
  intro run
  rw [toList_body_ofPattern]
  exact Iff.rfl

/-- The groups of a line that a rule has taken off its body count like the one that is left to it
in its scope. -/
theorem compile_anyDepth {line : String} {body : List Char} {slashes : Nat}
    (hName : EndsInName body)
    (hLine : line.toList = dirGroup ++ (body ++ List.replicate slashes '/'))
    (hEnd : endsBlank line.toList = false) (ordinal : Nat) :
    ∃ rule, (compile line ordinal).value = some rule ∧ rule.scope = .anyDepth ∧
      rule.directory = (slashes != 0) ∧
      (rule.matcher.isVerbatim = false →
        rule.ReadsFromRoot (Glob.dirsComponent :: splitBy (· == '/') body)) := by
  obtain ⟨count, core, rfl, hCore, hGroup⟩ := hName.exists_groups
  rw [← text_anyDepth] at hLine
  have hText := text_anyDepth count core slashes
  rw [hLine] at hEnd
  have hRule := compile_text (canonical_anyDepth hCore hGroup count slashes) hLine
    (by
      rw [hText]
      exact fun hComment => absurd (Option.some.inj hComment) (by decide : '*' ≠ '#'))
    (by
      rw [hText]
      rfl)
    hEnd ordinal
  refine ⟨_, hRule, rfl, rfl, ?_⟩
  intro hGlob
  apply readsFromRoot_of_finds hRule hGlob (List.cons_ne_nil _ _)
  intro run
  rw [toList_body_ofPattern]
  exact (Scope.finds_anyDepth_iff (splitBy_ne_nil _ _) run).trans
    (Glob.reads_dirs_groups_iff count core run).symm

/-- Trying a body on every run of segments at the end of a path is what the `**/` in front of it
means, wherever both are globs. -/
theorem matchesPath_anyDepth_eq_rooted {text : String} (hText : ∃ c ∈ text.toList, c ≠ '/')
    (hEnd : endsBlank text.toList = false) (first second : Nat) :
    ∃ deep rooted : Rule, (compile ("**/" ++ text) first).value = some deep ∧
      (compile ("/**/" ++ text) second).value = some rooted ∧
      deep.scope = .anyDepth ∧ rooted.scope = .rooted ∧
      (deep.directory = true ↔ text.toList.getLast? = some '/') ∧
      rooted.directory = deep.directory ∧
      (deep.matcher.isVerbatim = false → rooted.matcher.isVerbatim = false →
        ∀ path : String, ".." ∉ (Path.ofString path).segments →
          deep.matchesPath (Path.ofString path) = rooted.matchesPath (Path.ofString path)) := by
  obtain ⟨name, slashes, hName, hEnds⟩ := exists_name_of_mem hText
  have hSome : text.toList ≠ [] := by
    rw [hName]
    exact List.append_ne_nil_of_left_ne_nil hEnds.ne_nil _
  have hDeep : ("**/" ++ text).toList = dirGroup ++ (name ++ List.replicate slashes '/') := by
    rw [String.toList_append, hName]
    rfl
  have hRooted : ("/**/" ++ text).toList =
      '/' :: (dirGroup ++ name ++ List.replicate slashes '/') := by
    rw [String.toList_append, hName, List.append_assoc]
    rfl
  have hBlank : ∀ marker : String, endsBlank (marker ++ text).toList = false := by
    intro marker
    rw [String.toList_append, endsBlank_append _ hSome, hEnd]
  obtain ⟨deep, hDeepRule, hDeepScope, hDeepDirectory, hDeepReads⟩ :=
    compile_anyDepth hEnds hDeep (hBlank "**/") first
  obtain ⟨rooted, hRootedRule, hRootedScope, hRootedDirectory, hRootedReads⟩ :=
    compile_rooted (hEnds.append dirGroup) (by simp [dirGroup]) hRooted (hBlank "/**/") second
  have hSame : deep.directory = rooted.directory := hDeepDirectory.trans hRootedDirectory.symm
  refine ⟨deep, rooted, hDeepRule, hRootedRule, hDeepScope, hRootedScope, ?_, hSame.symm, ?_⟩
  · rw [hDeepDirectory, hName, hEnds.getLast?_append_slashes_iff, bne_iff_ne]
  · intro hDeepGlob hRootedGlob path hParent
    have hReads := hRootedReads hRootedGlob
    rw [show splitBy (· == '/') (dirGroup ++ name) = Glob.dirsComponent :: splitBy (· == '/') name
      from Glob.splitBy_dirs name] at hReads
    exact (hDeepReads hDeepGlob).matchesPath_eq hReads hSame hParent

theorem matchesPath_anyDepth_eq_rooted_groups :
    (∃ c ∈ "**/a?/b*//".toList, c ≠ '/') ∧ endsBlank "**/a?/b*//".toList = false ∧
      ∃ deep rooted : Rule, (compile "**/**/a?/b*//" 1).value = some deep ∧
        (compile "/**/**/a?/b*//" 2).value = some rooted ∧
        deep.matcher.isVerbatim = false ∧ rooted.matcher.isVerbatim = false ∧
        ".." ∉ (Path.ofString "x/ab\\./b1/c").segments ∧
        deep.matchesPath (Path.ofString "x/ab\\./b1/c") = true ∧
        rooted.matchesPath (Path.ofString "x/ab\\./b1/c") = true := by
  have hText : ∃ c ∈ "**/a?/b*//".toList, c ≠ '/' := ⟨'*', by decide, by decide⟩
  obtain ⟨deep, rooted, hDeep, hRooted, _, _, _, _, hSame⟩ :=
    matchesPath_anyDepth_eq_rooted hText (by decide) 1 2
  have hDeepRule : deep = ofPattern "**/**/a?/b*//" ⟨false, 0, 2, "a?/b*".toList, 2⟩ 1 :=
    Option.some.inj (hDeep.symm.trans (by decide))
  have hRootedRule : rooted = ofPattern "/**/**/a?/b*//" ⟨false, 1, 0, "**/**/a?/b*".toList, 2⟩ 2 :=
    Option.some.inj (hRooted.symm.trans (by decide))
  have hDeepGlob : deep.matcher.isVerbatim = false := by
    rw [hDeepRule]
    decide
  have hRootedGlob : rooted.matcher.isVerbatim = false := by
    rw [hRootedRule]
    decide
  have hMatch : deep.matchesPath (Path.ofString "x/ab\\./b1/c") = true := by
    rw [hDeepRule]
    decide
  have hParent : ".." ∉ (Path.ofString "x/ab\\./b1/c").segments := by decide
  exact ⟨hText, by decide, deep, rooted, hDeep, hRooted, hDeepGlob, hRootedGlob, hParent, hMatch,
    (hSame hDeepGlob hRootedGlob _ hParent).symm.trans hMatch⟩

/-- Behind a marker that roots a body, or lets it begin anywhere, a rule reads certain components
and then those of the body. -/
theorem exists_fromRoot_of_marker {marker : String} (h : marker = "/" ∨ marker = "**/") :
    ∃ front, ∀ (line : String) (body : List Char) (slashes ordinal : Nat), EndsInName body →
      body.head? ≠ some '/' → line.toList = marker.toList ++ (body ++ List.replicate slashes '/') →
      endsBlank line.toList = false →
      ∃ rule, (compile line ordinal).value = some rule ∧ rule.directory = (slashes != 0) ∧
        (rule.matcher.isVerbatim = false →
          rule.ReadsFromRoot (front ++ splitBy (· == '/') body)) := by
  rcases h with rfl | rfl
  · refine ⟨[], ?_⟩
    intro line body slashes ordinal hName hFirst hLine hEnd
    obtain ⟨rule, hRule, _, hDirectory, hReads⟩ := compile_rooted hName hFirst hLine hEnd ordinal
    exact ⟨rule, hRule, hDirectory, hReads⟩
  · refine ⟨[Glob.dirsComponent], ?_⟩
    intro line body slashes ordinal hName _ hLine hEnd
    obtain ⟨rule, hRule, _, hDirectory, hReads⟩ := compile_anyDepth hName hLine hEnd ordinal
    exact ⟨rule, hRule, hDirectory, hReads⟩

/-- Trying every leading run of segments is what a `/**` behind a body means, but that it asks for
something below. -/
theorem matchesPath_directory_iff {marker text : String} (hMarker : marker = "/" ∨ marker = "**/")
    (hText : text ≠ "") (hFirst : text.toList.head? ≠ some '/')
    (hLast : text.toList.getLast? ≠ some '/') (hEnd : endsBlank text.toList = false)
    (first second third : Nat) :
    ∃ directory plain below : Rule,
      (compile (marker ++ text ++ "/") first).value = some directory ∧
      (compile (marker ++ text) second).value = some plain ∧
      (compile (marker ++ text ++ "/**") third).value = some below ∧
      directory.directory = true ∧ plain.directory = false ∧ below.directory = false ∧
      (directory.matcher.isVerbatim = false → plain.matcher.isVerbatim = false →
        below.matcher.isVerbatim = false →
        ∀ path : String, ".." ∉ (Path.ofString path).segments →
          (directory.matchesPath (Path.ofString path) = true ↔
            plain.matchesPath (Path.ofString path) = true ∨
              below.matchesPath (Path.ofString path) = true)) := by
  obtain ⟨front, hFront⟩ := exists_fromRoot_of_marker hMarker
  have hName : EndsInName text.toList := ⟨mt String.toList_eq_nil_iff.mp hText, hLast⟩
  have hBelow : EndsInName (text.toList ++ "/**".toList) := EndsInName.append ⟨by decide, by decide⟩ _
  have hBelowFirst : (text.toList ++ "/**".toList).head? ≠ some '/' := by
    rwa [List.head?_append_of_ne_nil _ hName.ne_nil]
  obtain ⟨directory, hRule, hDirectory, hReads⟩ := hFront (marker ++ text ++ "/") _ 1 first hName
    hFirst (by simp [String.toList_append]) (by
      rw [String.toList_append, endsBlank_append _ (by decide)]
      decide)
  obtain ⟨plain, hPlainRule, hPlainDirectory, hPlainReads⟩ := hFront (marker ++ text) _ 0 second
    hName hFirst (by simp [String.toList_append]) (by
      rw [String.toList_append, endsBlank_append _ hName.ne_nil, hEnd])
  obtain ⟨below, hBelowRule, hBelowDirectory, hBelowReads⟩ := hFront (marker ++ text ++ "/**") _ 0
    third hBelow hBelowFirst (by simp [String.toList_append]) (by
      rw [String.toList_append, endsBlank_append _ (by decide)]
      decide)
  refine ⟨directory, plain, below, hRule, hPlainRule, hBelowRule, hDirectory, hPlainDirectory,
    hBelowDirectory, ?_⟩
  intro hGlob hPlainGlob hBelowGlob path hParent
  have hSplit : splitBy (· == '/') (text.toList ++ "/**".toList) =
      splitBy (· == '/') text.toList ++ [Glob.dirsComponent] :=
    splitBy_append_cons _ text.toList ['*', '*'] '/' rfl
  rw [hReads hGlob path hParent, hPlainReads hPlainGlob path hParent,
    hBelowReads hBelowGlob path hParent, hDirectory, hPlainDirectory, hBelowDirectory, hSplit,
    ← List.append_assoc]
  exact Glob.exists_leading_reads_iff _ _

theorem matchesPath_directory_iff_below :
    ∃ directory plain below : Rule, (compile "**/a*/b/" 1).value = some directory ∧
      (compile "**/a*/b" 2).value = some plain ∧ (compile "**/a*/b/**" 3).value = some below ∧
      directory.matcher.isVerbatim = false ∧ plain.matcher.isVerbatim = false ∧
      below.matcher.isVerbatim = false ∧ ".." ∉ (Path.ofString "x//ab\\b/./c").segments ∧
      directory.matchesPath (Path.ofString "x//ab\\b/./c") = true ∧
      plain.matchesPath (Path.ofString "x//ab\\b/./c") = false ∧
      below.matchesPath (Path.ofString "x//ab\\b/./c") = true := by
  have hMarker : "**/" = "/" ∨ "**/" = "**/" := .inr rfl
  have hText : "a*/b" ≠ "" := by decide
  obtain ⟨directory, plain, below, hRule, hPlainRule, hBelowRule, _, _, _, hIff⟩ :=
    matchesPath_directory_iff hMarker hText (by decide) (by decide) (by decide) 1 2 3
  have hDirectory : directory = ofPattern "**/a*/b/" ⟨false, 0, 1, "a*/b".toList, 1⟩ 1 :=
    Option.some.inj (hRule.symm.trans (by decide))
  have hPlain : plain = ofPattern "**/a*/b" ⟨false, 0, 1, "a*/b".toList, 0⟩ 2 :=
    Option.some.inj (hPlainRule.symm.trans (by decide))
  have hBelow : below = ofPattern "**/a*/b/**" ⟨false, 0, 1, "a*/b/**".toList, 0⟩ 3 :=
    Option.some.inj (hBelowRule.symm.trans (by decide))
  have hGlob : directory.matcher.isVerbatim = false := by
    rw [hDirectory]
    decide
  have hPlainGlob : plain.matcher.isVerbatim = false := by
    rw [hPlain]
    decide
  have hBelowGlob : below.matcher.isVerbatim = false := by
    rw [hBelow]
    decide
  have hParent : ".." ∉ (Path.ofString "x//ab\\b/./c").segments := by decide
  have hOutside : plain.matchesPath (Path.ofString "x//ab\\b/./c") = false := by
    rw [hPlain]
    decide
  have hMatch : directory.matchesPath (Path.ofString "x//ab\\b/./c") = true := by
    rw [hDirectory]
    decide
  have hBelowMatch : below.matchesPath (Path.ofString "x//ab\\b/./c") = true := by
    obtain hInside | hInside := (hIff hGlob hPlainGlob hBelowGlob _ hParent).mp hMatch
    · rw [hOutside] at hInside
      cases hInside
    · exact hInside
  exact ⟨directory, plain, below, hRule, hPlainRule, hBelowRule, hGlob, hPlainGlob, hBelowGlob,
    hParent, hMatch, hOutside, hBelowMatch⟩

end Rule

end PathSieve
