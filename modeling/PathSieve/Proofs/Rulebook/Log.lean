import PathSieve.Proofs.Rulebook.Provenance
import PathSieve.Settings

/-!
# The log of a rulebook

Building a rulebook logs the pattern table and the name of the ignore file, then every line in
turn, and at last how many rules came of it. `exists_recordsBuild` states that nothing is missing
from this log and nothing else is in it.
-/

namespace PathSieve

set_option autoImplicit false

theorem Matcher.isVerbatim_ofBody (body : List Char) :
    (ofBody body).isVerbatim = (Glob.ofBody body).isOversized := by
  rw [ofBody]
  cases (Glob.ofBody body).isOversized <;> rfl

/-- The events of which every line leaves exactly one. -/
def Event.isOfLine : Event → Bool
  | .lineSkipped _ => true
  | .ruleCompiled _ _ _ _ => true
  | _ => false

namespace Rule

/-- What a line leaves in the log: that it was skipped, or the rule that it gave. A body that is
compared verbatim is named right before its rule. -/
inductive Records (line : String) (ordinal : Nat) : List Event → Prop
  | skipped (hNone : (compile line ordinal).value = none) :
      Records line ordinal [.lineSkipped ordinal]
  | compiled {rule : Rule} (hRule : (compile line ordinal).value = some rule)
      (hGlob : rule.matcher.isVerbatim = false) :
      Records line ordinal
        [.ruleCompiled (String.ofList (Text.trim line.toList)) ordinal rule.negated rule.directory]
  | verbatim {rule : Rule} (hRule : (compile line ordinal).value = some rule)
      (hVerbatim : rule.matcher.isVerbatim = true) :
      Records line ordinal
        [.comparedVerbatim rule.body (Glob.ofBody rule.body.toList).rejection,
          .ruleCompiled (String.ofList (Text.trim line.toList)) ordinal rule.negated rule.directory]

theorem records_compile (line : String) (ordinal : Nat) :
    Records line ordinal (compile line ordinal).log := by
  have hValue := compile_value line ordinal
  cases hPattern : Pattern.ofTrimmed? (Text.trim line.toList) with
  | none =>
    rw [hPattern] at hValue
    have hLog : (compile line ordinal).log = [.lineSkipped ordinal] := by
      simp only [compile, hPattern]
    rw [hLog]
    exact .skipped hValue
  | some pattern =>
    rw [hPattern] at hValue
    have hMatcher := Matcher.isVerbatim_ofBody pattern.body
    cases hSize : (Glob.ofBody pattern.body).isOversized with
    | false =>
      rw [hSize] at hMatcher
      have hLog : (compile line ordinal).log =
          [.ruleCompiled (String.ofList (Text.trim line.toList)) ordinal pattern.negated
            pattern.isDirectory] := by
        simp only [compile, hPattern, hSize]
        rfl
      rw [hLog]
      exact .compiled hValue hMatcher
    | true =>
      rw [hSize] at hMatcher
      have hLog : (compile line ordinal).log =
          [.comparedVerbatim (String.ofList pattern.body)
              (Glob.ofBody (String.ofList pattern.body).toList).rejection,
            .ruleCompiled (String.ofList (Text.trim line.toList)) ordinal pattern.negated
              pattern.isDirectory] := by
        simp only [compile, hPattern, hSize, String.toList_ofList]
        rfl
      rw [hLog]
      exact .verbatim hValue hMatcher

theorem Records.countP_isOfLine {line : String} {ordinal : Nat} {log : List Event}
    (h : Records line ordinal log) : log.countP Event.isOfLine = 1 := by
  cases h <;> rfl

theorem ofFileName_log (name : String) (ordinal : Nat) :
    (ofFileName name ordinal).log =
      [if (Path.ofString name).segments = [] then .lineSkipped ordinal
        else .ruleCompiled name ordinal false false] := by
  rw [ofFileName]
  by_cases hEmpty : (Path.ofString name).isEmpty = true
  · rw [if_pos hEmpty, if_pos ((Path.isEmpty_ofString_iff name).mp hEmpty)]
  · rw [if_neg hEmpty, if_neg (mt (Path.isEmpty_ofString_iff name).mpr hEmpty)]
    rfl

end Rule

namespace Rulebook

/-! ## Lines -/

/-- What lines leave in the log, one after the other, where the first one has a given ordinal. -/
inductive RecordsLines : Nat → List String → List Event → Prop
  | nil {ordinal : Nat} : RecordsLines ordinal [] []
  | cons {ordinal : Nat} {line : String} {lines : List String} {log rest : List Event}
      (hLine : Rule.Records line ordinal log) (hRest : RecordsLines (ordinal + 1) lines rest) :
      RecordsLines ordinal (line :: lines) (log ++ rest)

theorem compileLines_log (lines : List String) :
    (compileLines lines).log =
      (lines.zipIdx 1).flatMap fun entry => (Rule.compile entry.1 entry.2).log := by
  rw [compileLines, Traced.map_log, Traced.collect_log, List.mapIdx_eq_zipIdx_map,
    List.flatMap_map, List.zipIdx_succ, List.flatMap_map]

theorem recordsLines_compileLines (lines : List String) :
    RecordsLines 1 lines (compileLines lines).log := by
  rw [compileLines_log]
  generalize 1 = ordinal
  induction lines generalizing ordinal with
  | nil => exact .nil
  | cons line lines ih =>
    rw [List.zipIdx_cons, List.flatMap_cons]
    exact .cons (Rule.records_compile line ordinal) (ih (ordinal + 1))

theorem RecordsLines.countP_isOfLine {ordinal : Nat} {lines : List String} {log : List Event}
    (h : RecordsLines ordinal lines log) : log.countP Event.isOfLine = lines.length := by
  induction h with
  | nil => rfl
  | cons hLine _ ih =>
    rw [List.countP_append, hLine.countP_isOfLine, ih, List.length_cons, Nat.add_comm]

/-- Lines of which none is skipped and none compared verbatim leave their rules alone. -/
theorem compileLines_log_of_globs {lines : List String}
    (h : ∀ line ∈ lines, ∃ pattern, Pattern.ofTrimmed? (Text.trim line.toList) = some pattern ∧
      (Glob.ofBody pattern.body).isOversized = false) :
    (compileLines lines).log = (compileLines lines).value.map Rule.compiledEvent := by
  rw [compileLines_log, compileLines_eq_zipIdx_one]
  generalize 1 = ordinal
  induction lines generalizing ordinal with
  | nil => rfl
  | cons line lines ih =>
    obtain ⟨pattern, hPattern, hSize⟩ := h line List.mem_cons_self
    have hRule := Rule.compile_value line ordinal
    rw [hPattern, Option.map_some] at hRule
    have hLog : (Rule.compile line ordinal).log = [Rule.compiledEvent (Rule.ofPattern
        (String.ofList (Text.trim line.toList)) pattern ordinal)] := by
      simp only [Rule.compile, hPattern, hSize]
      rfl
    have hRest := ih (fun other hOther => h other (List.mem_cons_of_mem _ hOther)) (ordinal + 1)
    simp only [List.zipIdx_cons, List.flatMap_cons, List.filterMap_cons, hRule, hLog, hRest]
    rfl

/-! ## The pattern table -/

/-- The entry of the ignore file behind those of the table. -/
def fileNameEvent (fileName : String) : Event :=
  if (Path.ofString fileName).segments = [] then .lineSkipped (Builtin.patterns.length + 1)
  else .ruleCompiled fileName (Builtin.patterns.length + 1) false false

/-- The log of the built-in rules: each pattern of the table gives its rule, and the name of the
ignore file comes next. -/
structure RecordsTable (fileName : String) (builtin : List Rule) (log : List Event) : Prop where
  raws : (builtin.take Builtin.patterns.length).map Rule.raw = Builtin.patterns
  ordinals : (builtin.take Builtin.patterns.length).map Rule.ordinal =
    List.range' 1 Builtin.patterns.length
  log_eq : log = (builtin.take Builtin.patterns.length).map Rule.compiledEvent ++
    [fileNameEvent fileName]

theorem patterns_fit : ∀ line ∈ Builtin.patterns,
    ∃ pattern, Pattern.ofTrimmed? (Text.trim line.toList) = some pattern ∧
      (Glob.ofBody pattern.body).isOversized = false := by
  have hAll : ∀ line ∈ Builtin.patterns, (Pattern.ofTrimmed? (Text.trim line.toList)).any
      (fun pattern => !(Glob.ofBody pattern.body).isOversized) = true := by
    decide
  intro line hLine
  simpa [Option.any_eq_true] using hAll line hLine

theorem recordsTable_builtinRules (fileName : String) :
    RecordsTable fileName (builtinRules fileName).value (builtinRules fileName).log := by
  obtain ⟨hRaw, hOrdinal⟩ := compileLines_of_patterns Builtin.patterns patterns_compile
  have hLength : (compileLines Builtin.patterns).value.length = Builtin.patterns.length := by
    rw [← List.length_map Rule.raw, hRaw]
  have hTake : (builtinRules fileName).value.take Builtin.patterns.length =
      (compileLines Builtin.patterns).value.map Rule.asBuiltin := by
    rw [builtinRules_value, List.map_append]
    exact List.take_left' (by rw [List.length_map, hLength])
  refine ⟨?_, ?_, ?_⟩
  · rw [hTake, List.map_map]
    exact hRaw
  · rw [hTake, List.map_map]
    exact hOrdinal
  · rw [hTake, List.map_map, builtinRules, Traced.bind_log, Traced.map_log, Rule.ofFileName_log,
      compileLines_log_of_globs patterns_fit, hLength]
    rfl

/-! ## Rulebooks -/

/-- The log of a rulebook, part by part: the table if the settings ask for it, then each line, and
at last the numbers of the rules that came of them. -/
structure RecordsBuild (settings : Settings) (lines : List String) (book : Rulebook)
    (front perLine log : List Event) : Prop where
  table : if settings.withBuiltins then RecordsTable settings.fileName book.builtin front
    else front = []
  eachLine : RecordsLines 1 lines perLine
  custom_eq : book.custom =
    (lines.zipIdx 1).filterMap fun entry => (Rule.compile entry.1 entry.2).value
  count_eq : book.builtinCount = book.builtin.length
  log_eq : log = front ++ perLine ++ [.rulebookBuilt book.builtinCount book.custom.length]

theorem recordsBuild_append {settings : Settings} (builtin : List Rule) (lines : List String)
    {front : List Event} (hFront : if settings.withBuiltins then
      RecordsTable settings.fileName builtin front else front = []) :
    RecordsBuild settings lines ⟨builtin ++ (compileLines lines).value, builtin.length⟩ front
      (compileLines lines).log (front ++ ((compileLines lines).log ++ (ofCompiled
        (builtin ++ (compileLines lines).value) builtin.length).log)) where
  table := by rwa [builtin_append]
  eachLine := recordsLines_compileLines lines
  custom_eq := by rw [custom_append, compileLines_eq_zipIdx_one]
  count_eq := by rw [builtin_append]
  log_eq := by
    rw [custom_append, ofCompiled, List.length_append, Nat.add_sub_cancel_left, List.append_assoc]

end Rulebook

theorem Settings.exists_recordsBuild (settings : Settings) (lines : List String) :
    ∃ front perLine, Rulebook.RecordsBuild settings lines (settings.rulebook lines).value front
      perLine (settings.rulebook lines).log := by
  rw [rulebook]
  cases h : settings.withBuiltins with
  | true =>
    refine ⟨_, _, Rulebook.recordsBuild_append _ lines ?_⟩
    rw [h, if_pos rfl]
    exact Rulebook.recordsTable_builtinRules settings.fileName
  | false =>
    refine ⟨[], _, Rulebook.recordsBuild_append [] lines ?_⟩
    rw [h, if_neg Bool.false_ne_true]

end PathSieve
