import PathSieve.Path.Lemmas
import PathSieve.Proofs.Rulebook.Lines

/-!
# Where rules come from

A rule names its source and the line there. `accounts_for_lines` states that the rules of every
rulebook are those of the pattern table and of its lines, in order and each once, so that source
and line tell any two rules apart, and that the number of built-in rules is a place in the list.
-/

namespace PathSieve

set_option autoImplicit false

namespace Rule

@[simp] theorem raw_asBuiltin (rule : Rule) : rule.asBuiltin.raw = rule.raw := rfl

@[simp] theorem ordinal_asBuiltin (rule : Rule) : rule.asBuiltin.ordinal = rule.ordinal := rfl

@[simp] theorem origin_asBuiltin (rule : Rule) : rule.asBuiltin.origin = .builtin := rfl

/-- What a compiled rule keeps of its line. -/
theorem source_of_compile {line : String} {ordinal : Nat} {rule : Rule}
    (h : (compile line ordinal).value = some rule) :
    rule.raw = String.ofList (Text.trim line.toList) ∧ rule.ordinal = ordinal ∧
      rule.origin = .custom := by
  rw [compile_value] at h
  obtain ⟨pattern, _, rfl⟩ := Option.map_eq_some_iff.mp h
  exact ⟨rfl, rfl, rfl⟩

theorem ofFileName_value (name : String) (ordinal : Nat) :
    ((Path.ofString name).segments = [] ∧ (ofFileName name ordinal).value = none) ∨
      ((Path.ofString name).segments ≠ [] ∧ ∃ rule,
        (ofFileName name ordinal).value = some rule ∧ rule.raw = name ∧
          rule.ordinal = ordinal) := by
  rw [ne_eq, ← Path.isEmpty_ofString_iff, ofFileName]
  cases hEmpty : (Path.ofString name).isEmpty with
  | true => exact .inl ⟨rfl, rfl⟩
  | false => exact .inr ⟨Bool.false_ne_true, _, rfl, rfl, rfl⟩

end Rule

namespace Rulebook

/-! ## The rules of a list of lines -/

theorem compileLines_increasing (lines : List String) :
    (compileLines lines).value.Pairwise fun rule later => rule.ordinal < later.ordinal := by
  have hIndices : lines.zipIdx.Pairwise fun entry later => entry.2 < later.2 := by
    rw [← List.pairwise_map (f := Prod.snd) (R := (· < ·)), List.zipIdx_map_snd]
    exact List.pairwise_lt_range' 1
  rw [compileLines_value, List.pairwise_filterMap]
  refine hIndices.imp ?_
  intro entry later hIndex rule hRule other hOther
  obtain ⟨_, hOrdinal, _⟩ := Rule.source_of_compile hRule
  obtain ⟨_, hOrdinal', _⟩ := Rule.source_of_compile hOther
  omega

theorem compileLines_nodup (lines : List String) : (compileLines lines).value.Nodup := by
  refine (compileLines_increasing lines).imp ?_
  rintro rule _ hOrdinal rfl
  exact Nat.lt_irrefl _ hOrdinal

theorem origin_of_mem_compileLines {lines : List String} {rule : Rule}
    (h : rule ∈ (compileLines lines).value) : rule.origin = .custom := by
  obtain ⟨i, line, _, hRule⟩ := (mem_compileLines_iff lines rule).mp h
  exact (Rule.source_of_compile hRule).2.2

theorem line_of_mem_compileLines {lines : List String} {rule : Rule}
    (h : rule ∈ (compileLines lines).value) :
    ∃ line, 0 < rule.ordinal ∧ lines[rule.ordinal - 1]? = some line ∧
      rule.raw = String.ofList (Text.trim line.toList) ∧
      (Rule.compile line rule.ordinal).value = some rule := by
  obtain ⟨i, line, hLine, hRule⟩ := (mem_compileLines_iff lines rule).mp h
  obtain ⟨hRaw, hOrdinal, _⟩ := Rule.source_of_compile hRule
  rw [hOrdinal]
  exact ⟨line, Nat.succ_pos i, hLine, hRaw, hRule⟩

theorem count_compileLines {lines : List String} {i : Nat} {line : String} {rule : Rule}
    (hLine : lines[i]? = some line) (hRule : (Rule.compile line (i + 1)).value = some rule) :
    (compileLines lines).value.count rule = 1 := by
  have hMem := (mem_compileLines_iff lines rule).mpr ⟨i, line, hLine, hRule⟩
  rw [(compileLines_nodup lines).count, if_pos hMem]

/-- Lines that are patterns as they stand leave no gap. -/
theorem compileLines_of_patterns (lines : List String)
    (h : ∀ line ∈ lines, Text.trim line.toList = line.toList ∧
      (Pattern.ofTrimmed? line.toList).isSome = true) :
    (compileLines lines).value.map Rule.raw = lines ∧
      (compileLines lines).value.map Rule.ordinal = List.range' 1 lines.length := by
  suffices hFrom : ∀ start,
      ((lines.zipIdx start).filterMap fun entry =>
          (Rule.compile entry.1 (entry.2 + 1)).value).map Rule.raw = lines ∧
        ((lines.zipIdx start).filterMap fun entry =>
          (Rule.compile entry.1 (entry.2 + 1)).value).map Rule.ordinal =
            List.range' (start + 1) lines.length by
    rw [compileLines_value]
    exact hFrom 0
  induction lines with
  | nil => exact fun _ => ⟨rfl, rfl⟩
  | cons line lines ih =>
    intro start
    obtain ⟨hTrim, hSome⟩ := h line List.mem_cons_self
    obtain ⟨pattern, hPattern⟩ := Option.isSome_iff_exists.mp hSome
    have hRule : (Rule.compile line (start + 1)).value =
        some (Rule.ofPattern line pattern (start + 1)) := by
      rw [Rule.compile_value, hTrim, hPattern, String.ofList_toList]
      rfl
    obtain ⟨hRaw, hOrdinal⟩ := ih (fun other hOther => h other (List.mem_cons_of_mem _ hOther))
      (start + 1)
    simp only [List.zipIdx_cons, List.filterMap_cons, hRule, List.map_cons, hRaw, hOrdinal,
      List.length_cons, List.range'_succ]
    exact ⟨rfl, rfl⟩

/-! ## The built-in rules -/

theorem patterns_compile : ∀ line ∈ Builtin.patterns, Text.trim line.toList = line.toList ∧
    (Pattern.ofTrimmed? line.toList).isSome = true := by
  decide

theorem builtinRules_value (fileName : String) :
    (builtinRules fileName).value =
      ((compileLines Builtin.patterns).value ++ (Rule.ofFileName fileName
        ((compileLines Builtin.patterns).value.length + 1)).value.toList).map Rule.asBuiltin := rfl

theorem builtinRules_sources (fileName : String) :
    (builtinRules fileName).value.map Rule.raw =
        (if (Path.ofString fileName).segments = [] then (Builtin.patternsWith fileName).dropLast
          else Builtin.patternsWith fileName) ∧
      (builtinRules fileName).value.map Rule.ordinal =
        List.range' 1 (builtinRules fileName).value.length := by
  obtain ⟨hRaw, hOrdinal⟩ := compileLines_of_patterns Builtin.patterns patterns_compile
  have hLength : (compileLines Builtin.patterns).value.length = Builtin.patterns.length := by
    rw [← List.length_map Rule.raw, hRaw]
  have hTable : ∀ (α : Type) (f : Rule → α), (∀ rule, f (Rule.asBuiltin rule) = f rule) →
      (builtinRules fileName).value.map f = (compileLines Builtin.patterns).value.map f ++
        (Rule.ofFileName fileName (Builtin.patterns.length + 1)).value.toList.map f := by
    intro α f hSame
    rw [builtinRules_value, hLength, List.map_map, List.map_append]
    simp only [Function.comp_def, hSame]
  rw [← List.length_map Rule.raw, hTable _ _ Rule.raw_asBuiltin, hTable _ _ Rule.ordinal_asBuiltin,
    hRaw, hOrdinal]
  rcases Rule.ofFileName_value fileName (Builtin.patterns.length + 1) with
    ⟨hName, hNone⟩ | ⟨hName, rule, hRule, hText, hPlace⟩
  · rw [hNone, if_pos hName, Builtin.patternsWith, List.dropLast_concat]
    simp
  · rw [hRule, if_neg hName, Builtin.patternsWith, Option.toList_some, List.map_singleton,
      List.map_singleton, hText, hPlace, List.length_append, List.length_singleton,
      List.range'_concat, Nat.one_mul, Nat.add_comm 1]
    exact ⟨rfl, rfl⟩

theorem origin_of_mem_builtinRules {fileName : String} {rule : Rule}
    (h : rule ∈ (builtinRules fileName).value) : rule.origin = .builtin := by
  rw [builtinRules_value] at h
  obtain ⟨source, _, rfl⟩ := List.mem_map.mp h
  exact Rule.origin_asBuiltin source

/-! ## Rulebooks -/

/-- The rules of a rulebook are two parts with the border at its count. The first part numbers the
rules of the table without a gap, and the second holds each rule of the lines once. -/
structure AccountsFor (book : Rulebook) (lines : List String) : Prop where
  parts : book.builtin ++ book.custom = book.rules
  count_le : book.builtinCount ≤ book.rules.length
  leading : leading? book.rules book.builtinCount = some book.builtin
  behind : behind? book.rules book.builtinCount = some book.custom
  length_builtin : book.builtin.length = book.builtinCount
  length_custom : book.custom.length = book.rules.length - book.builtinCount
  builtin_origin : ∀ rule ∈ book.builtin, rule.origin = .builtin
  custom_origin : ∀ rule ∈ book.custom, rule.origin = .custom
  builtin_ordinals : book.builtin.map Rule.ordinal = List.range' 1 book.builtinCount
  custom_increasing : (book.custom.map Rule.ordinal).Pairwise (· < ·)
  custom_compiled : ∀ rule ∈ book.custom, ∃ line, 0 < rule.ordinal ∧
    lines[rule.ordinal - 1]? = some line ∧ rule.raw = String.ofList (Text.trim line.toList) ∧
    (Rule.compile line rule.ordinal).value = some rule
  custom_once : ∀ i line rule, lines[i]? = some line →
    (Rule.compile line (i + 1)).value = some rule → book.custom.count rule = 1
  identified : (book.rules.map fun rule => (rule.origin, rule.ordinal)).Nodup

theorem identified_append {builtin custom : List Rule}
    (hBuiltin : ∀ rule ∈ builtin, rule.origin = .builtin)
    (hCustom : ∀ rule ∈ custom, rule.origin = .custom)
    (hFirst : (builtin.map Rule.ordinal).Nodup) (hSecond : (custom.map Rule.ordinal).Nodup) :
    ((builtin ++ custom).map fun rule => (rule.origin, rule.ordinal)).Nodup := by
  have hPart : ∀ rules : List Rule, (rules.map Rule.ordinal).Nodup →
      (rules.map fun rule => (rule.origin, rule.ordinal)).Nodup := by
    intro rules hRules
    rw [List.Nodup, List.pairwise_map] at hRules ⊢
    exact hRules.imp fun hOrdinal hPair => hOrdinal (Prod.mk.inj hPair).2
  rw [List.map_append, List.nodup_append]
  refine ⟨hPart builtin hFirst, hPart custom hSecond, ?_⟩
  intro pair hPair other hOther hEq
  obtain ⟨rule, hRule, rfl⟩ := List.mem_map.mp hPair
  obtain ⟨later, hLater, rfl⟩ := List.mem_map.mp hOther
  have hOrigin := (Prod.mk.inj hEq).1
  rw [hBuiltin rule hRule, hCustom later hLater] at hOrigin
  cases hOrigin

theorem accountsFor_append (builtin : List Rule) (lines : List String)
    (hOrigin : ∀ rule ∈ builtin, rule.origin = .builtin)
    (hOrdinals : builtin.map Rule.ordinal = List.range' 1 builtin.length) :
    AccountsFor ⟨builtin ++ (compileLines lines).value, builtin.length⟩ lines where
  parts := by rw [builtin_append, custom_append]
  count_le := by
    rw [List.length_append]
    exact Nat.le_add_right _ _
  leading := by rw [builtin_append, leading?_append]
  behind := by rw [custom_append, behind?_append]
  length_builtin := by rw [builtin_append]
  length_custom := by rw [custom_append, List.length_append, Nat.add_sub_cancel_left]
  builtin_origin := by rwa [builtin_append]
  custom_origin := by
    rw [custom_append]
    exact fun rule => origin_of_mem_compileLines
  builtin_ordinals := by rw [builtin_append, hOrdinals]
  custom_increasing := by
    rw [custom_append]
    exact List.pairwise_map.mpr (compileLines_increasing lines)
  custom_compiled := by
    rw [custom_append]
    exact fun rule => line_of_mem_compileLines
  custom_once := by
    intro i line rule hLine hRule
    rw [custom_append, count_compileLines hLine hRule]
  identified := by
    apply identified_append hOrigin fun rule => origin_of_mem_compileLines
    · rw [hOrdinals]
      exact List.nodup_range' 1
    · exact List.pairwise_map.mpr ((compileLines_increasing lines).imp Nat.ne_of_lt)

/-- Every rulebook accounts for its lines, and the built-in rules are the pattern table with the
name of the ignore file behind it, unless that name has no segment. -/
theorem accounts_for_lines (fileName : String) (lines : List String) :
    (withBuiltins fileName lines).value.AccountsFor lines ∧
    (withBuiltins fileName lines).value.builtin.map Rule.raw =
      (if (Path.ofString fileName).segments = [] then (Builtin.patternsWith fileName).dropLast
        else Builtin.patternsWith fileName) ∧
    (ofLines lines).value.AccountsFor lines ∧ (ofLines lines).value.builtinCount = 0 ∧
    empty.AccountsFor [] ∧ empty.rules = [] := by
  obtain ⟨hRaw, hOrdinals⟩ := builtinRules_sources fileName
  have hTable := accountsFor_append _ lines (fun rule => origin_of_mem_builtinRules) hOrdinals
  have hAlone : ∀ lines, (ofLines lines).value.AccountsFor lines := by
    intro lines
    exact accountsFor_append [] lines (fun _ h => absurd h List.not_mem_nil) rfl
  refine ⟨hTable, ?_, hAlone lines, rfl, hAlone [], rfl⟩
  rw [← hRaw, withBuiltins_value, builtin_append]

end Rulebook

end PathSieve
