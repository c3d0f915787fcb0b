import PathSieve.Rulebook

/-!
# Rules of lines

A line gives the same rule wherever it stands, but for the ordinal, and the ordinal matters to no
path. So a list of lines compiles piece by piece.
-/

namespace PathSieve

set_option autoImplicit false

namespace Rule

/-- The same rule from a source with more lines in front. -/
def later (count : Nat) (rule : Rule) : Rule := { rule with ordinal := rule.ordinal + count }

@[simp] theorem negated_later (count : Nat) (rule : Rule) :
    (rule.later count).negated = rule.negated := rfl

@[simp] theorem matchesPath_later (count : Nat) (rule : Rule) (path : Path) :
    (rule.later count).matchesPath path = rule.matchesPath path := rfl

theorem compile_later (line : String) (ordinal count : Nat) :
    (compile line (ordinal + count)).value = (compile line ordinal).value.map (later count) := by
  rw [compile_value, compile_value, Option.map_map]
  rfl

end Rule

namespace Rulebook

theorem compileLines_value (lines : List String) :
    (compileLines lines).value =
      lines.zipIdx.filterMap fun entry => (Rule.compile entry.1 (entry.2 + 1)).value := by
  rw [compileLines, Traced.map_value, Traced.collect_value, List.mapIdx_eq_zipIdx_map,
    List.map_map, List.filterMap_map]
  rfl

theorem compileLines_eq_zipIdx_one (lines : List String) :
    (compileLines lines).value =
      (lines.zipIdx 1).filterMap fun entry => (Rule.compile entry.1 entry.2).value := by
  rw [compileLines_value, List.zipIdx_succ, List.filterMap_map]
  rfl

theorem compileLines_append (lines more : List String) :
    (compileLines (lines ++ more)).value =
      (compileLines lines).value ++ (compileLines more).value.map (Rule.later lines.length) := by
  have hLater : ∀ entry : String × Nat,
      (Rule.compile entry.1 (lines.length + entry.2 + 1)).value =
        (Rule.compile entry.1 (entry.2 + 1)).value.map (Rule.later lines.length) := by
    intro entry
    rw [Nat.add_assoc, Nat.add_comm, Rule.compile_later]
  rw [compileLines_value, compileLines_value, compileLines_value, List.zipIdx_append,
    List.filterMap_append, Nat.zero_add, List.zipIdx_eq_map_add (l := more), List.filterMap_map,
    List.map_filterMap]
  simp only [← hLater]
  rfl

/-- The rules of lines that are trimmed already. -/
def rulesOfTrimmed (texts : List (List Char)) : List Rule :=
  texts.zipIdx.filterMap fun entry => (Pattern.ofTrimmed? entry.1).map fun pattern =>
    Rule.ofPattern (String.ofList entry.1) pattern (entry.2 + 1)

theorem compileLines_eq_rulesOfTrimmed (lines : List String) :
    (compileLines lines).value =
      rulesOfTrimmed (lines.map fun line => Text.trim line.toList) := by
  rw [compileLines_value, rulesOfTrimmed, List.zipIdx_map, List.filterMap_map]
  simp only [Rule.compile_value]
  rfl

theorem rulesOfTrimmed_append_nil (texts : List (List Char)) :
    rulesOfTrimmed (texts ++ [[]]) = rulesOfTrimmed texts := by
  rw [rulesOfTrimmed, List.zipIdx_append, List.filterMap_append]
  exact List.append_nil _

/-- Blank lines and comments give no rule. -/
theorem compileLines_of_no_pattern {lines : List String}
    (h : ∀ line ∈ lines, Text.trim line.toList = [] ∨
      Pattern.isComment (Text.trim line.toList) = true) : (compileLines lines).value = [] := by
  rw [compileLines_value, List.filterMap_eq_nil_iff]
  rintro ⟨line, i⟩ hEntry
  have hSkipped : ((Text.trim line.toList).isEmpty ||
      Pattern.isComment (Text.trim line.toList)) = true := by
    rw [Bool.or_eq_true, List.isEmpty_iff]
    exact h line (List.mem_of_getElem? (List.mem_zipIdx_iff_getElem?.mp hEntry))
  rw [Rule.compile_value, Pattern.ofTrimmed?, if_pos hSkipped]
  rfl

theorem mem_compileLines_iff (lines : List String) (rule : Rule) :
    rule ∈ (compileLines lines).value ↔
      ∃ i line, lines[i]? = some line ∧ (Rule.compile line (i + 1)).value = some rule := by
  rw [compileLines_value, List.mem_filterMap]
  constructor
  · rintro ⟨⟨line, i⟩, hMem, hRule⟩
    exact ⟨i, line, List.mem_zipIdx_iff_getElem?.mp hMem, hRule⟩
  · rintro ⟨i, line, hLine, hRule⟩
    exact ⟨(line, i), List.mem_zipIdx_iff_getElem?.mpr hLine, hRule⟩

theorem leading?_append (builtin custom : List Rule) :
    leading? (builtin ++ custom) builtin.length = some builtin := by
  rw [leading?, if_pos (by simp), List.take_left]

theorem behind?_append (builtin custom : List Rule) :
    behind? (builtin ++ custom) builtin.length = some custom := by
  rw [behind?, if_pos (by simp), List.drop_left]

theorem builtin_append (builtin custom : List Rule) :
    Rulebook.builtin ⟨builtin ++ custom, builtin.length⟩ = builtin := by
  rw [Rulebook.builtin, leading?_append, Option.getD_some]

theorem custom_append (builtin custom : List Rule) :
    Rulebook.custom ⟨builtin ++ custom, builtin.length⟩ = custom := by
  rw [Rulebook.custom, behind?_append, Option.getD_some]

theorem withBuiltins_value (fileName : String) (lines : List String) :
    (withBuiltins fileName lines).value =
      ⟨(builtinRules fileName).value ++ (compileLines lines).value,
        (builtinRules fileName).value.length⟩ := rfl

theorem ofLines_value (lines : List String) :
    (ofLines lines).value = ⟨(compileLines lines).value, 0⟩ := rfl

end Rulebook

end PathSieve
