import PathSieve.Path.Lemmas
import PathSieve.Rule

/-!
# Rules over segments

A rule asks its matcher about cuts of a path between byte offsets. `matchesPath_ofSegments_iff`
states which runs of segments these cuts are, for every scope and for directory rules, whatever
the matcher is.
-/

namespace PathSieve

open Text

set_option autoImplicit false

/-- The run of segments that a scope asks about: the last one alone, any run at the end, or all
of them. -/
def Scope.Finds (scope : Scope) (test : List (List Char) → Prop)
    (segments : List (List Char)) : Prop :=
  match scope with
  | .basename => ∃ segment, segments.getLast? = some segment ∧ test [segment]
  | .anyDepth => ∃ run, run ≠ [] ∧ run <:+ segments ∧ test run
  | .rooted => test segments
  | .wholePath => test segments

theorem Scope.Finds.mono {scope : Scope} {test other : List (List Char) → Prop}
    {segments : List (List Char)} (hFinds : scope.Finds test segments) (hSome : segments ≠ [])
    (h : ∀ run, run ≠ [] → run <:+: segments → test run → other run) :
    scope.Finds other segments := by
  cases scope with
  | basename =>
    obtain ⟨segment, hLast, hTest⟩ := hFinds
    refine ⟨segment, hLast, h [segment] (List.cons_ne_nil _ _) ?_ hTest⟩
    obtain ⟨before, rfl⟩ := List.getLast?_eq_some_iff.mp hLast
    exact List.infix_append_of_infix_right ⟨[], [], rfl⟩
  | anyDepth =>
    obtain ⟨run, hRun, hSuffix, hTest⟩ := hFinds
    exact ⟨run, hRun, hSuffix, h run hRun hSuffix.isInfix hTest⟩
  | rooted => exact h segments hSome (List.infix_refl segments) hFinds
  | wholePath => exact h segments hSome (List.infix_refl segments) hFinds

namespace Rule

/-- A rule covers a path if its scope finds what it looks for; a directory rule looks in every
leading run of segments. -/
def Covers (rule : Rule) (test : List (List Char) → Prop) (segments : List (List Char)) : Prop :=
  if rule.directory then
    ∃ leading, leading ≠ [] ∧ leading <+: segments ∧ rule.scope.Finds test leading
  else rule.scope.Finds test segments

theorem Covers.mono {rule other : Rule} {test more : List (List Char) → Prop}
    {segments : List (List Char)} (hCovers : rule.Covers test segments) (hSome : segments ≠ [])
    (hScope : rule.scope = other.scope) (hDirectory : rule.directory = other.directory)
    (h : ∀ run, run ≠ [] → run <:+: segments → test run → more run) :
    other.Covers more segments := by
  unfold Covers at hCovers ⊢
  rw [← hDirectory, ← hScope]
  split at hCovers
  · rename_i hLeads
    obtain ⟨leading, hLeading, hPrefix, hFinds⟩ := hCovers
    rw [if_pos hLeads]
    exact ⟨leading, hLeading, hPrefix, hFinds.mono hLeading fun run hRun hInfix =>
      h run hRun (hInfix.trans hPrefix.isInfix)⟩
  · rename_i hAll
    rw [if_neg hAll]
    exact hCovers.mono hSome h

theorem covers_congr (rule : Rule) {test other : List (List Char) → Prop}
    {segments : List (List Char)} (hSome : segments ≠ [])
    (h : ∀ run, run ≠ [] → run <:+: segments → (test run ↔ other run)) :
    rule.Covers test segments ↔ rule.Covers other segments :=
  ⟨fun hCovers => hCovers.mono hSome rfl rfl fun run hRun hInfix => (h run hRun hInfix).mp,
    fun hCovers => hCovers.mono hSome rfl rfl fun run hRun hInfix => (h run hRun hInfix).mpr⟩

theorem not_covers_nil (rule : Rule) {test : List (List Char) → Prop} (h : ¬ test []) :
    ¬ rule.Covers test [] := by
  unfold Covers
  split
  · rintro ⟨leading, hSome, hPrefix, _⟩
    exact hSome (List.prefix_nil.mp hPrefix)
  · cases rule.scope with
    | basename =>
      rintro ⟨segment, hLast, _⟩
      cases hLast
    | anyDepth =>
      rintro ⟨run, hSome, hSuffix, _⟩
      exact hSome (List.suffix_nil.mp hSuffix)
    | rooted => exact h
    | wholePath => exact h

def Accepts (rule : Rule) (segments : List (List Char)) : Prop :=
  rule.matcher.accepts (joinWith '/' segments) = true

theorem any_range?_iff (rule : Rule) (segments : List (List Char)) (start stop : Nat)
    (h : start < stop) (h' : stop ≤ segments.length) :
    ((Path.ofSegments segments).range? start stop).any rule.matcher.accepts = true ↔
      rule.Accepts ((segments.take stop).drop start) := by
  rw [Path.range?_ofSegments segments start stop h h', ← List.drop_take]
  rfl

theorem matchesLeading_iff (rule : Rule) (segments : List (List Char)) (count : Nat)
    (h : 0 < count) (h' : count ≤ segments.length) :
    rule.matchesLeading (Path.ofSegments segments) count = true ↔
      rule.scope.Finds rule.Accepts (segments.take count) := by
  have hLength : (segments.take count).length = count := by
    rw [List.length_take]
    omega
  unfold matchesLeading
  cases rule.scope with
  | basename =>
    change _ ↔ ∃ segment, _
    rw [any_range?_iff rule segments (count - 1) count (by omega) h']
    have hSome : segments.take count ≠ [] := List.ne_nil_of_length_pos (by omega)
    obtain ⟨before, last, hTake⟩ : ∃ before last, segments.take count = before ++ [last] :=
      ⟨_, _, (List.dropLast_concat_getLast hSome).symm⟩
    rw [hTake, List.length_append, List.length_singleton] at hLength
    rw [hTake, List.drop_left' (by omega), List.getLast?_concat]
    simp
  | anyDepth =>
    change _ ↔ ∃ run, _
    rw [List.any_eq_true]
    constructor
    · rintro ⟨start, hStart, hAny⟩
      rw [List.mem_range] at hStart
      rw [any_range?_iff rule segments start count hStart h'] at hAny
      refine ⟨_, List.ne_nil_of_length_pos ?_, List.drop_suffix start _, hAny⟩
      rw [List.length_drop]
      omega
    · rintro ⟨run, hRun, hSuffix, hAccepts⟩
      have hPositive := List.length_pos_iff.mpr hRun
      have hBound := hSuffix.length_le
      refine ⟨count - run.length, List.mem_range.mpr (by omega), ?_⟩
      rw [any_range?_iff rule segments _ count (by omega) h']
      have hRunEq := List.suffix_iff_eq_drop.mp hSuffix
      rw [hLength] at hRunEq
      rwa [← hRunEq]
  | rooted => exact any_range?_iff rule segments 0 count h h'
  | wholePath => exact any_range?_iff rule segments 0 count h h'

theorem matchesPath_ofSegments_iff (rule : Rule) (segments : List (List Char)) :
    rule.matchesPath (Path.ofSegments segments) = true ↔
      segments ≠ [] ∧ rule.Covers rule.Accepts segments := by
  have hCount := Path.segmentCount_ofSegments segments
  unfold matchesPath Covers
  by_cases hNil : segments = []
  · rw [hNil]
    exact iff_of_false Bool.false_ne_true fun h => h.1 rfl
  · have hPositive := List.length_pos_iff.mpr hNil
    have hEmpty : (Path.ofSegments segments).isEmpty = false := by
      rw [Path.isEmpty, List.isEmpty_eq_false_iff_exists_mem]
      exact List.exists_mem_of_length_pos (by rw [Path.ofSegments, Path.length_offsets]; omega)
    rw [hEmpty, if_neg Bool.false_ne_true, hCount, and_iff_right hNil]
    split
    · rw [List.any_eq_true]
      constructor
      · rintro ⟨i, hi, hMatches⟩
        rw [List.mem_range] at hi
        rw [matchesLeading_iff rule segments (i + 1) (by omega) (by omega)] at hMatches
        refine ⟨segments.take (i + 1), List.ne_nil_of_length_pos ?_, List.take_prefix _ _, hMatches⟩
        rw [List.length_take]
        omega
      · rintro ⟨leading, hSome, hPrefix, hFinds⟩
        have hLength := List.length_pos_iff.mpr hSome
        have hBound := hPrefix.length_le
        refine ⟨leading.length - 1, List.mem_range.mpr (by omega), ?_⟩
        rw [Nat.sub_add_cancel hLength, matchesLeading_iff rule segments _ hLength hBound,
          ← List.prefix_iff_eq_take.mp hPrefix]
        exact hFinds
    · rw [matchesLeading_iff rule segments _ hPositive (Nat.le_refl _), List.take_length]

/-- A matcher that accepts more matches more, with the same scope. -/
theorem matchesPath_of_accepts {rule other : Rule}
    (hAccepts : ∀ candidate, rule.matcher.accepts candidate = true →
      other.matcher.accepts candidate = true)
    (hScope : rule.scope = other.scope) (hDirectory : rule.directory = other.directory)
    {raw : String} (h : rule.matchesPath (Path.ofString raw) = true) :
    other.matchesPath (Path.ofString raw) = true := by
  rw [Path.ofString_eq_ofSegments, matchesPath_ofSegments_iff] at h ⊢
  obtain ⟨hSome, hCovers⟩ := h
  exact ⟨hSome, hCovers.mono hSome hScope hDirectory fun run _ _ => hAccepts (joinWith '/' run)⟩

theorem matchesPath_basename_iff {rule : Rule} (hScope : rule.scope = .basename)
    (hDirectory : rule.directory = false) (raw : String) :
    rule.matchesPath (Path.ofString raw) = true ↔ ∃ segment,
      (Path.segmentsOf raw.toList).getLast? = some segment ∧
        rule.matcher.accepts segment = true := by
  rw [Path.ofString_eq_ofSegments, matchesPath_ofSegments_iff, Covers, hDirectory,
    if_neg Bool.false_ne_true, hScope]
  constructor
  · rintro ⟨_, segment, hLast, hAccepts⟩
    rw [Accepts, joinWith_singleton] at hAccepts
    exact ⟨segment, hLast, hAccepts⟩
  · rintro ⟨segment, hLast, hAccepts⟩
    refine ⟨?_, segment, hLast, ?_⟩
    · intro hNil
      rw [hNil] at hLast
      cases hLast
    · rwa [Accepts, joinWith_singleton]

theorem matchesPath_rooted_iff {rule : Rule} (hScope : rule.scope = .rooted)
    (hDirectory : rule.directory = false) (raw : String) :
    rule.matchesPath (Path.ofString raw) = true ↔ Path.segmentsOf raw.toList ≠ [] ∧
      rule.matcher.accepts (joinWith '/' (Path.segmentsOf raw.toList)) = true := by
  rw [Path.ofString_eq_ofSegments, matchesPath_ofSegments_iff, Covers, hDirectory,
    if_neg Bool.false_ne_true, hScope]
  rfl

end Rule

end PathSieve
