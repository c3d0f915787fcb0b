import PathSieve.Proofs.Pattern.Marking
import PathSieve.Proofs.Rule.Reading

/-!
# Lines and the patterns they spell

What reading makes of a line is a canonical pattern, and every canonical pattern is what reading
makes of its text. `compile_inverts_text` puts both together: a rule is written back as the line it
came from, and what is written around a body is counted again, blanks aside.
-/

namespace PathSieve

open Text

set_option autoImplicit false

namespace Pattern

theorem stripDirGroups_zero {cs : List Char} (h : (stripDirGroups 0 cs).1 = 0) :
    (stripDirGroups 0 cs).2 = cs := by
  obtain ⟨count, hCount, hRest⟩ := stripDirGroups_spec 0 cs
  rw [h, Nat.zero_add] at hCount
  rw [← hCount, List.replicate_zero, List.flatten_nil, List.nil_append] at hRest
  exact hRest.symm

theorem canonical_ofMarked {line : List Char} (h : (ofMarked line).body ≠ []) :
    (ofMarked line).Canonical where
  body_ne_nil := h
  body_last := getLast?_body_ne_slash line
  body_first := by
    intro hGroups
    rcases ofMarked_cases line with ⟨_, hGrouped⟩ | ⟨_, _, hBody⟩
    · obtain ⟨hCount, hBody⟩ := Prod.mk.inj hGrouped
      rw [hBody, stripDirGroups_zero (hCount.symm.trans hGroups)]
      exact head?_dropWhile_slash _
    · rw [hBody]
      exact head?_dropWhile_slash _
  groups_of_rooted := by
    intro hSlashes
    rcases ofMarked_cases line with ⟨hRooted, _⟩ | ⟨_, hGroups, _⟩
    · exact absurd hRooted hSlashes
    · exact hGroups
  body_group := by
    intro hRooted
    rcases ofMarked_cases line with ⟨_, hGrouped⟩ | ⟨hSlashes, _⟩
    · rw [(Prod.mk.inj hGrouped).2]
      exact not_prefix_stripDirGroups 0 _
    · exact absurd hRooted hSlashes
  text_sign := by
    intro hNegated
    rw [text_ofMarked]
    exact beq_eq_false_iff_ne.mp hNegated

theorem ofTrimmed?_eq_some_iff {line : List Char} {pattern : Pattern} :
    ofTrimmed? line = some pattern ↔
      pattern.Canonical ∧ pattern.text = line ∧ line.head? ≠ some '#' := by
  constructor
  · intro h
    obtain ⟨rfl, hBody⟩ := eq_ofMarked_of_ofTrimmed? h
    refine ⟨canonical_ofMarked hBody, text_ofMarked line, ?_⟩
    intro hComment
    rw [ofTrimmed?, isComment, hComment] at h
    simp at h
  · rintro ⟨hCanonical, rfl, hComment⟩
    exact ofTrimmed?_text hCanonical hComment

/-! ## Groups behind slashes -/

/-- Behind slashes the groups that are written in front of a body are a part of it. -/
def settled (pattern : Pattern) : Pattern :=
  if pattern.leadingSlashes = 0 then pattern
  else { pattern with
    dirGroups := 0
    body := (List.replicate pattern.dirGroups dirGroup).flatten ++ pattern.body }

theorem text_settled (pattern : Pattern) : pattern.settled.text = pattern.text := by
  rw [settled]
  split
  · rfl
  · simp [text, dirGroup, List.append_assoc]

/-- A body with no slash at its ends and no group in front. -/
structure IsCore (body : List Char) : Prop where
  ne_nil : body ≠ []
  head?_ne : body.head? ≠ some '/'
  getLast?_ne : body.getLast? ≠ some '/'
  not_group : ¬ dirGroup <+: body

theorem canonical_settled {pattern : Pattern} (hCore : IsCore pattern.body)
    (hSign : pattern.negated = false → pattern.text.head? ≠ some '!') :
    pattern.settled.Canonical := by
  rw [← text_settled] at hSign
  unfold settled at hSign ⊢
  split
  · rename_i hRooted
    rw [if_pos hRooted] at hSign
    exact
      { body_ne_nil := hCore.ne_nil
        body_last := hCore.getLast?_ne
        body_first := fun _ => hCore.head?_ne
        groups_of_rooted := fun hSlashes => absurd hRooted hSlashes
        body_group := fun _ => hCore.not_group
        text_sign := hSign }
  · rename_i hRooted
    rw [if_neg hRooted] at hSign
    exact
      { body_ne_nil := List.append_ne_nil_of_right_ne_nil _ hCore.ne_nil
        body_last := by
          rw [List.getLast?_append_of_ne_nil _ hCore.ne_nil]
          exact hCore.getLast?_ne
        body_first := by
          intro _
          -- The body begins with the core, or with a group, which is no slash either.
          cases pattern.dirGroups with
          | zero => exact hCore.head?_ne
          | succ count => simp [List.replicate_succ, dirGroup]
        groups_of_rooted := fun _ => rfl
        body_group := fun hSlashes => absurd hSlashes hRooted
        text_sign := hSign }

end Pattern

namespace Rule

open Pattern

/-- A rule is written with the markers of a pattern around its body, and each of its flags says
whether there is a marker of that kind. -/
structure WrittenAs (rule : Rule) (pattern : Pattern) : Prop where
  raw_eq : rule.raw.toList = pattern.text
  body_eq : rule.body.toList = pattern.body
  negated_eq : rule.negated = pattern.negated
  rooted_iff : rule.scope = .rooted ↔ pattern.leadingSlashes ≠ 0
  anyDepth_iff : rule.scope = .anyDepth ↔ pattern.dirGroups ≠ 0
  directory_iff : rule.directory = true ↔ pattern.trailingSlashes ≠ 0
  basename_iff : rule.scope = .basename ↔
    pattern.leadingSlashes = 0 ∧ pattern.dirGroups = 0 ∧ '/' ∉ pattern.body

theorem scope_ofPattern_cases {pattern : Pattern} (h : pattern.Canonical) :
    (Scope.ofPattern pattern = .rooted ↔ pattern.leadingSlashes ≠ 0) ∧
    (Scope.ofPattern pattern = .anyDepth ↔ pattern.dirGroups ≠ 0) ∧
    (Scope.ofPattern pattern = .basename ↔
      pattern.leadingSlashes = 0 ∧ pattern.dirGroups = 0 ∧ '/' ∉ pattern.body) := by
  have hGroups := h.groups_of_rooted
  by_cases hRooted : pattern.leadingSlashes = 0
  · by_cases hDepth : pattern.dirGroups = 0
    · by_cases hSlash : '/' ∈ pattern.body <;>
        simp [Scope.ofPattern, isRooted, isAnyDepth, isBasename, hRooted, hDepth, hSlash]
    · simp [Scope.ofPattern, isRooted, isAnyDepth, hRooted, hDepth]
  · simp [Scope.ofPattern, isRooted, hRooted, hGroups hRooted]

theorem writtenAs_ofPattern {pattern : Pattern} (h : pattern.Canonical) (ordinal : Nat) :
    (ofPattern (String.ofList pattern.text) pattern ordinal).WrittenAs pattern := by
  obtain ⟨hRooted, hDepth, hBasename⟩ := scope_ofPattern_cases h
  exact
    { raw_eq := String.toList_ofList
      body_eq := String.toList_ofList
      negated_eq := rfl
      rooted_iff := hRooted
      anyDepth_iff := hDepth
      directory_iff := bne_iff_ne
      basename_iff := hBasename }

theorem compile_eq_some_iff {line : String} {ordinal : Nat} {rule : Rule} :
    (compile line ordinal).value = some rule ↔
      ∃ pattern : Pattern, pattern.Canonical ∧ pattern.text = trim line.toList ∧
        (trim line.toList).head? ≠ some '#' ∧
        rule = ofPattern (String.ofList pattern.text) pattern ordinal := by
  rw [compile_value, Option.map_eq_some_iff]
  apply exists_congr
  intro pattern
  rw [ofTrimmed?_eq_some_iff, and_assoc, and_assoc]
  apply and_congr_right
  intro _
  apply and_congr_right
  intro hText
  rw [hText, eq_comm]

/-- A rule is written back as the trimmed line it came from, and reading it again gives the same
rule. What is written around a body that holds no marker at its ends is read as that, whatever
blanks surround it; only the groups behind leading slashes stay in the body. -/
theorem compile_inverts_text (ordinal : Nat) :
    (∀ (line : String) (rule : Rule), (compile line ordinal).value = some rule →
      rule.raw = String.ofList (trim line.toList) ∧
        (∃ pattern : Pattern, pattern.Canonical ∧ rule.WrittenAs pattern) ∧
        (compile rule.raw ordinal).value = some rule) ∧
    ∀ pattern : Pattern, IsCore pattern.body → startsBlank pattern.text = false →
      endsBlank pattern.text = false → pattern.text.head? ≠ some '#' →
      (pattern.negated = false → pattern.text.head? ≠ some '!') →
        ∃ rule : Rule, rule.WrittenAs pattern.settled ∧
          ∀ before after : List Char, (∀ c ∈ before, isBlank c = true) →
            (∀ c ∈ after, isBlank c = true) →
            (compile (String.ofList (before ++ pattern.text ++ after)) ordinal).value =
              some rule := by
  constructor
  · intro line rule hRule
    obtain ⟨pattern, hCanonical, hText, hComment, rfl⟩ := compile_eq_some_iff.mp hRule
    refine ⟨congrArg String.ofList hText, ⟨pattern, hCanonical,
      writtenAs_ofPattern hCanonical ordinal⟩, ?_⟩
    have hRaw : trim (ofPattern (String.ofList pattern.text) pattern ordinal).raw.toList =
        trim line.toList := by
      rw [ofPattern, String.toList_ofList, hText, trim_trim]
    exact compile_eq_some_iff.mpr ⟨pattern, hCanonical, hText.trans hRaw.symm, hRaw ▸ hComment, rfl⟩
  · intro pattern hCore hStart hEnd hComment hSign
    have hCanonical := canonical_settled hCore hSign
    refine ⟨_, writtenAs_ofPattern hCanonical ordinal, ?_⟩
    intro before after hBefore hAfter
    have hTrim : trim (String.ofList (before ++ pattern.text ++ after)).toList = pattern.text := by
      rw [String.toList_ofList, trim_append_blanks _ hAfter, trim_blanks_append _ hBefore,
        trim_eq_self hStart hEnd]
    rw [← hTrim] at hComment
    exact compile_eq_some_iff.mpr ⟨_, hCanonical, (text_settled pattern).trans hTrim.symm, hComment,
      rfl⟩

theorem compile_inverts_text_blanks : IsCore "!x y".toList ∧ ∃ rule : Rule,
    rule.WrittenAs ⟨true, 0, 2, "!x y".toList, 1⟩ ∧
      (compile " \t!**/**/!x y/\u3000" 5).value = some rule ∧ rule.raw = "!**/**/!x y/" ∧
      (compile rule.raw 5).value = some rule := by
  have hCore : IsCore "!x y".toList := ⟨by decide, by decide, by decide, by decide⟩
  obtain ⟨hBack, hFront⟩ := compile_inverts_text 5
  obtain ⟨rule, hWritten, hRule⟩ := hFront ⟨true, 0, 2, "!x y".toList, 1⟩ hCore (by decide)
    (by decide) (by decide) (by decide)
  have hLine := hRule [' ', '\t'] ['\u3000'] (List.all_eq_true.mp rfl) (List.all_eq_true.mp rfl)
  obtain ⟨hRaw, _, hAgain⟩ := hBack _ rule hLine
  exact ⟨hCore, rule, hWritten, hLine, hRaw.trans (by decide), hAgain⟩

end Rule

end PathSieve
