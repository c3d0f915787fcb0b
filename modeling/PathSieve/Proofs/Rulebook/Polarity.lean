import PathSieve.Proofs.Rulebook.Precedence
import PathSieve.Proofs.Rulebook.Provenance

/-!
# Lines with the other sign

A sign in front of a line changes nothing but the sign of its rule. So every plain rule among some
lines has a negated one that matches the same paths once each line stands there with a sign as
well, and `signed_lines_cancel` states that such lines ignore nothing.
-/

namespace PathSieve

open Text

set_option autoImplicit false

theorem Text.trim_sign_trim (cs : List Char) : trim ('!' :: trim cs) = '!' :: trim cs := by
  apply trim_eq_self
  · rfl
  · cases hTrim : trim cs with
    | nil => rfl
    | cons c rest =>
      rw [← List.singleton_append, endsBlank_append _ (List.cons_ne_nil c rest), ← hTrim]
      exact endsBlank_trim cs

theorem Text.toList_sign_ofList (cs : List Char) :
    ("!" ++ String.ofList cs).toList = '!' :: cs := by
  rw [String.toList_append, String.toList_ofList (l := cs)]
  rfl

namespace Pattern

theorem ofMarked_sign {line : List Char} (h : (ofMarked line).negated = false) :
    ofMarked ('!' :: line) = { ofMarked line with negated := true } := by
  change (line.head? == some '!') = false at h
  simp [ofMarked, h]

theorem ofTrimmed?_sign {line : List Char} {pattern : Pattern}
    (h : ofTrimmed? line = some pattern) (hPlain : pattern.negated = false) :
    ofTrimmed? ('!' :: line) = some { pattern with negated := true } := by
  obtain ⟨rfl, hBody⟩ := eq_ofMarked_of_ofTrimmed? h
  have hSkipped : (('!' :: line).isEmpty || isComment ('!' :: line)) = false := rfl
  have hSome : (ofMarked ('!' :: line)).body.isEmpty = false := by
    rw [ofMarked_sign hPlain, List.isEmpty_eq_false_iff]
    exact hBody
  rw [ofTrimmed?, hSkipped, read?, hSome, ofMarked_sign hPlain]
  rfl

end Pattern

namespace Rule

/-- A negated rule that matches what a plain one does, for the same reasons. -/
structure Undoes (signed rule : Rule) : Prop where
  negated_eq : signed.negated = true
  body_eq : signed.body = rule.body
  scope_eq : signed.scope = rule.scope
  directory_eq : signed.directory = rule.directory
  matchesPath_eq : ∀ path, signed.matchesPath path = rule.matchesPath path

theorem undoes_ofPattern (raw signedRaw : String) (pattern : Pattern) (ordinal other : Nat) :
    (ofPattern signedRaw { pattern with negated := true } other).Undoes
      (ofPattern raw pattern ordinal) :=
  ⟨rfl, rfl, rfl, rfl, fun _ => rfl⟩

theorem exists_undoes_of_compile {line : String} {ordinal : Nat} {rule : Rule}
    (h : (compile line ordinal).value = some rule) (hPlain : rule.negated = false)
    (other : Nat) :
    ∃ signed, (compile ("!" ++ rule.raw) other).value = some signed ∧ signed.Undoes rule := by
  rw [compile_value] at h
  obtain ⟨pattern, hPattern, rfl⟩ := Option.map_eq_some_iff.mp h
  have hLine : trim ("!" ++ String.ofList (trim line.toList)).toList = '!' :: trim line.toList := by
    rw [toList_sign_ofList, trim_sign_trim]
  refine ⟨ofPattern (String.ofList ('!' :: trim line.toList))
    { pattern with negated := true } other, ?_, undoes_ofPattern _ _ pattern ordinal other⟩
  change (compile ("!" ++ String.ofList (trim line.toList)) other).value = _
  rw [compile_value, hLine, Pattern.ofTrimmed?_sign hPattern hPlain, Option.map_some]

end Rule

namespace Rulebook

/-- The trimmed line with a sign in front of it. -/
def signedLine (line : String) : String := "!" ++ String.ofList (trim line.toList)

theorem isNegatedLine_signedLine (line : String) : IsNegatedLine (signedLine line) := by
  rw [IsNegatedLine, signedLine, toList_sign_ofList, trim_sign_trim, List.head?_cons]

theorem not_hasMatch_signedLines (lines : List String) (path : Path) :
    ¬ HasMatch (compileLines (lines.map signedLine)).value path false := by
  intro hMatch
  obtain ⟨_, hLine, hSign⟩ := exists_line_of_hasMatch hMatch
  obtain ⟨line, _, rfl⟩ := List.mem_map.mp hLine
  exact Bool.false_ne_true (hSign.mpr (isNegatedLine_signedLine line))

theorem hasMatch_signedLines_of_plain {lines : List String} {path : Path}
    (h : HasMatch (compileLines lines).value path false) :
    HasMatch (compileLines (lines.map signedLine)).value path true := by
  obtain ⟨rule, hRule, hPlain, hMatch⟩ := h
  obtain ⟨i, line, hLine, hCompile⟩ := (mem_compileLines_iff lines rule).mp hRule
  obtain ⟨signed, hSigned, hUndoes⟩ := Rule.exists_undoes_of_compile hCompile hPlain (i + 1)
  have hPlace : (lines.map signedLine)[i]? = some ("!" ++ rule.raw) := by
    rw [List.getElem?_map, hLine, (Rule.source_of_compile hCompile).1]
    rfl
  refine ⟨signed, (mem_compileLines_iff _ signed).mpr ⟨i, _, hPlace, hSigned⟩,
    hUndoes.negated_eq, ?_⟩
  rw [hUndoes.matchesPath_eq, hMatch]

/-- A sign in front of a plain line gives a rule that keeps just what the line ignores. So lines
that all stand there with a sign as well ignore nothing, in whatever order. -/
theorem signed_lines_cancel :
    (∀ (line : String) (ordinal : Nat) (rule : Rule),
      (Rule.compile line ordinal).value = some rule → rule.negated = false →
      ∀ other : Nat, ∃ signed : Rule,
        (Rule.compile ("!" ++ rule.raw) other).value = some signed ∧ signed.Undoes rule) ∧
    ∀ lines arranged : List String, arranged.Perm (lines ++ lines.map signedLine) →
      ∀ raw : String, (ofLines arranged).value.ignores raw = false := by
  refine ⟨fun _ _ _ => Rule.exists_undoes_of_compile, ?_⟩
  intro lines arranged hArranged raw
  have hMatch := hasMatch_compileLines_perm_iff hArranged (Path.ofString raw)
  rw [Bool.eq_false_iff, Ne, ignores_eq_true_iff, ofLines_value, rules, hMatch, hMatch]
  rintro ⟨hNegated, hPlain⟩
  have hLine := hPlain.resolve_right (not_hasMatch_signedLines lines _)
  exact hNegated (.inr (hasMatch_signedLines_of_plain hLine))

theorem signed_lines_cancel_mixed : (∃ signed : Rule,
      (Rule.compile "!**/[a]*.log/" 9).value = some signed ∧
        signed.Undoes (Rule.ofPattern "**/[a]*.log/" ⟨false, 0, 1, "[a]*.log".toList, 1⟩ 2)) ∧
    List.Perm ["!# logs", "!", "*.log", "!!keep", "# logs", "!keep", "!*.log", " "]
      ([" ", "# logs", "*.log", "!keep"] ++ [" ", "# logs", "*.log", "!keep"].map signedLine) ∧
    (ofLines ["*.log"]).value.ignores "a/keep.log" = true ∧
    (ofLines ["!# logs", "!", "*.log", "!!keep", "# logs", "!keep", "!*.log", " "]).value.ignores
      "a/keep.log" = false := by
  obtain ⟨hSigned, hCancel⟩ := signed_lines_cancel
  have hRule : (Rule.compile " **/[a]*.log/\t" 2).value =
      some (Rule.ofPattern "**/[a]*.log/" ⟨false, 0, 1, "[a]*.log".toList, 1⟩ 2) := by decide
  have hArranged : List.Perm ["!# logs", "!", "*.log", "!!keep", "# logs", "!keep", "!*.log", " "]
      ([" ", "# logs", "*.log", "!keep"] ++ [" ", "# logs", "*.log", "!keep"].map signedLine) := by
    decide
  exact ⟨hSigned _ 2 _ hRule rfl 9, hArranged, by decide, hCancel _ _ hArranged "a/keep.log"⟩

end Rulebook

end PathSieve
