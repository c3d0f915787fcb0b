import PathSieve.Proofs.Glob.Characters
import PathSieve.Proofs.Pattern.Marking
import PathSieve.Proofs.Rule.Matching

/-!
# Names at any depth

A line without slashes asks about the last segment of a path, and a `**/` in front of it about
every run of segments at the end. As a name accepts no run but its last segment, unless it accepts
everything, `alike_atAnyDepth` states that no path tells the two lines apart.
-/

namespace PathSieve

open Text

set_option autoImplicit false

theorem Text.endsBlank_append_slashes {text : List Char} (h : endsBlank text = false)
    (slashes : Nat) : endsBlank (text ++ List.replicate slashes '/') = false := by
  cases slashes with
  | zero => rwa [List.replicate_zero, List.append_nil]
  | succ count =>
    rw [List.replicate_succ', ← List.append_assoc, endsBlank_append _ (List.cons_ne_nil _ _)]
    decide

/-- A run at the end of a path says no more than its last segment, if a test holds of no run
without holding of its last segment. -/
theorem Scope.finds_basename_iff_anyDepth {test : List (List Char) → Prop}
    (h : ∀ run last, test (run ++ [last]) → test [last]) (segments : List (List Char)) :
    Scope.basename.Finds test segments ↔ Scope.anyDepth.Finds test segments := by
  constructor
  · rintro ⟨segment, hLast, hTest⟩
    obtain ⟨before, rfl⟩ := List.getLast?_eq_some_iff.mp hLast
    exact ⟨[segment], List.cons_ne_nil _ _, List.suffix_append before [segment], hTest⟩
  · rintro ⟨run, hSome, ⟨before, rfl⟩, hTest⟩
    obtain ⟨skipped, last, rfl⟩ : ∃ skipped last, run = skipped ++ [last] :=
      ⟨_, _, (List.dropLast_concat_getLast hSome).symm⟩
    refine ⟨last, ?_, h skipped last hTest⟩
    rw [← List.append_assoc, List.getLast?_concat]

namespace Pattern

/-- A text that stands for a name in every line: nothing at its ends is trimmed or taken for a
marker. -/
structure IsName (text : List Char) : Prop where
  ne_nil : text ≠ []
  slash_not_mem : '/' ∉ text
  startsBlank_eq : startsBlank text = false
  endsBlank_eq : endsBlank text = false
  head?_ne_comment : text.head? ≠ some '#'
  head?_ne_sign : text.head? ≠ some '!'

/-- No marker but the slashes at the end. -/
def named (name : List Char) (slashes : Nat) : Pattern := ⟨false, 0, 0, name, slashes⟩

theorem text_named (name : List Char) (slashes : Nat) :
    (named name slashes).text = name ++ List.replicate slashes '/' := rfl

theorem text_anyDepth_zero (name : List Char) (slashes : Nat) :
    (anyDepth 0 name slashes).text = dirGroup ++ (name ++ List.replicate slashes '/') :=
  text_anyDepth 0 name slashes

theorem scope_named {name : List Char} (h : '/' ∉ name) (slashes : Nat) :
    Scope.ofPattern (named name slashes) = .basename := by
  simp [Scope.ofPattern, named, isRooted, isAnyDepth, isBasename, h]

namespace IsName

variable {name : List Char}

theorem endsInName (h : IsName name) : EndsInName name where
  ne_nil := h.ne_nil
  getLast?_ne := fun hLast => h.slash_not_mem (List.mem_of_getLast? hLast)

theorem not_group (h : IsName name) : ¬ dirGroup <+: name := by
  intro hPrefix
  exact h.slash_not_mem (hPrefix.subset (by decide : '/' ∈ dirGroup))

theorem head?_append (h : IsName name) (rest : List Char) : (name ++ rest).head? = name.head? :=
  List.head?_append_of_ne_nil name h.ne_nil

theorem canonical_named (h : IsName name) (slashes : Nat) : (named name slashes).Canonical where
  body_ne_nil := h.ne_nil
  body_last := h.endsInName.getLast?_ne
  body_first := fun _ hFirst => h.slash_not_mem (List.mem_of_head? hFirst)
  groups_of_rooted := fun _ => rfl
  body_group := fun _ => h.not_group
  text_sign := by
    intro _
    rw [text_named, h.head?_append]
    exact h.head?_ne_sign

end IsName

end Pattern

namespace Rule

open Pattern

theorem compile_named {line : String} {name : List Char} {slashes : Nat} (h : IsName name)
    (hLine : line.toList = name ++ List.replicate slashes '/') (ordinal : Nat) :
    (compile line ordinal).value = some (ofPattern line (named name slashes) ordinal) := by
  apply compile_text (h.canonical_named slashes) hLine
  · rw [text_named, h.head?_append]
    exact h.head?_ne_comment
  · rw [text_named, startsBlank, h.head?_append]
    exact h.startsBlank_eq
  · exact endsBlank_append_slashes h.endsBlank_eq slashes

theorem compile_named_anyDepth {line : String} {name : List Char} {slashes : Nat} (h : IsName name)
    (hLine : line.toList = dirGroup ++ (name ++ List.replicate slashes '/')) (ordinal : Nat) :
    (compile line ordinal).value = some (ofPattern line (anyDepth 0 name slashes) ordinal) := by
  rw [← text_anyDepth_zero] at hLine
  apply compile_text (canonical_anyDepth h.endsInName h.not_group 0 slashes) hLine
  · rw [text_anyDepth_zero]
    exact fun hComment => absurd (Option.some.inj hComment) (by decide : '*' ≠ '#')
  · rw [text_anyDepth_zero]
    rfl
  · rw [text_anyDepth_zero, ← List.append_assoc]
    apply endsBlank_append_slashes
    rw [endsBlank_append _ h.ne_nil]
    exact h.endsBlank_eq

theorem matchesPath_eq_of_finds {rule other : Rule} (hDirectory : rule.directory = other.directory)
    (hMatcher : rule.matcher = other.matcher)
    (hFinds : ∀ segments, rule.scope.Finds rule.Accepts segments ↔
      other.scope.Finds rule.Accepts segments) (path : String) :
    rule.matchesPath (Path.ofString path) = other.matchesPath (Path.ofString path) := by
  have hAccepts : other.Accepts = rule.Accepts := by
    funext segments
    rw [Accepts, Accepts, hMatcher]
  rw [Bool.eq_iff_iff, Path.ofString_eq_ofSegments, matchesPath_ofSegments_iff,
    matchesPath_ofSegments_iff, hAccepts]
  apply and_congr_right
  intro _
  rw [Covers, Covers, hDirectory]
  simp only [hFinds]

/-- Two lines with rules for the same name, in the last segment and at any depth, that match the
same paths. -/
def AlikeAtAnyDepth (line deepLine : String) (directory : Bool) : Prop :=
  ∀ first second : Nat, ∃ plain deep : Rule,
    (compile line first).value = some plain ∧ (compile deepLine second).value = some deep ∧
    plain.scope = .basename ∧ deep.scope = .anyDepth ∧
    plain.directory = directory ∧ deep.directory = directory ∧
    ∀ path : String, plain.matchesPath (Path.ofString path) = deep.matchesPath (Path.ofString path)

theorem alike_of_name {line deepLine : String} {name : List Char} (h : IsName name) (slashes : Nat)
    (hLine : line.toList = name ++ List.replicate slashes '/')
    (hDeep : deepLine.toList = dirGroup ++ (name ++ List.replicate slashes '/')) :
    AlikeAtAnyDepth line deepLine (slashes != 0) := by
  intro first second
  have hScope := scope_named h.slash_not_mem slashes
  refine ⟨ofPattern line (named name slashes) first, ofPattern deepLine (anyDepth 0 name slashes)
    second, compile_named h hLine first, compile_named_anyDepth h hDeep second, hScope, rfl, rfl,
    rfl, ?_⟩
  intro path
  apply matchesPath_eq_of_finds
  · rfl
  · rfl
  intro segments
  change (Scope.ofPattern (named name slashes)).Finds _ _ ↔ _
  rw [hScope]
  apply Scope.finds_basename_iff_anyDepth
  intro run last hAccepts
  rw [Accepts, joinWith_singleton]
  exact Matcher.accepts_last_of_accepts h.slash_not_mem hAccepts

/-- Whatever name a text without slashes stands for, a `**/` in front of it changes nothing, and
neither does it in front of a directory of that name. -/
theorem alike_atAnyDepth {text : String} (h : IsName text.toList) :
    AlikeAtAnyDepth text ("**/" ++ text) false ∧
      AlikeAtAnyDepth (text ++ "/") ("**/" ++ text ++ "/") true := by
  constructor
  · apply alike_of_name h 0
    · rw [List.replicate_zero, List.append_nil]
    · rw [String.toList_append, List.replicate_zero, List.append_nil]
      rfl
  · apply alike_of_name h 1
    · rw [String.toList_append]
      rfl
    · rw [String.toList_append, String.toList_append, List.append_assoc]
      rfl

theorem alike_atAnyDepth_parent : IsName "**".toList ∧ ∃ plain deep : Rule,
    (compile "**/" 1).value = some plain ∧ (compile "**/**/" 2).value = some deep ∧
      plain.matchesPath (Path.ofString "a\\b/./..") = true ∧
      deep.matchesPath (Path.ofString "a\\b/./..") = true := by
  have hName : IsName "**".toList := ⟨by decide, by decide, by decide, by decide, by decide,
    by decide⟩
  obtain ⟨plain, deep, hPlain, hDeep, _, _, _, _, hSame⟩ := (alike_atAnyDepth hName).2 1 2
  have hRule : plain = ofPattern "**/" (named "**".toList 1) 1 :=
    Option.some.inj (hPlain.symm.trans (by decide))
  have hMatch : plain.matchesPath (Path.ofString "a\\b/./..") = true := by
    rw [hRule]
    decide
  exact ⟨hName, plain, deep, hPlain, hDeep, hMatch, (hSame _).symm.trans hMatch⟩

end Rule

end PathSieve
