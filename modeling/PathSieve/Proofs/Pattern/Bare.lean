import PathSieve.Proofs.Glob.Components
import PathSieve.Proofs.Pattern.Marking

/-!
# Lines of markers alone

The slashes at the end of a line are taken off before the groups in front. So a line of slashes has
no body and gives no rule, but the last group of a line of markers loses its slash, and its stars
stay behind as a body. `compile_eq_none_iff_isBare` states which lines give no rule, and what the
lines give that have nothing but markers and yet a body.
-/

namespace PathSieve

open Text Glob

set_option autoImplicit false

namespace Pattern

/-- Slashes and `**/` groups in any order, and nothing else. -/
inductive BareMarkers : List Char → Prop
  | nil : BareMarkers []
  | slash {rest : List Char} (h : BareMarkers rest) : BareMarkers ('/' :: rest)
  | group {rest : List Char} (h : BareMarkers rest) : BareMarkers (dirGroup ++ rest)

/-- A line of markers alone, with a sign in front or without one. -/
inductive IsBare : List Char → Prop
  | plain {markers : List Char} (h : BareMarkers markers) : IsBare markers
  | signed {markers : List Char} (h : BareMarkers markers) : IsBare ('!' :: markers)

namespace BareMarkers

variable {markers : List Char}

theorem append (h : BareMarkers markers) {more : List Char} (hMore : BareMarkers more) :
    BareMarkers (markers ++ more) := by
  induction h with
  | nil => exact hMore
  | slash _ ih => exact ih.slash
  | group _ ih => exact ih.group

theorem slashes (count : Nat) : BareMarkers (List.replicate count '/') := by
  induction count with
  | zero => exact .nil
  | succ count ih => exact ih.slash

theorem groups (count : Nat) : BareMarkers (List.replicate count dirGroup).flatten := by
  induction count with
  | zero => exact .nil
  | succ count ih => exact ih.group

theorem head?_cases (h : BareMarkers markers) :
    markers.head? = none ∨ markers.head? = some '/' ∨ markers.head? = some '*' := by
  cases h with
  | nil => exact .inl rfl
  | slash _ => exact .inr (.inl rfl)
  | group _ => exact .inr (.inr rfl)

theorem eq_slashes_of_no_star (h : BareMarkers markers) (hStar : '*' ∉ markers) :
    markers = List.replicate markers.length '/' := by
  induction h with
  | nil => rfl
  | slash _ ih =>
    rw [List.length_cons, List.replicate_succ, ← ih fun hMem => hStar (List.mem_cons_of_mem _ hMem)]
  | group _ _ => exact absurd (List.mem_append_left _ (by decide : '*' ∈ dirGroup)) hStar

/-- The last group, between the markers in front of it and the slashes behind its stars. -/
theorem exists_last_group (h : BareMarkers markers) (hStar : '*' ∈ markers) :
    ∃ before count, BareMarkers before ∧
      markers = before ++ dirsComponent ++ List.replicate (count + 1) '/' := by
  induction h with
  | nil => cases hStar
  | slash _ ih =>
    obtain ⟨before, count, hBefore, rfl⟩ := ih ((List.mem_cons.mp hStar).resolve_left (by decide))
    exact ⟨'/' :: before, count, hBefore.slash, rfl⟩
  | @group rest hRest ih =>
    by_cases hMore : '*' ∈ rest
    · obtain ⟨before, count, hBefore, rfl⟩ := ih hMore
      exact ⟨dirGroup ++ before, count, hBefore.group, by simp only [List.append_assoc]⟩
    · refine ⟨[], rest.length, .nil, ?_⟩
      conv => lhs; rw [hRest.eq_slashes_of_no_star hMore]
      rfl

/-! Taking slashes or groups off the front of markers leaves markers in front of what follows. -/

theorem exists_dropWhile (h : BareMarkers markers) : ∃ rest, BareMarkers rest ∧
    (markers ++ dirsComponent).dropWhile (· == '/') = rest ++ dirsComponent := by
  induction h with
  | nil => exact ⟨[], .nil, rfl⟩
  | slash _ ih => exact ih
  | group hRest _ => exact ⟨_, hRest.group, rfl⟩

theorem exists_stripDirGroups (h : BareMarkers markers) (count : Nat) : ∃ rest, BareMarkers rest ∧
    (stripDirGroups count (markers ++ dirsComponent)).2 = rest ++ dirsComponent := by
  induction h generalizing count with
  | nil => exact ⟨[], .nil, rfl⟩
  | slash hRest _ => exact ⟨_, hRest.slash, rfl⟩
  | group _ ih => exact ih (count + 1)

end BareMarkers

theorem IsBare.head?_ne_comment {line : List Char} (h : IsBare line) : line.head? ≠ some '#' := by
  cases h with
  | plain h => rcases h.head?_cases with hHead | hHead | hHead <;> simp [hHead]
  | signed _ => simp

theorem IsBare.behindSign {line : List Char} (h : IsBare line) : BareMarkers (behindSign line) := by
  cases h with
  | plain h =>
    have hSign : (line.head? == some '!') = false := by
      rcases h.head?_cases with hHead | hHead | hHead <;> simp [hHead]
    rwa [Pattern.behindSign, if_neg (Bool.eq_false_iff.mp hSign)]
  | signed h => exact h

theorem mem_behindSign_iff {line : List Char} {c : Char} (hc : c ≠ '!') :
    c ∈ behindSign line ↔ c ∈ line := by
  cases line with
  | nil => exact Iff.rfl
  | cons first rest =>
    by_cases hFirst : first = '!'
    · subst hFirst
      simp [behindSign, hc]
    · simp [behindSign, hFirst]

theorem body_eq_nil_of_no_star {line : List Char} (h : IsBare line) (hStar : '*' ∉ line) :
    (ofMarked line).body = [] := by
  have hSlashes := h.behindSign.eq_slashes_of_no_star
    (mt (mem_behindSign_iff (by decide)).mp hStar)
  have hDrop : (List.replicate (behindSign line).length '/' ++ []).dropWhile (· == '/') = [] :=
    dropWhile_slashes _ (by simp)
  rw [List.append_nil] at hDrop
  have hBetween : betweenSlashes line = [] := by
    rw [betweenSlashes, hSlashes, List.reverse_replicate, hDrop]
    rfl
  rcases ofMarked_cases line with ⟨_, hGrouped⟩ | ⟨_, _, hBody⟩
  · rw [(Prod.mk.inj hGrouped).2, hBetween]
    rfl
  · rw [hBody, hBetween]

/-- The stars of the last group end the body, and its slash makes the pattern one of a directory. -/
theorem dirsComponent_suffix_body {line : List Char} (h : IsBare line) (hStar : '*' ∈ line) :
    dirsComponent <:+ (ofMarked line).body ∧ (ofMarked line).trailingSlashes ≠ 0 := by
  obtain ⟨before, count, hBefore, hMarkers⟩ :=
    h.behindSign.exists_last_group ((mem_behindSign_iff (by decide)).mpr hStar)
  have hReverse : (behindSign line).reverse =
      List.replicate (count + 1) '/' ++ (before ++ dirsComponent).reverse := by
    rw [hMarkers, List.reverse_append, List.reverse_replicate]
  have hEnd : (before ++ dirsComponent).reverse.head? ≠ some '/' := by
    simp [dirsComponent]
  obtain ⟨rest, hRest, hDrop⟩ := hBefore.exists_dropWhile
  have hBetween : betweenSlashes line = rest ++ dirsComponent := by
    rw [betweenSlashes, hReverse, dropWhile_slashes _ hEnd, List.reverse_reverse, hDrop]
  constructor
  · rcases ofMarked_cases line with ⟨_, hGrouped⟩ | ⟨_, _, hBody⟩
    · obtain ⟨kept, _, hKept⟩ := hRest.exists_stripDirGroups 0
      rw [(Prod.mk.inj hGrouped).2, hBetween, hKept]
      exact List.suffix_append kept _
    · rw [hBody, hBetween]
      exact List.suffix_append rest _
  · change ((behindSign line).reverse.takeWhile (· == '/')).length ≠ 0
    rw [hReverse, takeWhile_slashes _ hEnd, List.length_replicate]
    exact Nat.succ_ne_zero count

theorem isBare_of_body_eq_nil {line : List Char} (h : (ofMarked line).body = []) : IsBare line := by
  have hMarkers : BareMarkers ((ofMarked line).front ++
      List.replicate (ofMarked line).trailingSlashes '/') := by
    rw [front, h, List.append_nil]
    exact ((BareMarkers.slashes _).append (.groups _)).append (.slashes _)
  have hText := text_ofMarked line
  rw [text_eq_front] at hText
  rw [← hText]
  cases (ofMarked line).negated with
  | true => exact .signed hMarkers
  | false => exact .plain hMarkers

theorem body_eq_nil_iff_isBare (line : List Char) :
    (ofMarked line).body = [] ↔ IsBare line ∧ '*' ∉ line := by
  constructor
  · intro h
    have hBare := isBare_of_body_eq_nil h
    refine ⟨hBare, fun hStar => ?_⟩
    have hSuffix := (dirsComponent_suffix_body hBare hStar).1
    rw [h, List.suffix_nil] at hSuffix
    cases hSuffix
  · rintro ⟨hBare, hStar⟩
    exact body_eq_nil_of_no_star hBare hStar

theorem ofTrimmed?_eq_none_iff (line : List Char) :
    ofTrimmed? line = none ↔ line = [] ∨ line.head? = some '#' ∨ (ofMarked line).body = [] := by
  by_cases hSkipped : (line.isEmpty || isComment line) = true
  · rw [ofTrimmed?, if_pos hSkipped]
    rw [Bool.or_eq_true, List.isEmpty_iff, isComment, beq_iff_eq] at hSkipped
    simp only [true_iff]
    exact hSkipped.elim .inl fun hComment => .inr (.inl hComment)
  · rw [ofTrimmed?, if_neg hSkipped, read?]
    rw [Bool.or_eq_true, List.isEmpty_iff, isComment, beq_iff_eq, not_or] at hSkipped
    simp [hSkipped.1, hSkipped.2]

end Pattern

namespace Rule

open Pattern

theorem directory_ofPattern_iff (raw : String) (pattern : Pattern) (ordinal : Nat) :
    (ofPattern raw pattern ordinal).directory = true ↔ pattern.trailingSlashes ≠ 0 := bne_iff_ne

/-- Blank lines, comments and slashes alone, signed or not, give no rule, and every other line gives
one. A line of markers with a group among them gives a rule for directories, and the stars of its
last group end the body. -/
theorem compile_eq_none_iff_isBare (line : String) (ordinal : Nat) :
    ((compile line ordinal).value = none ↔
      trim line.toList = [] ∨ (trim line.toList).head? = some '#' ∨
        IsBare (trim line.toList) ∧ '*' ∉ trim line.toList) ∧
    (IsBare (trim line.toList) → '*' ∈ trim line.toList →
      ∃ rule, (compile line ordinal).value = some rule ∧ rule.directory = true ∧
        dirsComponent <:+ rule.body.toList) := by
  constructor
  · rw [compile_value, Option.map_eq_none_iff, ofTrimmed?_eq_none_iff, body_eq_nil_iff_isBare]
  · intro hBare hStar
    obtain ⟨hStars, hSlash⟩ := dirsComponent_suffix_body hBare hStar
    have hSome : ofTrimmed? (trim line.toList) ≠ none := by
      rw [Ne, ofTrimmed?_eq_none_iff, body_eq_nil_iff_isBare]
      rintro (hNil | hComment | ⟨_, hNoStar⟩)
      · rw [hNil] at hStar
        cases hStar
      · exact hBare.head?_ne_comment hComment
      · exact hNoStar hStar
    obtain ⟨pattern, hPattern⟩ := Option.ne_none_iff_exists'.mp hSome
    obtain ⟨rfl, _⟩ := eq_ofMarked_of_ofTrimmed? hPattern
    refine ⟨ofPattern (String.ofList (trim line.toList)) (ofMarked (trim line.toList)) ordinal, ?_,
      (directory_ofPattern_iff _ _ _).mpr hSlash, ?_⟩
    · rw [compile_value, hPattern, Option.map_some]
    · rwa [ofPattern, String.toList_ofList]

theorem compile_eq_none_iff_isBare_groups : IsBare (trim " !/**/**// ".toList) ∧
    '*' ∈ trim " !/**/**// ".toList ∧ ∃ rule, (compile " !/**/**// " 4).value = some rule ∧
      rule.directory = true ∧ dirsComponent <:+ rule.body.toList := by
  have hBare : IsBare (trim " !/**/**// ".toList) :=
    .signed (.slash (.group (.group (.slash .nil))))
  have hStar : '*' ∈ trim " !/**/**// ".toList := by decide
  exact ⟨hBare, hStar, (compile_eq_none_iff_isBare _ 4).2 hBare hStar⟩

theorem group_alone_compiles : IsBare (trim "**/".toList) ∧ ∃ rule,
    (compile "**/" 1).value = some rule ∧ rule.body = "**" ∧
      rule.matchesPath (Path.ofString "src/main.rs") = true := by
  refine ⟨.plain (.group .nil), ofPattern "**/" ⟨false, 0, 0, dirsComponent, 1⟩ 1, ?_, ?_, ?_⟩ <;>
    decide

end Rule

end PathSieve
