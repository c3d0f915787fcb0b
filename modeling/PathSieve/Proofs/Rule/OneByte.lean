import PathSieve.Proofs.Glob.Literal
import PathSieve.Proofs.Path.Canonical
import PathSieve.Proofs.Rule.Names
import PathSieve.Text.Utf8.Lemmas

/-!
# What `?` stands for

Bodies are matched byte by byte, so a `?` takes one byte. Between two texts a single byte is a
whole character or none, since a text never breaks off within a character. Hence what a `?` matches
is a character, but only one that is written as a single byte, as `matchesPath_one_iff` states.
-/

namespace PathSieve

open Text

set_option autoImplicit false

namespace Pattern

/-- A part of a name in which every character stands for itself, in a line and in a path. -/
structure IsPlain (text : List Char) : Prop where
  star_not_mem : '*' ∉ text
  one_not_mem : '?' ∉ text
  slash_not_mem : '/' ∉ text
  backslash_not_mem : '\\' ∉ text

theorem IsPlain.not_isSeparator {text : List Char} (h : IsPlain text) {c : Char} (hc : c ∈ text) :
    Path.isSeparator c = false := by
  rw [Path.isSeparator, Bool.or_eq_false_iff, beq_eq_false_iff_ne, beq_eq_false_iff_ne]
  constructor
  · rintro rfl
    exact h.slash_not_mem hc
  · rintro rfl
    exact h.backslash_not_mem hc

end Pattern

namespace Glob

theorem namePieces_append (front back : List Char) :
    namePieces (front ++ back) = namePieces front ++ namePieces back := by
  rw [namePieces, List.map_append, List.flatMap_append]
  rfl

theorem fits_one_between {front back : List Char} (hFront : Pattern.IsPlain front)
    (hBack : Pattern.IsPlain back) (w : List UInt8) :
    fits (ofBody (front ++ '?' :: back)).pieces w = true ↔
      ∃ b, b ≠ slash ∧ w = encode front ++ b :: encode back := by
  have hStar : '*' ∉ front ++ '?' :: back := by
    simp [hFront.star_not_mem, hBack.star_not_mem]
  have hEnd : ∀ v, Matches ((encode back).map .byte) v ↔ v = encode back := by
    intro v
    rw [← fits_of_no_wildcards hBack.star_not_mem hBack.one_not_mem, fits_eq_true_iff,
      pieces_of_tokens (tokens_ofBody_of_no_star hBack.star_not_mem),
      namePieces_of_no_wildcards hBack.star_not_mem hBack.one_not_mem]
  rw [fits_eq_true_iff, pieces_of_tokens (tokens_ofBody_of_no_star hStar), namePieces_append,
    namePieces_of_no_wildcards hFront.star_not_mem hFront.one_not_mem, matches_bytes_append, namePieces_cons,
    namePieces_of_no_wildcards hBack.star_not_mem hBack.one_not_mem]
  change (∃ v, w = encode front ++ v ∧ ∃ u z, v = u ++ z ∧ (∃ b, b ≠ slash ∧ u = [b]) ∧
    Matches ((encode back).map .byte) z) ↔ _
  constructor
  · rintro ⟨_, rfl, _, z, rfl, ⟨b, hb, rfl⟩, hz⟩
    refine ⟨b, hb, ?_⟩
    rw [(hEnd z).mp hz, List.singleton_append]
  · rintro ⟨b, hb, rfl⟩
    exact ⟨_, rfl, [b], _, rfl, ⟨b, hb, rfl⟩, (hEnd _).mpr rfl⟩

/-- A byte other than a slash takes the place of one character exactly if the character is written
as that byte. -/
theorem exists_byte_iff {c : Char} (hSlash : c ≠ '/') (front back : List Char) :
    (∃ b, b ≠ slash ∧ encode (front ++ c :: back) = encode front ++ b :: encode back) ↔
      c.utf8Size = 1 := by
  rw [encode_append, encode_cons]
  constructor
  · rintro ⟨b, _, hEq⟩
    have hBytes : String.utf8EncodeChar c = [b] := by
      rw [← List.singleton_append, List.append_cancel_left_eq, List.append_cancel_right_eq] at hEq
      exact hEq
    rw [← String.length_utf8EncodeChar, hBytes]
    rfl
  · intro hSize
    have hBytes := String.utf8EncodeChar_eq_singleton hSize
    refine ⟨c.val.toUInt8, ?_, ?_⟩
    · intro hByte
      have hMem : slash ∈ encode [c] := by
        rw [encode_cons, hBytes, hByte]
        exact List.mem_cons_self
      exact hSlash (List.mem_singleton.mp (mem_encode_slash hMem)).symm
    · rw [hBytes, List.singleton_append]

end Glob

namespace Matcher

variable {front back : List Char}

theorem accepts_one_iff (hFront : Pattern.IsPlain front) (hBack : Pattern.IsPlain back)
    (hGlob : (ofBody (front ++ '?' :: back)).isVerbatim = false) {c : Char} (hSlash : c ≠ '/')
    (hParent : front ++ c :: back ≠ ['.', '.']) :
    (ofBody (front ++ '?' :: back)).accepts (front ++ c :: back) = true ↔ c.utf8Size = 1 := by
  have hNoSlash : '/' ∉ front ++ c :: back := by
    simp [hFront.slash_not_mem, hBack.slash_not_mem, hSlash.symm]
  have hAccepts := Glob.accepts_joinWith (Glob.ofBody (front ++ '?' :: back))
    (List.cons_ne_nil (front ++ c :: back) [])
    (fun segment hMem => List.mem_singleton.mp hMem ▸ hNoSlash)
    (fun hMem => hParent (List.mem_singleton.mp hMem).symm)
  rw [joinWith_singleton] at hAccepts
  rw [ofBody_eq_wildcards hGlob, accepts, hAccepts, Glob.fits_one_between hFront hBack]
  exact Glob.exists_byte_iff hSlash front back

theorem exists_char_of_accepts_one (hFront : Pattern.IsPlain front) (hBack : Pattern.IsPlain back)
    (hGlob : (ofBody (front ++ '?' :: back)).isVerbatim = false) {candidate : List Char}
    (h : (ofBody (front ++ '?' :: back)).accepts candidate = true) :
    ∃ c, candidate = front ++ c :: back := by
  rw [ofBody_eq_wildcards hGlob] at h
  obtain ⟨b, _, hBytes⟩ := (Glob.fits_one_between hFront hBack _).mp (Glob.fits_of_accepts h)
  obtain ⟨c, _, hCandidate⟩ := exists_char_of_encode_eq hBytes
  exact ⟨c, hCandidate⟩

end Matcher

theorem Path.segmentsOf_filled {front back : List Char} (hFront : Pattern.IsPlain front)
    (hBack : Pattern.IsPlain back) {c : Char} (hSlash : c ≠ '/') (hBackslash : c ≠ '\\')
    (hDot : front ++ c :: back ≠ ['.']) :
    segmentsOf (front ++ c :: back) = [front ++ c :: back] := by
  apply segmentsOf_name
  · rw [isNamed, Bool.and_eq_true, Bool.not_eq_true', List.isEmpty_eq_false_iff, bne_iff_ne]
    exact ⟨by simp, hDot⟩
  · intro d hd
    rcases List.mem_append.mp hd with hd | hd
    · exact hFront.not_isSeparator hd
    · rcases List.mem_cons.mp hd with rfl | hd
      · simp [isSeparator, hSlash, hBackslash]
      · exact hBack.not_isSeparator hd

namespace Rule

open Pattern

theorem matchesPath_named_iff {name segment : List Char} {path : String} (h : '/' ∉ name)
    (hPath : Path.segmentsOf path.toList = [segment]) (line : String) (ordinal : Nat) :
    (ofPattern line (named name 0) ordinal).matchesPath (Path.ofString path) = true ↔
      (Matcher.ofBody name).accepts segment = true := by
  have hMatcher : (ofPattern line (named name 0) ordinal).matcher = Matcher.ofBody name := rfl
  rw [matchesPath_basename_iff (scope_named h 0) rfl, hPath, hMatcher]
  simp only [List.getLast?_singleton, Option.some.injEq, exists_eq_left']

/-- A line with one `?` matches, of the names that have a single character in its place, those
where it is written as one byte; and it matches no other name. -/
theorem matchesPath_one_iff {front back : String} (hFront : IsPlain front.toList)
    (hBack : IsPlain back.toList) (hStart : startsBlank (front ++ "?" ++ back).toList = false)
    (hEnd : endsBlank (front ++ "?" ++ back).toList = false)
    (hComment : (front ++ "?" ++ back).toList.head? ≠ some '#')
    (hSign : (front ++ "?" ++ back).toList.head? ≠ some '!') (ordinal : Nat) :
    ∃ rule, (compile (front ++ "?" ++ back) ordinal).value = some rule ∧
      (rule.matcher.isVerbatim = false →
        (∀ c : Char, c ≠ '/' → c ≠ '\\' → front ++ String.singleton c ++ back ≠ "." →
          front ++ String.singleton c ++ back ≠ ".." →
            (Path.ofString (front ++ String.singleton c ++ back)).segments =
              [front ++ String.singleton c ++ back] ∧
            (rule.matchesPath (Path.ofString (front ++ String.singleton c ++ back)) = true ↔
              c.utf8Size = 1)) ∧
        ∀ path segment : String, (Path.ofString path).segments = [segment] →
          rule.matchesPath (Path.ofString path) = true →
            ∃ c : Char, segment = front ++ String.singleton c ++ back) := by
  have hFilled : ∀ c : Char, (front ++ String.singleton c ++ back).toList =
      front.toList ++ c :: back.toList := by
    intro c
    simp
  have hLine : (front ++ "?" ++ back).toList = front.toList ++ '?' :: back.toList := hFilled '?'
  have hSlash : '/' ∉ front.toList ++ '?' :: back.toList := by
    simp [hFront.slash_not_mem, hBack.slash_not_mem]
  rw [hLine] at hStart hEnd hComment hSign
  have hName : IsName (front.toList ++ '?' :: back.toList) :=
    ⟨by simp, hSlash, hStart, hEnd, hComment, hSign⟩
  refine ⟨ofPattern _ (named _ 0) ordinal, compile_named hName ?_ ordinal, ?_⟩
  · rw [hLine, List.replicate_zero, List.append_nil]
  intro hGlob
  constructor
  · intro c hc hc' hDot hParent
    rw [← String.toList_inj.ne, hFilled] at hDot hParent
    have hNames := Path.segmentsOf_filled hFront hBack hc hc' hDot
    rw [← hFilled c] at hNames
    constructor
    · rw [Path.segments_ofString, hNames, List.map_singleton, String.ofList_toList]
    · rw [matchesPath_named_iff hSlash hNames, hFilled]
      exact Matcher.accepts_one_iff hFront hBack hGlob hc hParent
  · intro path segment hPath hMatch
    rw [Path.segments_ofString, List.map_eq_singleton_iff] at hPath
    obtain ⟨name, hNames, rfl⟩ := hPath
    rw [matchesPath_named_iff hSlash hNames] at hMatch
    obtain ⟨c, rfl⟩ := Matcher.exists_char_of_accepts_one hFront hBack hGlob hMatch
    refine ⟨c, ?_⟩
    rw [← hFilled, String.ofList_toList]

theorem matchesPath_one_iff_ascii : IsPlain "{a,b}.".toList ∧ IsPlain " [1]".toList ∧
    ∃ rule : Rule, (compile "{a,b}.? [1]" 3).value = some rule ∧
      rule.matcher.isVerbatim = false ∧
      rule.matchesPath (Path.ofString "{a,b}.~ [1]") = true ∧
      rule.matchesPath (Path.ofString "{a,b}.é [1]") = false := by
  have hFront : IsPlain "{a,b}.".toList := ⟨by decide, by decide, by decide, by decide⟩
  have hBack : IsPlain " [1]".toList := ⟨by decide, by decide, by decide, by decide⟩
  obtain ⟨rule, hRule, hMatches⟩ := matchesPath_one_iff hFront hBack (by decide) (by decide)
    (by decide) (by decide) 3
  have hEq : rule = ofPattern "{a,b}.? [1]" (named "{a,b}.? [1]".toList 0) 3 :=
    Option.some.inj (hRule.symm.trans (by decide))
  have hGlob : rule.matcher.isVerbatim = false := by
    rw [hEq]
    decide
  obtain ⟨hFilled, _⟩ := hMatches hGlob
  refine ⟨hFront, hBack, rule, hRule, hGlob, ?_, ?_⟩
  · exact (hFilled '~' (by decide) (by decide) (by decide) (by decide)).2.mpr rfl
  · rw [Bool.eq_false_iff]
    intro hMatch
    have hSize := (hFilled 'é' (by decide) (by decide) (by decide) (by decide)).2.mp hMatch
    exact absurd hSize (by decide)

theorem one_misses_accented : ∃ rule : Rule, (compile "a?b" 1).value = some rule ∧
    rule.matcher.isVerbatim = false ∧ (Path.ofString "aéb").segments = ["aéb"] ∧
      rule.matchesPath (Path.ofString "aéb") = false ∧
      rule.matchesPath (Path.ofString "axb") = true := by
  refine ⟨ofPattern "a?b" (named "a?b".toList 0) 1, ?_, ?_, ?_, ?_, ?_⟩ <;> decide

end Rule

end PathSieve
