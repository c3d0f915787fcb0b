import PathSieve.Path.Lemmas
import PathSieve.Proofs.Glob.Characters
import PathSieve.Rule

/-!
# Bodies without wildcards

A body without `*` and `?` stands for its own bytes and nothing else. Only a look-up by name can
still deny it: a bracket or brace makes a body more than plain text, and a body that ends in `..`
has neither a name nor an extension. `accepts_ofBody_iff_verbatim` states that this is the one
difference to comparing the body verbatim.
-/

namespace PathSieve

open Text

set_option autoImplicit false

namespace Glob

def isBracket (c : Char) : Bool := c == '[' || c == ']' || c == '{' || c == '}'

def EndsInParent (body : List Char) : Prop :=
  (splitBy (· == '/') body).getLast? = some ['.', '.']

instance (body : List Char) : Decidable (EndsInParent body) :=
  inferInstanceAs (Decidable (_ = _))

/-! ## Tokens without wildcards -/

theorem ofChar_eq_exact {c : Char} (hStar : c ≠ '*') (hOne : c ≠ '?') :
    Token.ofChar c = .exact c := by
  unfold Token.ofChar
  split
  · exact absurd rfl hStar
  · exact absurd rfl hOne
  · rfl

theorem map_ofChar_eq_exact {body : List Char} (hStar : '*' ∉ body) (hOne : '?' ∉ body) :
    body.map Token.ofChar = body.map Token.exact := by
  apply List.map_congr_left
  intro c hc
  apply ofChar_eq_exact
  · rintro rfl
    exact hStar hc
  · rintro rfl
    exact hOne hc

theorem namePieces_of_no_wildcards {body : List Char} (hStar : '*' ∉ body) (hOne : '?' ∉ body) :
    namePieces body = (encode body).map .byte := by
  rw [namePieces, map_ofChar_eq_exact hStar hOne, encode, List.map_flatMap, List.flatMap_map]
  rfl

theorem fits_of_no_wildcards {body : List Char} (hStar : '*' ∉ body) (hOne : '?' ∉ body)
    (w : List UInt8) : fits (ofBody body).pieces w = true ↔ w = encode body := by
  rw [fits_eq_true_iff, pieces_of_tokens (tokens_ofBody_of_no_star hStar),
    namePieces_of_no_wildcards hStar hOne, ← List.append_nil ((encode body).map _),
    matches_bytes_append]
  constructor
  · rintro ⟨_, rfl, rfl⟩
    exact List.append_nil _
  · rintro rfl
    exact ⟨[], (List.append_nil _).symm, rfl⟩

/-! ## The exception for `..` -/

theorem isPlainName_of_tokens {glob : Glob} {cs : List Char}
    (h : glob.tokens = cs.map Token.ofChar) : glob.isPlainName = false := by
  rw [isPlainName]
  split
  · rename_i hTokens
    exact absurd hTokens (tokens_ne_dirsBefore_cons h _)
  · rfl

theorem isPlainAfterDirs_of_tokens {glob : Glob} {cs : List Char}
    (h : glob.tokens = cs.map Token.ofChar) : glob.isPlainAfterDirs = false := by
  rw [isPlainAfterDirs]
  split
  · rename_i hTokens
    exact absurd hTokens (tokens_ne_dirsBefore_cons h _)
  · rfl

theorem isPlain_of_no_wildcards {body : List Char} (hStar : '*' ∉ body) (hOne : '?' ∉ body) :
    (ofBody body).isPlain = !body.any isBracket := by
  rw [isPlain, tokens_ofBody_of_no_star hStar, map_ofChar_eq_exact hStar hOne, List.all_map,
    List.not_any_eq_all_not]
  rfl

theorem exists_front_of_joinWith (before : List (List Char)) (last : List Char) :
    ∃ front, joinWith '/' (before ++ [last]) = front ++ last :=
  ⟨Path.withSlashes before, Path.joinWith_concat before last⟩

theorem exists_components (body : List Char) : ∃ before last,
    splitBy (· == '/') body = before ++ [last] ∧ body = joinWith '/' (before ++ [last]) ∧
      '/' ∉ last := by
  have hSome := splitBy_ne_nil (· == '/') body
  have hSplit := (List.dropLast_concat_getLast hSome).symm
  refine ⟨_, _, hSplit, ?_, not_mem_of_mem_components body _ (List.getLast_mem hSome)⟩
  rw [← hSplit, joinWith_splitBy]

theorem lastComponent_encode_eq_iff (body : List Char) :
    lastComponent (encode body) = parentName ↔ EndsInParent body := by
  obtain ⟨before, last, hSplit, hBody, hLast⟩ := exists_components body
  have hParent : encode last = parentName ↔ last = ['.', '.'] := by
    constructor
    · intro h
      exact encode_injective (h.trans rfl)
    · rintro rfl
      rfl
  rw [EndsInParent, hSplit, List.getLast?_concat, Option.some_inj, ← hParent, hBody,
    lastComponent_joinWith before last hLast]

theorem endsInPlainDot_of_endsInParent {body : List Char} (hStar : '*' ∉ body)
    (hOne : '?' ∉ body) (h : EndsInParent body) : (ofBody body).endsInPlainDot = true := by
  obtain ⟨before, last, hSplit, hBody, _⟩ := exists_components body
  rw [EndsInParent, hSplit, List.getLast?_concat, Option.some_inj] at h
  obtain ⟨front, hFront⟩ := exists_front_of_joinWith before last
  rw [endsInPlainDot, tokens_ofBody_of_no_star hStar, map_ofChar_eq_exact hStar hOne, hBody, hFront,
    h, List.map_append, List.reverse_append]
  rfl

theorem missesParent_of_endsInParent {body : List Char} (hStar : '*' ∉ body) (hOne : '?' ∉ body)
    (h : EndsInParent body) : (ofBody body).missesParent = body.any isBracket := by
  have hTokens := tokens_ofBody_of_no_star hStar
  rw [missesParent, isPlainName_of_tokens hTokens, isPlainAfterDirs_of_tokens hTokens,
    isPlain_of_no_wildcards hStar hOne, endsInPlainDot_of_endsInParent hStar hOne h]
  simp

theorem accepts_of_no_wildcards {body : List Char} (hStar : '*' ∉ body) (hOne : '?' ∉ body)
    (w : List UInt8) : (ofBody body).accepts w = true ↔
      w = encode body ∧ ¬ (body.any isBracket = true ∧ EndsInParent body) := by
  rw [accepts, Bool.and_eq_true, fits_of_no_wildcards hStar hOne]
  apply and_congr_right
  rintro rfl
  rw [Bool.not_eq_true', Bool.and_eq_false_iff, not_and, beq_eq_false_iff_ne, Ne,
    lastComponent_encode_eq_iff]
  by_cases h : EndsInParent body
  · rw [missesParent_of_endsInParent hStar hOne h]
    simp [h]
  · simp [h]

end Glob

namespace Matcher

theorem accepts_ofBody_of_plain {body : List Char} (hStar : '*' ∉ body) (hOne : '?' ∉ body)
    (hBracket : body.any Glob.isBracket = false) (candidate : List Char) :
    (ofBody body).accepts candidate = true ↔ candidate = body := by
  rcases ofBody_cases body with ⟨_, hMatcher⟩ | ⟨_, hMatcher⟩
  · rw [hMatcher, accepts, beq_iff_eq, eq_comm]
  · rw [hMatcher, accepts, Glob.accepts_of_no_wildcards hStar hOne, hBracket]
    simp only [Bool.false_eq_true, false_and, not_false_eq_true, and_true]
    constructor
    · exact encode_injective
    · rintro rfl
      rfl

/-- A body without wildcards accepts what it accepts verbatim, itself alone; but a glob with a
bracket or a brace that ends in the component `..` accepts nothing. -/
theorem accepts_ofBody_iff_verbatim {body : List Char} (hStar : '*' ∉ body) (hOne : '?' ∉ body)
    (candidate : List Char) :
    (ofBody body).accepts candidate = true ↔
      (verbatim body).accepts candidate = true ∧
        ¬ ((ofBody body).isVerbatim = false ∧ body.any Glob.isBracket = true ∧
          Glob.EndsInParent body) := by
  have hSelf : (verbatim body).accepts candidate = true ↔ encode candidate = encode body := by
    rw [accepts, beq_iff_eq]
    constructor
    · rintro rfl
      rfl
    · intro h
      exact (encode_injective h).symm
  rcases ofBody_cases body with ⟨hVerbatim, hMatcher⟩ | ⟨hGlob, hMatcher⟩
  · rw [hVerbatim, hMatcher]
    simp
  · rw [hGlob, hMatcher, hSelf, eq_self, true_and]
    exact Glob.accepts_of_no_wildcards hStar hOne (encode candidate)

theorem accepts_ofBody_iff_verbatim_marks : '*' ∉ "a[1]/{b,c}\\d.+(e)|^$/..x".toList ∧
    '?' ∉ "a[1]/{b,c}\\d.+(e)|^$/..x".toList ∧
      (ofBody "a[1]/{b,c}\\d.+(e)|^$/..x".toList).accepts "a[1]/{b,c}\\d.+(e)|^$/..x".toList =
        true := by
  have hStar : '*' ∉ "a[1]/{b,c}\\d.+(e)|^$/..x".toList := by decide
  have hOne : '?' ∉ "a[1]/{b,c}\\d.+(e)|^$/..x".toList := by decide
  exact ⟨hStar, hOne, (accepts_ofBody_iff_verbatim hStar hOne _).mpr ⟨by decide, by decide⟩⟩

end Matcher

theorem Rule.bracket_parent_denies_itself : ∃ rule : Rule, (compile "[/.." 1).value = some rule ∧
    '*' ∉ rule.body.toList ∧ '?' ∉ rule.body.toList ∧
      (Matcher.ofBody rule.body.toList).accepts rule.body.toList = false ∧
      (Matcher.verbatim rule.body.toList).accepts rule.body.toList = true ∧
      rule.matchesPath (Path.ofString "[/..") = false := by
  refine ⟨ofPattern "[/.." ⟨false, 0, 0, "[/..".toList, 0⟩ 1, ?_, ?_, ?_, ?_, ?_, ?_⟩ <;> decide

end PathSieve
