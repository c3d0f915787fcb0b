import PathSieve.Matcher
import PathSieve.Proofs.Glob.Reading

/-!
# Globs read character by character

A body without stars, or of one component other than `**`, gives one token for every character.
What such a name matches has no slash, so a name that is accepted behind other segments is `**`,
as `accepts_last_of_accepts` uses.
-/

namespace PathSieve

open Text

set_option autoImplicit false

namespace Glob

theorem tokens_ofBody_name {name : List Char} (hSlash : '/' ∉ name) (hName : name ≠ dirsComponent) :
    (ofBody name).tokens = name.map Token.ofChar := by
  have hSplit : splitBy (· == '/') name = [name] := by
    apply splitBy_eq_singleton
    intro c hc
    apply beq_eq_false_iff_ne.mpr
    rintro rfl
    exact hSlash hc
  rw [tokens_ofBody, hSplit, componentTokens_name _ _ _ hName]
  simp [link, componentTokens]

theorem scan_of_no_star {body : List Char} (h : '*' ∉ body) (done : List Token) (fresh : Bool) :
    scan done fresh body = done.reverse ++ body.map Token.ofChar := by
  induction body generalizing done fresh with
  | nil => rw [scan_nil, List.map_nil, List.append_nil]
  | cons c body ih =>
    obtain ⟨hc, hBody⟩ := List.ne_and_not_mem_of_not_mem_cons h
    rw [scan_single done fresh c body fun hStar => absurd hStar.symm hc, ih hBody]
    simp

theorem tokens_ofBody_of_no_star {body : List Char} (h : '*' ∉ body) :
    (ofBody body).tokens = body.map Token.ofChar :=
  scan_of_no_star h [] true

theorem tokens_ne_dirsBefore_cons {glob : Glob} {cs : List Char}
    (h : glob.tokens = cs.map Token.ofChar) (rest : List Token) :
    glob.tokens ≠ .dirsBefore :: rest := by
  intro hDirs
  apply dirsBefore_not_mem_map_ofChar cs
  rw [← h, hDirs]
  exact List.mem_cons_self

theorem pieces_of_tokens {glob : Glob} {cs : List Char} (h : glob.tokens = cs.map Token.ofChar) :
    glob.pieces = namePieces cs := by
  have hAlone : glob.isDirsAlone = false :=
    beq_eq_false_iff_ne.mpr (tokens_ne_dirsBefore_cons h [])
  rw [pieces, if_neg (Bool.eq_false_iff.mp hAlone), h]
  rfl

theorem fits_name_iff {name : List Char} (hSlash : '/' ∉ name) (hName : name ≠ dirsComponent)
    (w : List UInt8) : fits (ofBody name).pieces w = true ↔ Spells name w ∧ slash ∉ w := by
  rw [fits_eq_true_iff, pieces_of_tokens (tokens_ofBody_name hSlash hName),
    matches_namePieces_iff name w hSlash]

theorem fits_of_accepts {glob : Glob} {w : List UInt8} (h : glob.accepts w = true) :
    fits glob.pieces w = true :=
  (Bool.and_eq_true_iff.mp h).1

/-- A `**` alone stands for everything, and no part of it looks for a name. -/
theorem accepts_dirs (w : List UInt8) : (ofBody dirsComponent).accepts w = true := by
  have hPieces : (ofBody dirsComponent).pieces = [.all] := by decide
  have hParent : (ofBody dirsComponent).missesParent = false := by decide
  rw [accepts, hPieces, hParent, Bool.false_and, Bool.not_false, Bool.and_true, fits_eq_true_iff]
  exact ⟨w, [], (List.append_nil w).symm, trivial, rfl⟩

end Glob

namespace Matcher

theorem slash_not_mem_of_accepts {name candidate : List Char} (hSlash : '/' ∉ name)
    (hName : name ≠ Glob.dirsComponent) (h : (ofBody name).accepts candidate = true) :
    '/' ∉ candidate := by
  rcases ofBody_cases name with ⟨_, hMatcher⟩ | ⟨_, hMatcher⟩
  · rw [hMatcher] at h
    rwa [← beq_iff_eq.mp h]
  · rw [hMatcher] at h
    have hBytes := ((Glob.fits_name_iff hSlash hName _).mp (Glob.fits_of_accepts h)).2
    intro hc
    exact hBytes (List.mem_flatMap.mpr ⟨'/', hc, by decide⟩)

theorem accepts_dirs (candidate : List Char) :
    (ofBody Glob.dirsComponent).accepts candidate = true := by
  rcases ofBody_cases Glob.dirsComponent with ⟨hVerbatim, _⟩ | ⟨_, hMatcher⟩
  · exact absurd hVerbatim (by decide)
  · rw [hMatcher]
    exact Glob.accepts_dirs _

theorem accepts_last_of_accepts {name last : List Char} {run : List (List Char)}
    (hSlash : '/' ∉ name) (h : (ofBody name).accepts (joinWith '/' (run ++ [last])) = true) :
    (ofBody name).accepts last = true := by
  by_cases hName : name = Glob.dirsComponent
  · rw [hName]
    exact accepts_dirs last
  · -- A run of more than one segment has a slash, and no other name takes a slash.
    cases run with
    | nil => rwa [List.nil_append, joinWith_singleton] at h
    | cons segment run =>
      have hJoined := slash_not_mem_of_accepts hSlash hName h
      obtain ⟨next, rest, hRest⟩ := List.exists_cons_of_ne_nil (List.concat_ne_nil last run)
      rw [List.cons_append, hRest, joinWith_cons_cons] at hJoined
      exact absurd (List.mem_append_right _ List.mem_cons_self) hJoined

end Matcher

end PathSieve
