import PathSieve.Glob.Table

/-!
# Matchers

A matcher compares a body with candidates: as a glob, or as plain text when the glob is oversized.
-/

namespace PathSieve

set_option autoImplicit false

inductive Matcher
  | wildcards (glob : Glob)
  | verbatim (text : List Char)
  deriving DecidableEq, Inhabited

namespace Matcher

def ofBody (body : List Char) : Matcher :=
  let glob := Glob.ofBody body
  if glob.isOversized then .verbatim body else .wildcards glob

def isVerbatim : Matcher → Bool
  | .wildcards _ => false
  | .verbatim _ => true

def accepts (matcher : Matcher) (candidate : List Char) : Bool :=
  match matcher with
  | .wildcards glob => glob.accepts (Text.encode candidate)
  | .verbatim text => text == candidate

theorem ofBody_cases (body : List Char) :
    (ofBody body).isVerbatim = true ∧ ofBody body = .verbatim body ∨
      (ofBody body).isVerbatim = false ∧ ofBody body = .wildcards (Glob.ofBody body) := by
  simp only [ofBody]
  split
  · exact .inl ⟨rfl, rfl⟩
  · exact .inr ⟨rfl, rfl⟩

theorem ofBody_eq_wildcards {body : List Char} (h : (ofBody body).isVerbatim = false) :
    ofBody body = .wildcards (Glob.ofBody body) := by
  rcases ofBody_cases body with ⟨hVerbatim, _⟩ | ⟨_, hMatcher⟩
  · rw [h] at hVerbatim
    cases hVerbatim
  · exact hMatcher

end Matcher

end PathSieve
