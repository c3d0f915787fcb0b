import PathSieve.Path.Lemmas
import PathSieve.Rulebook

/-!
# Paths as a canonical form

The names in a spelling are what stands between its separators, without empty names and dots.
`ofString_canonical` states that a path is made of these names alone, that it is a fixed point of
its own spelling, and that no rulebook tells spellings with the same names apart.
-/

namespace PathSieve.Path

open Text

set_option autoImplicit false

def namesIn (raw : String) : List String := (segmentsOf raw.toList).map String.ofList

theorem map_ofList_inj {xs ys : List (List Char)} :
    xs.map String.ofList = ys.map String.ofList ↔ xs = ys := by
  refine List.map_inj_right fun x y h => ?_
  rw [← String.toList_ofList (l := x), h, String.toList_ofList]

theorem isSeparator_of_mem_segmentsOf {raw segment : List Char} {c : Char}
    (h : segment ∈ segmentsOf raw) (hc : c ∈ segment) : isSeparator c = false :=
  not_isSeparator_of_mem_splitBy isSeparator raw segment c (List.mem_filter.mp h).1 hc

theorem segmentsOf_name (name : List Char) (hName : isNamed name = true)
    (hChars : ∀ c ∈ name, isSeparator c = false) : segmentsOf name = [name] := by
  rw [segmentsOf, splitBy_eq_singleton isSeparator name hChars, List.filter_cons_of_pos hName]
  rfl

theorem segmentsOf_joinWith (segments : List (List Char))
    (hNamed : ∀ segment ∈ segments, isNamed segment = true)
    (hChars : ∀ segment ∈ segments, ∀ c ∈ segment, isSeparator c = false) :
    segmentsOf (joinWith '/' segments) = segments := by
  induction segments with
  | nil => rfl
  | cons segment rest ih =>
    have hFirst := segmentsOf_name segment (hNamed segment List.mem_cons_self)
      (hChars segment List.mem_cons_self)
    cases rest with
    | nil => rw [joinWith_singleton, hFirst]
    | cons next rest =>
      rw [joinWith_cons_cons, segmentsOf_append_cons _ _ '/' rfl, hFirst,
        ih (fun other hMem => hNamed other (List.mem_cons_of_mem _ hMem))
          fun other hMem => hChars other (List.mem_cons_of_mem _ hMem)]
      rfl

theorem segmentsOf_text (raw : String) :
    segmentsOf (ofString raw).text.toList = segmentsOf raw.toList := by
  rw [ofString_eq_ofSegments, text, String.toList_ofList]
  exact segmentsOf_joinWith _ (fun segment hMem => (List.mem_filter.mp hMem).2)
    fun segment hMem c hc => isSeparator_of_mem_segmentsOf hMem hc

def toBackslash (c : Char) : Char := if c = '/' then '\\' else c

theorem segmentsOf_map_toBackslash (raw : List Char) :
    segmentsOf (raw.map toBackslash) = segmentsOf raw := by
  have hKind : ∀ c, isSeparator (toBackslash c) = isSeparator c := by
    intro c
    by_cases hc : c = '/' <;> simp [toBackslash, isSeparator, hc]
  have hSame : ∀ c, isSeparator c = false → toBackslash c = c := by
    intro c hc
    simp only [isSeparator, Bool.or_eq_false_iff, beq_eq_false_iff_ne] at hc
    rw [toBackslash, if_neg hc.1]
  rw [segmentsOf, segmentsOf, splitBy_map toBackslash isSeparator isSeparator raw hKind hSame]

theorem decide_eq_of_ofString_eq (book : Rulebook) {p q : String}
    (h : ofString p = ofString q) : book.decide p = book.decide q := by
  rw [Rulebook.decide, Rulebook.decide, h]

theorem ofString_canonical (p q : String) :
    (ofString p).segments = namesIn p ∧
    (ofString p = ofString q ↔ namesIn p = namesIn q) ∧
    ofString (ofString p).text = ofString p ∧
    (ofString (p ++ "/" ++ q)).segments = (ofString p).segments ++ (ofString q).segments ∧
    ∀ book : Rulebook, (namesIn p = namesIn q → book.decide p = book.decide q) ∧
      book.decide (p.map toBackslash) = book.decide p := by
  have hEq : ∀ p q : String, ofString p = ofString q ↔ namesIn p = namesIn q := by
    intro p q
    rw [ofString_eq_ofString_iff, namesIn, namesIn, map_ofList_inj]
  refine ⟨segments_ofString p, hEq p q, ?_, ?_, fun book => ⟨fun hNames => ?_, ?_⟩⟩
  · rw [ofString_eq_ofString_iff, segmentsOf_text]
  · have hText : (p ++ "/" ++ q).toList = p.toList ++ '/' :: q.toList := by
      rw [String.toList_append, String.toList_append, List.append_assoc]
      rfl
    rw [segments_ofString, hText, segmentsOf_append_cons _ _ '/' rfl, List.map_append,
      segments_ofString, segments_ofString]
  · exact decide_eq_of_ofString_eq book ((hEq p q).mpr hNames)
  · apply decide_eq_of_ofString_eq book
    rw [ofString_eq_ofString_iff, String.toList_map, segmentsOf_map_toBackslash]

theorem ofString_canonical_spellings :
    namesIn ".\\src//lib\\./" = namesIn "src/lib" ∧
      (Rulebook.ofLines ["src/"]).value.decide ".\\src//lib\\./" =
        (Rulebook.ofLines ["src/"]).value.decide "src/lib" := by
  have hNames : namesIn ".\\src//lib\\./" = namesIn "src/lib" := by decide
  exact ⟨hNames, ((ofString_canonical _ _).2.2.2.2 _).1 hNames⟩

end PathSieve.Path
