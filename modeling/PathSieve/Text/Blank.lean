/-!
# Blank characters

The blank characters are those with the White_Space property. Trimming drops them at both ends
of a text and nowhere else.
-/

namespace PathSieve.Text

set_option autoImplicit false

/-- The code points with the White_Space property, as closed intervals. -/
def blankRanges : List (Nat × Nat) :=
  [(0x09, 0x0D), (0x20, 0x20), (0x85, 0x85), (0xA0, 0xA0), (0x1680, 0x1680), (0x2000, 0x200A),
    (0x2028, 0x2029), (0x202F, 0x202F), (0x205F, 0x205F), (0x3000, 0x3000)]

def inRanges (ranges : List (Nat × Nat)) (n : Nat) : Bool :=
  ranges.any fun range => range.1 ≤ n && n ≤ range.2

theorem inRanges_eq_true_iff (ranges : List (Nat × Nat)) (n : Nat) :
    inRanges ranges n = true ↔ ∃ range ∈ ranges, range.1 ≤ n ∧ n ≤ range.2 := by
  simp [inRanges]

def isBlank (c : Char) : Bool := inRanges blankRanges c.toNat

def trimStart (cs : List Char) : List Char := cs.dropWhile isBlank

def trimEnd (cs : List Char) : List Char := (cs.reverse.dropWhile isBlank).reverse

def trim (cs : List Char) : List Char := trimEnd (trimStart cs)

theorem trim_append_blank (cs : List Char) (c : Char) (h : isBlank c = true) :
    trim (cs ++ [c]) = trim cs := by
  have hEnd : ∀ ds : List Char, trimEnd (ds ++ [c]) = trimEnd ds := by
    intro ds
    rw [trimEnd, List.reverse_append, List.reverse_singleton, List.singleton_append,
      List.dropWhile_cons_of_pos h]
    rfl
  rw [trim, trimStart, List.dropWhile_append]
  split
  · rename_i hEmpty
    rw [trim, trimStart, List.isEmpty_iff.mp hEmpty, List.dropWhile_cons_of_pos h]
    rfl
  · exact hEnd _

theorem trim_append_blanks (cs : List Char) {after : List Char}
    (h : ∀ c ∈ after, isBlank c = true) : trim (cs ++ after) = trim cs := by
  induction after generalizing cs with
  | nil => rw [List.append_nil]
  | cons c after ih =>
    have hRest := ih (cs ++ [c]) fun d hd => h d (List.mem_cons_of_mem c hd)
    rw [List.append_assoc, List.singleton_append] at hRest
    rw [hRest, trim_append_blank cs c (h c List.mem_cons_self)]

theorem trim_blanks_append (cs : List Char) {before : List Char}
    (h : ∀ c ∈ before, isBlank c = true) : trim (before ++ cs) = trim cs := by
  rw [trim, trimStart, List.dropWhile_append_of_pos h]
  rfl

def startsBlank (cs : List Char) : Bool := cs.head?.any isBlank

def endsBlank (cs : List Char) : Bool := cs.getLast?.any isBlank

theorem endsBlank_append (cs : List Char) {ds : List Char} (h : ds ≠ []) :
    endsBlank (cs ++ ds) = endsBlank ds := by
  rw [endsBlank, endsBlank, List.getLast?_append, Option.or_of_isSome]
  rwa [List.getLast?_isSome]

theorem trim_eq_self {cs : List Char} (hStart : startsBlank cs = false)
    (hEnd : endsBlank cs = false) : trim cs = cs := by
  have hDrop : ∀ ds : List Char, startsBlank ds = false → ds.dropWhile isBlank = ds := by
    intro ds hds
    cases ds with
    | nil => rfl
    | cons d ds => exact List.dropWhile_cons_of_neg (Bool.eq_false_iff.mp hds)
  rw [trim, trimStart, hDrop cs hStart, trimEnd, hDrop, List.reverse_reverse]
  rwa [startsBlank, List.head?_reverse]

theorem endsBlank_trim (cs : List Char) : endsBlank (trim cs) = false := by
  rw [endsBlank, trim, trimEnd, List.getLast?_reverse]
  cases hFirst : ((trimStart cs).reverse.dropWhile isBlank).head? with
  | none => rfl
  | some c =>
    have hNot := List.head?_dropWhile_not isBlank (trimStart cs).reverse
    rw [hFirst] at hNot
    simpa using hNot

/-- What is left after trimming in front keeps its first character, if any of it is left. -/
theorem startsBlank_trim (cs : List Char) : startsBlank (trim cs) = false := by
  have hStart := List.head?_dropWhile_not isBlank cs
  obtain ⟨dropped, hDropped⟩ : ∃ dropped, trimStart cs = trim cs ++ dropped := by
    obtain ⟨front, hFront⟩ := List.dropWhile_suffix isBlank (l := (trimStart cs).reverse)
    refine ⟨front.reverse, ?_⟩
    rw [trim, trimEnd, ← List.reverse_append, hFront, List.reverse_reverse]
  cases hTrim : trim cs with
  | nil => rfl
  | cons c rest =>
    rw [← trimStart, hDropped, hTrim] at hStart
    simpa [startsBlank] using hStart

theorem trim_trim (cs : List Char) : trim (trim cs) = trim cs :=
  trim_eq_self (startsBlank_trim cs) (endsBlank_trim cs)

end PathSieve.Text
