/-!
# Splitting and joining

`splitBy` cuts a text at every character of a class and keeps the empty pieces. `lines` cuts at
line feeds, where one carriage return directly before the feed belongs to the line ending.
-/

namespace PathSieve.Text

set_option autoImplicit false

/-- The piece before the first separator, and the pieces after it. -/
def splitParts (isSeparator : Char → Bool) (cs : List Char) : List Char × List (List Char) :=
  cs.foldr
    (fun c parts => if isSeparator c then ([], parts.1 :: parts.2) else (c :: parts.1, parts.2))
    ([], [])

def splitBy (isSeparator : Char → Bool) (cs : List Char) : List (List Char) :=
  (splitParts isSeparator cs).1 :: (splitParts isSeparator cs).2

def joinWith (separator : Char) (pieces : List (List Char)) : List Char :=
  [separator].intercalate pieces

theorem splitParts_cons (isSeparator : Char → Bool) (c : Char) (cs : List Char) :
    splitParts isSeparator (c :: cs) =
      if isSeparator c then
        ([], (splitParts isSeparator cs).1 :: (splitParts isSeparator cs).2)
      else (c :: (splitParts isSeparator cs).1, (splitParts isSeparator cs).2) := rfl

@[simp] theorem splitBy_nil (isSeparator : Char → Bool) : splitBy isSeparator [] = [[]] := rfl

theorem splitBy_ne_nil (isSeparator : Char → Bool) (cs : List Char) :
    splitBy isSeparator cs ≠ [] := by
  simp [splitBy]

theorem splitBy_cons_of_separator (isSeparator : Char → Bool) (c : Char) (cs : List Char)
    (h : isSeparator c = true) : splitBy isSeparator (c :: cs) = [] :: splitBy isSeparator cs := by
  rw [splitBy, splitParts_cons, if_pos h]
  rfl

theorem splitBy_cons_of_other (isSeparator : Char → Bool) (c : Char) {cs first : List Char}
    {rest : List (List Char)} (h : isSeparator c = false)
    (hTail : splitBy isSeparator cs = first :: rest) :
    splitBy isSeparator (c :: cs) = (c :: first) :: rest := by
  obtain ⟨hFirst, hRest⟩ := List.cons.inj hTail
  rw [splitBy, splitParts_cons, h, hFirst, hRest]
  rfl

/-- A separator opens a piece, and every other character belongs to the first piece behind it. -/
theorem splitBy_cons_cases (isSeparator : Char → Bool) (c : Char) (cs : List Char) :
    (isSeparator c = true ∧ splitBy isSeparator (c :: cs) = [] :: splitBy isSeparator cs) ∨
      (isSeparator c = false ∧ ∃ first rest, splitBy isSeparator cs = first :: rest ∧
        splitBy isSeparator (c :: cs) = (c :: first) :: rest) := by
  cases hc : isSeparator c with
  | true => exact .inl ⟨rfl, splitBy_cons_of_separator isSeparator c cs hc⟩
  | false => exact .inr ⟨rfl, _, _, rfl, splitBy_cons_of_other isSeparator c hc rfl⟩

theorem not_isSeparator_of_mem_splitBy (isSeparator : Char → Bool) (cs piece : List Char)
    (c : Char) (hPiece : piece ∈ splitBy isSeparator cs) (hc : c ∈ piece) :
    isSeparator c = false := by
  induction cs generalizing piece with
  | nil =>
    rw [splitBy_nil, List.mem_singleton] at hPiece
    rw [hPiece] at hc
    cases hc
  | cons d ds ih =>
    rcases splitBy_cons_cases isSeparator d ds with ⟨_, hEq⟩ | ⟨hd, first, rest, hTail, hEq⟩
    · rw [hEq] at hPiece
      rcases List.mem_cons.mp hPiece with rfl | hMem
      · cases hc
      · exact ih piece hMem hc
    · rw [hEq] at hPiece
      rw [hTail] at ih
      rcases List.mem_cons.mp hPiece with rfl | hMem
      · rcases List.mem_cons.mp hc with rfl | hc
        · exact hd
        · exact ih first List.mem_cons_self hc
      · exact ih piece (List.mem_cons_of_mem first hMem) hc

theorem splitBy_eq_singleton (isSeparator : Char → Bool) (cs : List Char)
    (h : ∀ c ∈ cs, isSeparator c = false) : splitBy isSeparator cs = [cs] := by
  induction cs with
  | nil => rfl
  | cons c cs ih =>
    have hRest := ih fun d hd => h d (List.mem_cons_of_mem c hd)
    exact splitBy_cons_of_other isSeparator c (h c List.mem_cons_self) hRest

theorem splitBy_append_cons (isSeparator : Char → Bool) (xs ys : List Char) (c : Char)
    (h : isSeparator c = true) :
    splitBy isSeparator (xs ++ c :: ys) = splitBy isSeparator xs ++ splitBy isSeparator ys := by
  induction xs with
  | nil => exact splitBy_cons_of_separator isSeparator c ys h
  | cons x xs ih =>
    rcases splitBy_cons_cases isSeparator x xs with ⟨hx, hEq⟩ | ⟨hx, first, rest, hTail, hEq⟩
    · rw [List.cons_append, splitBy_cons_of_separator isSeparator x _ hx, ih, hEq]
      rfl
    · rw [hTail, List.cons_append] at ih
      rw [List.cons_append, splitBy_cons_of_other isSeparator x hx ih, hEq]
      rfl

/-- Characters may be changed within their class before a text is cut, as long as no other
character changes. -/
theorem splitBy_map (f : Char → Char) (before after : Char → Bool) (cs : List Char)
    (hKind : ∀ c, after (f c) = before c) (hSame : ∀ c, before c = false → f c = c) :
    splitBy after (cs.map f) = splitBy before cs := by
  induction cs with
  | nil => rfl
  | cons c cs ih =>
    rcases splitBy_cons_cases before c cs with ⟨hc, hEq⟩ | ⟨hc, first, rest, hTail, hEq⟩
    · rw [List.map_cons, splitBy_cons_of_separator after (f c) _ ((hKind c).trans hc), ih, hEq]
    · rw [hTail] at ih
      rw [List.map_cons, splitBy_cons_of_other after (f c) ((hKind c).trans hc) ih, hSame c hc, hEq]

@[simp] theorem joinWith_nil (separator : Char) : joinWith separator [] = [] := rfl

@[simp] theorem joinWith_singleton (separator : Char) (piece : List Char) :
    joinWith separator [piece] = piece := by
  simp [joinWith]

theorem joinWith_cons_cons (separator : Char) (piece next : List Char) (rest : List (List Char)) :
    joinWith separator (piece :: next :: rest) =
      piece ++ separator :: joinWith separator (next :: rest) := by
  simp [joinWith, List.intercalate]

theorem joinWith_splitBy (separator : Char) (cs : List Char) :
    joinWith separator (splitBy (· == separator) cs) = cs := by
  induction cs with
  | nil => rfl
  | cons c cs ih =>
    rcases splitBy_cons_cases (· == separator) c cs with ⟨hc, hEq⟩ | ⟨_, first, rest, hTail, hEq⟩
    · obtain ⟨next, rest, hTail⟩ :=
        List.exists_cons_of_ne_nil (splitBy_ne_nil (· == separator) cs)
      rw [hEq, hTail, joinWith_cons_cons, ← hTail, ih, beq_iff_eq.mp hc]
      rfl
    · rw [hTail] at ih
      rw [hEq]
      cases rest with
      | nil =>
        rw [joinWith_singleton] at ih ⊢
        rw [ih]
      | cons next rest =>
        rw [joinWith_cons_cons] at ih ⊢
        rw [← ih]
        rfl

theorem getLast?_of_getLast?_splitBy (separator : Char) (cs : List Char)
    (h : (splitBy (· == separator) cs).getLast? = some []) :
    cs = [] ∨ cs.getLast? = some separator := by
  induction cs with
  | nil => exact .inl rfl
  | cons c cs ih =>
    right
    have hRest : (splitBy (· == separator) cs).getLast? = some [] →
        cs ≠ [] → (c :: cs).getLast? = some separator := by
      intro hLast hSome
      rw [List.getLast?_cons, (ih hLast).resolve_left hSome]
      rfl
    rcases splitBy_cons_cases (· == separator) c cs with ⟨hc, hEq⟩ | ⟨_, first, rest, hTail, hEq⟩
    · cases cs with
      | nil =>
        rw [beq_iff_eq.mp hc]
        rfl
      | cons d ds =>
        apply hRest _ (List.cons_ne_nil d ds)
        rw [hEq, splitBy, List.getLast?_cons_cons] at h
        exact h
    · rw [hEq] at h
      cases rest with
      | nil => exact absurd (Option.some.inj h) (List.cons_ne_nil c first)
      | cons next rest =>
        apply hRest
        · rw [hTail]
          rwa [List.getLast?_cons_cons] at h ⊢
        · rintro rfl
          cases hTail

/-- One carriage return at the end of a line belongs to the line ending. -/
def dropReturn (line : List Char) : List Char :=
  if line.getLast? = some '\r' then line.dropLast else line

/-- Only a piece that a line feed ends loses its carriage return; an empty last piece is no
line. -/
def lines (cs : List Char) : List (List Char) :=
  let parts := splitBy (· == '\n') cs
  let last := parts.getLast (splitBy_ne_nil _ _)
  parts.dropLast.map dropReturn ++ if last.isEmpty then [] else [last]

theorem splitBy_feed_of_not_mem {line : List Char} (h : '\n' ∉ line) :
    splitBy (· == '\n') line = [line] := by
  refine splitBy_eq_singleton _ line fun c hc => beq_eq_false_iff_ne.mpr ?_
  rintro rfl
  exact h hc

theorem lines_append_feed {line : List Char} (rest : List Char) (h : '\n' ∉ line) :
    lines (line ++ '\n' :: rest) = dropReturn line :: lines rest := by
  have hParts : splitBy (· == '\n') (line ++ '\n' :: rest) =
      line :: splitBy (· == '\n') rest := by
    rw [splitBy_append_cons _ _ _ _ rfl, splitBy_feed_of_not_mem h]
    rfl
  simp only [lines, hParts, List.dropLast_cons_of_ne_nil (splitBy_ne_nil _ _),
    List.getLast_cons (splitBy_ne_nil _ _)]
  rfl

theorem lines_of_no_feed {line : List Char} (h : '\n' ∉ line) :
    lines line = if line.isEmpty then [] else [line] := by
  simp only [lines, splitBy_feed_of_not_mem h]
  rfl

end PathSieve.Text
