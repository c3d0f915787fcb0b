import PathSieve.Glob.Piece

/-!
# The decision procedure of glob pieces

`fits_eq_true_iff` states that `fits` decides `Matches`. A column is described by the predicate
whose values on the tails of a word it holds.
-/

namespace PathSieve.Glob

set_option autoImplicit false

theorem matches_byte_cons (b : UInt8) (ps : List Piece) (w : List UInt8) :
    Matches (.byte b :: ps) w ↔ ∃ v, w = b :: v ∧ Matches ps v := by
  constructor
  · rintro ⟨_, v, rfl, rfl, h⟩
    exact ⟨v, rfl, h⟩
  · rintro ⟨v, rfl, h⟩
    exact ⟨[b], v, rfl, rfl, h⟩

theorem matches_append (ps qs : List Piece) (w : List UInt8) :
    Matches (ps ++ qs) w ↔ ∃ u v, w = u ++ v ∧ Matches ps u ∧ Matches qs v := by
  induction ps generalizing w with
  | nil =>
    constructor
    · intro h
      exact ⟨[], w, rfl, rfl, h⟩
    · rintro ⟨_, v, rfl, rfl, h⟩
      exact h
  | cons p ps ih =>
    constructor
    · rintro ⟨u, v, rfl, hp, h⟩
      obtain ⟨x, y, rfl, hx, hy⟩ := (ih v).mp h
      exact ⟨u ++ x, y, by simp, ⟨u, x, rfl, hp, hx⟩, hy⟩
    · rintro ⟨_, y, rfl, ⟨u, x, rfl, hp, hx⟩, hy⟩
      exact ⟨u, x ++ y, by simp, hp, (ih (x ++ y)).mpr ⟨x, y, rfl, hx, hy⟩⟩

theorem matches_append_byte (ps : List Piece) (b : UInt8) (w : List UInt8) :
    Matches (ps ++ [.byte b]) w ↔ ∃ v, w = v ++ [b] ∧ Matches ps v := by
  rw [matches_append]
  constructor
  · rintro ⟨u, v, rfl, hu, hv⟩
    obtain ⟨x, rfl, hx⟩ := (matches_byte_cons b [] v).mp hv
    exact ⟨u, by rw [show x = [] from hx], hu⟩
  · rintro ⟨v, rfl, hv⟩
    exact ⟨v, [b], rfl, hv, (matches_byte_cons b [] [b]).mpr ⟨[], rfl, rfl⟩⟩

/-! ## Plain bytes at the ends -/

theorem matches_of_peel (ps : List Piece) (w : List UInt8) :
    Matches ps w ↔ ∃ rest, peel ps w = some rest ∧ Matches rest.1 rest.2 := by
  induction ps, w using peel.induct with
  | case1 b ps c w h ih =>
    rw [matches_byte_cons, peel, if_pos h, ← ih]
    simp [show c = b by simpa using h]
  | case2 b ps c w h =>
    rw [matches_byte_cons, peel, if_neg h]
    simp [show ¬ c = b by simpa using h]
  | case3 b ps => simp [matches_byte_cons, peel]
  | case4 ps w h₁ h₂ => simp [peel]

theorem matches_of_peel_reverse (ps : List Piece) (w : List UInt8) :
    Matches ps.reverse w.reverse ↔
      ∃ rest, peel ps w = some rest ∧ Matches rest.1.reverse rest.2.reverse := by
  induction ps, w using peel.induct with
  | case1 b ps c w h ih =>
    rw [List.reverse_cons, matches_append_byte, peel, if_pos h, ← ih]
    simp [show c = b by simpa using h]
  | case2 b ps c w h =>
    rw [List.reverse_cons, matches_append_byte, peel, if_neg h]
    simp [show ¬ c = b by simpa using h]
  | case3 b ps => simp [matches_append_byte, peel]
  | case4 ps w h₁ h₂ => simp [peel]

/-! ## Columns -/

/-- The values of a predicate on the tails of a word. -/
def values (f : List UInt8 → Bool) : List UInt8 → Column
  | [] => [f []]
  | b :: w => f (b :: w) :: values f w

theorem values_eq_cons (f : List UInt8 → Bool) (w : List UInt8) :
    values f w = f w :: (values f w).tail := by
  cases w <;> rfl

theorem getLastD_values (f : List UInt8 → Bool) (w : List UInt8) :
    (values f w).getLastD false = f [] := by
  induction w with
  | nil => rfl
  | cons b w ih =>
    rw [values, values_eq_cons, List.getLastD_cons, List.getLastD_cons]
    rw [values_eq_cons, List.getLastD_cons] at ih
    exact ih

theorem endColumn_eq_values (w : List UInt8) : endColumn w = values List.isEmpty w := by
  induction w with
  | nil => rfl
  | cons b w ih => simpa [endColumn, values] using ih

def afterByte (accepts : UInt8 → Bool) (f : List UInt8 → Bool) : List UInt8 → Bool
  | [] => false
  | b :: w => accepts b && f w

theorem stepOver_values (accepts : UInt8 → Bool) (f : List UInt8 → Bool) (w : List UInt8) :
    stepOver accepts w (values f w) = values (afterByte accepts f) w := by
  induction w with
  | nil => rfl
  | cons b w ih =>
    simp only [stepOver] at ih
    rw [values, stepOver, List.tail_cons, values_eq_cons f w, List.zipWith_cons_cons,
      List.cons_append, ih]
    rfl

theorem afterByte_eq_true_iff (accepts : UInt8 → Bool) (f : List UInt8 → Bool) (w : List UInt8) :
    afterByte accepts f w = true ↔ ∃ b v, w = b :: v ∧ accepts b = true ∧ f v = true := by
  cases w with
  | nil => simp [afterByte]
  | cons c w =>
    rw [afterByte, Bool.and_eq_true]
    constructor
    · intro h
      exact ⟨c, w, rfl, h⟩
    · rintro ⟨b, v, h, hb⟩
      obtain ⟨rfl, rfl⟩ := List.cons.inj h
      exact hb

/-- The predicate of a tail from which accepted bytes lead on. -/
def afterRun (accepts : UInt8 → Bool) (f : List UInt8 → Bool) : List UInt8 → Bool
  | [] => f []
  | b :: w => f (b :: w) || (accepts b && afterRun accepts f w)

theorem reach_values (accepts : UInt8 → Bool) (f : List UInt8 → Bool) (w : List UInt8) :
    reach accepts w (values f w) = values (afterRun accepts f) w := by
  induction w with
  | nil => rfl
  | cons b w ih =>
    have hLast : (values f (b :: w)).getLastD false = (values f w).getLastD false := by
      rw [getLastD_values, getLastD_values]
    rw [reach, hLast, values, List.zip_cons_cons, List.foldr_cons]
    change (f (b :: w) || (accepts b && (reach accepts w (values f w)).headD false)) ::
      reach accepts w (values f w) = _
    rw [ih, values, values_eq_cons (afterRun accepts f) w]
    rfl

theorem afterRun_eq_true_iff (accepts : UInt8 → Bool) (f : List UInt8 → Bool) (w : List UInt8) :
    afterRun accepts f w = true ↔
      ∃ u v, w = u ++ v ∧ (∀ b ∈ u, accepts b = true) ∧ f v = true := by
  induction w with
  | nil =>
    constructor
    · intro h
      exact ⟨[], [], rfl, by simp, h⟩
    · rintro ⟨u, v, h, _, hv⟩
      obtain ⟨rfl, rfl⟩ := List.append_eq_nil_iff.mp h.symm
      exact hv
  | cons b w ih =>
    rw [afterRun, Bool.or_eq_true, Bool.and_eq_true, ih]
    constructor
    · rintro (h | ⟨hb, u, v, rfl, hu, hv⟩)
      · exact ⟨[], b :: w, rfl, by simp, h⟩
      · exact ⟨b :: u, v, rfl, by simpa [hb] using hu, hv⟩
    · rintro ⟨u, v, h, hu, hv⟩
      cases u with
      | nil => exact Or.inl (by rw [h]; exact hv)
      | cons c u =>
        obtain ⟨rfl, rfl⟩ := List.cons.inj h
        exact Or.inr ⟨hu b (by simp), u, v, rfl, fun x hx => hu x (by simp [hx]), hv⟩

theorem pointwiseOr_values (f g : List UInt8 → Bool) (w : List UInt8) :
    pointwiseOr (values f w) (values g w) = values (fun v => f v || g v) w := by
  induction w with
  | nil => rfl
  | cons b w ih => simpa [pointwiseOr, values] using ih

def Piece.before (p : Piece) (f : List UInt8 → Bool) : List UInt8 → Bool :=
  match p with
  | .byte b => afterByte (· == b) f
  | .one => afterByte (· != slash) f
  | .run => afterRun (· != slash) f
  | .dirs => fun w => f w || afterRun (fun _ => true) (afterByte (· == slash) f) w
  | .all => afterRun (fun _ => true) f

theorem Piece.column_values (p : Piece) (f : List UInt8 → Bool) (w : List UInt8) :
    p.column w (values f w) = values (p.before f) w := by
  cases p with
  | byte b => exact stepOver_values _ f w
  | one => exact stepOver_values _ f w
  | run => exact reach_values (· != slash) f w
  | dirs => rw [column, stepOver_values, reach_values, pointwiseOr_values]; rfl
  | all => exact reach_values (fun _ => true) f w

theorem Piece.before_eq_true_iff (p : Piece) (f : List UInt8 → Bool) (w : List UInt8) :
    p.before f w = true ↔ ∃ u v, w = u ++ v ∧ p.Spans u ∧ f v = true := by
  cases p with
  | byte b =>
    rw [before, afterByte_eq_true_iff]
    constructor
    · rintro ⟨c, v, rfl, hc, hv⟩
      exact ⟨[c], v, rfl, congrArg (fun x => [x]) (by simpa using hc), hv⟩
    · rintro ⟨_, v, rfl, rfl, hv⟩
      exact ⟨b, v, rfl, by simp, hv⟩
  | one =>
    rw [before, afterByte_eq_true_iff]
    constructor
    · rintro ⟨b, v, rfl, hb, hv⟩
      exact ⟨[b], v, rfl, ⟨b, by simpa using hb, rfl⟩, hv⟩
    · rintro ⟨_, v, rfl, ⟨b, hb, rfl⟩, hv⟩
      exact ⟨b, v, rfl, by simpa using hb, hv⟩
  | run =>
    rw [before, afterRun_eq_true_iff]
    have h : ∀ u : List UInt8, (∀ b ∈ u, (b != slash) = true) ↔ Spans .run u := by
      intro u
      constructor
      · intro hAll hMem
        simpa using hAll slash hMem
      · intro hNot b hb
        simpa using fun hEq : b = slash => hNot (hEq ▸ hb)
    simp only [h]
  | dirs =>
    simp only [before, Bool.or_eq_true, afterRun_eq_true_iff, afterByte_eq_true_iff, Spans]
    constructor
    · rintro (h | ⟨u, _, rfl, _, b, v, rfl, hb, hv⟩)
      · exact ⟨[], w, rfl, Or.inl rfl, h⟩
      · exact ⟨u ++ [slash], v, by simp [show b = slash by simpa using hb], Or.inr ⟨u, rfl⟩, hv⟩
    · rintro ⟨u, v, rfl, rfl | ⟨x, rfl⟩, hv⟩
      · exact Or.inl hv
      · exact Or.inr ⟨x, slash :: v, by simp, by simp, slash, v, rfl, by simp, hv⟩
  | all => simp [before, afterRun_eq_true_iff, Spans]

theorem columnOf_values (ps : List Piece) (w : List UInt8) :
    columnOf ps w = values (ps.foldr Piece.before List.isEmpty) w := by
  induction ps with
  | nil => exact endColumn_eq_values w
  | cons p ps ih =>
    rw [columnOf, List.foldr_cons, List.foldr_cons]
    change p.column w (columnOf ps w) = _
    rw [ih, Piece.column_values]

theorem foldr_before_eq_true_iff (ps : List Piece) (w : List UInt8) :
    ps.foldr Piece.before List.isEmpty w = true ↔ Matches ps w := by
  induction ps generalizing w with
  | nil => simp [Matches]
  | cons p ps ih => simp only [List.foldr_cons, Piece.before_eq_true_iff, ih, Matches]

theorem headD_columnOf_eq_true_iff (ps : List Piece) (w : List UInt8) :
    (columnOf ps w).headD false = true ↔ Matches ps w := by
  rw [columnOf_values, values_eq_cons, List.headD_cons, foldr_before_eq_true_iff]

theorem fits_eq_true_iff (ps : List Piece) (w : List UInt8) :
    fits ps w = true ↔ Matches ps w := by
  rw [matches_of_peel, fits]
  cases h : peel ps w with
  | none => simp
  | some rest =>
    have hBack := matches_of_peel_reverse rest.1.reverse rest.2.reverse
    simp only [List.reverse_reverse] at hBack
    simp only [Option.some.injEq, exists_eq_left', hBack]
    cases hEnd : peel rest.1.reverse rest.2.reverse with
    | none => simp
    | some core =>
      simp only [Option.some.injEq, exists_eq_left']
      exact headD_columnOf_eq_true_iff _ _

end PathSieve.Glob
