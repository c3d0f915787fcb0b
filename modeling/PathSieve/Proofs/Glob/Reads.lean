import PathSieve.Proofs.Glob.Components
import PathSieve.Text.Utf8

/-!
# Reading segments by components

A body may be read component by component against the segments of a path, without any slash:
a `**` takes whole segments and every other component spells exactly one.
-/

namespace PathSieve.Glob

open Text

set_option autoImplicit false

/-- The bytes that a component spells: any run for a star, one byte for `?`, and the bytes of
every other character. -/
def Spells : List Char → List UInt8 → Prop
  | [], w => w = []
  | '*' :: name, w => ∃ u v, w = u ++ v ∧ Spells name v
  | '?' :: name, w => ∃ b v, w = b :: v ∧ Spells name v
  | c :: name, w => ∃ v, w = String.utf8EncodeChar c ++ v ∧ Spells name v

/-- Components use up segments in order. A `**` takes any number of them, but at the end at least
one; every other component takes one and spells it. -/
inductive Reads : List (List Char) → List (List Char) → Prop
  | done : Reads [] []
  | name {component segment : List Char} {rest segments : List (List Char)}
      (hName : component ≠ dirsComponent) (hSpells : Spells component (encode segment))
      (hRest : Reads rest segments) : Reads (component :: rest) (segment :: segments)
  | dirs (skipped : List (List Char)) {rest segments : List (List Char)} (hSome : rest ≠ [])
      (hRest : Reads rest segments) : Reads (dirsComponent :: rest) (skipped ++ segments)
  | dirsLast {segments : List (List Char)} (hSome : segments ≠ []) : Reads [dirsComponent] segments

theorem reads_nil_iff (segments : List (List Char)) : Reads [] segments ↔ segments = [] := by
  constructor
  · intro h
    cases h
    rfl
  · rintro rfl
    exact .done

theorem reads_name_iff {component : List Char} (rest segments : List (List Char))
    (h : component ≠ dirsComponent) :
    Reads (component :: rest) segments ↔ ∃ segment more, segments = segment :: more ∧
      Spells component (encode segment) ∧ Reads rest more := by
  constructor
  · intro hReads
    cases hReads with
    | name _ hSpells hRest => exact ⟨_, _, rfl, hSpells, hRest⟩
    | dirs => exact absurd rfl h
    | dirsLast => exact absurd rfl h
  · rintro ⟨segment, more, rfl, hSpells, hRest⟩
    exact .name h hSpells hRest

theorem reads_dirsLast_iff (segments : List (List Char)) :
    Reads [dirsComponent] segments ↔ segments ≠ [] := by
  constructor
  · intro h
    cases h with
    | name hName => exact absurd rfl hName
    | dirs _ hSome => exact absurd rfl hSome
    | dirsLast hSome => exact hSome
  · exact .dirsLast

theorem reads_dirs_iff {rest : List (List Char)} (segments : List (List Char)) (h : rest ≠ []) :
    Reads (dirsComponent :: rest) segments ↔
      ∃ skipped more, segments = skipped ++ more ∧ Reads rest more := by
  constructor
  · intro hReads
    cases hReads with
    | name hName => exact absurd rfl hName
    | dirs skipped _ hRest => exact ⟨skipped, _, rfl, hRest⟩
    | dirsLast => exact absurd rfl h
  · rintro ⟨skipped, more, rfl, hRest⟩
    exact .dirs skipped h hRest

theorem reads_dirs_dirs_iff (rest segments : List (List Char)) :
    Reads (dirsComponent :: dirsComponent :: rest) segments ↔
      Reads (dirsComponent :: rest) segments := by
  rw [reads_dirs_iff segments (List.cons_ne_nil _ _)]
  cases rest with
  | nil =>
    rw [reads_dirsLast_iff]
    constructor
    · rintro ⟨skipped, more, rfl, hMore⟩ hNil
      exact (reads_dirsLast_iff more).mp hMore (List.append_eq_nil_iff.mp hNil).2
    · intro hSome
      exact ⟨[], segments, rfl, .dirsLast hSome⟩
  | cons component rest =>
    have hSome : component :: rest ≠ [] := List.cons_ne_nil _ _
    rw [reads_dirs_iff segments hSome]
    constructor
    · rintro ⟨skipped, more, rfl, hMore⟩
      obtain ⟨other, last, rfl, hLast⟩ := (reads_dirs_iff more hSome).mp hMore
      exact ⟨skipped ++ other, last, by rw [List.append_assoc], hLast⟩
    · rintro ⟨skipped, more, rfl, hMore⟩
      exact ⟨[], skipped ++ more, rfl, .dirs skipped hSome hMore⟩

theorem eq_nil_of_reads_nil {components segments : List (List Char)}
    (h : Reads components segments) (hNil : segments = []) : components = [] := by
  induction h with
  | done => rfl
  | name => cases hNil
  | dirs skipped hSome _ ih => exact absurd (ih (List.append_eq_nil_iff.mp hNil).2) hSome
  | dirsLast hSome => exact absurd hNil hSome

/-! ## Leading runs of segments -/

theorem Reads.append_dirs {components segments more : List (List Char)}
    (h : Reads components segments) (hMore : more ≠ []) :
    Reads (components ++ [dirsComponent]) (segments ++ more) := by
  induction h with
  | done => exact .dirsLast hMore
  | name hName hSpells _ ih => exact .name hName hSpells ih
  | dirs skipped _ _ ih =>
    rw [List.append_assoc]
    exact .dirs skipped (List.append_ne_nil_of_right_ne_nil _ (List.cons_ne_nil _ _)) ih
  | dirsLast _ => exact .dirs _ (List.cons_ne_nil _ _) (.dirsLast hMore)

theorem exists_leading_of_reads_append_dirs {components segments : List (List Char)}
    (h : Reads (components ++ [dirsComponent]) segments) :
    ∃ leading, leading <+: segments ∧ Reads components leading := by
  induction components using componentsInduction generalizing segments with
  | nil => exact ⟨[], List.nil_prefix, .done⟩
  | dirs rest ih =>
    cases rest with
    | nil => exact ⟨segments, List.prefix_refl segments, (reads_dirs_dirs_iff [] segments).mp h⟩
    | cons component rest =>
      obtain ⟨skipped, more, rfl, hMore⟩ := (reads_dirs_iff segments (List.cons_ne_nil _ _)).mp h
      obtain ⟨leading, hPrefix, hLeading⟩ := ih hMore
      exact ⟨skipped ++ leading, (List.prefix_append_right_inj skipped).mpr hPrefix,
        .dirs skipped (List.cons_ne_nil _ _) hLeading⟩
  | name component rest hName ih =>
    obtain ⟨segment, more, rfl, hSpells, hMore⟩ := (reads_name_iff _ segments hName).mp h
    obtain ⟨leading, hPrefix, hLeading⟩ := ih hMore
    exact ⟨segment :: leading, (List.prefix_cons_inj segment).mpr hPrefix,
      .name hName hSpells hLeading⟩

/-- What components read at the front of segments they read of all of them, or else a `**` behind
them reads the rest. -/
theorem exists_leading_reads_iff (components segments : List (List Char)) :
    (∃ leading, leading <+: segments ∧ Reads components leading) ↔
      Reads components segments ∨ Reads (components ++ [dirsComponent]) segments := by
  constructor
  · rintro ⟨leading, ⟨more, rfl⟩, hLeading⟩
    by_cases hMore : more = []
    · rw [hMore, List.append_nil]
      exact .inl hLeading
    · exact .inr (hLeading.append_dirs hMore)
  · rintro (hReads | hReads)
    · exact ⟨segments, List.prefix_refl segments, hReads⟩
    · exact exists_leading_of_reads_append_dirs hReads

/-! ## Groups in front -/

theorem splitBy_dirs (body : List Char) :
    splitBy (· == '/') (dirsComponent ++ '/' :: body) =
      dirsComponent :: splitBy (· == '/') body := by
  rw [splitBy_append_cons _ _ _ _ rfl]
  rfl

/-- Behind a `**` any number of further ones in a body reads nothing new. -/
theorem reads_dirs_groups_iff (count : Nat) (body : List Char) (segments : List (List Char)) :
    Reads (dirsComponent :: splitBy (· == '/')
        ((List.replicate count (dirsComponent ++ ['/'])).flatten ++ body)) segments ↔
      Reads (dirsComponent :: splitBy (· == '/') body) segments := by
  induction count with
  | zero => exact Iff.rfl
  | succ count ih =>
    rw [List.replicate_succ, List.flatten_cons, List.append_assoc, List.append_assoc,
      List.singleton_append, splitBy_dirs, reads_dirs_dirs_iff, ih]

end PathSieve.Glob
