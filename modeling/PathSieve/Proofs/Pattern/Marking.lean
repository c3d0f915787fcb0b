import Mathlib.Data.List.Basic
import PathSieve.Rule

/-!
# Written patterns

A pattern is canonical if its body holds no marker that a reading would take off. Then reading the
text of the pattern gives it back, as `ofMarked_text` states: the markers that were written are
counted again, in spite of the order in which they are taken off.
-/

namespace PathSieve

set_option autoImplicit false

namespace Pattern

def dirGroup : List Char := ['*', '*', '/']

/-! ## Runs of markers -/

theorem dropWhile_slashes (count : Nat) {rest : List Char} (h : rest.head? ≠ some '/') :
    (List.replicate count '/' ++ rest).dropWhile (· == '/') = rest := by
  rw [List.dropWhile_append_of_pos fun c hc => beq_iff_eq.mpr (List.eq_of_mem_replicate hc)]
  cases rest with
  | nil => rfl
  | cons c rest => exact List.dropWhile_cons_of_neg (by simpa using h)

theorem takeWhile_slashes (count : Nat) {rest : List Char} (h : rest.head? ≠ some '/') :
    (List.replicate count '/' ++ rest).takeWhile (· == '/') = List.replicate count '/' := by
  rw [List.takeWhile_append_of_pos fun c hc => beq_iff_eq.mpr (List.eq_of_mem_replicate hc)]
  cases rest with
  | nil => exact List.append_nil _
  | cons c rest => rw [List.takeWhile_cons_of_neg (by simpa using h), List.append_nil]

theorem stripDirGroups_of_not_prefix (count : Nat) {cs : List Char} (h : ¬ dirGroup <+: cs) :
    stripDirGroups count cs = (count, cs) := by
  rw [stripDirGroups]
  rintro rest rfl
  exact h ⟨rest, rfl⟩

theorem not_prefix_stripDirGroups (count : Nat) (cs : List Char) :
    ¬ dirGroup <+: (stripDirGroups count cs).2 := by
  fun_induction stripDirGroups count cs with
  | case1 count rest ih => exact ih
  | case2 count rest h =>
    rintro ⟨tail, rfl⟩
    exact h tail rfl

theorem stripDirGroups_group (count : Nat) (cs : List Char) :
    stripDirGroups count (dirGroup ++ cs) = stripDirGroups (count + 1) cs := rfl

theorem stripDirGroups_groups (start count : Nat) {body : List Char} (h : ¬ dirGroup <+: body) :
    stripDirGroups start ((List.replicate count dirGroup).flatten ++ body) =
      (start + count, body) := by
  induction count generalizing start with
  | zero => exact stripDirGroups_of_not_prefix start h
  | succ count ih =>
    rw [List.replicate_succ, List.flatten_cons, List.append_assoc, stripDirGroups_group, ih,
      Nat.add_assoc, Nat.add_comm 1]

/-! ## What is taken off a line -/

/-- A line without its sign. -/
def behindSign (line : List Char) : List Char :=
  if line.head? == some '!' then line.tail else line

/-- A line without its sign and the slashes at its ends. -/
def betweenSlashes (line : List Char) : List Char :=
  ((behindSign line).reverse.dropWhile (· == '/')).reverse.dropWhile (· == '/')

/-- Groups are taken off in front of the body only where no slash stands before them. -/
theorem ofMarked_cases (line : List Char) :
    ((ofMarked line).leadingSlashes = 0 ∧ ((ofMarked line).dirGroups, (ofMarked line).body) =
      stripDirGroups 0 (betweenSlashes line)) ∨
    ((ofMarked line).leadingSlashes ≠ 0 ∧ (ofMarked line).dirGroups = 0 ∧
      (ofMarked line).body = betweenSlashes line) := by
  simp only [ofMarked, betweenSlashes, behindSign]
  generalize (List.dropWhile (· == '/')
    (if line.head? == some '!' then line.tail else line).reverse).reverse = unslashed
  by_cases hRooted : (unslashed.takeWhile (· == '/')).length = 0
  · refine .inl ⟨hRooted, ?_⟩
    rw [if_pos hRooted]
  · refine .inr ⟨hRooted, ?_⟩
    rw [if_neg hRooted]
    exact ⟨rfl, rfl⟩

/-! ## Canonical patterns -/

/-- Every marker around the body is counted, and the signs are told apart. -/
structure Canonical (pattern : Pattern) : Prop where
  body_ne_nil : pattern.body ≠ []
  body_last : pattern.body.getLast? ≠ some '/'
  body_first : pattern.dirGroups = 0 → pattern.body.head? ≠ some '/'
  groups_of_rooted : pattern.leadingSlashes ≠ 0 → pattern.dirGroups = 0
  body_group : pattern.leadingSlashes = 0 → ¬ dirGroup <+: pattern.body
  text_sign : pattern.negated = false → pattern.text.head? ≠ some '!'

/-- The text of a pattern between its sign and the slashes at its end. -/
def front (pattern : Pattern) : List Char :=
  List.replicate pattern.leadingSlashes '/' ++
    ((List.replicate pattern.dirGroups dirGroup).flatten ++ pattern.body)

theorem text_eq_front (pattern : Pattern) :
    pattern.text = (if pattern.negated then ['!'] else []) ++
      (pattern.front ++ List.replicate pattern.trailingSlashes '/') := by
  simp only [text, front, dirGroup, List.append_assoc]

namespace Canonical

variable {pattern : Pattern}

theorem getLast?_front (h : Canonical pattern) : pattern.front.getLast? ≠ some '/' := by
  obtain ⟨last, hLast⟩ := Option.ne_none_iff_exists'.mp
    (mt List.getLast?_eq_none_iff.mp h.body_ne_nil)
  rw [front, List.getLast?_append, List.getLast?_append, hLast, Option.some_or, Option.some_or,
    ← hLast]
  exact h.body_last

theorem head?_groups (h : Canonical pattern) :
    ((List.replicate pattern.dirGroups dirGroup).flatten ++ pattern.body).head? ≠ some '/' := by
  cases hGroups : pattern.dirGroups with
  | zero => exact h.body_first hGroups
  | succ count => simp [List.replicate_succ, dirGroup]

end Canonical

theorem ofMarked_text {pattern : Pattern} (h : Canonical pattern) :
    ofMarked pattern.text = pattern := by
  have hSign : (pattern.text.head? == some '!') = pattern.negated := by
    cases hNegated : pattern.negated with
    | true =>
      rw [text_eq_front, hNegated]
      rfl
    | false => exact beq_eq_false_iff_ne.mpr (h.text_sign hNegated)
  have hMarked : (if pattern.negated then pattern.text.tail else pattern.text) =
      pattern.front ++ List.replicate pattern.trailingSlashes '/' := by
    rw [text_eq_front]
    cases pattern.negated <;> rfl
  have hReverse : (pattern.front ++ List.replicate pattern.trailingSlashes '/').reverse =
      List.replicate pattern.trailingSlashes '/' ++ pattern.front.reverse := by
    rw [List.reverse_append, List.reverse_replicate]
  have hEnd : pattern.front.reverse.head? ≠ some '/' := by
    rw [List.head?_reverse]
    exact h.getLast?_front
  have hGroups : (if pattern.leadingSlashes = 0 then
      stripDirGroups 0 ((List.replicate pattern.dirGroups dirGroup).flatten ++ pattern.body)
      else (0, (List.replicate pattern.dirGroups dirGroup).flatten ++ pattern.body)) =
        (pattern.dirGroups, pattern.body) := by
    split
    · rename_i hRooted
      rw [stripDirGroups_groups 0 _ (h.body_group hRooted), Nat.zero_add]
    · rename_i hRooted
      rw [h.groups_of_rooted hRooted]
      rfl
  simp only [ofMarked, hSign, hMarked, hReverse, dropWhile_slashes _ hEnd,
    takeWhile_slashes _ hEnd, List.reverse_reverse]
  rw [front, dropWhile_slashes _ h.head?_groups, takeWhile_slashes _ h.head?_groups]
  simp only [List.length_replicate, hGroups]

theorem ofTrimmed?_text {pattern : Pattern} (h : Canonical pattern)
    (hComment : pattern.text.head? ≠ some '#') : ofTrimmed? pattern.text = some pattern := by
  have hBody : pattern.body.isEmpty = false := by
    rw [List.isEmpty_eq_false_iff]
    exact h.body_ne_nil
  have hText : pattern.text.isEmpty = false := by
    rw [List.isEmpty_eq_false_iff]
    intro hNil
    have hMarked := ofMarked_text h
    rw [hNil] at hMarked
    rw [← hMarked] at hBody
    cases hBody
  rw [ofTrimmed?, hText, isComment, beq_eq_false_iff_ne.mpr hComment, read?, ofMarked_text h, hBody]
  rfl

/-! ## Texts behind a marker -/

/-- A text with something at its end that is no slash. -/
structure EndsInName (text : List Char) : Prop where
  ne_nil : text ≠ []
  getLast?_ne : text.getLast? ≠ some '/'

theorem EndsInName.append {text : List Char} (h : EndsInName text) (before : List Char) :
    EndsInName (before ++ text) where
  ne_nil := List.append_ne_nil_of_right_ne_nil before h.ne_nil
  getLast?_ne := by
    rw [List.getLast?_append_of_ne_nil before h.ne_nil]
    exact h.getLast?_ne

theorem EndsInName.getLast?_append_slashes_iff {name : List Char} (h : EndsInName name)
    (slashes : Nat) :
    (name ++ List.replicate slashes '/').getLast? = some '/' ↔ slashes ≠ 0 := by
  cases slashes with
  | zero =>
    rw [List.replicate_zero, List.append_nil]
    exact iff_of_false h.getLast?_ne (fun hZero => hZero rfl)
  | succ count =>
    rw [List.replicate_succ', ← List.append_assoc, List.getLast?_concat]
    exact iff_of_true rfl (Nat.succ_ne_zero count)

theorem exists_name_of_mem {text : List Char} (h : ∃ c ∈ text, c ≠ '/') :
    ∃ name slashes, text = name ++ List.replicate slashes '/' ∧ EndsInName name := by
  have hText := congrArg List.reverse (slashes_append_dropWhile text.reverse)
  rw [List.reverse_append, List.reverse_replicate, List.reverse_reverse] at hText
  refine ⟨_, _, hText.symm, ?_, ?_⟩
  · intro hNil
    obtain ⟨c, hc, hOther⟩ := h
    rw [← hText, hNil, List.nil_append] at hc
    exact hOther (List.eq_of_mem_replicate hc)
  · rw [List.getLast?_reverse]
    exact head?_dropWhile_slash text.reverse

theorem EndsInName.exists_groups {text : List Char} (h : EndsInName text) :
    ∃ count body, text = (List.replicate count dirGroup).flatten ++ body ∧ EndsInName body ∧
      ¬ dirGroup <+: body := by
  obtain ⟨count, _, hText⟩ := stripDirGroups_spec 0 text
  have hGroup := not_prefix_stripDirGroups 0 text
  generalize (stripDirGroups 0 text).2 = body at hText hGroup
  have hBody : body ≠ [] := by
    rintro rfl
    cases count with
    | zero => exact h.ne_nil hText
    | succ count =>
      apply h.getLast?_ne
      rw [hText, List.append_nil, List.replicate_succ', List.flatten_append,
        List.getLast?_append_of_ne_nil _ (by simp)]
      rfl
  refine ⟨count, body, hText, ⟨hBody, ?_⟩, hGroup⟩
  rw [← List.getLast?_append_of_ne_nil (List.replicate count dirGroup).flatten hBody]
  exact hText ▸ h.getLast?_ne

/-- One slash in front of a body. -/
def rooted (body : List Char) (slashes : Nat) : Pattern := ⟨false, 1, 0, body, slashes⟩

theorem canonical_rooted {body : List Char} (h : EndsInName body) (hFirst : body.head? ≠ some '/')
    (slashes : Nat) : (rooted body slashes).Canonical where
  body_ne_nil := h.ne_nil
  body_last := h.getLast?_ne
  body_first := fun _ => hFirst
  groups_of_rooted := fun _ => rfl
  body_group := fun hRooted => absurd hRooted Nat.one_ne_zero
  text_sign := by
    intro _ hSign
    exact absurd (Option.some.inj hSign) (by decide : '/' ≠ '!')

theorem text_rooted (body : List Char) (slashes : Nat) :
    (rooted body slashes).text = '/' :: (body ++ List.replicate slashes '/') := rfl

/-- One `**/` group in front of as many others and a body. -/
def anyDepth (count : Nat) (body : List Char) (slashes : Nat) : Pattern :=
  ⟨false, 0, count + 1, body, slashes⟩

theorem text_anyDepth (count : Nat) (body : List Char) (slashes : Nat) :
    (anyDepth count body slashes).text = dirGroup ++ ((List.replicate count dirGroup).flatten ++
      body ++ List.replicate slashes '/') := by
  simp only [text, anyDepth, List.replicate_succ, List.flatten_cons, List.append_assoc]
  rfl

theorem canonical_anyDepth {body : List Char} (h : EndsInName body)
    (hGroup : ¬ dirGroup <+: body) (count slashes : Nat) :
    (anyDepth count body slashes).Canonical where
  body_ne_nil := h.ne_nil
  body_last := h.getLast?_ne
  body_first := fun hGroups => absurd hGroups (Nat.succ_ne_zero count)
  groups_of_rooted := fun hRooted => absurd rfl hRooted
  body_group := fun _ => hGroup
  text_sign := by
    intro _ hSign
    rw [text_anyDepth] at hSign
    exact absurd (Option.some.inj hSign) (by decide : '*' ≠ '!')

end Pattern

theorem Rule.compile_text {pattern : Pattern} {line : String} (h : pattern.Canonical)
    (hLine : line.toList = pattern.text) (hComment : pattern.text.head? ≠ some '#')
    (hStart : Text.startsBlank pattern.text = false) (hEnd : Text.endsBlank pattern.text = false)
    (ordinal : Nat) :
    (compile line ordinal).value = some (ofPattern line pattern ordinal) := by
  rw [compile_value, hLine, Text.trim_eq_self hStart hEnd, Pattern.ofTrimmed?_text h hComment,
    Option.map_some, ← hLine, String.ofList_toList]

end PathSieve
