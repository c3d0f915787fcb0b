import PathSieve.Text.Blank

/-!
# Pattern lines

A line is a pattern once it is trimmed, unless it is empty or a comment. Around its body it may
carry markers: `!` in front, then slashes or `**/` groups, and slashes at the end. Reading counts
every marker, so that `text` writes the line back.
-/

namespace PathSieve

set_option autoImplicit false

/-- The `**/` groups in front are counted apart from the body unless slashes stand before them. -/
structure Pattern where
  negated : Bool
  leadingSlashes : Nat
  dirGroups : Nat
  body : List Char
  trailingSlashes : Nat
  deriving DecidableEq, Inhabited

namespace Pattern

def stripDirGroups (count : Nat) : List Char → Nat × List Char
  | '*' :: '*' :: '/' :: rest => stripDirGroups (count + 1) rest
  | rest => (count, rest)

/-- Takes the markers off a line, the trailing slashes before the leading ones. -/
def ofMarked (line : List Char) : Pattern :=
  let negated := line.head? == some '!'
  let marked := if negated then line.tail else line
  let unslashed := (marked.reverse.dropWhile (· == '/')).reverse
  let unrooted := unslashed.dropWhile (· == '/')
  let leading := (unslashed.takeWhile (· == '/')).length
  let grouped := if leading = 0 then stripDirGroups 0 unrooted else (0, unrooted)
  { negated
    leadingSlashes := leading
    dirGroups := grouped.1
    body := grouped.2
    trailingSlashes := (marked.reverse.takeWhile (· == '/')).length }

/-- Markers alone are no pattern. -/
def read? (line : List Char) : Option Pattern :=
  if (ofMarked line).body.isEmpty then none else some (ofMarked line)

def isComment (line : List Char) : Bool := line.head? == some '#'

def ofTrimmed? (line : List Char) : Option Pattern :=
  if line.isEmpty || isComment line then none else read? line

def text (pattern : Pattern) : List Char :=
  (if pattern.negated then ['!'] else []) ++ List.replicate pattern.leadingSlashes '/' ++
    (List.replicate pattern.dirGroups ['*', '*', '/']).flatten ++ pattern.body ++
    List.replicate pattern.trailingSlashes '/'

def isRooted (pattern : Pattern) : Bool := pattern.leadingSlashes != 0

def isAnyDepth (pattern : Pattern) : Bool := pattern.dirGroups != 0

def isDirectory (pattern : Pattern) : Bool := pattern.trailingSlashes != 0

/-- A pattern without a slash but at its end is about single segments. -/
def isBasename (pattern : Pattern) : Bool :=
  !pattern.isRooted && !pattern.isAnyDepth && !pattern.body.contains '/'

theorem stripDirGroups_spec (count : Nat) (cs : List Char) :
    ∃ n, (stripDirGroups count cs).1 = count + n ∧
      cs = (List.replicate n ['*', '*', '/']).flatten ++ (stripDirGroups count cs).2 := by
  fun_induction stripDirGroups count cs with
  | case1 count rest ih =>
    obtain ⟨n, hCount, hRest⟩ := ih
    refine ⟨n + 1, by rw [hCount]; omega, ?_⟩
    rw [List.replicate_succ, List.flatten_cons, List.append_assoc, ← hRest]
    rfl
  | case2 count rest h => exact ⟨0, rfl, rfl⟩

theorem takeWhile_slash_eq_replicate (cs : List Char) :
    cs.takeWhile (· == '/') = List.replicate (cs.takeWhile (· == '/')).length '/' := by
  rw [List.eq_replicate_iff]
  refine ⟨rfl, fun c hc => ?_⟩
  have hAll : (cs.takeWhile (· == '/')).all (· == '/') = true := List.all_takeWhile
  simpa using List.all_eq_true.mp hAll c hc

theorem slashes_append_dropWhile (cs : List Char) :
    List.replicate (cs.takeWhile (· == '/')).length '/' ++ cs.dropWhile (· == '/') = cs := by
  rw [← takeWhile_slash_eq_replicate, List.takeWhile_append_dropWhile]

theorem text_ofMarked (line : List Char) : (ofMarked line).text = line := by
  obtain ⟨marked, hMarked⟩ :
      ∃ marked, marked = if line.head? == some '!' then line.tail else line := ⟨_, rfl⟩
  have hLine : (if (line.head? == some '!') = true then ['!'] else []) ++ marked = line := by
    rw [hMarked]
    cases line with
    | nil => rfl
    | cons c cs => by_cases hc : c = '!' <;> simp [hc]
  have hBack := congrArg List.reverse (slashes_append_dropWhile marked.reverse)
  rw [List.reverse_append, List.reverse_replicate, List.reverse_reverse] at hBack
  simp only [text, ofMarked, ← hMarked]
  conv => rhs; rw [← hLine, ← hBack]
  generalize (marked.reverse.dropWhile (· == '/')).reverse = unslashed
  have hFront := slashes_append_dropWhile unslashed
  conv => rhs; rw [← hFront]
  generalize (unslashed.takeWhile (· == '/')).length = leading
  generalize unslashed.dropWhile (· == '/') = unrooted
  by_cases h : leading = 0
  · obtain ⟨n, hCount, hRest⟩ := stripDirGroups_spec 0 unrooted
    conv => rhs; rw [hRest]
    rw [if_pos h, hCount, Nat.zero_add]
    simp [List.append_assoc]
  · rw [if_neg h]
    simp [List.append_assoc]

theorem stripDirGroups_suffix (count : Nat) (cs : List Char) :
    (stripDirGroups count cs).2 <:+ cs := by
  obtain ⟨n, _, hRest⟩ := stripDirGroups_spec count cs
  exact ⟨_, hRest.symm⟩

theorem head?_dropWhile_slash (cs : List Char) : (cs.dropWhile (· == '/')).head? ≠ some '/' := by
  intro hHead
  have hFirst := List.head?_dropWhile_not (· == '/') cs
  rw [hHead] at hFirst
  exact absurd hFirst (by decide)

/-- The slashes at the end are taken off first, and nothing taken off later brings one back. -/
theorem getLast?_body_ne_slash (line : List Char) : (ofMarked line).body.getLast? ≠ some '/' := by
  obtain ⟨unslashed, hSuffix, hEnd⟩ : ∃ unslashed : List Char,
      (ofMarked line).body <:+ unslashed ∧ unslashed.getLast? ≠ some '/' := by
    generalize hMarked : (if line.head? == some '!' then line.tail else line) = marked
    refine ⟨(marked.reverse.dropWhile (· == '/')).reverse, ?_, ?_⟩
    · simp only [ofMarked, hMarked]
      split
      · exact (stripDirGroups_suffix 0 _).trans (List.dropWhile_suffix _)
      · exact List.dropWhile_suffix _
    · rw [List.getLast?_reverse]
      exact head?_dropWhile_slash marked.reverse
  intro hBody
  obtain ⟨front, hEq⟩ := hSuffix
  rw [← hEq, List.getLast?_append, hBody] at hEnd
  exact hEnd rfl

theorem eq_ofMarked_of_ofTrimmed? {line : List Char} {pattern : Pattern}
    (h : ofTrimmed? line = some pattern) :
    pattern = ofMarked line ∧ (ofMarked line).body ≠ [] := by
  rw [ofTrimmed?] at h
  split at h
  · cases h
  · rw [read?] at h
    split at h
    · cases h
    · rename_i hBody
      exact ⟨(Option.some.inj h).symm, by simpa using hBody⟩

end Pattern

end PathSieve
