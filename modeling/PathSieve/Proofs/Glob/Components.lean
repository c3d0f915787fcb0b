import PathSieve.Glob.Basic

/-!
# The components of a body

The left-to-right scan of a body gives the same tokens as a reading component by component, in
which a run of `**` components leaves one token. `tokens_ofBody` states this for every body.
-/

namespace PathSieve.Glob

open Text

set_option autoImplicit false

def dirsComponent : List Char := ['*', '*']

/-- Components are told apart by whether they are `**`, so an induction over them has two cases
besides the empty list. -/
@[elab_as_elim]
theorem componentsInduction {motive : List (List Char) → Prop} (nil : motive [])
    (dirs : ∀ rest, motive rest → motive (dirsComponent :: rest))
    (name : ∀ component rest, component ≠ dirsComponent → motive rest → motive (component :: rest))
    (components : List (List Char)) : motive components := by
  induction components with
  | nil => exact nil
  | cons component rest ih =>
    rcases Decidable.em (component = dirsComponent) with rfl | hName
    · exact dirs rest ih
    · exact name component rest hName ih

def link (first afterDirs : Bool) : List Token :=
  match first, afterDirs with
  | true, false => []
  | true, true => [.dirsBefore]
  | false, false => [.exact '/']
  | false, true => [.dirsBetween]

def lastDirs (first : Bool) : Token := if first then .dirsBefore else .dirsAfter

/-- The tokens of components behind a name, or in front of every name; `afterDirs` says whether
a `**` was passed since. -/
def componentTokens (first afterDirs : Bool) : List (List Char) → List Token
  | [] => if afterDirs then [lastDirs first] else []
  | name :: rest =>
    if name = dirsComponent then componentTokens first true rest
    else link first afterDirs ++ name.map Token.ofChar ++ componentTokens false false rest

theorem componentTokens_dirs (first afterDirs : Bool) (rest : List (List Char)) :
    componentTokens first afterDirs (dirsComponent :: rest) = componentTokens first true rest := by
  rw [componentTokens, if_pos rfl]

theorem componentTokens_name (first afterDirs : Bool) {name : List Char} (rest : List (List Char))
    (h : name ≠ dirsComponent) :
    componentTokens first afterDirs (name :: rest) =
      link first afterDirs ++ name.map Token.ofChar ++ componentTokens false false rest := by
  rw [componentTokens, if_neg h]

def behindSlashes (components : List (List Char)) : List Char := components.flatMap ('/' :: ·)

theorem joinWith_cons (component : List Char) (rest : List (List Char)) :
    joinWith '/' (component :: rest) = component ++ behindSlashes rest := by
  induction rest generalizing component with
  | nil => simp [behindSlashes]
  | cons next rest ih =>
    rw [joinWith_cons_cons, ih]
    rfl

/-! ## Names -/

theorem scan_nil (done : List Token) (fresh : Bool) : scan done fresh [] = done.reverse := by
  rw [scan]

theorem scan_slash (done : List Token) (fresh : Bool) (rest : List Char) :
    scan done fresh ('/' :: rest) = scan (.exact '/' :: done) true rest := by
  rw [scan]
  · rfl
  all_goals simp

theorem scan_single (done : List Token) (fresh : Bool) (c : Char) (rest : List Char)
    (h : c = '*' → rest.head? ≠ some '*') :
    scan done fresh (c :: rest) = scan (.ofChar c :: done) (c == '/') rest := by
  rw [scan]
  · rintro rfl rfl
    exact h rfl rfl
  · rintro tail rfl rfl
    exact h rfl rfl
  · rintro tail rfl rfl
    exact h rfl rfl

/-- Within a name two stars are two runs, whatever follows them. -/
theorem scan_stars (done : List Token) (rest : List Char) :
    scan done false ('*' :: '*' :: rest) = scan (.run :: .run :: done) false rest := by
  rcases rest with _ | ⟨c, rest⟩
  · rw [scan_nil, scan]
    rfl
  · by_cases hc : c = '/'
    · rw [hc, scan, scan_slash]
      rfl
    · rw [scan]
      · simp
      · rintro tail hTail
        exact hc (List.cons.inj hTail).1

theorem scan_cons (done : List Token) (c : Char) (rest : List Char) :
    scan done false (c :: rest) = scan (.ofChar c :: done) (c == '/') rest := by
  induction rest generalizing done c with
  | nil => exact scan_single done false c [] (by simp)
  | cons d rest ih =>
    by_cases h : c = '*' ∧ d = '*'
    · obtain ⟨rfl, rfl⟩ := h
      rw [scan_stars]
      exact (ih (.run :: done) '*').symm
    · apply scan_single
      rintro hc hHead
      exact h ⟨hc, by simpa using hHead⟩

theorem scan_append (done : List Token) (name rest : List Char) (h : '/' ∉ name) :
    scan done false (name ++ rest) = scan ((name.map Token.ofChar).reverse ++ done) false rest := by
  induction name generalizing done with
  | nil => rfl
  | cons c name ih =>
    obtain ⟨hc, hName⟩ := List.ne_and_not_mem_of_not_mem_cons h
    have hFlag : (c == '/') = false := by simpa using hc.symm
    rw [List.cons_append, scan_cons, hFlag, ih _ hName]
    simp

/-- A slash or the end follows a component. -/
def EndsComponent (rest : List Char) : Prop := rest = [] ∨ ∃ tail, rest = '/' :: tail

theorem scan_fresh_eq (done : List Token) (rest : List Char) (h : EndsComponent rest) :
    scan done true rest = scan done false rest := by
  rcases h with rfl | ⟨tail, rfl⟩
  · rw [scan_nil, scan_nil]
  · rw [scan_slash, scan_slash]

theorem scan_name (done : List Token) (name rest : List Char) (hSlash : '/' ∉ name)
    (hName : name ≠ dirsComponent) (hRest : EndsComponent rest) :
    scan done true (name ++ rest) =
      scan ((name.map Token.ofChar).reverse ++ done) false rest := by
  rw [← scan_append done name rest hSlash]
  cases name with
  | nil => exact scan_fresh_eq done rest hRest
  | cons c name =>
    by_cases hSingle : c = '*' → (name ++ rest).head? ≠ some '*'
    · rw [List.cons_append, scan_single done true c _ hSingle, scan_cons]
    · obtain ⟨rfl, hHead⟩ := Classical.not_imp.mp hSingle
      have hStar : ∃ d more, name = '*' :: d :: more := by
        rcases name with _ | ⟨d, _ | ⟨e, more⟩⟩
        · rcases hRest with rfl | ⟨tail, rfl⟩ <;> simp at hHead
        · have hd : d = '*' := by simpa using hHead
          exact absurd (by rw [hd]; rfl) hName
        · have hd : d = '*' := by simpa using hHead
          exact ⟨e, more, by rw [hd]⟩
      obtain ⟨d, more, rfl⟩ := hStar
      have hd : d ≠ '/' := by
        rintro rfl
        simp at hSlash
      rw [List.cons_append, List.cons_append, List.cons_append, scan_stars, scan]
      · simp
      · rintro tail hTail
        exact hd (List.cons.inj hTail).1

/-! ## Whole bodies -/

theorem scan_dirs_last (done : List Token) :
    scan done true dirsComponent = (joinDirs .dirsAfter done).reverse := by
  rw [dirsComponent, scan, if_pos rfl]

theorem scan_dirs (done : List Token) (rest : List Char) :
    scan done true (dirsComponent ++ '/' :: rest) = scan (joinDirs .dirsBetween done) true rest := by
  rw [dirsComponent, List.cons_append, List.cons_append, List.nil_append, scan, if_pos rfl]

theorem joinDirs_link (first afterDirs : Bool) (dirs : Token) (done : List Token)
    (hDone : first = true → done = []) :
    joinDirs dirs ((link first afterDirs).reverse ++ done) =
      (if first then .dirsBefore else dirs) :: done := by
  cases first with
  | true => cases afterDirs <;> rw [hDone rfl] <;> rfl
  | false => cases afterDirs <;> rfl

theorem scan_components (first afterDirs : Bool) (done : List Token) (name : List Char)
    (rest : List (List Char)) (hDone : first = true → done = [])
    (hSlash : ∀ component ∈ name :: rest, '/' ∉ component) :
    scan ((link first afterDirs).reverse ++ done) true (name ++ behindSlashes rest) =
      done.reverse ++ componentTokens first afterDirs (name :: rest) := by
  -- The tokens read so far end in the link to the next name, and a further `**` changes the link.
  induction rest generalizing first afterDirs done name with
  | nil =>
    rw [behindSlashes, List.flatMap_nil, List.append_nil]
    by_cases hName : name = dirsComponent
    · rw [hName, componentTokens_dirs, scan_dirs_last, joinDirs_link _ _ _ _ hDone]
      simp [componentTokens, lastDirs]
    · have hRead := scan_name ((link first afterDirs).reverse ++ done) name []
        (hSlash name List.mem_cons_self) hName (.inl rfl)
      rw [List.append_nil] at hRead
      rw [hRead, componentTokens_name _ _ _ hName, scan_nil]
      simp [componentTokens]
  | cons next rest ih =>
    have hNext : ∀ component ∈ next :: rest, '/' ∉ component :=
      fun component hMem => hSlash component (List.mem_cons_of_mem _ hMem)
    change scan _ true (name ++ '/' :: (next ++ behindSlashes rest)) = _
    by_cases hName : name = dirsComponent
    · rw [hName, componentTokens_dirs, scan_dirs, joinDirs_link _ _ _ _ hDone]
      have hRead := ih first true done next hDone hNext
      cases first with
      | true => exact hRead
      | false => exact hRead
    · rw [scan_name _ name _ (hSlash name List.mem_cons_self) hName (.inr ⟨_, rfl⟩), scan_slash,
        componentTokens_name _ _ _ hName]
      have hRead := ih false false ((name.map Token.ofChar).reverse ++
        ((link first afterDirs).reverse ++ done)) next (by simp) hNext
      rw [link, List.reverse_singleton, List.singleton_append] at hRead
      rw [hRead]
      simp

theorem not_mem_of_mem_components (body component : List Char)
    (h : component ∈ splitBy (· == '/') body) : '/' ∉ component := by
  intro hc
  have hFlag := not_isSeparator_of_mem_splitBy (· == '/') body component '/' h hc
  simp at hFlag

theorem tokens_ofBody (body : List Char) :
    (ofBody body).tokens = componentTokens true false (splitBy (· == '/') body) := by
  have hSlash := not_mem_of_mem_components body
  have hJoin := joinWith_splitBy '/' body
  cases hSplit : splitBy (· == '/') body with
  | nil => exact absurd hSplit (splitBy_ne_nil _ _)
  | cons name rest =>
    rw [hSplit] at hSlash hJoin
    rw [joinWith_cons] at hJoin
    have hRead := scan_components true false [] name rest (fun _ => rfl) hSlash
    rw [hJoin] at hRead
    exact hRead

end PathSieve.Glob
