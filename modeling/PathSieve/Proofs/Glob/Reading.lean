import PathSieve.Glob.Lemmas
import PathSieve.Proofs.Glob.Reads
import PathSieve.Text.Utf8.Lemmas

/-!
# Globs read by segments

`fits_ofBody_iff_reads` states that the tokens of a body, matched against the bytes of joined
segments, fit exactly if the components of the body read these segments. The proof follows the
components behind the first name, where every token run begins with a slash, and brings the first
name in at the end.
-/

namespace PathSieve.Glob

open Text

set_option autoImplicit false

/-! ## Slashes in bytes -/

theorem mem_encode_slash {cs : List Char} (h : slash ∈ encode cs) : '/' ∈ cs := by
  obtain ⟨c, hc, hByte⟩ := List.mem_flatMap.mp h
  have hCode := toNat_eq_of_mem_encodeChar c slash hByte (by decide)
  rwa [show '/' = c from Char.toNat_inj.mp hCode.symm]

def behind (segments : List (List Char)) : List UInt8 := encode (behindSlashes segments)

@[simp] theorem behind_nil : behind [] = [] := rfl

@[simp] theorem behind_cons (segment : List Char) (segments : List (List Char)) :
    behind (segment :: segments) = slash :: (encode segment ++ behind segments) := by
  rw [behind, behindSlashes, List.flatMap_cons, encode_append, encode_cons]
  rfl

@[simp] theorem behind_append (segments more : List (List Char)) :
    behind (segments ++ more) = behind segments ++ behind more := by
  rw [behind, behindSlashes, List.flatMap_append, encode_append]
  rfl

theorem slash_cons_encode_joinWith (segment : List Char) (segments : List (List Char)) :
    slash :: encode (joinWith '/' (segment :: segments)) = behind (segment :: segments) := by
  rw [joinWith_cons, encode_append, behind_cons]
  rfl

def BeginsWithSlash (w : List UInt8) : Prop := w = [] ∨ ∃ v, w = slash :: v

theorem beginsWithSlash_behind (segments : List (List Char)) :
    BeginsWithSlash (behind segments) := by
  cases segments with
  | nil => exact .inl rfl
  | cons segment segments => exact .inr ⟨_, behind_cons segment segments⟩

theorem eq_nil_of_beginsWithSlash {x y z : List UInt8} (h : z = x ++ y) (hx : slash ∉ x)
    (hz : BeginsWithSlash z) : x = [] := by
  rcases x with _ | ⟨b, x⟩
  · rfl
  · rcases hz with rfl | ⟨v, rfl⟩
    · cases h
    · exact absurd ((List.cons.inj h).1 ▸ List.mem_cons_self) hx

/-- A word without slashes ends where a slash or the end follows, so it is found in one way. -/
theorem append_inj_of_slash {x y u v : List UInt8} (h : x ++ y = u ++ v) (hx : slash ∉ x)
    (hu : slash ∉ u) (hy : BeginsWithSlash y) (hv : BeginsWithSlash v) : x = u ∧ y = v := by
  rcases List.append_eq_append_iff.mp h with ⟨a, rfl, hEq⟩ | ⟨a, rfl, hEq⟩
  · have hNil := eq_nil_of_beginsWithSlash hEq (fun ha => hu (List.mem_append_right _ ha)) hy
    rw [hNil] at hEq ⊢
    exact ⟨(List.append_nil x).symm, hEq⟩
  · have hNil := eq_nil_of_beginsWithSlash hEq (fun ha => hx (List.mem_append_right _ ha)) hv
    rw [hNil] at hEq ⊢
    exact ⟨List.append_nil u, hEq.symm⟩

theorem exists_behind_of_slash {segments : List (List Char)} {a z : List UInt8}
    (h : behind segments = a ++ slash :: z) (hSlash : ∀ segment ∈ segments, '/' ∉ segment) :
    ∃ skipped rest, segments = skipped ++ rest ∧ behind rest = slash :: z := by
  induction segments generalizing a with
  | nil =>
    rw [behind_nil] at h
    exact absurd h.symm (by simp)
  | cons segment segments ih =>
    cases a with
    | nil => exact ⟨[], segment :: segments, rfl, h⟩
    | cons b a =>
      rw [behind_cons, List.cons_append] at h
      have hHere : slash ∉ encode segment :=
        fun hMem => hSlash segment List.mem_cons_self (mem_encode_slash hMem)
      have hRest := fun other hMem => hSlash other (List.mem_cons_of_mem segment hMem)
      -- The slash lies behind the first segment, as there is none within it.
      rcases List.append_eq_append_iff.mp (List.cons.inj h).2 with ⟨c, rfl, hEq⟩ | ⟨c, hEq, hTail⟩
      · obtain ⟨skipped, rest, rfl, hBehind⟩ := ih hEq hRest
        exact ⟨segment :: skipped, rest, rfl, hBehind⟩
      · cases c with
        | nil => exact ⟨[segment], segments, rfl, hTail.symm⟩
        | cons d c =>
          rw [List.cons_append] at hTail
          rw [hEq, ← (List.cons.inj hTail).1] at hHere
          exact absurd (List.mem_append_right _ List.mem_cons_self) hHere

/-! ## Names -/

theorem matches_bytes_append (bytes : List UInt8) (ps : List Piece) (w : List UInt8) :
    Matches (bytes.map .byte ++ ps) w ↔ ∃ v, w = bytes ++ v ∧ Matches ps v := by
  induction bytes generalizing w with
  | nil => simp
  | cons b bytes ih =>
    rw [List.map_cons, List.cons_append, matches_byte_cons]
    constructor
    · rintro ⟨v, rfl, h⟩
      obtain ⟨u, rfl, hu⟩ := (ih v).mp h
      exact ⟨u, rfl, hu⟩
    · rintro ⟨v, rfl, h⟩
      exact ⟨bytes ++ v, rfl, (ih (bytes ++ v)).mpr ⟨v, rfl, h⟩⟩

def namePieces (name : List Char) : List Piece := (name.map Token.ofChar).flatMap Token.pieces

theorem namePieces_cons (c : Char) (name : List Char) :
    namePieces (c :: name) = (Token.ofChar c).pieces ++ namePieces name := by
  rw [namePieces, List.map_cons, List.flatMap_cons]
  rfl

theorem matches_namePieces_iff (name : List Char) (w : List UInt8) (h : '/' ∉ name) :
    Matches (namePieces name) w ↔ Spells name w ∧ slash ∉ w := by
  fun_induction Spells name w with
  | case1 w =>
    constructor
    · rintro rfl
      exact ⟨rfl, List.not_mem_nil⟩
    · rintro ⟨rfl, _⟩
      rfl
  | case2 w name ih =>
    have hName := fun hMem => h (List.mem_cons_of_mem _ hMem)
    rw [namePieces_cons]
    constructor
    · rintro ⟨u, v, rfl, hu, hv⟩
      obtain ⟨hSpells, hSlash⟩ := (ih v hName).mp hv
      exact ⟨⟨u, v, rfl, hSpells⟩, fun hMem => (List.mem_append.mp hMem).elim hu hSlash⟩
    · rintro ⟨⟨u, v, rfl, hSpells⟩, hSlash⟩
      exact ⟨u, v, rfl, fun hMem => hSlash (List.mem_append_left _ hMem),
        (ih v hName).mpr ⟨hSpells, fun hMem => hSlash (List.mem_append_right _ hMem)⟩⟩
  | case3 w name ih =>
    have hName := fun hMem => h (List.mem_cons_of_mem _ hMem)
    rw [namePieces_cons]
    constructor
    · rintro ⟨_, v, rfl, ⟨b, hb, rfl⟩, hv⟩
      obtain ⟨hSpells, hSlash⟩ := (ih v hName).mp hv
      exact ⟨⟨b, v, rfl, hSpells⟩, fun hMem => (List.mem_cons.mp hMem).elim (hb ·.symm) hSlash⟩
    · rintro ⟨⟨b, v, rfl, hSpells⟩, hSlash⟩
      exact ⟨[b], v, rfl, ⟨b, fun hb => hSlash (hb ▸ List.mem_cons_self), rfl⟩,
        (ih v hName).mpr ⟨hSpells, fun hMem => hSlash (List.mem_cons_of_mem _ hMem)⟩⟩
  | case4 c name w hStar hOne ih =>
    obtain ⟨hc, hName⟩ := List.ne_and_not_mem_of_not_mem_cons h
    have hToken : Token.ofChar c = .exact c := by
      unfold Token.ofChar
      split
      · exact (hStar rfl).elim
      · exact (hOne rfl).elim
      · rfl
    have hBytes : slash ∉ String.utf8EncodeChar c := by
      intro hMem
      have hCode := toNat_eq_of_mem_encodeChar c slash hMem (by decide)
      exact hc (Char.toNat_inj.mp hCode.symm)
    rw [namePieces_cons, hToken, Token.pieces, matches_bytes_append]
    constructor
    · rintro ⟨v, rfl, hv⟩
      obtain ⟨hSpells, hSlash⟩ := (ih v hName).mp hv
      exact ⟨⟨v, rfl, hSpells⟩, fun hMem => (List.mem_append.mp hMem).elim hBytes hSlash⟩
    · rintro ⟨⟨v, rfl, hSpells⟩, hSlash⟩
      exact ⟨v, rfl, (ih v hName).mpr
        ⟨hSpells, fun hMem => hSlash (List.mem_append_right _ hMem)⟩⟩

/-! ## Bodies -/

def laterPieces (afterDirs : Bool) (components : List (List Char)) : List Piece :=
  (componentTokens false afterDirs components).flatMap Token.pieces

theorem laterPieces_dirs (afterDirs : Bool) (rest : List (List Char)) :
    laterPieces afterDirs (dirsComponent :: rest) = laterPieces true rest := by
  rw [laterPieces, componentTokens_dirs]
  rfl

theorem laterPieces_name (afterDirs : Bool) {name : List Char} (rest : List (List Char))
    (h : name ≠ dirsComponent) :
    laterPieces afterDirs (name :: rest) = .byte slash ::
      ((if afterDirs then [.dirs] else []) ++ (namePieces name ++ laterPieces false rest)) := by
  rw [laterPieces, componentTokens_name _ _ _ h, List.flatMap_append, List.flatMap_append,
    List.append_assoc]
  cases afterDirs <;> rfl

theorem beginsWithSlash_of_matches (afterDirs : Bool) (components : List (List Char))
    (w : List UInt8) (h : Matches (laterPieces afterDirs components) w) : BeginsWithSlash w := by
  induction components using componentsInduction generalizing afterDirs with
  | nil =>
    cases afterDirs with
    | false => exact .inl h
    | true =>
      obtain ⟨v, rfl, _⟩ := (matches_byte_cons slash [.all] w).mp h
      exact .inr ⟨v, rfl⟩
  | dirs rest ih =>
    rw [laterPieces_dirs] at h
    exact ih true h
  | name name rest hName _ =>
    rw [laterPieces_name _ _ hName] at h
    obtain ⟨v, rfl, _⟩ := (matches_byte_cons slash _ w).mp h
    exact .inr ⟨v, rfl⟩

theorem matches_dirs_iff (ps : List Piece) (segments : List (List Char))
    (hSlash : ∀ segment ∈ segments, '/' ∉ segment) :
    Matches (.byte slash :: .dirs :: ps) (behind segments) ↔ ∃ skipped more,
      segments = skipped ++ more ∧ Matches (.byte slash :: ps) (behind more) := by
  rw [matches_byte_cons]
  constructor
  · rintro ⟨v, hEq, u, z, rfl, hDirs, hz⟩
    rcases hDirs with rfl | ⟨x, rfl⟩
    · exact ⟨[], segments, rfl, (matches_byte_cons slash ps _).mpr ⟨z, hEq, hz⟩⟩
    · rw [List.append_assoc, List.singleton_append, ← List.cons_append] at hEq
      obtain ⟨skipped, more, hSegments, hMore⟩ := exists_behind_of_slash hEq hSlash
      exact ⟨skipped, more, hSegments, (matches_byte_cons slash ps _).mpr ⟨z, hMore, hz⟩⟩
  · rintro ⟨skipped, more, rfl, hMore⟩
    obtain ⟨z, hEq, hz⟩ := (matches_byte_cons slash ps _).mp hMore
    cases skipped with
    | nil => exact ⟨z, hEq, [], z, rfl, .inl rfl, hz⟩
    | cons segment skipped =>
      refine ⟨encode segment ++ behind skipped ++ slash :: z, ?_,
        encode segment ++ behind skipped ++ [slash], z, by simp, .inr ⟨_, rfl⟩, hz⟩
      rw [behind_append, behind_cons, hEq]
      rfl

/-- One component takes one segment, if the components after it read the rest: what they match
begins with a slash or is empty, so a name ends where a segment does. -/
theorem matches_name_iff {name : List Char} {rest : List (List Char)}
    (segments : List (List Char)) (hName : name ≠ dirsComponent) (hSlash : '/' ∉ name)
    (hSegments : ∀ segment ∈ segments, '/' ∉ segment)
    (hRest : ∀ more : List (List Char), (∀ segment ∈ more, '/' ∉ segment) →
      (Matches (laterPieces false rest) (behind more) ↔ Reads rest more)) :
    Matches (.byte slash :: (namePieces name ++ laterPieces false rest)) (behind segments) ↔
      Reads (name :: rest) segments := by
  rw [matches_byte_cons, reads_name_iff rest segments hName]
  constructor
  · rintro ⟨v, hEq, hv⟩
    obtain ⟨x, y, rfl, hx, hy⟩ := (matches_append _ _ v).mp hv
    obtain ⟨hSpells, hx⟩ := (matches_namePieces_iff name x hSlash).mp hx
    cases segments with
    | nil => cases hEq
    | cons segment more =>
      rw [behind_cons] at hEq
      obtain ⟨hHead, hTail⟩ := append_inj_of_slash (List.cons.inj hEq).2
        (fun hMem => hSegments segment List.mem_cons_self (mem_encode_slash hMem)) hx
        (beginsWithSlash_behind more) (beginsWithSlash_of_matches false rest y hy)
      rw [← hHead] at hSpells
      rw [← hTail] at hy
      exact ⟨segment, more, rfl, hSpells,
        (hRest more fun other hMem => hSegments other (List.mem_cons_of_mem _ hMem)).mp hy⟩
  · rintro ⟨segment, more, rfl, hSpells, hMore⟩
    refine ⟨encode segment ++ behind more, behind_cons segment more, ?_⟩
    refine (matches_append _ _ _).mpr ⟨encode segment, behind more, rfl, ?_, ?_⟩
    · exact (matches_namePieces_iff name _ hSlash).mpr
        ⟨hSpells, fun hMem => hSegments segment List.mem_cons_self (mem_encode_slash hMem)⟩
    · exact (hRest more fun other hMem => hSegments other (List.mem_cons_of_mem _ hMem)).mpr hMore

theorem matches_laterPieces_iff (afterDirs : Bool) (components segments : List (List Char))
    (hComponents : ∀ component ∈ components, '/' ∉ component)
    (hSegments : ∀ segment ∈ segments, '/' ∉ segment) :
    Matches (laterPieces afterDirs components) (behind segments) ↔
      Reads (if afterDirs then dirsComponent :: components else components) segments := by
  -- The flag holds a `**` that was passed and not yet written out, so it stands for a component.
  induction components using componentsInduction generalizing afterDirs segments with
  | nil =>
    cases afterDirs with
    | false =>
      rw [if_neg Bool.false_ne_true, reads_nil_iff]
      cases segments with
      | nil => exact iff_of_true rfl rfl
      | cons segment segments =>
        rw [behind_cons]
        exact iff_of_false (List.cons_ne_nil _ _) (List.cons_ne_nil _ _)
    | true =>
      rw [if_pos rfl, reads_dirsLast_iff]
      change Matches [.byte slash, .all] _ ↔ _
      rw [matches_byte_cons]
      cases segments with
      | nil => simp
      | cons segment segments =>
        rw [behind_cons]
        exact iff_of_true ⟨_, rfl, _, [], (List.append_nil _).symm, trivial, rfl⟩
          (List.cons_ne_nil _ _)
  | dirs rest ih =>
    have hRest := fun component hMem => hComponents component (List.mem_cons_of_mem _ hMem)
    rw [laterPieces_dirs, ih true segments hRest hSegments, if_pos rfl]
    cases afterDirs with
    | false => rfl
    | true => rw [if_pos rfl, reads_dirs_dirs_iff]
  | name name rest hName ih =>
    have hRest := fun component hMem => hComponents component (List.mem_cons_of_mem _ hMem)
    have hPlain := fun qs hqs => matches_name_iff qs hName (hComponents name List.mem_cons_self)
      hqs fun more hMore => ih false more hRest hMore
    rw [laterPieces_name _ _ hName]
    cases afterDirs with
    | false => exact hPlain segments hSegments
    | true =>
      rw [if_pos rfl, if_pos rfl, List.singleton_append, matches_dirs_iff _ _ hSegments,
        reads_dirs_iff segments (List.cons_ne_nil _ _)]
      constructor
      · rintro ⟨skipped, more, rfl, hMore⟩
        have hSlash := fun segment hMem => hSegments segment (List.mem_append_right _ hMem)
        exact ⟨skipped, more, rfl, (hPlain more hSlash).mp hMore⟩
      · rintro ⟨skipped, more, rfl, hMore⟩
        have hSlash := fun segment hMem => hSegments segment (List.mem_append_right _ hMem)
        exact ⟨skipped, more, rfl, (hPlain more hSlash).mpr hMore⟩

theorem ofChar_ne_dirsBefore (c : Char) : Token.ofChar c ≠ .dirsBefore := by
  unfold Token.ofChar
  split <;> simp

theorem dirsBefore_not_mem_map_ofChar (cs : List Char) :
    Token.dirsBefore ∉ cs.map Token.ofChar := by
  intro hMem
  obtain ⟨c, _, hc⟩ := List.mem_map.mp hMem
  exact ofChar_ne_dirsBefore c hc

theorem dirsBefore_not_mem_componentTokens (afterDirs : Bool) (components : List (List Char)) :
    Token.dirsBefore ∉ componentTokens false afterDirs components := by
  induction components using componentsInduction generalizing afterDirs with
  | nil => cases afterDirs <;> simp [componentTokens, lastDirs]
  | dirs rest ih =>
    rw [componentTokens_dirs]
    exact ih true
  | name name rest hName ih =>
    rw [componentTokens_name _ _ _ hName]
    intro hMem
    rcases List.mem_append.mp hMem with hMem | hMem
    · rcases List.mem_append.mp hMem with hMem | hMem
      · cases afterDirs <;> simp [link] at hMem
      · exact dirsBefore_not_mem_map_ofChar name hMem
    · exact ih false hMem

theorem componentTokens_ne_nil (afterDirs : Bool) (components : List (List Char))
    (h : components = [] → afterDirs = true) : componentTokens false afterDirs components ≠ [] := by
  induction components using componentsInduction generalizing afterDirs with
  | nil =>
    rw [h rfl]
    exact List.cons_ne_nil _ _
  | dirs rest ih =>
    rw [componentTokens_dirs]
    exact ih true fun _ => rfl
  | name name rest hName _ =>
    rw [componentTokens_name _ _ _ hName]
    cases afterDirs <;> simp [link]

/-- A name keeps the directories in front of it from standing alone, unless it is empty and ends
the body. -/
theorem isDirsAlone_name {name : List Char} (afterDirs : Bool) {rest : List (List Char)}
    (hName : name ≠ dirsComponent) (hLast : (name :: rest).getLast? ≠ some []) :
    (⟨componentTokens true afterDirs (name :: rest)⟩ : Glob).isDirsAlone = false := by
  rw [isDirsAlone, beq_eq_false_iff_ne, componentTokens_name _ _ _ hName]
  have hTokens : name.map Token.ofChar ++ componentTokens false false rest ≠ [] := by
    intro hNil
    obtain ⟨hMap, hRest⟩ := List.append_eq_nil_iff.mp hNil
    rw [List.map_eq_nil_iff.mp hMap] at hLast
    cases rest with
    | nil => exact hLast rfl
    | cons next rest => exact componentTokens_ne_nil false (next :: rest) (by simp) hRest
  rw [List.append_assoc]
  cases afterDirs with
  | false =>
    intro hEq
    simp only [link, List.nil_append] at hEq
    have hMem := List.mem_singleton_self Token.dirsBefore
    rw [← hEq] at hMem
    rcases List.mem_append.mp hMem with hMem | hMem
    · exact dirsBefore_not_mem_map_ofChar name hMem
    · exact dirsBefore_not_mem_componentTokens false rest hMem
  | true =>
    intro hEq
    exact hTokens (List.cons.inj hEq).2

/-- In front of every name the tokens match what they match behind a slash, without the slash. -/
theorem matches_pieces_iff (afterDirs : Bool) (components : List (List Char)) (w : List UInt8)
    (hSome : components = [] → afterDirs = true) (hLast : components.getLast? ≠ some []) :
    Matches (⟨componentTokens true afterDirs components⟩ : Glob).pieces w ↔
      Matches (laterPieces afterDirs components) (slash :: w) := by
  induction components using componentsInduction generalizing afterDirs with
  | nil =>
    rw [hSome rfl]
    change Matches [.all] w ↔ Matches [.byte slash, .all] (slash :: w)
    rw [matches_byte_cons]
    exact ⟨fun h => ⟨w, rfl, h⟩, fun ⟨v, hEq, h⟩ => (List.cons.inj hEq).2 ▸ h⟩
  | dirs rest ih =>
    rw [componentTokens_dirs, laterPieces_dirs]
    apply ih true (fun _ => rfl)
    intro hRest
    apply hLast
    rw [List.getLast?_cons, hRest]
    rfl
  | name name rest hName _ =>
    rw [pieces, isDirsAlone_name afterDirs hName hLast, if_neg Bool.false_ne_true,
      laterPieces_name _ _ hName, matches_byte_cons]
    have hPieces : (componentTokens true afterDirs (name :: rest)).flatMap Token.pieces =
        (if afterDirs then [.dirs] else []) ++ (namePieces name ++ laterPieces false rest) := by
      rw [componentTokens_name _ _ _ hName, List.flatMap_append, List.flatMap_append,
        List.append_assoc]
      cases afterDirs <;> rfl
    rw [hPieces]
    exact ⟨fun h => ⟨w, rfl, h⟩, fun ⟨v, hEq, h⟩ => (List.cons.inj hEq).2 ▸ h⟩

theorem fits_ofBody_iff_reads (body : List Char) (segments : List (List Char))
    (hBody : (splitBy (· == '/') body).getLast? ≠ some []) (hSome : segments ≠ [])
    (hSlash : ∀ segment ∈ segments, '/' ∉ segment) :
    fits (ofBody body).pieces (encode (joinWith '/' segments)) = true ↔
      Reads (splitBy (· == '/') body) segments := by
  have hTokens : ofBody body = ⟨componentTokens true false (splitBy (· == '/') body)⟩ :=
    congrArg Glob.mk (tokens_ofBody body)
  rw [fits_eq_true_iff, hTokens,
    matches_pieces_iff false _ _ (fun h => absurd h (splitBy_ne_nil _ _)) hBody]
  obtain ⟨segment, more, rfl⟩ := List.exists_cons_of_ne_nil hSome
  rw [slash_cons_encode_joinWith]
  exact matches_laterPieces_iff false _ _ (not_mem_of_mem_components body) hSlash

/-! ## The exception for `..` -/

theorem lastComponent_slash_cons (w : List UInt8) : lastComponent (slash :: w) = lastComponent w := by
  rw [lastComponent, lastComponent, List.reverse_cons, List.takeWhile_append]
  split
  · rename_i hAll
    rw [List.takeWhile_cons_of_neg (by decide), List.append_nil,
      (List.takeWhile_prefix _).eq_of_length hAll]
  · rfl

theorem lastComponent_append (x y : List UInt8) (h : slash ∉ y) :
    lastComponent (x ++ slash :: y) = y := by
  have hAll : ∀ b ∈ y.reverse, (b != slash) = true := by
    intro b hb
    rw [bne_iff_ne]
    rintro rfl
    exact h (List.mem_reverse.mp hb)
  rw [lastComponent, List.reverse_append, List.reverse_cons, List.append_assoc,
    List.takeWhile_append_of_pos hAll, List.singleton_append,
    List.takeWhile_cons_of_neg (by decide), List.append_nil, List.reverse_reverse]

theorem lastComponent_joinWith (segments : List (List Char)) (last : List Char)
    (h : '/' ∉ last) : lastComponent (encode (joinWith '/' (segments ++ [last]))) = encode last := by
  have hBehind : slash :: encode (joinWith '/' (segments ++ [last])) =
      behind segments ++ slash :: encode last := by
    cases segments with
    | nil => simp
    | cons segment segments =>
      rw [List.cons_append, slash_cons_encode_joinWith, ← List.cons_append, behind_append]
      simp
  rw [← lastComponent_slash_cons, hBehind]
  exact lastComponent_append _ _ fun hMem => h (mem_encode_slash hMem)

theorem accepts_joinWith (glob : Glob) {segments : List (List Char)} (hSome : segments ≠ [])
    (hSlash : ∀ segment ∈ segments, '/' ∉ segment) (hParent : ['.', '.'] ∉ segments) :
    glob.accepts (encode (joinWith '/' segments)) =
      fits glob.pieces (encode (joinWith '/' segments)) := by
  obtain ⟨before, last, rfl⟩ : ∃ before last, segments = before ++ [last] :=
    ⟨_, _, (List.dropLast_concat_getLast hSome).symm⟩
  have hMem : last ∈ before ++ [last] := List.mem_append_right _ List.mem_cons_self
  have hOther : (encode last == parentName) = false := by
    rw [beq_eq_false_iff_ne]
    intro hEq
    have hDots : last = ['.', '.'] := encode_injective (hEq.trans rfl)
    exact hParent (hDots ▸ hMem)
  rw [accepts, lastComponent_joinWith before last (hSlash last hMem), hOther]
  simp

end PathSieve.Glob
