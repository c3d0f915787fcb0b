import Mathlib.Data.List.DropRight
import PathSieve.Proofs.Path.Canonical
import PathSieve.Proofs.Rule.Matching

/-!
# Slices of paths

A path is built segment by segment: the joined text grows by a slash and the segment, and the
offset behind the slash is kept. `WellPlaced` says where these offsets lie, and every segment added
keeps it, so that the two ends of a slice are always positions between characters.
`slices_exact` states that no slice within the segments is missing and that each one is the run of
segments it stands for, down to the candidates that a rule asks its matcher about.
-/

namespace PathSieve.Path

open Text

set_option autoImplicit false

/-! ## Building a path -/

/-- One more segment at the end, behind a slash unless it is the first. -/
def push (path : Path) (segment : List Char) : Path :=
  let front := if path.chars.isEmpty then [] else path.chars ++ ['/']
  ⟨front ++ segment, path.starts ++ [byteSize front]⟩

theorem push_first {path : Path} (h : path.chars = []) (segment : List Char) :
    path.push segment = ⟨segment, path.starts ++ [0]⟩ := by
  simp [push, h]

theorem push_later {path : Path} (h : path.chars ≠ []) (segment : List Char) :
    path.push segment =
      ⟨path.chars ++ '/' :: segment, path.starts ++ [byteSize path.chars + 1]⟩ := by
  have hSlash : byteSize ['/'] = 1 := rfl
  simp [push, h, hSlash]

theorem offsets_concat (segments : List (List Char)) (segment : List Char) :
    offsets (segments ++ [segment]) = offsets segments ++ [byteSize (withSlashes segments)] := by
  rw [offsets_eq_map, offsets_eq_map, List.length_append, List.length_singleton, List.range_succ,
    List.map_append, List.map_singleton, List.take_left]
  congr 1
  apply List.map_congr_left
  intro i hi
  rw [List.take_append_of_le_length (List.mem_range.mp hi).le]

theorem withSlashes_of_ne_nil {segments : List (List Char)} (h : segments ≠ []) :
    withSlashes segments = joinWith '/' segments ++ ['/'] := by
  have hSlashes := joinWith_take (segments ++ [[]]) segments.length (by simp)
    (List.length_pos_iff.mpr h)
  rwa [List.take_left] at hSlashes

theorem joinWith_ne_nil {segments : List (List Char)} (h : segments ≠ [])
    (hSome : ∀ segment ∈ segments, segment ≠ []) : joinWith '/' segments ≠ [] := by
  obtain ⟨first, rest, rfl⟩ := List.exists_cons_of_ne_nil h
  have hFirst := hSome first List.mem_cons_self
  cases rest with
  | nil => rwa [joinWith_singleton]
  | cons next rest =>
    rw [joinWith_cons_cons]
    exact List.append_ne_nil_of_left_ne_nil hFirst _

theorem ofSegments_concat (segments : List (List Char)) (segment : List Char)
    (hSome : ∀ other ∈ segments, other ≠ []) :
    ofSegments (segments ++ [segment]) = (ofSegments segments).push segment := by
  rw [ofSegments, joinWith_concat, offsets_concat]
  cases segments with
  | nil =>
    rw [push_first rfl]
    rfl
  | cons first rest =>
    have hCons := List.cons_ne_nil first rest
    rw [push_later (joinWith_ne_nil hCons hSome), withSlashes_of_ne_nil hCons, byteSize_append,
      List.append_assoc]
    rfl

theorem ofSegments_eq_foldl_push (segments : List (List Char))
    (hSome : ∀ segment ∈ segments, segment ≠ []) :
    ofSegments segments = segments.foldl push (ofSegments []) := by
  induction segments using List.reverseRecOn with
  | nil => rfl
  | append_singleton segments segment ih =>
    have hEarlier : ∀ other ∈ segments, other ≠ [] := fun other hMem =>
      hSome other (List.mem_append_left _ hMem)
    rw [ofSegments_concat segments segment hEarlier, ih hEarlier, List.foldl_append]
    rfl

/-! ## Where segments begin -/

/-- The offsets begin at zero and grow, and each of them stands between two characters: behind a
slash, unless it is the first. -/
structure WellPlaced (path : Path) : Prop where
  empty_iff : path.starts = [] ↔ path.chars = []
  first_zero : ∀ start ∈ path.starts.head?, start = 0
  increasing : path.starts.Pairwise (· < ·)
  on_boundary : ∀ start ∈ path.starts, (⟨start⟩ : String.Pos.Raw).IsValid path.text
  behind_slash : ∀ start ∈ path.starts.tail, ∃ front back,
    path.chars = front ++ '/' :: back ∧ start = byteSize front + 1

theorem WellPlaced.start_le {path : Path} (h : path.WellPlaced) {start : Nat}
    (hMem : start ∈ path.starts) : start ≤ byteSize path.chars := by
  have hSize := (h.on_boundary start hMem).le_utf8ByteSize
  rwa [text, utf8ByteSize_ofList] at hSize

theorem wellPlaced_empty : (ofSegments []).WellPlaced where
  empty_iff := iff_of_true rfl rfl
  first_zero _ hMem := by cases hMem
  increasing := List.Pairwise.nil
  on_boundary _ hMem := by cases hMem
  behind_slash _ hMem := by cases hMem

theorem wellPlaced_first {segment : List Char} (hSome : segment ≠ []) :
    (⟨segment, [0]⟩ : Path).WellPlaced where
  empty_iff := iff_of_false (List.cons_ne_nil 0 []) hSome
  first_zero _ hMem := (Option.some.inj hMem).symm
  increasing := List.pairwise_singleton _ _
  on_boundary start hMem := by
    rw [List.mem_singleton.mp hMem]
    exact String.Pos.Raw.isValid_zero
  behind_slash _ hMem := by cases hMem

theorem WellPlaced.later {path : Path} (h : path.WellPlaced) (hChars : path.chars ≠ [])
    (segment : List Char) :
    (⟨path.chars ++ '/' :: segment,
      path.starts ++ [byteSize path.chars + 1]⟩ : Path).WellPlaced := by
  have hStarts : path.starts ≠ [] := fun hNil => hChars (h.empty_iff.mp hNil)
  have hSlash : path.chars ++ '/' :: segment = (path.chars ++ ['/']) ++ segment := by simp
  constructor
  · exact iff_of_false (List.append_ne_nil_of_left_ne_nil hStarts _)
      (List.append_ne_nil_of_left_ne_nil hChars _)
  · intro start hMem
    rw [List.head?_append_of_ne_nil _ hStarts] at hMem
    exact h.first_zero start hMem
  · rw [List.pairwise_append]
    refine ⟨h.increasing, List.pairwise_singleton _ _, fun start hMem next hNext => ?_⟩
    rw [List.mem_singleton.mp hNext]
    exact Nat.lt_succ_of_le (h.start_le hMem)
  · intro start hMem
    rw [text, isValid_ofList_iff]
    rcases List.mem_append.mp hMem with hOld | hNew
    · obtain ⟨front, back, hSplit, hSize⟩ :=
        (isValid_ofList_iff _ _).mp (h.on_boundary start hOld)
      exact ⟨front, back ++ '/' :: segment, by simp [hSplit], hSize⟩
    · rw [List.mem_singleton.mp hNew]
      exact ⟨path.chars ++ ['/'], segment, hSlash, byteSize_append _ _⟩
  · intro start hMem
    rw [List.tail_append_of_ne_nil hStarts] at hMem
    rcases List.mem_append.mp hMem with hOld | hNew
    · obtain ⟨front, back, hSplit, hSize⟩ := h.behind_slash start hOld
      exact ⟨front, back ++ '/' :: segment, by simp [hSplit], hSize⟩
    · exact ⟨path.chars, segment, rfl, List.mem_singleton.mp hNew⟩

theorem WellPlaced.push {path : Path} (h : path.WellPlaced) {segment : List Char}
    (hSome : segment ≠ []) : (path.push segment).WellPlaced := by
  by_cases hChars : path.chars = []
  · rw [push_first hChars, h.empty_iff.mpr hChars]
    exact wellPlaced_first hSome
  · rw [push_later hChars]
    exact h.later hChars segment

theorem WellPlaced.foldl_push {path : Path} (h : path.WellPlaced) {segments : List (List Char)}
    (hSome : ∀ segment ∈ segments, segment ≠ []) : (segments.foldl Path.push path).WellPlaced := by
  induction segments generalizing path with
  | nil => exact h
  | cons segment segments ih =>
    exact ih (h.push (hSome segment List.mem_cons_self)) fun other hMem =>
      hSome other (List.mem_cons_of_mem segment hMem)

theorem wellPlaced_ofString (raw : String) : (ofString raw).WellPlaced := by
  have hSome : ∀ segment ∈ segmentsOf raw.toList, segment ≠ [] :=
    ne_nil_of_mem_segmentsOf raw.toList
  rw [ofString_eq_ofSegments, ofSegments_eq_foldl_push _ hSome]
  exact wellPlaced_empty.foldl_push hSome

/-! ## The ends of a slice -/

/-- The bytes between which a run of segments is cut out: up to the slash in front of the next
segment, or to the end of the text. -/
structure Delimits (path : Path) (start stop first last : Nat) : Prop where
  begins : path.starts[start]? = some first
  ends : path.starts[stop]? = some (last + 1) ∨
    path.starts[stop]? = none ∧ last = byteSize path.chars
  ordered : first ≤ last
  cut_isSome : (cut? first last path.chars).isSome = true

theorem Delimits.range?_eq {path : Path} {start stop first last : Nat}
    (h : path.Delimits start stop first last) (hLess : start < stop)
    (hCount : stop ≤ path.segmentCount) :
    path.range? start stop = cut? first last path.chars := by
  rw [range?, if_pos ⟨hLess, hCount⟩, h.begins]
  rcases h.ends with hNext | ⟨hNone, hEnd⟩
  · simp [hNext]
  · simp [hNone, hEnd]

theorem WellPlaced.exists_delimits {path : Path} (h : path.WellPlaced) {start stop : Nat}
    (hLess : start < stop) (hCount : stop ≤ path.segmentCount) :
    ∃ first last, path.Delimits start stop first last := by
  have hStart : start < path.starts.length := Nat.lt_of_lt_of_le hLess hCount
  have hMem := List.getElem_mem hStart
  have hFirst := h.on_boundary _ hMem
  by_cases hStop : stop < path.starts.length
  · have hTail : path.starts[stop] ∈ path.starts.tail := by
      rw [← List.drop_one]
      exact List.mem_drop_iff_getElem.mpr ⟨stop - 1, by omega, by congr 1; omega⟩
    obtain ⟨front, back, hChars, hNext⟩ := h.behind_slash _ hTail
    have hOrder := List.pairwise_iff_getElem.mp h.increasing start stop hStart hStop hLess
    have hOrdered : path.starts[start] ≤ byteSize front := by omega
    refine ⟨_, byteSize front, List.getElem?_eq_getElem hStart, .inl ?_, hOrdered, ?_⟩
    · rw [List.getElem?_eq_getElem hStop, hNext]
    · exact (isSome_cut?_iff _ hOrdered).mpr
        ⟨hFirst, (isValid_ofList_iff _ _).mpr ⟨front, '/' :: back, hChars, rfl⟩⟩
  · have hOrdered := h.start_le hMem
    refine ⟨_, byteSize path.chars, List.getElem?_eq_getElem hStart, .inr ⟨?_, rfl⟩, hOrdered, ?_⟩
    · exact List.getElem?_eq_none (by omega)
    · exact (isSome_cut?_iff _ hOrdered).mpr
        ⟨hFirst, (isValid_ofList_iff _ _).mpr ⟨path.chars, [], by simp, rfl⟩⟩

/-! ## Slices as runs of names -/

theorem ofList_joinWith (segments : List (List Char)) :
    String.ofList (joinWith '/' segments) = "/".intercalate (segments.map String.ofList) := by
  rw [← String.toList_inj, String.toList_ofList, String.toList_intercalate, List.map_map]
  have hSame : String.toList ∘ String.ofList = id := funext fun cs => String.toList_ofList
  rw [hSame, List.map_id]
  rfl

theorem segmentCount_ofString (raw : String) :
    (ofString raw).segmentCount = (namesIn raw).length := by
  rw [ofString_eq_ofSegments, segmentCount_ofSegments, namesIn, List.length_map]

theorem slice?_ofString (raw : String) {start stop : Nat} (h : start < stop)
    (h' : stop ≤ (ofString raw).segmentCount) :
    (ofString raw).slice? start stop =
      some ("/".intercalate (((namesIn raw).take stop).drop start)) := by
  rw [segmentCount_ofString, namesIn, List.length_map] at h'
  rw [ofString_eq_ofSegments, slice?, range?_ofSegments _ start stop h h', Option.map_some,
    ofList_joinWith, ← List.drop_take, List.map_drop, List.map_take]
  rfl

theorem isSome_slice?_ofString_iff (raw : String) (start stop : Nat) :
    ((ofString raw).slice? start stop).isSome = true ↔
      start < stop ∧ stop ≤ (ofString raw).segmentCount := by
  constructor
  · intro hSome
    rw [slice?, Option.isSome_map] at hSome
    by_contra hOutside
    rw [range?, if_neg hOutside] at hSome
    cases hSome
  · rintro ⟨hLess, hCount⟩
    rw [slice?_ofString raw hLess hCount]
    rfl

theorem slice?_ofString_succ (raw : String) (i : Nat) :
    (ofString raw).slice? i (i + 1) = (namesIn raw)[i]? := by
  rw [ofString_eq_ofSegments, slice?_ofSegments_succ, namesIn, List.getElem?_map]

theorem length_namesIn_le (raw : String) : (namesIn raw).length ≤ raw.utf8ByteSize := by
  rw [namesIn, List.length_map, ← String.ofList_toList (s := raw), utf8ByteSize_ofList,
    String.toList_ofList]
  induction raw.toList with
  | nil => exact Nat.le_refl 0
  | cons c cs ih =>
    have hSize := c.utf8Size_pos
    rw [byteSize_cons]
    rcases splitBy_cons_cases isSeparator c cs with ⟨_, hEq⟩ | ⟨_, first, rest, hTail, hEq⟩
    · rw [segmentsOf, hEq, List.filter_cons_of_neg (by decide)]
      exact ih.trans (Nat.le_add_left _ _)
    · rw [segmentsOf, ← List.countP_eq_length_filter, hTail, List.countP_cons] at ih
      rw [segmentsOf, ← List.countP_eq_length_filter, hEq, List.countP_cons]
      split <;> omega

/-- A text in memory is shorter than the number of machine words, so it has no name at the index
behind which the end of the slice wraps. -/
theorem segment?_ofString (raw : String) (hSize : raw.utf8ByteSize < UInt64.size)
    (index : UInt64) : (ofString raw).segment? index = (namesIn raw)[index.toNat]? := by
  have hLength := length_namesIn_le raw
  have hWrap : (index + 1).toNat = (index.toNat + 1) % UInt64.size := UInt64.toNat_add index 1
  have hIndex : index.toNat < UInt64.size := index.toNat_lt
  rw [segment?, hWrap]
  by_cases hLast : index.toNat + 1 < UInt64.size
  · rw [Nat.mod_eq_of_lt hLast, slice?_ofString_succ]
  · -- Here the end of the slice is zero, and both sides are absent.
    have hZero : index.toNat + 1 = UInt64.size := by omega
    rw [hZero, Nat.mod_self, slice?, range?_eq_none_of_not_lt _ _ _ (Nat.not_lt_zero _),
      List.getElem?_eq_none (by omega)]
    rfl

theorem isSome_segment?_ofString_iff (raw : String) (hSize : raw.utf8ByteSize < UInt64.size)
    (index : UInt64) : ((ofString raw).segment? index).isSome = true ↔
      index.toNat < (ofString raw).segmentCount := by
  rw [segment?_ofString raw hSize, segmentCount_ofString, isSome_getElem?]

theorem last?_ofString (raw : String) : (ofString raw).last? = (namesIn raw).getLast? := by
  rw [last?, List.getLast?_eq_getElem?, segmentCount_ofString]
  cases hLength : (namesIn raw).length with
  | zero =>
    rw [slice?, range?_eq_none_of_not_lt _ _ _ (Nat.not_lt_zero _),
      List.getElem?_eq_none (by omega)]
    rfl
  | succ n => exact slice?_ofString_succ raw n

theorem rtakeWhile_joinWith (segments : List (List Char)) {segment : List Char}
    (h : '/' ∉ segment) :
    (joinWith '/' (segments ++ [segment])).rtakeWhile (· != '/') = segment := by
  have hAll : ∀ c ∈ segment, (c != '/') = true := fun c hc =>
    bne_iff_ne.mpr fun hSlash => h (hSlash ▸ hc)
  rw [joinWith_concat]
  cases segments with
  | nil => exact List.rtakeWhile_eq_self_iff.mpr hAll
  | cons first rest =>
    have hBack : ∀ c ∈ segment.reverse, (c != '/') = true := fun c hc =>
      hAll c (List.mem_reverse.mp hc)
    rw [withSlashes_of_ne_nil (List.cons_ne_nil first rest), List.rtakeWhile,
      List.reverse_append, List.takeWhile_append_of_pos hBack]
    simp

theorem last?_ofString_eq_rtakeWhile (raw : String) :
    (ofString raw).last? = if (ofString raw).isEmpty then none
      else some (String.ofList ((ofString raw).chars.rtakeWhile (· != '/'))) := by
  have hSlash := slash_not_mem_of_mem_segmentsOf raw.toList
  rw [last?_ofString, ofString_eq_ofSegments, namesIn, List.getLast?_map]
  rcases List.eq_nil_or_concat' (segmentsOf raw.toList) with hNil | ⟨segments, segment, hConcat⟩
  · rw [hNil]
    rfl
  · rw [hConcat] at hSlash ⊢
    have hStarts : (ofSegments (segments ++ [segment])).isEmpty = false := by
      simp [isEmpty, ofSegments, offsets_concat]
    rw [hStarts, List.getLast?_concat, ofSegments,
      rtakeWhile_joinWith segments (hSlash segment (List.mem_append_right _ List.mem_cons_self))]
    rfl

theorem filterMap_slice?_ofString (raw : String) {count : Nat}
    (h : count ≤ (ofString raw).segmentCount) :
    ((List.range count).filterMap fun start => (ofString raw).slice? start count) =
      (List.range count).map fun start =>
        "/".intercalate (((namesIn raw).take count).drop start) := by
  rw [← List.filterMap_eq_map]
  apply List.filterMap_congr
  intro start hStart
  exact slice?_ofString raw (List.mem_range.mp hStart) h

theorem matchesLeading_ofString_iff (rule : Rule) (raw : String) {count : Nat} (h : 1 ≤ count)
    (h' : count ≤ (ofString raw).segmentCount) :
    rule.matchesLeading (ofString raw) count = true ↔
      rule.scope.Finds rule.Accepts ((segmentsOf raw.toList).take count) := by
  rw [ofString_eq_ofSegments] at h' ⊢
  rw [segmentCount_ofSegments] at h'
  exact Rule.matchesLeading_iff rule _ count h h'

/-- Every slice within the segments is there, and is the run of names it stands for. -/
theorem slices_exact (raw : String) :
    (ofString raw).WellPlaced ∧
    (ofString raw).segments = namesIn raw ∧
    (ofString raw).segmentCount = (namesIn raw).length ∧
    (∀ start stop, ((ofString raw).slice? start stop).isSome = true ↔
      start < stop ∧ stop ≤ (ofString raw).segmentCount) ∧
    (∀ start stop, start < stop → stop ≤ (ofString raw).segmentCount →
      (ofString raw).slice? start stop =
        some ("/".intercalate (((namesIn raw).take stop).drop start)) ∧
      ∃ first last, (ofString raw).Delimits start stop first last ∧
        (ofString raw).range? start stop = cut? first last (ofString raw).chars) ∧
    (raw.utf8ByteSize < UInt64.size → ∀ index : UInt64,
      (ofString raw).segment? index = (namesIn raw)[index.toNat]? ∧
      (((ofString raw).segment? index).isSome = true ↔
        index.toNat < (ofString raw).segmentCount)) ∧
    ((ofString raw).last? = if (ofString raw).isEmpty then none
      else some (String.ofList ((ofString raw).chars.rtakeWhile (· != '/')))) ∧
    ∀ count, 1 ≤ count → count ≤ (ofString raw).segmentCount →
      ((List.range count).filterMap fun start => (ofString raw).slice? start count) =
        ((List.range count).map fun start =>
          "/".intercalate (((namesIn raw).take count).drop start)) ∧
      ∀ rule : Rule, rule.matchesLeading (ofString raw) count = true ↔
        rule.scope.Finds rule.Accepts ((segmentsOf raw.toList).take count) := by
  have hPlaced := wellPlaced_ofString raw
  refine ⟨hPlaced, segments_ofString raw, segmentCount_ofString raw,
    isSome_slice?_ofString_iff raw, ?_, ?_, last?_ofString_eq_rtakeWhile raw, ?_⟩
  · intro start stop hLess hStop
    obtain ⟨first, last, hDelimits⟩ := hPlaced.exists_delimits hLess hStop
    exact ⟨slice?_ofString raw hLess hStop, first, last, hDelimits,
      hDelimits.range?_eq hLess hStop⟩
  · intro hSize index
    exact ⟨segment?_ofString raw hSize index, isSome_segment?_ofString_iff raw hSize index⟩
  · intro count hSome hStop
    exact ⟨filterMap_slice?_ofString raw hStop, fun rule =>
      matchesLeading_ofString_iff rule raw hSome hStop⟩

theorem slices_exact_accented :
    (ofString ".\\é//b\\ü").starts = [0, 3, 5] ∧
    (ofString ".\\é//b\\ü").slice? 1 3 = some "b/ü" ∧
    (ofString ".\\é//b\\ü").segment? 18446744073709551615 = none ∧
    ((List.range 3).filterMap fun start => (ofString ".\\é//b\\ü").slice? start 3) =
      ["é/b/ü", "b/ü", "ü"] := by
  have hNames : namesIn ".\\é//b\\ü" = ["é", "b", "ü"] := by decide
  obtain ⟨_, _, hCount, _, hSlices, hSegments, _, hLeading⟩ := slices_exact ".\\é//b\\ü"
  rw [hNames] at hCount
  refine ⟨by decide, ?_, ?_, ?_⟩
  · rw [(hSlices 1 3 (by decide) hCount.ge).1, hNames]
    rfl
  · rw [(hSegments (by decide) _).1, hNames]
    rfl
  · rw [(hLeading 3 (by decide) hCount.ge).1, hNames]
    rfl

end PathSieve.Path
