import PathSieve.Path

/-!
# Segments of paths

`isSome_cut?_iff` states that a cut succeeds exactly between characters, `range?_ofSegments` that
one between stored offsets is a run of segments, joined by slashes, and `segmentsOf_append_cons`
that a separator between two texts joins their segments.
-/

namespace PathSieve

set_option autoImplicit false

namespace Path

open Text

/-! ## Cuts -/

theorem dropBytes?_append (xs ys : List Char) :
    dropBytes? (byteSize xs) (xs ++ ys) = some ys := by
  induction xs with
  | nil => cases ys <;> rfl
  | cons c xs ih =>
    have hSize := c.utf8Size_pos
    obtain ⟨n, hn⟩ : ∃ n, byteSize (c :: xs) = n + 1 := ⟨byteSize (c :: xs) - 1, by
      rw [byteSize_cons]
      omega⟩
    rw [byteSize_cons] at hn
    rw [byteSize_cons, hn, List.cons_append, dropBytes?, if_pos (by omega),
      show n + 1 - c.utf8Size = byteSize xs by omega, ih]

theorem takeBytes?_append (taken xs ys : List Char) :
    takeBytes? taken (byteSize xs) (xs ++ ys) = some (taken.reverse ++ xs) := by
  induction xs generalizing taken with
  | nil => cases ys <;> simp [takeBytes?]
  | cons c xs ih =>
    have hSize := c.utf8Size_pos
    obtain ⟨n, hn⟩ : ∃ n, byteSize (c :: xs) = n + 1 := ⟨byteSize (c :: xs) - 1, by
      rw [byteSize_cons]
      omega⟩
    rw [byteSize_cons] at hn
    rw [byteSize_cons, hn, List.cons_append, takeBytes?, if_pos (by omega),
      show n + 1 - c.utf8Size = byteSize xs by omega, ih]
    simp

theorem cut?_append (xs ys zs : List Char) :
    cut? (byteSize xs) (byteSize xs + byteSize ys) (xs ++ (ys ++ zs)) = some ys := by
  rw [cut?, dropBytes?_append, Option.bind_some, Nat.add_sub_cancel_left, takeBytes?_append]
  rfl

theorem dropBytes?_eq_some_iff (n : Nat) (cs rest : List Char) :
    dropBytes? n cs = some rest ↔ ∃ front, cs = front ++ rest ∧ byteSize front = n := by
  constructor
  · intro h
    fun_induction dropBytes? n cs with
    | case1 cs => exact ⟨[], Option.some.inj h, rfl⟩
    | case2 => cases h
    | case3 n c cs hFits ih =>
      obtain ⟨front, rfl, hSize⟩ := ih h
      refine ⟨c :: front, rfl, ?_⟩
      rw [byteSize_cons, hSize]
      omega
    | case4 => cases h
  · rintro ⟨front, rfl, rfl⟩
    exact dropBytes?_append front rest

theorem takeBytes?_eq_some_iff (taken : List Char) (n : Nat) (cs run : List Char) :
    takeBytes? taken n cs = some run ↔
      ∃ more back, cs = more ++ back ∧ byteSize more = n ∧ run = taken.reverse ++ more := by
  constructor
  · intro h
    fun_induction takeBytes? taken n cs with
    | case1 taken cs => exact ⟨[], cs, rfl, rfl, by simpa using (Option.some.inj h).symm⟩
    | case2 => cases h
    | case3 taken n c cs hFits ih =>
      obtain ⟨more, back, rfl, hSize, rfl⟩ := ih h
      refine ⟨c :: more, back, rfl, ?_, by simp⟩
      rw [byteSize_cons, hSize]
      omega
    | case4 => cases h
  · rintro ⟨more, back, rfl, rfl, rfl⟩
    exact takeBytes?_append taken more back

/-- A cut succeeds exactly between two characters of the text. -/
theorem isSome_cut?_iff (cs : List Char) {first last : Nat} (h : first ≤ last) :
    (cut? first last cs).isSome = true ↔
      (⟨first⟩ : String.Pos.Raw).IsValid (String.ofList cs) ∧
        (⟨last⟩ : String.Pos.Raw).IsValid (String.ofList cs) := by
  rw [isValid_ofList_iff, isValid_ofList_iff, Option.isSome_iff_exists]
  constructor
  · rintro ⟨run, hCut⟩
    obtain ⟨rest, hDrop, hTake⟩ := Option.bind_eq_some_iff.mp hCut
    obtain ⟨front, rfl, hFront⟩ := (dropBytes?_eq_some_iff _ _ _).mp hDrop
    obtain ⟨more, back, rfl, hMore, _⟩ := (takeBytes?_eq_some_iff _ _ _ _).mp hTake
    refine ⟨⟨front, more ++ back, rfl, hFront⟩, front ++ more, back, ?_, ?_⟩
    · rw [List.append_assoc]
    · rw [byteSize_append]
      omega
  · rintro ⟨⟨front, rest, rfl, rfl⟩, longer, back, hSplit, rfl⟩
    rcases List.append_eq_append_iff.mp hSplit with ⟨run, rfl, rfl⟩ | ⟨run, rfl, rfl⟩
    · exact ⟨run, by rw [byteSize_append, cut?_append]⟩
    · rw [byteSize_append] at h
      have hSame : byteSize longer = byteSize (longer ++ run) + byteSize [] := by
        rw [byteSize_append, byteSize_nil]
        omega
      exact ⟨[], by rw [hSame]; exact cut?_append (longer ++ run) [] rest⟩

/-! ## Offsets -/

def withSlashes (segments : List (List Char)) : List Char := segments.flatMap (· ++ ['/'])

@[simp] theorem withSlashes_nil : withSlashes [] = [] := rfl

@[simp] theorem withSlashes_cons (s : List Char) (segments : List (List Char)) :
    withSlashes (s :: segments) = s ++ '/' :: withSlashes segments := by
  simp [withSlashes]

theorem byteSize_slash_cons (cs : List Char) : byteSize ('/' :: cs) = 1 + byteSize cs := by
  rw [byteSize_cons]
  rfl

theorem foldl_offsets (segments : List (List Char)) (acc : List Nat) (n : Nat) :
    (segments.foldl (fun acc segment => (acc.2 :: acc.1, acc.2 + byteSize segment + 1))
      (acc, n)).1.reverse =
      acc.reverse ++ (List.range segments.length).map
        fun i => n + byteSize (withSlashes (segments.take i)) := by
  induction segments generalizing acc n with
  | nil => simp
  | cons s segments ih =>
    rw [List.foldl_cons, ih, List.length_cons, List.range_succ_eq_map, List.map_cons, List.map_map]
    simp only [List.reverse_cons, List.append_assoc, List.singleton_append, List.take_zero]
    congr 2
    apply List.map_congr_left
    intro i _
    simp only [Function.comp_apply, List.take_succ_cons, withSlashes_cons, byteSize_append,
      byteSize_slash_cons]
    omega

theorem offsets_eq_map (segments : List (List Char)) :
    offsets segments = (List.range segments.length).map
      fun i => byteSize (withSlashes (segments.take i)) := by
  rw [offsets, foldl_offsets]
  simp

@[simp] theorem length_offsets (segments : List (List Char)) :
    (offsets segments).length = segments.length := by
  simp [offsets_eq_map]

theorem getElem?_offsets (segments : List (List Char)) (i : Nat) (h : i < segments.length) :
    (offsets segments)[i]? = some (byteSize (withSlashes (segments.take i))) := by
  simp [offsets_eq_map, h]

@[simp] theorem segmentCount_ofSegments (segments : List (List Char)) :
    (ofSegments segments).segmentCount = segments.length := length_offsets segments

theorem joinWith_eq_withSlashes (segments : List (List Char)) (i : Nat) (h : i < segments.length) :
    joinWith '/' segments = withSlashes (segments.take i) ++ joinWith '/' (segments.drop i) := by
  induction segments generalizing i with
  | nil => simp at h
  | cons s segments ih =>
    cases i with
    | zero => rfl
    | succ i =>
      have hi : i < segments.length := by simpa using h
      cases segments with
      | nil => simp at hi
      | cons t rest =>
        rw [joinWith_cons_cons, ih i hi]
        simp

theorem joinWith_concat (segments : List (List Char)) (segment : List Char) :
    joinWith '/' (segments ++ [segment]) = withSlashes segments ++ segment := by
  have hJoin := joinWith_eq_withSlashes (segments ++ [segment]) segments.length (by simp)
  rwa [List.take_left, List.drop_left, joinWith_singleton] at hJoin

theorem joinWith_take (segments : List (List Char)) (n : Nat) (h : n < segments.length)
    (hn : 0 < n) :
    withSlashes (segments.take n) = joinWith '/' (segments.take n) ++ ['/'] := by
  induction segments generalizing n with
  | nil => simp at h
  | cons s segments ih =>
    cases n with
    | zero => omega
    | succ n =>
      cases n with
      | zero => simp
      | succ n =>
        cases segments with
        | nil => simp at h
        | cons t rest =>
          have hRest := ih (n + 1) (by simpa using h) (by omega)
          simp only [List.take_succ_cons] at hRest ⊢
          rw [joinWith_cons_cons, withSlashes_cons, hRest]
          simp

theorem range?_ofSegments (segments : List (List Char)) (start stop : Nat) (h : start < stop)
    (h' : stop ≤ segments.length) :
    (ofSegments segments).range? start stop =
      some (joinWith '/' ((segments.drop start).take (stop - start))) := by
  have hStart := getElem?_offsets segments start (by omega)
  have hCount : stop ≤ (ofSegments segments).segmentCount := by simpa using h'
  rw [range?, if_pos ⟨h, hCount⟩]
  change ((offsets segments)[start]?).bind _ = _
  rw [hStart, Option.bind_some]
  simp only [ofSegments]
  rw [joinWith_eq_withSlashes segments start (by omega)]
  by_cases hStop : stop < segments.length
  · have hLen : stop - start < (segments.drop start).length := by
      rw [List.length_drop]
      omega
    have hRun := joinWith_take (segments.drop start) (stop - start) hLen (by omega)
    have hTake : segments.take stop =
        segments.take start ++ (segments.drop start).take (stop - start) := by
      rw [← List.take_add, Nat.add_sub_cancel' (by omega)]
    rw [getElem?_offsets segments stop hStop, joinWith_eq_withSlashes _ _ hLen, hRun, hTake]
    simp only [withSlashes, List.flatMap_append, byteSize_append]
    rw [← withSlashes, ← withSlashes, hRun, byteSize_append,
      show byteSize ['/'] = 1 from rfl, ← Nat.add_assoc, Nat.add_sub_cancel, List.append_assoc,
      cut?_append]
  · have hAll : (segments.drop start).take (stop - start) = segments.drop start := by
      rw [List.take_of_length_le]
      rw [List.length_drop]
      omega
    have hNone : (offsets segments)[stop]? = none := by
      rw [List.getElem?_eq_none_iff, length_offsets]
      omega
    have hCut := cut?_append (withSlashes (segments.take start))
      (joinWith '/' (segments.drop start)) []
    rw [List.append_nil] at hCut
    rw [hNone, hAll, byteSize_append, hCut]

theorem range?_ofSegments_succ (segments : List (List Char)) (i : Nat) (h : i < segments.length) :
    (ofSegments segments).range? i (i + 1) = some segments[i] := by
  rw [range?_ofSegments segments i (i + 1) (by omega) (by omega), Nat.add_sub_cancel_left,
    List.drop_eq_getElem_cons h, List.take_succ_cons, List.take_zero, joinWith_singleton]

theorem filterMap_range_getElem? (xs : List (List Char)) :
    (List.range xs.length).filterMap (fun i => xs[i]?.map String.ofList) =
      xs.map String.ofList := by
  induction xs with
  | nil => rfl
  | cons x xs ih =>
    rw [List.length_cons, List.range_succ_eq_map, List.filterMap_cons, List.filterMap_map]
    change String.ofList x :: (List.range xs.length).filterMap
      (fun i => xs[i]?.map String.ofList) = _
    rw [ih]
    rfl

theorem slice?_ofSegments_succ (segments : List (List Char)) (i : Nat) :
    (ofSegments segments).slice? i (i + 1) = segments[i]?.map String.ofList := by
  by_cases h : i < segments.length
  · rw [slice?, range?_ofSegments_succ segments i h, List.getElem?_eq_getElem h]
  · have hNone := range?_eq_none_of_count_lt (ofSegments segments) i (i + 1) (by
      rw [segmentCount_ofSegments]
      omega)
    rw [slice?, hNone, List.getElem?_eq_none (by omega), Option.map_none]

theorem segments_ofSegments (segments : List (List Char)) :
    (ofSegments segments).segments = segments.map String.ofList := by
  rw [Path.segments, segmentCount_ofSegments, ← filterMap_range_getElem?]
  simp only [slice?_ofSegments_succ]

/-! ## Spellings -/

def isSeparator (c : Char) : Bool := c == '/' || c == '\\'

def segmentsOf (raw : List Char) : List (List Char) := (splitBy isSeparator raw).filter isNamed

theorem toSlash_eq_self (c : Char) (h : isSeparator c = false) : toSlash c = c := by
  simp only [isSeparator, Bool.or_eq_false_iff, beq_eq_false_iff_ne] at h
  rw [toSlash, if_neg h.2]

theorem isSlash_toSlash (c : Char) : (toSlash c == '/') = isSeparator c := by
  by_cases hc : c = '\\' <;> simp [toSlash, isSeparator, hc]

/-- A `./` group in front only adds a piece that names nothing. -/
theorem filter_splitBy_stripDotSlashes (cs : List Char) :
    (splitBy (· == '/') (stripDotSlashes cs)).filter isNamed =
      (splitBy (· == '/') cs).filter isNamed := by
  fun_induction stripDotSlashes cs with
  | case1 rest ih =>
    rw [ih, show '.' :: '/' :: rest = ['.'] ++ '/' :: rest from rfl,
      splitBy_append_cons _ _ _ _ (by decide), List.filter_append]
    rfl
  | case2 => rfl

theorem ofString_eq_ofSegments (raw : String) :
    ofString raw = ofSegments (segmentsOf raw.toList) := by
  rw [ofString, filter_splitBy_stripDotSlashes,
    splitBy_map toSlash isSeparator _ _ isSlash_toSlash toSlash_eq_self]
  rfl

theorem segments_ofString (raw : String) :
    (ofString raw).segments = (segmentsOf raw.toList).map String.ofList := by
  rw [ofString_eq_ofSegments, segments_ofSegments]

theorem isEmpty_ofString_iff (raw : String) :
    (ofString raw).isEmpty = true ↔ (ofString raw).segments = [] := by
  rw [segments_ofString, ofString_eq_ofSegments, List.map_eq_nil_iff, isEmpty, ofSegments,
    List.isEmpty_iff, ← List.length_eq_zero_iff, length_offsets, List.length_eq_zero_iff]

theorem ofString_eq_ofString_iff (p q : String) :
    ofString p = ofString q ↔ segmentsOf p.toList = segmentsOf q.toList := by
  constructor
  · intro h
    have hMap := congrArg Path.segments h
    rw [segments_ofString, segments_ofString] at hMap
    refine (List.map_inj_right fun a b hab => ?_).mp hMap
    simpa using congrArg String.toList hab
  · intro h
    rw [ofString_eq_ofSegments, ofString_eq_ofSegments, h]

theorem segmentsOf_append_cons (xs ys : List Char) (c : Char) (h : isSeparator c = true) :
    segmentsOf (xs ++ c :: ys) = segmentsOf xs ++ segmentsOf ys := by
  simp [segmentsOf, splitBy_append_cons, h]

theorem ne_nil_of_mem_segmentsOf (raw segment : List Char) (h : segment ∈ segmentsOf raw) :
    segment ≠ [] := by
  have := (List.mem_filter.mp h).2
  rintro rfl
  simp [isNamed] at this

theorem slash_not_mem_of_mem_segmentsOf (raw segment : List Char) (h : segment ∈ segmentsOf raw) :
    '/' ∉ segment := by
  intro hc
  have := not_isSeparator_of_mem_splitBy isSeparator raw segment '/' (List.mem_filter.mp h).1 hc
  simp [isSeparator] at this

end Path

end PathSieve
