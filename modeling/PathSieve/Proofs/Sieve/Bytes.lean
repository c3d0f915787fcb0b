import PathSieve.Path.Lemmas
import PathSieve.Sieve
import PathSieve.Text.Utf8.Lenient

/-!
# Paths in bytes

Both separators are ASCII, so a path in bytes may be cut before it is decoded: the components are
decoded on their own, and what is ill-formed in one of them ends with it. On the bytes of a text
nothing is lost. `ignoresBytes_reads_components` states both for the paths that a sieve decides.
-/

namespace PathSieve

set_option autoImplicit false

open Text

namespace Path

def ofBytes (raw : List UInt8) : Path := ofString (String.ofList (decodeLenient raw))

def isSeparatorByte (b : UInt8) : Bool := b == 0x2F || b == 0x5C

theorem ascii_of_isSeparatorByte {b : UInt8} (h : isSeparatorByte b = true) :
    b.toNat < 0x80 ∧ isSeparator (Char.ofNat b.toNat) = true := by
  rcases Bool.or_eq_true_iff.mp h with h | h <;> obtain rfl := beq_iff_eq.mp h <;> decide

theorem isSeparatorByte_of_toNat_eq {b : UInt8} {c : Char} (hc : isSeparator c = true)
    (h : b.toNat = c.toNat) : isSeparatorByte b = true := by
  rcases Bool.or_eq_true_iff.mp hc with hc | hc <;> obtain rfl := beq_iff_eq.mp hc
  · obtain rfl : b = 0x2F := UInt8.toNat_inj.mp h
    rfl
  · obtain rfl : b = 0x5C := UInt8.toNat_inj.mp h
    rfl

theorem ascii_of_isSeparator {c : Char} (h : isSeparator c = true) : c.toNat < 0x80 := by
  rcases Bool.or_eq_true_iff.mp h with h | h <;> obtain rfl := beq_iff_eq.mp h <;> decide

/-- Without a separator among its bytes, a path has no separator among its characters. -/
theorem splitBy_decodeLenient_of_no_separator {raw : List UInt8}
    (h : ∀ b ∈ raw, isSeparatorByte b = false) :
    splitBy isSeparator (decodeLenient raw) = [decodeLenient raw] := by
  refine splitBy_eq_singleton _ _ fun c hc => Bool.eq_false_iff.mpr fun hChar => ?_
  obtain ⟨b, hb, hEq⟩ := exists_byte_of_mem_decodeLenient hc (ascii_of_isSeparator hChar)
  have hByte := isSeparatorByte_of_toNat_eq hChar hEq
  rw [h b hb] at hByte
  cases hByte

/-- The recursion is on the bytes: a separator among them leaves two shorter paths. -/
theorem splitBy_decodeLenient (raw : List UInt8) :
    splitBy isSeparator (decodeLenient raw) =
      (raw.splitOnP isSeparatorByte).map decodeLenient := by
  by_cases h : ∃ b ∈ raw, isSeparatorByte b = true
  · obtain ⟨b, hb, hSeparator⟩ := h
    obtain ⟨hAscii, hChar⟩ := ascii_of_isSeparatorByte hSeparator
    obtain ⟨xs, ys, hRaw⟩ := List.append_of_mem hb
    have hLength : raw.length = xs.length + (ys.length + 1) := by simp [hRaw]
    have hBefore := splitBy_decodeLenient xs
    have hAfter := splitBy_decodeLenient ys
    rw [hRaw, decodeLenient_append_ascii xs ys hAscii, splitBy_append_cons _ _ _ _ hChar, hBefore,
      hAfter, List.splitOnP_append_cons xs ys hSeparator, List.map_append]
  · have hNone : ∀ b ∈ raw, isSeparatorByte b = false := fun b hb =>
      Bool.eq_false_iff.mpr fun hSeparator => h ⟨b, hb, hSeparator⟩
    rw [splitBy_decodeLenient_of_no_separator hNone, List.splitOnP_eq_singleton hNone]
    rfl
termination_by raw.length

theorem segments_ofBytes (raw : List UInt8) :
    (ofBytes raw).segments =
      (((raw.splitOnP isSeparatorByte).map decodeLenient).filter isNamed).map String.ofList := by
  rw [ofBytes, segments_ofString, String.toList_ofList, segmentsOf, splitBy_decodeLenient]

theorem segments_ofBytes_append_cons (before after : List UInt8) {b : UInt8}
    (h : isSeparatorByte b = true) :
    (ofBytes (before ++ b :: after)).segments =
      (ofBytes before).segments ++ (ofBytes after).segments := by
  simp only [segments_ofBytes]
  rw [List.splitOnP_append_cons before after h, List.map_append, List.filter_append,
    List.map_append]

end Path

theorem ofList_decodeLenient_encode (text : String) :
    String.ofList (decodeLenient (encode text.toList)) = text := by
  rw [decodeLenient_encode, String.ofList_toList]

/-- A path in bytes is decided by the segments of its components, each decoded on its own, and the
bytes of a text are decided as the text is. -/
theorem Sieve.ignoresBytes_reads_components :
    (∀ before after : List UInt8,
      (Path.ofBytes (before ++ [0x2F] ++ after)).segments =
          (Path.ofBytes before).segments ++ (Path.ofBytes after).segments ∧
        (Path.ofBytes (before ++ [0x5C] ++ after)).segments =
          (Path.ofBytes before).segments ++ (Path.ofBytes after).segments) ∧
    (∀ raw : List UInt8, (Path.ofBytes raw).segments =
      (((raw.splitOnP Path.isSeparatorByte).map decodeLenient).filter Path.isNamed).map
        String.ofList) ∧
    (∀ text : String, String.ofList (decodeLenient (encode text.toList)) = text) ∧
    ∀ sieve : Sieve,
      (∀ raw, sieve.ignoresBytes raw = (sieve.rulebook.judge (Path.ofBytes raw)).isIgnored) ∧
      ∀ text : String, sieve.ignoresBytes (encode text.toList) = sieve.ignores text := by
  refine ⟨?_, Path.segments_ofBytes, ofList_decodeLenient_encode, ?_⟩
  · intro before after
    rw [List.append_assoc, List.append_assoc]
    exact ⟨Path.segments_ofBytes_append_cons before after rfl,
      Path.segments_ofBytes_append_cons before after rfl⟩
  · intro sieve
    constructor
    · intro raw
      rw [ignoresBytes, ignores, explain, Rulebook.decide, Path.ofBytes]
    · intro text
      rw [ignoresBytes, ofList_decodeLenient_encode]

end PathSieve
