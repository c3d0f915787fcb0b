import PathSieve.Text.Utf8.Lemmas

/-!
# Lenient decoding at ASCII bytes

An ASCII byte continues no character, so whatever is open before it ends there, and what stands
behind it is decoded as if nothing stood before: `decodeLenient_append_ascii`. No other byte is
ever decoded to an ASCII character, as `exists_byte_of_mem_decodeLenient` states, so ill-formed
bytes neither take one away nor bring one in.
-/

namespace PathSieve.Text

set_option autoImplicit false

/-! ## What is open -/

theorem Opens.low_bound {xs : List UInt8} {o : Opening} (h : Opens xs o) : 0x80 ≤ o.low := by
  cases h with
  | lead b o h =>
    rcases Lead.ofByte_eq_opening b o h with ⟨_, _, rfl⟩ | ⟨_, _, rfl⟩ | ⟨_, _, rfl⟩
    · exact Nat.le_refl _
    · simp only
      split <;> omega
    · simp only
      split <;> omega
  | more => exact Nat.le_refl _

/-- A scan whose open character, if there is one, has been begun by bytes. -/
def Scan.IsOpen (s : Scan) : Prop := ∀ o, s.current = some o → ∃ xs, Opens xs o

theorem Scan.isOpen_start : Scan.start.IsOpen := nofun

theorem Scan.isOpen_lead (done : List Chunk) (b : UInt8) : (Scan.lead done b).IsOpen := by
  intro o ho
  cases hLead : Lead.ofByte b with
  | scalar c => simp [Scan.lead, hLead] at ho
  | opening p =>
    obtain rfl : p = o := by simpa [Scan.lead, hLead] using ho
    exact ⟨[b], .lead b p hLead⟩
  | malformed => simp [Scan.lead, hLead] at ho

theorem Scan.IsOpen.step {s : Scan} (h : s.IsOpen) (b : UInt8) : (s.step b).IsOpen := by
  obtain ⟨done, current⟩ := s
  cases current with
  | none => exact isOpen_lead done b
  | some o =>
    obtain ⟨xs, hxs⟩ := h o rfl
    rw [Scan.step]
    simp only
    split
    · rename_i hAllows
      split
      · intro p hp
        cases hp
      · rename_i hOwed
        intro p hp
        obtain rfl := Option.some.inj hp
        exact ⟨xs ++ [b], .more xs o b hxs hAllows (Nat.lt_of_not_le hOwed)⟩
    · exact isOpen_lead _ b

theorem Scan.IsOpen.foldl {s : Scan} (h : s.IsOpen) (bytes : List UInt8) :
    (bytes.foldl Scan.step s).IsOpen := by
  induction bytes generalizing s with
  | nil => exact h
  | cons b bytes ih => exact ih (h.step b)

/-! ## Scans behind earlier chunks -/

def Scan.behind (s : Scan) (earlier : List Chunk) : Scan := ⟨s.done ++ earlier, s.current⟩

theorem Scan.lead_behind (done earlier : List Chunk) (b : UInt8) :
    Scan.lead (done ++ earlier) b = (Scan.lead done b).behind earlier := by
  simp only [Scan.lead]
  split <;> rfl

theorem Scan.step_behind (s : Scan) (earlier : List Chunk) (b : UInt8) :
    (s.behind earlier).step b = (s.step b).behind earlier := by
  obtain ⟨done, current⟩ := s
  cases current with
  | none => exact lead_behind done earlier b
  | some o =>
    simp only [behind, Scan.step]
    split
    · split <;> rfl
    · exact lead_behind (.malformed o.width :: done) earlier b

theorem Scan.foldl_behind (s : Scan) (earlier : List Chunk) (bytes : List UInt8) :
    bytes.foldl Scan.step (s.behind earlier) = (bytes.foldl Scan.step s).behind earlier := by
  induction bytes generalizing s with
  | nil => rfl
  | cons b bytes ih => rw [List.foldl_cons, List.foldl_cons, step_behind, ih]

theorem Scan.finish_behind (s : Scan) (earlier : List Chunk) :
    (s.behind earlier).finish = earlier.reverse ++ s.finish := by
  obtain ⟨done, current⟩ := s
  cases current <;> simp [behind, finish]

/-! ## ASCII bytes -/

/-- The chunks of a scan that goes on with another character. -/
def Scan.closed (s : Scan) : List Chunk :=
  match s.current with
  | none => s.done
  | some o => .malformed o.width :: s.done

/-- An open character is replaced in the same way where the bytes go on and where they end. -/
theorem Scan.map_lenient_closed (s : Scan) :
    s.closed.reverse.map Chunk.lenient = s.finish.map Chunk.lenient := by
  obtain ⟨done, current⟩ := s
  cases current <;> simp [closed, finish, Chunk.lenient]

theorem Scan.IsOpen.step_ascii {s : Scan} (h : s.IsOpen) {b : UInt8} (hb : b.toNat < 0x80) :
    s.step b = Scan.start.behind (.scalar (Char.ofNat b.toNat) :: s.closed) := by
  have hLead := Lead.ofByte_scalar b hb
  obtain ⟨done, current⟩ := s
  cases current with
  | none => exact step_scalar done b _ hLead
  | some o =>
    obtain ⟨xs, hxs⟩ := h o rfl
    have hOut : ¬ o.Allows b := fun hAllows => by
      have hLow := hxs.low_bound
      have hBound := hAllows.1
      omega
    simp only [Scan.step, if_neg hOut]
    exact step_scalar (.malformed o.width :: done) b _ hLead

theorem decodeLenient_append_ascii (xs ys : List UInt8) {b : UInt8} (hb : b.toNat < 0x80) :
    decodeLenient (xs ++ b :: ys) =
      decodeLenient xs ++ Char.ofNat b.toNat :: decodeLenient ys := by
  have hStep := (Scan.isOpen_start.foldl xs).step_ascii hb
  rw [decodeLenient, chunks_append, List.foldl_cons, hStep, Scan.foldl_behind, Scan.finish_behind,
    List.map_append, List.reverse_cons, List.map_append, Scan.map_lenient_closed, List.append_assoc]
  rfl

theorem scalar_mem_of_mem_malformed {c : Char} {width : Nat} {done : List Chunk}
    (h : .scalar c ∈ Chunk.malformed width :: done) : .scalar c ∈ done := by
  simpa using h

theorem Scan.mem_lead {done : List Chunk} {b : UInt8} {c : Char}
    (h : .scalar c ∈ (Scan.lead done b).done) : .scalar c ∈ done ∨ b.toNat = c.toNat := by
  rcases Lead.ofByte_cases b with ⟨hb, hLead⟩ | hLead | ⟨o, hLead, _⟩
  · simp only [Scan.lead, hLead, List.mem_cons, Chunk.scalar.injEq] at h
    rcases h with rfl | h
    · exact .inr (toNat_ofNat_char (by omega)).symm
    · exact .inl h
  · simp only [Scan.lead, hLead] at h
    exact .inl (scalar_mem_of_mem_malformed h)
  · simp only [Scan.lead, hLead] at h
    exact .inl h

theorem Scan.IsOpen.ascii_of_mem_step {s : Scan} (hs : s.IsOpen) {b : UInt8} {c : Char}
    (hc : c.toNat < 0x80) (h : .scalar c ∈ (s.step b).done) :
    .scalar c ∈ s.done ∨ b.toNat = c.toNat := by
  obtain ⟨done, current⟩ := s
  cases current with
  | none => exact mem_lead h
  | some o =>
    simp only [Scan.step] at h
    split at h
    · rename_i hAllows
      split at h
      · rename_i hOwed
        obtain ⟨xs, hxs⟩ := hs o rfl
        rcases List.mem_cons.mp h with hEq | h
        · -- The bytes of the character that ends here are those of an ASCII character.
          have hBytes := hxs.closes b hAllows hOwed
          rw [← Chunk.scalar.inj hEq, encodeChar_one c (by omega)] at hBytes
          have hByte : b ∈ [UInt8.ofNat c.toNat] := hBytes ▸ List.mem_append_right xs (by simp)
          rw [List.mem_singleton.mp hByte, toNat_ofNat_byte (by omega)]
          exact .inr rfl
        · exact .inl h
      · exact .inl h
    · rcases mem_lead h with h | h
      · exact .inl (scalar_mem_of_mem_malformed h)
      · exact .inr h

theorem Scan.IsOpen.ascii_of_mem_foldl {s : Scan} (hs : s.IsOpen) {bytes : List UInt8} {c : Char}
    (hc : c.toNat < 0x80) (h : .scalar c ∈ (bytes.foldl Scan.step s).done) :
    .scalar c ∈ s.done ∨ ∃ b ∈ bytes, b.toNat = c.toNat := by
  induction bytes generalizing s with
  | nil => exact .inl h
  | cons b bytes ih =>
    rcases ih (hs.step b) h with h | ⟨d, hd, hEq⟩
    · rcases hs.ascii_of_mem_step hc h with h | h
      · exact .inl h
      · exact .inr ⟨b, List.mem_cons_self, h⟩
    · exact .inr ⟨d, List.mem_cons_of_mem b hd, hEq⟩

theorem Scan.mem_done_of_mem_finish {s : Scan} {c : Char} (h : .scalar c ∈ s.finish) :
    .scalar c ∈ s.done := by
  obtain ⟨done, current⟩ := s
  cases current with
  | none => exact List.mem_reverse.mp h
  | some o => exact (List.mem_cons.mp (List.mem_reverse.mp h)).resolve_left nofun

theorem exists_byte_of_mem_decodeLenient {bytes : List UInt8} {c : Char}
    (h : c ∈ decodeLenient bytes) (hc : c.toNat < 0x80) : ∃ b ∈ bytes, b.toNat = c.toNat := by
  obtain ⟨k, hk, hChar⟩ := List.mem_map.mp h
  have hReplacement : replacement ≠ c := by
    rintro rfl
    exact absurd hc (by decide)
  cases k with
  | scalar d =>
    obtain rfl : d = c := hChar
    rcases Scan.isOpen_start.ascii_of_mem_foldl hc (Scan.mem_done_of_mem_finish hk) with hNone | hByte
    · cases hNone
    · exact hByte
  | malformed width => exact absurd hChar hReplacement
  | cutShort width => exact absurd hChar hReplacement

end PathSieve.Text
