import PathSieve.Text.Utf8

/-!
# Decoding what was encoded

`decode_eq_ok_iff` states that strict decoding accepts exactly the encoded texts, each as the text
that it encodes, and `decodeLenient_encode` that the lenient decoder agrees on them.
-/

namespace PathSieve.Text

set_option autoImplicit false

theorem toNat_ofNat_byte {n : Nat} (h : n < 256) : (UInt8.ofNat n).toNat = n := by
  rw [UInt8.toNat_ofNat']
  exact Nat.mod_eq_of_lt h

/-! ## First bytes -/

theorem Lead.ofByte_scalar (b : UInt8) (h : b.toNat < 0x80) :
    Lead.ofByte b = .scalar (Char.ofNat b.toNat) := by
  simp only [Lead.ofByte]
  rw [if_pos h]

theorem Lead.ofByte_two (b : UInt8) (h : 0xC2 ≤ b.toNat) (h' : b.toNat < 0xE0) :
    Lead.ofByte b = .opening ⟨b.toNat - 0xC0, 1, 1, 0x80, 0xBF⟩ := by
  simp only [Lead.ofByte]
  rw [if_neg (by omega), if_neg (by omega), if_pos h']

theorem Lead.ofByte_three (b : UInt8) (h : 0xE0 ≤ b.toNat) (h' : b.toNat < 0xF0) :
    Lead.ofByte b = .opening ⟨b.toNat - 0xE0, 1, 2, if b.toNat = 0xE0 then 0xA0 else 0x80,
      if b.toNat = 0xED then 0x9F else 0xBF⟩ := by
  simp only [Lead.ofByte]
  rw [if_neg (by omega), if_neg (by omega), if_neg (by omega), if_pos h']

theorem Lead.ofByte_four (b : UInt8) (h : 0xF0 ≤ b.toNat) (h' : b.toNat < 0xF5) :
    Lead.ofByte b = .opening ⟨b.toNat - 0xF0, 1, 3, if b.toNat = 0xF0 then 0x90 else 0x80,
      if b.toNat = 0xF4 then 0x8F else 0xBF⟩ := by
  simp only [Lead.ofByte]
  rw [if_neg (by omega), if_neg (by omega), if_neg (by omega), if_neg (by omega), if_pos h']

theorem Lead.ofByte_malformed (b : UInt8) (h : 0x80 ≤ b.toNat)
    (h' : b.toNat < 0xC2 ∨ 0xF5 ≤ b.toNat) : Lead.ofByte b = .malformed := by
  simp only [Lead.ofByte]
  rw [if_neg (by omega)]
  rcases h' with h' | h'
  · rw [if_pos h']
  · rw [if_neg (by omega), if_neg (by omega), if_neg (by omega), if_neg (by omega)]

/-- What the first byte of two, three or four bytes opens. -/
def Opening.Starts (o : Opening) (b : UInt8) : Prop :=
  (0xC2 ≤ b.toNat ∧ b.toNat < 0xE0 ∧ o = ⟨b.toNat - 0xC0, 1, 1, 0x80, 0xBF⟩) ∨
  (0xE0 ≤ b.toNat ∧ b.toNat < 0xF0 ∧ o = ⟨b.toNat - 0xE0, 1, 2,
    if b.toNat = 0xE0 then 0xA0 else 0x80, if b.toNat = 0xED then 0x9F else 0xBF⟩) ∨
  (0xF0 ≤ b.toNat ∧ b.toNat < 0xF5 ∧ o = ⟨b.toNat - 0xF0, 1, 3,
    if b.toNat = 0xF0 then 0x90 else 0x80, if b.toNat = 0xF4 then 0x8F else 0xBF⟩)

theorem Lead.ofByte_cases (b : UInt8) :
    (b.toNat < 0x80 ∧ Lead.ofByte b = .scalar (Char.ofNat b.toNat)) ∨
      Lead.ofByte b = .malformed ∨ ∃ o, Lead.ofByte b = .opening o ∧ o.Starts b := by
  have hRanges : b.toNat < 0x80 ∨ (0x80 ≤ b.toNat ∧ (b.toNat < 0xC2 ∨ 0xF5 ≤ b.toNat)) ∨
      (0xC2 ≤ b.toNat ∧ b.toNat < 0xE0) ∨ (0xE0 ≤ b.toNat ∧ b.toNat < 0xF0) ∨
      (0xF0 ≤ b.toNat ∧ b.toNat < 0xF5) := by omega
  rcases hRanges with h | ⟨h, h'⟩ | ⟨h, h'⟩ | ⟨h, h'⟩ | ⟨h, h'⟩
  · exact .inl ⟨h, Lead.ofByte_scalar b h⟩
  · exact .inr (.inl (Lead.ofByte_malformed b h h'))
  · exact .inr (.inr ⟨_, Lead.ofByte_two b h h', .inl ⟨h, h', rfl⟩⟩)
  · exact .inr (.inr ⟨_, Lead.ofByte_three b h h', .inr (.inl ⟨h, h', rfl⟩)⟩)
  · exact .inr (.inr ⟨_, Lead.ofByte_four b h h', .inr (.inr ⟨h, h', rfl⟩)⟩)

/-! ## Single steps -/

theorem Scan.step_scalar (done : List Chunk) (b : UInt8) (c : Char)
    (h : Lead.ofByte b = .scalar c) : Scan.step ⟨done, none⟩ b = ⟨.scalar c :: done, none⟩ := by
  simp [Scan.step, Scan.lead, h]

theorem Scan.step_opening (done : List Chunk) (b : UInt8) (o : Opening)
    (h : Lead.ofByte b = .opening o) : Scan.step ⟨done, none⟩ b = ⟨done, some o⟩ := by
  simp [Scan.step, Scan.lead, h]

theorem Scan.step_malformed (done : List Chunk) (b : UInt8) (h : Lead.ofByte b = .malformed) :
    Scan.step ⟨done, none⟩ b = ⟨.malformed 1 :: done, none⟩ := by
  simp [Scan.step, Scan.lead, h]

theorem Scan.step_last (done : List Chunk) (payload width low high : Nat) (b : UInt8)
    (h : low ≤ b.toNat ∧ b.toNat ≤ high) :
    Scan.step ⟨done, some ⟨payload, width, 1, low, high⟩⟩ b =
      ⟨.scalar (Char.ofNat (payload * 64 + (b.toNat - 0x80))) :: done, none⟩ := by
  exact (if_pos h).trans (if_pos (Nat.le_refl 1))

theorem Scan.step_more (done : List Chunk) (payload width owed low high : Nat) (b : UInt8)
    (h : low ≤ b.toNat ∧ b.toNat ≤ high) :
    Scan.step ⟨done, some ⟨payload, width, owed + 2, low, high⟩⟩ b =
      ⟨done, some ⟨payload * 64 + (b.toNat - 0x80), width + 1, owed + 1, 0x80, 0xBF⟩⟩ := by
  exact (if_pos h).trans (if_neg (show ¬ owed + 2 ≤ 1 by omega))

/-! ## Characters as bytes -/

@[simp] theorem encode_append (xs ys : List Char) : encode (xs ++ ys) = encode xs ++ encode ys := by
  rw [encode, List.flatMap_append]
  rfl

@[simp] theorem encode_cons (c : Char) (cs : List Char) :
    encode (c :: cs) = String.utf8EncodeChar c ++ encode cs := by
  rw [encode, List.flatMap_cons]
  rfl

theorem encodeChar_one (c : Char) (h : c.toNat ≤ 0x7F) :
    String.utf8EncodeChar c = [UInt8.ofNat c.toNat] := by
  unfold String.utf8EncodeChar
  exact if_pos h

theorem encodeChar_two (c : Char) (h : ¬ c.toNat ≤ 0x7F) (h' : c.toNat ≤ 0x7FF) :
    String.utf8EncodeChar c =
      [UInt8.ofNat (c.toNat / 64 % 32 + 192), UInt8.ofNat (c.toNat % 64 + 128)] := by
  unfold String.utf8EncodeChar
  exact (if_neg h).trans (if_pos h')

theorem encodeChar_three (c : Char) (h : ¬ c.toNat ≤ 0x7FF) (h' : c.toNat ≤ 0xFFFF) :
    String.utf8EncodeChar c =
      [UInt8.ofNat (c.toNat / 4096 % 16 + 224), UInt8.ofNat (c.toNat / 64 % 64 + 128),
        UInt8.ofNat (c.toNat % 64 + 128)] := by
  unfold String.utf8EncodeChar
  exact (if_neg (show ¬ c.toNat ≤ 127 by omega)).trans ((if_neg h).trans (if_pos h'))

theorem encodeChar_four (c : Char) (h : ¬ c.toNat ≤ 0xFFFF) :
    String.utf8EncodeChar c =
      [UInt8.ofNat (c.toNat / 262144 % 8 + 240), UInt8.ofNat (c.toNat / 4096 % 64 + 128),
        UInt8.ofNat (c.toNat / 64 % 64 + 128), UInt8.ofNat (c.toNat % 64 + 128)] := by
  unfold String.utf8EncodeChar
  exact (if_neg (show ¬ c.toNat ≤ 127 by omega)).trans
    ((if_neg (show ¬ c.toNat ≤ 2047 by omega)).trans (if_neg h))

/-- The number of bytes grows with the code point at three bounds. -/
theorem toNat_ranges (c : Char) : c.toNat ≤ 0x7F ∨ (¬ c.toNat ≤ 0x7F ∧ c.toNat ≤ 0x7FF) ∨
    (¬ c.toNat ≤ 0x7FF ∧ c.toNat ≤ 0xFFFF) ∨ ¬ c.toNat ≤ 0xFFFF := by
  omega

theorem toNat_eq_of_mem_encodeChar (c : Char) (b : UInt8) (h : b ∈ String.utf8EncodeChar c)
    (hLow : b.toNat < 0x80) : c.toNat = b.toNat := by
  have high : ∀ {n : Nat}, 0x80 ≤ n → n < 256 → b ≠ UInt8.ofNat n := by
    rintro n hn hn' rfl
    rw [toNat_ofNat_byte hn'] at hLow
    omega
  rcases toNat_ranges c with h₁ | ⟨h₁, h₂⟩ | ⟨h₂, h₃⟩ | h₃
  · rw [encodeChar_one c h₁, List.mem_singleton] at h
    rw [h, toNat_ofNat_byte (by omega)]
  · rw [encodeChar_two c h₁ h₂] at h
    simp only [List.mem_cons, List.not_mem_nil, or_false] at h
    rcases h with h | h <;> exact absurd h (high (by omega) (by omega))
  · rw [encodeChar_three c h₂ h₃] at h
    simp only [List.mem_cons, List.not_mem_nil, or_false] at h
    rcases h with h | h | h <;> exact absurd h (high (by omega) (by omega))
  · rw [encodeChar_four c h₃] at h
    simp only [List.mem_cons, List.not_mem_nil, or_false] at h
    rcases h with h | h | h | h <;> exact absurd h (high (by omega) (by omega))

theorem toNat_valid (c : Char) : c.toNat < 0xD800 ∨ 0xDFFF < c.toNat ∧ c.toNat < 0x110000 := c.valid

theorem foldl_step_two (done : List Chunk) (a b : UInt8) (h : 0xC2 ≤ a.toNat)
    (h' : a.toNat < 0xE0) (hb : 0x80 ≤ b.toNat ∧ b.toNat ≤ 0xBF) :
    [a, b].foldl Scan.step ⟨done, none⟩ =
      ⟨.scalar (Char.ofNat ((a.toNat - 0xC0) * 64 + (b.toNat - 0x80))) :: done, none⟩ := by
  rw [List.foldl_cons, List.foldl_cons, List.foldl_nil,
    Scan.step_opening done a _ (Lead.ofByte_two a h h'), Scan.step_last done _ _ _ _ b hb]

theorem foldl_step_three (done : List Chunk) (a b c : UInt8) (h : 0xE0 ≤ a.toNat)
    (h' : a.toNat < 0xF0)
    (hb : (if a.toNat = 0xE0 then 0xA0 else 0x80) ≤ b.toNat ∧
      b.toNat ≤ if a.toNat = 0xED then 0x9F else 0xBF)
    (hc : 0x80 ≤ c.toNat ∧ c.toNat ≤ 0xBF) :
    [a, b, c].foldl Scan.step ⟨done, none⟩ =
      ⟨.scalar (Char.ofNat (((a.toNat - 0xE0) * 64 + (b.toNat - 0x80)) * 64 +
        (c.toNat - 0x80))) :: done, none⟩ := by
  rw [List.foldl_cons, List.foldl_cons, List.foldl_cons, List.foldl_nil,
    Scan.step_opening done a _ (Lead.ofByte_three a h h'),
    Scan.step_more done _ _ 0 _ _ b hb, Scan.step_last done _ _ _ _ c hc]

theorem foldl_step_four (done : List Chunk) (a b c d : UInt8) (h : 0xF0 ≤ a.toNat)
    (h' : a.toNat < 0xF5)
    (hb : (if a.toNat = 0xF0 then 0x90 else 0x80) ≤ b.toNat ∧
      b.toNat ≤ if a.toNat = 0xF4 then 0x8F else 0xBF)
    (hc : 0x80 ≤ c.toNat ∧ c.toNat ≤ 0xBF) (hd : 0x80 ≤ d.toNat ∧ d.toNat ≤ 0xBF) :
    [a, b, c, d].foldl Scan.step ⟨done, none⟩ =
      ⟨.scalar (Char.ofNat ((((a.toNat - 0xF0) * 64 + (b.toNat - 0x80)) * 64 +
        (c.toNat - 0x80)) * 64 + (d.toNat - 0x80))) :: done, none⟩ := by
  rw [List.foldl_cons, List.foldl_cons, List.foldl_cons, List.foldl_cons, List.foldl_nil,
    Scan.step_opening done a _ (Lead.ofByte_four a h h'),
    Scan.step_more done _ _ 1 _ _ b hb, Scan.step_more done _ _ 0 _ _ c hc,
    Scan.step_last done _ _ _ _ d hd]

theorem foldl_step_encodeChar (done : List Chunk) (c : Char) :
    (String.utf8EncodeChar c).foldl Scan.step ⟨done, none⟩ = ⟨.scalar c :: done, none⟩ := by
  have hValid := toNat_valid c
  have hChar := Char.ofNat_toNat c
  rcases toNat_ranges c with h₁ | ⟨h₁, h₂⟩ | ⟨h₂, h₃⟩ | h₃
  · have ha := toNat_ofNat_byte (n := c.toNat) (by omega)
    rw [encodeChar_one c h₁, List.foldl_cons, List.foldl_nil,
      Scan.step_scalar _ _ _ (Lead.ofByte_scalar _ (by omega)), ha, hChar]
  · have ha := toNat_ofNat_byte (n := c.toNat / 64 % 32 + 192) (by omega)
    have hb := toNat_ofNat_byte (n := c.toNat % 64 + 128) (by omega)
    rw [encodeChar_two c h₁ h₂]
    generalize UInt8.ofNat (c.toNat / 64 % 32 + 192) = a at ha
    generalize UInt8.ofNat (c.toNat % 64 + 128) = b at hb
    rw [foldl_step_two done a b (by omega) (by omega) (by omega),
      show (a.toNat - 0xC0) * 64 + (b.toNat - 0x80) = c.toNat by omega, hChar]
  · have ha := toNat_ofNat_byte (n := c.toNat / 4096 % 16 + 224) (by omega)
    have hb := toNat_ofNat_byte (n := c.toNat / 64 % 64 + 128) (by omega)
    have hc := toNat_ofNat_byte (n := c.toNat % 64 + 128) (by omega)
    rw [encodeChar_three c h₂ h₃]
    generalize UInt8.ofNat (c.toNat / 4096 % 16 + 224) = x at ha
    generalize UInt8.ofNat (c.toNat / 64 % 64 + 128) = y at hb
    generalize UInt8.ofNat (c.toNat % 64 + 128) = z at hc
    rw [foldl_step_three done x y z (by omega) (by omega) (by split <;> split <;> omega) (by omega),
      show ((x.toNat - 0xE0) * 64 + (y.toNat - 0x80)) * 64 + (z.toNat - 0x80) = c.toNat by omega,
      hChar]
  · have ha := toNat_ofNat_byte (n := c.toNat / 262144 % 8 + 240) (by omega)
    have hb := toNat_ofNat_byte (n := c.toNat / 4096 % 64 + 128) (by omega)
    have hc := toNat_ofNat_byte (n := c.toNat / 64 % 64 + 128) (by omega)
    have hd := toNat_ofNat_byte (n := c.toNat % 64 + 128) (by omega)
    rw [encodeChar_four c h₃]
    generalize UInt8.ofNat (c.toNat / 262144 % 8 + 240) = x at ha
    generalize UInt8.ofNat (c.toNat / 4096 % 64 + 128) = y at hb
    generalize UInt8.ofNat (c.toNat / 64 % 64 + 128) = z at hc
    generalize UInt8.ofNat (c.toNat % 64 + 128) = w at hd
    rw [foldl_step_four done x y z w (by omega) (by omega) (by split <;> split <;> omega) (by omega)
        (by omega),
      show (((x.toNat - 0xF0) * 64 + (y.toNat - 0x80)) * 64 + (z.toNat - 0x80)) * 64 +
        (w.toNat - 0x80) = c.toNat by omega, hChar]

theorem foldl_step_encode (done : List Chunk) (cs : List Char) :
    (encode cs).foldl Scan.step ⟨done, none⟩ = ⟨(cs.map Chunk.scalar).reverse ++ done, none⟩ := by
  induction cs generalizing done with
  | nil => rfl
  | cons c cs ih =>
    rw [encode, List.flatMap_cons, List.foldl_append, foldl_step_encodeChar]
    simpa [encode] using ih (.scalar c :: done)

theorem chunks_encode (cs : List Char) : chunks (encode cs) = cs.map Chunk.scalar := by
  rw [chunks, Scan.start, foldl_step_encode]
  simp [Scan.finish]

theorem decodeLenient_encode (cs : List Char) : decodeLenient (encode cs) = cs := by
  rw [decodeLenient, chunks_encode, List.map_map]
  exact List.map_id cs

theorem strictFrom_map_scalar (size : Nat) (read cs : List Char) :
    strictFrom size read (cs.map Chunk.scalar) = .ok (read.reverse ++ cs) := by
  induction cs generalizing size read with
  | nil => simp [strictFrom]
  | cons c cs ih => simp [strictFrom, ih]

theorem decode_encode (cs : List Char) : decode (encode cs) = .ok cs := by
  rw [decode, chunks_encode, strictFrom_map_scalar]
  rfl

theorem encode_injective {xs ys : List Char} (h : encode xs = encode ys) : xs = ys := by
  have hDecode := decode_encode xs
  rw [h, decode_encode] at hDecode
  exact (Except.ok.inj hDecode).symm

/-! ## What decoding accepts -/

theorem Lead.ofByte_eq_scalar (b : UInt8) (c : Char) (h : Lead.ofByte b = .scalar c) :
    b.toNat < 0x80 ∧ c = Char.ofNat b.toNat := by
  rcases Lead.ofByte_cases b with ⟨hb, hLead⟩ | hLead | ⟨o, hLead, _⟩
  · rw [hLead] at h
    exact ⟨hb, (Lead.scalar.inj h).symm⟩
  · rw [hLead] at h
    cases h
  · rw [hLead] at h
    cases h

theorem Lead.ofByte_eq_opening (b : UInt8) (o : Opening) (h : Lead.ofByte b = .opening o) :
    o.Starts b := by
  rcases Lead.ofByte_cases b with ⟨_, hLead⟩ | hLead | ⟨p, hLead, hStarts⟩
  · rw [hLead] at h
    cases h
  · rw [hLead] at h
    cases h
  · rw [hLead] at h
    obtain rfl := Lead.opening.inj h
    exact hStarts

/-- The bytes of a character that is still open. -/
inductive Opens : List UInt8 → Opening → Prop
  | lead (b : UInt8) (o : Opening) : Lead.ofByte b = .opening o → Opens [b] o
  | more (xs : List UInt8) (o : Opening) (b : UInt8) : Opens xs o → o.Allows b → 1 < o.owed →
      Opens (xs ++ [b]) ⟨o.join b, o.width + 1, o.owed - 1, 0x80, 0xBF⟩

theorem Opens.owed_bounds {xs : List UInt8} {o : Opening} (h : Opens xs o) :
    1 ≤ o.owed ∧ o.owed ≤ 3 := by
  induction h with
  | lead b o h =>
    rcases Lead.ofByte_eq_opening b o h with ⟨_, _, rfl⟩ | ⟨_, _, rfl⟩ | ⟨_, _, rfl⟩ <;> simp
  | more xs o b _ _ hOwed ih =>
    simp only
    omega

theorem toNat_ofNat_char {n : Nat} (h : n < 0xD800 ∨ 0xDFFF < n ∧ n < 0x110000) :
    (Char.ofNat n).toNat = n := by
  rw [Char.ofNat, dif_pos (show n.isValidChar from h)]
  rfl

theorem eq_ofNat_byte (b : UInt8) {n : Nat} (h : b.toNat = n) : b = UInt8.ofNat n := by
  rw [← h, UInt8.ofNat_toNat]

theorem bytes_two (a b : UInt8) (h : 0xC2 ≤ a.toNat) (h' : a.toNat < 0xE0)
    (hb : 0x80 ≤ b.toNat ∧ b.toNat ≤ 0xBF) :
    [a, b] = String.utf8EncodeChar (Char.ofNat ((a.toNat - 0xC0) * 64 + (b.toNat - 0x80))) := by
  have hn := toNat_ofNat_char (n := (a.toNat - 0xC0) * 64 + (b.toNat - 0x80)) (by omega)
  rw [encodeChar_two _ (by omega) (by omega), hn]
  rw [← eq_ofNat_byte a (by omega), ← eq_ofNat_byte b (by omega)]

theorem bytes_three (a b c : UInt8) (h : 0xE0 ≤ a.toNat) (h' : a.toNat < 0xF0)
    (hb : (if a.toNat = 0xE0 then 0xA0 else 0x80) ≤ b.toNat ∧
      b.toNat ≤ if a.toNat = 0xED then 0x9F else 0xBF)
    (hc : 0x80 ≤ c.toNat ∧ c.toNat ≤ 0xBF) :
    [a, b, c] = String.utf8EncodeChar (Char.ofNat
      (((a.toNat - 0xE0) * 64 + (b.toNat - 0x80)) * 64 + (c.toNat - 0x80))) := by
  have hLow : 0x80 ≤ b.toNat ∧ (a.toNat = 0xE0 → 0xA0 ≤ b.toNat) := by
    split at hb <;> omega
  have hHigh : b.toNat ≤ 0xBF ∧ (a.toNat = 0xED → b.toNat ≤ 0x9F) := by
    have := hb.2
    split at this <;> omega
  have hn := toNat_ofNat_char
    (n := ((a.toNat - 0xE0) * 64 + (b.toNat - 0x80)) * 64 + (c.toNat - 0x80)) (by omega)
  rw [encodeChar_three _ (by omega) (by omega), hn]
  rw [← eq_ofNat_byte a (by omega), ← eq_ofNat_byte b (by omega), ← eq_ofNat_byte c (by omega)]

theorem bytes_four (a b c d : UInt8) (h : 0xF0 ≤ a.toNat) (h' : a.toNat < 0xF5)
    (hb : (if a.toNat = 0xF0 then 0x90 else 0x80) ≤ b.toNat ∧
      b.toNat ≤ if a.toNat = 0xF4 then 0x8F else 0xBF)
    (hc : 0x80 ≤ c.toNat ∧ c.toNat ≤ 0xBF) (hd : 0x80 ≤ d.toNat ∧ d.toNat ≤ 0xBF) :
    [a, b, c, d] = String.utf8EncodeChar (Char.ofNat
      ((((a.toNat - 0xF0) * 64 + (b.toNat - 0x80)) * 64 + (c.toNat - 0x80)) * 64 +
        (d.toNat - 0x80))) := by
  have hLow : 0x80 ≤ b.toNat ∧ (a.toNat = 0xF0 → 0x90 ≤ b.toNat) := by
    split at hb <;> omega
  have hHigh : b.toNat ≤ 0xBF ∧ (a.toNat = 0xF4 → b.toNat ≤ 0x8F) := by
    have := hb.2
    split at this <;> omega
  have hn := toNat_ofNat_char (n := (((a.toNat - 0xF0) * 64 + (b.toNat - 0x80)) * 64 +
    (c.toNat - 0x80)) * 64 + (d.toNat - 0x80)) (by omega)
  rw [encodeChar_four _ (by omega), hn]
  rw [← eq_ofNat_byte a (by omega), ← eq_ofNat_byte b (by omega), ← eq_ofNat_byte c (by omega),
    ← eq_ofNat_byte d (by omega)]

theorem Opens.closes {xs : List UInt8} {o : Opening} (h : Opens xs o) (b : UInt8)
    (hAllows : o.Allows b) (hOwed : o.owed ≤ 1) :
    xs ++ [b] = String.utf8EncodeChar (Char.ofNat (o.join b)) := by
  cases h with
  | lead a o h =>
    rcases Lead.ofByte_eq_opening a o h with ⟨h₁, h₂, rfl⟩ | ⟨_, _, rfl⟩ | ⟨_, _, rfl⟩
    · exact bytes_two a b h₁ h₂ hAllows
    · exact absurd hOwed (by simp)
    · exact absurd hOwed (by simp)
  | more ys p c hp hc hp1 =>
    simp only at hOwed
    cases hp with
    | lead a p h =>
      rcases Lead.ofByte_eq_opening a p h with ⟨_, _, rfl⟩ | ⟨h₁, h₂, rfl⟩ | ⟨_, _, rfl⟩
      · exact absurd hp1 (by simp)
      · exact bytes_three a c b h₁ h₂ hc hAllows
      · exact absurd hOwed (by simp)
    | more zs q d hq hd hq1 =>
      simp only at hOwed hp1
      cases hq with
      | lead a q h =>
        rcases Lead.ofByte_eq_opening a q h with ⟨_, _, rfl⟩ | ⟨_, _, rfl⟩ | ⟨h₁, h₂, rfl⟩
        · exact absurd hq1 (by simp)
        · exact absurd hp1 (by simp)
        · exact bytes_four a d c b h₁ h₂ hd hc hAllows
      | more ws r e hr he hr1 =>
        have := hr.owed_bounds
        simp only at hOwed hp1 hq1
        omega

/-- What is open after the bytes `xs`. -/
def Pending (xs : List UInt8) : Option Opening → Prop
  | none => xs = []
  | some o => Opens xs o

theorem Scan.mem_step (s : Scan) (b : UInt8) (k : Chunk) (h : k ∈ s.done) :
    k ∈ (s.step b).done := by
  have hLead : ∀ done : List Chunk, k ∈ done → k ∈ (Scan.lead done b).done := by
    intro done hDone
    simp only [Scan.lead]
    split
    · exact List.mem_cons_of_mem _ hDone
    · exact hDone
    · exact List.mem_cons_of_mem _ hDone
  simp only [Scan.step]
  split
  · exact hLead _ h
  · split
    · split
      · exact List.mem_cons_of_mem _ h
      · exact h
    · exact hLead _ (List.mem_cons_of_mem _ h)

theorem Scan.mem_foldl (bytes : List UInt8) (s : Scan) (k : Chunk) (h : k ∈ s.done) :
    k ∈ (bytes.foldl Scan.step s).done := by
  induction bytes generalizing s with
  | nil => exact h
  | cons b bytes ih => exact ih (s.step b) (s.mem_step b k h)

theorem Scan.mem_finish (s : Scan) (k : Chunk) (h : k ∈ s.done) : k ∈ s.finish := by
  rw [Scan.finish]
  split <;> simp [h]

theorem Scan.malformed_mem_step (done : List Chunk) (o : Opening) (b : UInt8)
    (h : ¬ o.Allows b) : .malformed o.width ∈ (Scan.step ⟨done, some o⟩ b).done := by
  have hStep : Scan.step ⟨done, some o⟩ b = Scan.step ⟨.malformed o.width :: done, none⟩ b := by
    simp [Scan.step, h]
  rw [hStep]
  exact Scan.mem_step _ _ _ List.mem_cons_self

/-- A step that adds no ill-formed part adds its byte to the text or to the open character. -/
theorem Scan.step_scalars (cs : List Char) (xs : List UInt8) (current : Option Opening) (b : UInt8)
    (hPending : Pending xs current)
    (h : ∀ k ∈ (Scan.step ⟨(cs.map Chunk.scalar).reverse, current⟩ b).done, ∃ c, k = .scalar c) :
    ∃ cs' xs' current',
      Scan.step ⟨(cs.map Chunk.scalar).reverse, current⟩ b =
        ⟨(cs'.map Chunk.scalar).reverse, current'⟩ ∧
      encode cs ++ xs ++ [b] = encode cs' ++ xs' ∧ Pending xs' current' := by
  cases current with
  | none =>
    rw [show xs = [] from hPending]
    cases hLead : Lead.ofByte b with
    | scalar c =>
      obtain ⟨hb, rfl⟩ := Lead.ofByte_eq_scalar b c hLead
      have hn := toNat_ofNat_char (n := b.toNat) (by omega)
      refine ⟨cs ++ [Char.ofNat b.toNat], [], none, ?_, ?_, rfl⟩
      · rw [Scan.step_scalar _ _ _ hLead]
        simp
      · simp [encode, encodeChar_one (Char.ofNat b.toNat) (by omega), hn]
    | opening o =>
      refine ⟨cs, [b], some o, Scan.step_opening _ _ _ hLead, by simp, Opens.lead b o hLead⟩
    | malformed =>
      obtain ⟨c, hc⟩ := h (.malformed 1) (by simp [Scan.step, Scan.lead, hLead])
      cases hc
  | some o =>
    by_cases hAllows : o.Allows b
    · by_cases hOwed : o.owed ≤ 1
      · refine ⟨cs ++ [Char.ofNat (o.join b)], [], none, ?_, ?_, rfl⟩
        · simp [Scan.step, hAllows, hOwed]
        · have hClose := Opens.closes hPending b hAllows hOwed
          simp [encode, ← hClose]
      · refine ⟨cs, xs ++ [b], some ⟨o.join b, o.width + 1, o.owed - 1, 0x80, 0xBF⟩, ?_, by simp,
          Opens.more xs o b hPending hAllows (by omega)⟩
        simp [Scan.step, hAllows, hOwed]
    · obtain ⟨c, hc⟩ := h _ (Scan.malformed_mem_step _ o b hAllows)
      cases hc

theorem Scan.foldl_scalars (bytes : List UInt8) (cs : List Char) (xs : List UInt8)
    (current : Option Opening) (hPending : Pending xs current)
    (h : ∀ k ∈ (bytes.foldl Scan.step ⟨(cs.map Chunk.scalar).reverse, current⟩).done,
      ∃ c, k = .scalar c) :
    ∃ cs' xs' current',
      bytes.foldl Scan.step ⟨(cs.map Chunk.scalar).reverse, current⟩ =
        ⟨(cs'.map Chunk.scalar).reverse, current'⟩ ∧
      encode cs ++ xs ++ bytes = encode cs' ++ xs' ∧ Pending xs' current' := by
  induction bytes generalizing cs xs current with
  | nil => exact ⟨cs, xs, current, rfl, by simp, hPending⟩
  | cons b bytes ih =>
    obtain ⟨cs₁, xs₁, current₁, hStep, hBytes, hPending₁⟩ := Scan.step_scalars cs xs current b
      hPending fun k hk => h k (Scan.mem_foldl bytes _ k hk)
    rw [List.foldl_cons, hStep] at h
    obtain ⟨cs₂, xs₂, current₂, hFold, hBytes₂, hPending₂⟩ := ih cs₁ xs₁ current₁ hPending₁ h
    refine ⟨cs₂, xs₂, current₂, by rw [List.foldl_cons, hStep, hFold], ?_, hPending₂⟩
    rw [← hBytes₂, ← hBytes]
    simp

theorem eq_map_scalar_of_strictFrom (size : Nat) (read : List Char) (parts : List Chunk)
    (cs : List Char) (h : strictFrom size read parts = .ok cs) :
    ∃ rest, parts = rest.map Chunk.scalar ∧ cs = read.reverse ++ rest := by
  induction parts generalizing size read with
  | nil => exact ⟨[], rfl, by simpa [strictFrom] using h.symm⟩
  | cons k parts ih =>
    cases k with
    | scalar c =>
      obtain ⟨rest, rfl, rfl⟩ := ih _ _ h
      exact ⟨c :: rest, rfl, by simp⟩
    | malformed width => cases h
    | cutShort width => cases h

theorem eq_encode_of_decode (bytes : List UInt8) (cs : List Char) (h : decode bytes = .ok cs) :
    bytes = encode cs := by
  obtain ⟨rest, hChunks, hText⟩ := eq_map_scalar_of_strictFrom 0 [] (chunks bytes) cs h
  have hScalar : ∀ k ∈ chunks bytes, ∃ c, k = Chunk.scalar c := by
    intro k hk
    rw [hChunks] at hk
    obtain ⟨c, _, rfl⟩ := List.mem_map.mp hk
    exact ⟨c, rfl⟩
  obtain ⟨cs', xs, current, hFold, hBytes, hPending⟩ :=
    Scan.foldl_scalars bytes [] [] none rfl fun k hk => hScalar k (Scan.mem_finish _ k hk)
  change bytes.foldl Scan.step Scan.start = _ at hFold
  rw [chunks, hFold] at hChunks hScalar
  cases current with
  | none =>
    have hRest : cs' = rest := by
      simp only [Scan.finish, List.reverse_reverse] at hChunks
      exact List.map_inj_right (fun a b hab => Chunk.scalar.inj hab) |>.mp hChunks
    rw [show xs = [] from hPending, List.append_nil] at hBytes
    rw [hText, ← hRest]
    simpa [encode] using hBytes
  | some o =>
    obtain ⟨c, hc⟩ := hScalar (.cutShort o.width) (by simp [Scan.finish])
    cases hc

theorem decode_eq_ok_iff (bytes : List UInt8) (cs : List Char) :
    decode bytes = .ok cs ↔ bytes = encode cs :=
  ⟨eq_encode_of_decode bytes cs, fun h => h ▸ decode_encode cs⟩

/-! ## Bytes between texts -/

theorem exists_lead_of_encodeChar (c : Char) : ∃ b rest, String.utf8EncodeChar c = b :: rest ∧
    (b.toNat < 0x80 ∨ 0xC0 ≤ b.toNat) := by
  rcases toNat_ranges c with h₁ | ⟨h₁, h₂⟩ | ⟨h₂, h₃⟩ | h₃
  · refine ⟨_, _, encodeChar_one c h₁, .inl ?_⟩
    rw [toNat_ofNat_byte (by omega)]
    omega
  · refine ⟨_, _, encodeChar_two c h₁ h₂, .inr ?_⟩
    rw [toNat_ofNat_byte (by omega)]
    omega
  · refine ⟨_, _, encodeChar_three c h₂ h₃, .inr ?_⟩
    rw [toNat_ofNat_byte (by omega)]
    omega
  · refine ⟨_, _, encodeChar_four c h₃, .inr ?_⟩
    rw [toNat_ofNat_byte (by omega)]
    omega

theorem Opening.Starts.not_allows {o : Opening} {a b : UInt8} (h : o.Starts a)
    (hLead : b.toNat < 0x80 ∨ 0xC0 ≤ b.toNat) : ¬ o.Allows b := by
  rintro ⟨hLow, hHigh⟩
  rcases h with ⟨_, _, rfl⟩ | ⟨_, _, rfl⟩ | ⟨_, _, rfl⟩
  · simp only at hLow hHigh
    omega
  · simp only at hLow hHigh
    split at hLow <;> split at hHigh <;> omega
  · simp only at hLow hHigh
    split at hLow <;> split at hHigh <;> omega

/-- One byte between two texts makes a text of them only if it is a character of its own. -/
theorem exists_char_of_encode_eq {cs before after : List Char} {b : UInt8}
    (h : encode cs = encode before ++ b :: encode after) :
    ∃ c, String.utf8EncodeChar c = [b] ∧ cs = before ++ c :: after := by
  have hScalar : ∀ k ∈ chunks (encode cs), ∃ c, k = .scalar c := by
    intro k hk
    rw [chunks_encode] at hk
    obtain ⟨c, _, hc⟩ := List.mem_map.mp hk
    exact ⟨c, hc.symm⟩
  rw [h, chunks, List.foldl_append, Scan.start, foldl_step_encode, List.foldl_cons] at hScalar
  -- Unless the byte is a character, some chunk is malformed: at once, or where the text behind it
  -- begins or ends without a continuation byte.
  rcases Lead.ofByte_cases b with ⟨hb, hLead⟩ | hLead | ⟨o, hLead, hStarts⟩
  · have hCode := toNat_ofNat_char (n := b.toNat) (by omega)
    have hBytes : String.utf8EncodeChar (Char.ofNat b.toNat) = [b] := by
      rw [encodeChar_one _ (by omega), hCode, UInt8.ofNat_toNat]
    refine ⟨_, hBytes, encode_injective ?_⟩
    rw [h, encode_append, encode_cons, hBytes, List.singleton_append]
  · rw [Scan.step_malformed _ _ hLead] at hScalar
    obtain ⟨c, hc⟩ := hScalar (.malformed 1)
      (Scan.mem_finish _ _ (Scan.mem_foldl _ _ _ List.mem_cons_self))
    cases hc
  · rw [Scan.step_opening _ _ _ hLead] at hScalar
    cases after with
    | nil =>
      obtain ⟨c, hc⟩ := hScalar (.cutShort o.width) (by simp [encode, Scan.finish])
      cases hc
    | cons d after =>
      obtain ⟨a, rest, hFirst, hRange⟩ := exists_lead_of_encodeChar d
      rw [encode_cons, hFirst, List.cons_append, List.foldl_cons] at hScalar
      obtain ⟨c, hc⟩ := hScalar (.malformed o.width) (Scan.mem_finish _ _ (Scan.mem_foldl _ _ _
        (Scan.malformed_mem_step _ _ _ (hStarts.not_allows hRange))))
      cases hc

end PathSieve.Text
