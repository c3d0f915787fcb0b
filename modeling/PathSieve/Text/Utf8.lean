/-!
# UTF-8

`encode` writes characters as bytes. `chunks` cuts any byte sequence into whole characters and
ill-formed parts, where an ill-formed part is as long as a character could still have begun with
it, and at least one byte. The strict decoder stops at the first ill-formed part; the lenient one
puts a replacement character in its place.
-/

namespace PathSieve.Text

set_option autoImplicit false

def encode (cs : List Char) : List UInt8 := cs.flatMap String.utf8EncodeChar

def byteSize (cs : List Char) : Nat := cs.foldl (fun n c => n + c.utf8Size) 0

theorem foldl_utf8Size (n : Nat) (cs : List Char) :
    cs.foldl (fun n c => n + c.utf8Size) n = n + byteSize cs := by
  induction cs generalizing n with
  | nil => rfl
  | cons c cs ih =>
    rw [byteSize, List.foldl_cons, List.foldl_cons, ih, ih (0 + c.utf8Size)]
    omega

@[simp] theorem byteSize_nil : byteSize [] = 0 := rfl

@[simp] theorem byteSize_cons (c : Char) (cs : List Char) :
    byteSize (c :: cs) = c.utf8Size + byteSize cs := by
  rw [byteSize, List.foldl_cons, foldl_utf8Size]
  omega

@[simp] theorem byteSize_append (xs ys : List Char) :
    byteSize (xs ++ ys) = byteSize xs + byteSize ys := by
  rw [byteSize, List.foldl_append, foldl_utf8Size]
  rfl

theorem utf8ByteSize_ofList (cs : List Char) :
    (String.ofList cs).utf8ByteSize = byteSize cs := by
  induction cs with
  | nil => rfl
  | cons c cs ih =>
    rw [String.ofList_cons, String.utf8ByteSize_append, String.utf8ByteSize_singleton, ih,
      byteSize_cons]

/-- The positions of a text are the sizes of what can stand in front. -/
theorem isValid_ofList_iff (cs : List Char) (offset : Nat) :
    (⟨offset⟩ : String.Pos.Raw).IsValid (String.ofList cs) ↔
      ∃ front back, cs = front ++ back ∧ byteSize front = offset := by
  simp only [String.Pos.Raw.isValid_ofList, utf8ByteSize_ofList]
  constructor
  · rintro ⟨i, hSize⟩
    exact ⟨cs.take i, cs.drop i, (List.take_append_drop i cs).symm, hSize.symm⟩
  · rintro ⟨front, back, rfl, rfl⟩
    exact ⟨front.length, by rw [List.take_left' rfl]⟩

/-- A part of a byte sequence: a character, or `width` bytes that begin none. The part is cut
short where the bytes end before the character they begin. -/
inductive Chunk
  | scalar (c : Char)
  | malformed (width : Nat)
  | cutShort (width : Nat)
  deriving DecidableEq, Inhabited

/-- The bytes of a character read so far: their payload, how many bytes they are, how many more
are owed, and the bounds of the next one. -/
structure Opening where
  payload : Nat
  width : Nat
  owed : Nat
  low : Nat
  high : Nat
  deriving DecidableEq

inductive Lead
  | scalar (c : Char)
  | opening (o : Opening)
  | malformed

/-- The bounds of the second byte leave out overlong forms, surrogates and values above the last
code point. -/
def Lead.ofByte (b : UInt8) : Lead :=
  let n := b.toNat
  if n < 0x80 then .scalar (Char.ofNat n)
  else if n < 0xC2 then .malformed
  else if n < 0xE0 then .opening ⟨n - 0xC0, 1, 1, 0x80, 0xBF⟩
  else if n < 0xF0 then
    .opening ⟨n - 0xE0, 1, 2, if n = 0xE0 then 0xA0 else 0x80, if n = 0xED then 0x9F else 0xBF⟩
  else if n < 0xF5 then
    .opening ⟨n - 0xF0, 1, 3, if n = 0xF0 then 0x90 else 0x80, if n = 0xF4 then 0x8F else 0xBF⟩
  else .malformed

/-- The chunks read so far, last one first, and the character that is still open. -/
structure Scan where
  done : List Chunk
  current : Option Opening

def Scan.start : Scan := ⟨[], none⟩

def Scan.lead (done : List Chunk) (b : UInt8) : Scan :=
  match Lead.ofByte b with
  | .scalar c => ⟨.scalar c :: done, none⟩
  | .opening o => ⟨done, some o⟩
  | .malformed => ⟨.malformed 1 :: done, none⟩

def Opening.Allows (o : Opening) (b : UInt8) : Prop := o.low ≤ b.toNat ∧ b.toNat ≤ o.high

instance (o : Opening) (b : UInt8) : Decidable (o.Allows b) :=
  inferInstanceAs (Decidable (_ ∧ _))

/-- Six bits of each later byte belong to the payload. -/
def Opening.join (o : Opening) (b : UInt8) : Nat := o.payload * 64 + (b.toNat - 0x80)

/-- A byte out of bounds ends the open part and is read again as a first byte. -/
def Scan.step (s : Scan) (b : UInt8) : Scan :=
  match s.current with
  | none => Scan.lead s.done b
  | some o =>
    if o.Allows b then
      if o.owed ≤ 1 then ⟨.scalar (Char.ofNat (o.join b)) :: s.done, none⟩
      else ⟨s.done, some ⟨o.join b, o.width + 1, o.owed - 1, 0x80, 0xBF⟩⟩
    else Scan.lead (.malformed o.width :: s.done) b

def Scan.finish (s : Scan) : List Chunk :=
  match s.current with
  | none => s.done.reverse
  | some o => (.cutShort o.width :: s.done).reverse

def chunks (bytes : List UInt8) : List Chunk := (bytes.foldl Scan.step Scan.start).finish

/-- Reading goes on where it stopped, whatever the split. -/
theorem chunks_append (xs ys : List UInt8) :
    chunks (xs ++ ys) = (ys.foldl Scan.step (xs.foldl Scan.step Scan.start)).finish := by
  simp [chunks]

def replacement : Char := '\uFFFD'

def Chunk.lenient : Chunk → Char
  | .scalar c => c
  | .malformed _ => replacement
  | .cutShort _ => replacement

def decodeLenient (bytes : List UInt8) : List Char := (chunks bytes).map Chunk.lenient

/-- Where a byte sequence stops being UTF-8. The width is absent where the bytes end within a
character. -/
structure Utf8Fault where
  validUpTo : Nat
  width : Option Nat
  deriving DecidableEq

def strictFrom (size : Nat) (read : List Char) : List Chunk → Except Utf8Fault (List Char)
  | [] => .ok read.reverse
  | .scalar c :: rest => strictFrom (size + c.utf8Size) (c :: read) rest
  | .malformed width :: _ => .error ⟨size, some width⟩
  | .cutShort _ :: _ => .error ⟨size, none⟩

def decode (bytes : List UInt8) : Except Utf8Fault (List Char) := strictFrom 0 [] (chunks bytes)

def Utf8Fault.message (fault : Utf8Fault) : String :=
  match fault.width with
  | some width =>
    "invalid utf-8 sequence of " ++ toString width ++ " bytes from index " ++
      toString fault.validUpTo
  | none => "incomplete utf-8 byte sequence from index " ++ toString fault.validUpTo

end PathSieve.Text
