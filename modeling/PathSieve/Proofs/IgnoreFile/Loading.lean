import PathSieve.IgnoreFile
import PathSieve.Proofs.Rulebook.Lines
import PathSieve.Text.Utf8.Lemmas

/-!
# Outcomes of loading

What reading the ignore file gives is one of four things: no file, another fault, a text, or bytes
that are no text. `loadThrough_outcomes` states what becomes of each, that a failure leaves nothing
behind, and that waiting for the file changes nothing.
-/

namespace PathSieve

open Text

set_option autoImplicit false

namespace Settings

theorem rulebook_congr (settings : Settings) {lines other : List String}
    (h : (Rulebook.compileLines lines).value = (Rulebook.compileLines other).value) :
    (settings.rulebook lines).value = (settings.rulebook other).value := by
  rw [rulebook, rulebook]
  split
  · rw [Rulebook.withBuiltins_value, Rulebook.withBuiltins_value, h]
  · rw [Rulebook.ofLines_value, Rulebook.ofLines_value, h]

theorem builtinCount_rulebook (settings : Settings) (lines other : List String) :
    (settings.rulebook lines).value.builtinCount =
      (settings.rulebook other).value.builtinCount := by
  rw [rulebook, rulebook]
  split <;> rfl

end Settings

namespace IgnoreFile

/-! ## One outcome at a time -/

theorem decode_cases (bytes : List UInt8) :
    (∃ text, bytes = encode text) ∨
      (∃ fault, decode bytes = .error fault) ∧ ∀ text, bytes ≠ encode text := by
  cases hDecode : decode bytes with
  | ok text => exact .inl ⟨text, (decode_eq_ok_iff bytes text).mp hDecode⟩
  | error fault =>
    refine .inr ⟨⟨fault, rfl⟩, ?_⟩
    rintro text rfl
    rw [decode_encode] at hDecode
    cases hDecode

theorem contents_cases (contents : Except ReadFault (List UInt8)) :
    (∃ fault : ReadFault, fault.isMissing = true ∧ contents = .error fault) ∨
      (∃ fault : ReadFault, fault.isMissing = false ∧ contents = .error fault) ∨
      (∃ text, contents = .ok (encode text)) ∨
      ∃ bytes fault, contents = .ok bytes ∧ decode bytes = .error fault ∧
        ∀ text, bytes ≠ encode text := by
  cases contents with
  | error fault =>
    cases hMissing : fault.isMissing with
    | true => exact .inl ⟨fault, hMissing, rfl⟩
    | false => exact .inr (.inl ⟨fault, hMissing, rfl⟩)
  | ok bytes =>
    rcases decode_cases bytes with ⟨text, rfl⟩ | ⟨⟨fault, hDecode⟩, hText⟩
    · exact .inr (.inr (.inl ⟨text, rfl⟩))
    · exact .inr (.inr (.inr ⟨bytes, fault, rfl, hDecode, hText⟩))

variable (settings : Settings) (place : String)

theorem ofContents_missing {fault : ReadFault} (h : fault.isMissing = true) :
    (ofContents settings place (.error fault)).value = .ok (Sieve.ofSettings settings).value := by
  rw [ofContents, if_pos h]
  rfl

theorem ofContents_unreadable {fault : ReadFault} (h : fault.isMissing = false) :
    ofContents settings place (.error fault) = ⟨.error ⟨place, .unreadable fault⟩, []⟩ := by
  rw [ofContents, if_neg (Bool.eq_false_iff.mp h)]

theorem ofContents_malformed {bytes : List UInt8} {fault : Utf8Fault}
    (h : decode bytes = .error fault) :
    ofContents settings place (.ok bytes) = ⟨.error ⟨place, .notUtf8 fault⟩, []⟩ := by
  rw [ofContents, h]

theorem ofContents_encode (text : List Char) :
    (ofContents settings place (.ok (encode text))).value =
      .ok ⟨(settings.rulebook (patternLines text)).value, true⟩ := by
  rw [ofContents, decode_encode]
  rfl

theorem ofContents_log_of_error {contents : Except ReadFault (List UInt8)} {error : LoadError}
    (h : (ofContents settings place contents).value = .error error) :
    (ofContents settings place contents).log = [] := by
  rcases contents_cases contents with
    ⟨fault, hFault, rfl⟩ | ⟨fault, hFault, rfl⟩ | ⟨text, rfl⟩ | ⟨bytes, fault, rfl, hDecode, _⟩
  · rw [ofContents_missing settings place hFault] at h
    cases h
  · rw [ofContents_unreadable settings place hFault]
  · rw [ofContents_encode] at h
    cases h
  · rw [ofContents_malformed settings place hDecode]

theorem ofContents_notUtf8_iff (bytes : List UInt8) :
    (∃ fault, (ofContents settings place (.ok bytes)).value = .error ⟨place, .notUtf8 fault⟩) ↔
      ∀ text, bytes ≠ encode text := by
  rcases decode_cases bytes with ⟨text, rfl⟩ | ⟨⟨fault, hDecode⟩, hText⟩
  · rw [ofContents_encode]
    constructor
    · rintro ⟨fault, hError⟩
      cases hError
    · intro hText
      exact absurd rfl (hText text)
  · rw [ofContents_malformed settings place hDecode]
    exact iff_of_true ⟨fault, rfl⟩ hText

theorem fileRead_iff (contents : Except ReadFault (List UInt8)) :
    (∃ sieve, (ofContents settings place contents).value = .ok sieve ∧ sieve.fileRead = true) ↔
      ∃ text, contents = .ok (encode text) := by
  rcases contents_cases contents with
    ⟨fault, hFault, rfl⟩ | ⟨fault, hFault, rfl⟩ | ⟨text, rfl⟩ | ⟨bytes, fault, rfl, hDecode, hText⟩
  · rw [ofContents_missing settings place hFault]
    apply iff_of_false
    · rintro ⟨sieve, hSieve, hRead⟩
      rw [← Except.ok.inj hSieve] at hRead
      cases hRead
    · rintro ⟨text, hText⟩
      cases hText
  · rw [ofContents_unreadable settings place hFault]
    apply iff_of_false
    · rintro ⟨sieve, hSieve, _⟩
      cases hSieve
    · rintro ⟨text, hText⟩
      cases hText
  · rw [ofContents_encode]
    exact iff_of_true ⟨_, rfl, rfl⟩ ⟨text, rfl⟩
  · rw [ofContents_malformed settings place hDecode]
    apply iff_of_false
    · rintro ⟨sieve, hSieve, _⟩
      cases hSieve
    · rintro ⟨text, hEq⟩
      exact hText text (Except.ok.inj hEq)

/-! ## Texts without patterns -/

def HasNoPattern (text : List Char) : Prop :=
  ∀ line ∈ patternLines text,
    trim line.toList = [] ∨ Pattern.isComment (trim line.toList) = true

instance : DecidablePred HasNoPattern := fun text =>
  inferInstanceAs (Decidable (∀ line ∈ patternLines text,
    trim line.toList = [] ∨ Pattern.isComment (trim line.toList) = true))

theorem ofContents_of_hasNoPattern {text : List Char} (h : HasNoPattern text) :
    (ofContents settings place (.ok (encode text))).value =
      .ok { (Sieve.ofSettings settings).value with fileRead := true } := by
  have hRules : (Rulebook.compileLines (patternLines text)).value =
      (Rulebook.compileLines []).value := Rulebook.compileLines_of_no_pattern h
  rw [ofContents_encode, settings.rulebook_congr hRules]
  rfl

/-- A missing file leaves what the settings alone give, every other fault and every ill-formed byte
sequence is an error at the joined path, and every text is read line by line. Failures compile nothing. -/
theorem loadThrough_outcomes (read : List Char → Except ReadFault (List UInt8)) (root : String)
    (settings : Settings) :
    (∀ fault, read (path root settings).toList = .error fault →
      (fault.isMissing = true →
        (loadThrough read root settings).value = .ok (Sieve.ofSettings settings).value ∧
          (Sieve.ofSettings settings).value.fileRead = false) ∧
      (fault.isMissing = false →
        (loadThrough read root settings).value =
          .error ⟨path root settings, .unreadable fault⟩)) ∧
    (∀ bytes, read (path root settings).toList = .ok bytes →
      ((∃ fault, (loadThrough read root settings).value =
          .error ⟨path root settings, .notUtf8 fault⟩) ↔ ∀ text, bytes ≠ encode text) ∧
      (∀ text, bytes = encode text →
        (loadThrough read root settings).value =
            .ok (Sieve.ofFile settings (patternLines text)).value ∧
          (Sieve.ofFile settings (patternLines text)).value.fileRead = true ∧
          (Sieve.ofFile settings (patternLines text)).value.rulebook.builtinCount =
            (Sieve.ofSettings settings).value.rulebook.builtinCount)) ∧
    (∀ error, (loadThrough read root settings).value = .error error →
      (loadThrough read root settings).log = []) ∧
    ((∃ sieve, (loadThrough read root settings).value = .ok sieve ∧ sieve.fileRead = true) ↔
      ∃ text, read (path root settings).toList = .ok (encode text)) ∧
    HasNoPattern [] ∧
    (∀ text, read (path root settings).toList = .ok (encode text) → HasNoPattern text →
      (loadThrough read root settings).value =
        .ok { (Sieve.ofSettings settings).value with fileRead := true }) ∧
    ∀ readLater : List Char → Awaited (Except ReadFault (List UInt8)),
      (readLater (path root settings).toList).outcome = read (path root settings).toList →
      (loadAwaiting readLater root settings).outcome = loadThrough read root settings := by
  simp only [loadThrough, loadAwaiting]
  generalize path root settings = place
  refine ⟨?_, ?_, ?_, fileRead_iff settings place _, by decide, ?_, ?_⟩
  · intro fault hRead
    rw [hRead]
    constructor
    · intro hFault
      exact ⟨ofContents_missing settings place hFault, rfl⟩
    · intro hFault
      rw [ofContents_unreadable settings place hFault]
  · intro bytes hRead
    rw [hRead]
    refine ⟨ofContents_notUtf8_iff settings place bytes, ?_⟩
    rintro text rfl
    exact ⟨ofContents_encode settings place text, rfl, settings.builtinCount_rulebook _ _⟩
  · intro error hError
    exact ofContents_log_of_error settings place hError
  · intro text hRead hText
    rw [hRead, ofContents_of_hasNoPattern settings place hText]
  · intro readLater hRead
    rw [Awaited.outcome_map, hRead]

theorem loadThrough_outcomes_kinds :
    FileTree.empty.read (path "w" .standard).toList = .error .notFound ∧
    (loadThrough FileTree.empty.read "w" .standard).value =
      .ok (Sieve.ofSettings .standard).value ∧
    (loadThrough (fun _ => .error (.other "PermissionDenied" "denied")) "w" .standard).value =
      .error ⟨"w/.syncignore", .unreadable (.other "PermissionDenied" "denied")⟩ ∧
    (∀ text, [0x2A, 0x0A, 0xC3] ≠ encode text) ∧
    (loadThrough (fun _ => .ok (encode "*.é".toList)) "w" .standard).value =
      .ok (Sieve.ofFile .standard ["*.é"]).value ∧
    HasNoPattern "\uFEFF# logs\r\n\t\n".toList ∧
    (loadThrough (fun _ => .ok (encode "\uFEFF# logs\r\n\t\n".toList)) "w" .standard).value =
      .ok { (Sieve.ofSettings .standard).value with fileRead := true } ∧
    (loadAwaiting (fun file => .later (.now (FileTree.empty.read file))) "w" .standard).outcome =
      loadThrough FileTree.empty.read "w" .standard := by
  have hMissing : FileTree.empty.read (path "w" .standard).toList = .error .notFound := rfl
  have hBlank : HasNoPattern "\uFEFF# logs\r\n\t\n".toList := by decide
  obtain ⟨hFirst, _, _, _, _, _, hLater⟩ :=
    loadThrough_outcomes FileTree.empty.read "w" .standard
  obtain ⟨hSecond, _⟩ := loadThrough_outcomes
    (fun _ => .error (.other "PermissionDenied" "denied")) "w" .standard
  obtain ⟨_, hThird, _⟩ := loadThrough_outcomes
    (fun _ => .ok [0x2A, 0x0A, 0xC3]) "w" .standard
  obtain ⟨_, hFourth, _⟩ := loadThrough_outcomes
    (fun _ => .ok (encode "*.é".toList)) "w" .standard
  obtain ⟨_, _, _, _, _, hFifth, _⟩ := loadThrough_outcomes
    (fun _ => .ok (encode "\uFEFF# logs\r\n\t\n".toList)) "w" .standard
  exact ⟨hMissing, ((hFirst _ hMissing).1 (by decide)).1, (hSecond _ rfl).2 (by decide),
    (hThird _ rfl).1.mp ⟨⟨2, none⟩, rfl⟩, ((hFourth _ rfl).2 _ rfl).1, hBlank,
    hFifth _ rfl hBlank, hLater _ rfl⟩

end IgnoreFile

end PathSieve
