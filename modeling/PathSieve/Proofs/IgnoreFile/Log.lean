import PathSieve.Proofs.IgnoreFile.Loading
import PathSieve.Proofs.Rulebook.Log

/-!
# The log of loading

A load first logs whether there was a file, and how many lines it had; what follows is the log of
the rulebook. A load that fails logs nothing. `log_accounts_for_lines` states this for every
reader, and for sieves that are built without a file.
-/

namespace PathSieve.IgnoreFile

open Text

set_option autoImplicit false

variable (settings : Settings) (place : String)

theorem ofContents_log_missing {fault : ReadFault} (h : fault.isMissing = true) :
    (ofContents settings place (.error fault)).log =
      .fileMissing place :: (settings.rulebook []).log := by
  rw [ofContents, if_pos h]
  rfl

theorem ofContents_log_encode (text : List Char) :
    (ofContents settings place (.ok (encode text))).log =
      .fileLoaded place (patternLines text).length ::
        (settings.rulebook (patternLines text)).log := by
  rw [ofContents, decode_encode]
  rfl

theorem exists_text_of_ok {bytes : List UInt8} {sieve : Sieve}
    (h : (ofContents settings place (.ok bytes)).value = .ok sieve) :
    ∃ text, bytes = encode text ∧ sieve.rulebook = (settings.rulebook (patternLines text)).value := by
  rcases decode_cases bytes with ⟨text, rfl⟩ | ⟨⟨fault, hDecode⟩, _⟩
  · rw [ofContents_encode] at h
    exact ⟨text, rfl, congrArg Sieve.rulebook (Except.ok.inj h).symm⟩
  · rw [ofContents_malformed settings place hDecode] at h
    cases h

/-- Building a sieve logs the table, each line and the counts. A load logs before them that the
file is missing, or how many lines it has, and nothing at all if it fails. -/
theorem log_accounts_for_lines (settings : Settings) :
    (∀ lines, ∃ front perLine, Rulebook.RecordsBuild settings lines
      (Sieve.ofLines settings lines).value.rulebook front perLine
        (Sieve.ofLines settings lines).log) ∧
    ∀ (read : List Char → Except ReadFault (List UInt8)) (root : String),
      (∀ fault, read (path root settings).toList = .error fault → fault.isMissing = true →
        ∃ sieve front perLine build, (loadThrough read root settings).value = .ok sieve ∧
          Rulebook.RecordsBuild settings [] sieve.rulebook front perLine build ∧
          (loadThrough read root settings).log = .fileMissing (path root settings) :: build) ∧
      (∀ bytes sieve, read (path root settings).toList = .ok bytes →
        (loadThrough read root settings).value = .ok sieve →
        ∃ text front perLine build, bytes = encode text ∧
          Rulebook.RecordsBuild settings (patternLines text) sieve.rulebook front perLine build ∧
          (loadThrough read root settings).log =
            .fileLoaded (path root settings) (perLine.countP Event.isOfLine) :: build) ∧
      (∀ error, (loadThrough read root settings).value = .error error →
        (loadThrough read root settings).log = []) ∧
      ∀ readLater : List Char → Awaited (Except ReadFault (List UInt8)),
        (readLater (path root settings).toList).outcome = read (path root settings).toList →
        (loadAwaiting readLater root settings).outcome = loadThrough read root settings := by
  refine ⟨settings.exists_recordsBuild, ?_⟩
  intro read root
  simp only [loadThrough, loadAwaiting]
  generalize path root settings = place
  refine ⟨?_, ?_, ?_, ?_⟩
  · intro fault hRead hMissing
    obtain ⟨front, perLine, hBuild⟩ := settings.exists_recordsBuild []
    rw [hRead]
    exact ⟨_, front, perLine, _, ofContents_missing settings place hMissing, hBuild,
      ofContents_log_missing settings place hMissing⟩
  · intro bytes sieve hRead hSieve
    rw [hRead] at hSieve ⊢
    obtain ⟨text, rfl, hRules⟩ := exists_text_of_ok settings place hSieve
    obtain ⟨front, perLine, hBuild⟩ := settings.exists_recordsBuild (patternLines text)
    refine ⟨text, front, perLine, _, rfl, by rwa [hRules], ?_⟩
    rw [ofContents_log_encode, hBuild.eachLine.countP_isOfLine]
  · intro error hError
    exact ofContents_log_of_error settings place hError
  · intro readLater hRead
    rw [Awaited.outcome_map, hRead]

theorem log_accounts_for_lines_kinds :
    FileTree.empty.read (path "w" .standard).toList = .error .notFound ∧
    (∃ sieve front perLine build,
      (loadThrough FileTree.empty.read "w" .standard).value = .ok sieve ∧
        Rulebook.RecordsBuild .standard [] sieve.rulebook front perLine build ∧
        (loadThrough FileTree.empty.read "w" .standard).log =
          .fileMissing "w/.syncignore" :: build) ∧
    (loadThrough (fun _ => .ok (encode "# é\r\n !b/\n".toList)) "w" ⟨"x", false⟩).value =
      .ok (Sieve.ofFile ⟨"x", false⟩ ["# é", " !b/"]).value ∧
    (∃ text front perLine build, encode "# é\r\n !b/\n".toList = encode text ∧
      Rulebook.RecordsBuild ⟨"x", false⟩ (patternLines text)
        (Sieve.ofFile ⟨"x", false⟩ ["# é", " !b/"]).value.rulebook front perLine build ∧
      [.fileLoaded "w/x" 2, .lineSkipped 1, .ruleCompiled "!b/" 2 true true, .rulebookBuilt 0 1] =
        .fileLoaded "w/x" (perLine.countP Event.isOfLine) :: build) ∧
    (loadThrough (fun _ => .ok [0x2A, 0x0A, 0xC3]) "w" .standard).log = [] ∧
    (loadAwaiting (fun file => .later (.now (FileTree.empty.read file))) "w" .standard).outcome =
      loadThrough FileTree.empty.read "w" .standard := by
  have hMissing : FileTree.empty.read (path "w" .standard).toList = .error .notFound := rfl
  have hValue : (loadThrough (fun _ => .ok (encode "# é\r\n !b/\n".toList)) "w"
      ⟨"x", false⟩).value = .ok (Sieve.ofFile ⟨"x", false⟩ ["# é", " !b/"]).value := rfl
  have hLog : (loadThrough (fun _ => .ok (encode "# é\r\n !b/\n".toList)) "w"
      ⟨"x", false⟩).log = [.fileLoaded "w/x" 2, .lineSkipped 1, .ruleCompiled "!b/" 2 true true,
        .rulebookBuilt 0 1] := by decide
  obtain ⟨_, hStandard⟩ := log_accounts_for_lines .standard
  obtain ⟨_, hAlone⟩ := log_accounts_for_lines ⟨"x", false⟩
  obtain ⟨hFirst, _, _, hLater⟩ := hStandard FileTree.empty.read "w"
  obtain ⟨_, _, hFailed, _⟩ := hStandard (fun _ => .ok [0x2A, 0x0A, 0xC3]) "w"
  obtain ⟨_, hRead, _, _⟩ := hAlone (fun _ => .ok (encode "# é\r\n !b/\n".toList)) "w"
  refine ⟨hMissing, hFirst _ hMissing rfl, hValue, ?_, hFailed _ rfl, hLater _ rfl⟩
  rw [← hLog]
  exact hRead _ _ rfl hValue

end PathSieve.IgnoreFile
