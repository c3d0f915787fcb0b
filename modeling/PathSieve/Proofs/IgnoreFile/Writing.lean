import PathSieve.Proofs.IgnoreFile.Loading

/-!
# Lines written to a file

A file gives back the lines written to it, whatever ending follows each of them. A carriage return
may be taken for part of an ending and an empty last line may get lost, but neither shows in a
rule: `ofContents_written` states that the rules and their ordinals are those of the lines.
-/

namespace PathSieve

set_option autoImplicit false

inductive LineEnding
  | feed
  | returnFeed
  deriving DecidableEq, Inhabited

def LineEnding.chars : LineEnding → List Char
  | .feed => ['\n']
  | .returnFeed => ['\r', '\n']

def byteOrderMark : Char := '\uFEFF'

/-- Lines with the endings chosen for them. The ending of the last line may be left out. -/
def writeLines (closed : Bool) : List (String × LineEnding) → List Char
  | [] => []
  | [entry] => entry.1.toList ++ if closed then entry.2.chars else []
  | entry :: next :: rest => entry.1.toList ++ entry.2.chars ++ writeLines closed (next :: rest)

def markedIf (marked : Bool) (text : List Char) : List Char :=
  if marked then byteOrderMark :: text else text

namespace Text

theorem trim_dropReturn (line : List Char) : trim (dropReturn line) = trim line := by
  rw [dropReturn]
  split
  · rename_i hReturn
    obtain ⟨front, rfl⟩ := List.getLast?_eq_some_iff.mp hReturn
    rw [List.dropLast_concat, trim_append_blank front '\r' (by decide)]
  · rfl

/-- A line ends where its ending does, and is the same line but for the blanks around it. -/
theorem lines_append_ending {line : List Char} (ending : LineEnding) (rest : List Char)
    (h : '\n' ∉ line) :
    ∃ first, lines (line ++ ending.chars ++ rest) = first :: lines rest ∧
      trim first = trim line := by
  cases ending with
  | feed =>
    refine ⟨dropReturn line, ?_, trim_dropReturn line⟩
    rw [← lines_append_feed rest h, List.append_assoc]
    rfl
  | returnFeed =>
    have hLine : '\n' ∉ line ++ ['\r'] := by
      rw [List.mem_append, List.mem_singleton]
      exact fun hMem => hMem.elim h (by decide)
    refine ⟨dropReturn (line ++ ['\r']), ?_, ?_⟩
    · rw [← lines_append_feed rest hLine, List.append_assoc, List.append_assoc]
      rfl
    · rw [trim_dropReturn, trim_append_blank line '\r' (by decide)]

/-- The texts read back are those written, without a last one that is empty. -/
theorem map_trim_lines_writeLines (closed : Bool) (entries : List (String × LineEnding))
    (h : ∀ entry ∈ entries, '\n' ∉ entry.1.toList) :
    (lines (writeLines closed entries)).map trim = entries.map (fun entry => trim entry.1.toList) ∨
      entries.map (fun entry => trim entry.1.toList) =
        (lines (writeLines closed entries)).map trim ++ [[]] := by
  induction entries with
  | nil => exact .inl rfl
  | cons entry entries ih =>
    have hEntry := h entry List.mem_cons_self
    cases entries with
    | cons next rest =>
      obtain ⟨first, hLines, hTrim⟩ :=
        lines_append_ending entry.2 (writeLines closed (next :: rest)) hEntry
      rw [writeLines, hLines, List.map_cons, List.map_cons, hTrim, List.cons_append]
      rcases ih fun other hOther => h other (List.mem_cons_of_mem _ hOther) with hSame | hLost
      · exact .inl (by rw [hSame])
      · exact .inr (by rw [hLost])
    | nil =>
      cases closed with
      | true =>
        obtain ⟨first, hLines, hTrim⟩ := lines_append_ending entry.2 [] hEntry
        rw [List.append_nil] at hLines
        rw [writeLines, if_pos rfl, hLines, List.map_cons, hTrim]
        exact .inl rfl
      | false =>
        rw [writeLines, if_neg Bool.false_ne_true, List.append_nil, lines_of_no_feed hEntry]
        cases hEmpty : entry.1.toList with
        | nil =>
          rw [List.map_singleton, hEmpty]
          exact .inr rfl
        | cons c cs =>
          rw [List.map_singleton, hEmpty]
          exact .inl rfl

end Text

theorem patternLines_markedIf {marked : Bool} {text : List Char}
    (h : marked = true ∨ text.head? ≠ some byteOrderMark) :
    patternLines (markedIf marked text) = (Text.lines text).map String.ofList := by
  cases marked with
  | true => rfl
  | false =>
    rw [patternLines, markedIf, if_neg Bool.false_ne_true, if_neg]
    exact h.resolve_left Bool.false_ne_true

namespace Rulebook

theorem compileLines_written {marked closed : Bool} {entries : List (String × LineEnding)}
    (hLines : ∀ entry ∈ entries, '\n' ∉ entry.1.toList)
    (hMark : marked = true ∨ (writeLines closed entries).head? ≠ some byteOrderMark) :
    (compileLines (patternLines (markedIf marked (writeLines closed entries)))).value =
      (compileLines (entries.map Prod.fst)).value := by
  have hTexts : ((Text.lines (writeLines closed entries)).map String.ofList).map
      (fun line => Text.trim line.toList) =
        (Text.lines (writeLines closed entries)).map Text.trim := by
    rw [List.map_map]
    exact List.map_congr_left fun line _ => congrArg Text.trim String.toList_ofList
  have hEntries : (entries.map Prod.fst).map (fun line => Text.trim line.toList) =
      entries.map fun entry => Text.trim entry.1.toList := List.map_map
  rw [patternLines_markedIf hMark, compileLines_eq_rulesOfTrimmed, compileLines_eq_rulesOfTrimmed,
    hTexts, hEntries]
  rcases Text.map_trim_lines_writeLines closed entries hLines with hSame | hLost
  · rw [hSame]
  · rw [hLost, rulesOfTrimmed_append_nil]

end Rulebook

theorem Settings.custom_rulebook (settings : Settings) (lines : List String) :
    (settings.rulebook lines).value.custom = (Rulebook.compileLines lines).value := by
  rw [rulebook]
  split
  · rw [Rulebook.withBuiltins_value, Rulebook.custom_append]
  · exact Rulebook.custom_append [] _

/-- A file that holds written lines loads as the lines do, under any settings, and so does their
text under the standard ones. The custom rules are the lines that compile, numbered from one. -/
theorem IgnoreFile.ofContents_written (settings : Settings) (path : String)
    (marked closed : Bool) (entries : List (String × LineEnding))
    (hLines : ∀ entry ∈ entries, '\n' ∉ entry.1.toList)
    (hMark : marked = true ∨ (writeLines closed entries).head? ≠ some byteOrderMark) :
    (ofContents settings path
        (.ok (Text.encode (markedIf marked (writeLines closed entries))))).value =
      .ok { (Sieve.ofLines settings (entries.map Prod.fst)).value with fileRead := true } ∧
    (Sieve.ofText (String.ofList (markedIf marked (writeLines closed entries)))).value =
      (Sieve.ofLines .standard (entries.map Prod.fst)).value ∧
    (Sieve.ofLines settings (entries.map Prod.fst)).value.rulebook.custom =
      ((entries.map Prod.fst).zipIdx 1).filterMap fun entry =>
        (Rule.compile entry.1 entry.2).value := by
  have hRules := Rulebook.compileLines_written hLines hMark
  refine ⟨?_, ?_, ?_⟩
  · rw [ofContents_encode, settings.rulebook_congr hRules]
    rfl
  · rw [Sieve.ofText, String.toList_ofList, Sieve.ofLines, Traced.map_value,
      Settings.standard.rulebook_congr hRules]
    rfl
  · rw [← Rulebook.compileLines_eq_zipIdx_one]
    exact settings.custom_rulebook _

theorem IgnoreFile.ofContents_written_returns : ∃ entries : List (String × LineEnding),
    (∀ entry ∈ entries, '\n' ∉ entry.1.toList) ∧
    entries.map Prod.fst = ["\uFEFF*.log\r", "", " !a\rb", "# c", "keep\r"] ∧
    markedIf true (writeLines false entries) =
      "\uFEFF\uFEFF*.log\r\n\r\n !a\rb\r\n# c\nkeep\r".toList ∧
    (ofContents .standard "w/.syncignore" (.ok (Text.encode
        "\uFEFF\uFEFF*.log\r\n\r\n !a\rb\r\n# c\nkeep\r".toList))).value =
      .ok { (Sieve.ofLines .standard ["\uFEFF*.log\r", "", " !a\rb", "# c", "keep\r"]).value with
        fileRead := true } := by
  obtain ⟨entries, hEntries⟩ : ∃ entries : List (String × LineEnding), entries =
      [("\uFEFF*.log\r", .feed), ("", .returnFeed), (" !a\rb", .returnFeed), ("# c", .feed),
        ("keep\r", .returnFeed)] := ⟨_, rfl⟩
  have hLines : ∀ entry ∈ entries, '\n' ∉ entry.1.toList := by
    rw [hEntries]
    decide
  have hNames : entries.map Prod.fst = ["\uFEFF*.log\r", "", " !a\rb", "# c", "keep\r"] := by
    rw [hEntries]
    rfl
  have hText : markedIf true (writeLines false entries) =
      "\uFEFF\uFEFF*.log\r\n\r\n !a\rb\r\n# c\nkeep\r".toList := by
    rw [hEntries]
    decide
  refine ⟨entries, hLines, hNames, hText, ?_⟩
  obtain ⟨hSieve, _, _⟩ :=
    ofContents_written .standard "w/.syncignore" true false entries hLines (.inl rfl)
  rwa [hText, hNames] at hSieve

end PathSieve
