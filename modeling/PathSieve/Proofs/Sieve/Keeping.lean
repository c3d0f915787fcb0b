import Mathlib.Data.List.Forall2
import PathSieve.Proofs.Rulebook.Precedence
import PathSieve.Sieve

/-!
# What a sieve keeps and what it logs

Each path that a sieve is asked to keep is decided once, and the decision leaves one event. So the
kept paths can be read off the log as well as off the rules, entry by entry, however often a path
is repeated and however it is spelled. `keep_reports` states this, with what every event says.
-/

namespace PathSieve

set_option autoImplicit false

/-- Whether an event says that a path is kept. -/
def Event.keepsPath : Event → Bool
  | .decided _ ignored _ => !ignored
  | _ => false

namespace Rulebook

/-- What the decision on a path leaves in the log: the path by its segments, whether it is ignored,
and the text of the first rule of the sign that decides. A path that no rule matches is kept
without a rule. -/
inductive Reports (book : Rulebook) (raw : String) : Event → Prop
  | ignored {rule : Rule} (hNegated : ¬ HasMatch book.rules (Path.ofString raw) true)
      (hFirst : IsFirstMatch book.rules (Path.ofString raw) false rule) :
      Reports book raw (.decided (Path.ofString raw).text true (some rule.raw))
  | reincluded {rule : Rule} (hFirst : IsFirstMatch book.rules (Path.ofString raw) true rule) :
      Reports book raw (.decided (Path.ofString raw).text false (some rule.raw))
  | unmatched (hNone : ∀ rule ∈ book.rules, rule.matchesPath (Path.ofString raw) = false) :
      Reports book raw (.decided (Path.ofString raw).text false none)

variable (book : Rulebook) (raw : String)

theorem reports_iff (event : Event) : book.Reports raw event ↔
    event = decideEvent (Path.ofString raw) (book.judge (Path.ofString raw)) := by
  constructor
  · intro h
    cases h with
    | ignored hNegated hFirst =>
      rw [(judge_eq_ignored_iff _ _ _).mpr ⟨hNegated, hFirst⟩]
      rfl
    | reincluded hFirst =>
      rw [(judge_eq_reincluded_iff _ _ _).mpr hFirst]
      rfl
    | unmatched hNone =>
      rw [(judge_eq_unmatched_iff _ _).mpr hNone]
      rfl
  · rintro rfl
    cases hVerdict : book.judge (Path.ofString raw) with
    | ignored rule =>
      obtain ⟨hNegated, hFirst⟩ := (judge_eq_ignored_iff _ _ _).mp hVerdict
      exact .ignored hNegated hFirst
    | reincluded rule => exact .reincluded ((judge_eq_reincluded_iff _ _ _).mp hVerdict)
    | unmatched => exact .unmatched ((judge_eq_unmatched_iff _ _).mp hVerdict)

theorem keepsPath_of_reports {event : Event} (h : book.Reports raw event) :
    event.keepsPath = !book.ignores raw := by
  rw [(book.reports_iff raw event).mp h]
  rfl

theorem reports_of_no_segment (h : (Path.ofString raw).segments = []) :
    book.Reports raw (.decided "" false none) := by
  have hEmpty := (Path.isEmpty_ofString_iff raw).mpr h
  have hText : (Path.ofString raw).text = "" := by
    rw [Path.segments_ofString, List.map_eq_nil_iff] at h
    rw [Path.ofString_eq_ofSegments, h]
    rfl
  have hReports : book.Reports raw (.decided (Path.ofString raw).text false none) :=
    .unmatched fun rule _ => rule.matchesPath_of_isEmpty _ hEmpty
  rwa [hText] at hReports

end Rulebook

namespace Sieve

variable (sieve : Sieve)

/-! ## One path at a time -/

theorem keep_cons_value (raw : String) (paths : List String) :
    (sieve.keep (raw :: paths)).value =
      if sieve.ignores raw then (sieve.keep paths).value
      else raw :: (sieve.keep paths).value := by
  change List.filterMap id ((if sieve.ignores raw then none else some raw) :: _) = _
  cases sieve.ignores raw <;> rfl

theorem keep_cons_log (raw : String) (paths : List String) :
    (sieve.keep (raw :: paths)).log =
      Rulebook.decideEvent (Path.ofString raw) (sieve.rulebook.judge (Path.ofString raw)) ::
        (sieve.keep paths).log := rfl

theorem keep_value (paths : List String) :
    (sieve.keep paths).value = paths.filter fun raw => !sieve.ignores raw := by
  induction paths with
  | nil => rfl
  | cons raw paths ih =>
    rw [keep_cons_value, ih]
    cases h : sieve.ignores raw <;> simp [h]

theorem keep_log_eq_iff (paths : List String) (log : List Event) :
    (sieve.keep paths).log = log ↔ List.Forall₂ sieve.rulebook.Reports paths log := by
  induction paths generalizing log with
  | nil =>
    rw [List.forall₂_nil_left_iff]
    exact eq_comm
  | cons raw paths ih =>
    cases log with
    | nil => exact iff_of_false (List.cons_ne_nil _ _) (nomatch ·)
    | cons event log =>
      rw [keep_cons_log, List.cons.injEq, List.forall₂_cons, Rulebook.reports_iff, ih,
        eq_comm (a := event)]

/-- The log alone tells which paths are kept. -/
theorem filter_eq_of_reports {paths : List String} {log : List Event}
    (h : List.Forall₂ sieve.rulebook.Reports paths log) :
    (paths.filter fun raw => !sieve.ignores raw) =
      ((paths.zip log).filter fun entry => entry.2.keepsPath).map Prod.fst := by
  induction h with
  | nil => rfl
  | @cons raw event paths log hEvent _ ih =>
    have hKeeps : event.keepsPath = !sieve.ignores raw :=
      Rulebook.keepsPath_of_reports _ _ hEvent
    rw [List.zip_cons_cons, List.filter_cons, List.filter_cons, hKeeps, ih]
    cases sieve.ignores raw <;> rfl

/-- A sieve keeps the paths that it does not ignore, in their order and spelling, and logs one
event for each path in turn: whether the path is kept, and the first rule of the deciding sign,
where there is one. A path without segments is kept without a rule. What was kept once is kept
again. -/
theorem keep_reports (paths : List String) :
    (sieve.keep paths).value = (paths.filter fun raw => !sieve.ignores raw) ∧
    List.Forall₂ sieve.rulebook.Reports paths (sieve.keep paths).log ∧
    (∀ log, List.Forall₂ sieve.rulebook.Reports paths log → log = (sieve.keep paths).log) ∧
    (sieve.keep paths).value = ((paths.zip (sieve.keep paths).log).filter
      fun entry => entry.2.keepsPath).map Prod.fst ∧
    (∀ entry ∈ paths.zip (sieve.keep paths).log, (Path.ofString entry.1).segments = [] →
      entry.2 = .decided "" false none) ∧
    (sieve.keep (sieve.keep paths).value).value = (sieve.keep paths).value := by
  have hLog := (sieve.keep_log_eq_iff paths _).mp rfl
  refine ⟨sieve.keep_value paths, hLog, ?_, ?_, ?_, ?_⟩
  · intro log hReports
    exact ((sieve.keep_log_eq_iff paths log).mpr hReports).symm
  · rw [← sieve.filter_eq_of_reports hLog, keep_value]
  · rintro ⟨raw, event⟩ hEntry hSegments
    have hReports := (List.forall₂_iff_zip.mp hLog).2 hEntry
    have hEmpty := sieve.rulebook.reports_of_no_segment raw hSegments
    rw [Rulebook.reports_iff] at hReports hEmpty
    exact hReports.trans hEmpty.symm
  · rw [keep_value, keep_value, List.filter_filter]
    simp only [Bool.and_self]

theorem keep_reports_spellings : ∃ sieve : Sieve,
    sieve = (ofLines ⟨"", false⟩ ["*.log", "!keep.*"]).value ∧
    (sieve.keep ["b\\a.log", "./keep.log", "b//a.log", ".\\/"]).value =
      ["./keep.log", ".\\/"] ∧
    (sieve.keep ["b\\a.log", "./keep.log", "b//a.log", ".\\/"]).log =
      [.decided "b/a.log" true (some "*.log"), .decided "keep.log" false (some "!keep.*"),
        .decided "b/a.log" true (some "*.log"), .decided "" false none] ∧
    (sieve.keep ["./keep.log", ".\\/"]).value = ["./keep.log", ".\\/"] := by
  have hValue : ((ofLines ⟨"", false⟩ ["*.log", "!keep.*"]).value.keep
      ["b\\a.log", "./keep.log", "b//a.log", ".\\/"]).value = ["./keep.log", ".\\/"] := by decide
  obtain ⟨_, _, hLog, _, _, hAgain⟩ := keep_reports (ofLines ⟨"", false⟩ ["*.log", "!keep.*"]).value
    ["b\\a.log", "./keep.log", "b//a.log", ".\\/"]
  rw [hValue] at hAgain
  refine ⟨_, rfl, hValue, (hLog _ ?_).symm, hAgain⟩
  refine .cons ?_ (.cons ?_ (.cons ?_ (.cons ?_ .nil))) <;> rw [Rulebook.reports_iff] <;> decide

end Sieve

end PathSieve
