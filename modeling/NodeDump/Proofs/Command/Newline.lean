import NodeDump.Proofs.Command.Stable
import NodeDump.Proofs.Format.Respaced
import NodeDump.Proofs.Scan.Newline

/-!
Line breaks on the way into the command. As long as no token of a text holds a carriage return, the command prints
the layout of the text as it stands, and reports its fault if it has one, with another place at most.
-/

namespace NodeDump.Command

/-- A text that has no carriage return in its tokens loses nothing on the way in. The output is the layout of the text
as it stands. The status is zero and there is no message just if that has no fault, and otherwise the message is that
of the fault with another place at most. -/
theorem answers_newlines (text : String)
    (clean : ∀ token ∈ (Scan.ofSource text).tokens, '\r' ∉ token.text.toList) :
    ∃ report, Answers text report ∧ report.output = (format text).text ++ "\n" ∧
      (report.status = 0 ∧ report.messages = "" ↔ (format text).fault? = none) ∧
      ∀ fault, (format text).fault? = some fault → report.status = 1 ∧
        ∃ again, report.messages = "error: " ++ again.message ++ "\n" ∧
          Recurs (Scan.ofSource text) (Scan.ofSource (Text.unifyNewlines text)) fault again := by
  obtain ⟨same, faults⟩ := format_of_placeless (Scan.placeless_unifyNewlines clean) 2 (some nestingLimit)
  refine ⟨report (Text.unifyNewlines text), answers_report text, ?_⟩
  generalize again : (format (Text.unifyNewlines text)).fault? = fault? at faults
  cases found : (format text).fault? with
  | none =>
    rw [found] at faults
    cases faults with
    | none =>
      rw [report_of_accepted again, same]
      exact ⟨rfl, by simp, by simp⟩
  | some fault =>
    rw [found] at faults
    cases faults with
    | @some _ fault' recurs =>
      rw [report_of_fault again, same]
      refine ⟨rfl, by simp, fun other named => ?_⟩
      obtain rfl := Option.some.inj named
      exact ⟨rfl, fault', rfl, recurs⟩

/-- Three sorts of line breaks, and a quote that closes no literal on the next line. -/
theorem answers_newlines_stray :
    let text := "\x7bA\r\n :k\r(1 [\n2])\x7d\r \"\r\n\""
    (∀ token ∈ (Scan.ofSource text).tokens, '\r' ∉ token.text.toList) ∧
      (format text).fault? = some (.strayCharacter '"' 3 6) ∧
      ∃ report, Answers text report ∧ report.output = "\x7bA\n  :k (\n    1 [\n2]\n  )\n" ∧ report.status = 1 ∧
        ∃ again, report.messages = "error: " ++ again.message ++ "\n" ∧
          Recurs (Scan.ofSource text) (Scan.ofSource (Text.unifyNewlines text)) (.strayCharacter '"' 3 6) again := by
  intro text
  have clean : ∀ token ∈ (Scan.ofSource text).tokens, '\r' ∉ token.text.toList := by decide +kernel
  have found : (format text).fault? = some (.strayCharacter '"' 3 6) := by decide +kernel
  have layout : (format text).text = "\x7bA\n  :k (\n    1 [\n2]\n  )" := by decide +kernel
  obtain ⟨report, answers, output, -, faults⟩ := answers_newlines text clean
  obtain ⟨status, again, messages, recurs⟩ := faults _ found
  exact ⟨clean, found, report, answers, by rw [output, layout]; rfl, status, again, messages, recurs⟩

end NodeDump.Command
