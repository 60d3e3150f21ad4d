import NodeDump.Command
import NodeDump.Proofs.Format.Again

/-!
The command line on a text. It gives the same report on a text from a file and from the standard input, it accepts
just the dumps that are not nested too deep, and on what it has printed of these it gives the same report again.
-/

namespace NodeDump

theorem Text.unifyNewlines_of_not_mem {text : String} (clean : '\r' ∉ text.toList) :
    unifyNewlines text = text := by
  rw [unifyNewlines, newlinesAfter_of_not_mem '\n' text.toList (by decide) clean, String.ofList_toList]

theorem Text.not_mem_unifyNewlines (text : String) : '\r' ∉ (unifyNewlines text).toList := by
  rw [unifyNewlines, String.toList_ofList]
  exact not_mem_newlinesAfter '\n' text.toList

namespace Command

/-- The command gives the report on the text, whichever way the text comes in. -/
def Answers (text : String) (report : Report) : Prop :=
  (∀ file?, run [] text.toUTF8 file? = .ok report) ∧
    ∀ path standardInput file?, file? path = some text.toUTF8 → run [path] standardInput file? = .ok report

theorem decode_toUTF8 (text : String) : decode text.toUTF8 = .ok (Text.unifyNewlines text) := by
  have back : String.fromUTF8? text.toUTF8 = some text := by
    rw [String.fromUTF8?, String.toUTF8_eq_toByteArray]
    exact dif_pos text.isValidUTF8
  rw [decode, back]

theorem answers_report (text : String) : Answers text (report (Text.unifyNewlines text)) := by
  constructor
  · intro file?
    rw [run, decode_toUTF8]
    rfl
  · intro path standardInput file? content
    simp only [run, content, decode_toUTF8]
    rfl

theorem report_of_accepted {text : String} (accepted : (format text).fault? = none) :
    report text = ⟨0, (format text).text ++ "\n", ""⟩ := by
  simp only [report, accepted]

theorem report_of_fault {text : String} {fault : Fault} (found : (format text).fault? = some fault) :
    report text = ⟨1, (format text).text ++ "\n", "error: " ++ fault.message ++ "\n"⟩ := by
  simp only [report, found]

theorem status_report (text : String) : (report text).status = 0 ↔ (format text).fault? = none := by
  cases found : (format text).fault? with
  | none => simp [report_of_accepted found]
  | some fault => simp [report_of_fault found]

theorem plain_lineFeed : Plain "\n".toList := by simp [Plain]

theorem not_mem_output {text : String} (clean : '\r' ∉ text.toList) : '\r' ∉ (format text).text.toList := by
  intro member
  rcases mem_of_mem_format member with source | blank | feed
  · exact clean source
  · contradiction
  · contradiction

/-- The report on what has been printed is the report that it was printed with. -/
theorem report_output {text : String} (clean : '\r' ∉ text.toList) (accepted : (format text).fault? = none) :
    report (Text.unifyNewlines (report text).output) = report text := by
  have again : format ((format text).text ++ "\n") = format text := format_append accepted plain_lineFeed.run 2
  have output : '\r' ∉ ((format text).text ++ "\n").toList := by simpa using not_mem_output clean
  have accepted_again : (format ((format text).text ++ "\n")).fault? = none := by
    rw [again]
    exact accepted
  calc
    report (Text.unifyNewlines (report text).output) = report ((format text).text ++ "\n") := by
      rw [report_of_accepted accepted, Text.unifyNewlines_of_not_mem output]
    _ = ⟨0, (format ((format text).text ++ "\n")).text ++ "\n", ""⟩ := report_of_accepted accepted_again
    _ = report text := by rw [again, report_of_accepted accepted]

/-- The way in makes no difference, the status is zero just for the dumps that are not nested too deep, and
then there is no message and the report on the output is the same report. -/
theorem answers_again (text : String) :
    ∃ report, Answers text report ∧
      (report.status = 0 ↔ ∃ tokens, ∃ dump : Dump, tokenise (Text.unifyNewlines text) = .ok tokens ∧
        tokens.map Token.word = dump.words ∧ dump.height ≤ nestingLimit) ∧
      (report.status = 0 → report.messages = "" ∧ Answers report.output report) := by
  refine ⟨report (Text.unifyNewlines text), answers_report text, ?_, ?_⟩
  · rw [status_report]
    exact fault?_eq_none_iff
  · intro zero
    have accepted := (status_report _).1 zero
    have answers := answers_report (report (Text.unifyNewlines text)).output
    rw [report_output (Text.not_mem_unifyNewlines text) accepted] at answers
    exact ⟨by rw [report_of_accepted accepted], answers⟩

end Command

end NodeDump
