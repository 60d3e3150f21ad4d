import NodeDump.Proofs.Printer.Layout
import NodeDump.Proofs.Scan.Passage
import NodeDump.Proofs.Scan.Stream

/-!
What printing takes from the tokens ahead and what it adds to the page, wherever it begins. However the printing
ends, the words of the tokens that were taken have been added in their order, the last one perhaps left out if a
fault was met, and nothing but blanks has been added between them.
-/

namespace NodeDump
open Lexeme

namespace Page

/-- The text of one page goes on from that of another with words and with blanks around them. -/
def Adds (before after : Page) (words : List Word) : Prop :=
  ∃ items last, items.map Prod.snd = words ∧ (∀ item ∈ items, Run Char.isWhitespace item.1) ∧
    Run Char.isWhitespace last ∧ after.text.toList = before.text.toList ++ spell items last

theorem startLine_append (page : Page) (first second : String) :
    page.startLine (first ++ second) = (page.startLine first).write second := by
  unfold startLine
  split <;> simp [write, String.append_assoc]

namespace Adds

variable {before page : Page} {words : List Word}

theorem refl (page : Page) : page.Adds page [] :=
  ⟨[], [], rfl, by simp, by simp [Run], by simp [spell]⟩

theorem of_text {other : Page} (adds : before.Adds page words) (same : other.text = page.text) :
    before.Adds other words := by
  unfold Adds
  rw [same]
  exact adds

theorem blank (adds : before.Adds page words) {more : String} (run : Run Char.isWhitespace more.toList) :
    before.Adds (page.write more) words := by
  obtain ⟨items, last, same, blank, lastBlank, text⟩ := adds
  refine ⟨items, last ++ more.toList, same, blank, lastBlank.append run, ?_⟩
  rw [spell_last_append, ← List.append_assoc, ← text, text_write, String.toList_append]

theorem word (adds : before.Adds page words) (word : Word) :
    before.Adds (page.write word.2) (words ++ [word]) := by
  obtain ⟨items, last, rfl, blank, lastBlank, text⟩ := adds
  refine ⟨items ++ [(last, word)], [], by simp, ?_, by simp [Run], ?_⟩
  · exact List.forall_mem_append.2 ⟨blank, by simpa using lastBlank⟩
  · rw [spell_concat, ← List.append_assoc, ← text, text_write, String.toList_append]

theorem startLine (adds : before.Adds page words) (word : Word) :
    before.Adds (page.startLine word.2) (words ++ [word]) := by
  unfold Page.startLine
  split
  · exact adds.word word
  · have line := (adds.blank page.blank_lineBreak).word word
    exact line.of_text (by simp [String.append_assoc])

theorem separate (adds : before.Adds page words) (frames : List Frame) (word : Word) :
    before.Adds (page.separate frames word) words := by
  unfold Page.separate
  split
  · split
    · exact adds
    · split
      · exact adds.blank blank_space
      · unfold Page.startLine
        have nothing : Run Char.isWhitespace "".toList := by simp [Run]
        split
        · exact adds.blank nothing
        · rw [String.append_empty]
          exact adds.blank page.blank_lineBreak
  · exact adds

theorem put (adds : before.Adds page words) (frames : List Frame) (word : Word) :
    before.Adds (page.put frames word) (words ++ [word]) := by
  have plain := (adds.separate frames word).word word
  have closing : before.Adds (page.shift (-1)) words := adds.of_text rfl
  unfold Page.put
  split
  · exact plain.of_text rfl
  · exact plain.of_text rfl
  · rw [startLine_append]
    exact (adds.startLine word).blank blank_space
  · split
    · exact closing.startLine word
    · exact closing.word word
  · split
    · exact closing.startLine word
    · exact closing.word word
  · exact plain

theorem exists_append (adds : before.Adds page words) : ∃ more, page.text = before.text ++ more := by
  obtain ⟨items, last, -, -, -, text⟩ := adds
  refine ⟨String.ofList (spell items last), String.toList_injective ?_⟩
  rw [text, String.toList_append, String.toList_ofList]

end Adds

end Page

namespace Printer

/-- The way from one printer to another: what is taken is behind the cursor, and what is written is on the
page. -/
structure Works (before after : Printer) (taken written : List Token) : Prop where
  stream : before.cursor.ahead.stream = taken ++ after.cursor.ahead.stream
  page : before.page.Adds after.page (written.map Token.word)
  passes : before.cursor.toReader.Passes after.cursor.toReader

namespace Works

variable {limit : Option Nat} {start printer after : Printer} {tokens : List Token}

theorem refl (printer : Printer) : printer.Works printer [] [] where
  stream := rfl
  page := .refl _
  passes := .refl _

theorem step (works : start.Works printer tokens tokens) (stepped : printer.step limit = .ok () after) :
    start.Works after (tokens ++ [printer.cursor.current]) (tokens ++ [printer.cursor.current]) := by
  obtain ⟨place, -, moved, page⟩ := step_ok stepped
  refine ⟨?_, ?_, works.passes.trans (Cursor.passes_of_advance moved)⟩
  · rw [works.stream, Cursor.stream_of_advance moved (more_of_follow place), List.append_cons]
  · rw [page, List.map_append]
    exact works.page.put _ _

/-- Only the token that has been found to be no key is taken without being written. -/
theorem step_error (works : start.Works printer tokens tokens) {fault : Fault}
    (stepped : printer.step limit = .error fault after) :
    ∃ lost, start.Works after (tokens ++ lost) tokens ∧ lost.length ≤ 1 := by
  have page := works.page.separate printer.frames printer.word
  have none_taken : start.cursor.ahead.stream = (tokens ++ []) ++ printer.cursor.ahead.stream := by
    rw [List.append_nil, works.stream]
  have goes := goes_step limit printer
  rw [stepped] at goes
  cases goes with
  | full => exact ⟨[], ⟨none_taken, page, works.passes⟩, Nat.zero_le _⟩
  | hidden _ failed =>
    refine ⟨[], ⟨?_, page, works.passes.trans (Cursor.passes_of_advance_error failed)⟩, Nat.zero_le _⟩
    rw [none_taken, (Cursor.ahead_after_error failed).2]
  | taken _ _ moved =>
    have passes := works.passes.trans (Cursor.passes_of_advance moved)
    cases last : printer.cursor.current.isEnd with
    | true =>
      obtain rfl := Cursor.after_of_advance_end moved last
      exact ⟨[], ⟨none_taken, page, passes⟩, Nat.zero_le _⟩
    | false =>
      refine ⟨[printer.cursor.current], ⟨?_, page, passes⟩, le_rfl⟩
      rw [works.stream, Cursor.stream_of_advance moved last, List.append_cons]
  | refused => exact ⟨[], ⟨none_taken, page, works.passes⟩, Nat.zero_le _⟩

end Works

def Worked (start : Printer) : Outcome → Prop
  | .ok () after => ∃ tokens, start.Works after tokens tokens
  | .error _ after => ∃ written lost, start.Works after (written ++ lost) written ∧ lost.length ≤ 1

theorem worked_finish (limit : Option Nat) (printer : Printer) : printer.Worked (printer.finish limit) := by
  refine finish_induction limit (fun now => ∃ tokens, printer.Works now tokens tokens) printer.Worked
    ?_ ?_ ?_ printer ⟨[], .refl printer⟩
  · rintro before after ⟨tokens, works⟩ stepped -
    exact ⟨_, works.step stepped⟩
  · rintro before after ⟨tokens, works⟩ stepped -
    exact ⟨_, works.step stepped⟩
  · rintro before fault after ⟨tokens, works⟩ stepped
    exact ⟨tokens, works.step_error stepped⟩

end Printer

end NodeDump
