import NodeDump.Proofs.Printer.Layout
import NodeDump.Proofs.Scan.Stream
import NodeDump.Rendering

/-!
What holds while a source is printed. The tokens printed so far and the tokens ahead make up the scan of
the source, the open constructs are the spine of what has been printed, and the page holds just that. Main
statement: the ways in which the printing of a source can end.
-/

namespace NodeDump

theorem Page.Holds.tokenise {page : Page} {words : List Word} {last : List Char}
    (holds : page.Holds words last) :
    ∃ tokens, tokenise page.text = .ok tokens ∧ tokens.map Token.word = words := by
  obtain ⟨items, text, rfl, spaced⟩ := holds
  have rest : (Reader.ofSource page.text {}).rest = spell items last := text
  obtain ⟨same, token, ended⟩ := Scan.words_of_spell spaced rest
  exact ⟨_, Scan.tokenise_of_ending ended, same⟩

/-- How the printing of a scan can end once the tokens in `done` have been printed. -/
inductive Halts (limit : Option Nat) (scan : Scan) (done : List Token) : Option Fault → Prop
  | whole {dump : Dump} {last : Token} (same : dump.words = done.map Token.word)
      (room : Within limit dump.height) (tokens : scan.tokens = done) (ending : scan.ending = .ok last) :
      Halts limit scan done none
  | trailing {dump : Dump} {token : Token} {later : List Token} (same : dump.words = done.map Token.word)
      (tokens : scan.tokens = done ++ token :: later) : Halts limit scan done (some (.trailing token))
  | unexpected {frames : List Frame} {token : Token} {later : List Token}
      (spine : Spine limit frames (done.map Token.word)) (place : follow? frames token.word = none)
      (stream : scan.stream = done ++ token :: later)
      (seen : AwaitsKey frames → later ≠ [] ∨ ∃ last, scan.ending = .ok last) :
      Halts limit scan done (some (.unexpected token))
  | hidden {frames : List Frame} {token : Token} {fault : Fault}
      (spine : Spine limit frames (done.map Token.word))
      (wanted : follow? frames token.word ≠ none ∨ AwaitsKey frames)
      (tokens : scan.tokens = done ++ [token]) (ending : scan.ending = .error fault) :
      Halts limit scan done (some fault)
  | stuck {fault : Fault} (none : done = []) (tokens : scan.tokens = []) (ending : scan.ending = .error fault) :
      Halts limit scan done (some fault)
  | tooDeep {frames inner : List Frame} {token : Token} {later : List Token}
      (spine : Spine limit frames (done.map Token.word)) (place : follow? frames token.word = some inner)
      (opening : token.word.Opening) (full : ¬Within limit (frames.length + 1))
      (tokens : scan.tokens = done ++ token :: later) : Halts limit scan done (some (.tooDeep token))

/-- The tokens in `done` have been printed, and the printer stands in front of the others. -/
structure Progress (limit : Option Nat) (scan : Scan) (done : List Token) (printer : Printer) : Prop where
  tokens : scan.tokens = done ++ printer.cursor.ahead.tokens
  ending : scan.ending = printer.cursor.ahead.ending
  spine : Spine limit printer.frames (done.map Token.word)
  laid : printer.page.Laid printer.frames (done.map Token.word)

/-- The page holds the tokens in `done`, and the printing has ended behind them. -/
def Stands (limit : Option Nat) (scan : Scan) (done : List Token) (rendering : Rendering) : Prop :=
  (∃ tokens, tokenise rendering.text = .ok tokens ∧ tokens.map Token.word = done.map Token.word) ∧
    Halts limit scan done rendering.fault?

namespace Progress

variable {limit : Option Nat} {reader : Reader} {done : List Token} {printer after : Printer}

theorem start {cursor : Cursor} (begun : Cursor.ofReader reader = .ok cursor) (width : Int) :
    Progress limit (Scan.ofReader reader) [] ⟨cursor, { width }, []⟩ where
  tokens := by simp [Cursor.ahead_ofReader begun]
  ending := by simp [Cursor.ahead_ofReader begun]
  spine := .start
  laid := ⟨[], Page.holds_empty width, by simp⟩

theorem tokens_eq (progress : Progress limit (Scan.ofReader reader) done printer)
    (more : printer.cursor.current.isEnd = false) :
    ∃ later, (Scan.ofReader reader).tokens = done ++ printer.cursor.current :: later := by
  obtain ⟨later, ahead⟩ := Cursor.tokens_ahead more
  exact ⟨later, by rw [progress.tokens, ahead]⟩

theorem stream_eq (progress : Progress limit (Scan.ofReader reader) done printer) :
    (Scan.ofReader reader).stream = done ++ printer.cursor.ahead.stream :=
  Scan.stream_append progress.tokens progress.ending

theorem lexical (progress : Progress limit (Scan.ofReader reader) done printer)
    (more : printer.cursor.current.isEnd = false) : Lexical printer.word := by
  obtain ⟨later, tokens⟩ := progress.tokens_eq more
  have member : printer.cursor.current ∈ (Scan.ofReader reader).tokens := by simp [tokens]
  exact Scan.lexical_of_mem _ member

theorem apart (progress : Progress limit (Scan.ofReader reader) done printer)
    (more : printer.cursor.current.isEnd = false) :
    (done.map Token.word ++ [printer.word]).IsChain Apart := by
  obtain ⟨later, tokens⟩ := progress.tokens_eq more
  have whole := Scan.isChain_words reader
  rw [Scan.words, tokens] at whole
  exact whole.prefix ⟨later.map Token.word, by simp [Printer.word]⟩

theorem step (progress : Progress limit (Scan.ofReader reader) done printer)
    (stepped : printer.step limit = .ok () after) :
    (Scan.ofReader reader).tokens = (done ++ [printer.cursor.current]) ++ after.cursor.ahead.tokens ∧
      (Scan.ofReader reader).ending = after.cursor.ahead.ending ∧
      Spine.Grown limit after.frames ((done ++ [printer.cursor.current]).map Token.word) ∧
      after.page.Laid after.frames ((done ++ [printer.cursor.current]).map Token.word) := by
  obtain ⟨place, room, moved, page⟩ := Printer.step_ok stepped
  have more := more_of_follow place
  have ahead := Cursor.ahead_of_advance moved more
  have lexical := progress.lexical more
  refine ⟨by simp [progress.tokens, ahead], by simp [progress.ending, ahead], ?_, ?_⟩
  · rw [List.map_append]
    exact progress.spine.grow lexical place room
  · rw [List.map_append, page]
    exact progress.laid.put progress.spine lexical (progress.apart more) place

theorem step_more (progress : Progress limit (Scan.ofReader reader) done printer)
    (stepped : printer.step limit = .ok () after) (inside : after.frames ≠ []) :
    Progress limit (Scan.ofReader reader) (done ++ [printer.cursor.current]) after := by
  obtain ⟨tokens, ending, grown, laid⟩ := progress.step stepped
  rcases grown with ⟨-, spine⟩ | ⟨bare, -⟩
  · exact ⟨tokens, ending, spine, laid⟩
  · exact absurd bare inside

theorem step_last (progress : Progress limit (Scan.ofReader reader) done printer)
    (stepped : printer.step limit = .ok () after) (bare : after.frames = []) :
    Stands limit (Scan.ofReader reader) (done ++ [printer.cursor.current]) (.ofPrinted after) := by
  obtain ⟨tokens, ending, grown, last, holds, -⟩ := progress.step stepped
  refine ⟨holds.tokenise, ?_⟩
  rcases grown with ⟨inside, -⟩ | ⟨-, dump, same, room⟩
  · exact absurd bare inside
  · cases reached : after.cursor.current.isEnd with
    | true =>
      rw [Cursor.ahead_of_end reached] at tokens ending
      simpa [Rendering.ofPrinted, reached] using Halts.whole same room (by simpa using tokens) ending
    | false =>
      obtain ⟨later, ahead⟩ := Cursor.tokens_ahead reached
      rw [ahead] at tokens
      have halts : Halts limit (Scan.ofReader reader) (done ++ [printer.cursor.current])
        (some (.trailing after.cursor.current)) := .trailing same tokens
      simpa [Rendering.ofPrinted, reached] using halts

theorem step_failed (progress : Progress limit (Scan.ofReader reader) done printer) {fault : Fault}
    (stepped : printer.step limit = .error fault after) :
    Stands limit (Scan.ofReader reader) done ⟨after.page.text, some fault⟩ := by
  obtain ⟨last, separated⟩ := progress.laid.holds_separate progress.spine printer.word
  obtain ⟨later, stream⟩ := printer.cursor.stream_ahead
  have behind := progress.stream_eq
  rw [stream] at behind
  have goes := Printer.goes_step limit printer
  rw [stepped] at goes
  cases goes with
  | full place opening full =>
    -- The limit is checked first, so nothing is known about the text behind the token.
    obtain ⟨more, tokens⟩ := progress.tokens_eq (more_of_follow place)
    exact ⟨separated.tokenise, .tooDeep progress.spine place opening full tokens⟩
  | hidden wanted failed =>
    obtain ⟨-, ahead⟩ := Cursor.ahead_of_advance_error failed
    refine ⟨separated.tokenise, .hidden progress.spine wanted ?_ ?_⟩
    · rw [progress.tokens, ahead]
    · rw [progress.ending, ahead]
  | taken place awaits moved =>
    refine ⟨separated.tokenise, .unexpected progress.spine place behind fun _ => ?_⟩
    rw [progress.ending]
    exact Cursor.seen_of_advance moved stream
  | refused place other =>
    exact ⟨separated.tokenise, .unexpected progress.spine place behind fun awaits => absurd awaits other⟩

end Progress

theorem stands_of_stray {source : String} {fault : Fault} {limit : Option Nat}
    (failed : Cursor.ofSource source = .error fault) :
    Stands limit (Scan.ofSource source) [] ⟨"", some fault⟩ := by
  have stuck := Cursor.scan_of_ofReader_error failed
  have holds : (⟨"", 0, 0⟩ : Page).Holds [] [] := Page.holds_empty 0
  refine ⟨holds.tokenise, .stuck rfl ?_ ?_⟩
  · simp [Scan.ofSource, stuck]
  · simp [Scan.ofSource, stuck]

theorem stands_format (source : String) (width : Int) (limit : Option Nat) :
    ∃ done, Stands limit (Scan.ofSource source) done (format source width limit) := by
  unfold format
  split
  · rename_i fault failed
    exact ⟨[], stands_of_stray failed⟩
  · rename_i cursor begun
    refine Printer.finish_induction limit
      (fun printer => ∃ done, Progress limit (Scan.ofSource source) done printer)
      (fun outcome => ∃ done, Stands limit (Scan.ofSource source) done (.ofOutcome outcome))
      ?_ ?_ ?_ _ ⟨[], .start begun width⟩
    · rintro before after ⟨done, progress⟩ stepped inside
      exact ⟨_, progress.step_more stepped inside⟩
    · rintro before after ⟨done, progress⟩ stepped bare
      exact ⟨_, progress.step_last stepped bare⟩
    · rintro before fault after ⟨done, progress⟩ stepped
      exact ⟨_, progress.step_failed stepped⟩

end NodeDump
