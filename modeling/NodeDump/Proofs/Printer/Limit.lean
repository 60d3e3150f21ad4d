import NodeDump.Proofs.Printer.Value
import NodeDump.Proofs.Printer.Written
import NodeDump.Rendering

/-!
The limit on open constructs. It is looked at where a construct is entered and nowhere else. A printing that enters
no construct with as many open as the limit allows does not depend on the limit, and any other one is broken off
there, with the same text on the page as without the limit.
-/

namespace NodeDump

theorem length_begin? {frames inner : List Frame} {word : Word} (begun : begin? frames word = some inner) :
    (inner.length : Int) = frames.length + word.rise := by
  unfold begin? at begun
  split at begun
  · rename_i kind
    cases begun
    simp [Word.rise, kind]
  · rename_i kind
    cases begun
    simp [Word.rise, kind]
  · rename_i kind
    cases begun
    simp [Word.rise, kind]
  · rename_i kind
    cases begun
    simp [Word.rise, kind]
  · contradiction

theorem length_follow? {frames inner : List Frame} {word : Word} (place : follow? frames word = some inner) :
    (inner.length : Int) = frames.length + word.rise := by
  unfold follow? at place
  split at place
  · exact length_begin? place
  · split at place
    · rename_i kind
      cases place
      simp [Word.rise, kind]
    · rename_i kind
      cases place
      simp only [List.length_cons, Word.rise, kind]
      omega
    · split at place
      · have levels := length_begin? place
        simpa using levels
      · contradiction
  · split at place
    · rename_i kind
      cases place
      simp only [List.length_cons, Word.rise, kind]
      omega
    · have levels := length_begin? place
      simpa using levels

namespace Printer

/-- A node or an array starts with the current token, in a place for a value. -/
def Enters (printer : Printer) : Prop := printer.word.Opening ∧ follow? printer.frames printer.word ≠ none

/-- A construct is entered with as many open as the limit allows. -/
def Full (bound : Nat) (printer : Printer) : Prop := printer.Enters ∧ bound ≤ printer.frames.length

/-- A printer about to enter `inner`, with the separator written that is due in front of it. -/
structure Entrance (printer ready : Printer) (inner : Frame) : Prop where
  cursor : ready.cursor = printer.cursor
  page : ready.page = printer.page.separate printer.frames printer.word
  levels : ready.frames.length = printer.frames.length
  step : ∀ limit, printer.step limit = ready.enter limit inner

/-- The limit matters to a step that enters a construct and to no other. -/
def Heeds (printer : Printer) : Prop :=
  (printer.Enters ∧ ∃ ready inner, printer.Entrance ready inner) ∨
    (¬printer.Enters ∧ ∀ limit, printer.step limit = printer.step none)

variable {printer ready : Printer}

theorem value_of_opening (opening : ready.word.Opening) :
    ∃ inner, ∀ limit, ready.value limit = ready.enter limit inner := by
  rcases opening with kind | kind
  · have known : ready.cursor.current.kind = .nodeStart := kind
    exact ⟨.node .start, fun limit => by simp only [value, known]⟩
  · have known : ready.cursor.current.kind = .arrayStart := kind
    refine ⟨.array (ready.cursor.current.tag ≠ "") false, fun limit => ?_⟩
    simp only [value, known]

theorem value_of_not_opening (other : ¬ready.word.Opening) (limit : Option Nat) :
    ready.value limit = ready.value none := by
  unfold value
  simp only
  split
  · exact absurd (Or.inl ‹_›) other
  · exact absurd (Or.inr ‹_›) other
  · rfl
  · rfl
  · rfl

theorem begin?_of_opening {word : Word} (opening : word.Opening) (frames : List Frame) :
    begin? frames word ≠ none := by
  rcases opening with kind | kind <;> simp [begin?, kind]

theorem heeds_of_value (ready : Printer) (cursor : ready.cursor = printer.cursor)
    (page : ready.page = printer.page.separate printer.frames printer.word)
    (levels : ready.frames.length = printer.frames.length)
    (place : follow? printer.frames printer.word = begin? ready.frames printer.word)
    (same : ∀ limit, printer.step limit = ready.value limit) : printer.Heeds := by
  have word : ready.word = printer.word := by rw [Printer.word, cursor, Printer.word]
  by_cases opening : printer.word.Opening
  · obtain ⟨inner, entered⟩ := value_of_opening (word ▸ opening)
    refine Or.inl ⟨⟨opening, ?_⟩, ready, inner, cursor, page, levels, fun limit => ?_⟩
    · rw [place]
      exact begin?_of_opening opening _
    · rw [same, entered]
  · refine Or.inr ⟨fun enters => opening enters.1, fun limit => ?_⟩
    rw [same, same, value_of_not_opening (word ▸ opening)]

theorem heeds_of_other (other : printer.word.Opening → follow? printer.frames printer.word = none)
    (same : ∀ limit, printer.step limit = printer.step none) : printer.Heeds :=
  Or.inr ⟨fun enters => enters.2 (other enters.1), same⟩

theorem heeds_inNode {ending : NodeEnding} {outer : List Frame}
    (inside : printer.frames = .node ending :: outer) : printer.Heeds := by
  have step (limit : Option Nat) : printer.step limit = printer.inNode limit ending outer := by
    rw [Printer.step, inside]
  by_cases behind : ending = .key ∧ printer.word.1 ≠ .key ∧ printer.word.1 ≠ .nodeEnd
  · refine heeds_of_value { printer with frames := .node .value :: outer } rfl ?_ ?_ ?_ ?_
    · rw [inside]
      rfl
    · rw [inside]
      rfl
    · obtain ⟨key, noKey, noEnd⟩ := behind
      rw [inside, follow?]
      split
      · exact absurd ‹_› noKey
      · exact absurd ‹_› noEnd
      · rw [if_pos key]
    · intro limit
      rw [step]
      exact if_pos behind
  · -- The word is taken for a key or an end, so it enters nothing, whatever it is.
    refine heeds_of_other ?_ ?_
    · intro opening
      have starting : printer.word.Starting := Or.inl opening
      rw [inside, follow?]
      split
      · exact absurd starting (Word.not_starting_of_key ‹_›)
      · exact absurd starting (Word.Closing.not_starting (Or.inl ‹_›))
      · rename_i noKey noEnd
        exact if_neg fun key => behind ⟨key, noKey, noEnd⟩
    · intro limit
      rw [step, step]
      exact (if_neg behind).trans (if_neg behind).symm

theorem heeds_inArray {tagged filled : Bool} {outer : List Frame}
    (inside : printer.frames = .array tagged filled :: outer) : printer.Heeds := by
  have step (limit : Option Nat) : printer.step limit = printer.inArray limit tagged filled outer := by
    rw [Printer.step, inside]
  by_cases last : printer.word.1 = .arrayEnd
  · refine heeds_of_other ?_ ?_
    · intro opening
      exact absurd (Or.inl opening) (Word.Closing.not_starting (Or.inr last))
    · intro limit
      rw [step, step]
      exact (if_pos last).trans (if_pos last).symm
  · let separated := if tagged then printer.write " " else printer.startLine ""
    refine heeds_of_value { separated with frames := .array tagged true :: outer } ?_ ?_ ?_ ?_ ?_
    · cases tagged <;> rfl
    · cases tagged <;> simp [separated, inside, Page.separate, last] <;> rfl
    · rw [inside]
      rfl
    · rw [inside, follow?]
      exact if_neg last
    · intro limit
      rw [step]
      exact if_neg last

theorem heeds (printer : Printer) : printer.Heeds := by
  cases inside : printer.frames with
  | nil =>
    have step (limit : Option Nat) : printer.step limit = printer.value limit := by
      rw [Printer.step, inside]
    exact heeds_of_value printer rfl (by rw [inside]; rfl) rfl (by rw [inside]; rfl) step
  | cons frame outer =>
    cases frame with
    | node ending => exact heeds_inNode inside
    | array tagged filled => exact heeds_inArray inside

variable {bound : Nat}

theorem step_of_full (full : printer.Full bound) : ∃ left : Printer, left.cursor = printer.cursor ∧
    left.page = printer.page.separate printer.frames printer.word ∧
      printer.step (some bound) = .error (.tooDeep printer.cursor.current) left := by
  obtain ⟨enters, reached⟩ := full
  rcases printer.heeds with ⟨-, ready, inner, entrance⟩ | ⟨other, -⟩
  · refine ⟨ready, entrance.cursor, entrance.page, ?_⟩
    rw [entrance.step, enter, if_pos, entrance.cursor]
    simpa [entrance.levels] using reached
  · exact absurd enters other

theorem step_of_room (room : ¬printer.Full bound) : printer.step (some bound) = printer.step none := by
  rcases printer.heeds with ⟨enters, ready, inner, entrance⟩ | ⟨-, same⟩
  · have fewer : ¬bound ≤ ready.frames.length := by
      rw [entrance.levels]
      exact fun reached => room ⟨enters, reached⟩
    rw [entrance.step, entrance.step, enter, enter, if_neg, if_neg]
    · simp
    · simpa using fewer
  · exact same _

/-- The printers that follow one another without a limit, with the words printed from the first to the last. -/
inductive Reaches : Printer → List Word → Printer → Prop
  | refl (printer : Printer) : Reaches printer [] printer
  | step {printer next last : Printer} {words : List Word} (stepped : printer.step none = .ok () next)
      (inside : next.frames ≠ []) (later : Reaches next words last) :
      Reaches printer (printer.word :: words) last

namespace Reaches

variable {words : List Word} {last : Printer}

theorem levels (reaches : printer.Reaches words last) :
    (last.frames.length : Int) = printer.frames.length + openLevels words := by
  induction reaches with
  | refl => simp [openLevels]
  | step stepped _ _ ih =>
    have rises := length_follow? (step_ok stepped).1
    rw [openLevels]
    omega

theorem adds {page : Page} {earlier : List Word} (reaches : printer.Reaches words last)
    (adds : page.Adds printer.page earlier) : page.Adds last.page (earlier ++ words) := by
  induction reaches generalizing earlier with
  | refl => simpa using adds
  | @step printer next last words stepped _ _ ih =>
    obtain ⟨-, -, -, put⟩ := step_ok stepped
    have more : page.Adds next.page (earlier ++ [printer.word]) := put ▸ adds.put printer.frames printer.word
    simpa using ih more

/-- The limit is passed only by entering a construct while it is reached. -/
theorem exists_full (reaches : printer.Reaches words last) (low : printer.frames.length ≤ bound)
    (deep : bound < last.frames.length) : ∃ before now, printer.Reaches before now ∧ now.Full bound := by
  induction reaches with
  | refl => omega
  | @step printer next last words stepped inside later ih =>
    by_cases lower : next.frames.length ≤ bound
    · obtain ⟨before, now, reached, full⟩ := ih lower deep
      exact ⟨_, now, .step stepped inside reached, full⟩
    · have place := (step_ok stepped).1
      have rises := length_follow? place
      have steep := printer.word.rise_le_one
      have opening : printer.word.Opening := Word.opening_of_rise (by omega)
      exact ⟨[], printer, .refl _, ⟨opening, by simp [place]⟩, by omega⟩

end Reaches

theorem finish_of_step_error {limit : Option Nat} {after : Printer} {fault : Fault}
    (stepped : printer.step limit = .error fault after) : printer.finish limit = .error fault after := by
  rw [finish]
  split
  · rename_i same
    rw [stepped] at same
    cases same
    rfl
  · rename_i same
    rw [stepped] at same
    contradiction

theorem text_finish (limit : Option Nat) (printer : Printer) :
    ∃ more, (Rendering.ofOutcome (printer.finish limit)).text = printer.page.text ++ more := by
  have worked := printer.worked_finish limit
  cases ended : printer.finish limit with
  | ok _ after =>
    rw [ended] at worked
    obtain ⟨tokens, works⟩ := worked
    exact works.page.exists_append
  | error fault after =>
    rw [ended] at worked
    obtain ⟨written, lost, works, -⟩ := worked
    exact works.page.exists_append

/-- The printing without a limit goes on from where the limit breaks it off. -/
theorem text_finish_of_enters (enters : printer.Enters) :
    ∃ more, (Rendering.ofOutcome (printer.finish none)).text =
      (printer.page.separate printer.frames printer.word).text ++ more := by
  rcases printer.heeds with ⟨-, ready, inner, entrance⟩ | ⟨other, -⟩
  · -- Without the limit the opening is written behind the separator, unless a stray character hides it.
    have step := entrance.step none
    simp only [enter, Option.any_none, Bool.false_eq_true, if_false, take] at step
    rw [← entrance.page]
    cases moved : ready.cursor.advance with
    | ok token cursor =>
      rw [moved] at step
      obtain ⟨more, text⟩ := text_finish none ({ ready with cursor }.opening token inner)
      refine ⟨token.text ++ more, ?_⟩
      rw [finish_of_step step, ← String.append_assoc]
      exact text
    | error fault cursor =>
      rw [moved] at step
      exact ⟨"", by rw [finish_of_step_error step, String.append_empty]; rfl⟩
  · exact absurd enters other

/-- The limit breaks the printing off, and the page is one that there is without the limit too. -/
def Breaks (bound : Nat) (printer : Printer) : Prop :=
  ∃ token left, printer.finish (some bound) = .error (.tooDeep token) left ∧
    ∃ more, (Rendering.ofOutcome (printer.finish none)).text = left.page.text ++ more

theorem breaks_of_full (full : printer.Full bound) : printer.Breaks bound := by
  obtain ⟨left, -, page, stepped⟩ := step_of_full full
  refine ⟨printer.cursor.current, left, finish_of_step_error stepped, ?_⟩
  rw [page]
  exact text_finish_of_enters full.1

theorem breaks_of_reaches {words : List Word} {last : Printer} (reaches : printer.Reaches words last)
    (full : last.Full bound) : printer.Breaks bound := by
  induction reaches with
  | refl => exact breaks_of_full full
  | @step printer next last words stepped inside later ih =>
    by_cases earlier : printer.Full bound
    · exact breaks_of_full earlier
    · have goes_on (limit : Option Nat) : next.resume limit = next.finish limit := by
        rw [resume, if_neg (by simpa using inside)]
      have limited := (step_of_room earlier).trans stepped
      rw [Breaks, finish_of_step stepped, finish_of_step limited, goes_on, goes_on]
      exact ih full

theorem finish_of_room (room : ∀ words last, printer.Reaches words last → ¬last.Full bound) :
    printer.finish (some bound) = printer.finish none := by
  refine finish_induction none
    (fun now => now.finish (some bound) = printer.finish (some bound) ∧
      ∀ words last, now.Reaches words last → ¬last.Full bound)
    (fun outcome => printer.finish (some bound) = outcome) ?_ ?_ ?_ printer ⟨rfl, room⟩
  · rintro before after ⟨same, room⟩ stepped inside
    have limited := (step_of_room (room _ _ (.refl before))).trans stepped
    refine ⟨?_, fun words last reached => room _ _ (.step stepped inside reached)⟩
    rw [← same, finish_of_step limited, resume, if_neg (by simpa using inside)]
  · rintro before after ⟨same, room⟩ stepped bare
    have limited := (step_of_room (room _ _ (.refl before))).trans stepped
    rw [← same, finish_of_step limited, resume, if_pos (by simpa using bare)]
  · rintro before fault after ⟨same, room⟩ stepped
    have limited := (step_of_room (room _ _ (.refl before))).trans stepped
    rw [← same, finish_of_step_error limited]

theorem finish_ne_tooDeep (printer : Printer) (token : Token) (after : Printer) :
    printer.finish none ≠ .error (.tooDeep token) after := by
  refine finish_induction none (fun _ => True) (fun outcome => outcome ≠ .error (.tooDeep token) after)
    (fun _ _ _ _ _ => trivial) ?_ ?_ printer trivial
  · intro before last _ _ _ same
    contradiction
  · intro before fault last _ stepped same
    cases same
    have goes := goes_step none before
    rw [stepped] at goes
    cases goes with
    | full _ _ full => exact full fun bound known => by contradiction
    | hidden _ failed =>
      obtain ⟨c, line, column, stray⟩ := Cursor.stray_of_advance failed
      contradiction

end Printer

end NodeDump
