import NodeDump.Proofs.Printer.Limit
import NodeDump.Proofs.Printer.Placement

/-!
The depth of the page against what is open. However a printing ends, the page is set in by as many more levels as
the words that have been written leave constructs open, which is by none if the value is whole.
-/

namespace NodeDump

theorem openLevels_eq_countP (words : List Word) :
    openLevels words = (words.countP (·.Opening) : Int) - words.countP (·.Closing) := by
  induction words with
  | nil => rfl
  | cons word words ih =>
    rw [openLevels, ih, List.countP_cons, List.countP_cons]
    by_cases opening : word.Opening
    · have noClosing : ¬word.Closing := fun closing => closing.not_starting (Or.inl opening)
      simp only [Word.rise_of_opening opening, opening, noClosing]
      simp
      omega
    · by_cases closing : word.Closing
      · simp only [Word.rise_of_closing closing, opening, closing]
        simp
        omega
      · simp [Word.rise_of_other opening closing, opening, closing]

variable {frames inner : List Frame} {words more : List Word}

theorem levels_of_walk (walked : walk? frames words = some inner) :
    (inner.length : Int) = frames.length + openLevels words := by
  induction words generalizing frames with
  | nil =>
    obtain rfl : frames = inner := by simpa [walk?] using walked
    simp [openLevels]
  | cons word words ih =>
    rw [walk?_cons] at walked
    obtain ⟨middle, place, behind⟩ := Option.bind_eq_some_iff.1 walked
    rw [ih behind, length_follow? place, openLevels, Int.add_assoc]

theorem Encloses.walk (encloses : Encloses frames words) (walked : walk? frames more = some inner) :
    Encloses inner (words ++ more) := by
  induction more generalizing frames words with
  | nil =>
    obtain rfl : frames = inner := by simpa [walk?] using walked
    simpa using encloses
  | cons word more ih =>
    rw [walk?_cons] at walked
    obtain ⟨middle, place, behind⟩ := Option.bind_eq_some_iff.1 walked
    rw [List.append_cons]
    exact ih (encloses.follow place) behind

/-- As long as all words are in place, what is left open has been opened and not closed. -/
theorem length_openWords (walked : walk? [] words = some frames) :
    ((openWords words).length : Int) = openLevels words := by
  have lengths := (Encloses.start.walk walked).opened.length_eq
  have levels := levels_of_walk walked
  rw [List.nil_append] at lengths
  rw [← lengths, levels, List.length_nil]
  omega

theorem Page.depth_separate (page : Page) (frames : List Frame) (word : Word) :
    (page.separate frames word).depth = page.depth := by
  unfold separate
  split
  · split
    · rfl
    · split <;> simp
  · rfl

namespace Printer

/-- The words written since the start are those that have led to what is open, and the depth has kept up. -/
structure Balanced (start now : Printer) (written : List Token) : Prop where
  walk : walk? start.frames (written.map Token.word) = some now.frames
  depth : now.page.depth = start.page.depth + openLevels (written.map Token.word)

variable {limit : Option Nat} {start printer after : Printer} {written : List Token}

theorem Balanced.refl (printer : Printer) : printer.Balanced printer [] where
  walk := rfl
  depth := by simp [openLevels]

theorem Balanced.step (balanced : start.Balanced printer written) (stepped : printer.step limit = .ok () after) :
    start.Balanced after (written ++ [printer.cursor.current]) := by
  obtain ⟨place, -, -, page⟩ := step_ok stepped
  have word : printer.cursor.current.word = printer.word := rfl
  refine ⟨?_, ?_⟩
  · rw [List.map_append, List.map_singleton, walk?_append, balanced.walk, Option.bind_some, walk?_cons, word, place]
    rfl
  · rw [page, Page.depth_put place, balanced.depth, List.map_append, List.map_singleton, openLevels_concat, word,
      Int.add_assoc]

/-- What a printing that began with nothing open has done when it ends: the tokens it has taken and written, and
the constructs that these leave open. -/
def Settled (start : Printer) : Outcome → Prop
  | .ok () after => ∃ written, start.Works after written written ∧ openWords (written.map Token.word) = [] ∧
      after.page.depth = start.page.depth
  | .error _ after => ∃ written lost, start.Works after (written ++ lost) written ∧ lost.length ≤ 1 ∧
      after.page.depth = start.page.depth + openLevels (written.map Token.word) ∧
      ((openWords (written.map Token.word)).length : Int) = openLevels (written.map Token.word)

theorem settled_finish (limit : Option Nat) (bare : printer.frames = []) :
    printer.Settled (printer.finish limit) := by
  refine finish_induction limit
    (fun now => ∃ written, printer.Works now written written ∧ printer.Balanced now written) printer.Settled
    ?_ ?_ ?_ printer ⟨[], .refl printer, .refl printer⟩
  · rintro before after ⟨written, works, balanced⟩ stepped -
    exact ⟨_, works.step stepped, balanced.step stepped⟩
  · rintro before after ⟨written, works, balanced⟩ stepped closed
    have last := balanced.step stepped
    have walk := last.walk
    have depth := last.depth
    rw [bare, closed] at walk
    have none_open := length_openWords walk
    have levels := levels_of_walk walk
    simp only [List.length_nil] at levels
    refine ⟨_, works.step stepped, List.length_eq_zero_iff.1 (by omega), by omega⟩
  · rintro before fault after ⟨written, works, balanced⟩ stepped
    obtain ⟨lost, left, few⟩ := works.step_error stepped
    have walk := balanced.walk
    rw [bare] at walk
    refine ⟨written, lost, left, few, ?_, length_openWords walk⟩
    rw [page_of_step_error stepped, Page.depth_separate, balanced.depth]

end Printer

end NodeDump
