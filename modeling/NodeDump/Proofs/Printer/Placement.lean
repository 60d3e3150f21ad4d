import NodeDump.Proofs.Printer.Arrangement
import NodeDump.Proofs.Printer.Progress

/-!
The page as an arrangement of words. However the printing of a source ends, the words on the page are arranged, and
nothing but the blank of a key and a separator stands behind the last.
-/

namespace NodeDump

namespace Page

variable {page : Page} {width : Int} {frames inner : List Frame} {words : List Word} {word : Word}

theorem text_startLine (begun : page.text ≠ "") (more : String) :
    (page.startLine more).text = page.text ++ (newLine page.width page.depth ++ more) := by
  rw [startLine_eq begun, text_write]

theorem text_space (encloses : Encloses frames words) (begun : frames ≠ [] → page.text ≠ "")
    (depth : page.depth = openLevels words) (starting : word.Starting) :
    (page.space frames).text = page.text ++ separator page.width words word := by
  rw [separator_of_starting starting, encloses.setting?_eq, ← depth]
  cases frames with
  | nil => simp [space]
  | cons frame frames =>
    cases frame with
    | node ending => simp [space, Frame.setting]
    | array tagged filled =>
      cases tagged with
      | true => simp [space, Frame.setting]
      | false => simp [space, Frame.setting, text_startLine (begun (by simp))]

theorem text_put (encloses : Encloses frames words) (begun : frames ≠ [] → page.text ≠ "")
    (depth : page.depth = openLevels words) (place : follow? frames word = some inner) :
    (page.put frames word).text =
      page.text ++ (separator page.width words word ++ (word.2 ++ trail (words ++ [word]))) := by
  rw [trail_concat]
  rcases sort_of_follow place with starting | key | closing
  · have noKey : word.1 ≠ .key := fun key => Word.not_starting_of_key key starting
    have spaced := text_space encloses begun depth starting
    rw [if_neg noKey, String.append_empty, ← String.append_assoc, ← spaced]
    rcases starting with opening | scalar
    · rw [put_opening opening, separate_starting (Or.inl opening), text_shift, text_write]
    · rw [put_scalar scalar, separate_starting (Or.inr scalar), text_write]
  · have inside : frames ≠ [] := by
      rintro rfl
      simp [follow?, begin?, key] at place
    rw [put_key key, separator_of_key key, text_startLine (begun inside), depth, if_pos key]
  · obtain ⟨frame, rfl⟩ := Spine.follow?_closing closing place
    have text : (page.shift (-1)).text ≠ "" := begun (by simp)
    rw [put_closing closing, separator_of_closing closing, if_neg closing.not_key]
    simp only [encloses.isBroken_iff]
    split
    · rw [text_startLine text]
      simp [depth, Int.sub_eq_add_neg]
    · simp

theorem depth_put (place : follow? frames word = some inner) (page : Page) :
    (page.put frames word).depth = page.depth + word.rise := by
  rcases sort_of_follow place with (opening | scalar) | key | closing
  · rw [put_opening opening, separate_starting (Or.inl opening), Word.rise_of_opening opening]
    simp
  · rw [put_scalar scalar, separate_starting (Or.inr scalar),
      Word.rise_of_other scalar.not_opening scalar.not_closing]
    simp
  · rw [put_key key, Word.rise_of_other (Word.not_opening_of_key key) (Word.not_closing_of_key key)]
    simp
  · rw [put_closing closing, Word.rise_of_closing closing]
    split <;> simp

theorem width_put (place : follow? frames word = some inner) (page : Page) :
    (page.put frames word).width = page.width := by
  rcases sort_of_follow place with (opening | scalar) | key | closing
  · rw [put_opening opening, separate_starting (Or.inl opening)]
    simp
  · rw [put_scalar scalar, separate_starting (Or.inr scalar)]
    simp
  · rw [put_key key, width_startLine]
  · rw [put_closing closing]
    split <;> simp

theorem text_separate (page : Page) (frames : List Frame) (word : Word) :
    ∃ more : String, (page.separate frames word).text = page.text ++ more ∧ Plain more.toList := by
  have nothing : ∃ more : String, page.text = page.text ++ more ∧ Plain more.toList :=
    ⟨"", by simp, plain_nil⟩
  unfold separate
  split
  · split
    · exact nothing
    · split
      · exact ⟨" ", rfl, plain_space⟩
      · unfold startLine
        split
        · exact ⟨"", rfl, plain_nil⟩
        · exact ⟨page.lineBreak, by simp, plain_newLine page.width page.depth⟩
  · exact nothing

/-- The words stand on the page as they are arranged. -/
structure Arranged (page : Page) (width : Int) (words : List Word) : Prop where
  text : page.text.toList = spell (arrange width [] words) (trail words).toList
  depth : page.depth = openLevels words
  width : page.width = width

theorem arranged_empty (width : Int) : Arranged { width } width [] where
  text := rfl
  depth := rfl
  width := rfl

theorem Arranged.put (arranged : page.Arranged width words) (encloses : Encloses frames words)
    (begun : frames ≠ [] → page.text ≠ "") (place : follow? frames word = some inner) :
    (page.put frames word).Arranged width (words ++ [word]) where
  text := by
    have added : arrange width words [word] = [((lead width words word).toList, word)] := rfl
    rw [text_put encloses begun arranged.depth place, arrange_append, List.nil_append, added]
    simp only [String.toList_append, arranged.text, arranged.width, lead_of_follow encloses place,
      spell_append, ← spell_last_append]
    simp [spell]
  depth := by rw [depth_put place, openLevels_concat, arranged.depth]
  width := by rw [width_put place, arranged.width]

end Page

theorem Printer.page_of_step_error {limit : Option Nat} {printer after : Printer} {fault : Fault}
    (stepped : printer.step limit = .error fault after) :
    after.page = printer.page.separate printer.frames printer.word := by
  have goes := goes_step limit printer
  rw [stepped] at goes
  cases goes <;> rfl

/-- The layout is that of the words, with no more than a separator behind the last. -/
def Rendering.Arranged (rendering : Rendering) (width : Int) (words : List Word) : Prop :=
  ∃ last, rendering.text.toList = spell (arrange width [] words) last ∧
    (rendering.fault? = none → last = []) ∧ Plain last

namespace Progress

variable {limit : Option Nat} {width : Int} {reader : Reader} {done : List Token} {printer after : Printer}

theorem begun (progress : Progress limit (Scan.ofReader reader) done printer)
    (inside : printer.frames ≠ []) : printer.page.text ≠ "" := by
  obtain ⟨last, holds, -⟩ := progress.laid
  exact holds.begun (mt progress.spine.bare_iff.2 inside)

theorem arranged_step (progress : Progress limit (Scan.ofReader reader) done printer)
    (encloses : Encloses printer.frames (done.map Token.word))
    (arranged : printer.page.Arranged width (done.map Token.word))
    (stepped : printer.step limit = .ok () after) :
    Encloses after.frames ((done ++ [printer.cursor.current]).map Token.word) ∧
      after.page.Arranged width ((done ++ [printer.cursor.current]).map Token.word) := by
  obtain ⟨place, -, -, page⟩ := Printer.step_ok stepped
  rw [List.map_append, page]
  exact ⟨encloses.follow place, arranged.put encloses progress.begun place⟩

theorem arranged_last (progress : Progress limit (Scan.ofReader reader) done printer)
    (encloses : Encloses printer.frames (done.map Token.word))
    (arranged : printer.page.Arranged width (done.map Token.word))
    (stepped : printer.step limit = .ok () after) (bare : after.frames = []) :
    (Rendering.ofPrinted after).Arranged width ((done ++ [printer.cursor.current]).map Token.word) := by
  obtain ⟨-, laid⟩ := progress.arranged_step encloses arranged stepped
  obtain ⟨place, -, -, -⟩ := Printer.step_ok stepped
  have noKey : printer.word.1 ≠ .key := by
    intro key
    have named : printer.word = (.key, printer.word.2) := Prod.ext key rfl
    rw [named, bare] at place
    obtain ⟨ending, inner, -, none⟩ := Spine.follow?_key place
    contradiction
  have bare_end : trail ((done ++ [printer.cursor.current]).map Token.word) = "" := by
    rw [List.map_append, List.map_singleton, trail_concat]
    exact if_neg noKey
  have text := laid.text
  rw [bare_end] at text
  exact ⟨[], text, fun _ => rfl, plain_nil⟩

theorem arranged_failed (arranged : printer.page.Arranged width (done.map Token.word)) {fault : Fault}
    (stepped : printer.step limit = .error fault after) :
    Rendering.Arranged ⟨after.page.text, some fault⟩ width (done.map Token.word) := by
  obtain ⟨more, text, plain⟩ := Page.text_separate printer.page printer.frames printer.word
  refine ⟨(trail (done.map Token.word)).toList ++ more.toList, ?_, by simp, (plain_trail _).append plain⟩
  rw [Printer.page_of_step_error stepped, text, String.toList_append, arranged.text, spell_last_append]

end Progress

theorem stands_arranged (source : String) (width : Int) (limit : Option Nat) :
    ∃ done, Stands limit (Scan.ofSource source) done (format source width limit) ∧
      (format source width limit).Arranged width (done.map Token.word) := by
  unfold format
  split
  · rename_i fault failed
    exact ⟨[], stands_of_stray failed, [], rfl, fun _ => rfl, plain_nil⟩
  · rename_i cursor begun
    refine Printer.finish_induction limit
      (fun printer => ∃ done, Progress limit (Scan.ofSource source) done printer ∧
        Encloses printer.frames (done.map Token.word) ∧ printer.page.Arranged width (done.map Token.word))
      (fun outcome => ∃ done, Stands limit (Scan.ofSource source) done (.ofOutcome outcome) ∧
        (Rendering.ofOutcome outcome).Arranged width (done.map Token.word))
      ?_ ?_ ?_ _ ⟨[], .start begun width, .start, Page.arranged_empty width⟩
    · rintro before after ⟨done, progress, encloses, arranged⟩ stepped inside
      exact ⟨_, progress.step_more stepped inside, progress.arranged_step encloses arranged stepped⟩
    · rintro before after ⟨done, progress, encloses, arranged⟩ stepped bare
      exact ⟨_, progress.step_last stepped bare, progress.arranged_last encloses arranged stepped bare⟩
    · rintro before fault after ⟨done, progress, encloses, arranged⟩ stepped
      exact ⟨_, progress.step_failed stepped, Progress.arranged_failed arranged stepped⟩

end NodeDump
