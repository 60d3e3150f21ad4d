import NodeDump.Proofs.Printer.Spine

/-!
The page as a text of words. It holds the words that have been printed, with blanks between them and behind the
last. A word in place is added to the words on the page, and the separator in front of a word that is not printed
adds no word.
-/

namespace NodeDump
open Lexeme

theorem receive?_ne_key {frames outer : List Frame} (received : receive? outer = some frames)
    (inner : List Frame) : frames ≠ .node .key :: inner := by
  rintro rfl
  unfold receive? at received
  split at received
  · simp at received
  · simp at received
  · simp at received

theorem begin?_ne_key {frames inside : List Frame} {word : Word} (begun : begin? frames word = some inside)
    (other : ∀ inner, frames ≠ .node .key :: inner) (inner : List Frame) :
    inside ≠ .node .key :: inner := by
  rintro rfl
  unfold begin? at begun
  split at begun
  · simp at begun
  · simp at begun
  · exact other inner (by simpa using begun)
  · exact other inner (by simpa using begun)
  · contradiction

theorem Spine.bare_iff {limit : Option Nat} {frames : List Frame} {words : List Word}
    (spine : Spine limit frames words) : frames = [] ↔ words = [] := by
  cases spine with
  | start => simp
  | node => simp
  | array => simp

/-- The key of an attribute is forgotten once its value has begun. -/
theorem Spine.outer_ne_key {limit : Option Nat} {frame : Frame} {frames : List Frame} {words : List Word}
    (spine : Spine limit (frame :: frames) words) (inner : List Frame) : frames ≠ .node .key :: inner := by
  cases spine with
  | node _ received => exact receive?_ne_key received inner
  | array _ received => exact receive?_ne_key received inner

namespace Page

theorem blank_space : Run Char.isWhitespace " ".toList := by
  intro c member
  obtain rfl : c = ' ' := by simpa using member
  decide

theorem blank_lineBreak (page : Page) : Run Char.isWhitespace page.lineBreak.toList := by
  intro c member
  simp only [lineBreak, String.toList_ofList, List.mem_cons, List.mem_replicate] at member
  rcases member with rfl | ⟨-, rfl⟩ <;> decide

theorem lineBreak_ne_nil (page : Page) : page.lineBreak.toList ≠ [] := by
  simp [lineBreak]

/-- The words on the page, and the blanks behind the last. -/
def Holds (page : Page) (words : List Word) (last : List Char) : Prop :=
  ∃ items, page.text.toList = spell items last ∧ items.map Prod.snd = words ∧ Spaced items last

theorem holds_empty (width : Int) : Holds { width } [] [] :=
  ⟨[], rfl, rfl, ⟨by simp, by simp [Run], by simp, .nil⟩⟩

namespace Holds

variable {page : Page} {words : List Word} {last : List Char}

theorem of_text {other : Page} (holds : page.Holds words last) (same : other.text = page.text) :
    other.Holds words last := by
  unfold Holds
  rw [same]
  exact holds

theorem begun (holds : page.Holds words last) (some_word : words ≠ []) : page.text ≠ "" := by
  obtain ⟨items, text, rfl, spaced⟩ := holds
  obtain ⟨item, items, rfl⟩ := List.exists_cons_of_ne_nil (by simpa using some_word)
  have solid := (spaced.lexical item List.mem_cons_self).ne_nil
  intro empty
  rw [empty] at text
  have length := congrArg List.length text
  have positive := List.length_pos_iff.2 solid
  simp only [String.toList_empty, List.length_nil, spell, List.length_append] at length
  omega

theorem blank (holds : page.Holds words last) {more : String} (run : Run Char.isWhitespace more.toList) :
    (page.write more).Holds words (last ++ more.toList) := by
  obtain ⟨items, text, same, spaced⟩ := holds
  refine ⟨items, by simp [text, spell_last_append], same, ?_⟩
  exact ⟨spaced.blank, spaced.lastBlank.append run, spaced.lexical, spaced.separated⟩

theorem lineBreak (holds : page.Holds words last) :
    (page.write page.lineBreak).Holds words (last ++ page.lineBreak.toList) :=
  holds.blank page.blank_lineBreak

theorem word (holds : page.Holds words last) {word : Word} (lexical : Lexical word)
    (apart : (words ++ [word]).IsChain Apart) (gap : last = [] → words = [] ∨ word.Closing) :
    (page.write word.2).Holds (words ++ [word]) [] := by
  obtain ⟨items, text, rfl, spaced⟩ := holds
  refine ⟨items ++ [(last, word)], ?_, by simp, ?_⟩
  · rw [spell_concat, ← text, text_write, String.toList_append]
  · refine ⟨?_, by simp [Run], ?_, ?_⟩
    · intro item member
      rcases List.mem_append.1 member with before | here
      · exact spaced.blank item before
      · obtain rfl := List.mem_singleton.1 here
        exact spaced.lastBlank
    · intro item member
      rcases List.mem_append.1 member with before | here
      · exact spaced.lexical item before
      · obtain rfl := List.mem_singleton.1 here
        exact lexical
    · refine List.isChain_append.2 ⟨spaced.separated, by simp, ?_⟩
      intro before front after only
      obtain rfl : (last, word) = after := by simpa using only
      have some_item : items ≠ [] := by
        rintro rfl
        simp at front
      refine ⟨fun empty => (gap empty).resolve_left (by simpa using some_item), ?_⟩
      refine (List.isChain_append.1 apart).2.2 before.2 ?_ word (by simp)
      simp only [Option.mem_def] at front
      simp [List.getLast?_map, front]

theorem separate (holds : page.Holds words last) {frames : List Frame} (word : Word)
    (begun : frames ≠ [] → words ≠ []) :
    ∃ more, (page.separate frames word).Holds words (last ++ more) ∧
      ∀ tagged filled outer, frames = .array tagged filled :: outer → word.1 ≠ .arrayEnd → more ≠ [] := by
  unfold Page.separate
  split
  · rename_i tagged filled outer
    split
    · rename_i last
      exact ⟨[], by simpa using holds, fun _ _ _ _ other => absurd last other⟩
    · cases tagged with
      | true => exact ⟨[' '], holds.blank blank_space, by simp⟩
      | false =>
        have line := startLine_of_ne_empty (holds.begun (begun (by simp))) ""
        simp only [Bool.false_eq_true, if_false, line, String.append_empty]
        exact ⟨page.lineBreak.toList, holds.lineBreak, fun _ _ _ _ _ => page.lineBreak_ne_nil⟩
  · rename_i other
    exact ⟨[], by simpa using holds, fun _ _ _ same => absurd same (other _ _ _)⟩

end Holds

/-- The words on the page, with a blank behind them if the last is the key of an open node. -/
def Laid (page : Page) (frames : List Frame) (words : List Word) : Prop :=
  ∃ last, page.Holds words last ∧ ∀ outer, frames = .node .key :: outer → last ≠ []

variable {limit : Option Nat} {page : Page} {frames inner : List Frame} {words : List Word} {word : Word}

theorem Laid.holds_separate (laid : page.Laid frames words) (spine : Spine limit frames words)
    (word : Word) : ∃ last, (page.separate frames word).Holds words last := by
  obtain ⟨last, holds, -⟩ := laid
  obtain ⟨more, separated, -⟩ := holds.separate word (mt spine.bare_iff.2)
  exact ⟨last ++ more, separated⟩

theorem Laid.put_starting (laid : page.Laid frames words) (spine : Spine limit frames words)
    (lexical : Lexical word) (apart : (words ++ [word]).IsChain Apart) (starting : word.Starting)
    (place : follow? frames word = some inner) : (page.put frames word).Laid inner (words ++ [word]) := by
  obtain ⟨last, holds, blank⟩ := laid
  obtain ⟨more, separated, filled⟩ := holds.separate word (mt spine.bare_iff.2)
  obtain ⟨middle, received, begun⟩ := receive?_of_follow starting place
  have gap : last ++ more = [] → words = [] ∨ word.Closing := by
    intro empty
    obtain ⟨rfl, rfl⟩ := List.append_eq_nil_iff.1 empty
    -- A value without blanks in front can only be the outermost one.
    unfold receive? at received
    split at received
    · exact Or.inl (spine.bare_iff.1 rfl)
    · simp only [Option.ite_none_right_eq_some] at received
      exact absurd rfl (blank _ (by rw [received.1]))
    · exact absurd rfl (filled _ _ _ rfl fun last => Word.Closing.not_starting (Or.inr last) starting)
  have written := separated.word lexical apart gap
  refine ⟨[], ?_, fun outer same => absurd same (begin?_ne_key begun (receive?_ne_key received) outer)⟩
  rcases starting with opening | scalar
  · rw [put_opening opening]
    exact written.of_text rfl
  · rw [put_scalar scalar]
    exact written

theorem Laid.put_key (laid : page.Laid frames words) (spine : Spine limit frames words)
    (lexical : Lexical word) (apart : (words ++ [word]).IsChain Apart) (key : word.1 = .key)
    (place : follow? frames word = some inner) : (page.put frames word).Laid inner (words ++ [word]) := by
  obtain ⟨last, holds, -⟩ := laid
  have inside : frames ≠ [] := by
    rintro rfl
    simp [follow?, begin?, key] at place
  have gap : last ++ page.lineBreak.toList = [] → words = [] ∨ word.Closing := by
    intro empty
    exact absurd (List.append_eq_nil_iff.1 empty).2 page.lineBreak_ne_nil
  have written := (holds.lineBreak.word lexical apart gap).blank blank_space
  refine ⟨[' '], ?_, fun _ _ => by simp⟩
  rw [Page.put_key key, startLine_of_ne_empty (holds.begun (mt spine.bare_iff.2 inside))]
  exact written.of_text (by simp [String.append_assoc])

theorem Laid.put_closing (laid : page.Laid frames words) (spine : Spine limit frames words)
    (lexical : Lexical word) (apart : (words ++ [word]).IsChain Apart) (closing : word.Closing)
    (place : follow? frames word = some inner) : (page.put frames word).Laid inner (words ++ [word]) := by
  obtain ⟨last, holds, -⟩ := laid
  obtain ⟨frame, rfl⟩ := Spine.follow?_closing closing place
  refine ⟨[], ?_, fun outer same => absurd same (spine.outer_ne_key outer)⟩
  rw [Page.put_closing closing]
  split
  · have written := (holds.of_text (text_shift page (-1))).lineBreak.word lexical apart
      fun _ => Or.inr closing
    have begun : (page.shift (-1)).text ≠ "" := holds.begun (mt spine.bare_iff.2 (by simp))
    rw [startLine_of_ne_empty begun]
    exact written.of_text (by simp [String.append_assoc])
  · exact (holds.word lexical apart fun _ => Or.inr closing).of_text rfl

theorem Laid.put (laid : page.Laid frames words) (spine : Spine limit frames words)
    (lexical : Lexical word) (apart : (words ++ [word]).IsChain Apart)
    (place : follow? frames word = some inner) : (page.put frames word).Laid inner (words ++ [word]) := by
  rcases sort_of_follow place with starting | key | closing
  · exact laid.put_starting spine lexical apart starting place
  · exact laid.put_key spine lexical apart key place
  · exact laid.put_closing spine lexical apart closing place

end Page

end NodeDump
