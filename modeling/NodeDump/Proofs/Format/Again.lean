import NodeDump.Proofs.Format.Arranged
import NodeDump.Proofs.Format.Dumps
import NodeDump.Proofs.Format.Kept

/-!
A layout that is laid out once more. A layout has no character that neither its source nor the blanks put in by the
layout have, and a layout with blanks behind it has the same layout.
-/

namespace NodeDump
open Lexeme

theorem mem_spell_iff {c : Char} {items : List (List Char × Word)} {last : List Char} :
    c ∈ spell items last ↔ (∃ item ∈ items, c ∈ item.1 ∨ c ∈ item.2.2.toList) ∨ c ∈ last := by
  induction items with
  | nil => simp [spell]
  | cons item items ih => simp [spell, ih, or_assoc]

theorem Scan.mem_of_mem_word {source : String} {word : Word} (member : word ∈ (Scan.ofSource source).words)
    {c : Char} (among : c ∈ word.2.toList) : c ∈ source.toList := by
  obtain ⟨items, last, division, words, -⟩ := (Reader.ofSource source {}).division
  have whole : source.toList = spell items last := division.whole
  rw [Scan.ofSource, words] at member
  obtain ⟨item, here, rfl⟩ := List.mem_map.1 member
  rw [whole, mem_spell_iff]
  exact Or.inl ⟨item, here, Or.inr among⟩

theorem mem_of_mem_format {source : String} {width : Int} {limit : Option Nat} {c : Char}
    (member : c ∈ (format source width limit).text.toList) : c ∈ source.toList ∨ c = ' ' ∨ c = '\n' := by
  obtain ⟨done, ⟨-, halts⟩, last, whole, -, plain⟩ := stands_arranged source width limit
  rw [whole, mem_spell_iff] at member
  rcases member with ⟨item, here, gap | text⟩ | behind
  · exact Or.inr (plain_arrange _ _ _ item here c gap)
  · apply Or.inl
    have printed : item.2 ∈ done.map Token.word := by
      rw [← map_snd_arrange width [] (done.map Token.word)]
      exact List.mem_map_of_mem here
    have scanned : done.map Token.word <+: (Scan.ofSource source).words :=
      halts.prefix_tokens.map Token.word
    exact Scan.mem_of_mem_word (scanned.subset printed) text
  · exact Or.inr (plain c behind)

/-- However the printing ends, the text is made of words with blanks that keep them apart. -/
theorem spaced_format (source : String) (width : Int) (limit : Option Nat) :
    ∃ items last, (format source width limit).text.toList = spell items last ∧ Spaced items last := by
  unfold format
  split
  · exact ⟨[], [], rfl, ⟨by simp, by simp [Run], by simp, .nil⟩⟩
  · rename_i cursor begun
    have of_holds {page : Page} {words : List Word} {last : List Char} (holds : page.Holds words last) :
        ∃ items last, page.text.toList = spell items last ∧ Spaced items last := by
      obtain ⟨items, text, -, spaced⟩ := holds
      exact ⟨items, last, text, spaced⟩
    refine Printer.finish_induction limit
      (fun printer => ∃ done, Progress limit (Scan.ofSource source) done printer)
      (fun outcome => ∃ items last, (Rendering.ofOutcome outcome).text.toList = spell items last ∧
        Spaced items last)
      ?_ ?_ ?_ _ ⟨[], .start begun width⟩
    · rintro before after ⟨done, progress⟩ stepped inside
      exact ⟨_, progress.step_more stepped inside⟩
    · rintro before after ⟨done, progress⟩ stepped -
      obtain ⟨-, -, -, last, holds, -⟩ := progress.step stepped
      exact of_holds holds
    · rintro before fault after ⟨done, progress⟩ stepped
      obtain ⟨last, holds⟩ := progress.laid.holds_separate progress.spine before.word
      rw [← Printer.page_of_step_error stepped] at holds
      exact of_holds holds

theorem words_format_append (source : String) (width : Int) (limit : Option Nat) {more : String}
    (blank : Run Char.isWhitespace more.toList) :
    (Scan.ofSource ((format source width limit).text ++ more)).words =
        (Scan.ofSource (format source width limit).text).words ∧
      ∃ last, (Scan.ofSource ((format source width limit).text ++ more)).ending = .ok last := by
  obtain ⟨items, last, text, spaced⟩ := spaced_format source width limit
  have longer : Spaced items (last ++ more.toList) :=
    ⟨spaced.blank, spaced.lastBlank.append blank, spaced.lexical, spaced.separated⟩
  have whole : ((format source width limit).text ++ more).toList = spell items (last ++ more.toList) := by
    rw [String.toList_append, text, spell_last_append]
  have here : (Reader.ofSource (format source width limit).text {}).rest = spell items last := text
  have there : (Reader.ofSource ((format source width limit).text ++ more) {}).rest =
      spell items (last ++ more.toList) := whole
  obtain ⟨words, -⟩ := Scan.words_of_spell spaced here
  obtain ⟨again, ended⟩ := Scan.words_of_spell longer there
  exact ⟨again.trans words.symm, ended⟩

theorem format_append {source : String} {first : Int} {limit : Option Nat}
    (accepted : (format source first limit).fault? = none) {more : String}
    (blank : Run Char.isWhitespace more.toList) (second : Int) :
    format ((format source first limit).text ++ more) second limit = format source second limit := by
  obtain ⟨dump, room, same⟩ := dump_of_format accepted
  obtain ⟨words, last, ended⟩ := same source (by simp)
  obtain ⟨again, -⟩ := same (format source first limit).text (by simp)
  obtain ⟨longer, final, closed⟩ := words_format_append source first limit blank
  rw [format_of_dump (longer.trans again) closed room, format_of_dump words ended room]

end NodeDump
