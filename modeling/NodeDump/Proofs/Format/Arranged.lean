import NodeDump.Proofs.Printer.Placement
import NodeDump.Proofs.Scan.Places
import NodeDump.Proofs.Scan.Respaced

/-!
The layout of a source as a text. What stands between two tokens of a layout, whole or broken off, is decided by the
constructs that are open there, so each key and each element that starts a line stands in the column of its depth.
-/

namespace NodeDump
open Lexeme

theorem division_of_arranged {text : String} {width : Int} {words : List Word} {last : List Char}
    {tokens : List Token} (scanned : tokenise text = .ok tokens) (same : tokens.map Token.word = words)
    (whole : text.toList = spell (arrange width [] words) last) (plain : Plain last) :
    Division text.toList (arrange width [] words) last := by
  obtain ⟨rfl, -⟩ := Scan.ending_of_tokenise scanned
  have written : Written text (arrange width [] words) last [] :=
    ⟨by simpa using whole, fun item member => (plain_arrange _ _ _ item member).run, plain.run,
      by simp [Stops]⟩
  have division := written.division (by rw [map_snd_arrange, ← same]; rfl)
  rwa [List.append_nil] at division

theorem tokenise_of_arranged {text : String} {width : Int} {words : List Word} {last : List Char}
    {tokens : List Token} (scanned : tokenise text = .ok tokens) (same : tokens.map Token.word = words)
    (whole : text.toList = spell (arrange width [] words) last) (plain : Plain last) :
    tokens = placed {} (arrange width [] words) := by
  have division := division_of_arranged scanned same whole plain
  obtain ⟨rfl, -⟩ := Scan.ending_of_tokenise scanned
  exact Reader.tokens_of_division division

theorem column_of_newLine {width depth : Int} {before : List Word} {word : Word} (some_word : before ≠ [])
    (broken : separator width before word = Page.newLine width depth)
    (items : List (List Char × Word)) (position : Position) :
    (position.after (spell items (lead width before word).toList)).column = max 0 (width * depth) := by
  have text : spell items (lead width before word).toList =
      spell items (trail before).toList ++ '\n' :: List.replicate (depth * width).toNat ' ' := by
    rw [lead_of_ne_nil some_word, broken, String.toList_append, spell_last_append, Page.newLine,
      String.toList_ofList]
  rw [text, Position.column_after_lineFeed _ _ (by simp), List.length_replicate, Int.ofNat_toNat, Int.max_comm,
    Int.mul_comm]

theorem separator_of_startsLine {before : List Word} {word : Word} (starts : StartsLine before word)
    (width : Int) : separator width before word = Page.newLine width (openLevels before) := if_pos starts

theorem separator_of_endsLines {before : List Word} {word : Word} (ends : EndsLines before word) (width : Int) :
    separator width before word = Page.newLine width (openLevels before - 1) := by
  rw [separator_of_closing ends.1, if_pos ends.2]

/-- Every layout is arranged by its tokens: nothing stands in front of the first, `lead` says what stands
between two, and no more than a separator stands behind the last, where there is a fault. A key and an element
that starts a line stand in the column of their depth, and an end that does one level further out. -/
theorem format_arranged (source : String) (width : Int) (limit : Option Nat) :
    ∃ tokens last, tokenise (format source width limit).text = .ok tokens ∧
      (format source width limit).text.toList = spell (arrange width [] (tokens.map Token.word)) last ∧
      ((format source width limit).fault? = none → last = []) ∧ Plain last ∧
      ∀ front token later, tokens = front ++ token :: later →
        (StartsLine (front.map Token.word) token.word →
          token.column = max 0 (width * openLevels (front.map Token.word))) ∧
        (EndsLines (front.map Token.word) token.word →
          token.column = max 0 (width * (openLevels (front.map Token.word) - 1))) := by
  obtain ⟨done, ⟨⟨tokens, scanned, same⟩, -⟩, last, whole, nothing, plain⟩ :=
    stands_arranged source width limit
  rw [← same] at whole
  refine ⟨tokens, last, scanned, whole, nothing, plain, ?_⟩
  intro front token later split_at
  have places := tokenise_of_arranged scanned rfl whole plain
  have words : tokens.map Token.word =
      front.map Token.word ++ (token.word :: later.map Token.word) := by simp [split_at]
  rw [words, arrange_append, List.nil_append, arrange, split_at] at places
  have level : (arrange width [] (front.map Token.word)).length = front.length := by
    rw [length_arrange, List.length_map]
  obtain ⟨-, column⟩ := place_of_placed places.symm level
  rw [column]
  cases front with
  | nil =>
    refine ⟨fun _ => by simp [arrange, spell, lead, openLevels, Position.column], fun ends => ?_⟩
    rcases ends.2.1 with inside | inside <;> contradiction
  | cons first front =>
    exact ⟨fun starts => column_of_newLine (by simp) (separator_of_startsLine starts width) _ _,
      fun ends => column_of_newLine (by simp) (separator_of_endsLines ends width) _ _⟩

end NodeDump
