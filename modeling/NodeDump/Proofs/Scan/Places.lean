import NodeDump.Proofs.Scan.Division

/-!
Where tokens stand. The tokens of a divided text are its words, each in the place behind all the text in front of
it.
-/

namespace NodeDump
open Lexeme

namespace Position

theorem lineStart_after_of_not_mem (p : Position) {text : List Char} (flat : '\n' ∉ text) :
    (p.after text).lineStart = p.lineStart := by
  induction text generalizing p with
  | nil => rfl
  | cons c text ih =>
    have other : c ≠ '\n' := (List.ne_of_not_mem_cons flat).symm
    rw [after_cons, ih _ (List.not_mem_of_not_mem_cons flat), next, if_neg other]

theorem column_after_lineFeed (p : Position) (text : List Char) {flat : List Char} (no_feed : '\n' ∉ flat) :
    (p.after (text ++ '\n' :: flat)).column = flat.length := by
  have start := lineStart_after_of_not_mem ((p.after text).next '\n') no_feed
  rw [after_append, after_cons, column, start, index_after]
  simp only [next, if_true]
  omega

end Position

def placed (position : Position) : List (List Char × Word) → List Token
  | [] => []
  | (gap, word) :: later =>
    ⟨word.1, (position.after gap).line, (position.after gap).column, word.2⟩ ::
      placed (position.after (gap ++ word.2.toList)) later

theorem length_placed (position : Position) (items : List (List Char × Word)) :
    (placed position items).length = items.length := by
  induction items generalizing position with
  | nil => rfl
  | cons item items ih => simp [placed, ih]

theorem placed_append (position : Position) (first second : List (List Char × Word)) :
    placed position (first ++ second) =
      placed position first ++ placed (position.after (spell first [])) second := by
  induction first generalizing position with
  | nil => rfl
  | cons item first ih =>
    simp only [List.cons_append, placed, spell, ih, ← Position.after_append, List.append_assoc]

theorem place_of_placed {position : Position} {before later : List (List Char × Word)} {item : List Char × Word}
    {front behind : List Token} {token : Token}
    (same : placed position (before ++ item :: later) = front ++ token :: behind)
    (level : before.length = front.length) :
    token.line = (position.after (spell before item.1)).line ∧
      token.column = (position.after (spell before item.1)).column := by
  rw [placed_append] at same
  obtain ⟨-, rest⟩ := List.append_inj same (by rw [length_placed, level])
  obtain ⟨rfl, -⟩ := List.cons.inj rest
  have whole : spell before item.1 = spell before [] ++ item.1 := spell_last_append before [] item.1
  rw [whole, Position.after_append]
  exact ⟨rfl, rfl⟩

namespace Reader

variable {reader after : Reader} {token : Token}

theorem place_of_read (took : reader.read = .ok token after) :
    token.line = reader.skipBlanks.position.line ∧ token.column = reader.skipBlanks.position.column := by
  unfold read readHere at took
  split at took
  · cases took
    exact ⟨rfl, rfl⟩
  · split at took
    · contradiction
    · cases took
      exact ⟨rfl, rfl⟩

theorem tokens_of_division {items : List (List Char × Word)} {last : List Char}
    (division : Division reader.rest items last) :
    (Scan.ofReader reader).tokens = placed reader.position items := by
  induction items generalizing reader with
  | nil =>
    obtain ⟨pieces, rest, divided, words, -⟩ := reader.division
    obtain ⟨rfl, -⟩ := divided.unique division
    exact List.map_eq_nil_iff.1 words
  | cons item items ih =>
    obtain ⟨gap, word⟩ := item
    obtain ⟨blank, consumes, munched⟩ := division.munched
    have front := consumes_iff.1 consumes
    have language := (first?_sound front).1
    have lexical : Lexical word := ⟨language, consumes.solid⟩
    have whole : reader.rest = gap ++ (word.2.toList ++ spell items last) := division.whole
    obtain ⟨token, after, took, rfl, rest⟩ := read_lexical blank lexical whole (first?_sound front).2
    have going : token.isEnd = false := lexical.isEnd_eq_false
    have place : after.position = reader.position.after (gap ++ token.text.toList) := by
      apply (passes_of_read took).position
      rw [whole, rest, List.append_assoc]
      rfl
    have start : reader.skipBlanks.position = reader.position.after gap := by
      have gap_eq := (first?_of_gap blank consumes).1
      rw [← whole] at gap_eq
      rw [skipBlanks, gap_eq]
    have later : Division after.rest items last := ⟨rest, munched, division.leftover⟩
    obtain ⟨line, column⟩ := place_of_read took
    rw [Scan.ofReader_of_token took going, ih later, place]
    rw [start] at line column
    simp [placed, ← line, ← column, Token.word]

end Reader

end NodeDump
