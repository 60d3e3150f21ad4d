import NodeDump.Proofs.Format.Dumps
import NodeDump.Proofs.Lexeme.Literal
import NodeDump.Proofs.Scan.Moves
import NodeDump.Proofs.Scan.Reached

/-!
Texts in quotes as sources. Every text on one line can be put in quotes and is read and laid out in this form,
nothing else is ever read as a string, and where no such text stands behind a quote the quote is stray.
-/

namespace NodeDump
open Lexeme

theorem Literal.lexical {content : List Char} (flat : '\n' ∉ content) :
    Lexical (.string, String.ofList (encode content)) where
  language := by simpa using language_encode flat
  solid := by simp [encode]

namespace Reader

variable {reader : Reader} {gap tail : List Char} {c : Char}

theorem stray_of_gap_iff (blank : Run Char.isWhitespace gap) (solid : c.isWhitespace = false)
    (text : reader.rest = gap ++ c :: tail) :
    (∃ after, reader.read =
        .error (.strayCharacter c (reader.position.after gap).line (reader.position.after gap).column) after) ↔
      first? (c :: tail) = none := by
  have stops : Stops Char.isWhitespace (c :: tail) := stops_cons.2 solid
  obtain ⟨_, position⟩ := reader
  subst text
  rw [read_of_gap blank, read, skipBlanks, stops.dropWhile, stops.takeWhile, Position.after_nil]
  simp only [readHere]
  cases first? (c :: tail) with
  | none => exact ⟨fun _ => rfl, fun _ => ⟨_, rfl⟩⟩
  | some found => simp

end Reader

theorem Cursor.ofSource_literal {content : List Char} (flat : '\n' ∉ content) (behind : String) :
    ∃ cursor, Cursor.ofSource (String.ofList (Literal.encode content) ++ behind) = .ok cursor ∧
      cursor.current.word = (.string, String.ofList (Literal.encode content)) ∧ cursor.rest = behind.toList := by
  let source := String.ofList (Literal.encode content) ++ behind
  have none_before : Run Char.isWhitespace [] := by simp [Run]
  have text : (Reader.ofSource source {}).rest =
      [] ++ ((String.ofList (Literal.encode content)).toList ++ behind.toList) := by
    simp [Reader.ofSource, source]
  obtain ⟨token, after, took, word, rest⟩ := Reader.read_lexical none_before (Literal.lexical flat) text trivial
  exact ⟨⟨after, token⟩, by rw [ofSource, ofReader, took], word, rest⟩

theorem format_literal {content : List Char} (flat : '\n' ∉ content) (width : Int) (limit : Option Nat) :
    format (String.ofList (Literal.encode content)) width limit = ⟨String.ofList (Literal.encode content), none⟩ := by
  let text := String.ofList (Literal.encode content)
  have spaced : Spaced [([], (.string, text))] [] :=
    ⟨by simp [Run], by simp [Run], by simpa using Literal.lexical flat, .singleton _⟩
  have whole : (Reader.ofSource text {}).rest = spell [([], (.string, text))] [] := by
    simp [Reader.ofSource, spell]
  obtain ⟨words, last, ended⟩ := Scan.words_of_spell spaced whole
  have room : Within limit (Dump.string text).height := fun bound _ => Nat.zero_le bound
  have scanned : (Scan.ofSource text).words = (Dump.string text).words := words
  exact format_of_dump scanned ended room width

/-- Every text on one line is read back from its literal, whatever stands behind it, and the literal is laid out as it
stands. Each string that any cursor comes upon is the literal of just one text on one line. A quote where a token
should start is stray just if there is no text on one line whose literal stands there. -/
theorem literals_encoded :
    (∀ content, '\n' ∉ content →
      (∀ behind, ∃ cursor, Cursor.ofSource (String.ofList (Literal.encode content) ++ behind) = .ok cursor ∧
        cursor.current.word = (.string, String.ofList (Literal.encode content)) ∧ cursor.rest = behind.toList) ∧
      ∀ width limit, format (String.ofList (Literal.encode content)) width limit =
        ⟨String.ofList (Literal.encode content), none⟩) ∧
    (∀ cursor : Cursor, cursor.Reached → cursor.current.kind = .string →
      ∃! content, '\n' ∉ content ∧ cursor.current.text = String.ofList (Literal.encode content)) ∧
    ∀ (reader : Reader) (gap tail : List Char), Run Char.isWhitespace gap → reader.rest = gap ++ '"' :: tail →
      ((∃ after, reader.read = .error
        (.strayCharacter '"' (reader.position.after gap).line (reader.position.after gap).column) after) ↔
        ∀ content, '\n' ∉ content → ¬Literal.encode content <+: '"' :: tail) := by
  refine ⟨fun content flat => ⟨?_, ?_⟩, ?_, ?_⟩
  · intro behind
    exact Cursor.ofSource_literal flat behind
  · intro width limit
    exact format_literal flat width limit
  · intro cursor reached string
    have more : cursor.current.isEnd = false := by simp [Token.isEnd, string]
    have language := (reached.lexical more).language
    simp only [Token.word, string] at language
    obtain ⟨content, ⟨flat, same⟩, unique⟩ := Literal.existsUnique_content language
    refine ⟨content, ⟨flat, by simp [← same]⟩, fun other is_other => unique other ⟨is_other.1, ?_⟩⟩
    simp [is_other.2]
  · intro reader gap tail blank text
    rw [Reader.stray_of_gap_iff blank (by decide) text]
    exact Literal.first?_quote_eq_none_iff

/-- A backslash and a quote in front of another quote, and a backslash in front of a letter. -/
theorem literals_encoded_backslashes :
    '\n' ∉ ['\\', '"'] ∧ format "\"\\\\\\\"\"" (-3) = ⟨"\"\\\\\\\"\"", none⟩ ∧
      (∃ cursor, Cursor.ofSource "\"\\\\\\\"\"\"\\" = .ok cursor ∧ cursor.Reached ∧ cursor.rest = ['"', '\\'] ∧
        cursor.current.word = (.string, "\"\\\\\\\"\"") ∧
        ∃! content, '\n' ∉ content ∧ cursor.current.text = String.ofList (Literal.encode content)) ∧
      Reader.read ⟨"\n \"a\\b\"".toList, {}⟩ =
        .error (.strayCharacter '"' 2 1) ⟨"\"a\\b\"".toList, ⟨2, 2, 1⟩⟩ ∧
      ∀ content, '\n' ∉ content → ¬Literal.encode content <+: "\"a\\b\"".toList := by
  have flat : '\n' ∉ ['\\', '"'] := by decide
  obtain ⟨encoded, unique, stray⟩ := literals_encoded
  obtain ⟨begins, laid⟩ := encoded ['\\', '"'] flat
  obtain ⟨cursor, begun, word, rest⟩ := begins "\"\\"
  have reached : cursor.Reached := .of_source begun
  have string : cursor.current.kind = .string := congrArg Prod.fst word
  have blank : Run Char.isWhitespace ['\n', ' '] := by simp [Run]
  have refused : Reader.read ⟨"\n \"a\\b\"".toList, {}⟩ =
      .error (.strayCharacter '"' 2 1) ⟨"\"a\\b\"".toList, ⟨2, 2, 1⟩⟩ := rfl
  exact ⟨flat, laid (-3) _, ⟨cursor, begun, reached, rest, word, unique cursor reached string⟩, refused,
    (stray _ _ _ blank rfl).1 ⟨_, refused⟩⟩

end NodeDump
