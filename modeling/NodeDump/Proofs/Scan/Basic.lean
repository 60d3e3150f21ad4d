import Mathlib.Data.List.Chain
import NodeDump.Proofs.Lexeme.Munch
import NodeDump.Proofs.Word
import NodeDump.Scan

/-!
What reading token by token gives: each token with the blanks in front of it and with what its text has to do with
the text behind it. The words of a scan belong to the languages of their kinds, and no list of numbers follows an
atom.
-/

namespace NodeDump
open Lexeme

structure Lexical (word : Word) : Prop where
  language : Language word.1 word.2.toList
  solid : Stops Char.isWhitespace word.2.toList

/-- No list of numbers stands as an atom of its own behind an atom, because it belongs to that one. -/
def Apart (before after : Word) : Prop :=
  before.1 = .atom → after.1 = .atom → after.2.toList.head? ≠ some '['

namespace Lexical

theorem ne_nil {word : Word} (lexical : Lexical word) : word.2.toList ≠ [] := lexical.language.ne_nil

theorem of_first? {cs : List Char} {found : Lexeme} (front : first? cs = some found) :
    Lexical (found.kind, String.ofList found.text) where
  language := by simpa using (first?_sound front).1
  solid := by
    obtain ⟨c, text, same⟩ := List.exists_cons_of_ne_nil (ne_nil_of_first? front)
    have cut := append_of_first? front
    rw [same, List.cons_append] at cut
    rw [String.toList_ofList, same, stops_cons]
    exact not_blank_of_first? (cut ▸ front)

theorem quotes : Lexical (.string, "\"\"") where
  language := ⟨[], rfl, .nil⟩
  solid := stops_cons.2 rfl

theorem nodeEnd : Lexical (.nodeEnd, "\x7d") where
  language := rfl
  solid := stops_cons.2 rfl

theorem arrayEnd : Lexical (.arrayEnd, ")") where
  language := rfl
  solid := stops_cons.2 rfl

end Lexical

namespace Reader

theorem read_lexical {reader : Reader} {gap rest : List Char} {word : Word}
    (blank : Run Char.isWhitespace gap) (lexical : Lexical word)
    (text : reader.rest = gap ++ (word.2.toList ++ rest)) (ends : Ends word.1 word.2.toList rest) :
    ∃ token after, reader.read = .ok token after ∧ token.word = word ∧ after.rest = rest := by
  obtain ⟨kind, name⟩ := word
  have behind : reader.rest.dropWhile Char.isWhitespace = name.toList ++ rest := by
    have solid : Stops Char.isWhitespace (name.toList ++ rest) := by
      obtain ⟨c, tail, same⟩ := List.exists_cons_of_ne_nil lexical.ne_nil
      have front := lexical.solid
      simp only at same front
      rw [same, stops_cons] at front
      rwa [same, List.cons_append, stops_cons]
    rw [text, blank.dropWhile_eq solid]
  have front := first?_complete lexical.language lexical.solid ends
  simp only at front
  cases whole : name.toList ++ rest with
  | nil => simp [whole, first?] at front
  | cons c tail =>
    rw [whole] at front behind
    simp only [read, readHere, skipBlanks, behind, front]
    exact ⟨_, _, rfl, by simp [Token.word, Reader.token], rfl⟩

theorem word_of_read {reader after : Reader} {token : Token} (took : reader.read = .ok token after)
    (more : token.isEnd = false) :
    ∃ gap, Run Char.isWhitespace gap ∧ reader.rest = gap ++ (token.text.toList ++ after.rest) ∧
      Lexical token.word ∧ Ends token.kind token.text.toList after.rest := by
  refine ⟨reader.rest.takeWhile Char.isWhitespace, run_takeWhile _, ?_⟩
  have whole := List.takeWhile_append_dropWhile (p := Char.isWhitespace) (l := reader.rest)
  unfold read readHere at took
  split at took
  · simp only [EStateM.Result.ok.injEq] at took
    simp [← took.1, Reader.token, Token.isEnd] at more
  · rename_i c tail behind
    simp only [skipBlanks] at behind
    split at took
    · simp at took
    · rename_i found front
      have cut := append_of_first? front
      simp only [EStateM.Result.ok.injEq] at took
      obtain ⟨rfl, rfl⟩ := took
      refine ⟨?_, .of_first? front, ?_⟩
      · simp only [Reader.token, String.toList_ofList]
        rw [cut, ← behind, whole]
      · simpa [Reader.token] using (first?_sound front).2

theorem end_of_read {reader after : Reader} {token : Token} (took : reader.read = .ok token after)
    (last : token.isEnd = true) : token.word = (.endOfInput, "") := by
  unfold read readHere at took
  split at took
  · simp only [EStateM.Result.ok.injEq] at took
    simp [← took.1, Reader.token, Token.word]
  · split at took
    · simp at took
    · rename_i found front
      simp only [EStateM.Result.ok.injEq] at took
      simp [← took.1, Reader.token, Token.isEnd, kind_ne_endOfInput front] at last

theorem read_blanks {reader : Reader} (blank : Run Char.isWhitespace reader.rest) :
    ∃ token after, reader.read = .ok token after ∧ token.isEnd = true := by
  have behind : reader.rest.dropWhile Char.isWhitespace = [] := List.dropWhile_eq_nil_iff.2 blank
  simp only [read, readHere, skipBlanks, behind]
  exact ⟨_, _, rfl, rfl⟩

theorem stray_of_read {reader after : Reader} {fault : Fault} (failed : reader.read = .error fault after) :
    ∃ c line column, fault = .strayCharacter c line column := by
  unfold read readHere at failed
  split at failed
  · simp at failed
  · split at failed
    · simp only [EStateM.Result.error.injEq] at failed
      exact ⟨_, _, _, failed.1.symm⟩
    · simp at failed

/-- Reading on until nothing is left or a stray character stands in the way. -/
@[elab_as_elim]
theorem induction {motive : Reader → Prop}
    (stuck : ∀ reader fault after, reader.read = .error fault after → motive reader)
    (last : ∀ reader token after, reader.read = .ok token after → token.isEnd = true → motive reader)
    (more : ∀ reader token after, reader.read = .ok token after → token.isEnd = false →
      motive after → motive reader) (reader : Reader) : motive reader :=
  match took : reader.read with
  | .error fault after => stuck reader fault after took
  | .ok token after =>
    if done : token.isEnd = true then last reader token after took done
    else
      have going : token.isEnd = false := by simpa using done
      more reader token after took going (induction stuck last more after)
termination_by reader.rest.length
decreasing_by exact length_of_read took going

end Reader

namespace Scan

theorem gather_of_error {reader after : Reader} {fault : Fault} (took : reader.read = .error fault after)
    (seen : List Token) : gather seen reader = ⟨seen.reverse, .error fault⟩ := by
  rw [gather]
  split
  · rename_i same
    rw [took] at same
    cases same
    rfl
  · rename_i same
    rw [took] at same
    contradiction

theorem gather_of_end {reader after : Reader} {token : Token} (took : reader.read = .ok token after)
    (last : token.isEnd = true) (seen : List Token) : gather seen reader = ⟨seen.reverse, .ok token⟩ := by
  rw [gather]
  split
  · rename_i same
    rw [took] at same
    contradiction
  · rename_i same
    rw [took] at same
    cases same
    simp [last]

theorem gather_of_token {reader after : Reader} {token : Token} (took : reader.read = .ok token after)
    (more : token.isEnd = false) (seen : List Token) :
    gather seen reader = gather (token :: seen) after := by
  rw [gather]
  split
  · rename_i same
    rw [took] at same
    contradiction
  · rename_i same
    rw [took] at same
    cases same
    simp [more]

theorem gather_append (seen base : List Token) (reader : Reader) :
    gather (seen ++ base) reader =
      ⟨base.reverse ++ (gather seen reader).tokens, (gather seen reader).ending⟩ := by
  induction reader using Reader.induction generalizing seen with
  | stuck reader fault after took => simp [gather_of_error took]
  | last reader token after took done => simp [gather_of_end took done]
  | more reader token after took going ih =>
    rw [gather_of_token took going, gather_of_token took going, ← List.cons_append, ih]

theorem ofReader_of_error {reader after : Reader} {fault : Fault}
    (took : reader.read = .error fault after) : ofReader reader = ⟨[], .error fault⟩ :=
  gather_of_error took []

theorem ofReader_of_end {reader after : Reader} {token : Token} (took : reader.read = .ok token after)
    (last : token.isEnd = true) : ofReader reader = ⟨[], .ok token⟩ :=
  gather_of_end took last []

theorem ofReader_of_token {reader after : Reader} {token : Token} (took : reader.read = .ok token after)
    (more : token.isEnd = false) :
    ofReader reader = ⟨token :: (ofReader after).tokens, (ofReader after).ending⟩ := by
  have first := gather_append [] [token] after
  rw [List.nil_append] at first
  rw [ofReader, gather_of_token took more, first]
  rfl

def words (scan : Scan) : List Word := scan.tokens.map Token.word

theorem lexical_of_mem {reader : Reader} : ∀ token ∈ (ofReader reader).tokens, Lexical token.word := by
  induction reader using Reader.induction with
  | stuck reader fault after took => simp [ofReader_of_error took]
  | last reader token after took done => simp [ofReader_of_end took done]
  | more reader token after took going ih =>
    obtain ⟨gap, -, -, lexical, -⟩ := Reader.word_of_read took going
    intro other member
    rw [ofReader_of_token took going] at member
    rcases List.mem_cons.1 member with rfl | later
    · exact lexical
    · exact ih other later

theorem lexical_of_mem_words {reader : Reader} : ∀ word ∈ (ofReader reader).words, Lexical word := by
  intro word member
  obtain ⟨token, among, rfl⟩ := List.mem_map.1 member
  exact lexical_of_mem token among

theorem split?_of_bracket {text : List Char} (language : Language .atom text)
    (front : text.head? = some '[') (rest : List Char) : NumberList.split? (text ++ rest) ≠ none := by
  obtain ⟨list, later, rfl, isList, -⟩ := language.exists_list front
  rw [List.append_assoc, NumberList.split?_complete isList]
  simp

theorem apart_of_read {reader after behind : Reader} {first second : Token}
    (took : reader.read = .ok first after) (more : first.isEnd = false)
    (next : after.read = .ok second behind) (last : second.isEnd = false) :
    Apart first.word second.word := by
  intro atom other bracket
  obtain ⟨-, -, -, -, ends⟩ := Reader.word_of_read took more
  obtain ⟨gap, blank, text, lexical, -⟩ := Reader.word_of_read next last
  simp only [Token.word] at atom other bracket
  rw [atom] at ends
  have language := lexical.language
  simp only [Token.word, other] at language
  have stuck := (Atom.part?_eq_none_iff.1 ends).2
  rw [text, NumberList.split?_blanks_eq_none blank] at stuck
  exact split?_of_bracket language bracket _ stuck

theorem isChain_words (reader : Reader) : (ofReader reader).words.IsChain Apart := by
  induction reader using Reader.induction with
  | stuck reader fault after took => simp [words, ofReader_of_error took]
  | last reader token after took done => simp [words, ofReader_of_end took done]
  | more reader token after took going ih =>
    simp only [words, ofReader_of_token took going, List.map_cons]
    refine List.isChain_cons.2 ⟨?_, ih⟩
    intro word front
    cases next : after.read with
    | error fault behind => simp [ofReader_of_error next] at front
    | ok second behind =>
      cases last : second.isEnd with
      | true => simp [ofReader_of_end next last] at front
      | false =>
        simp only [ofReader_of_token next last, List.map_cons, List.head?_cons, Option.mem_def,
          Option.some.injEq] at front
        rw [← front]
        exact apart_of_read took going next last

end Scan

end NodeDump
