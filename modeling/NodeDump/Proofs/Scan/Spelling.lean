import NodeDump.Proofs.Scan.Basic

/-!
Words written one after the other, each behind a gap of blanks. A gap may be missing only in front of the end of a
node or of an array. Such a text is scanned into just these words, whatever the gaps are.
-/

namespace NodeDump
open Lexeme

/-- The text of words with the gaps in front of them and the gap behind the last. -/
def spell : List (List Char × Word) → List Char → List Char
  | [], last => last
  | (gap, word) :: later, last => gap ++ (word.2.toList ++ spell later last)

theorem spell_append (first second : List (List Char × Word)) (last : List Char) :
    spell (first ++ second) last = spell first (spell second last) := by
  induction first with
  | nil => rfl
  | cons item first ih => simp [spell, ih]

theorem spell_last_append (items : List (List Char × Word)) (last more : List Char) :
    spell items (last ++ more) = spell items last ++ more := by
  induction items with
  | nil => rfl
  | cons item items ih => simp [spell, ih]

theorem spell_concat (items : List (List Char × Word)) (last : List Char) (word : Word) :
    spell (items ++ [(last, word)]) [] = spell items last ++ word.2.toList := by
  rw [spell_append, ← spell_last_append]
  simp [spell]

def Separated (before after : List Char × Word) : Prop :=
  (after.1 = [] → after.2.Closing) ∧ Apart before.2 after.2

theorem isChain_separated {items : List (List Char × Word)} (between : ∀ item ∈ items.tail, item.1 ≠ [])
    (apart : (items.map Prod.snd).IsChain Apart) : items.IsChain Separated := by
  induction items with
  | nil => exact .nil
  | cons item items ih =>
    cases items with
    | nil => exact .singleton item
    | cons next later =>
      have some_blank := between next List.mem_cons_self
      obtain ⟨here, behind⟩ := List.isChain_cons_cons.1 apart
      refine .cons_cons ⟨fun none => absurd none some_blank, here⟩ (ih (fun other member => ?_) behind)
      exact between other (List.mem_of_mem_tail member)

structure Spaced (items : List (List Char × Word)) (last : List Char) : Prop where
  blank : ∀ item ∈ items, Run Char.isWhitespace item.1
  lastBlank : Run Char.isWhitespace last
  lexical : ∀ item ∈ items, Lexical item.2
  separated : items.IsChain Separated

namespace Spaced

theorem tail {item : List Char × Word} {items : List (List Char × Word)} {last : List Char}
    (spaced : Spaced (item :: items) last) : Spaced items last where
  blank other member := spaced.blank other (List.mem_cons_of_mem item member)
  lastBlank := spaced.lastBlank
  lexical other member := spaced.lexical other (List.mem_cons_of_mem item member)
  separated := spaced.separated.tail

end Spaced

def Fenced (rest : List Char) : Prop :=
  ∀ c, rest.head? = some c → c.isWhitespace = true ∨ c = '}' ∨ c = ')'

namespace Fenced

theorem stops {p : Char → Bool} {rest : List Char} (fenced : Fenced rest)
    (noBlank : ∀ c, c.isWhitespace = true → p c = false) (noBrace : p '}' = false)
    (noParenthesis : p ')' = false) : Stops p rest := by
  intro c front
  rcases fenced c front with blank | rfl | rfl
  · exact noBlank c blank
  · exact noBrace
  · exact noParenthesis

theorem of_run {rest : List Char} (blank : Run Char.isWhitespace rest) : Fenced rest := by
  intro c front
  obtain ⟨tail, rfl⟩ := List.head?_eq_some_iff.1 front
  exact Or.inl (blank c List.mem_cons_self)

theorem of_closing {word : Word} (lexical : Lexical word) (closing : word.Closing) (rest : List Char) :
    Fenced (word.2.toList ++ rest) := by
  obtain ⟨kind, text⟩ := word
  intro c front
  rcases closing with rfl | rfl
  · have sign : text.toList = ['}'] := lexical.language
    obtain rfl : '}' = c := by simpa [sign] using front
    exact Or.inr (Or.inl rfl)
  · have sign : text.toList = [')'] := lexical.language
    obtain rfl : ')' = c := by simpa [sign] using front
    exact Or.inr (Or.inr rfl)

end Fenced

theorem isNameChar_of_isWhitespace {c : Char} (blank : c.isWhitespace = true) :
    Text.isNameChar c = false := by
  rcases Text.isWhitespace_iff.1 blank with rfl | rfl | rfl | rfl <;> decide

theorem isLower_of_isWhitespace {c : Char} (blank : c.isWhitespace = true) : c.isLower = false := by
  rcases Text.isWhitespace_iff.1 blank with rfl | rfl | rfl | rfl <;> decide

/-- Behind a fence only a list of numbers could go on with a word. -/
theorem ends_of_fenced {word : Word} {rest : List Char} (fenced : Fenced rest)
    (noList : word.1 = .atom → NumberList.split? rest = none) : Ends word.1 word.2.toList rest := by
  obtain ⟨kind, text⟩ := word
  cases kind with
  | nodeStart => exact fenced.stops (fun _ => isNameChar_of_isWhitespace) (by decide) (by decide)
  | key => exact fenced.stops (fun _ => isNameChar_of_isWhitespace) (by decide) (by decide)
  | arrayStart => exact fun _ => fenced.stops (fun _ => isLower_of_isWhitespace) (by decide) (by decide)
  | atom =>
    refine Atom.part?_eq_none_iff.2 ⟨?_, noList rfl⟩
    exact fenced.stops (fun _ => Text.isWordChar_of_isWhitespace) (by decide) (by decide)
  | nodeEnd => trivial
  | arrayEnd => trivial
  | string => trivial
  | endOfInput => trivial

theorem kind_of_bracket {kind : Kind} {text : List Char} (language : Language kind text)
    (front : text.head? = some '[') : kind = .atom := by
  cases kind with
  | atom => rfl
  | nodeStart | key | string =>
    obtain ⟨inner, rfl, -⟩ := language
    simp at front
  | arrayStart =>
    rcases language with rfl | ⟨tag, rfl, -⟩
    · simp at front
    · simp at front
  | nodeEnd | arrayEnd =>
    obtain rfl := language
    simp at front
  | endOfInput => exact language.elim

theorem split?_blank {blanks : List Char} (run : Run Char.isWhitespace blanks) :
    NumberList.split? blanks = none := by
  have behind : blanks.dropWhile Char.isWhitespace = [] := List.dropWhile_eq_nil_iff.2 run
  simp [NumberList.split?, behind]

theorem split?_of_solid {c : Char} {rest : List Char} (solid : c.isWhitespace = false)
    (other : c ≠ '[') : NumberList.split? (c :: rest) = none := by
  have stops : Stops Char.isWhitespace (c :: rest) := stops_cons.2 solid
  unfold NumberList.split?
  rw [stops.dropWhile]
  split
  · rename_i same
    exact absurd (List.cons.inj same).1 other
  · rfl

theorem split?_of_apart {before after : Word} (apart : Apart before after) (atom : before.1 = .atom)
    (lexical : Lexical after) (rest : List Char) :
    NumberList.split? (after.2.toList ++ rest) = none := by
  obtain ⟨c, tail, same⟩ := List.exists_cons_of_ne_nil lexical.ne_nil
  have solid := lexical.solid
  rw [same, stops_cons] at solid
  have other : c ≠ '[' := by
    rintro rfl
    have bracket : after.2.toList.head? = some '[' := by rw [same]; rfl
    exact apart atom (kind_of_bracket lexical.language bracket) bracket
  rw [same, List.cons_append]
  exact split?_of_solid solid other

theorem Separated.ends {item next : List Char × Word} (separated : Separated item next)
    (blank : Run Char.isWhitespace next.1) (lexical : Lexical next.2) (rest : List Char) :
    Ends item.2.1 item.2.2.toList (next.1 ++ (next.2.2.toList ++ rest)) := by
  obtain ⟨gap, word⟩ := next
  obtain ⟨closing, apart⟩ := separated
  simp only at closing apart blank lexical
  apply ends_of_fenced
  · cases gap with
    | nil => exact Fenced.of_closing lexical (closing rfl) _
    | cons c gap =>
      intro d front
      obtain rfl : c = d := by simpa using front
      exact Or.inl (blank c List.mem_cons_self)
  · intro atom
    rw [NumberList.split?_blanks_eq_none blank]
    exact split?_of_apart apart atom lexical _

theorem Spaced.ends {item : List Char × Word} {items : List (List Char × Word)} {last : List Char}
    (spaced : Spaced (item :: items) last) : Ends item.2.1 item.2.2.toList (spell items last) := by
  cases items with
  | nil =>
    exact ends_of_fenced (Fenced.of_run spaced.lastBlank) fun _ => split?_blank spaced.lastBlank
  | cons next later =>
    exact (List.isChain_cons_cons.1 spaced.separated).1.ends (spaced.tail.blank _ List.mem_cons_self)
      (spaced.tail.lexical _ List.mem_cons_self) _

theorem Lexical.isEnd_eq_false {token : Token} (lexical : Lexical token.word) : token.isEnd = false := by
  have language := lexical.language
  by_contra last
  have kind : token.kind = .endOfInput := by simpa [Token.isEnd] using last
  simp [Token.word, kind, Lexeme.Language] at language

theorem Scan.words_of_spell {items : List (List Char × Word)} {last : List Char}
    (spaced : Spaced items last) {reader : Reader} (text : reader.rest = spell items last) :
    (ofReader reader).words = items.map Prod.snd ∧ ∃ token, (ofReader reader).ending = .ok token := by
  induction items generalizing reader with
  | nil =>
    have blank : Run Char.isWhitespace reader.rest := text ▸ spaced.lastBlank
    obtain ⟨token, after, took, done⟩ := Reader.read_blanks blank
    simp [words, ofReader_of_end took done]
  | cons item items ih =>
    have lexical := spaced.lexical item List.mem_cons_self
    have blank := spaced.blank item List.mem_cons_self
    obtain ⟨token, after, took, same, rest⟩ := Reader.read_lexical blank lexical text spaced.ends
    obtain ⟨words, ending⟩ := ih spaced.tail rest
    have going : token.isEnd = false := (same ▸ lexical).isEnd_eq_false
    rw [ofReader_of_token took going]
    exact ⟨by simpa [Scan.words, same] using words, ending⟩

end NodeDump
