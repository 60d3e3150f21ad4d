import NodeDump.Proofs.Scan.Passage
import NodeDump.Proofs.Scan.Spelling
import NodeDump.Proofs.Scan.Stream

/-!
A text divided into gaps and tokens, each token as long as it can be. Every source has one division and no other.
Its tokens are those of the scan, and the scan fails just where the division comes upon a stray character.
-/

namespace NodeDump
open Lexeme

/-- Every gap is blank, and every word is the token in front of all that follows. -/
def Munched (last : List Char) : List (List Char × Word) → Prop
  | [] => True
  | (gap, word) :: later =>
    Run Char.isWhitespace gap ∧ Consumes word.1 word.2.toList (spell later last) ∧ Munched last later

/-- What is left of a text that cannot be divided any further. -/
inductive Leftover : List Char → Prop
  | blank {last : List Char} (blank : Run Char.isWhitespace last) : Leftover last
  | stray {gap rest : List Char} {c : Char} (blank : Run Char.isWhitespace gap) (stray : Stray c rest) :
      Leftover (gap ++ c :: rest)

/-- The text is the items and what is left behind them, with nothing lost. -/
structure Division (text : List Char) (items : List (List Char × Word)) (last : List Char) : Prop where
  whole : text = spell items last
  munched : Munched last items
  leftover : Leftover last

theorem takeWhile_gap {gap rest : List Char} {c : Char} (blank : Run Char.isWhitespace gap)
    (solid : c.isWhitespace = false) : (gap ++ c :: rest).takeWhile Char.isWhitespace = gap := by
  exact blank.takeWhile_eq (stops_cons.2 solid)

theorem dropWhile_gap {gap rest : List Char} {c : Char} (blank : Run Char.isWhitespace gap)
    (solid : c.isWhitespace = false) :
    (gap ++ c :: rest).dropWhile Char.isWhitespace = c :: rest := by
  exact blank.dropWhile_eq (stops_cons.2 solid)

theorem gap_unique {gap gap' rest rest' : List Char} {c c' : Char} (blank : Run Char.isWhitespace gap)
    (blank' : Run Char.isWhitespace gap') (solid : c.isWhitespace = false) (solid' : c'.isWhitespace = false)
    (same : gap ++ c :: rest = gap' ++ c' :: rest') : gap = gap' ∧ c = c' ∧ rest = rest' := by
  have gaps := congrArg (List.takeWhile Char.isWhitespace) same
  have behind := congrArg (List.dropWhile Char.isWhitespace) same
  rw [takeWhile_gap blank solid, takeWhile_gap blank' solid'] at gaps
  rw [dropWhile_gap blank solid, dropWhile_gap blank' solid', List.cons.injEq] at behind
  exact ⟨gaps, behind⟩

theorem Leftover.first? {last : List Char} (leftover : Leftover last) :
    first? (last.dropWhile Char.isWhitespace) = none := by
  cases leftover with
  | blank blank =>
    have nothing : last.dropWhile Char.isWhitespace = [] := List.dropWhile_eq_nil_iff.2 blank
    rw [nothing]
    rfl
  | stray blank stray =>
    rw [dropWhile_gap blank stray.1]
    exact (stray_iff.1 stray).2

theorem first?_of_gap {gap text rest : List Char} {kind : Kind} (blank : Run Char.isWhitespace gap)
    (consumes : Consumes kind text rest) :
    (gap ++ (text ++ rest)).takeWhile Char.isWhitespace = gap ∧
      first? ((gap ++ (text ++ rest)).dropWhile Char.isWhitespace) = some ⟨kind, text, rest⟩ := by
  obtain ⟨c, tail, rfl⟩ := List.exists_cons_of_ne_nil consumes.ne_nil
  have solid := stops_cons.1 consumes.solid
  have front := consumes_iff.1 consumes
  rw [List.cons_append] at front ⊢
  rw [takeWhile_gap blank solid, dropWhile_gap blank solid]
  exact ⟨rfl, front⟩

namespace Division

variable {text last rest : List Char} {items others : List (List Char × Word)}

/-- No text can be divided in two ways. -/
theorem unique (one : Division text items last) (other : Division text others rest) :
    items = others ∧ last = rest := by
  induction items generalizing text others with
  | nil =>
    have bare : text = last := one.whole
    cases others with
    | nil => exact ⟨rfl, bare.symm.trans other.whole⟩
    | cons item others =>
      obtain ⟨blank, consumes, -⟩ := other.munched
      have front := (first?_of_gap blank consumes).2
      have whole : text = item.1 ++ (item.2.2.toList ++ spell others rest) := other.whole
      have stuck := one.leftover.first?
      rw [← bare, whole, front] at stuck
      contradiction
  | cons item items ih =>
    obtain ⟨blank, consumes, munched⟩ := one.munched
    obtain ⟨gap, front⟩ := first?_of_gap blank consumes
    have whole : text = item.1 ++ (item.2.2.toList ++ spell items last) := one.whole
    rw [← whole] at gap front
    cases others with
    | nil =>
      have stuck := other.leftover.first?
      have bare : text = rest := other.whole
      rw [← bare, front] at stuck
      contradiction
    | cons item' others =>
      obtain ⟨blank', consumes', munched'⟩ := other.munched
      obtain ⟨gap', front'⟩ := first?_of_gap blank' consumes'
      have whole' : text = item'.1 ++ (item'.2.2.toList ++ spell others rest) := other.whole
      rw [← whole'] at gap' front'
      rw [front, Option.some.injEq, Lexeme.mk.injEq] at front'
      obtain ⟨kinds, texts, behind⟩ := front'
      obtain ⟨rfl, rfl⟩ := ih ⟨rfl, munched, one.leftover⟩ ⟨behind, munched', other.leftover⟩
      have gaps : item.1 = item'.1 := gap.symm.trans gap'
      have words : item.2 = item'.2 := Prod.ext kinds (String.toList_inj.1 texts)
      exact ⟨by rw [Prod.ext gaps words], rfl⟩

end Division

def Leaves (position : Position) (items : List (List Char × Word)) (last : List Char) :
    Except Fault Token → Prop
  | .ok _ => Run Char.isWhitespace last
  | .error fault => ∃ gap c rest, last = gap ++ c :: rest ∧ Run Char.isWhitespace gap ∧ Stray c rest ∧
      fault = .strayCharacter c (position.after (spell items gap)).line
        (position.after (spell items gap)).column

theorem Reader.leaves_of_token {reader after : Reader} {gap last : List Char} {word : Word}
    {items : List (List Char × Word)} {ending : Except Fault Token}
    (place : after.position = reader.position.after (gap ++ word.2.toList))
    (leaves : Leaves after.position items last ending) :
    Leaves reader.position ((gap, word) :: items) last ending := by
  cases ending with
  | ok token => exact leaves
  | error fault =>
    obtain ⟨blanks, c, rest, whole, blank, stray, named⟩ := leaves
    refine ⟨blanks, c, rest, whole, blank, stray, ?_⟩
    rw [named, place, ← Position.after_append, List.append_assoc]
    rfl

theorem Reader.division (reader : Reader) :
    ∃ items last, Division reader.rest items last ∧
      (Scan.ofReader reader).words = items.map Prod.snd ∧
      Leaves reader.position items last (Scan.ofReader reader).ending := by
  induction reader using Reader.induction with
  | stuck reader fault after failed =>
    obtain ⟨rfl, c, rest, behind, stray, named⟩ := Reader.stuck_of_read failed
    have blank : Run Char.isWhitespace (reader.rest.takeWhile Char.isWhitespace) := run_takeWhile _
    have whole : reader.rest = reader.rest.takeWhile Char.isWhitespace ++ c :: rest := by
      rw [← behind]
      exact List.takeWhile_append_dropWhile.symm
    refine ⟨[], reader.rest, ⟨rfl, trivial, ?_⟩, by simp [Scan.words, Scan.ofReader_of_error failed], ?_⟩
    · rw [whole]
      exact .stray blank stray
    · rw [Scan.ofReader_of_error failed]
      exact ⟨_, c, rest, whole, blank, stray, named⟩
  | last reader token after took done =>
    have blank : Run Char.isWhitespace reader.rest := Reader.blank_of_read took done
    refine ⟨[], reader.rest, ⟨rfl, trivial, .blank blank⟩, by simp [Scan.words, Scan.ofReader_of_end took done], ?_⟩
    rw [Scan.ofReader_of_end took done]
    exact blank
  | more reader token after took going ih =>
    obtain ⟨items, last, ⟨rest, munched, leftover⟩, words, leaves⟩ := ih
    obtain ⟨gap, blank, text, lexical, ends⟩ := Reader.word_of_read took going
    have consumes : Consumes token.kind token.text.toList (spell items last) := by
      rw [← rest]
      exact consumes_iff.2 (first?_complete lexical.language lexical.solid ends)
    refine ⟨(gap, token.word) :: items, last, ⟨?_, ⟨blank, consumes, munched⟩, leftover⟩, ?_, ?_⟩
    · rw [text, rest]
      rfl
    · rw [Scan.words] at words ⊢
      rw [Scan.ofReader_of_token took going, List.map_cons, words]
      rfl
    · rw [Scan.ofReader_of_token took going]
      have whole : reader.rest = (gap ++ token.text.toList) ++ after.rest := by rw [text, List.append_assoc]
      exact Reader.leaves_of_token ((Reader.passes_of_read took).position whole) leaves

namespace Leaves

variable {position : Position} {items : List (List Char × Word)} {last : List Char}
  {ending : Except Fault Token}

theorem blank_iff (leaves : Leaves position items last ending) :
    (∃ token, ending = .ok token) ↔ Run Char.isWhitespace last := by
  constructor
  · rintro ⟨token, rfl⟩
    exact leaves
  · intro blank
    cases ending with
    | ok token => exact ⟨token, rfl⟩
    | error fault =>
      obtain ⟨gap, c, rest, rfl, -, stray, -⟩ := leaves
      have other := blank c (by simp)
      rw [stray.1] at other
      contradiction

theorem stray_iff (leaves : Leaves position items last ending) (fault : Fault) :
    ending = .error fault ↔ ∃ gap c rest, last = gap ++ c :: rest ∧ Run Char.isWhitespace gap ∧ Stray c rest ∧
      fault = .strayCharacter c (position.after (spell items gap)).line
        (position.after (spell items gap)).column := by
  constructor
  · rintro rfl
    exact leaves
  · rintro ⟨gap, c, rest, whole, blank, stray, rfl⟩
    cases ending with
    | ok token =>
      have other := leaves c (by simp [whole])
      rw [stray.1] at other
      contradiction
    | error other =>
      obtain ⟨gap', c', rest', whole', blank', stray', rfl⟩ := leaves
      rw [whole] at whole'
      obtain ⟨rfl, rfl, rfl⟩ := gap_unique blank blank' stray.1 stray'.1 whole'
      rfl

end Leaves

/-- A source is divided in one way. Its tokens are the words of the division if nothing but blanks is left.
Otherwise there is a fault, which names the stray character that is left and its place. -/
theorem tokenise_division (source : String) :
    ∃ items last, Division source.toList items last ∧
      (∀ others rest, Division source.toList others rest → others = items ∧ rest = last) ∧
      (∀ words, (∃ tokens, tokenise source = .ok tokens ∧ tokens.map Token.word = words) ↔
        words = items.map Prod.snd ∧ Run Char.isWhitespace last) ∧
      ∀ fault, tokenise source = .error fault ↔
        ∃ gap c rest, last = gap ++ c :: rest ∧ Run Char.isWhitespace gap ∧ Stray c rest ∧
          fault = .strayCharacter c (Position.after {} (spell items gap)).line
            (Position.after {} (spell items gap)).column := by
  obtain ⟨items, last, division, words, leaves⟩ := (Reader.ofSource source {}).division
  refine ⟨items, last, division, fun others rest other => other.unique division, ?_, ?_⟩
  · intro others
    rw [Scan.tokenise_words_iff, ← leaves.blank_iff, ← words]
    rfl
  · intro fault
    rw [Scan.tokenise_eq_error_iff]
    exact leaves.stray_iff fault

end NodeDump
