import NodeDump.Proofs.Printer.Placeless
import NodeDump.Proofs.Scan.Munched

/-!
A source written down with other blanks between its tokens. As long as there is a blank wherever two tokens, or a
token and what cannot be scanned, meet, the scan is the same but for the places.
-/

namespace NodeDump
open Lexeme

/-- Words cannot be told apart from the blanks in front of them in two ways. -/
theorem spell_inj {items others : List (List Char × Word)} {last rest : List Char}
    (same : items.map Prod.snd = others.map Prod.snd) (solid : ∀ item ∈ items, Lexical item.2)
    (blank : ∀ item ∈ items, Run Char.isWhitespace item.1)
    (blank' : ∀ item ∈ others, Run Char.isWhitespace item.1)
    (whole : spell items last = spell others rest) : items = others ∧ last = rest := by
  induction items generalizing others with
  | nil =>
    obtain rfl : others = [] := by simpa using same.symm
    exact ⟨rfl, whole⟩
  | cons item items ih =>
    obtain ⟨gap, word⟩ := item
    obtain ⟨⟨gap', word'⟩, others, rfl, rfl, words⟩ := List.map_eq_cons_iff.1 same.symm
    have lexical := solid _ List.mem_cons_self
    have front := blank _ List.mem_cons_self
    have front' := blank' _ List.mem_cons_self
    obtain ⟨c, tail, text⟩ := List.exists_cons_of_ne_nil lexical.ne_nil
    have start := lexical.solid
    simp only at text start front front'
    rw [text, stops_cons] at start
    simp only [spell, text, List.cons_append] at whole
    obtain ⟨rfl, -, behind⟩ := gap_unique front front' start start whole
    obtain ⟨rfl, rfl⟩ := ih words.symm (fun other member => solid other (List.mem_cons_of_mem _ member))
      (fun other member => blank other (List.mem_cons_of_mem _ member))
      (fun other member => blank' other (List.mem_cons_of_mem _ member))
      (List.append_cancel_left behind)
    exact ⟨rfl, rfl⟩

def firstLeft? (last : List Char) : Option Char := (last.dropWhile Char.isWhitespace).head?

namespace Division

variable {source other : String} {items others : List (List Char × Word)} {last rest : List Char}

theorem ending (division : Division source.toList items last) :
    (firstLeft? last = none ∧ ∃ token, (Scan.ofSource source).ending = .ok token ∧ token.word = (.endOfInput, "")) ∨
      ∃ c line column, firstLeft? last = some c ∧
        (Scan.ofSource source).ending = .error (.strayCharacter c line column) := by
  obtain ⟨pieces, left, divided, -, leaves⟩ := (Reader.ofSource source {}).division
  obtain ⟨rfl, rfl⟩ := divided.unique division
  rw [← Scan.ofSource] at leaves
  cases ended : (Scan.ofSource source).ending with
  | ok final =>
    have blank : Run Char.isWhitespace left := leaves.blank_iff.1 ⟨final, ended⟩
    have nothing : left.dropWhile Char.isWhitespace = [] := List.dropWhile_eq_nil_iff.2 blank
    exact Or.inl ⟨by rw [firstLeft?, nothing]; rfl, final, rfl, Scan.word_of_ending ended⟩
  | error fault =>
    obtain ⟨gap, c, tail, rfl, blank, stray, rfl⟩ := (leaves.stray_iff fault).1 ended
    exact Or.inr ⟨c, _, _, by rw [firstLeft?, dropWhile_gap blank stray.1]; rfl, rfl⟩

theorem placeless_eq (division : Division source.toList items last) (division' : Division other.toList others rest)
    (same : items.map Prod.snd = others.map Prod.snd) (left : firstLeft? last = firstLeft? rest) :
    (Scan.ofSource source).placeless = (Scan.ofSource other).placeless := by
  obtain ⟨_, _, divided, words, -⟩ := (Reader.ofSource source {}).division
  obtain ⟨rfl, rfl⟩ := divided.unique division
  obtain ⟨_, _, divided', words', -⟩ := (Reader.ofSource other {}).division
  obtain ⟨rfl, rfl⟩ := divided'.unique division'
  apply Scan.placeless_eq_of_words (words.trans (same.trans words'.symm))
  rcases division.ending with ⟨bare, final, ended, word⟩ | ⟨c, line, column, first, ended⟩
  · rcases division'.ending with ⟨-, final', ended', word'⟩ | ⟨c', line', column', first', -⟩
    · have finals : final.placeless = final'.placeless := Token.placeless_eq_iff.2 (word.trans word'.symm)
      exact (Scan.placeless_of_ok ended).trans (finals ▸ (Scan.placeless_of_ok ended').symm)
    · rw [bare, first'] at left
      contradiction
  · rcases division'.ending with ⟨bare', -⟩ | ⟨c', line', column', first', ended'⟩
    · rw [first, bare'] at left
      contradiction
    · obtain rfl : c = c' := by simpa [first, first'] using left
      exact (Scan.placeless_of_error ended).trans (Scan.placeless_of_error ended').symm

end Division

structure Written (source : String) (items : List (List Char × Word)) (gap rest : List Char) : Prop where
  text : source.toList = spell items (gap ++ rest)
  blank : ∀ item ∈ items, Run Char.isWhitespace item.1
  gapBlank : Run Char.isWhitespace gap
  solid : Stops Char.isWhitespace rest

/-- Between two words, and between the last one and what is left, there is a blank. -/
structure Parted (items : List (List Char × Word)) (gap rest : List Char) : Prop where
  between : ∀ item ∈ items.tail, item.1 ≠ []
  behind : items ≠ [] → rest ≠ [] → gap ≠ []

theorem ends_of_blanks {word : Word} {gap gap' rest : List Char} (blank : Run Char.isWhitespace gap)
    (blank' : Run Char.isWhitespace gap') (some_blank : rest ≠ [] → gap' ≠ [])
    (ends : Ends word.1 word.2.toList (gap ++ rest)) : Ends word.1 word.2.toList (gap' ++ rest) := by
  cases rest with
  | nil => exact ends_of_blank word (by rwa [List.append_nil])
  | cons c rest =>
    refine ends_of_gap blank' (fun none => absurd none (some_blank (by simp))) (fun atom => ?_) ends
    rw [atom] at ends
    exact (NumberList.split?_blanks_eq_none blank _).1 (Atom.part?_eq_none_iff.1 ends).2

namespace Written

variable {source other : String} {items others : List (List Char × Word)} {gap gap' rest : List Char}

theorem lexical (tokens : items.map Prod.snd = (Scan.ofSource source).words) :
    ∀ item ∈ items, Lexical item.2 := by
  intro item member
  have among : item.2 ∈ (Scan.ofSource source).words := tokens ▸ List.mem_map_of_mem member
  exact Scan.lexical_of_mem_words item.2 among

theorem division (written : Written source items gap rest)
    (tokens : items.map Prod.snd = (Scan.ofSource source).words) :
    Division source.toList items (gap ++ rest) := by
  obtain ⟨pieces, last, division, words, -⟩ := (Reader.ofSource source {}).division
  obtain ⟨rfl, rfl⟩ := spell_inj (tokens.trans words) (lexical tokens) written.blank
    (blank_of_munched division.munched) (written.text.symm.trans division.whole)
  exact division

theorem firstLeft?_eq (written : Written source items gap rest) : firstLeft? (gap ++ rest) = rest.head? := by
  rw [firstLeft?, written.gapBlank.dropWhile_eq written.solid]

theorem rest_eq (written : Written source items gap rest) (leftover : Leftover (gap ++ rest)) :
    rest = [] ∨ ∃ c tail, rest = c :: tail ∧ Stray c tail := by
  cases rest with
  | nil => exact Or.inl rfl
  | cons c tail =>
    have solid := stops_cons.1 written.solid
    generalize whole : gap ++ c :: tail = last at leftover
    cases leftover with
    | blank blank =>
      have other := blank c (by simp [← whole])
      rw [solid] at other
      contradiction
    | stray blank stray =>
      obtain ⟨-, rfl, rfl⟩ := gap_unique written.gapBlank blank solid stray.1 whole
      exact Or.inr ⟨c, tail, rfl, stray⟩

theorem leftover (written : Written source items gap rest)
    (left : rest = [] ∨ ∃ c tail, rest = c :: tail ∧ Stray c tail) : Leftover (gap ++ rest) := by
  rcases left with rfl | ⟨c, tail, rfl, stray⟩
  · rw [List.append_nil]
    exact .blank written.gapBlank
  · exact .stray written.gapBlank stray

theorem division_of_parted (written : Written source items gap rest)
    (tokens : items.map Prod.snd = (Scan.ofSource source).words) (again : Written other others gap' rest)
    (same : others.map Prod.snd = items.map Prod.snd) (parted : Parted others gap' rest) :
    Division other.toList others (gap' ++ rest) := by
  have division := written.division tokens
  have solid : ∀ item ∈ others, Lexical item.2 := by
    intro item member
    have among : item.2 ∈ items.map Prod.snd := same ▸ List.mem_map_of_mem member
    obtain ⟨word, here, named⟩ := List.mem_map.1 among
    exact named ▸ lexical tokens word here
  have apart : (others.map Prod.snd).IsChain Apart := by
    rw [same, tokens]
    exact Scan.isChain_words _
  refine ⟨again.text, munched_of_isChain again.blank solid (isChain_separated parted.between apart) ?_,
    again.leftover (written.rest_eq division.leftover)⟩
  intro item final
  have words : (items.map Prod.snd).getLast? = some item.2 := by
    rw [← same, List.getLast?_map, final]
    rfl
  rw [List.getLast?_map] at words
  obtain ⟨word, last, named⟩ := Option.map_eq_some_iff.1 words
  have ends := ends_of_munched division.munched word last
  rw [named] at ends
  apply ends_of_blanks written.gapBlank again.gapBlank _ ends
  apply parted.behind
  rintro rfl
  simp at final

theorem placeless_eq (written : Written source items gap rest)
    (tokens : items.map Prod.snd = (Scan.ofSource source).words) (again : Written other others gap' rest)
    (same : others.map Prod.snd = items.map Prod.snd) (parted : Parted others gap' rest) :
    (Scan.ofSource source).placeless = (Scan.ofSource other).placeless := by
  have division := written.division tokens
  have division' := written.division_of_parted tokens again same parted
  apply division.placeless_eq division' same.symm
  rw [written.firstLeft?_eq, again.firstLeft?_eq]

end Written

end NodeDump
