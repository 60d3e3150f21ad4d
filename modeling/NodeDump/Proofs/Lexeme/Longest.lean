import NodeDump.Proofs.Lexeme.Munch

/-!
The lexeme in front of a text against all the other texts of tokens that stand there. What is cut off is the longest
text of its kind, no other kind has any, and where nothing is cut off there is no text of a token.
-/

namespace NodeDump.Lexeme

/-- A token in front of a text. None of its kind reaches further, and there is none of another kind. -/
structure Consumes (kind : Kind) (text rest : List Char) : Prop where
  language : Language kind text
  ne_nil : text ≠ []
  solid : Stops Char.isWhitespace text
  longest : ∀ longer, longer <+: text ++ rest → Language kind longer → longer.length ≤ text.length
  alone : ∀ other found, found <+: text ++ rest → Language other found → other = kind

/-- Neither a blank nor the first character of a token. -/
def Stray (c : Char) (rest : List Char) : Prop :=
  c.isWhitespace = false ∧ ∀ kind text, text <+: c :: rest → ¬Language kind text

/-- A text of a kind can be made so long that what is behind does not go on with it. -/
theorem Language.extend {kind : Kind} {text : List Char} (language : Language kind text)
    (rest : List Char) :
    ∃ more behind, rest = more ++ behind ∧ Language kind (text ++ more) ∧
      Ends kind (text ++ more) behind := by
  have whole : rest = [] ++ rest := rfl
  cases kind with
  | nodeStart | key =>
    obtain ⟨name, rfl, some_char, all⟩ := language
    refine ⟨_, _, (List.takeWhile_append_dropWhile (p := Text.isNameChar)).symm, ?_,
      stops_dropWhile rest⟩
    exact ⟨name ++ rest.takeWhile Text.isNameChar, rfl, by simp [some_char],
      all.append (run_takeWhile rest)⟩
  | arrayStart =>
    rcases language with rfl | ⟨tag, rfl, lower⟩
    · cases rest with
      | nil => exact ⟨[], [], rfl, Or.inl rfl, fun _ => stops_nil⟩
      | cons c rest =>
        by_cases lower : c.isLower = true
        · exact ⟨[c], rest, rfl, Or.inr ⟨c, rfl, lower⟩, fun bare => by simp at bare⟩
        · exact ⟨[], c :: rest, rfl, Or.inl rfl, fun _ => stops_cons.2 (by simpa using lower)⟩
    · exact ⟨[], rest, whole, Or.inr ⟨tag, rfl, lower⟩, fun bare => by simp at bare⟩
  | atom =>
    obtain ⟨pieces, rfl, some_piece, all⟩ := language
    obtain ⟨allMore, stuck⟩ := Atom.parts_sound rest
    refine ⟨_, _, (Atom.append_of_parts rest).symm, ?_, stuck⟩
    refine ⟨pieces ++ (Atom.parts rest).1, by simp, by simp [some_piece], ?_⟩
    intro piece member
    rcases List.mem_append.1 member with here | behind
    · exact all piece here
    · exact allMore piece behind
  | nodeEnd | arrayEnd | string =>
    exact ⟨[], rest, whole, by simpa using language, trivial⟩
  | endOfInput => exact language.elim

theorem Language.exists_first? {kind : Kind} {text : List Char} (language : Language kind text)
    (solid : Stops Char.isWhitespace text) (rest : List Char) :
    ∃ found, first? (text ++ rest) = some found ∧ found.kind = kind ∧ text <+: found.text := by
  obtain ⟨more, behind, rfl, longer, ends⟩ := language.extend rest
  have start : Stops Char.isWhitespace (text ++ more) := by
    obtain ⟨c, tail, rfl⟩ := List.exists_cons_of_ne_nil language.ne_nil
    rw [List.cons_append, stops_cons]
    exact stops_cons.1 solid
  have front := first?_complete longer start ends
  rw [List.append_assoc] at front
  exact ⟨_, front, rfl, List.prefix_append text more⟩

theorem stops_of_prefix {p : Char → Bool} {text whole : List Char} (stops : Stops p whole)
    (front : text <+: whole) : Stops p text := by
  obtain ⟨rest, rfl⟩ := front
  cases text with
  | nil => exact stops_nil
  | cons c text =>
    rw [List.cons_append, stops_cons] at stops
    rwa [stops_cons]

/-- Just the tokens that reach as far as they can are cut off. -/
theorem consumes_iff {kind : Kind} {text rest : List Char} :
    Consumes kind text rest ↔ first? (text ++ rest) = some ⟨kind, text, rest⟩ := by
  constructor
  · rintro ⟨language, -, solid, longest, -⟩
    obtain ⟨found, front, same, reaches⟩ := language.exists_first? solid rest
    have cut := append_of_first? front
    have least := longest found.text ⟨found.rest, cut⟩ (same ▸ (first?_sound front).1)
    have texts : text = found.text := reaches.eq_of_length_le least
    have rests : found.rest = rest := by rwa [← texts, List.append_cancel_left_eq] at cut
    rw [front, ← same, ← rests, texts]
  · intro front
    have some_char := ne_nil_of_first? front
    have solid : Stops Char.isWhitespace (text ++ rest) := by
      obtain ⟨c, tail, rfl⟩ := List.exists_cons_of_ne_nil some_char
      exact stops_cons.2 (not_blank_of_first? front)
    -- Any token that stands here is found by the same cut.
    have others : ∀ other shorter, shorter <+: text ++ rest → Language other shorter →
        other = kind ∧ shorter <+: text := by
      rintro other shorter ⟨behind, whole⟩ language
      have start := stops_of_prefix solid ⟨behind, whole⟩
      obtain ⟨found, again, same, reaches⟩ := language.exists_first? start behind
      rw [whole, front] at again
      obtain rfl := Option.some.inj again
      exact ⟨same.symm, reaches⟩
    refine ⟨(first?_sound front).1, some_char, stops_of_prefix solid (List.prefix_append _ _), ?_, ?_⟩
    · intro longer starts language
      exact (others kind longer starts language).2.length_le
    · intro other shorter starts language
      exact (others other shorter starts language).1

theorem stray_iff {c : Char} {rest : List Char} :
    Stray c rest ↔ c.isWhitespace = false ∧ first? (c :: rest) = none := by
  constructor
  · rintro ⟨solid, none⟩
    refine ⟨solid, ?_⟩
    cases front : first? (c :: rest) with
    | none => rfl
    | some found =>
      exact absurd (first?_sound front).1 (none found.kind found.text ⟨found.rest, append_of_first? front⟩)
  · rintro ⟨solid, none⟩
    refine ⟨solid, ?_⟩
    rintro kind text ⟨behind, whole⟩ language
    have start : Stops Char.isWhitespace text := stops_of_prefix (stops_cons.2 solid) ⟨behind, whole⟩
    obtain ⟨found, front, -⟩ := language.exists_first? start behind
    rw [whole, none] at front
    contradiction

end NodeDump.Lexeme
