import NodeDump.Proofs.Lexeme.Longest

/-!
String literals as texts in quotes. The literals are just the encodings of the texts on one line, and a literal
encodes one text only. A quote that opens no literal starts no token.
-/

namespace NodeDump.Literal
open Lexeme

def decodeBody : List Char → List Char
  | [] => []
  | '\\' :: c :: rest => c :: decodeBody rest
  | c :: rest => c :: decodeBody rest

theorem escape_of_special {c : Char} (special : c = '"' ∨ c = '\\') : escape c = ['\\', c] := if_pos special

theorem escape_of_plain {c : Char} (quote : c ≠ '"') (backslash : c ≠ '\\') : escape c = [c] :=
  if_neg (by simp [quote, backslash])

theorem decodeBody_of_plain {c : Char} (backslash : c ≠ '\\') (rest : List Char) :
    decodeBody (c :: rest) = c :: decodeBody rest := by
  rw [decodeBody]
  rintro d tail rfl
  contradiction

theorem decodeBody_flatMap_escape (content : List Char) : decodeBody (content.flatMap escape) = content := by
  induction content with
  | nil => rfl
  | cons c content ih =>
    rw [List.flatMap_cons]
    by_cases special : c = '"' ∨ c = '\\'
    · rw [escape_of_special special]
      simp [decodeBody, ih]
    · obtain ⟨quote, backslash⟩ := not_or.1 special
      rw [escape_of_plain quote backslash, List.singleton_append, decodeBody_of_plain backslash, ih]

theorem encode_injective : Function.Injective encode := by
  intro first second same
  have bodies : first.flatMap escape = second.flatMap escape := by simpa [encode] using same
  rw [← decodeBody_flatMap_escape first, bodies, decodeBody_flatMap_escape]

theorem literalBody_escape {content : List Char} (flat : '\n' ∉ content) :
    LiteralBody (content.flatMap escape) := by
  induction content with
  | nil => exact .nil
  | cons c content ih =>
    have inner := ih (List.not_mem_of_not_mem_cons flat)
    rw [List.flatMap_cons]
    by_cases special : c = '"' ∨ c = '\\'
    · rw [escape_of_special special]
      exact .escaped special inner
    · obtain ⟨quote, backslash⟩ := not_or.1 special
      rw [escape_of_plain quote backslash]
      exact .plain quote backslash (List.ne_of_not_mem_cons flat).symm inner

theorem exists_content_of_body {body : List Char} (isBody : LiteralBody body) :
    ∃ content : List Char, '\n' ∉ content ∧ body = content.flatMap escape := by
  induction isBody with
  | nil => exact ⟨[], by simp, rfl⟩
  | @escaped c rest special inner ih =>
    obtain ⟨content, flat, rfl⟩ := ih
    have feed : '\n' ≠ c := by rcases special with rfl | rfl <;> decide
    refine ⟨c :: content, List.not_mem_cons_of_ne_of_not_mem feed flat, ?_⟩
    rw [List.flatMap_cons, escape_of_special special]
    rfl
  | @plain c rest quote backslash feed inner ih =>
    obtain ⟨content, flat, rfl⟩ := ih
    refine ⟨c :: content, List.not_mem_cons_of_ne_of_not_mem feed.symm flat, ?_⟩
    rw [List.flatMap_cons, escape_of_plain quote backslash]
    rfl

theorem language_iff {text : List Char} :
    Language .string text ↔ ∃ content, '\n' ∉ content ∧ text = encode content := by
  constructor
  · rintro ⟨body, rfl, isBody⟩
    obtain ⟨content, flat, rfl⟩ := exists_content_of_body isBody
    exact ⟨content, flat, rfl⟩
  · rintro ⟨content, flat, rfl⟩
    exact ⟨_, rfl, literalBody_escape flat⟩

theorem language_encode {content : List Char} (flat : '\n' ∉ content) : Language .string (encode content) :=
  language_iff.2 ⟨content, flat, rfl⟩

theorem existsUnique_content {text : List Char} (language : Language .string text) :
    ∃! content, '\n' ∉ content ∧ text = encode content := by
  obtain ⟨content, flat, rfl⟩ := language_iff.1 language
  exact ⟨content, ⟨flat, rfl⟩, fun other same => encode_injective same.2.symm⟩

theorem first?_quote (tail : List Char) : first? ('"' :: tail) = string? ('"' :: tail) := rfl

theorem first?_quote_eq_none_iff {tail : List Char} :
    first? ('"' :: tail) = none ↔ ∀ content, '\n' ∉ content → ¬encode content <+: '"' :: tail := by
  constructor
  · rintro stuck content flat ⟨rest, whole⟩
    obtain ⟨found, front, -⟩ := (language_encode flat).exists_first? (stops_cons.2 rfl) rest
    rw [whole, stuck] at front
    contradiction
  · intro none
    cases front : first? ('"' :: tail) with
    | none => rfl
    | some found =>
      have language := (first?_sound front).1
      rw [first?_quote] at front
      rw [kind_of_string? front] at language
      obtain ⟨content, flat, same⟩ := language_iff.1 language
      exact absurd ⟨found.rest, same ▸ append_of_string? front⟩ (none content flat)

end NodeDump.Literal
