import NodeDump.Proofs.Lexeme.AtomPattern
import NodeDump.Reader

/-!
The rules of all tokens as regular expressions, in the order in which a matcher tries them. Every rule but that of
atoms begins with a sign that no other rule begins with, so a matcher that has to give up a token does not find
another one instead. What a reader does is to take the first way of the first rule that matches, to go on over blanks
and to stop at a token.
-/

namespace NodeDump.Pattern
open Lexeme

def inLiteral : Pattern :=
  either (seq (char '\\') (one fun c => c == '"' || c == '\\')) (one fun c => !(c == '\n' || c == '"' || c == '\\'))

def literal : Pattern := seq (char '"') (seq (star inLiteral) (char '"'))

def named (opening : Char) : Pattern := seq (char opening) (plus (one Text.isNameChar))

def arrayStart : Pattern := seq (char '(') (maybe (one Char.isLower))

/-- The rules in their order. What the first one matches is no token. -/
def rules : List (Option Kind × Pattern) :=
  [(none, plus (one Char.isWhitespace)), (some .string, literal), (some .key, named ':'), (some .nodeStart, named '{'),
    (some .nodeEnd, char '}'), (some .arrayStart, arrayStart), (some .arrayEnd, char ')'), (some .atom, atom)]

def tokenWays (cs : List Char) : List (Option Kind × List Char × List Char) :=
  rules.flatMap fun (kind, rule) => (rule.ways cs).map fun way => (kind, way)

variable {second : Pattern} {c d : Char} {tail cs rest : List Char}

@[simp] theorem ways_sign_of_ne (other : c ≠ d) : (char d).ways (c :: tail) = [] := by simp [char, ways, other]

theorem ways_sign_seq_of_ne (other : c ≠ d) : (seq (char d) second).ways (c :: tail) = [] := by
  simp [ways, ways_sign_of_ne other]

theorem rests_sign_seq : (seq (char c) second).rests (c :: tail) = second.rests tail := by
  rw [rests_seq, rests_char, List.flatMap_singleton]

theorem rests_inLiteral_plain (quote : c ≠ '"') (backslash : c ≠ '\\') (feed : c ≠ '\n') :
    inLiteral.rests (c :: rest) = [rest] := by
  simp [inLiteral, char, quote, backslash, feed]

theorem rests_inLiteral_end (out : c = '"' ∨ c = '\n') : inLiteral.rests (c :: rest) = [] := by
  rcases out with rfl | rfl <;> simp [inLiteral, char]

theorem rests_inLiteral_escaped :
    inLiteral.rests ('\\' :: c :: rest) = if c = '"' ∨ c = '\\' then [rest] else [] := by
  simp [inLiteral, char]

/-- There is one way at most to come to the closing quote. A backslash is only looked at together with what it is in
charge of. -/
theorem rests_literal (escaped : Bool) (seen cs : List Char) :
    (seq (star inLiteral) (char '"')).rests (if escaped then '\\' :: cs else cs) =
      ((Literal.close? escaped seen cs).map Prod.snd).toList := by
  induction cs generalizing escaped seen with
  | nil =>
    have stuck : inLiteral.rests (if escaped then ['\\'] else []) = [] := by
      cases escaped <;> simp [inLiteral, char]
    rw [rests_star_seq_of_nil stuck]
    cases escaped <;> rfl
  | cons c cs ih =>
    rw [Literal.close?]
    split
    · have no_quote : (char '"').rests ('\\' :: c :: cs) = [] := rests_char_of_ne (by decide)
      split
      · rename_i special
        have single : inLiteral.rests ('\\' :: c :: cs) = [cs] := by rw [rests_inLiteral_escaped, if_pos special]
        have shorter : cs.length < ('\\' :: c :: cs).length := by
          rw [List.length_cons, List.length_cons]
          omega
        rw [rests_star_seq_of_singleton single shorter no_quote]
        exact ih false (c :: seen)
      · rename_i other
        rw [rests_star_seq_of_nil (by rw [rests_inLiteral_escaped, if_neg other]), no_quote]
        rfl
    · split
      · rename_i quote
        subst quote
        rw [rests_star_seq_of_nil (rests_inLiteral_end (Or.inl rfl)), rests_char]
        rfl
      · rename_i quote
        have no_quote : (char '"').rests (c :: cs) = [] := rests_char_of_ne quote
        split
        · rename_i feed
          rw [rests_star_seq_of_nil (rests_inLiteral_end (Or.inr feed)), no_quote]
          rfl
        · rename_i feed
          by_cases backslash : c = '\\'
          · subst backslash
            exact ih true ('\\' :: seen)
          · rw [rests_star_seq_of_singleton (rests_inLiteral_plain quote backslash feed) (by simp) no_quote]
            simpa [backslash] using ih false (c :: seen)

theorem head?_literal : (literal.ways ('"' :: tail)).head? =
    (string? ('"' :: tail)).map fun found => (found.text, found.rest) := by
  have cut : (string? ('"' :: tail)).map (fun found => (found.text, found.rest)) = Literal.split? ('"' :: tail) := by
    simp [string?, Function.comp_def]
  rw [cut]
  refine head?_ways_of_cut (fun way found => Literal.append_of_split? found) ?_
  have same := rests_literal false ['"'] tail
  rw [if_neg (by decide)] at same
  rw [literal, rests_sign_seq, same, Option.head?_toList]
  rfl

theorem head?_named (kind : Kind) (opening : Char) : ((named opening).ways (opening :: tail)).head? =
    (named? kind opening tail).map fun found => (found.text, found.rest) := by
  apply head?_ways_of_cut
  · intro way member
    obtain ⟨found, name, rfl⟩ := Option.map_eq_some_iff.1 member
    exact append_of_named? name
  · rw [named, rests_sign_seq, head?_rests_plus, named?]
    cases tail.takeWhile Text.isNameChar <;> rfl

theorem head?_arrayStart : (arrayStart.ways ('(' :: tail)).head? =
    some ((Lexeme.arrayStart tail).text, (Lexeme.arrayStart tail).rest) := by
  apply head?_ways_of_cut
  · intro way member
    cases member
    exact append_arrayStart tail
  · rw [arrayStart, rests_sign_seq, maybe, rests_either, rests_empty]
    cases tail with
    | nil => rfl
    | cons c tail => by_cases lower : c.isLower = true <;> simp [Lexeme.arrayStart, lower]

@[simp] theorem head?_sign : ((char c).ways (c :: tail)).head? = some ([c], tail) := by simp [char, ways]

@[simp] theorem ways_atom_sign (sign : c ∈ ['"', ':', '{', '}', '(', ')']) : atom.ways (c :: tail) = [] := by
  have stuck : Stops Text.isWordChar (c :: tail) ∧ NumberList.split? (c :: tail) = none := by
    simp only [List.mem_cons, List.not_mem_nil, or_false] at sign
    rcases sign with rfl | rfl | rfl | rfl | rfl | rfl <;> exact ⟨stops_cons.2 rfl, rfl⟩
  rw [← List.head?_eq_none_iff, head?_atom, atom?_eq_none_iff.2 (Atom.part?_eq_none_iff.2 stuck)]
  rfl

@[simp] theorem ways_literal_of_ne (other : c ≠ '"') : literal.ways (c :: tail) = [] := ways_sign_seq_of_ne other

@[simp] theorem ways_named_of_ne (other : c ≠ d) : (named d).ways (c :: tail) = [] := ways_sign_seq_of_ne other

@[simp] theorem ways_arrayStart_of_ne (other : c ≠ '(') : arrayStart.ways (c :: tail) = [] :=
  ways_sign_seq_of_ne other

theorem head?_tokenWays_blank (blank : c.isWhitespace = true) : (tokenWays (c :: tail)).head? =
    some (none, (c :: tail).takeWhile Char.isWhitespace, (c :: tail).dropWhile Char.isWhitespace) := by
  have front : ((plus (one Char.isWhitespace)).ways (c :: tail)).head? =
      some ((c :: tail).takeWhile Char.isWhitespace, (c :: tail).dropWhile Char.isWhitespace) :=
    head?_ways_of_cut (by simp) (by simp [head?_rests_plus, blank])
  rw [tokenWays, rules, List.flatMap_cons, List.head?_append, List.head?_map, front]
  rfl

theorem map_kind {kind : Kind} {cut : Option Lexeme} (same : ∀ found, cut = some found → found.kind = kind) :
    (cut.map fun found => (some found.kind, found.text, found.rest)) =
      (cut.map fun found => (found.text, found.rest)).map fun way => (some kind, way) := by
  cases cut with
  | none => rfl
  | some found => rw [← same found rfl]; rfl

theorem head?_tokenWays (solid : Stops Char.isWhitespace cs) : (tokenWays cs).head? =
    (Lexeme.first? cs).map fun found => (some found.kind, found.text, found.rest) := by
  cases cs with
  | nil =>
    have no_atom : (atom.ways []).head? = none := by
      rw [head?_atom, atom?_eq_none_iff.2 rfl]
      rfl
    simp [tokenWays, rules, literal, named, arrayStart, char, plus, ways, List.head?_eq_none_iff.1 no_atom,
      Lexeme.first?]
  | cons c tail =>
    have no_blank : (plus (one Char.isWhitespace)).ways (c :: tail) = [] := by simp [plus, ways, stops_cons.1 solid]
    rw [Lexeme.first?, if_neg (by simp [stops_cons.1 solid])]
    -- In front of a sign only its own rule matches.
    split
    · rename_i sign
      subst sign
      have only : tokenWays ('"' :: tail) = (literal.ways ('"' :: tail)).map fun way => (some .string, way) := by
        simp [tokenWays, rules, no_blank]
      rw [only, List.head?_map, head?_literal, map_kind fun _ => kind_of_string?]
    split
    · rename_i sign
      subst sign
      have only : tokenWays (':' :: tail) = ((named ':').ways (':' :: tail)).map fun way => (some .key, way) := by
        simp [tokenWays, rules, no_blank]
      rw [only, List.head?_map, head?_named .key, map_kind fun _ => kind_of_named?]
    split
    · rename_i sign
      subst sign
      have only : tokenWays ('{' :: tail) =
          ((named '{').ways ('{' :: tail)).map fun way => (some .nodeStart, way) := by
        simp [tokenWays, rules, no_blank]
      rw [only, List.head?_map, head?_named .nodeStart, map_kind fun _ => kind_of_named?]
    split
    · rename_i sign
      subst sign
      simp [tokenWays, rules, no_blank]
    split
    · rename_i sign
      subst sign
      simp [tokenWays, rules, no_blank, head?_arrayStart, kind_arrayStart]
    split
    · rename_i sign
      subst sign
      simp [tokenWays, rules, no_blank]
    · rename_i quote colon brace brace' parenthesis parenthesis'
      have only : tokenWays (c :: tail) = (atom.ways (c :: tail)).map fun way => (some .atom, way) := by
        simp [tokenWays, rules, no_blank, quote, colon, brace, brace', parenthesis, parenthesis']
      rw [only, List.head?_map, head?_atom, map_kind fun _ => kind_of_atom?]

end NodeDump.Pattern

namespace NodeDump.Reader
open Lexeme

/-- Reading goes on as long as the rules match blanks, and gives the first other match. -/
theorem read_eq (reader : Reader) : reader.read =
    match (Pattern.tokenWays reader.rest).head?, reader.rest with
    | some (none, text, rest), _ => read ⟨rest, reader.position.after text⟩
    | some (some kind, text, rest), _ => .ok (reader.token kind text) ⟨rest, reader.position.after text⟩
    | none, [] => .ok (reader.token .endOfInput []) reader
    | none, c :: _ => .error (.strayCharacter c reader.position.line reader.position.column) reader := by
  obtain ⟨cs, position⟩ := reader
  by_cases solid : Stops Char.isWhitespace cs
  · have here : (Reader.mk cs position).skipBlanks = ⟨cs, position⟩ := by
      simp [skipBlanks, solid.dropWhile, solid.takeWhile]
    rw [read, here, readHere, Pattern.head?_tokenWays solid]
    cases cs with
    | nil => rfl
    | cons c tail => cases front : Lexeme.first? (c :: tail) <;> simp [front]
  · cases cs with
    | nil => exact absurd stops_nil solid
    | cons c tail =>
      have blank : c.isWhitespace = true := by simpa using solid
      have behind := stops_dropWhile (p := Char.isWhitespace) (c :: tail)
      rw [Pattern.head?_tokenWays_blank blank]
      simp [read, skipBlanks, behind.dropWhile, behind.takeWhile]

end NodeDump.Reader
