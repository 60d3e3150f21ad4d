import NodeDump.Lexeme.Lemmas
import NodeDump.Proofs.Lexeme.Atom

/-!
What is cut off the front of a text. A lexeme is cut off exactly if its text belongs to the language of its kind,
starts with no blank, and the rest does not go on with it.
-/

namespace NodeDump.Literal
open Lexeme

theorem close?_complete {body : List Char} (isBody : LiteralBody body) (seen rest : List Char) :
    close? false seen (body ++ '"' :: rest) = some (seen.reverse ++ body ++ ['"'], rest) := by
  induction isBody generalizing seen with
  | nil => simp [close?]
  | escaped special inner ih => simp [close?, special, ih]
  | plain quote backslash feed inner ih => simp [close?, quote, backslash, feed, ih]

/-- After a backslash the rest of the body is only right together with it. -/
theorem close?_sound {escaped : Bool} {seen cs text rest : List Char}
    (closed : close? escaped seen cs = some (text, rest)) :
    ∃ body, text = seen.reverse ++ body ++ ['"'] ∧
      LiteralBody (if escaped then '\\' :: body else body) := by
  induction cs generalizing escaped seen with
  | nil => simp [close?] at closed
  | cons c cs ih =>
    rw [close?] at closed
    split at closed
    · rename_i backslash
      split at closed
      · rename_i special
        obtain ⟨body, same, isBody⟩ := ih closed
        refine ⟨c :: body, by simp [same], ?_⟩
        simpa [backslash] using LiteralBody.escaped special isBody
      · simp at closed
    · rename_i plain
      split at closed
      · rename_i quote
        simp only [Option.some.injEq, Prod.mk.injEq] at closed
        exact ⟨[], by simp [← closed.1, quote], by simpa [plain] using LiteralBody.nil⟩
      · rename_i quote
        split at closed
        · simp at closed
        · rename_i feed
          obtain ⟨body, same, isBody⟩ := ih closed
          refine ⟨c :: body, by simp [same], ?_⟩
          by_cases backslash : c = '\\'
          · simpa [plain, backslash] using isBody
          · have inner : LiteralBody body := by simpa [backslash] using isBody
            simpa [plain] using LiteralBody.plain quote backslash feed inner

end NodeDump.Literal

namespace NodeDump.Lexeme

/-- What stands behind a lexeme does not go on with it. -/
def Ends : Kind → List Char → List Char → Prop
  | .nodeStart, _, rest | .key, _, rest => Stops Text.isNameChar rest
  | .arrayStart, text, rest => text = ['('] → Stops Char.isLower rest
  | .atom, _, rest => Atom.part? rest = none
  | _, _, _ => True

theorem named?_complete (kind : Kind) (opening : Char) {name rest : List Char} (some_char : name ≠ [])
    (all : Run Text.isNameChar name) (stops : Stops Text.isNameChar rest) :
    named? kind opening (name ++ rest) = some ⟨kind, opening :: name, rest⟩ := by
  obtain ⟨c, name, rfl⟩ := List.exists_cons_of_ne_nil some_char
  rw [named?, all.takeWhile_eq stops, all.dropWhile_eq stops]

theorem named?_sound {kind : Kind} {opening : Char} {tail : List Char} {found : Lexeme}
    (named : named? kind opening tail = some found) :
    ∃ name, found.text = opening :: name ∧ name ≠ [] ∧ Run Text.isNameChar name ∧
      Stops Text.isNameChar found.rest := by
  unfold named? at named
  split at named
  · simp at named
  · rename_i c name run
    rw [← Option.some.inj named]
    exact ⟨c :: name, rfl, by simp, run ▸ run_takeWhile tail, stops_dropWhile tail⟩

theorem named?_eq_none_iff {kind : Kind} {opening : Char} {tail : List Char} :
    named? kind opening tail = none ↔ Stops Text.isNameChar tail := by
  constructor
  · intro stuck
    unfold named? at stuck
    split at stuck
    · rename_i run
      exact stops_of_takeWhile run
    · contradiction
  · intro stops
    rw [named?, stops.takeWhile]

theorem arrayStart_complete {text rest : List Char} (language : Language .arrayStart text)
    (ends : Ends .arrayStart text rest) :
    ∃ tail, text ++ rest = '(' :: tail ∧ arrayStart tail = ⟨.arrayStart, text, rest⟩ := by
  rcases language with rfl | ⟨tag, rfl, lower⟩
  · refine ⟨rest, rfl, ?_⟩
    cases rest with
    | nil => rfl
    | cons c rest => simp [arrayStart, stops_cons.1 (ends rfl)]
  · exact ⟨tag :: rest, rfl, by simp [arrayStart, lower]⟩

theorem arrayStart_sound (tail : List Char) :
    Language .arrayStart (arrayStart tail).text ∧
      Ends .arrayStart (arrayStart tail).text (arrayStart tail).rest := by
  unfold arrayStart
  split
  · exact ⟨Or.inl rfl, fun _ => stops_nil⟩
  · rename_i c rest
    split
    · rename_i lower
      exact ⟨Or.inr ⟨c, rfl, lower⟩, fun bare => by simp at bare⟩
    · rename_i other
      exact ⟨Or.inl rfl, fun _ => by simpa using other⟩

theorem Language.ne_nil {kind : Kind} {text : List Char} (language : Language kind text) : text ≠ [] := by
  rintro rfl
  cases kind with
  | atom =>
    obtain ⟨pieces, same, some_piece, all⟩ := language
    obtain ⟨piece, pieces, rfl⟩ := List.exists_cons_of_ne_nil some_piece
    simp [(all piece List.mem_cons_self).ne_nil] at same
  | _ => simp [Lexeme.Language] at language

theorem atom?_complete {text rest : List Char} (language : Language .atom text)
    (ends : Ends .atom text rest) : atom? (text ++ rest) = some ⟨.atom, text, rest⟩ := by
  have some_char := language.ne_nil
  obtain ⟨pieces, rfl, -, all⟩ := language
  obtain ⟨texts, behind⟩ := Atom.flatten_parts_append pieces all ends
  unfold atom?
  split
  · rename_i cut
    rw [cut] at texts
    exact absurd texts.symm some_char
  · rename_i piece later tail cut
    rw [cut] at texts behind
    rw [← texts, ← behind, List.flatten_cons]

theorem atom?_sound {cs : List Char} {found : Lexeme} (atom : atom? cs = some found) :
    Language .atom found.text ∧ Ends .atom found.text found.rest := by
  have sound := Atom.parts_sound cs
  unfold atom? at atom
  split at atom
  · simp at atom
  · rename_i piece later rest cut
    rw [cut] at sound
    rw [← Option.some.inj atom]
    exact ⟨⟨piece :: later, rfl, by simp, sound.1⟩, sound.2⟩

theorem atom?_eq_none_iff {cs : List Char} : atom? cs = none ↔ Atom.part? cs = none := by
  cases found : Atom.part? cs with
  | none => simp [atom?, Atom.parts_of_none found]
  | some cut => simp [atom?, Atom.parts_of_some found]

theorem atom_front {c : Char} {tail : List Char} (language : Language .atom (c :: tail))
    (solid : c.isWhitespace = false) : Text.isWordChar c = true ∨ c = '[' := by
  obtain ⟨pieces, same, some_piece, all⟩ := language
  obtain ⟨piece, pieces, rfl⟩ := List.exists_cons_of_ne_nil some_piece
  rcases all piece List.mem_cons_self with ⟨some_char, word⟩ | ⟨blanks, inside, rfl, blank, -⟩
  · obtain ⟨d, piece, rfl⟩ := List.exists_cons_of_ne_nil some_char
    obtain ⟨rfl, -⟩ := List.cons.inj same
    exact Or.inl (word _ List.mem_cons_self)
  · cases blanks with
    | nil => exact Or.inr (List.cons.inj same).1
    | cons d blanks =>
      obtain ⟨rfl, -⟩ := List.cons.inj same
      rw [blank _ List.mem_cons_self] at solid
      contradiction

theorem Language.exists_list {text : List Char} (language : Language .atom text)
    (front : text.head? = some '[') :
    ∃ (list : List Char) (later : List (List Char)), text = list ++ later.flatten ∧ IsNumberList list ∧
      ∀ piece ∈ later, IsAtomPart piece := by
  obtain ⟨pieces, rfl, some_piece, all⟩ := language
  obtain ⟨piece, pieces, rfl⟩ := List.exists_cons_of_ne_nil some_piece
  rcases all piece List.mem_cons_self with ⟨some_char, word⟩ | isList
  · obtain ⟨c, piece, rfl⟩ := List.exists_cons_of_ne_nil some_char
    have bracket : c = '[' := by simpa using front
    have inside := word c List.mem_cons_self
    rw [bracket] at inside
    contradiction
  · exact ⟨piece, pieces, rfl, isList, fun other member => all other (List.mem_cons_of_mem piece member)⟩

theorem first?_of_front {c : Char} (front : Text.isWordChar c = true ∨ c = '[')
    (solid : c.isWhitespace = false) (tail : List Char) : first? (c :: tail) = atom? (c :: tail) := by
  have apart (d : Char) (outside : Text.isWordChar d = false) (other : d ≠ '[') : c ≠ d := by
    rintro rfl
    rcases front with word | rfl
    · rw [outside] at word
      contradiction
    · exact other rfl
  simp [first?, solid, apart '"' (by decide) (by decide), apart ':' (by decide) (by decide),
    apart '{' (by decide) (by decide), apart '}' (by decide) (by decide),
    apart '(' (by decide) (by decide), apart ')' (by decide) (by decide)]

theorem first?_complete {kind : Kind} {text rest : List Char} (language : Language kind text)
    (solid : Stops Char.isWhitespace text) (ends : Ends kind text rest) :
    first? (text ++ rest) = some ⟨kind, text, rest⟩ := by
  cases kind with
  | nodeStart =>
    obtain ⟨name, rfl, some_char, all⟩ := language
    simpa [first?] using named?_complete .nodeStart '{' some_char all ends
  | nodeEnd =>
    obtain rfl := language
    simp [first?]
  | arrayStart =>
    obtain ⟨tail, whole, opened⟩ := arrayStart_complete language ends
    simp [whole, first?, opened]
  | arrayEnd =>
    obtain rfl := language
    simp [first?]
  | key =>
    obtain ⟨name, rfl, some_char, all⟩ := language
    simpa [first?] using named?_complete .key ':' some_char all ends
  | string =>
    obtain ⟨body, rfl, isBody⟩ := language
    simp [first?, string?, Literal.split?, Literal.close?_complete isBody]
  | atom =>
    obtain ⟨c, tail, rfl⟩ := List.exists_cons_of_ne_nil language.ne_nil
    have start := stops_cons.1 solid
    rw [List.cons_append, first?_of_front (atom_front language start) start]
    exact atom?_complete language ends
  | endOfInput => exact language.elim

theorem first?_sound {cs : List Char} {found : Lexeme} (front : first? cs = some found) :
    Language found.kind found.text ∧ Ends found.kind found.text found.rest := by
  cases cut_of_first? front with
  | string closed =>
    rw [kind_of_string? closed]
    obtain ⟨⟨text, rest⟩, cut, rfl⟩ := Option.map_eq_some_iff.1 closed
    obtain ⟨body, same, isBody⟩ := Literal.close?_sound cut
    exact ⟨⟨body, by simpa using same, by simpa using isBody⟩, trivial⟩
  | key name =>
    rw [kind_of_named? name]
    obtain ⟨name, same, some_char, all, stops⟩ := named?_sound name
    exact ⟨⟨name, same, some_char, all⟩, stops⟩
  | nodeStart name =>
    rw [kind_of_named? name]
    obtain ⟨name, same, some_char, all, stops⟩ := named?_sound name
    exact ⟨⟨name, same, some_char, all⟩, stops⟩
  | nodeEnd tail => exact ⟨rfl, trivial⟩
  | arrayStart tail =>
    rw [kind_arrayStart]
    exact arrayStart_sound tail
  | arrayEnd tail => exact ⟨rfl, trivial⟩
  | atom atom =>
    rw [kind_of_atom? atom]
    exact atom?_sound atom

end NodeDump.Lexeme
