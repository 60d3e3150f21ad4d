import NodeDump.Proofs.Lexeme.Munch

/-!
Atoms divided into words and lists of numbers, each word as long as it can be. What is cut off piece by piece is
such a division, and there is no other.
-/

namespace NodeDump.Atom
open Lexeme

/-- Words and lists one behind the other. No word could go on with what stands behind it, which is `rest` for the
last piece. -/
def Pieces (rest : List Char) : List (List Char) → Prop
  | [] => True
  | piece :: later =>
    ((piece ≠ [] ∧ Run Text.isWordChar piece ∧ Stops Text.isWordChar (later.flatten ++ rest)) ∨ IsNumberList piece) ∧
      Pieces rest later

theorem Pieces.alone {rest : List Char} {pieces : List (List Char)} (divided : Pieces rest pieces) :
    Pieces [] pieces := by
  induction pieces with
  | nil => trivial
  | cons piece later ih =>
    obtain ⟨front, behind⟩ := divided
    refine ⟨front.imp_left fun ⟨some_char, word, stops⟩ => ⟨some_char, word, ?_⟩, ih behind⟩
    rw [List.append_nil]
    cases text : later.flatten with
    | nil => exact stops_nil
    | cons c tail =>
      rw [text, List.cons_append, stops_cons] at stops
      exact stops_cons.2 stops

theorem Pieces.parts_eq {rest : List Char} {pieces : List (List Char)} (divided : Pieces rest pieces)
    (stuck : part? rest = none) : parts (pieces.flatten ++ rest) = (pieces, rest) := by
  induction pieces with
  | nil => exact parts_of_none stuck
  | cons piece later ih =>
    obtain ⟨front, behind⟩ := divided
    have found : part? (piece ++ (later.flatten ++ rest)) = some (piece, later.flatten ++ rest) := by
      rcases front with ⟨some_char, word, stops⟩ | isList
      · exact part?_word some_char word stops
      · exact part?_list isList _
    rw [List.flatten_cons, List.append_assoc, parts_of_some found, ih behind]

theorem pieces_parts (cs : List Char) : Pieces (parts cs).2 (parts cs).1 := by
  fun_induction parts cs with
  | case1 cs stuck => trivial
  | case2 cs piece behind found later rest split ih =>
    have whole := append_of_parts behind
    rw [split] at ih whole
    refine ⟨?_, ih⟩
    rw [whole]
    exact word_or_list_of_part? found

theorem parts_of_atom? {cs : List Char} {found : Lexeme} (atom : atom? cs = some found) :
    (parts cs).1.flatten = found.text ∧ (parts cs).2 = found.rest := by
  unfold atom? at atom
  split at atom
  · contradiction
  · rename_i piece later rest cut
    obtain rfl := Option.some.inj atom
    rw [cut]
    exact ⟨rfl, rfl⟩

theorem pieces_iff {cs : List Char} {found : Lexeme} (atom : atom? cs = some found) (pieces : List (List Char)) :
    pieces.flatten = found.text ∧ Pieces [] pieces ↔ pieces = (parts cs).1 := by
  obtain ⟨text, -⟩ := parts_of_atom? atom
  have alone := (pieces_parts cs).alone
  constructor
  · rintro ⟨whole, divided⟩
    have nothing : part? [] = none := rfl
    have same := divided.parts_eq nothing
    rw [whole, ← text, alone.parts_eq nothing] at same
    exact (Prod.mk.inj same).1.symm
  · rintro rfl
    exact ⟨text, alone⟩

end NodeDump.Atom
