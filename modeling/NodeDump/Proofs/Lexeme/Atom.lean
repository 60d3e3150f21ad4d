import NodeDump.Lexeme.Atom
import NodeDump.Proofs.Lexeme.NumberList

/-!
The reader of atoms against their language. However a text is put together from words and lists, the
longest-first reader comes to the same end, because a run of word characters never breaks off in the
middle and a list ends with its bracket.
-/

namespace NodeDump.Lexeme

theorem IsNumberList.stops {list : List Char} (isList : IsNumberList list) (rest : List Char) :
    Stops Text.isWordChar (list ++ rest) := by
  obtain ⟨blanks, inside, rfl, blank, -⟩ := isList
  cases blanks with
  | nil => simp; decide
  | cons c blanks => simpa using Text.isWordChar_of_isWhitespace (blank c List.mem_cons_self)

theorem IsNumberList.ne_nil {list : List Char} (isList : IsNumberList list) : list ≠ [] := by
  obtain ⟨blanks, inside, rfl, -⟩ := isList
  simp

theorem IsAtomPart.ne_nil {part : List Char} (isPart : IsAtomPart part) : part ≠ [] := by
  rcases isPart with ⟨some_char, -⟩ | isList
  · exact some_char
  · exact isList.ne_nil

end NodeDump.Lexeme

namespace NodeDump.Atom
open Lexeme

theorem part?_word {word rest : List Char} (some_char : word ≠ []) (all : Run Text.isWordChar word)
    (stops : Stops Text.isWordChar rest) : part? (word ++ rest) = some (word, rest) := by
  obtain ⟨c, word, rfl⟩ := List.exists_cons_of_ne_nil some_char
  rw [part?, all.takeWhile_eq stops, all.dropWhile_eq stops]

theorem part?_list {list : List Char} (isList : IsNumberList list) (rest : List Char) :
    part? (list ++ rest) = some (list, rest) := by
  rw [part?, (isList.stops rest).takeWhile]
  exact NumberList.split?_complete isList rest

theorem word_or_list_of_part? {cs text rest : List Char} (found : part? cs = some (text, rest)) :
    (text ≠ [] ∧ Run Text.isWordChar text ∧ Stops Text.isWordChar rest) ∨ IsNumberList text := by
  unfold part? at found
  split at found
  · exact Or.inr (NumberList.split?_sound found)
  · rename_i c word run
    simp only [Option.some.injEq, Prod.mk.injEq] at found
    rw [← found.1, ← found.2, ← run]
    exact Or.inl ⟨by simp [run], run_takeWhile cs, stops_dropWhile cs⟩

theorem part?_sound {cs text rest : List Char} (found : part? cs = some (text, rest)) : IsAtomPart text :=
  (word_or_list_of_part? found).imp_left fun ⟨some_char, word, _⟩ => ⟨some_char, word⟩

theorem part?_eq_none_iff {cs : List Char} :
    part? cs = none ↔ Stops Text.isWordChar cs ∧ NumberList.split? cs = none := by
  constructor
  · intro stuck
    unfold part? at stuck
    split at stuck
    · rename_i run
      exact ⟨stops_of_takeWhile run, stuck⟩
    · simp at stuck
  · rintro ⟨stops, stuck⟩
    rw [part?, stops.takeWhile]
    exact stuck

theorem parts_of_none {cs : List Char} (stuck : part? cs = none) : parts cs = ([], cs) := by
  rw [parts]
  split
  · rfl
  · rename_i found
    rw [stuck] at found
    contradiction

theorem parts_of_some {cs part behind : List Char} (found : part? cs = some (part, behind)) :
    parts cs = (part :: (parts behind).1, (parts behind).2) := by
  rw [parts]
  split
  · rename_i stuck
    rw [found] at stuck
    contradiction
  · rename_i same
    rw [found] at same
    simp only [Option.some.injEq, Prod.mk.injEq] at same
    rw [same.1, same.2]

theorem parts_sound (cs : List Char) :
    (∀ part ∈ (parts cs).1, IsAtomPart part) ∧ part? (parts cs).2 = none := by
  fun_induction parts cs with
  | case1 cs stuck => exact ⟨by simp, stuck⟩
  | case2 cs part behind found later rest split ih =>
    rw [split] at ih
    refine ⟨fun piece member => ?_, ih.2⟩
    rcases List.mem_cons.1 member with rfl | after
    · exact part?_sound found
    · exact ih.1 piece after

theorem dropWhile_flatten {pieces : List (List Char)} (all : ∀ piece ∈ pieces, IsAtomPart piece) :
    ∃ later : List (List Char), (∀ piece ∈ later, IsAtomPart piece) ∧
      pieces.flatten.dropWhile Text.isWordChar = later.flatten := by
  induction pieces with
  | nil => exact ⟨[], by simp, rfl⟩
  | cons piece pieces ih =>
    rcases all piece List.mem_cons_self with ⟨-, word⟩ | isList
    · obtain ⟨later, parts, same⟩ := ih fun other member => all other (List.mem_cons_of_mem piece member)
      exact ⟨later, parts, by rw [List.flatten_cons, word.dropWhile_append, same]⟩
    · exact ⟨piece :: pieces, all, by rw [List.flatten_cons, (isList.stops _).dropWhile]⟩

theorem flatten_parts_append (pieces : List (List Char)) (all : ∀ piece ∈ pieces, IsAtomPart piece)
    {rest : List Char} (stuck : part? rest = none) :
    (parts (pieces.flatten ++ rest)).1.flatten = pieces.flatten ∧
      (parts (pieces.flatten ++ rest)).2 = rest := by
  induction size : pieces.flatten.length using Nat.strongRecOn generalizing pieces with
  | ind bound ih =>
  cases pieces with
  | nil => simp [parts_of_none stuck]
  | cons piece pieces =>
    have others : ∀ other ∈ pieces, IsAtomPart other :=
      fun other member => all other (List.mem_cons_of_mem piece member)
    rcases all piece List.mem_cons_self with ⟨some_char, word⟩ | isList
    · -- The reader takes the whole run, which may reach into the pieces behind the first.
      obtain ⟨later, allLater, same⟩ := dropWhile_flatten others
      have split : (piece :: pieces).flatten =
          (piece ++ pieces.flatten.takeWhile Text.isWordChar) ++ later.flatten := by
        rw [← same, List.append_assoc, List.takeWhile_append_dropWhile, List.flatten_cons]
      have stops : Stops Text.isWordChar (later.flatten ++ rest) := by
        have behind : Stops Text.isWordChar later.flatten := same ▸ stops_dropWhile pieces.flatten
        cases tail : later.flatten with
        | nil => exact (part?_eq_none_iff.1 stuck).1
        | cons c tail =>
          rw [tail, stops_cons] at behind
          rwa [List.cons_append, stops_cons]
      have shorter : later.flatten.length < bound := by
        have positive := List.length_pos_iff.2 some_char
        rw [← size, split, List.length_append, List.length_append]
        omega
      have run : part? ((piece :: pieces).flatten ++ rest) =
          some (piece ++ pieces.flatten.takeWhile Text.isWordChar, later.flatten ++ rest) := by
        rw [split, List.append_assoc]
        exact part?_word (by simp [some_char]) (word.append (run_takeWhile _)) stops
      obtain ⟨texts, ends⟩ := ih _ shorter later allLater rfl
      rw [parts_of_some run]
      exact ⟨by rw [List.flatten_cons, texts, split], ends⟩
    · have shorter : pieces.flatten.length < bound := by
        have positive := List.length_pos_iff.2 isList.ne_nil
        rw [← size, List.flatten_cons, List.length_append]
        omega
      obtain ⟨texts, ends⟩ := ih _ shorter pieces others rfl
      rw [List.flatten_cons, List.append_assoc, parts_of_some (part?_list isList _)]
      exact ⟨by rw [List.flatten_cons, texts], ends⟩

end NodeDump.Atom
