import Mathlib.Data.List.DropRight
import NodeDump.Proofs.Scan.Passage
import NodeDump.Proofs.Scan.Spelling

/-!
Places counted off the text. A reader keeps its line and the start of that line while it goes on, and both can as
well be counted in the text that it has left behind. A move, a failed one too, takes a cursor whose place and whose
token are where the counting puts them to another such cursor.
-/

namespace NodeDump
open Lexeme

namespace Position

def lastLine (text : List Char) : Nat := text.length - (text.rtakeWhile (· ≠ '\n')).length

/-- The position at an offset, counted in the text in front of it. -/
def ofOffset (source : List Char) (offset : Nat) : Position where
  index := offset
  line := 1 + (source.take offset).count '\n'
  lineStart := lastLine (source.take offset)

/-- A carriage return starts no line. -/
example : ofOffset "a\r\n\nb\r c".toList 7 = ⟨7, 3, 4⟩ := by decide

theorem lastLine_concat (text : List Char) (c : Char) :
    lastLine (text ++ [c]) = if c = '\n' then text.length + 1 else lastLine text := by
  by_cases feed : c = '\n' <;> simp [lastLine, feed]

theorem ofOffset_next {source : List Char} {offset : Nat} {c : Char} (here : source[offset]? = some c) :
    (ofOffset source offset).next c = ofOffset source (offset + 1) := by
  have front : source.take (offset + 1) = source.take offset ++ [c] := by
    rw [List.take_add_one, here]
    rfl
  have reached : (source.take offset).length = offset := by
    obtain ⟨inside, -⟩ := List.getElem?_eq_some_iff.1 here
    rw [List.length_take, Nat.min_eq_left inside.le]
  rw [ofOffset, ofOffset, front, List.count_append, lastLine_concat, reached]
  by_cases feed : c = '\n' <;> simp [next, feed]
  omega

theorem ofOffset_after {source text rest : List Char} {offset : Nat} (behind : source.drop offset = text ++ rest) :
    (ofOffset source offset).after text = ofOffset source (offset + text.length) := by
  induction text generalizing offset with
  | nil => rfl
  | cons c text ih =>
    have here : source[offset]? = some c := by
      rw [← List.head?_drop, behind]
      rfl
    have later : source.drop (offset + 1) = text ++ rest := by
      rw [← List.drop_drop, behind]
      rfl
    rw [after_cons, ofOffset_next here, ih later, List.length_cons]
    congr 1
    omega

end Position

/-- The token stands in the source at the offset, in the line and the column that are counted there. -/
structure Token.StandsAt (source : List Char) (token : Token) (offset : Nat) : Prop where
  text : (source.drop offset).take token.text.length = token.text.toList
  line : token.line = (Position.ofOffset source offset).line
  column : token.column = (Position.ofOffset source offset).column
  last : token.isEnd = true → offset = source.length

def Fault.StandsAt (source : List Char) (fault : Fault) (offset : Nat) : Prop :=
  match fault with
  | .strayCharacter c line column => source[offset]? = some c ∧
      line = (Position.ofOffset source offset).line ∧ column = (Position.ofOffset source offset).column
  | .mismatch _ token | .unexpected token | .trailing token | .tooDeep token => token.StandsAt source offset

namespace Reader

/-- The reader has the source behind its place ahead, and its place is the one that is counted there. -/
structure Counted (source : List Char) (reader : Reader) : Prop where
  within : reader.position.index ≤ source.length
  rest : reader.rest = source.drop reader.position.index
  position : reader.position = .ofOffset source reader.position.index

variable {source : List Char} {reader after : Reader} {token : Token} {fault : Fault}

theorem counted_ofSource (source : String) : (ofSource source {}).Counted source.toList where
  within := Nat.zero_le _
  rest := rfl
  position := by simp [ofSource, Position.ofOffset, Position.lastLine]

theorem Counted.passes (counted : reader.Counted source) (passes : reader.Passes after) : after.Counted source := by
  obtain ⟨text, rest, place⟩ := passes
  have behind : source.drop reader.position.index = text ++ after.rest := by rw [← counted.rest, rest]
  have index : after.position.index = reader.position.index + text.length := by
    rw [place, Position.index_after]
  refine ⟨?_, ?_, ?_⟩
  · have lengths := congrArg List.length behind
    have within := counted.within
    rw [List.length_drop, List.length_append] at lengths
    omega
  · rw [index, ← List.drop_drop, behind, List.drop_left]
  · rw [index, ← Position.ofOffset_after behind, ← counted.position, place]

theorem Counted.readHere (counted : reader.Counted source) (took : reader.readHere = .ok token after) :
    token.StandsAt source reader.position.index ∧ reader.rest = token.text.toList ++ after.rest := by
  have place : reader.position.line = (Position.ofOffset source reader.position.index).line ∧
      reader.position.column = (Position.ofOffset source reader.position.index).column := by
    rw [← counted.position]
    exact ⟨rfl, rfl⟩
  unfold Reader.readHere at took
  split at took
  · rename_i none_left
    cases took
    refine ⟨⟨by simp [Reader.token], place.1, place.2, fun _ => ?_⟩, by simp [Reader.token]⟩
    have nothing := counted.rest
    rw [none_left] at nothing
    have reached := List.drop_eq_nil_iff.1 nothing.symm
    exact Nat.le_antisymm counted.within reached
  · rename_i c tail text
    split at took
    · contradiction
    · rename_i found front
      cases took
      have whole : reader.rest = found.text ++ found.rest := by rw [text, append_of_first? front]
      refine ⟨⟨?_, place.1, place.2, fun last => ?_⟩, by simpa [Reader.token] using whole⟩
      · simp [← counted.rest, whole, Reader.token]
      · simp [Reader.token, Token.isEnd, kind_ne_endOfInput front] at last

theorem Counted.read (counted : reader.Counted source) (took : reader.read = .ok token after) :
    ∃ gap, Run Char.isWhitespace gap ∧ reader.rest = gap ++ (token.text.toList ++ after.rest) ∧
      token.StandsAt source (reader.position.index + gap.length) ∧ after.Counted source ∧
      after.position.index = reader.position.index + gap.length + token.text.toList.length := by
  have skipped := counted.passes (passes_skipBlanks reader)
  obtain ⟨stands, text⟩ := skipped.readHere took
  have start : reader.skipBlanks.position.index =
      reader.position.index + (reader.rest.takeWhile Char.isWhitespace).length := Position.index_after _ _
  have index := (passes_of_readHere took).index_add_length
  rw [text, List.length_append, start] at index
  refine ⟨reader.rest.takeWhile Char.isWhitespace, run_takeWhile _, ?_, start ▸ stands,
    counted.passes (passes_of_read took), by omega⟩
  rw [← text]
  exact List.takeWhile_append_dropWhile.symm

theorem Counted.read_error (counted : reader.Counted source) (failed : reader.read = .error fault after) :
    fault.StandsAt source after.position.index ∧ fault.token? = none := by
  have left := counted.passes (passes_of_read_error failed)
  obtain ⟨-, c, rest, behind, -, rfl⟩ := stuck_of_read failed
  refine ⟨⟨?_, ?_, ?_⟩, rfl⟩
  · rw [← List.head?_drop, ← left.rest, behind]
    rfl
  · rw [← left.position]
  · rw [← left.position]

end Reader

namespace Cursor

/-- The place of the cursor is the one that is counted there, and so is that of its token, which has nothing but
blanks between itself and the place of the cursor. -/
structure Counted (source : List Char) (cursor : Cursor) : Prop extends cursor.toReader.Counted source where
  current : ∃ offset gap, cursor.current.StandsAt source offset ∧ Run Char.isWhitespace gap ∧
    source.take cursor.position.index = source.take offset ++ (cursor.current.text.toList ++ gap)

/-- The same of a cursor that may have lost the tokens between its own and its place. -/
structure Placed (source : List Char) (cursor : Cursor) : Prop extends cursor.toReader.Counted source where
  current : ∃ offset, cursor.current.StandsAt source offset

variable {source : List Char} {cursor after : Cursor} {token : Token} {fault : Fault}

theorem counted_of_read {reader behind : Reader} (counted : reader.Counted source)
    (took : reader.read = .ok token behind) : (Cursor.mk behind token).Counted source := by
  obtain ⟨gap, -, whole, stands, reached, index⟩ := counted.read took
  have text : source.drop (reader.position.index + gap.length) = token.text.toList ++ behind.rest := by
    rw [← List.drop_drop, ← counted.rest, whole, List.drop_left]
  refine ⟨reached, _, [], stands, by simp [Run], ?_⟩
  rw [List.append_nil, index, List.take_add, text, List.take_left]

theorem counted_ofSource {source : String} (begun : ofSource source = .ok cursor) :
    cursor.Counted source.toList := by
  unfold ofSource ofReader at begun
  split at begun
  · rename_i took
    cases begun
    exact counted_of_read (Reader.counted_ofSource source) took
  · contradiction

theorem ofSource_error {source : String} (failed : ofSource source = .error fault) :
    ∃ offset, fault.StandsAt source.toList offset := by
  unfold ofSource ofReader at failed
  split at failed
  · contradiction
  · rename_i behind stuck
    cases failed
    exact ⟨_, ((Reader.counted_ofSource source).read_error stuck).1⟩

theorem Counted.advance (counted : cursor.Counted source) (moved : cursor.advance = .ok token after) :
    after.Counted source := by
  obtain ⟨-, ⟨-, rfl⟩ | ⟨-, took⟩⟩ := advance_ok moved
  · exact counted
  · exact counted_of_read counted.toCounted took

theorem Counted.advance_error (counted : cursor.Counted source) (failed : cursor.advance = .error fault after) :
    after.Counted source := by
  obtain ⟨offset, gap, stands, blank, front⟩ := counted.current
  obtain ⟨-, same, stuck⟩ := Cursor.advance_error failed
  have passes := Reader.passes_of_read_error stuck
  have here := (Reader.stuck_of_read stuck).1
  have gone : Run Char.isWhitespace (cursor.rest.takeWhile Char.isWhitespace) := run_takeWhile _
  refine ⟨counted.toCounted.passes passes, ?_⟩
  rw [same]
  refine ⟨offset, gap ++ cursor.rest.takeWhile Char.isWhitespace, stands, blank.append gone, ?_⟩
  have index : after.position.index =
      cursor.position.index + (cursor.rest.takeWhile Char.isWhitespace).length := by
    rw [here]
    exact Position.index_after _ _
  have skipped : cursor.rest.take (cursor.rest.takeWhile Char.isWhitespace).length =
      cursor.rest.takeWhile Char.isWhitespace := (List.prefix_iff_eq_take.1 (List.takeWhile_prefix _)).symm
  simp only [index, List.take_add, ← counted.rest, skipped, front, List.append_assoc]

theorem Counted.moves (counted : cursor.Counted source) (moves : Relation.ReflTransGen MovesTo cursor after) :
    after.Counted source := by
  induction moves with
  | refl => exact counted
  | tail _ moved ih =>
    rcases moved with ⟨token, moved⟩ | ⟨fault, failed⟩
    · exact ih.advance moved
    · exact ih.advance_error failed

theorem Counted.placed (counted : cursor.Counted source) : cursor.Placed source where
  toCounted := counted.toCounted
  current := by
    obtain ⟨offset, gap, stands, -⟩ := counted.current
    exact ⟨offset, stands⟩

namespace Placed

theorem passes (placed : cursor.Placed source) (passes : cursor.toReader.Passes after.toReader)
    (same : after.current = cursor.current) : after.Placed source where
  toCounted := placed.toCounted.passes passes
  current := same ▸ placed.current

theorem advance (placed : cursor.Placed source) (moved : cursor.advance = .ok token after) : after.Placed source := by
  obtain ⟨-, ⟨-, rfl⟩ | ⟨-, took⟩⟩ := advance_ok moved
  · exact placed
  · exact (counted_of_read placed.toCounted took).placed

theorem advance_error (placed : cursor.Placed source) (failed : cursor.advance = .error fault after) :
    after.Placed source ∧ fault.StandsAt source after.position.index ∧ fault.token? = none := by
  obtain ⟨-, same, stuck⟩ := Cursor.advance_error failed
  exact ⟨placed.passes (Reader.passes_of_read_error stuck) same, placed.toCounted.read_error stuck⟩

end Placed

end Cursor

namespace Reader

variable {source : List Char} {reader : Reader}

theorem Counted.stands (counted : reader.Counted source) {front later : List Token} {token : Token}
    (tokens : (Scan.ofReader reader).tokens = front ++ token :: later) :
    ∃ items gap, items.map Prod.snd = front.map Token.word ∧ (∀ item ∈ items, Run Char.isWhitespace item.1) ∧
      Run Char.isWhitespace gap ∧ spell items gap <+: reader.rest ∧
      token.StandsAt source (reader.position.index + (spell items gap).length) := by
  induction reader using Reader.induction generalizing front with
  | stuck reader fault after failed => simp [Scan.ofReader_of_error failed] at tokens
  | last reader last after took done => simp [Scan.ofReader_of_end took done] at tokens
  | more reader first after took going ih =>
    obtain ⟨gap, blank, whole, stands, reached, index⟩ := counted.read took
    rw [Scan.ofReader_of_token took going] at tokens
    cases front with
    | nil =>
      obtain ⟨rfl, -⟩ := List.cons.inj tokens
      exact ⟨[], gap, rfl, by simp, blank, ⟨_, whole.symm⟩, stands⟩
    | cons other front =>
      obtain ⟨rfl, behind⟩ := List.cons.inj tokens
      obtain ⟨items, last, words, gaps, lastBlank, ⟨rest, text⟩, there⟩ := ih reached behind
      refine ⟨(gap, first.word) :: items, last, by simp [words], List.forall_mem_cons.2 ⟨blank, gaps⟩,
        lastBlank, ⟨rest, ?_⟩, ?_⟩
      · rw [whole, ← text]
        simp [spell, Token.word]
      · rw [index] at there
        simpa [spell, Token.word, Nat.add_assoc] using there

theorem Counted.ending (counted : reader.Counted source) :
    match (Scan.ofReader reader).ending with
    | .ok last => last.StandsAt source source.length
    | .error fault => ∃ offset, fault.StandsAt source offset := by
  induction reader using Reader.induction with
  | stuck reader fault after failed =>
    rw [Scan.ofReader_of_error failed]
    exact ⟨_, (counted.read_error failed).1⟩
  | last reader last after took done =>
    rw [Scan.ofReader_of_end took done]
    obtain ⟨gap, -, -, stands, -⟩ := counted.read took
    rwa [stands.last done] at stands
  | more reader first after took going ih =>
    rw [Scan.ofReader_of_token took going]
    exact ih (counted.passes (passes_of_read took))

end Reader

end NodeDump
