import NodeDump.Proofs.Scan.Places
import NodeDump.Proofs.Scan.Stream

/-!
Reading from the middle of a source. A cursor can be started at any index, inside a token or behind the end, and be
told any line and any start of it. It comes upon just what a cursor over the text that is cut off there comes upon,
and each place is the place in that text as it is seen from the start.
-/

namespace NodeDump
open Lexeme

namespace Position

/-- Where a place in the text behind a position stands. Only on the first line does it matter for the column how far
the line has come. -/
def place (start : Position) (line column : Int) : Int × Int :=
  if line = 1 then (start.line, column + start.index - start.lineStart) else (start.line + line - 1, column)

theorem column_after_of_mem {text : List Char} (feed : '\n' ∈ text) (p q : Position) :
    (p.after text).column = (q.after text).column := by
  induction text generalizing p q with
  | nil => contradiction
  | cons c text ih =>
    by_cases later : '\n' ∈ text
    · exact ih later (p.next c) (q.next c)
    · obtain rfl : c = '\n' := by simpa [later, eq_comm] using feed
      exact (column_after_lineFeed p [] later).trans (column_after_lineFeed q [] later).symm

theorem place_after (start : Position) (text : List Char) :
    start.place (after {} text).line (after {} text).column = ((start.after text).line, (start.after text).column) := by
  rw [place, line_after, line_after]
  by_cases feed : '\n' ∈ text
  · have some_line : 0 < text.count '\n' := List.count_pos_iff.2 feed
    rw [if_neg (by simp; omega), column_after_of_mem feed {} start]
    congr 1
    simp only
    omega
  · have no_line : text.count '\n' = 0 := List.count_eq_zero.2 feed
    rw [if_pos (by simp [no_line]), column, column, index_after, index_after,
      lineStart_after_of_not_mem _ feed, lineStart_after_of_not_mem _ feed]
    congr 1
    · simp [no_line]
    · simp only
      omega

end Position

def Token.seenFrom (start : Position) (token : Token) : Token :=
  let (line, column) := start.place token.line token.column
  { token with line, column }

def Fault.seenFrom (start : Position) : Fault → Fault
  | .strayCharacter c line column =>
    let (line, column) := start.place line column
    .strayCharacter c line column
  | .mismatch expected token => .mismatch expected (token.seenFrom start)
  | .unexpected token => .unexpected (token.seenFrom start)
  | .trailing token => .trailing (token.seenFrom start)
  | .tooDeep token => .tooDeep (token.seenFrom start)

namespace Reader

/-- Two readers have the same text ahead. One has begun to read at the start, the other at the beginning of the text
that is cut off there. -/
structure Aligned (start : Position) (inner outer : Reader) : Prop where
  rest : outer.rest = inner.rest
  position : ∃ text, inner.position = Position.after {} text ∧ outer.position = start.after text

variable {start : Position} {inner outer after : Reader} {token : Token} {fault : Fault}

namespace Aligned

theorem place (aligned : Aligned start inner outer) :
    start.place inner.position.line inner.position.column = (outer.position.line, outer.position.column) := by
  obtain ⟨text, fresh, moved⟩ := aligned.position
  rw [fresh, moved, Position.place_after]

theorem pass (aligned : Aligned start inner outer) (text rest : List Char) :
    Aligned start ⟨rest, inner.position.after text⟩ ⟨rest, outer.position.after text⟩ := by
  obtain ⟨front, fresh, moved⟩ := aligned.position
  refine ⟨rfl, front ++ text, ?_, ?_⟩
  · rw [fresh, Position.after_append]
  · rw [moved, Position.after_append]

theorem skipBlanks (aligned : Aligned start inner outer) : Aligned start inner.skipBlanks outer.skipBlanks := by
  unfold Reader.skipBlanks
  rw [aligned.rest]
  exact aligned.pass _ _

theorem token_eq (aligned : Aligned start inner outer) (kind : Kind) (text : List Char) :
    outer.token kind text = (inner.token kind text).seenFrom start := by
  simp [Reader.token, Token.seenFrom, aligned.place]

theorem readHere (aligned : Aligned start inner outer) (took : inner.readHere = .ok token after) :
    ∃ behind, outer.readHere = .ok (token.seenFrom start) behind ∧ Aligned start after behind := by
  unfold Reader.readHere at took ⊢
  rw [aligned.rest]
  split at took
  · cases took
    exact ⟨outer, by rw [aligned.token_eq], aligned⟩
  · split at took
    · contradiction
    · rename_i found _
      cases took
      rw [aligned.token_eq]
      exact ⟨_, rfl, aligned.pass found.text found.rest⟩

theorem readHere_error (aligned : Aligned start inner outer) (failed : inner.readHere = .error fault after) :
    ∃ behind, outer.readHere = .error (fault.seenFrom start) behind := by
  unfold Reader.readHere at failed ⊢
  rw [aligned.rest]
  split at failed
  · contradiction
  · split at failed
    · cases failed
      exact ⟨outer, by simp [Fault.seenFrom, aligned.place]⟩
    · contradiction

end Aligned

theorem aligned_ofSource (source : String) (start : Position) :
    Aligned start (ofSource (String.ofList (source.toList.drop start.index)) {}) (ofSource source start) where
  rest := by simp [ofSource]
  position := ⟨[], rfl, rfl⟩

end Reader

namespace Scan

def seenFrom (start : Position) (scan : Scan) : Scan where
  tokens := scan.tokens.map (Token.seenFrom start)
  ending := (scan.ending.map (Token.seenFrom start)).mapError (Fault.seenFrom start)

theorem ofReader_of_aligned {start : Position} {inner outer : Reader} (aligned : Reader.Aligned start inner outer) :
    ofReader outer = (ofReader inner).seenFrom start := by
  induction inner using Reader.induction generalizing outer with
  | stuck inner fault after failed =>
    obtain ⟨behind, failed'⟩ := aligned.skipBlanks.readHere_error failed
    rw [ofReader_of_error failed, ofReader_of_error failed']
    rfl
  | last inner token after took done =>
    obtain ⟨behind, took', -⟩ := aligned.skipBlanks.readHere took
    rw [ofReader_of_end took done, ofReader_of_end took' done]
    rfl
  | more inner token after took going ih =>
    obtain ⟨behind, took', aligned'⟩ := aligned.skipBlanks.readHere took
    rw [ofReader_of_token took going, ofReader_of_token took' going, ih aligned']
    rfl

end Scan

/-- What a cursor comes upon that is started in a source. It may fail to find even its first token. -/
def Scan.byMoves (source : String) (start : Position := {}) : Scan :=
  match Cursor.ofSource source start with
  | .error fault => ⟨[], .error fault⟩
  | .ok cursor => cursor.exhaust

theorem Scan.byMoves_eq (source : String) (start : Position) :
    byMoves source start = ofReader (.ofSource source start) := by
  unfold byMoves
  split
  · rename_i failed
    exact (Cursor.scan_of_ofReader_error failed).symm
  · rename_i cursor begun
    rw [cursor.exhaust_eq]
    exact Cursor.ahead_ofReader begun

/-- To start anywhere in a source is to start at the beginning of the text behind, with each place moved to where that
text begins. The tokens are the same, and so is the end or the stray character that stands in its way. -/
theorem byMoves_drop (source : String) (start : Position) :
    Scan.byMoves source start = (Scan.byMoves (String.ofList (source.toList.drop start.index))).seenFrom start := by
  rw [Scan.byMoves_eq, Scan.byMoves_eq]
  exact Scan.ofReader_of_aligned (Reader.aligned_ofSource source start)

/-- The start lies inside a token, on a line that is said to begin behind it. -/
example : (Scan.byMoves "\x7bAb\n [2] :k ~" ⟨2, 7, 5⟩).tokens =
    [⟨.atom, 7, -3, "b\n [2]"⟩, ⟨.key, 8, 5, ":k"⟩] := by decide +kernel

end NodeDump
