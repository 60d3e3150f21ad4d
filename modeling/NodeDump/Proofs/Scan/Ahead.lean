import NodeDump.Cursor
import NodeDump.Proofs.Scan.Basic

/-!
A cursor is described by the scan it has ahead, its current token included. A move takes the first token
off that scan. It fails exactly if the token is the last one before a stray character, so it fails before
the token can be used.
-/

namespace NodeDump

namespace Cursor

def ahead (cursor : Cursor) : Scan :=
  if cursor.current.isEnd then ⟨[], .ok cursor.current⟩
  else ⟨cursor.current :: (Scan.ofReader cursor.toReader).tokens, (Scan.ofReader cursor.toReader).ending⟩

theorem ahead_of_end {cursor : Cursor} (last : cursor.current.isEnd = true) :
    cursor.ahead = ⟨[], .ok cursor.current⟩ := by
  simp [ahead, last]

theorem ahead_mk {token : Token} {reader after : Reader} (took : reader.read = .ok token after) :
    (Cursor.mk after token).ahead = Scan.ofReader reader := by
  cases last : token.isEnd with
  | true => rw [Scan.ofReader_of_end took last, ahead_of_end last]
  | false => simp [Scan.ofReader_of_token took last, ahead, last]

theorem ahead_ofReader {reader : Reader} {cursor : Cursor} (start : ofReader reader = .ok cursor) :
    cursor.ahead = Scan.ofReader reader := by
  unfold ofReader at start
  split at start
  · rename_i took
    cases start
    exact ahead_mk took
  · contradiction

theorem scan_of_ofReader_error {reader : Reader} {fault : Fault}
    (start : ofReader reader = .error fault) : Scan.ofReader reader = ⟨[], .error fault⟩ := by
  unfold ofReader at start
  split at start
  · contradiction
  · rename_i took
    cases start
    exact Scan.ofReader_of_error took

theorem ahead_of_advance {cursor after : Cursor} {token : Token}
    (moved : cursor.advance = .ok token after) (more : cursor.current.isEnd = false) :
    cursor.ahead = ⟨cursor.current :: after.ahead.tokens, after.ahead.ending⟩ := by
  obtain ⟨-, ⟨last, -⟩ | ⟨-, took⟩⟩ := advance_ok moved
  · rw [more] at last
    contradiction
  · rw [show after.ahead = _ from ahead_mk took]
    simp [ahead, more]

theorem after_of_advance_end {cursor after : Cursor} {token : Token}
    (moved : cursor.advance = .ok token after) (last : cursor.current.isEnd = true) : after = cursor := by
  rw [advance, if_pos last] at moved
  cases moved
  rfl

/-- Only the last token before a stray character hides it. -/
theorem ahead_of_advance_error {cursor after : Cursor} {fault : Fault}
    (failed : cursor.advance = .error fault after) :
    cursor.current.isEnd = false ∧ cursor.ahead = ⟨[cursor.current], .error fault⟩ := by
  obtain ⟨more, -, stuck⟩ := advance_error failed
  exact ⟨more, by simp [ahead, more, Scan.ofReader_of_error stuck]⟩

/-- What a cursor comes upon while it is moved: the tokens it stands on, and then the end of the input or the fault
that a move fails with. -/
def exhaust (cursor : Cursor) : Scan :=
  match _ : cursor.next .any with
  | .error fault _ => ⟨[cursor.current], .error fault⟩
  | .ok token after =>
    if _ : token.isEnd = false then ⟨token :: after.exhaust.tokens, after.exhaust.ending⟩ else ⟨[], .ok token⟩
termination_by cursor.size
decreasing_by all_goals exact size_of_advance ‹_› ‹_›

theorem exhaust_eq (cursor : Cursor) : cursor.exhaust = cursor.ahead := by
  fun_induction exhaust cursor with
  | case1 cursor fault after failed =>
    obtain ⟨-, ahead⟩ := ahead_of_advance_error failed
    rw [ahead]
  | case2 cursor token after moved more ih =>
    obtain rfl := token_of_advance moved
    rw [ih, ahead_of_advance moved more]
  | case3 cursor token after moved last =>
    obtain rfl := token_of_advance moved
    rw [ahead_of_end (by simpa using last)]

theorem advance_of_ahead {cursor : Cursor} {token : Token} {later : List Token}
    {ending : Except Fault Token} (known : cursor.ahead = ⟨token :: later, ending⟩)
    (more : later ≠ [] ∨ ∃ last, ending = .ok last) :
    cursor.current = token ∧ ∃ after, cursor.advance = .ok token after ∧ after.ahead = ⟨later, ending⟩ := by
  have going : cursor.current.isEnd = false := by
    by_contra last
    rw [ahead_of_end (by simpa using last)] at known
    simp at known
  cases moved : cursor.advance with
  | ok first after =>
    have ahead := ahead_of_advance moved going
    rw [known] at ahead
    simp only [Scan.mk.injEq, List.cons.injEq] at ahead
    obtain ⟨⟨rfl, rfl⟩, rfl⟩ := ahead
    exact ⟨rfl, after, by rw [token_of_advance moved], rfl⟩
  | error fault after =>
    have ahead := (ahead_of_advance_error moved).2
    rw [known] at ahead
    simp only [Scan.mk.injEq, List.cons.injEq] at ahead
    rcases more with some_token | ⟨last, ok⟩
    · exact absurd ahead.1.2 some_token
    · rw [ok] at ahead
      simp at ahead

end Cursor

end NodeDump
