import NodeDump.Proofs.Printer.Value
import NodeDump.Proofs.Scan.Reached
import NodeDump.Proofs.Scan.Stream
import NodeDump.Session

/-!
Printing a value in the middle of a session. The value is printed while it is read just as it would be rendered from
its tree, on any page and at any depth, and the session goes on behind it.
-/

namespace NodeDump

namespace Cursor

variable {cursor : Cursor} {words : List Word} {rest : Scan}

theorem Coming.ne_empty (coming : cursor.Coming words rest) (reached : cursor.Reached) :
    ∀ word ∈ words, word.2 ≠ "" := by
  obtain ⟨tokens, rfl, ahead⟩ := coming
  intro word member
  obtain ⟨token, among, rfl⟩ := List.mem_map.1 member
  have lexical := reached.lexical_ahead token (by simp [ahead, among])
  intro empty
  have solid := lexical.ne_nil
  simp [empty] at solid

theorem Coming.ahead_eq (coming : cursor.Coming [] rest) : cursor.ahead = rest := by
  obtain ⟨tokens, none, ahead⟩ := coming
  obtain rfl : tokens = [] := by simpa using none
  exact ahead

theorem exists_coming {source : String} {tokens : List Token} {words later : List Word}
    (scanned : tokenise source = .ok tokens) (same : tokens.map Token.word = words ++ later) :
    ∃ cursor rest, Reached cursor ∧ cursor.Coming words rest ∧ rest.Ready ∧ rest.words = later := by
  obtain ⟨rfl, last, ending⟩ := Scan.ending_of_tokenise scanned
  obtain ⟨coming, behind, cut, words, words'⟩ := List.map_eq_append_iff.1 same
  cases begun : ofSource source with
  | error fault =>
    rw [Scan.ofSource, scan_of_ofReader_error begun] at ending
    contradiction
  | ok cursor =>
    refine ⟨cursor, ⟨behind, .ok last⟩, .of_source begun, ⟨coming, words, ?_⟩, Or.inr ⟨last, rfl⟩, words'⟩
    rw [ahead_ofReader begun, ← cut, ← ending]
    rfl

end Cursor

namespace Printer

theorem finish_value {cursor : Cursor} (reached : cursor.Reached) {dump : Dump} {rest : Scan}
    (coming : cursor.Coming dump.words rest) (ready : rest.Ready) (page : Page) {limit : Option Nat}
    (room : Within limit dump.height) :
    ∃ after : Cursor, after.ahead = rest ∧ finish ⟨cursor, page, []⟩ limit =
      .ok () ⟨after, page.write (dump.render (Page.newLine page.width) page.depth), []⟩ := by
  have received : receive? [] = some [] := rfl
  have alone : cursor.Coming (dump.words ++ []) rest := by rwa [List.append_nil]
  obtain ⟨after, behind, printed⟩ := finish_dump limit dump page ready received (by simpa using room)
    (coming.ne_empty reached) alone
  refine ⟨after, behind.ahead_eq, ?_⟩
  rw [printed]
  rfl

end Printer

/-- A value is printed as it is rendered from its tree, with no limit or within one. Only the text of the
page changes, and the cursor is left in front of what follows the value. -/
theorem printValue_eq_render {cursor : Cursor} (reached : cursor.Reached) {dump : Dump} {rest : Scan}
    (coming : cursor.Coming dump.words rest) (ready : rest.Ready) (page : Page) :
    (∃ after : Cursor, after.ahead = rest ∧ (Session.mk cursor page).printValue = .ok none
      ⟨after, { page with text := page.text ++ dump.render (Page.newLine page.width) page.depth }⟩) ∧
    ∀ limit, Within limit dump.height → ∃ after : Cursor, after.ahead = rest ∧
      (Printer.mk cursor page []).finish limit = .ok () ⟨after,
        { page with text := page.text ++ dump.render (Page.newLine page.width) page.depth }, []⟩ := by
  constructor
  · have free : Within none dump.height := fun bound known => by contradiction
    obtain ⟨after, behind, printed⟩ := Printer.finish_value reached coming ready page free
    refine ⟨after, behind, ?_⟩
    rw [Session.printValue, Printer.finishOn, printed]
    rfl
  · intro limit room
    exact Printer.finish_value reached coming ready page room

/-- A page that has been begun is gone on with, and what follows the node is left alone. -/
theorem printValue_node :
    ∃ cursor rest, cursor.Reached ∧ rest.Ready ∧ rest.words = [(.atom, "2")] ∧
      cursor.Coming [(.nodeStart, "\x7bA"), (.key, ":k"), (.arrayStart, "("), (.atom, "1"), (.arrayEnd, ")"),
        (.key, ":b"), (.nodeEnd, "\x7d")] rest ∧
      ∃ after : Cursor, after.ahead = rest ∧ (Session.mk cursor ⟨"x", 1, 3⟩).printValue =
        .ok none ⟨after, ⟨"x\x7bA\n      :k (\n         1\n      )\n      :b \n   \x7d", 1, 3⟩⟩ := by
  have scanned : (tokenise "\x7bA :k (1) :b\x7d 2").toOption = some [⟨.nodeStart, 1, 0, "\x7bA"⟩,
      ⟨.key, 1, 3, ":k"⟩, ⟨.arrayStart, 1, 6, "("⟩, ⟨.atom, 1, 7, "1"⟩, ⟨.arrayEnd, 1, 8, ")"⟩,
      ⟨.key, 1, 10, ":b"⟩, ⟨.nodeEnd, 1, 12, "\x7d"⟩, ⟨.atom, 1, 14, "2"⟩] := by decide +kernel
  let dump : Dump := .node "\x7bA" (.valued ":k" (.array "" (.cons (.atom "1") .nil)) (.bare ":b" .nil))
  obtain ⟨tokens, whole, words⟩ : ∃ tokens, tokenise "\x7bA :k (1) :b\x7d 2" = .ok tokens ∧
      tokens.map Token.word = dump.words ++ [(.atom, "2")] := by
    cases whole : tokenise "\x7bA :k (1) :b\x7d 2" with
    | error fault => simp [whole, Except.toOption] at scanned
    | ok tokens =>
      rw [whole] at scanned
      refine ⟨tokens, rfl, ?_⟩
      rw [Option.some.inj scanned]
      rfl
  obtain ⟨cursor, rest, reached, coming, ready, behind⟩ := Cursor.exists_coming whole words
  obtain ⟨⟨after, left, printed⟩, -⟩ := printValue_eq_render reached coming ready ⟨"x", 1, 3⟩
  refine ⟨cursor, rest, reached, ready, behind, coming, after, left, ?_⟩
  rw [printed]
  rfl

end NodeDump
