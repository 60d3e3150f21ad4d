import NodeDump.Proofs.Printer.Progress
import NodeDump.Proofs.Printer.Value

/-!
Sources that are laid out without a fault. These are just the sources whose tokens are the words of a dump that is
not nested too deep, there is no more than one such dump, and the layout is its rendering. So a layout can be laid
out again with any width.
-/

namespace NodeDump

theorem within_some {bound levels : Nat} : Within (some bound) levels ↔ levels ≤ bound := by
  simp [Within]

theorem ne_empty_of_words {reader : Reader} {dump : Dump} (words : (Scan.ofReader reader).words = dump.words) :
    ∀ word ∈ dump.words, word.2 ≠ "" := by
  intro word member
  rw [← words] at member
  have solid := (Scan.lexical_of_mem_words word member).ne_nil
  intro empty
  simp [empty] at solid

theorem Cursor.exists_ofSource {source : String} {last : Token} (ended : (Scan.ofSource source).ending = .ok last) :
    ∃ cursor, Cursor.ofSource source = .ok cursor ∧ cursor.Coming (Scan.ofSource source).words ⟨[], .ok last⟩ := by
  cases begun : Cursor.ofSource source with
  | error fault =>
    have stuck := Cursor.scan_of_ofReader_error begun
    rw [Scan.ofSource, stuck] at ended
    contradiction
  | ok cursor =>
    refine ⟨cursor, rfl, (Scan.ofSource source).tokens, rfl, ?_⟩
    rw [Cursor.ahead_ofReader begun, ← ended, List.append_nil]
    rfl

theorem format_of_dump {source : String} {dump : Dump} {last : Token} {limit : Option Nat}
    (words : (Scan.ofSource source).words = dump.words) (ended : (Scan.ofSource source).ending = .ok last)
    (room : Within limit dump.height) (width : Int) :
    format source width limit = ⟨dump.render (Page.newLine width) 0, none⟩ := by
  obtain ⟨cursor, begun, coming⟩ := Cursor.exists_ofSource ended
  rw [words, ← List.append_nil dump.words] at coming
  have ready : Scan.Ready ⟨[], .ok last⟩ := Or.inr ⟨last, rfl⟩
  have received : receive? [] = some [] := rfl
  obtain ⟨after, ⟨others, none, behind⟩, printed⟩ := Printer.finish_dump limit dump { width } ready received
    (by simpa using room) (ne_empty_of_words words) coming
  have empty : after.current.isEnd = true := by
    by_contra more
    obtain ⟨later, same⟩ := Cursor.tokens_ahead (by simpa using more)
    obtain rfl : others = [] := by simpa using none
    simp [behind] at same
  simp only [format, begun, Rendering.ofCursor, printed]
  simp [Printer.resume, Rendering.ofOutcome, Rendering.ofPrinted, empty, Page.space, Page.write]

/-- What is laid out without a fault is a dump, and so is its layout. -/
theorem dump_of_format {source : String} {width : Int} {limit : Option Nat}
    (accepted : (format source width limit).fault? = none) :
    ∃ dump : Dump, Within limit dump.height ∧ ∀ text ∈ [source, (format source width limit).text],
      (Scan.ofSource text).words = dump.words ∧ ∃ last, (Scan.ofSource text).ending = .ok last := by
  obtain ⟨done, ⟨others, scanned, again⟩, halts⟩ := stands_format source width limit
  rw [accepted] at halts
  cases halts with
  | @whole dump last same room tokens ending =>
    refine ⟨dump, room, ?_⟩
    intro text among
    rcases List.mem_pair.1 among with rfl | rfl
    · exact ⟨by rw [Scan.words, tokens, same], last, ending⟩
    · obtain ⟨rfl, ended⟩ := Scan.ending_of_tokenise scanned
      exact ⟨by rw [Scan.words, again, same], ended⟩

theorem fault?_eq_none_iff {source : String} {width : Int} {limit : Nat} :
    (format source width (some limit)).fault? = none ↔
      ∃ tokens, ∃ dump : Dump, tokenise source = .ok tokens ∧ tokens.map Token.word = dump.words ∧
        dump.height ≤ limit := by
  constructor
  · intro accepted
    obtain ⟨dump, room, same⟩ := dump_of_format accepted
    obtain ⟨words, last, ended⟩ := same source (by simp)
    exact ⟨_, dump, Scan.tokenise_of_ending ended, words, within_some.1 room⟩
  · rintro ⟨tokens, dump, scanned, words, room⟩
    obtain ⟨rfl, last, ended⟩ := Scan.ending_of_tokenise scanned
    rw [format_of_dump words ended (within_some.2 room)]

/-- Just the dumps that are not nested too deep are laid out without a fault. A source has only one tree,
and no dump is the beginning of another one. -/
theorem format_accepts_iff (limit : Nat) :
    (∀ source width, (format source width (some limit)).fault? = none ↔
      ∃ tokens, ∃ dump : Dump, tokenise source = .ok tokens ∧ tokens.map Token.word = dump.words ∧
        dump.height ≤ limit) ∧
    (∀ first second : Dump, first.words = second.words ↔ first = second) ∧
    (∀ first second : Dump, first.words <+: second.words ↔ first = second) := by
  refine ⟨fun source width => fault?_eq_none_iff, fun first second => ⟨fun same => ?_, ?_⟩,
    fun first second => ⟨?_, ?_⟩⟩
  · have equal : first.words ++ [] = second.words ++ [] := by rw [same]
    exact (Dump.words_append_inj first second equal).1
  · rintro rfl
    rfl
  · rintro ⟨rest, same⟩
    have equal : first.words ++ rest = second.words ++ [] := by simpa using same
    exact (Dump.words_append_inj first second equal).1
  · rintro rfl
    exact List.prefix_rfl

/-- A layout has the words of its source, and nothing but these and the new width counts. -/
theorem format_format (source : String) (first second : Int) (limit : Option Nat)
    (accepted : (format source first limit).fault? = none) :
    format (format source first limit).text second limit = format source second limit ∧
      (format source second limit).fault? = none := by
  obtain ⟨dump, room, same⟩ := dump_of_format accepted
  obtain ⟨words, last, ended⟩ := same source (by simp)
  obtain ⟨again, final, closed⟩ := same (format source first limit).text (by simp)
  rw [format_of_dump again closed room, format_of_dump words ended room]
  exact ⟨rfl, rfl⟩

/-- An attribute without a value and an array that shares its line are set in anew. -/
theorem format_format_node : (format "\x7bA :a (o 1 2) :b\x7d" 4).fault? = none ∧
    format (format "\x7bA :a (o 1 2) :b\x7d" 4).text (-1) = format "\x7bA :a (o 1 2) :b\x7d" (-1) := by
  have accepted : (format "\x7bA :a (o 1 2) :b\x7d" 4).fault? = none := by decide +kernel
  exact ⟨accepted, (format_format _ 4 (-1) _ accepted).1⟩

end NodeDump
