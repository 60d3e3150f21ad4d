import NodeDump.Proofs.Format.Dumps
import NodeDump.Proofs.Scan.Joined
import NodeDump.Proofs.Scan.Moves
import NodeDump.Proofs.Session.Counted
import NodeDump.Proofs.Session.Value

/-!
Dumps one after the other in one source. A session prints them one by one, each as it is laid out alone, and is left
in front of the next one as if it had been started there.
-/

namespace NodeDump
open Lexeme

def series (pieces : List (String × List Char)) : List Char :=
  pieces.flatMap fun (text, gap) => text.toList ++ gap

@[simp] theorem series_nil : series [] = [] := rfl

theorem series_cons (piece : String × List Char) (later : List (String × List Char)) :
    series (piece :: later) = piece.1.toList ++ (piece.2 ++ series later) := by
  simp [series]

def loneAtom? (text : String) : Option String :=
  match tokenise text with
  | .ok [token] => if token.kind = .atom then some token.text else none
  | _ => none

/-- Both texts are single atoms, and the first one would go on with the list that opens the second. -/
def Coalesces (first second : String) : Prop :=
  (loneAtom? first).isSome ∧ ∃ atom ∈ loneAtom? second, atom.toList.head? = some '['

instance (first second : String) : Decidable (Coalesces first second) := inferInstanceAs (Decidable (_ ∧ _))

structure Serial (width : Int) (limit : Option Nat) (pieces : List (String × List Char)) : Prop where
  accepted : ∀ piece ∈ pieces, (format piece.1 width limit).fault? = none
  fit : (pieces.map Prod.fst).IsChain fun first second => ¬Coalesces first second
  blank : ∀ piece ∈ pieces, Run Char.isWhitespace piece.2
  between : ∀ piece ∈ pieces.dropLast, piece.2 ≠ []

theorem Serial.tail {width : Int} {limit : Option Nat} {piece : String × List Char}
    {pieces : List (String × List Char)} (serial : Serial width limit (piece :: pieces)) :
    Serial width limit pieces where
  accepted other member := serial.accepted other (List.mem_cons_of_mem piece member)
  fit := serial.fit.tail
  blank other member := serial.blank other (List.mem_cons_of_mem piece member)
  between other member := by
    cases pieces with
    | nil => contradiction
    | cons next later => exact serial.between other (List.mem_cons_of_mem piece member)

structure Divided (limit : Option Nat) (text : String) (dump : Dump) (items : List (List Char × Word))
    (last : List Char) : Prop where
  room : Within limit dump.height
  whole : text.toList = spell items last
  munched : Munched last items
  blank : Run Char.isWhitespace last
  words : items.map Prod.snd = dump.words
  scanned : ∃ tokens, tokenise text = .ok tokens ∧ tokens.map Token.word = dump.words
  layout : ∀ width, format text width limit = ⟨dump.render (Page.newLine width) 0, none⟩

theorem Reader.ofSource_after {source : String} {before rest : List Char} (whole : source.toList = before ++ rest) :
    ofSource source (.after {} before) = ⟨rest, .after {} before⟩ := by
  simp [ofSource, whole]

namespace Divided

variable {limit : Option Nat} {text other : String} {dump dump' : Dump} {items items' : List (List Char × Word)}
  {last last' : List Char}

theorem of_accepted {width : Int} (accepted : (format text width limit).fault? = none) :
    ∃ dump items last, Divided limit text dump items last := by
  obtain ⟨dump, room, same⟩ := dump_of_format accepted
  obtain ⟨words, token, ended⟩ := same text (by simp)
  obtain ⟨items, last, division, scanned, leaves⟩ := (Reader.ofSource text {}).division
  exact ⟨dump, items, last, room, division.whole, division.munched, leaves.blank_iff.1 ⟨token, ended⟩,
    scanned.symm.trans words, ⟨_, Scan.tokenise_of_ending ended, words⟩,
    fun width => format_of_dump words ended room width⟩

theorem loneAtom?_of_words (divided : Divided limit text dump items last) {word : Word} (alone : dump.words = [word])
    (atom : word.1 = .atom) : loneAtom? text = some word.2 := by
  obtain ⟨tokens, scanned, words⟩ := divided.scanned
  obtain ⟨token, rfl, rfl⟩ := List.map_eq_singleton_iff.1 (words.trans alone)
  rw [loneAtom?, scanned]
  exact if_pos atom

theorem apart (divided : Divided limit text dump items last) (next : Divided limit other dump' items' last')
    (fit : ¬Coalesces text other) {word word' : Word} (final : dump.words.getLast? = some word)
    (first : dump'.words.head? = some word') : Apart word word' := by
  intro atom atom' bracket
  have one := divided.loneAtom?_of_words (Dump.words_of_last_atom final atom) atom
  have two := next.loneAtom?_of_words (Dump.words_of_first_atom first atom') atom'
  exact fit ⟨by rw [one]; rfl, word'.2, two, bracket⟩

theorem ends_next (divided : Divided limit text dump items last) (next : Divided limit other dump' items' last')
    (fit : ¬Coalesces text other) {gap : List Char} (blank : Run Char.isWhitespace gap) (some_blank : gap ≠ [])
    (rest : List Char) :
    ∀ item, items.getLast? = some item →
      Ends item.2.1 item.2.2.toList (last ++ gap ++ (other.toList ++ rest)) := by
  intro item final
  obtain ⟨first, later, words, -⟩ := dump'.words_head
  obtain ⟨⟨front, word⟩, behind, rfl, rfl, -⟩ := List.map_eq_cons_iff.1 (next.words.trans words)
  have lexical := lexical_of_munched next.munched _ List.mem_cons_self
  have gaps : Run Char.isWhitespace (last ++ gap ++ front) := (divided.blank.append blank).append next.munched.1
  have final_word : dump.words.getLast? = some item.2 := by
    rw [← divided.words, List.getLast?_map, final]
    rfl
  have first_word : dump'.words.head? = some word := by rw [words]; rfl
  have separated : Separated item (last ++ gap ++ front, word) :=
    ⟨fun none => absurd none (by simp [some_blank]), divided.apart next fit final_word first_word⟩
  have ends := separated.ends gaps lexical (spell behind last' ++ rest)
  rw [next.whole]
  simpa [spell, List.append_assoc] using ends

theorem munched_before (divided : Divided limit text dump items last) {rest : List Char}
    (ends : ∀ item, items.getLast? = some item → Ends item.2.1 item.2.2.toList (last ++ rest)) :
    Munched (last ++ rest) items := by
  obtain ⟨tokens, scanned, words⟩ := divided.scanned
  obtain ⟨rfl, -⟩ := Scan.ending_of_tokenise scanned
  have apart : (items.map Prod.snd).IsChain Apart := by
    rw [divided.words, ← words]
    exact Scan.isChain_words _
  exact divided.munched.change_last apart ends

/-- A dump in the middle of a source is printed from its first word on, on any page, and the cursor then is where
another one would be started. -/
theorem finish (divided : Divided limit text dump items last) {source : String} {before gap rest : List Char}
    {after : Cursor} {token : Token} (whole : source.toList = before ++ (text.toList ++ (gap ++ rest)))
    (blank : Run Char.isWhitespace gap)
    (ends : ∀ item, items.getLast? = some item → Ends item.2.1 item.2.2.toList (last ++ (gap ++ rest)))
    (next : Cursor.ofSource source (.after {} (before ++ text.toList ++ gap)) = .ok after)
    (ended : after.ahead.ending = .ok token) :
    ∃ cursor, Cursor.ofSource source (.after {} before) = .ok cursor ∧ cursor.ahead.ending = .ok token ∧
      dump.words.head? = some cursor.current.word ∧
      ∀ page bound, Within bound dump.height → (Printer.mk cursor page []).finish bound =
        .ok () ⟨after, page.write (dump.render (Page.newLine page.width) page.depth), []⟩ := by
  have gaps : Run Char.isWhitespace (last ++ gap) := divided.blank.append blank
  have here : text.toList = spell items [] ++ last := by rw [divided.whole, ← spell_last_append, List.nil_append]
  have there : source.toList = (before ++ text.toList ++ gap) ++ rest := by simpa using whole
  have start : (Reader.ofSource source (.after {} before)).rest = spell items (last ++ (gap ++ rest)) := by
    rw [Reader.ofSource_after whole, spell_last_append, ← divided.whole]
  have behind :
      Cursor.ofReader ⟨last ++ (gap ++ rest), .after (.after {} before) (spell items [])⟩ = .ok after := by
    rw [Cursor.ofSource, Reader.ofSource_after there] at next
    rw [← List.append_assoc, Cursor.ofReader_of_gap gaps, ← next, here]
    simp [Position.after_append]
  obtain ⟨cursor, begun, moves, coming⟩ := Cursor.moves_of_munched (divided.munched_before ends) start behind
  rw [divided.words] at coming
  have ready : after.ahead.Ready := Or.inr ⟨token, ended⟩
  have ending : cursor.ahead.ending = .ok token := by
    obtain ⟨tokens, -, ahead⟩ := coming
    rw [ahead]
    exact ended
  refine ⟨cursor, begun, ending, ?_, ?_⟩
  · obtain ⟨word, later, words, -⟩ := dump.words_head
    rw [words] at coming ⊢
    rw [(coming.advance ready).1]
    rfl
  · intro page bound room
    obtain ⟨second, same, printed⟩ := Printer.finish_value (.of_source begun) coming ready page room
    have goes := Printer.moves_finish bound ⟨cursor, page, []⟩
    rw [printed] at goes
    -- The way of the printer and the way along the words lead to the same place.
    have arrived : second = after := Cursor.eq_of_moves goes moves ending same
    rw [printed, arrived]

end Divided

theorem Serial.ends {width : Int} {limit : Option Nat} {text : String} {gap : List Char}
    {later : List (String × List Char)} (serial : Serial width limit ((text, gap) :: later)) {dump : Dump}
    {items : List (List Char × Word)} {last : List Char} (divided : Divided limit text dump items last) :
    ∀ item, items.getLast? = some item → Ends item.2.1 item.2.2.toList (last ++ (gap ++ series later)) := by
  have blank : Run Char.isWhitespace gap := serial.blank (text, gap) List.mem_cons_self
  cases later with
  | nil =>
    intro item _
    rw [series_nil, List.append_nil]
    exact ends_of_blank item.2 (divided.blank.append blank)
  | cons next later =>
    obtain ⟨dump', items', last', divided'⟩ := Divided.of_accepted
      (serial.accepted next (List.mem_cons_of_mem _ List.mem_cons_self))
    have fit : ¬Coalesces text next.1 := (List.isChain_cons_cons.1 serial.fit).1
    have some_blank : gap ≠ [] := serial.between (text, gap) List.mem_cons_self
    have ends := divided.ends_next divided' fit blank some_blank (next.2 ++ series later)
    rwa [List.append_assoc, ← series_cons] at ends

namespace Session

/-- The texts that are left of the source are printed one after the other, `before` being what stands in front of
them. Each starts where a fresh cursor would start, with its own first word, and is written as it is laid out alone,
whether the nesting is limited or not. In the end the source is at its end, and the page at the depth of a new one. -/
inductive Serves (source : String) (limit : Option Nat) :
    List Char → List (String × List Char) → Session → Prop
  | done {before : List Char} {session : Session}
      (stands : Cursor.ofSource source (.after {} before) = .ok session.cursor)
      (ended : session.cursor.current.isEnd = true) (closed : session.page.depth = 0) :
      Serves source limit before [] session
  | more {before gap : List Char} {text : String} {later : List (String × List Char)} {session after : Session}
      (stands : Cursor.ofSource source (.after {} before) = .ok session.cursor)
      (first : ∃ token others, tokenise text = .ok (token :: others) ∧ session.cursor.current.word = token.word)
      (page : after.page = session.page.write (format text session.page.width limit).text)
      (printed : session.printValue = .ok none after)
      (bounded : (Printer.mk session.cursor session.page []).finish limit = .ok () ⟨after.cursor, after.page, []⟩)
      (next : Serves source limit (before ++ text.toList ++ gap) later after) :
      Serves source limit before ((text, gap) :: later) session

variable {source : String} {width : Int} {limit : Option Nat}

theorem serves_of_serial {pieces : List (String × List Char)} (serial : Serial width limit pieces)
    {before : List Char} (whole : source.toList = before ++ series pieces) :
    ∃ cursor token, Cursor.ofSource source (.after {} before) = .ok cursor ∧ cursor.ahead.ending = .ok token ∧
      ∀ text, Serves source limit before pieces ⟨cursor, ⟨text, 0, width⟩⟩ := by
  induction pieces generalizing before with
  | nil =>
    let place : Position := .after {} before
    let last : Cursor := ⟨⟨[], place⟩, ⟨.endOfInput, place.line, place.column, ""⟩⟩
    have stands : Cursor.ofSource source place = .ok last := by
      rw [Cursor.ofSource, Reader.ofSource_after whole]
      rfl
    exact ⟨last, last.current, stands, by rw [Cursor.ahead_of_end rfl], fun text => .done stands rfl rfl⟩
  | cons piece later ih =>
    obtain ⟨text, gap⟩ := piece
    rw [series_cons] at whole
    have behind : source.toList = (before ++ text.toList ++ gap) ++ series later := by simpa using whole
    obtain ⟨after, token, next, ended, serves⟩ := ih serial.tail behind
    obtain ⟨dump, items, last, divided⟩ := Divided.of_accepted (serial.accepted _ List.mem_cons_self)
    have blank := serial.blank _ List.mem_cons_self
    obtain ⟨cursor, begun, ending, first, printed⟩ := divided.finish whole blank (serial.ends divided) next ended
    refine ⟨cursor, token, begun, ending, fun written => ?_⟩
    let page : Page := ⟨written, 0, width⟩
    have free : Within none dump.height := fun bound known => by contradiction
    have text_of : (format text width limit).text = dump.render (Page.newLine width) 0 := by rw [divided.layout]
    refine .more begun ?_ ?_ ?_ ?_ (serves (written ++ (format text width limit).text))
    · obtain ⟨tokens, scanned, words⟩ := divided.scanned
      rw [← words, List.head?_map, Option.map_eq_some_iff] at first
      obtain ⟨front, is_first, same⟩ := first
      obtain ⟨others, rfl⟩ := List.head?_eq_some_iff.1 is_first
      exact ⟨front, others, scanned, same.symm⟩
    · rfl
    · rw [printValue, Printer.finishOn, printed page none free, text_of]
      rfl
    · rw [printed page limit divided.room, text_of]
      rfl

end Session

/-- A session over dumps that stand one after the other prints them one by one, each as it is laid out alone, and is
left in front of the next one. -/
theorem serves_series {pieces : List (String × List Char)} {width : Int} {limit : Option Nat}
    (serial : Serial width limit pieces) (text : String) :
    ∃ session, Session.start (String.ofList (series pieces)) {} ⟨text, 0, width⟩ = .ok session ∧
      session.Serves (String.ofList (series pieces)) limit [] pieces := by
  have whole : (String.ofList (series pieces)).toList = [] ++ series pieces := by simp
  obtain ⟨cursor, token, stands, -, serves⟩ := Session.serves_of_serial serial whole
  have begun : Cursor.ofSource (String.ofList (series pieces)) {} = .ok cursor := stands
  exact ⟨⟨cursor, text, 0, width⟩, Session.start_eq (Cursor.ofStart_default_iff.2 begun) _, serves text⟩

/-- An atom in front of a node, and an atom that opens with a list behind it. -/
theorem serves_series_mixed :
    (format "1" 4).fault? = none ∧ (format "\x7bA :k (2)\x7d" 4).fault? = none ∧ (format " [3]" 4).fault? = none ∧
      Coalesces "1" " [3]" ∧
      ∃ session, Session.start "1\n\x7bA :k (2)\x7d\t  [3]" {} ⟨"x", 0, 4⟩ = .ok session ∧
        session.Serves "1\n\x7bA :k (2)\x7d\t  [3]" (some nestingLimit) []
          [("1", ['\n']), ("\x7bA :k (2)\x7d", ['\t', ' ']), (" [3]", [])] := by
  have serial : Serial 4 (some nestingLimit) [("1", ['\n']), ("\x7bA :k (2)\x7d", ['\t', ' ']), (" [3]", [])] :=
    ⟨by decide +kernel, by decide +kernel, by simp [Run], by simp⟩
  exact ⟨by decide +kernel, by decide +kernel, by decide +kernel, by decide +kernel, serves_series serial "x"⟩

end NodeDump
