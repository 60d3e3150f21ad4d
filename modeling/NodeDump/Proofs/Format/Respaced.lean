import NodeDump.Proofs.Format.Kept
import NodeDump.Proofs.Format.Limit
import NodeDump.Proofs.Scan.Respaced

/-!
The blanks of a source in its layout. A source with other blanks between its tokens has the same layout and the same
fault, which names the same character or the same token in another place.
-/

namespace NodeDump
open Lexeme

def Token.place (token : Token) : String := s!"{token.line}:{token.column}"

def Fault.place : Fault → String
  | .strayCharacter _ line column => s!"{line}:{column}"
  | .mismatch _ token | .unexpected token | .trailing token | .tooDeep token => token.place

/-- What a description has in front of the place and behind it. -/
def Token.wording (token : Token) : String × String :=
  if token.isEnd then ("end of input at ", "")
  else (s!"token '{token.kind.name}' at ", ": " ++ token.text)

def Fault.wording : Fault → String × String
  | .strayCharacter c _ _ => (s!"Unexpected character {Text.quoted c} at ", "")
  | .mismatch expected token =>
    (s!"Expected '{expected.name}', got " ++ token.wording.1, token.wording.2)
  | .unexpected token => ("Unexpected " ++ token.wording.1, token.wording.2)
  | .trailing token => ("Unexpected " ++ token.wording.1, token.wording.2 ++ " after end of value")
  | .tooDeep _ => ("Nesting too deep at ", "")

theorem Token.describe_eq (token : Token) :
    token.describe = token.wording.1 ++ token.place ++ token.wording.2 := by
  by_cases last : token.kind = .endOfInput
  · simp [describe, Class.describe, wording, place, isEnd, last]
  · simp [describe, Class.describe, Class.name, wording, place, isEnd, last, String.append_assoc]

theorem Fault.message_eq (fault : Fault) :
    fault.message = fault.wording.1 ++ fault.place ++ fault.wording.2 := by
  cases fault with
  | strayCharacter c line column =>
    show s!"Unexpected character {Text.quoted c} at {line}:{column}" =
      s!"Unexpected character {Text.quoted c} at " ++ s!"{line}:{column}" ++ ""
    simp only [toString, String.append_assoc, String.append_empty]
  | mismatch expected token =>
    show s!"Expected '{expected.name}', got {token.describe}" =
      s!"Expected '{expected.name}', got " ++ token.wording.1 ++ token.place ++ token.wording.2
    simp only [toString, token.describe_eq, String.append_assoc]
  | unexpected token =>
    show "Unexpected " ++ token.describe = "Unexpected " ++ token.wording.1 ++ token.place ++ token.wording.2
    rw [token.describe_eq, String.append_assoc, String.append_assoc, String.append_assoc]
  | trailing token =>
    show "Unexpected " ++ token.describe ++ " after end of value" =
      "Unexpected " ++ token.wording.1 ++ token.place ++ (token.wording.2 ++ " after end of value")
    simp only [token.describe_eq, String.append_assoc]
  | tooDeep token =>
    show s!"Nesting too deep at {token.line}:{token.column}" = "Nesting too deep at " ++ token.place ++ ""
    simp only [Token.place, toString, String.append_assoc, String.append_empty]

theorem Fault.wording_placeless (fault : Fault) : fault.placeless.wording = fault.wording := by
  cases fault <;> rfl

def Rendering.placeless (rendering : Rendering) : Rendering :=
  { rendering with fault? := rendering.fault?.map Fault.placeless }

theorem Rendering.placeless_ofOutcome {outcome other : Printer.Outcome}
    (same : Printer.SameOutcome outcome other) : (ofOutcome outcome).placeless = (ofOutcome other).placeless := by
  cases same with
  | @ok first second agrees =>
    have words := agrees.word
    have last : first.cursor.current.isEnd = second.cursor.current.isEnd := by
      rw [Token.isEnd, Token.isEnd]
      exact congrArg (· == Kind.endOfInput) (congrArg Prod.fst words)
    have fault := congrArg Fault.trailing (Token.placeless_eq_iff.2 words)
    cases reached : second.cursor.current.isEnd with
    | true => simp [placeless, ofOutcome, ofPrinted, last, reached, agrees.page]
    | false => simpa [placeless, ofOutcome, ofPrinted, last, reached, agrees.page, Fault.placeless] using fault
  | error named page => simp [placeless, ofOutcome, named, page]

theorem format_placeless {source other : String}
    (same : (Scan.ofSource source).placeless = (Scan.ofSource other).placeless) (width : Int)
    (limit : Option Nat) : (format source width limit).placeless = (format other width limit).placeless := by
  have streams := congrArg Scan.stream same
  rw [Scan.stream_placeless, Scan.stream_placeless] at streams
  cases begun : Cursor.ofSource source with
  | error fault =>
    have stuck : Scan.ofSource source = ⟨[], .error fault⟩ := Cursor.scan_of_ofReader_error begun
    cases begun' : Cursor.ofSource other with
    | error fault' =>
      have stuck' : Scan.ofSource other = ⟨[], .error fault'⟩ := Cursor.scan_of_ofReader_error begun'
      have endings := congrArg Scan.ending same
      rw [Scan.placeless_of_error (congrArg Scan.ending stuck),
        Scan.placeless_of_error (congrArg Scan.ending stuck')] at endings
      rw [format_of_stray begun, format_of_stray begun']
      simpa [Rendering.placeless] using endings
    | ok cursor =>
      obtain ⟨later, stream⟩ := cursor.stream_ahead
      rw [Cursor.ahead_ofReader begun', ← Scan.ofSource] at stream
      rw [stuck, stream] at streams
      contradiction
  | ok cursor =>
    have ahead : cursor.ahead = Scan.ofSource source := Cursor.ahead_ofReader begun
    cases begun' : Cursor.ofSource other with
    | error fault =>
      have stuck : Scan.ofSource other = ⟨[], .error fault⟩ := Cursor.scan_of_ofReader_error begun'
      obtain ⟨later, stream⟩ := cursor.stream_ahead
      rw [ahead] at stream
      rw [stuck, stream] at streams
      contradiction
    | ok cursor' =>
      have ahead' : cursor'.ahead = Scan.ofSource other := Cursor.ahead_ofReader begun'
      have agrees : Printer.Agrees ⟨cursor, { width }, []⟩ ⟨cursor', { width }, []⟩ :=
        ⟨by rw [ahead, ahead', same], rfl, rfl⟩
      rw [format_of_cursor begun, format_of_cursor begun']
      exact Rendering.placeless_ofOutcome (agrees.finish limit)

theorem Halts.stream_of_token {limit : Option Nat} {reader : Reader} {done : List Token} {fault : Fault}
    (halts : Halts limit (.ofReader reader) done (some fault)) {token : Token} (named : fault.token? = some token) :
    (Scan.ofReader reader).stream[done.length]? = some token := by
  have of_tokens {first : Token} {later : List Token}
      (tokens : (Scan.ofReader reader).tokens = done ++ first :: later) :
      (Scan.ofReader reader).stream[done.length]? = some first := by
    obtain ⟨more, same⟩ := (Scan.ofReader reader).tokens_prefix_stream
    rw [← same, tokens]
    simp
  cases halts with
  | trailing _ tokens =>
    obtain rfl := Option.some.inj named
    exact of_tokens tokens
  | unexpected _ _ stream =>
    obtain rfl := Option.some.inj named
    simp [stream]
  | tooDeep _ _ _ _ tokens =>
    obtain rfl := Option.some.inj named
    exact of_tokens tokens
  | hidden _ _ _ ending =>
    obtain ⟨c, line, column, rfl⟩ := Scan.stray_of_ending ending
    contradiction
  | stuck _ _ ending =>
    obtain ⟨c, line, column, rfl⟩ := Scan.stray_of_ending ending
    contradiction

/-- The fault of one source in another one. It names the same character, or the token that has the same number,
kind and text, and the messages differ in the place alone. -/
structure Recurs (scan other : Scan) (fault again : Fault) : Prop where
  message : ∃ front behind, fault.message = front ++ fault.place ++ behind ∧
    again.message = front ++ again.place ++ behind
  cause : (∃ c line column line' column',
      fault = .strayCharacter c line column ∧ again = .strayCharacter c line' column') ∨
    ∃ (index : Nat) (token token' : Token), fault.token? = some token ∧ again.token? = some token' ∧
      scan.stream[index]? = some token ∧ other.stream[index]? = some token' ∧ token.word = token'.word

theorem Fault.cause_of_placeless {fault again : Fault} (same : fault.placeless = again.placeless) :
    (∃ c line column line' column',
        fault = .strayCharacter c line column ∧ again = .strayCharacter c line' column') ∨
      ∃ token token', fault.token? = some token ∧ again.token? = some token' ∧ token.word = token'.word := by
  have tokens := congrArg Fault.token? same
  cases fault with
  | strayCharacter c line column =>
    cases again with
    | strayCharacter c' line' column' =>
      obtain rfl : c = c' := (Fault.strayCharacter.inj same).1
      exact Or.inl ⟨c, line, column, line', column', rfl, rfl⟩
    | _ => contradiction
  | mismatch _ token | unexpected token | trailing token | tooDeep token =>
    cases again with
    | strayCharacter => contradiction
    | mismatch _ token' | unexpected token' | trailing token' | tooDeep token' =>
      exact Or.inr ⟨token, token', rfl, rfl, Token.placeless_eq_iff.1 (Option.some.inj tokens)⟩

/-- Sources with the same scan but for the places have the same layout and the same fault but for its place. -/
theorem format_of_placeless {source other : String}
    (same : (Scan.ofSource source).placeless = (Scan.ofSource other).placeless) (width : Int) (limit : Option Nat) :
    (format other width limit).text = (format source width limit).text ∧
      Option.Rel (Recurs (Scan.ofSource source) (Scan.ofSource other))
        (format source width limit).fault? (format other width limit).fault? := by
  have placeless := format_placeless same width limit
  rw [Rendering.placeless, Rendering.placeless, Rendering.mk.injEq] at placeless
  obtain ⟨text, faults⟩ := placeless
  refine ⟨text.symm, ?_⟩
  obtain ⟨done, ⟨printed, scanned, words⟩, halts⟩ := stands_format source width limit
  obtain ⟨done', ⟨printed', scanned', words'⟩, halts'⟩ := stands_format other width limit
  -- The same text holds as many tokens, so both printings have come as far.
  have count : done.length = done'.length := by
    rw [text, scanned'] at scanned
    obtain rfl := Except.ok.inj scanned
    have lengths := congrArg List.length (words.symm.trans words')
    simpa using lengths
  cases found : (format source width limit).fault? with
  | none =>
    rw [found] at faults
    have none_again : (format other width limit).fault? = none := by simpa using faults.symm
    rw [none_again]
    exact .none
  | some fault =>
    rw [found] at faults halts
    obtain ⟨fault', found', named⟩ := Option.map_eq_some_iff.1 faults.symm
    rw [found'] at halts' ⊢
    refine .some ⟨⟨fault.wording.1, fault.wording.2, fault.message_eq, ?_⟩, ?_⟩
    · rw [fault'.message_eq, ← fault'.wording_placeless, named, fault.wording_placeless]
    · rcases Fault.cause_of_placeless named.symm with stray | ⟨token, token', one, two, word⟩
      · exact Or.inl stray
      · refine Or.inr ⟨done.length, token, token', one, two, halts.stream_of_token one, ?_, word⟩
        rw [count]
        exact halts'.stream_of_token two

/-- Other blanks between the tokens, at least one between two of them and in front of what cannot be scanned,
change neither the layout nor the fault but for its place. -/
theorem format_respaced {source other : String} {items others : List (List Char × Word)}
    {gap gap' rest : List Char} (written : Written source items gap rest)
    (tokens : items.map Prod.snd = (Scan.ofSource source).words) (again : Written other others gap' rest)
    (same : others.map Prod.snd = items.map Prod.snd) (parted : Parted others gap' rest) (width : Int)
    (limit : Option Nat) :
    (format other width limit).text = (format source width limit).text ∧
      Option.Rel (Recurs (Scan.ofSource source) (Scan.ofSource other))
        (format source width limit).fault? (format other width limit).fault? := by
  exact format_of_placeless (written.placeless_eq tokens again same parted) width limit

/-- The stray character hides the array in front of it, with or without a blank between them. -/
theorem format_respaced_stray :
    let words : List Word := [(.arrayStart, "(o"), (.atom, "1 [2]"), (.arrayStart, "(")]
    let items := List.zip [[], [' '], []] words
    let others := List.zip [['\n'], ['\t', ' '], ['\r']] words
    Written "(o 1 [2](~" items [] ['~'] ∧ items.map Prod.snd = (Scan.ofSource "(o 1 [2](~").words ∧
      Written "\n(o\t 1 [2]\r( ~" others [' '] ['~'] ∧ others.map Prod.snd = items.map Prod.snd ∧
      Parted others [' '] ['~'] ∧
      (format "\n(o\t 1 [2]\r( ~").text = (format "(o 1 [2](~").text ∧
      Option.Rel (Recurs (Scan.ofSource "(o 1 [2](~") (Scan.ofSource "\n(o\t 1 [2]\r( ~"))
        (format "(o 1 [2](~").fault? (format "\n(o\t 1 [2]\r( ~").fault? := by
  intro words items others
  have written : Written "(o 1 [2](~" items [] ['~'] :=
    ⟨by rfl, by simp [items, words, Run], by simp [Run], stops_cons.2 (by decide)⟩
  have again : Written "\n(o\t 1 [2]\r( ~" others [' '] ['~'] :=
    ⟨by rfl, by simp [others, words, Run], by simp [Run], stops_cons.2 (by decide)⟩
  have tokens : items.map Prod.snd = (Scan.ofSource "(o 1 [2](~").words := by decide +kernel
  have parted : Parted others [' '] ['~'] := ⟨by simp [others, words], by simp⟩
  exact ⟨written, tokens, again, rfl, parted, format_respaced written tokens again rfl parted 2 _⟩

end NodeDump
