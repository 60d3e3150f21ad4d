import NodeDump.Proofs.Scan.Ahead

/-!
The scan of a source and the stream of its tokens, which has the end of the input behind them unless a stray
character stands in the way. A cursor stands on the first token of the stream it has ahead.
-/

namespace NodeDump

namespace Scan

def ofSource (source : String) : Scan := ofReader (.ofSource source {})

/-- The tokens, and behind them the end of the input if nothing stands in its way. -/
def stream (scan : Scan) : List Token :=
  match scan.ending with
  | .ok last => scan.tokens ++ [last]
  | .error _ => scan.tokens

theorem tokens_prefix_stream (scan : Scan) : scan.tokens <+: scan.stream := by
  unfold stream
  split
  · exact List.prefix_append _ _
  · exact List.prefix_rfl

theorem stream_append {scan rest : Scan} {before : List Token} (tokens : scan.tokens = before ++ rest.tokens)
    (ending : scan.ending = rest.ending) : scan.stream = before ++ rest.stream := by
  unfold stream
  rw [ending, tokens]
  cases rest.ending <;> simp

theorem word_of_ending {reader : Reader} {token : Token} (ended : (ofReader reader).ending = .ok token) :
    token.word = (.endOfInput, "") := by
  induction reader using Reader.induction with
  | stuck reader fault after took => simp [ofReader_of_error took] at ended
  | last reader final after took closed =>
    obtain rfl : final = token := by simpa [ofReader_of_end took closed] using ended
    exact Reader.end_of_read took closed
  | more reader first after took going ih =>
    rw [ofReader_of_token took going] at ended
    exact ih ended

theorem stray_of_ending {reader : Reader} {fault : Fault} (stuck : (ofReader reader).ending = .error fault) :
    ∃ c line column, fault = .strayCharacter c line column := by
  induction reader using Reader.induction with
  | stuck reader found after took =>
    obtain rfl : found = fault := by simpa [ofReader_of_error took] using stuck
    exact Reader.stray_of_read took
  | last reader final after took done => simp [ofReader_of_end took done] at stuck
  | more reader first after took going ih =>
    rw [ofReader_of_token took going] at stuck
    exact ih stuck

theorem tokenise_of_ending {source : String} {last : Token} (ended : (ofSource source).ending = .ok last) :
    tokenise source = .ok (ofSource source).tokens := by
  change (ofSource source).ending.map _ = _
  rw [ended]
  rfl

theorem ending_of_tokenise {source : String} {tokens : List Token} (scanned : tokenise source = .ok tokens) :
    (ofSource source).tokens = tokens ∧ ∃ last, (ofSource source).ending = .ok last := by
  change (ofSource source).ending.map _ = _ at scanned
  cases ended : (ofSource source).ending with
  | error fault =>
    rw [ended] at scanned
    contradiction
  | ok last =>
    rw [ended] at scanned
    cases scanned
    exact ⟨rfl, last, rfl⟩

theorem tokenise_of_stuck {source : String} {fault : Fault}
    (stuck : (ofSource source).ending = .error fault) : tokenise source = .error fault := by
  change (ofSource source).ending.map _ = _
  rw [stuck]
  rfl

theorem tokenise_words_iff {source : String} {words : List Word} :
    (∃ tokens, tokenise source = .ok tokens ∧ tokens.map Token.word = words) ↔
      words = (ofSource source).words ∧ ∃ last, (ofSource source).ending = .ok last := by
  constructor
  · rintro ⟨tokens, scanned, rfl⟩
    obtain ⟨rfl, ended⟩ := ending_of_tokenise scanned
    exact ⟨rfl, ended⟩
  · rintro ⟨rfl, last, ended⟩
    exact ⟨_, tokenise_of_ending ended, rfl⟩

theorem tokenise_eq_error_iff {source : String} {fault : Fault} :
    tokenise source = .error fault ↔ (ofSource source).ending = .error fault := by
  refine ⟨fun failed => ?_, tokenise_of_stuck⟩
  cases ended : (ofSource source).ending with
  | ok last =>
    rw [tokenise_of_ending ended] at failed
    contradiction
  | error other =>
    rw [tokenise_of_stuck ended] at failed
    cases failed
    rfl

end Scan

theorem Cursor.stream_ahead (cursor : Cursor) :
    ∃ later, cursor.ahead.stream = cursor.current :: later := by
  cases last : cursor.current.isEnd with
  | true => exact ⟨[], by simp [ahead_of_end last, Scan.stream]⟩
  | false =>
    obtain ⟨later, same⟩ := cursor.ahead.tokens_prefix_stream
    exact ⟨(Scan.ofReader cursor.toReader).tokens ++ later, by rw [← same]; simp [ahead, last]⟩

theorem Cursor.tokens_ahead {cursor : Cursor} (more : cursor.current.isEnd = false) :
    ∃ later, cursor.ahead.tokens = cursor.current :: later :=
  ⟨(Scan.ofReader cursor.toReader).tokens, by simp [ahead, more]⟩

theorem Cursor.stream_of_advance {cursor after : Cursor} {token : Token}
    (moved : cursor.advance = .ok token after) (more : cursor.current.isEnd = false) :
    cursor.ahead.stream = cursor.current :: after.ahead.stream := by
  have ahead := ahead_of_advance moved more
  have next : cursor.ahead.stream = [cursor.current] ++ after.ahead.stream :=
    Scan.stream_append (by rw [ahead]; rfl) (by rw [ahead])
  rw [next, List.singleton_append]

theorem Cursor.stream_of_more {cursor : Cursor} (more : cursor.current.isEnd = false) :
    cursor.ahead.stream = cursor.current :: (Scan.ofReader cursor.toReader).stream := by
  have ahead : cursor.ahead.stream = [cursor.current] ++ (Scan.ofReader cursor.toReader).stream :=
    Scan.stream_append (by simp [Cursor.ahead, more]) (by simp [Cursor.ahead, more])
  rw [ahead, List.singleton_append]

theorem Cursor.seen_of_advance {cursor after : Cursor} {token : Token} {later : List Token}
    (moved : cursor.advance = .ok token after) (stream : cursor.ahead.stream = cursor.current :: later) :
    later ≠ [] ∨ ∃ last, cursor.ahead.ending = .ok last := by
  cases last : cursor.current.isEnd with
  | true => exact Or.inr ⟨cursor.current, by rw [ahead_of_end last]⟩
  | false =>
    have next := stream_of_advance moved last
    obtain ⟨others, more⟩ := after.stream_ahead
    rw [stream, more, List.cons.injEq] at next
    exact Or.inl (by simp [next.2])

end NodeDump
