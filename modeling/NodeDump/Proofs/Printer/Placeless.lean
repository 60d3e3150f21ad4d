import NodeDump.Proofs.Printer.Limit

/-!
Printing looks at the kinds and texts of the tokens and never at their places. What is printed from two cursors is
the same, the fault included but for its place, if the tokens ahead of them are the same but for their places.
-/

namespace NodeDump

def Token.placeless (token : Token) : Token := { token with line := 0, column := 0 }

theorem Token.placeless_eq_iff {first second : Token} :
    first.placeless = second.placeless ↔ first.word = second.word := by
  simp [placeless, word]

def Fault.placeless : Fault → Fault
  | .strayCharacter c _ _ => .strayCharacter c 0 0
  | .mismatch expected token => .mismatch expected token.placeless
  | .unexpected token => .unexpected token.placeless
  | .trailing token => .trailing token.placeless
  | .tooDeep token => .tooDeep token.placeless

namespace Scan

def placeless (scan : Scan) : Scan where
  tokens := scan.tokens.map Token.placeless
  ending := (scan.ending.map Token.placeless).mapError Fault.placeless

theorem stream_placeless (scan : Scan) : scan.placeless.stream = scan.stream.map Token.placeless := by
  obtain ⟨tokens, ending⟩ := scan
  cases ending with
  | ok last => simp [stream, placeless, Except.map, Except.mapError]
  | error fault => simp [stream, placeless, Except.map, Except.mapError]

theorem placeless_of_ok {scan : Scan} {last : Token} (ended : scan.ending = .ok last) :
    scan.placeless.ending = .ok last.placeless := by
  rw [placeless, ended]
  rfl

theorem placeless_of_error {scan : Scan} {fault : Fault} (stuck : scan.ending = .error fault) :
    scan.placeless.ending = .error fault.placeless := by
  rw [placeless, stuck]
  rfl

theorem placeless_eq_of_words {scan other : Scan} (words : scan.words = other.words)
    (ending : scan.placeless.ending = other.placeless.ending) : scan.placeless = other.placeless := by
  have placed (scan : Scan) : scan.placeless.tokens = scan.words.map fun word => ⟨word.1, 0, 0, word.2⟩ := by
    simp [placeless, Scan.words, Token.placeless, Token.word, Function.comp_def]
  have tokens : scan.placeless.tokens = other.placeless.tokens := by rw [placed, placed, words]
  rw [Scan.mk.injEq]
  exact ⟨tokens, ending⟩

end Scan

namespace Cursor

variable {first second after : Cursor}

theorem word_eq_of_placeless (same : first.ahead.placeless = second.ahead.placeless) :
    first.current.word = second.current.word := by
  obtain ⟨later, stream⟩ := first.stream_ahead
  obtain ⟨others, stream'⟩ := second.stream_ahead
  have streams := congrArg Scan.stream same
  rw [Scan.stream_placeless, Scan.stream_placeless, stream, stream', List.map_cons, List.map_cons] at streams
  exact Token.placeless_eq_iff.1 (List.cons.inj streams).1

theorem advance_of_placeless (same : first.ahead.placeless = second.ahead.placeless) {token : Token}
    (moved : first.advance = .ok token after) :
    ∃ behind, second.advance = .ok second.current behind ∧ after.ahead.placeless = behind.ahead.placeless := by
  have kinds : first.current.isEnd = second.current.isEnd := by
    have words := congrArg Prod.fst (word_eq_of_placeless same)
    simp only [Token.word] at words
    rw [Token.isEnd, words, Token.isEnd]
  cases last : first.current.isEnd with
  | true =>
    obtain rfl := after_of_advance_end moved last
    refine ⟨second, ?_, same⟩
    rw [advance, if_pos (kinds.symm.trans last)]
  | false =>
    have ahead := ahead_of_advance moved last
    cases other : second.advance with
    | ok found behind =>
      obtain rfl := token_of_advance other
      rw [ahead, ahead_of_advance other (kinds.symm.trans last)] at same
      simp only [Scan.placeless, List.map_cons, Scan.mk.injEq, List.cons.injEq] at same ⊢
      exact ⟨behind, rfl, same.1.2, same.2⟩
    | error fault behind =>
      -- The second cursor would have nothing ahead, but the first one has come to stand on a token.
      obtain ⟨later, stream⟩ := after.stream_ahead
      have streams := congrArg Scan.stream same
      rw [Scan.stream_placeless, Scan.stream_placeless, stream_of_advance moved last, stream,
        (ahead_of_advance_error other).2] at streams
      simp [Scan.stream] at streams

theorem advance_error_of_placeless (same : first.ahead.placeless = second.ahead.placeless) {fault : Fault}
    (failed : first.advance = .error fault after) :
    ∃ other behind, second.advance = .error other behind ∧ fault.placeless = other.placeless := by
  cases moved : second.advance with
  | ok token behind =>
    obtain ⟨back, again, -⟩ := advance_of_placeless same.symm moved
    rw [failed] at again
    contradiction
  | error other behind =>
    refine ⟨other, behind, rfl, ?_⟩
    rw [(ahead_of_advance_error failed).2, (ahead_of_advance_error moved).2] at same
    have endings := congrArg Scan.ending same
    simpa [Scan.placeless, Except.map, Except.mapError] using endings

end Cursor

namespace Printer

/-- Two printers that differ in places at most. -/
structure Agrees (first second : Printer) : Prop where
  ahead : first.cursor.ahead.placeless = second.cursor.ahead.placeless
  page : first.page = second.page
  frames : first.frames = second.frames

/-- Two outcomes that differ in places at most. What was open when a fault was met makes no difference. -/
inductive SameOutcome : Outcome → Outcome → Prop
  | ok {first second : Printer} (agrees : first.Agrees second) : SameOutcome (.ok () first) (.ok () second)
  | error {fault other : Fault} {first second : Printer} (named : fault.placeless = other.placeless)
      (page : first.page = second.page) : SameOutcome (.error fault first) (.error other second)

namespace Agrees

variable {first second : Printer}

theorem word (agrees : first.Agrees second) : first.word = second.word :=
  Cursor.word_eq_of_placeless agrees.ahead

theorem unexpected (agrees : first.Agrees second) :
    (Fault.unexpected first.cursor.current).placeless = (Fault.unexpected second.cursor.current).placeless :=
  congrArg Fault.unexpected (Token.placeless_eq_iff.2 agrees.word)

theorem tooDeep (agrees : first.Agrees second) :
    (Fault.tooDeep first.cursor.current).placeless = (Fault.tooDeep second.cursor.current).placeless :=
  congrArg Fault.tooDeep (Token.placeless_eq_iff.2 agrees.word)

theorem separate (agrees : first.Agrees second) :
    first.page.separate first.frames first.word = second.page.separate second.frames second.word := by
  rw [agrees.page, agrees.frames, agrees.word]

theorem follow (agrees : first.Agrees second) :
    follow? first.frames first.word = follow? second.frames second.word := by
  rw [agrees.frames, agrees.word]

theorem full_iff (agrees : first.Agrees second) (bound : Nat) : first.Full bound ↔ second.Full bound := by
  rw [Full, Full, Enters, Enters, agrees.follow, agrees.word, agrees.frames]

theorem step_unlimited (agrees : first.Agrees second) : SameOutcome (first.step none) (second.step none) := by
  have goes := goes_step none first
  have other := goes_step none second
  generalize first.step none = outcome at goes
  cases goes with
  | printed place room moved =>
    obtain ⟨behind, moved', ahead⟩ := Cursor.advance_of_placeless agrees.ahead moved
    rw [agrees.follow] at place
    rw [step_of_follow place (fun _ => within_none _) moved', agrees.page, agrees.frames, agrees.word]
    exact .ok ⟨ahead, rfl, rfl⟩
  | full place opening full => exact absurd (within_none _) full
  | hidden wanted failed =>
    obtain ⟨fault, behind, failed', same⟩ := Cursor.advance_error_of_placeless agrees.ahead failed
    rw [agrees.follow, agrees.frames] at wanted
    generalize second.step none = outcome at other
    cases other with
    | printed _ _ moved => exact absurd (failed'.symm.trans moved) (by simp)
    | full _ _ full => exact absurd (within_none _) full
    | hidden _ again =>
      rw [failed'] at again
      cases again
      exact .error same agrees.separate
    | taken _ _ moved => exact absurd (failed'.symm.trans moved) (by simp)
    | refused place awaits => exact absurd wanted (by simp [place, awaits])
  | taken place awaits moved =>
    obtain ⟨behind, moved', -⟩ := Cursor.advance_of_placeless agrees.ahead moved
    rw [agrees.follow] at place
    rw [agrees.frames] at awaits
    generalize second.step none = outcome at other
    cases other with
    | printed place' => exact absurd (place.symm.trans place') (by simp)
    | full _ _ full => exact absurd (within_none _) full
    | hidden _ failed => exact absurd (moved'.symm.trans failed) (by simp)
    | taken => exact .error agrees.unexpected agrees.separate
    | refused _ other => exact absurd awaits other
  | refused place awaits =>
    rw [agrees.follow] at place
    rw [agrees.frames] at awaits
    generalize second.step none = outcome at other
    cases other with
    | printed place' => exact absurd (place.symm.trans place') (by simp)
    | full _ _ full => exact absurd (within_none _) full
    | hidden wanted => exact absurd wanted (by simp [place, awaits])
    | taken _ other => exact absurd other awaits
    | refused => exact .error agrees.unexpected agrees.separate

theorem step (agrees : first.Agrees second) (limit : Option Nat) :
    SameOutcome (first.step limit) (second.step limit) := by
  cases limit with
  | none => exact agrees.step_unlimited
  | some bound =>
    by_cases full : first.Full bound
    · obtain ⟨left, -, page, stepped⟩ := step_of_full full
      obtain ⟨left', -, page', stepped'⟩ := step_of_full ((agrees.full_iff bound).1 full)
      rw [stepped, stepped']
      apply SameOutcome.error agrees.tooDeep
      rw [page, page', agrees.separate]
    · rw [step_of_room full, step_of_room (mt (agrees.full_iff bound).2 full)]
      exact agrees.step_unlimited

theorem finish (agrees : first.Agrees second) (limit : Option Nat) :
    SameOutcome (first.finish limit) (second.finish limit) := by
  fun_induction Printer.finish first limit generalizing second with
  | case1 first fault after stepped =>
    have same := agrees.step limit
    rw [stepped] at same
    generalize stepped' : second.step limit = outcome at same
    cases same with
    | error named page =>
      rw [finish_of_step_error stepped']
      exact .error named page
  | case2 first after stepped bare =>
    have same := agrees.step limit
    rw [stepped] at same
    generalize stepped' : second.step limit = outcome at same
    cases same with
    | ok next =>
      rw [finish_of_step stepped', resume, ← next.frames, if_pos bare]
      exact .ok next
  | case3 first after stepped inside ih =>
    have same := agrees.step limit
    rw [stepped] at same
    generalize stepped' : second.step limit = outcome at same
    cases same with
    | ok next =>
      rw [finish_of_step stepped', resume, ← next.frames, if_neg inside]
      exact ih next

end Agrees

end Printer

end NodeDump
