import NodeDump.Proofs.Printer.Overflow
import NodeDump.Proofs.Scan.Reached
import NodeDump.Session

/-!
A session runs along the stream of tokens that its cursor would come to if it were only moved. Whatever is done and
whatever fails, it stands on a token of the stream, never goes back, and prints each token it passes over while
printing, in order. There is one thing it cannot recover from, a stack that gives out in the middle of a reading: the
token that was being read is gone from the stream, and the next move goes on behind it.
-/

namespace NodeDump

def Cursor.drain (cursor : Cursor) : List Token := cursor.exhaust.stream

theorem Cursor.drain_eq (cursor : Cursor) : cursor.drain = cursor.ahead.stream := by
  rw [drain, exhaust_eq]

namespace Session

/-- Standing on a token of the stream, with the rest of the stream ahead and so much of the source read at most. -/
structure On (stream : List Token) (bound : Nat) (session : Session) (place : Nat) : Prop where
  current : stream[place]? = some session.cursor.current
  ahead : session.cursor.drain = stream.drop place
  within : session.cursor.position.index ≤ bound

/-- What an operation may do at one place of the stream when it leads to another. -/
inductive Moves (stream : List Token) (session : Session) (place : Nat) : Operation → Outcome → Nat → Prop
  | peeked {token : Token} (here : stream[place]? = some token) :
      Moves stream session place .peek (.ok (some token) session) place
  | taken {expected : Token.Class} {token : Token} {after : Session} (here : stream[place]? = some token)
      (more : token.isEnd = false) (page : after.page = session.page) :
      Moves stream session place (.next expected) (.ok (some token) after) (place + 1)
  | ended {expected : Token.Class} {token : Token} (here : stream[place]? = some token)
      (last : token.isEnd = true) :
      Moves stream session place (.next expected) (.ok (some token) session) place
  | kept {expected : Token.Class} {fault : Fault} {after : Session} (page : after.page = session.page) :
      Moves stream session place (.next expected) (.error fault after) place
  | edited {operation : Operation} {page : Page}
      (edits : (∃ text, operation = .write text) ∨ (∃ text, operation = .startLine text) ∨
        ∃ levels, operation = .shift levels) :
      Moves stream session place operation (.ok none { session with page }) place
  | printed {operation : Operation} {after : Session} {next : Nat}
      (prints : operation ∈ [.printValue, .printNode, .printArray])
      (page : session.page.Adds after.page ((stream.extract place next).map Token.word)) :
      Moves stream session place operation (.ok none after) next
  | failed {operation : Operation} {fault : Fault} {after : Session} {written next : Nat}
      (prints : operation ∈ [.printValue, .printNode, .printArray])
      (last : next = written ∨ next = written + 1) (from_place : place ≤ written)
      (page : session.page.Adds after.page ((stream.extract place written).map Token.word)) :
      Moves stream session place operation (.error fault after) next

/-- What there is left of the stream behind a call. Only a stack that gives out in the middle of a reading takes a token
off it, the one behind the place where the session stands. -/
inductive Remains (stream : List Token) (next : Nat) : Stack → Outcome → List Token → Prop
  | whole {stack : Stack} {outcome : Outcome} : Remains stream next stack outcome stream
  | lost {steps : Nat} {token : Token} {fault : Fault} {after : Session}
      (named : fault = .tooDeep after.cursor.current) (behind : stream[next + 1]? = some token)
      (more : token.isEnd = false) :
      Remains stream next (.upTo steps .amid) (.error fault after) (stream.eraseIdx (next + 1))

/-- Call after call, the session stays on what there is of the stream and never goes back. -/
inductive Follows (bound : Nat) : List Token → Session → Nat → List Call → Prop
  | done {stream : List Token} {session : Session} {place : Nat} (on : On stream bound session place) :
      Follows bound stream session place []
  | more {stream rest : List Token} {session : Session} {place next : Nat} {call : Call} {calls : List Call}
      (on : On stream bound session place)
      (moves : Moves stream session place call.operation (session.call call) next)
      (forward : place ≤ next)
      (index : session.cursor.position.index ≤ (left (session.call call)).cursor.position.index)
      (line : session.cursor.position.line ≤ (left (session.call call)).cursor.position.line)
      (remains : Remains stream next call.stack (session.call call) rest)
      (later : Follows bound rest (left (session.call call)) next calls) :
      Follows bound stream session place (call :: calls)

/-- What every call keeps: the rest of the stream is ahead, and the rest of the source is unread. -/
structure Tracks (stream : List Token) (bound : Nat) (session : Session) (place : Nat) : Prop where
  ahead : stream.drop place = session.cursor.ahead.stream
  unread : session.cursor.position.index + session.cursor.rest.length = bound

structure Leads (stream : List Token) (bound : Nat) (session : Session) (place : Nat) (operation : Operation)
    (stack : Stack) (outcome : Outcome) (next : Nat) (rest : List Token) : Prop where
  moves : Moves stream session place operation outcome next
  forward : place ≤ next
  passes : session.cursor.toReader.Passes (left outcome).cursor.toReader
  remains : Remains stream next stack outcome rest
  tracks : Tracks rest bound (left outcome) next

variable {stream : List Token} {bound : Nat} {session : Session} {place : Nat}

theorem moves_next (session : Session) (expected : Token.Class) :
    Relation.ReflGen Cursor.MovesTo session.cursor (left (session.next expected)).cursor := by
  unfold Session.next Cursor.next
  split
  · rename_i token cursor moved
    split at moved
    · exact .single (Or.inl ⟨_, moved⟩)
    · contradiction
  · rename_i fault cursor failed
    split at failed
    · exact .single (Or.inr ⟨_, failed⟩)
    · cases failed
      exact .refl

theorem drop_eraseIdx_succ {α : Type} (items : List α) (count : Nat) :
    (items.eraseIdx (count + 1)).drop count = (items.drop count).eraseIdx 1 := by
  induction items generalizing count with
  | nil => simp
  | cons first items ih =>
    cases count with
    | zero => rfl
    | succ count => exact ih count

namespace Tracks

theorem here (tracks : Tracks stream bound session place) : stream[place]? = some session.cursor.current := by
  obtain ⟨later, ahead⟩ := session.cursor.stream_ahead
  rw [← List.head?_drop, tracks.ahead, ahead]
  rfl

theorem on (tracks : Tracks stream bound session place) : On stream bound session place where
  current := tracks.here
  ahead := by rw [session.cursor.drain_eq, tracks.ahead]
  within := by
    have unread := tracks.unread
    omega

theorem follow (tracks : Tracks stream bound session place) (after : Session) (taken : List Token)
    (ahead : session.cursor.ahead.stream = taken ++ after.cursor.ahead.stream)
    (passes : session.cursor.toReader.Passes after.cursor.toReader) :
    Tracks stream bound after (place + taken.length) where
  ahead := by
    rw [← List.drop_drop, tracks.ahead, ahead, List.drop_left]
  unread := by rw [passes.index_add_length, tracks.unread]

theorem extract (tracks : Tracks stream bound session place) {taken later : List Token}
    (ahead : session.cursor.ahead.stream = taken ++ later) :
    stream.extract place (place + taken.length) = taken := by
  rw [List.extract_eq_take_drop, tracks.ahead, ahead, Nat.add_sub_cancel_left, List.take_left]

/-- Behind a token that is lost the stream goes on without it. -/
theorem lose (tracks : Tracks stream bound session place) (after : Session) {taken later : List Token} {lost : Token}
    (ahead : session.cursor.ahead.stream = taken ++ after.cursor.current :: lost :: later)
    (behind : after.cursor.ahead.stream = after.cursor.current :: later)
    (passes : session.cursor.toReader.Passes after.cursor.toReader) :
    stream[place + taken.length + 1]? = some lost ∧
      Tracks (stream.eraseIdx (place + taken.length + 1)) bound after (place + taken.length) := by
  have rest : stream.drop (place + taken.length) = after.cursor.current :: lost :: later := by
    rw [← List.drop_drop, tracks.ahead, ahead, List.drop_left]
  constructor
  · rw [← List.getElem?_drop, rest]
    rfl
  · refine ⟨?_, by rw [passes.index_add_length, tracks.unread]⟩
    rw [drop_eraseIdx_succ, rest, behind]
    rfl

theorem leads_next (tracks : Tracks stream bound session place) (expected : Token.Class) (stack : Stack) :
    ∃ next, Leads stream bound session place (.next expected) stack (session.next expected) next stream := by
  unfold Session.next Cursor.next
  split
  · rename_i token cursor moved
    split at moved
    · have passes := Cursor.passes_of_advance moved
      obtain rfl := Cursor.token_of_advance moved
      cases last : session.cursor.current.isEnd with
      | true =>
        obtain rfl := Cursor.after_of_advance_end moved last
        exact ⟨place, .ended tracks.here last, le_rfl, passes, .whole, tracks⟩
      | false =>
        have behind := tracks.follow { session with cursor } [session.cursor.current]
          (Cursor.stream_of_advance moved last) passes
        exact ⟨place + 1, .taken tracks.here last rfl, Nat.le_succ place, passes, .whole, behind⟩
    · contradiction
  · rename_i fault cursor failed
    split at failed
    · have passes := Cursor.passes_of_advance_error failed
      have same : session.cursor.ahead.stream = [] ++ cursor.ahead.stream := by
        rw [(Cursor.ahead_after_error failed).2, List.nil_append]
      have behind := tracks.follow { session with cursor } [] same passes
      exact ⟨place, .kept rfl, le_rfl, passes, .whole, behind⟩
    · cases failed
      exact ⟨place, .kept rfl, le_rfl, .refl _, .whole, tracks⟩

theorem leads_nextOn (tracks : Tracks stream bound session place) (expected : Token.Class) (stack : Stack) :
    ∃ next rest, Leads stream bound session place (.next expected) stack (session.nextOn expected stack) next rest := by
  unfold nextOn
  split
  · rename_i breach
    obtain ⟨passes, outcome⟩ := Cursor.breaks_off breach (moves_next session expected)
    let after : Session :=
      { session with cursor := breach.cursor session.cursor (left (session.next expected)).cursor }
    rcases outcome with same | ⟨rfl, lost, later, more, stream, behind⟩
    · have behind := tracks.follow after [] (congrArg Scan.stream same.symm) passes
      exact ⟨place, _, .kept rfl, le_rfl, passes, .whole, behind⟩
    · have stream : session.cursor.ahead.stream = [] ++ after.cursor.current :: lost :: later := stream
      obtain ⟨found, rest⟩ := tracks.lose after stream behind passes
      exact ⟨place, _, .kept rfl, le_rfl, passes, .lost rfl found more, rest⟩
  · obtain ⟨next, leads⟩ := tracks.leads_next expected stack
    exact ⟨next, _, leads⟩

theorem leads_printValue (tracks : Tracks stream bound session place) (stack : Stack) {operation : Operation}
    (prints : operation ∈ [.printValue, .printNode, .printArray]) :
    ∃ next rest, Leads stream bound session place operation stack (session.printValue stack) next rest := by
  have outcome := Printer.worked_finishOn stack ⟨session.cursor, session.page, []⟩
  unfold Session.printValue
  split
  · rename_i printer ended
    rw [ended] at outcome
    rcases outcome with ⟨tokens, works⟩ | ⟨-, fault, after, written, lost, failed, -⟩
    · have page := works.page
      rw [← tracks.extract works.stream] at page
      exact ⟨place + tokens.length, _, .printed prints page, Nat.le_add_right _ _, works.passes, .whole,
        tracks.follow ⟨printer.cursor, printer.page⟩ tokens works.stream works.passes⟩
    · contradiction
  · rename_i fault printer ended
    rw [ended] at outcome
    rcases outcome with ⟨written, lost, works, few⟩ | ⟨⟨steps, rfl⟩, fault, after, written, lost, failed, loses⟩
    · have page := works.page
      have stream := works.stream
      rw [List.append_assoc] at stream
      rw [← tracks.extract stream] at page
      have last : place + (written ++ lost).length = place + written.length ∨
          place + (written ++ lost).length = place + written.length + 1 := by
        rw [List.length_append]
        omega
      exact ⟨place + (written ++ lost).length, _, .failed prints last (Nat.le_add_right _ _) page,
        Nat.le_add_right _ _, works.passes, .whole,
        tracks.follow ⟨printer.cursor, printer.page⟩ _ works.stream works.passes⟩
    · cases failed
      obtain ⟨named, more, ⟨later, stream, behind⟩, page, passes⟩ := loses
      obtain ⟨found, rest⟩ := tracks.lose ⟨printer.cursor, printer.page⟩ stream behind passes
      rw [← tracks.extract stream] at page
      exact ⟨place + written.length, _, .failed prints (Or.inl rfl) (Nat.le_add_right _ _) page,
        Nat.le_add_right _ _, passes, .lost named found more, rest⟩

theorem leads (tracks : Tracks stream bound session place) (call : Call) :
    ∃ next rest, Leads stream bound session place call.operation call.stack (session.call call) next rest := by
  have nothing : session.page.Adds session.page ((stream.extract place place).map Token.word) := by
    simpa [List.extract_eq_take_drop] using Page.Adds.refl session.page
  refine session.call_cases (motive := fun operation stack outcome =>
    ∃ next rest, Leads stream bound session place operation stack outcome next rest) ?_ ?_ ?_ ?_ ?_ call
  · intro stack
    exact ⟨place, _, .peeked tracks.here, le_rfl, .refl _, .whole, tracks⟩
  · intro expected stack
    exact tracks.leads_nextOn expected stack
  · intro operation stack page edits
    exact ⟨place, _, .edited edits, le_rfl, .refl _, .whole, tracks.ahead, tracks.unread⟩
  · intro operation stack prints
    exact tracks.leads_printValue stack prints
  · intro operation stack first prints
    exact ⟨place, _, .failed prints (Or.inl rfl) le_rfl nothing, le_rfl, .refl _, .whole, tracks⟩

theorem follows (tracks : Tracks stream bound session place) (calls : List Call) :
    Follows bound stream session place calls := by
  induction calls generalizing stream session place with
  | nil => exact .done tracks.on
  | cons call calls ih =>
    obtain ⟨next, rest, leads⟩ := tracks.leads call
    exact .more tracks.on leads.moves leads.forward leads.passes.index_le leads.passes.line_le leads.remains
      (ih leads.tracks)

theorem of_fresh {source : String} {start : Start} {cursor : Cursor}
    (fresh : Cursor.ofStart source start = .ok cursor) (page : Page) :
    Tracks cursor.drain (max source.length start.index.toNat) ⟨cursor, page⟩ 0 where
  ahead := by rw [List.drop_zero, Cursor.drain_eq]
  unread := by
    have length : (source.toList.drop start.index.toNat).length = source.length - start.index.toNat := by
      rw [List.length_drop, String.length_toList]
    have whole := (Cursor.passes_of_ofStart fresh).index_add_length
    simp only [Reader.ofSource, Start.position, length] at whole
    rw [whole]
    omega

end Tracks

theorem cursor_of_start {source : String} {start : Start} {page : Page}
    (started : Session.start source start page = .ok session) : Cursor.ofStart source start = .ok session.cursor := by
  unfold Session.start at started
  cases begun : Cursor.ofStart source start with
  | error fault =>
    rw [begun] at started
    contradiction
  | ok cursor =>
    rw [begun] at started
    cases started
    rfl

theorem start_eq {source : String} {start : Start} {cursor : Cursor} (fresh : Cursor.ofStart source start = .ok cursor)
    (page : Page) : Session.start source start page = .ok ⟨cursor, page⟩ := by
  rw [Session.start, fresh]
  rfl

/-- A session runs along the stream of a fresh cursor, whatever is done and whatever fails. The stream stays whole as
long as no stack gives out in the middle of a reading. -/
theorem follows_drain {source : String} {start : Start} {cursor : Cursor}
    (fresh : Cursor.ofStart source start = .ok cursor) (page : Page) (calls : List Call) :
    ∃ session, Session.start source start page = .ok session ∧
      Follows (max source.length start.index.toNat) cursor.drain session 0 calls :=
  ⟨⟨cursor, page⟩, start_eq fresh page, (Tracks.of_fresh fresh page).follows calls⟩

/-- A start that is counted from the back. The first printing loses the `2`, and the last one comes upon the stray
character. -/
theorem follows_drain_broken :
    ∃ cursor session, Cursor.ofStart "(1 \x7bB 2 3 $" ⟨-4, 1, 0⟩ = .ok cursor ∧
      cursor.current = ⟨.arrayStart, 1, -4, "("⟩ ∧
      cursor.drain.map Token.word = [(.arrayStart, "("), (.atom, "1"), (.nodeStart, "\x7bB"), (.atom, "2"),
        (.atom, "3")] ∧
      Session.start "(1 \x7bB 2 3 $" ⟨-4, 1, 0⟩ {} = .ok session ∧
      Follows 11 cursor.drain session 0 [⟨.next (.only .key), .ample⟩, ⟨.printValue, .upTo 2 .amid⟩, ⟨.peek, .ample⟩,
        ⟨.next .any, .ample⟩, ⟨.printArray, .upTo 0 .before⟩, ⟨.printValue, .ample⟩] := by
  let cursor : Cursor := ⟨⟨"1 \x7bB 2 3 $".toList, ⟨1, 1, 0⟩⟩, ⟨.arrayStart, 1, -4, "("⟩⟩
  have fresh : Cursor.ofStart "(1 \x7bB 2 3 $" ⟨-4, 1, 0⟩ = .ok cursor := by rfl
  obtain ⟨session, started, follows⟩ := follows_drain fresh {} [⟨.next (.only .key), .ample⟩,
    ⟨.printValue, .upTo 2 .amid⟩, ⟨.peek, .ample⟩, ⟨.next .any, .ample⟩, ⟨.printArray, .upTo 0 .before⟩,
    ⟨.printValue, .ample⟩]
  exact ⟨cursor, session, fresh, rfl, by decide +kernel, started, follows⟩

/-- The stack gives out while the token behind the second bracket is read. The next move gives that bracket, as it
should, and comes to the `2` instead of the `1`. -/
theorem next_skips :
    ∃ cursor broken moved, Cursor.ofStart "( ( 1 2" {} = .ok cursor ∧
      cursor.drain.map Token.word =
        [(.arrayStart, "("), (.arrayStart, "("), (.atom, "1"), (.atom, "2"), (.endOfInput, "")] ∧
      Session.call ⟨cursor, {}⟩ ⟨.printValue, .upTo 1 .amid⟩ = .error (.tooDeep ⟨.arrayStart, 1, 2, "("⟩) broken ∧
      cursor.drain[1]? = some broken.cursor.current ∧
      broken.call ⟨.next .any, .ample⟩ = .ok (some broken.cursor.current) moved ∧
      cursor.drain[2]? ≠ some moved.cursor.current ∧ cursor.drain[3]? = some moved.cursor.current := by
  let cursor : Cursor := ⟨⟨" ( 1 2".toList, ⟨1, 1, 0⟩⟩, ⟨.arrayStart, 1, 0, "("⟩⟩
  let broken : Session := ⟨⟨⟨" 2".toList, ⟨5, 1, 0⟩⟩, ⟨.arrayStart, 1, 2, "("⟩⟩, ⟨"(\n  ", 1, 2⟩⟩
  let moved : Session := ⟨⟨⟨[], ⟨7, 1, 0⟩⟩, ⟨.atom, 1, 6, "2"⟩⟩, ⟨"(\n  ", 1, 2⟩⟩
  refine ⟨cursor, broken, moved, rfl, ?_, ?_, ?_, ?_, ?_, ?_⟩ <;> decide +kernel

end Session

end NodeDump
