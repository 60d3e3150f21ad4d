import NodeDump.Printer.Run
import NodeDump.Proofs.Scan.Ahead

/-!
What one step of the printer can do. Which words are in place, and what is open behind them, depends on the open
constructs alone; what is written depends on these, the word and the page. A step that succeeds takes a word in
place and prints it, and a step that fails has either met a word out of place, or a stray character behind the word,
or the limit.
-/

namespace NodeDump

def begin? (frames : List Frame) (word : Word) : Option (List Frame) :=
  match word.1 with
  | .nodeStart => some (.node .start :: frames)
  | .arrayStart => some (.array (word.tag ≠ "") false :: frames)
  | .string | .atom => some frames
  | _ => none

/-- What is open once a word has been taken, if it is in place. -/
def follow? : List Frame → Word → Option (List Frame)
  | [], word => begin? [] word
  | .node ending :: outer, word =>
    match word.1 with
    | .key => some (.node .key :: outer)
    | .nodeEnd => some outer
    | _ => if ending = .key then begin? (.node .value :: outer) word else none
  | .array tagged _ :: outer, word =>
    if word.1 = .arrayEnd then some outer else begin? (.array tagged true :: outer) word

theorem more_of_follow {frames inner : List Frame} {token : Token}
    (place : follow? frames token.word = some inner) : token.isEnd = false := by
  by_contra last
  have kind : token.kind = .endOfInput := by simpa [Token.isEnd] using last
  unfold follow? at place
  split at place
  · simp [begin?, Token.word, kind] at place
  · simp [begin?, Token.word, kind] at place
  · simp [begin?, Token.word, kind] at place

theorem sort_of_follow {frames inner : List Frame} {word : Word} (place : follow? frames word = some inner) :
    word.Starting ∨ word.1 = .key ∨ word.Closing := by
  cases kind : word.1 with
  | nodeStart => exact Or.inl (Or.inl (Or.inl kind))
  | arrayStart => exact Or.inl (Or.inl (Or.inr kind))
  | string => exact Or.inl (Or.inr (Or.inl kind))
  | atom => exact Or.inl (Or.inr (Or.inr kind))
  | key => exact Or.inr (Or.inl rfl)
  | nodeEnd => exact Or.inr (Or.inr (Or.inl kind))
  | arrayEnd => exact Or.inr (Or.inr (Or.inr kind))
  | endOfInput =>
    unfold follow? at place
    split at place <;> simp [begin?, kind] at place

/-- Nothing but a key or the end of the node is in place. -/
def AwaitsKey : List Frame → Prop
  | .node ending :: _ => ending ≠ .key
  | _ => False

def isBroken : List Frame → Bool
  | .node ending :: _ => ending ≠ .start
  | .array tagged filled :: _ => filled && !tagged
  | [] => false

def Within (limit : Option Nat) (levels : Nat) : Prop := ∀ bound, limit = some bound → levels ≤ bound

theorem Within.mono {limit : Option Nat} {more fewer : Nat} (within : Within limit more)
    (le : fewer ≤ more) : Within limit fewer :=
  fun bound known => le.trans (within bound known)

theorem within_none (levels : Nat) : Within none levels := fun bound known => by contradiction

namespace Page

/-- The separator in front of an element of an array is written before the element is looked at. -/
def separate (page : Page) (frames : List Frame) (word : Word) : Page :=
  match frames with
  | .array tagged _ :: _ =>
    if word.1 = .arrayEnd then page else if tagged then page.write " " else page.startLine ""
  | _ => page

/-- The page once a word in place has been printed. -/
def put (page : Page) (frames : List Frame) (word : Word) : Page :=
  match word.1 with
  | .nodeStart | .arrayStart => ((page.separate frames word).write word.2).shift 1
  | .key => page.startLine (word.2 ++ " ")
  | .nodeEnd | .arrayEnd =>
    if isBroken frames then (page.shift (-1)).startLine word.2 else (page.shift (-1)).write word.2
  | _ => (page.separate frames word).write word.2

theorem put_opening {word : Word} (opening : word.Opening) (page : Page) (frames : List Frame) :
    page.put frames word = ((page.separate frames word).write word.2).shift 1 := by
  rcases opening with kind | kind <;> rw [put, kind]

theorem put_scalar {word : Word} (scalar : word.Scalar) (page : Page) (frames : List Frame) :
    page.put frames word = (page.separate frames word).write word.2 := by
  rcases scalar with kind | kind <;> rw [put, kind]

theorem put_key {word : Word} (key : word.1 = .key) (page : Page) (frames : List Frame) :
    page.put frames word = page.startLine (word.2 ++ " ") := by
  rw [put, key]

theorem put_closing {word : Word} (closing : word.Closing) (page : Page) (frames : List Frame) :
    page.put frames word = if isBroken frames then (page.shift (-1)).startLine word.2
      else (page.shift (-1)).write word.2 := by
  rcases closing with kind | kind <;> rw [put, kind]

end Page

namespace Printer

def word (printer : Printer) : Word := printer.cursor.current.word

inductive Goes (limit : Option Nat) (printer : Printer) : Outcome → Prop
  | printed {frames : List Frame} {cursor : Cursor}
      (place : follow? printer.frames printer.word = some frames)
      (room : printer.word.Opening → Within limit (printer.frames.length + 1))
      (moved : printer.cursor.advance = .ok printer.cursor.current cursor) :
      Goes limit printer (.ok () ⟨cursor, printer.page.put printer.frames printer.word, frames⟩)
  | full {frames left : List Frame}
      (place : follow? printer.frames printer.word = some frames) (opening : printer.word.Opening)
      (full : ¬Within limit (printer.frames.length + 1)) :
      Goes limit printer (.error (.tooDeep printer.cursor.current)
        ⟨printer.cursor, printer.page.separate printer.frames printer.word, left⟩)
  | hidden {fault : Fault} {cursor : Cursor} {left : List Frame}
      (wanted : follow? printer.frames printer.word ≠ none ∨ AwaitsKey printer.frames)
      (failed : printer.cursor.advance = .error fault cursor) :
      Goes limit printer (.error fault
        ⟨cursor, printer.page.separate printer.frames printer.word, left⟩)
  | taken {cursor : Cursor} {left : List Frame}
      (place : follow? printer.frames printer.word = none) (awaits : AwaitsKey printer.frames)
      (moved : printer.cursor.advance = .ok printer.cursor.current cursor) :
      Goes limit printer (.error (.unexpected printer.cursor.current)
        ⟨cursor, printer.page.separate printer.frames printer.word, left⟩)
  | refused {left : List Frame}
      (place : follow? printer.frames printer.word = none) (other : ¬AwaitsKey printer.frames) :
      Goes limit printer (.error (.unexpected printer.cursor.current)
        ⟨printer.cursor, printer.page.separate printer.frames printer.word, left⟩)

variable {limit : Option Nat} {printer : Printer}

theorem Goes.of_take {ready : Printer} {frames : List Frame} {use : Token → Printer → Outcome}
    (cursor : ready.cursor = printer.cursor)
    (page : ready.page = printer.page.separate printer.frames printer.word)
    (place : follow? printer.frames printer.word = some frames)
    (room : printer.word.Opening → Within limit (printer.frames.length + 1))
    (result : ∀ after : Cursor, use printer.cursor.current { ready with cursor := after } =
      .ok () ⟨after, printer.page.put printer.frames printer.word, frames⟩) :
    Goes limit printer (ready.take use) := by
  unfold take
  rw [cursor]
  cases moved : printer.cursor.advance with
  | ok token after =>
    obtain rfl := Cursor.token_of_advance moved
    simp only [result]
    exact .printed place room moved
  | error fault after =>
    have wanted : follow? printer.frames printer.word ≠ none := by simp [place]
    simp only [page]
    exact .hidden (Or.inl wanted) moved

theorem within_of_not_any {levels : Nat} (room : ¬limit.any (· ≤ levels) = true) :
    Within limit (levels + 1) := by
  rintro bound rfl
  simp only [Option.any_some, decide_eq_true_eq] at room
  omega

theorem not_within_of_any {levels : Nat} (full : limit.any (· ≤ levels) = true) :
    ¬Within limit (levels + 1) := by
  obtain ⟨bound, rfl, reached⟩ := (Option.any_eq_true _ _).1 full
  intro within
  have le := within bound rfl
  simp only [decide_eq_true_eq] at reached
  omega

theorem Goes.of_enter {ready : Printer} {inner : Frame} (cursor : ready.cursor = printer.cursor)
    (page : ready.page = printer.page.separate printer.frames printer.word)
    (levels : ready.frames.length = printer.frames.length) (opening : printer.word.Opening)
    (place : follow? printer.frames printer.word = some (inner :: ready.frames)) :
    Goes limit printer (ready.enter limit inner) := by
  unfold enter
  split
  · rename_i reached
    rw [levels] at reached
    obtain ⟨cursorOf, pageOf, left⟩ := ready
    simp only at cursor page
    subst cursor page
    exact .full place opening (not_within_of_any reached)
  · rename_i room
    rw [levels] at room
    refine .of_take cursor page place (fun _ => within_of_not_any room) fun after => ?_
    rw [Page.put_opening opening, ← page]
    rfl

theorem Goes.of_scalar {ready : Printer} (cursor : ready.cursor = printer.cursor)
    (page : ready.page = printer.page.separate printer.frames printer.word) (scalar : printer.word.Scalar)
    (place : follow? printer.frames printer.word = some ready.frames) :
    Goes limit printer (ready.take fun token printer => .ok () (printer.write token.text)) := by
  refine .of_take cursor page place (fun opens => absurd opens scalar.not_opening) fun after => ?_
  rw [Page.put_scalar scalar, ← page]
  rfl

theorem Goes.of_value {ready : Printer} (cursor : ready.cursor = printer.cursor)
    (page : ready.page = printer.page.separate printer.frames printer.word)
    (levels : ready.frames.length = printer.frames.length)
    (place : follow? printer.frames printer.word = begin? ready.frames printer.word)
    (other : ¬AwaitsKey printer.frames) : Goes limit printer (ready.value limit) := by
  unfold value
  simp only [cursor]
  split
  · rename_i kind
    have opened : printer.word.1 = .nodeStart := kind
    rw [begin?, opened] at place
    exact .of_enter cursor page levels (Or.inl opened) place
  · rename_i kind
    have opened : printer.word.1 = .arrayStart := kind
    rw [begin?, opened] at place
    exact .of_enter cursor page levels (Or.inr opened) place
  · rename_i kind
    have scalar : printer.word.1 = .string := kind
    rw [begin?, scalar] at place
    exact .of_scalar cursor page (Or.inl scalar) place
  · rename_i kind
    have scalar : printer.word.1 = .atom := kind
    rw [begin?, scalar] at place
    exact .of_scalar cursor page (Or.inr scalar) place
  · rename_i node array string atom
    have stuck : begin? ready.frames printer.word = none := by
      unfold begin?
      split
      · exact absurd ‹_› node
      · exact absurd ‹_› array
      · exact absurd ‹_› string
      · exact absurd ‹_› atom
      · rfl
    obtain ⟨cursorOf, pageOf, left⟩ := ready
    simp only at cursor page
    subst cursor page
    exact .refused (place.trans stuck) other

theorem Goes.of_keyOrEnd {ending : NodeEnding} {outer : List Frame}
    (inside : printer.frames = .node ending :: outer)
    (away : printer.word.1 = .key ∨ printer.word.1 = .nodeEnd ∨ ending ≠ .key) :
    Goes limit printer (printer.keyOrEnd ending outer) := by
  have wanted : follow? printer.frames printer.word ≠ none ∨ AwaitsKey printer.frames := by
    rw [inside]
    rcases away with key | last | other
    · exact Or.inl (by simp [follow?, key])
    · exact Or.inl (by simp [follow?, last])
    · exact Or.inr other
  have separated : printer.page.separate printer.frames printer.word = printer.page := by
    rw [inside]
    rfl
  unfold keyOrEnd take
  cases moved : printer.cursor.advance with
  | error fault after =>
    have goes : Goes limit printer (.error fault
        ⟨after, printer.page.separate printer.frames printer.word, printer.frames⟩) := .hidden wanted moved
    rwa [separated] at goes
  | ok token after =>
    obtain rfl := Cursor.token_of_advance moved
    simp only
    split
    · rename_i kind
      have key : printer.word.1 = .key := kind
      have place : follow? printer.frames printer.word = some (.node .key :: outer) := by
        simp [inside, follow?, key]
      have no_opening := Word.not_opening_of_key key
      have goes : Goes limit printer
          (.ok () ⟨after, printer.page.put printer.frames printer.word, .node .key :: outer⟩) :=
        .printed place (fun opens => absurd opens no_opening) moved
      rw [Page.put_key key] at goes
      exact goes
    · rename_i kind
      have last : printer.word.1 = .nodeEnd := kind
      have place : follow? printer.frames printer.word = some outer := by simp [inside, follow?, last]
      have no_opening : ¬printer.word.Opening := fun opens =>
        Word.Closing.not_starting (Or.inl last) (Or.inl opens)
      have goes : Goes limit printer (.ok () ⟨after, printer.page.put printer.frames printer.word, outer⟩) :=
        .printed place (fun opens => absurd opens no_opening) moved
      rw [Page.put_closing (Or.inl last), inside] at goes
      exact goes
    · rename_i noKey noEnd
      have other : ending ≠ .key := by
        rcases away with key | last | other
        · exact absurd key noKey
        · exact absurd last noEnd
        · exact other
      have place : follow? printer.frames printer.word = none := by
        rw [inside, follow?]
        split
        · exact absurd ‹_› noKey
        · exact absurd ‹_› noEnd
        · simp [other]
      have awaits : AwaitsKey printer.frames := by
        rw [inside]
        exact other
      have goes : Goes limit printer (.error (.unexpected printer.cursor.current)
          ⟨after, printer.page.separate printer.frames printer.word, printer.frames⟩) :=
        .taken place awaits moved
      rwa [separated] at goes

theorem Goes.of_inNode {ending : NodeEnding} {outer : List Frame}
    (inside : printer.frames = .node ending :: outer) :
    Goes limit printer (printer.inNode limit ending outer) := by
  unfold inNode
  simp only
  split
  · rename_i behind
    obtain ⟨rfl, noKey, noEnd⟩ := behind
    refine .of_value rfl (by rw [inside]; rfl) (by simp [inside]) ?_ (by simp [inside, AwaitsKey])
    rw [inside, follow?]
    split
    · exact absurd ‹_› noKey
    · exact absurd ‹_› noEnd
    · simp
  · rename_i other
    refine .of_keyOrEnd inside ?_
    by_cases key : printer.word.1 = .key
    · exact Or.inl key
    · by_cases last : printer.word.1 = .nodeEnd
      · exact Or.inr (Or.inl last)
      · exact Or.inr (Or.inr fun same => other ⟨same, key, last⟩)

theorem Goes.of_inArray {tagged filled : Bool} {outer : List Frame}
    (inside : printer.frames = .array tagged filled :: outer) :
    Goes limit printer (printer.inArray limit tagged filled outer) := by
  unfold inArray
  split
  · rename_i kind
    have last : printer.word.1 = .arrayEnd := kind
    have place : follow? printer.frames printer.word = some outer := by simp [inside, follow?, last]
    have no_opening : ¬printer.word.Opening := fun opens =>
      Word.Closing.not_starting (Or.inr last) (Or.inl opens)
    have separated : printer.page = printer.page.separate printer.frames printer.word := by
      simp [inside, Page.separate, last]
    refine .of_take rfl separated place (fun opens => absurd opens no_opening) fun after => ?_
    rw [Page.put_closing (Or.inr last), inside]
    rfl
  · rename_i kind
    have other : printer.word.1 ≠ .arrayEnd := kind
    refine .of_value ?_ ?_ (by simp [inside]) ?_ (by simp [inside, AwaitsKey])
    · cases tagged <;> rfl
    · cases tagged <;> simp [inside, Page.separate, other] <;> rfl
    · simp [inside, follow?, other]

theorem goes_step (limit : Option Nat) (printer : Printer) : Goes limit printer (printer.step limit) := by
  unfold step
  split
  · rename_i bare
    exact .of_value rfl (by rw [bare]; rfl) rfl (by rw [bare]; rfl) (by simp [bare, AwaitsKey])
  · rename_i inside
    exact .of_inNode inside
  · rename_i inside
    exact .of_inArray inside

theorem step_of_follow {frames : List Frame} {cursor : Cursor}
    (place : follow? printer.frames printer.word = some frames)
    (room : printer.word.Opening → Within limit (printer.frames.length + 1))
    (moved : printer.cursor.advance = .ok printer.cursor.current cursor) :
    printer.step limit =
      .ok () ⟨cursor, printer.page.put printer.frames printer.word, frames⟩ := by
  have goes := goes_step limit printer
  generalize printer.step limit = outcome at goes
  cases goes with
  | printed other _ again =>
    rw [place] at other
    rw [moved] at again
    cases other
    cases again
    rfl
  | full _ opening full => exact absurd (room opening) full
  | hidden _ failed => rw [moved] at failed; contradiction
  | taken stuck => rw [place] at stuck; contradiction
  | refused stuck => rw [place] at stuck; contradiction

theorem step_ok {after : Printer} (stepped : printer.step limit = .ok () after) :
    follow? printer.frames printer.word = some after.frames ∧
      (printer.word.Opening → Within limit (printer.frames.length + 1)) ∧
      printer.cursor.advance = .ok printer.cursor.current after.cursor ∧
      after.page = printer.page.put printer.frames printer.word := by
  have goes := goes_step limit printer
  rw [stepped] at goes
  cases goes with
  | printed place room moved => exact ⟨place, room, moved, rfl⟩

/-- What every step keeps and every end of the printing follows from holds of the whole printing. -/
theorem finish_induction (limit : Option Nat) (Keeps : Printer → Prop) (Ends : Outcome → Prop)
    (step : ∀ before after, Keeps before → before.step limit = .ok () after → after.frames ≠ [] →
      Keeps after)
    (done : ∀ before after, Keeps before → before.step limit = .ok () after → after.frames = [] →
      Ends (.ok () after))
    (failed : ∀ before fault after, Keeps before → before.step limit = .error fault after →
      Ends (.error fault after))
    (printer : Printer) (start : Keeps printer) : Ends (printer.finish limit) := by
  fun_induction finish printer limit with
  | case1 printer fault after stepped => exact failed _ _ _ start stepped
  | case2 printer after stepped empty => exact done _ _ start stepped (by simpa using empty)
  | case3 printer after stepped more ih =>
    exact ih (step _ _ start stepped (by simpa using more))

end Printer

end NodeDump
