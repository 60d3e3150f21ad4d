import NodeDump.Proofs.Printer.Spine

/-!
Printing a value whose words are all there. The printer writes what the dump is rendered to from its tree, whatever
is open around it and whatever follows, and goes on behind its last word.
-/

namespace NodeDump

namespace Page

def newLine (width depth : Int) : String :=
  String.ofList ('\n' :: List.replicate (depth * width).toNat ' ')

theorem startLine_eq {page : Page} (begun : page.text ≠ "") (more : String) :
    page.startLine more = page.write (newLine page.width page.depth ++ more) :=
  startLine_of_ne_empty begun more

theorem write_write (page : Page) (first second : String) :
    (page.write first).write second = page.write (first ++ second) := by
  simp [write, String.append_assoc]

theorem write_ne_empty {page : Page} (begun : page.text ≠ "") (more : String) :
    (page.write more).text ≠ "" := by
  simp [begun]

theorem write_text_ne_empty (page : Page) {more : String} (some_char : more ≠ "") :
    (page.write more).text ≠ "" := by
  simp [some_char]

def space (page : Page) : List Frame → Page
  | .array tagged _ :: _ => if tagged then page.write " " else page.startLine ""
  | _ => page

@[simp] theorem depth_space (page : Page) (frames : List Frame) : (page.space frames).depth = page.depth := by
  unfold space
  split
  · split <;> simp
  · rfl

@[simp] theorem width_space (page : Page) (frames : List Frame) : (page.space frames).width = page.width := by
  unfold space
  split
  · split <;> simp
  · rfl

/-- What stands between the two ends of a construct is only set in further. -/
theorem close_eq (page : Page) {opening : String} (some_char : opening ≠ "") (inside last : String)
    (broken : Bool) :
    (if broken then ((((page.write opening).shift 1).write inside).shift (-1)).startLine last
      else ((((page.write opening).shift 1).write inside).shift (-1)).write last) =
    page.write (opening ++ inside ++ (if broken then newLine page.width page.depth else "") ++ last) := by
  have back : (((page.write opening).shift 1).write inside).shift (-1) = page.write (opening ++ inside) := by
    simp only [shift, write, Page.mk.injEq, String.append_assoc, true_and, and_true]
    omega
  have begun : (page.write (opening ++ inside)).text ≠ "" := write_text_ne_empty page (by simp [some_char])
  rw [back]
  cases broken with
  | true => simp [startLine_eq begun, write_write, String.append_assoc]
  | false => simp [write_write, String.append_assoc]

theorem separate_starting {word : Word} (starting : word.Starting) (page : Page) (frames : List Frame) :
    page.separate frames word = page.space frames := by
  have other : word.1 ≠ .arrayEnd := fun last => Word.Closing.not_starting (Or.inr last) starting
  unfold separate space
  split <;> simp [other]

end Page

namespace Scan

/-- There is a next token, or nothing but the end. -/
def Ready (scan : Scan) : Prop := scan.tokens ≠ [] ∨ ∃ token, scan.ending = .ok token

end Scan

namespace Cursor

/-- The words that come next, and the scan behind them. -/
def Coming (cursor : Cursor) (words : List Word) (rest : Scan) : Prop :=
  ∃ tokens, tokens.map Token.word = words ∧ cursor.ahead = ⟨tokens ++ rest.tokens, rest.ending⟩

theorem Coming.advance {cursor : Cursor} {word : Word} {words : List Word} {rest : Scan}
    (coming : cursor.Coming (word :: words) rest) (ready : rest.Ready) :
    cursor.current.word = word ∧
      ∃ after, cursor.advance = .ok cursor.current after ∧ after.Coming words rest := by
  obtain ⟨tokens, same, ahead⟩ := coming
  obtain ⟨token, tokens, rfl, rfl, rfl⟩ := List.map_eq_cons_iff.1 same
  have more : tokens ++ rest.tokens ≠ [] ∨ ∃ last, rest.ending = .ok last := by
    rcases ready with some_token | ending
    · exact Or.inl (by simp [some_token])
    · exact Or.inr ending
  obtain ⟨rfl, after, moved, behind⟩ := advance_of_ahead ahead more
  exact ⟨rfl, after, moved, tokens, rfl, behind⟩

end Cursor

namespace Printer

def resume (printer : Printer) (limit : Option Nat) : Outcome :=
  if printer.frames.isEmpty then .ok () printer else printer.finish limit

theorem finish_of_step {limit : Option Nat} {printer after : Printer}
    (stepped : printer.step limit = .ok () after) : printer.finish limit = after.resume limit := by
  rw [finish]
  split
  · rename_i failed
    rw [stepped] at failed
    contradiction
  · rename_i same
    rw [stepped] at same
    cases same
    rfl

variable (limit : Option Nat) {rest : Scan} {cursor : Cursor} {words : List Word} {word : Word}
  {outer frames : List Frame}

theorem finish_of_follow (page : Page) (ready : rest.Ready) (coming : cursor.Coming (word :: words) rest)
    (place : follow? outer word = some frames) (room : word.Opening → Within limit (outer.length + 1)) :
    ∃ after : Cursor, after.Coming words rest ∧
      finish ⟨cursor, page, outer⟩ limit = resume ⟨after, page.put outer word, frames⟩ limit := by
  obtain ⟨rfl, after, moved, behind⟩ := coming.advance ready
  have stepped : step ⟨cursor, page, outer⟩ limit = .ok () ⟨after, page.put outer cursor.current.word, frames⟩ :=
    step_of_follow place room moved
  exact ⟨after, behind, finish_of_step stepped⟩

theorem resume_cons (cursor : Cursor) (page : Page) (frame : Frame) (frames : List Frame) :
    resume ⟨cursor, page, frame :: frames⟩ limit = finish ⟨cursor, page, frame :: frames⟩ limit := rfl

theorem finish_scalar (page : Page) (ready : rest.Ready) (scalar : word.Scalar)
    (received : receive? outer = some frames) (coming : cursor.Coming (word :: words) rest) :
    ∃ after : Cursor, after.Coming words rest ∧ finish ⟨cursor, page, outer⟩ limit =
      resume ⟨after, (page.space outer).write word.2, frames⟩ limit := by
  have begun : begin? frames word = some frames := by
    rcases scalar with kind | kind <;> simp [begin?, kind]
  have place : follow? outer word = some frames := by
    rw [follow?_starting outer (Or.inr scalar), received, Option.bind_some, begun]
  have next := finish_of_follow limit page ready coming place fun opening =>
    absurd opening scalar.not_opening
  rwa [Page.put_scalar scalar, Page.separate_starting (Or.inr scalar)] at next

theorem finish_opening (page : Page) {inside : List Frame} (ready : rest.Ready) (opening : word.Opening)
    (received : receive? outer = some frames) (begun : begin? frames word = some inside)
    (room : Within limit (outer.length + 1)) (coming : cursor.Coming (word :: words) rest) :
    ∃ after : Cursor, after.Coming words rest ∧ finish ⟨cursor, page, outer⟩ limit =
      resume ⟨after, ((page.space outer).write word.2).shift 1, inside⟩ limit := by
  have place : follow? outer word = some inside := by
    rw [follow?_starting outer (Or.inl opening), received, Option.bind_some, begun]
  have next := finish_of_follow limit page ready coming place fun _ => room
  rwa [Page.put_opening opening, Page.separate_starting (Or.inl opening)] at next

theorem finish_arrayEnd (page : Page) (tagged filled : Bool) (outer : List Frame) (ready : rest.Ready)
    (coming : cursor.Coming ((.arrayEnd, ")") :: words) rest) :
    ∃ after : Cursor, after.Coming words rest ∧
      finish ⟨cursor, page, .array tagged filled :: outer⟩ limit =
        resume ⟨after, if filled && !tagged then (page.shift (-1)).startLine ")"
          else (page.shift (-1)).write ")", outer⟩ limit := by
  have place : follow? (.array tagged filled :: outer) (.arrayEnd, ")") = some outer := rfl
  exact finish_of_follow limit page ready coming place fun opening =>
    absurd (Or.inl opening) (Word.Closing.not_starting (Or.inr rfl))

theorem finish_nodeEnd (page : Page) (ending : NodeEnding) (outer : List Frame) (ready : rest.Ready)
    (coming : cursor.Coming ((.nodeEnd, "\x7d") :: words) rest) :
    ∃ after : Cursor, after.Coming words rest ∧
      finish ⟨cursor, page, .node ending :: outer⟩ limit =
        resume ⟨after, if decide (ending ≠ .start) then (page.shift (-1)).startLine "\x7d"
          else (page.shift (-1)).write "\x7d", outer⟩ limit := by
  have place : follow? (.node ending :: outer) (.nodeEnd, "\x7d") = some outer := rfl
  exact finish_of_follow limit page ready coming place fun opening =>
    absurd (Or.inl opening) (Word.Closing.not_starting (Or.inl rfl))

theorem finish_key {page : Page} {key : String} (ending : NodeEnding) (outer : List Frame)
    (ready : rest.Ready) (begun : page.text ≠ "") (coming : cursor.Coming ((.key, key) :: words) rest) :
    ∃ after : Cursor, after.Coming words rest ∧
      finish ⟨cursor, page, .node ending :: outer⟩ limit =
        finish ⟨after, page.write (Page.newLine page.width page.depth ++ (key ++ " ")),
          .node .key :: outer⟩ limit := by
  have place : follow? (.node ending :: outer) (.key, key) = some (.node .key :: outer) := rfl
  obtain ⟨after, behind, next⟩ := finish_of_follow limit page ready coming place
    fun opening => absurd (Or.inl opening) (Word.not_starting_of_key rfl)
  rw [Page.put_key rfl, Page.startLine_eq begun] at next
  exact ⟨after, behind, next⟩

mutual

/-- A value is printed as it is rendered from its tree. -/
theorem finish_dump (dump : Dump) {cursor : Cursor} (page : Page) {outer frames : List Frame}
    {words : List Word} (ready : rest.Ready) (received : receive? outer = some frames)
    (room : Within limit (outer.length + dump.height)) (solid : ∀ word ∈ dump.words, word.2 ≠ "")
    (coming : cursor.Coming (dump.words ++ words) rest) :
    ∃ after : Cursor, after.Coming words rest ∧ finish ⟨cursor, page, outer⟩ limit =
      resume ⟨after, (page.space outer).write (dump.render (Page.newLine page.width) page.depth),
        frames⟩ limit := by
  match dump with
  | .string text => exact finish_scalar limit page ready (Or.inl rfl) received coming
  | .atom text => exact finish_scalar limit page ready (Or.inr rfl) received coming
  | .array tag elements =>
    have levels := length_receive? received
    simp only [Dump.words, List.cons_append, List.append_assoc] at coming
    have inside : begin? frames (.arrayStart, "(" ++ tag) =
        some (.array (tag ≠ "") false :: frames) := by
      simp [begin?, Word.tag]
    obtain ⟨first, coming, opened⟩ := finish_opening limit page ready (Or.inr rfl) received inside
      (room.mono (by simp [Dump.height])) coming
    have begun : (((page.space outer).write ("(" ++ tag)).shift 1).text ≠ "" :=
      Page.write_text_ne_empty _ (by simp)
    obtain ⟨second, coming, filled⟩ := finish_elements elements ready begun (tag ≠ "") false
      frames (room.mono (by simp [Dump.height]; omega))
      (fun word member => solid word (by simp [Dump.words, member])) coming
    obtain ⟨third, coming, closed⟩ := finish_arrayEnd limit _ _ _ frames ready coming
    refine ⟨third, coming, ?_⟩
    rw [opened, resume_cons, filled, closed, Page.close_eq _ (by simp)]
    cases elements with
    | nil => simp [Elements.filled, Elements.renderRow, Elements.renderLines, Dump.render]
    | cons value later =>
      by_cases bare : tag = "" <;> simp [bare, Elements.filled, Dump.render, String.append_assoc]
  | .node opening attributes =>
    have levels := length_receive? received
    simp only [Dump.words, List.cons_append, List.append_assoc] at coming
    have inside : begin? frames (.nodeStart, opening) = some (.node .start :: frames) := rfl
    obtain ⟨first, coming, opened⟩ := finish_opening limit page ready (Or.inl rfl) received inside
      (room.mono (by simp [Dump.height])) coming
    have some_char : opening ≠ "" := solid (.nodeStart, opening) (by simp [Dump.words])
    have begun : (((page.space outer).write opening).shift 1).text ≠ "" :=
      Page.write_text_ne_empty _ some_char
    obtain ⟨second, coming, filled⟩ := finish_attributes attributes ready begun .start frames
      (room.mono (by simp [Dump.height]; omega))
      (fun word member => solid word (by simp [Dump.words, member])) coming
    obtain ⟨third, coming, closed⟩ := finish_nodeEnd limit _ _ frames ready coming
    refine ⟨third, coming, ?_⟩
    rw [opened, resume_cons, filled, closed, Page.close_eq _ some_char]
    cases attributes with
    | nil => simp [Attributes.ending, Attributes.render, Dump.render]
    | bare key later =>
      have broken : later.ending .key ≠ .start := later.ending_ne_start (by decide)
      simp [Attributes.ending, broken, Dump.render, String.append_assoc]
    | valued key value later =>
      have broken : later.ending .value ≠ .start := later.ending_ne_start (by decide)
      simp [Attributes.ending, broken, Dump.render, String.append_assoc]

theorem finish_elements (elements : Elements) {cursor : Cursor} {page : Page} {words : List Word}
    (ready : rest.Ready) (begun : page.text ≠ "") (tagged filled : Bool) (outer : List Frame)
    (room : Within limit (outer.length + 1 + elements.height))
    (solid : ∀ word ∈ elements.words, word.2 ≠ "")
    (coming : cursor.Coming (elements.words ++ words) rest) :
    ∃ after : Cursor, after.Coming words rest ∧
      finish ⟨cursor, page, .array tagged filled :: outer⟩ limit =
        finish ⟨after, page.write
          (if tagged then elements.renderRow (Page.newLine page.width) page.depth
            else elements.renderLines (Page.newLine page.width) page.depth),
          .array tagged (elements.filled filled) :: outer⟩ limit := by
  match elements with
  | .nil =>
    refine ⟨cursor, coming, ?_⟩
    simp [Elements.renderRow, Elements.renderLines, Elements.filled, Page.write]
  | .cons first later =>
    simp only [Elements.words, List.append_assoc] at coming
    have received : receive? (.array tagged filled :: outer) = some (.array tagged true :: outer) := rfl
    obtain ⟨second, coming, value⟩ := finish_dump first page ready received
      (room.mono (by simp only [Elements.height, List.length_cons]; omega))
      (fun word member => solid word (by simp [Elements.words, member])) coming
    have separated : (page.space (.array tagged filled :: outer)).text ≠ "" := by
      rw [Page.space]
      split
      · exact Page.write_ne_empty begun _
      · rw [Page.startLine_eq begun]
        exact Page.write_ne_empty begun _
    obtain ⟨third, coming, values⟩ := finish_elements later ready (Page.write_ne_empty separated _) tagged true
      outer (room.mono (by simp only [Elements.height]; omega))
      (fun word member => solid word (by simp [Elements.words, member])) coming
    refine ⟨third, coming, ?_⟩
    rw [value, resume_cons, values]
    have last : later.filled true = true := by cases later <;> rfl
    rw [last]
    cases tagged with
    | true => simp [Page.space, Page.write_write, Elements.renderRow, Elements.filled, String.append_assoc]
    | false =>
      simp [Page.space, Page.startLine_eq begun, Page.write_write, Elements.renderLines, Elements.filled,
        String.append_assoc]

theorem finish_attributes (attributes : Attributes) {cursor : Cursor} {page : Page} {words : List Word}
    (ready : rest.Ready) (begun : page.text ≠ "") (ending : NodeEnding) (outer : List Frame)
    (room : Within limit (outer.length + 1 + attributes.height))
    (solid : ∀ word ∈ attributes.words, word.2 ≠ "")
    (coming : cursor.Coming (attributes.words ++ words) rest) :
    ∃ after : Cursor, after.Coming words rest ∧
      finish ⟨cursor, page, .node ending :: outer⟩ limit =
        finish ⟨after, page.write (attributes.render (Page.newLine page.width) page.depth),
          .node (attributes.ending ending) :: outer⟩ limit := by
  match attributes with
  | .nil => exact ⟨cursor, coming, by simp [Attributes.render, Attributes.ending, Page.write]⟩
  | .bare key later =>
    obtain ⟨second, coming, keyed⟩ := finish_key limit ending outer ready begun coming
    obtain ⟨third, coming, others⟩ := finish_attributes later ready (Page.write_ne_empty begun _) .key outer
      (room.mono (by simp only [Attributes.height]; omega))
      (fun word member => solid word (by simp [Attributes.words, member])) coming
    refine ⟨third, coming, ?_⟩
    rw [keyed, others]
    simp [Page.write_write, Attributes.render, Attributes.ending, String.append_assoc]
  | .valued key value later =>
    simp only [Attributes.words, List.cons_append, List.append_assoc] at coming
    obtain ⟨second, coming, keyed⟩ := finish_key limit ending outer ready begun coming
    have received : receive? (.node .key :: outer) = some (.node .value :: outer) := rfl
    obtain ⟨third, coming, printed⟩ := finish_dump value
      (page.write (Page.newLine page.width page.depth ++ (key ++ " "))) ready received
      (room.mono (by simp only [Attributes.height, List.length_cons]; omega))
      (fun word member => solid word (by simp [Attributes.words, member])) coming
    have written : ((page.write (Page.newLine page.width page.depth ++ (key ++ " "))).space
        (.node .key :: outer)).text ≠ "" := Page.write_ne_empty begun _
    obtain ⟨fourth, coming, others⟩ := finish_attributes later ready (Page.write_ne_empty written _) .value
      outer (room.mono (by simp only [Attributes.height]; omega))
      (fun word member => solid word (by simp [Attributes.words, member])) coming
    refine ⟨fourth, coming, ?_⟩
    rw [keyed, printed, resume_cons, others]
    simp [Page.space, Page.write_write, Attributes.render, Attributes.ending, String.append_assoc]

end

end Printer

end NodeDump
