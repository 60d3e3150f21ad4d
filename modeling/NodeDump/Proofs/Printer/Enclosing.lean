import NodeDump.Proofs.Printer.Spine

/-!
The constructs that a word stands in, told from the words in front of it. The printer holds just those constructs
open whose opening words have not been closed, and only the innermost one is empty, in which case its opening word
is the last word.
-/

namespace NodeDump

namespace Word

def enclose (openings : List Word) (word : Word) : List Word :=
  match word.1 with
  | .nodeStart | .arrayStart => word :: openings
  | .nodeEnd | .arrayEnd => openings.tail
  | _ => openings

theorem enclose_of_opening {word : Word} (opening : word.Opening) (openings : List Word) :
    enclose openings word = word :: openings := by
  rcases opening with kind | kind <;> rw [enclose, kind]

theorem enclose_of_closing {word : Word} (closing : word.Closing) (openings : List Word) :
    enclose openings word = openings.tail := by
  rcases closing with kind | kind <;> rw [enclose, kind]

theorem enclose_of_other {word : Word} (noOpening : ¬word.Opening) (noClosing : ¬word.Closing)
    (openings : List Word) : enclose openings word = openings := by
  unfold enclose
  split
  · exact absurd (Or.inl ‹_›) noOpening
  · exact absurd (Or.inr ‹_›) noOpening
  · exact absurd (Or.inl ‹_›) noClosing
  · exact absurd (Or.inr ‹_›) noClosing
  · rfl

end Word

/-- The words that open what is still open, the innermost first. -/
def openWords (words : List Word) : List Word := words.foldl Word.enclose []

theorem openWords_concat (words : List Word) (word : Word) :
    openWords (words ++ [word]) = Word.enclose (openWords words) word := by
  simp [openWords]

/-- The last word opens a construct, which is therefore empty. -/
def JustOpened (before : List Word) : Prop := ∃ last ∈ before.getLast?, last.Opening

instance (before : List Word) : Decidable (JustOpened before) :=
  inferInstanceAs (Decidable (∃ last ∈ before.getLast?, last.Opening))

theorem justOpened_concat (words : List Word) (word : Word) : JustOpened (words ++ [word]) ↔ word.Opening := by
  simp [JustOpened]

namespace Frame

def OpenedBy : Frame → Word → Prop
  | .node _, word => word.1 = .nodeStart
  | .array tagged _, word => word.1 = .arrayStart ∧ tagged = decide (word.tag ≠ "")

def IsEmpty : Frame → Prop
  | .node ending => ending = .start
  | .array _ filled => filled = false

end Frame

/-- What is open, and the words that have led there. -/
structure Encloses (frames : List Frame) (words : List Word) : Prop where
  opened : List.Forall₂ Frame.OpenedBy frames (openWords words)
  outer : ∀ frame ∈ frames.tail, ¬frame.IsEmpty
  inner : ∀ frame ∈ frames.head?, (frame.IsEmpty ↔ JustOpened words)

namespace Encloses

variable {frames inner : List Frame} {words : List Word} {word : Word}

theorem start : Encloses [] [] where
  opened := .nil
  outer := by simp
  inner := by simp

theorem receive (encloses : Encloses frames words) (received : receive? frames = some inner) :
    List.Forall₂ Frame.OpenedBy inner (openWords words) ∧ ∀ frame ∈ inner, ¬frame.IsEmpty := by
  obtain ⟨opened, outer, -⟩ := encloses
  cases frames with
  | nil =>
    cases received
    exact ⟨opened, by simp⟩
  | cons frame frames =>
    obtain ⟨opening, openings, same, behind, words⟩ := List.forall₂_cons_left_iff.1 opened
    rw [words]
    cases frame with
    | node ending =>
      obtain ⟨-, rfl⟩ : ending = .key ∧ .node .value :: frames = inner := by simpa [receive?] using received
      exact ⟨.cons same behind, List.forall_mem_cons.2 ⟨by simp [Frame.IsEmpty], outer⟩⟩
    | array tagged filled =>
      cases received
      exact ⟨.cons same behind, List.forall_mem_cons.2 ⟨by simp [Frame.IsEmpty], outer⟩⟩

theorem follow_opening (encloses : Encloses frames words) (opening : word.Opening)
    (place : follow? frames word = some inner) : Encloses inner (words ++ [word]) := by
  obtain ⟨middle, received, begun⟩ := receive?_of_follow (Or.inl opening) place
  obtain ⟨opened, filled⟩ := encloses.receive received
  -- The new construct is empty, and its opening word is the last one.
  have grown (frame : Frame) (opens : frame.OpenedBy word) (empty : frame.IsEmpty) :
      Encloses (frame :: middle) (words ++ [word]) := by
    refine ⟨?_, filled, ?_⟩
    · rw [openWords_concat, Word.enclose_of_opening opening]
      exact .cons opens opened
    · intro other front
      obtain rfl : frame = other := by simpa using front
      exact iff_of_true empty ((justOpened_concat words word).2 opening)
  rcases opening with kind | kind
  · obtain rfl : .node .start :: middle = inner := by simpa [begin?, kind] using begun
    exact grown _ kind rfl
  · obtain rfl : .array (word.tag ≠ "") false :: middle = inner := by simpa [begin?, kind] using begun
    exact grown _ ⟨kind, rfl⟩ rfl

theorem of_filled (opened : List.Forall₂ Frame.OpenedBy inner (openWords (words ++ [word])))
    (filled : ∀ frame ∈ inner, ¬frame.IsEmpty) (other : ¬word.Opening) :
    Encloses inner (words ++ [word]) := by
  refine ⟨opened, fun frame member => filled frame (List.mem_of_mem_tail member), ?_⟩
  intro frame front
  rw [justOpened_concat]
  exact iff_of_false (filled frame (List.mem_of_mem_head? front)) other

theorem follow_scalar (encloses : Encloses frames words) (scalar : word.Scalar)
    (place : follow? frames word = some inner) : Encloses inner (words ++ [word]) := by
  obtain ⟨middle, received, begun⟩ := receive?_of_follow (Or.inr scalar) place
  obtain ⟨opened, filled⟩ := encloses.receive received
  have same : middle = inner := by
    rcases scalar with kind | kind <;> simpa [begin?, kind] using begun
  subst same
  refine of_filled ?_ filled scalar.not_opening
  rwa [openWords_concat, Word.enclose_of_other scalar.not_opening scalar.not_closing]

theorem follow_key (encloses : Encloses frames words) (key : word.1 = .key)
    (place : follow? frames word = some inner) : Encloses inner (words ++ [word]) := by
  have same : word = (.key, word.2) := Prod.ext key rfl
  rw [same] at place
  obtain ⟨ending, outer, rfl, rfl⟩ := Spine.follow?_key place
  obtain ⟨opening, openings, opened, behind, open_eq⟩ := List.forall₂_cons_left_iff.1 encloses.opened
  refine of_filled ?_ (List.forall_mem_cons.2 ⟨by simp [Frame.IsEmpty], encloses.outer⟩)
    (Word.not_opening_of_key key)
  rw [openWords_concat, Word.enclose_of_other (Word.not_opening_of_key key) (Word.not_closing_of_key key),
    open_eq]
  exact .cons opened behind

theorem follow_closing (encloses : Encloses frames words) (closing : word.Closing)
    (place : follow? frames word = some inner) : Encloses inner (words ++ [word]) := by
  obtain ⟨frame, rfl⟩ := Spine.follow?_closing closing place
  obtain ⟨opening, openings, -, behind, open_eq⟩ := List.forall₂_cons_left_iff.1 encloses.opened
  refine of_filled ?_ encloses.outer fun opens => closing.not_starting (Or.inl opens)
  rw [openWords_concat, Word.enclose_of_closing closing, open_eq]
  exact behind

theorem follow (encloses : Encloses frames words) (place : follow? frames word = some inner) :
    Encloses inner (words ++ [word]) := by
  rcases sort_of_follow place with (opening | scalar) | key | closing
  · exact encloses.follow_opening opening place
  · exact encloses.follow_scalar scalar place
  · exact encloses.follow_key key place
  · exact encloses.follow_closing closing place

end Encloses

end NodeDump
