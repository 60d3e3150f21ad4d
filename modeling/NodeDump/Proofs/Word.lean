import NodeDump.Token

/-!
Tokens without their places, sorted by the part they play in a dump.
-/

namespace NodeDump

abbrev Word := Kind × String

def Token.word (token : Token) : Word := (token.kind, token.text)

namespace Word

def tag (word : Word) : String := String.ofList word.2.toList.tail

def Opening (word : Word) : Prop := word.1 = .nodeStart ∨ word.1 = .arrayStart

def Closing (word : Word) : Prop := word.1 = .nodeEnd ∨ word.1 = .arrayEnd

def Scalar (word : Word) : Prop := word.1 = .string ∨ word.1 = .atom

theorem Scalar.not_opening {word : Word} (scalar : word.Scalar) : ¬word.Opening := by
  rcases scalar with kind | kind <;> simp [Opening, kind]

def Starting (word : Word) : Prop := word.Opening ∨ word.Scalar

theorem starting_atom (text : String) : Starting (.atom, text) := Or.inr (Or.inr rfl)

theorem Closing.not_starting {word : Word} (closing : word.Closing) : ¬word.Starting := by
  rcases closing with kind | kind <;> simp [Starting, Opening, Scalar, kind]

theorem not_starting_of_key {word : Word} (key : word.1 = .key) : ¬word.Starting := by
  simp [Starting, Opening, Scalar, key]

theorem Scalar.not_closing {word : Word} (scalar : word.Scalar) : ¬word.Closing :=
  fun closing => closing.not_starting (Or.inr scalar)

theorem Closing.not_key {word : Word} (closing : word.Closing) : word.1 ≠ .key := by
  rcases closing with kind | kind <;> simp [kind]

theorem not_opening_of_key {word : Word} (key : word.1 = .key) : ¬word.Opening :=
  fun opening => not_starting_of_key key (Or.inl opening)

theorem not_closing_of_key {word : Word} (key : word.1 = .key) : ¬word.Closing :=
  fun closing => closing.not_key key

instance (word : Word) : Decidable word.Opening := inferInstanceAs (Decidable (_ ∨ _))

instance (word : Word) : Decidable word.Closing := inferInstanceAs (Decidable (_ ∨ _))

instance (word : Word) : Decidable word.Scalar := inferInstanceAs (Decidable (_ ∨ _))

instance (word : Word) : Decidable word.Starting := inferInstanceAs (Decidable (_ ∨ _))

def rise (word : Word) : Int :=
  match word.1 with
  | .nodeStart | .arrayStart => 1
  | .nodeEnd | .arrayEnd => -1
  | _ => 0

theorem rise_le_one (word : Word) : word.rise ≤ 1 := by
  unfold rise
  split <;> decide

theorem opening_of_rise {word : Word} (rises : 0 < word.rise) : word.Opening := by
  unfold rise at rises
  split at rises
  · exact Or.inl ‹_›
  · exact Or.inr ‹_›
  · contradiction
  · contradiction
  · contradiction

theorem rise_of_opening {word : Word} (opening : word.Opening) : word.rise = 1 := by
  rcases opening with kind | kind <;> rw [rise, kind]

theorem rise_of_closing {word : Word} (closing : word.Closing) : word.rise = -1 := by
  rcases closing with kind | kind <;> rw [rise, kind]

theorem rise_of_other {word : Word} (noOpening : ¬word.Opening) (noClosing : ¬word.Closing) :
    word.rise = 0 := by
  unfold rise
  split
  · exact absurd (Or.inl ‹_›) noOpening
  · exact absurd (Or.inr ‹_›) noOpening
  · exact absurd (Or.inl ‹_›) noClosing
  · exact absurd (Or.inr ‹_›) noClosing
  · rfl

end Word

/-- The words that open a node or an array, less those that close one. -/
def openLevels : List Word → Int
  | [] => 0
  | word :: later => word.rise + openLevels later

theorem openLevels_append (first second : List Word) :
    openLevels (first ++ second) = openLevels first + openLevels second := by
  induction first with
  | nil => simp [openLevels]
  | cons word first ih =>
    rw [List.cons_append, openLevels, openLevels, ih]
    omega

theorem openLevels_concat (words : List Word) (word : Word) :
    openLevels (words ++ [word]) = openLevels words + word.rise := by
  simp [openLevels_append, openLevels]

end NodeDump
