import NodeDump.Proofs.Printer.Enclosing
import NodeDump.Proofs.Printer.Value

/-!
The layout as a function of the words. What stands between two words depends on the construct they stand in and on
the number of constructs that are open, which the words in front tell. What the words tell of the innermost
construct agrees with what is open, and nothing is put between words but blanks and line feeds.
-/

namespace NodeDump

def Plain (gap : List Char) : Prop := ∀ c ∈ gap, c = ' ' ∨ c = '\n'

theorem Plain.append {first second : List Char} (plain : Plain first) (plain' : Plain second) :
    Plain (first ++ second) :=
  List.forall_mem_append.2 ⟨plain, plain'⟩

theorem Plain.run {gap : List Char} (plain : Plain gap) : Lexeme.Run Char.isWhitespace gap := by
  intro c member
  rcases plain c member with rfl | rfl <;> decide

theorem plain_nil : Plain [] := by simp [Plain]

theorem plain_space : Plain " ".toList := by simp [Plain]

theorem plain_newLine (width depth : Int) : Plain (Page.newLine width depth).toList := by
  intro c member
  simp only [Page.newLine, String.toList_ofList, List.mem_cons, List.mem_replicate] at member
  rcases member with feed | ⟨-, space⟩
  · exact Or.inr feed
  · exact Or.inl space

/-- How the inside of a construct is laid out: attributes, elements on lines of their own, or in a row. -/
inductive Setting where
  | attributes | lines | row
  deriving DecidableEq, Repr

def Word.setting (opening : Word) : Setting :=
  if opening.1 = .nodeStart then .attributes else if opening.tag = "" then .lines else .row

def setting? (before : List Word) : Option Setting := (openWords before).head?.map Word.setting

/-- A key, or the first word of an element of an array without a tag. -/
def StartsLine (before : List Word) (word : Word) : Prop :=
  word.1 = .key ∨ word.Starting ∧ setting? before = some .lines

instance (before : List Word) (word : Word) : Decidable (StartsLine before word) :=
  inferInstanceAs (Decidable (_ ∨ _))

/-- The end of a node or of an array without a tag, with something inside. -/
def EndsLines (before : List Word) (word : Word) : Prop :=
  word.Closing ∧ (setting? before = some .attributes ∨ setting? before = some .lines) ∧ ¬JustOpened before

instance (before : List Word) (word : Word) : Decidable (EndsLines before word) :=
  inferInstanceAs (Decidable (_ ∧ _))

def StartsElement (before : List Word) (word : Word) : Prop :=
  word.Starting ∧ setting? before = some .row

instance (before : List Word) (word : Word) : Decidable (StartsElement before word) :=
  inferInstanceAs (Decidable (_ ∧ _))

/-- What a word has in front of it, whatever the word before it leaves behind itself. -/
def separator (width : Int) (before : List Word) (word : Word) : String :=
  if StartsLine before word then Page.newLine width (openLevels before)
  else if EndsLines before word then Page.newLine width (openLevels before - 1)
  else if StartsElement before word then " "
  else ""

def trail (before : List Word) : String :=
  if ∃ last ∈ before.getLast?, last.1 = .key then " " else ""

/-- All that stands between a word and the last one of those in front of it. -/
def lead (width : Int) : List Word → Word → String
  | [], _ => ""
  | before, word => trail before ++ separator width before word

theorem lead_of_ne_nil {before : List Word} (some_word : before ≠ []) (width : Int) (word : Word) :
    lead width before word = trail before ++ separator width before word := by
  cases before with
  | nil => contradiction
  | cons first later => rfl

/-- Some words, and what stands in front of each, when others have been laid out already. -/
def arrange (width : Int) (before : List Word) : List Word → List (List Char × Word)
  | [] => []
  | word :: later => ((lead width before word).toList, word) :: arrange width (before ++ [word]) later

theorem arrange_append (width : Int) (before first second : List Word) :
    arrange width before (first ++ second) =
      arrange width before first ++ arrange width (before ++ first) second := by
  induction first generalizing before with
  | nil => simp [arrange]
  | cons word first ih => simp [arrange, ih]

@[simp] theorem map_snd_arrange (width : Int) (before words : List Word) :
    (arrange width before words).map Prod.snd = words := by
  induction words generalizing before with
  | nil => rfl
  | cons word words ih => simp [arrange, ih]

/-- An array in a row, and one on lines that is still open. -/
example : spell (arrange 2 [] [(.nodeStart, "\x7bA"), (.key, ":a"), (.arrayStart, "(o"), (.atom, "1"),
    (.arrayEnd, ")"), (.key, ":b"), (.arrayStart, "("), (.atom, "2")]) [] =
      "\x7bA\n  :a (o 1)\n  :b (\n    2".toList := by decide

theorem length_arrange (width : Int) (before words : List Word) :
    (arrange width before words).length = words.length := by
  rw [← List.length_map Prod.snd, map_snd_arrange]

theorem plain_trail (before : List Word) : Plain (trail before).toList := by
  unfold trail
  split
  · exact plain_space
  · exact plain_nil

theorem plain_separator (width : Int) (before : List Word) (word : Word) :
    Plain (separator width before word).toList := by
  unfold separator
  split
  · exact plain_newLine _ _
  · split
    · exact plain_newLine _ _
    · split
      · exact plain_space
      · exact plain_nil

theorem plain_lead (width : Int) (before : List Word) (word : Word) :
    Plain (lead width before word).toList := by
  cases before with
  | nil => exact plain_nil
  | cons first later =>
    rw [lead_of_ne_nil (by simp), String.toList_append]
    exact (plain_trail _).append (plain_separator width _ word)

theorem plain_arrange (width : Int) (before words : List Word) :
    ∀ item ∈ arrange width before words, Plain item.1 := by
  induction words generalizing before with
  | nil => simp [arrange]
  | cons word words ih => exact List.forall_mem_cons.2 ⟨plain_lead width before word, ih _⟩

theorem trail_concat (before : List Word) (word : Word) :
    trail (before ++ [word]) = if word.1 = .key then " " else "" := by
  simp [trail]

theorem separator_of_starting {word : Word} (starting : word.Starting) (width : Int) (before : List Word) :
    separator width before word =
      if setting? before = some .lines then Page.newLine width (openLevels before)
      else if setting? before = some .row then " " else "" := by
  have noKey : word.1 ≠ .key := fun key => Word.not_starting_of_key key starting
  have noClosing : ¬word.Closing := fun closing => closing.not_starting starting
  simp [separator, StartsLine, EndsLines, StartsElement, starting, noKey, noClosing]

theorem separator_of_key {word : Word} (key : word.1 = .key) (width : Int) (before : List Word) :
    separator width before word = Page.newLine width (openLevels before) :=
  if_pos (Or.inl key)

theorem separator_of_closing {word : Word} (closing : word.Closing) (width : Int) (before : List Word) :
    separator width before word =
      if (setting? before = some .attributes ∨ setting? before = some .lines) ∧ ¬JustOpened before then
        Page.newLine width (openLevels before - 1)
      else "" := by
  simp [separator, StartsLine, EndsLines, StartsElement, closing, closing.not_key, closing.not_starting]

def Frame.setting : Frame → Setting
  | .node _ => .attributes
  | .array tagged _ => if tagged then .row else .lines

theorem Frame.OpenedBy.setting_eq {frame : Frame} {opening : Word} (opened : frame.OpenedBy opening) :
    opening.setting = frame.setting := by
  cases frame with
  | node ending =>
    have kind : opening.1 = .nodeStart := opened
    simp [Word.setting, Frame.setting, kind]
  | array tagged filled =>
    obtain ⟨kind, rfl⟩ := opened
    by_cases bare : opening.tag = "" <;> simp [Word.setting, Frame.setting, kind, bare]

namespace Encloses

variable {frames inner : List Frame} {frame : Frame} {words : List Word} {word : Word}

theorem setting?_eq (encloses : Encloses frames words) :
    setting? words = frames.head?.map Frame.setting := by
  have opened := encloses.opened
  unfold setting?
  generalize openWords words = openings at opened
  cases opened with
  | nil => rfl
  | cons same _ => simp [same.setting_eq]

theorem justOpened_iff (encloses : Encloses (frame :: frames) words) : JustOpened words ↔ frame.IsEmpty :=
  (encloses.inner frame rfl).symm

theorem isBroken_iff (encloses : Encloses (frame :: frames) words) :
    isBroken (frame :: frames) = true ↔
      (setting? words = some .attributes ∨ setting? words = some .lines) ∧ ¬JustOpened words := by
  rw [encloses.justOpened_iff, encloses.setting?_eq]
  cases frame with
  | node ending => simp [isBroken, Frame.IsEmpty, Frame.setting]
  | array tagged filled => cases tagged <;> simp [isBroken, Frame.IsEmpty, Frame.setting]

end Encloses

/-- The first word in place stands at the start of the text. -/
theorem lead_of_follow {frames inner : List Frame} {words : List Word} {word : Word}
    (encloses : Encloses frames words) (place : follow? frames word = some inner) (width : Int) :
    lead width words word = trail words ++ separator width words word := by
  cases words with
  | cons first later => exact lead_of_ne_nil (by simp) width word
  | nil =>
    obtain rfl : frames = [] := List.forall₂_nil_right_iff.1 encloses.opened
    have starting : word.Starting := by
      rcases sort_of_follow place with starting | key | closing
      · exact starting
      · simp [follow?, begin?, key] at place
      · obtain ⟨frame, none⟩ := Spine.follow?_closing closing place
        contradiction
    rw [separator_of_starting starting, encloses.setting?_eq]
    rfl

end NodeDump
